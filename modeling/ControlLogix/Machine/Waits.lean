import ControlLogix.Machine.Deadlines

namespace ControlLogix

def Waits (t : TcpConnection) (w : World) (st : Status) (t' : TcpConnection) (w' : World) : Prop :=
  (t' = t ∨ st = .closed) ∧ w'.time = w.time

namespace TcpConnection

theorem write_waits (t : TcpConnection) (buffer : List UInt8) (off length : Nat) (w : World) :
    let r := t.write buffer off length w
    (r.2.1 = t ∨ r.1 = .error .closed) ∧ r.2.2.time = w.time := by
  have htime : (w.lwipSend t.fd buffer off length).2.time = w.time := by
    simp only [World.lwipSend]
    split
    · rfl
    · split <;> rfl
  simp only [write]
  split_ifs
  · exact ⟨Or.inl rfl,rfl⟩
  · exact ⟨Or.inl rfl,rfl⟩
  · split
    · next h => rw [h] at htime; exact ⟨Or.inl rfl,htime⟩
    · next h =>
      rw [h] at htime
      split_ifs
      · exact ⟨Or.inl rfl,htime⟩
      · exact ⟨Or.inr rfl,htime⟩
      · exact ⟨Or.inl rfl,htime⟩

theorem read_waits (t : TcpConnection) (length : Nat) (w : World) :
    let r := t.read length w
    (r.2.1 = t ∨ r.1 = .error .closed) ∧ r.2.2.time = w.time := by
  have htime : (w.lwipRecv t.fd length).2.time = w.time := by
    simp only [World.lwipRecv]
    split <;> rfl
  simp only [read]
  split_ifs
  · exact ⟨Or.inl rfl,rfl⟩
  · exact ⟨Or.inl rfl,rfl⟩
  · split
    · next h => rw [h] at htime; exact ⟨Or.inr rfl,htime⟩
    · next h => rw [h] at htime; exact ⟨Or.inl rfl,htime⟩
    · next h =>
      rw [h] at htime
      split_ifs
      · exact ⟨Or.inl rfl,htime⟩
      · exact ⟨Or.inl rfl,htime⟩

end TcpConnection

namespace Transfer

theorem writeLoop_waits (fuel : Nat) (x : Transfer) (t : TcpConnection) (w : World) :
    let r := writeLoop fuel x t w
    Waits t w r.1 r.2.2.1 r.2.2.2 := by
  induction fuel generalizing x t w with
  | zero => exact ⟨Or.inl rfl,rfl⟩
  | succ fuel ih =>
    rw [writeLoop]
    split_ifs
    · have hwrite := t.write_waits x.tx x.txSent (x.tx.length - x.txSent) w
      split
      · next h => rw [h] at hwrite; exact ⟨Or.inl (hwrite.1.resolve_right (by simp)),hwrite.2⟩
      · next n t' w' _ h =>
        rw [h] at hwrite
        obtain rfl : t' = t := hwrite.1.resolve_right (by simp)
        have hrest := ih {x with txSent := x.txSent + n} t' w'
        exact ⟨hrest.1,hrest.2.trans hwrite.2⟩
      · next h =>
        rw [h] at hwrite
        exact ⟨hwrite.1.imp_right fun he => (by cases he; rfl),hwrite.2⟩
    · exact ⟨Or.inl rfl,rfl⟩

theorem readLoop_waits (cap fuel : Nat) (x : Transfer) (t : TcpConnection) (w : World) :
    let r := readLoop cap fuel x t w
    Waits t w r.1 r.2.2.1 r.2.2.2 := by
  induction fuel generalizing x t w with
  | zero => exact ⟨Or.inl rfl,rfl⟩
  | succ fuel ih =>
    rw [readLoop]
    split_ifs
    · have hread := t.read_waits (x.rxExpected - x.rx.length) w
      split
      · next h => rw [h] at hread; exact ⟨Or.inl (hread.1.resolve_right (by simp)),hread.2⟩
      · next t' w' _ h =>
        rw [h] at hread
        obtain rfl : t' = t := hread.1.resolve_right (by simp)
        have htime : w'.time = w.time := hread.2
        have hrest (y : Transfer) := ih y t' w'
        simp only
        split_ifs
        · exact ⟨Or.inl rfl,htime⟩
        · exact ⟨(hrest _).1,(hrest _).2.trans htime⟩
        · exact ⟨(hrest _).1,(hrest _).2.trans htime⟩
      · next h =>
        rw [h] at hread
        exact ⟨hread.1.imp_right fun he => (by cases he; rfl),hread.2⟩
    · exact ⟨Or.inl rfl,rfl⟩

theorem writePending_waits {x y : Transfer} {t u : TcpConnection} {w v : World} {st : Status}
    (h : x.writePending t w = (st,y,u,v)) : Waits t w st u v := by
  have hwrite := writeLoop_waits (x.tx.length - x.txSent + 1) x t w
  rw [writePending] at h
  rwa [h] at hwrite

theorem readResponse_waits {x y z : Transfer} {t u t' : TcpConnection} {w v w' : World} {cap : Nat}
    {st : Status} (hwrite : x.writePending t w = (.ok,y,u,v))
    (hread : y.readResponse cap u v = (st,z,t',w')) : Waits t w st t' w' := by
  obtain ⟨hconn,htime⟩ := writePending_waits hwrite
  obtain rfl := hconn.resolve_right (by simp)
  have hall := readLoop_waits cap (y.rxExpected - y.rx.length + cap + 1) y u v
  rw [readResponse] at hread
  rw [hread] at hall
  exact ⟨hall.1,hall.2.trans htime⟩

end Transfer

theorem Session.poll_waits {s s' : Session} (hs : s.exchanging = true) {t t' : TcpConnection}
    {w w' : World} {st : Status} (h : s.poll t w = (st,s',t',w')) : Waits t w.millis.2 st t' w' := by
  have hturned := poll_turned hs t w
  rw [h] at hturned
  cases hturned with
  | late _ => exact ⟨Or.inl rfl,rfl⟩
  | unsent _ hwrite _ => exact Transfer.writePending_waits hwrite
  | read _ hwrite hread =>
    obtain ⟨hconn,htime⟩ := Transfer.readResponse_waits hwrite hread
    exact ⟨hconn.imp_right fun hclosed => by rw [hclosed]; rfl,htime⟩

theorem ExplicitMessage.poll_waits {m m' : ExplicitMessage} (hm : m.inFlight = true)
    {t t' : TcpConnection} {w w' : World} {st : Status} (h : m.poll t w = (st,m',t',w')) :
    Waits t w.millis.2 st t' w' := by
  unfold poll at h
  split at h
  · next hs => simp [hs] at hm
  · next hs => simp [hs] at hm
  · next hs => simp [hs] at hm
  by_cases hlate : expired w.millis.1 m.deadline = true
  · simp only [if_pos hlate] at h
    cases h
    exact ⟨Or.inl rfl,rfl⟩
  simp only [if_neg hlate] at h
  rcases hwrite : m.io.writePending t w.millis.2 with ⟨got,x,u,v⟩
  have hsent := Transfer.writePending_waits hwrite
  simp only [hwrite] at h
  by_cases hgot : got = .ok
  · subst hgot
    rw [if_neg (not_not.mpr rfl)] at h
    rcases hread : x.readResponse (16 + kMaxCipData + kRoutedOverhead) u v with ⟨got,y,t₁,w₁⟩
    have hall := Transfer.readResponse_waits hwrite hread
    simp only [hread] at h
    by_cases hwait : got = .pending
    · rw [if_pos hwait] at h
      cases h
      exact ⟨Or.inl (hall.1.resolve_right (by rw [hwait]; simp)),hall.2⟩
    rw [if_neg hwait] at h
    by_cases hok : got = .ok
    · rw [if_neg (not_not.mpr hok)] at h
      simp only [Prod.mk.injEq] at h
      obtain ⟨_,_,rfl,rfl⟩ := h
      exact ⟨Or.inl (hall.1.resolve_right (by rw [hok]; simp)),hall.2⟩
    · rw [if_pos hok] at h
      cases h
      exact hall
  · rw [if_pos hgot] at h
    cases h
    exact hsent

-- The clock is looked at once in a turn of the loop, and the delay at its end is never skipped.
def Ticking (script : Script) : Prop :=
  0 < script.ticks.headD 0 ∧ script.ticks.headD 0 < 2 ^ 31

-- More turns than one wait can take, were it to last as long as the clock needs to come round.
def span : Nat := 2 ^ 32 + 2

theorem millis_left {w : World} (htick : Ticking w.script) {deadline : UInt32}
    (h : expired w.millis.1 deadline ≠ true) :
    Clock.left deadline w.millis.2.time < Clock.left deadline w.time := by
  rw [Ne,expired_iff] at h
  exact Clock.left_lt htick.1 htick.2 h

theorem Session.poll_left {s s' : Session} (hs : s.exchanging = true) {t t' : TcpConnection}
    {w w' : World} {st : Status} (h : s.poll t w = (st,s',t',w')) (htick : Ticking w.script)
    (hst : st ≠ .timeout) : Clock.left s.deadline w'.time < Clock.left s.deadline w.time := by
  have hlate := poll_timeout_iff hs t w
  rw [h] at hlate
  rw [(poll_waits hs h).2]
  exact millis_left htick fun hpast => hst (hlate.mpr hpast)

theorem ExplicitMessage.poll_left {m m' : ExplicitMessage} (hm : m.inFlight = true)
    {t t' : TcpConnection} {w w' : World} {st : Status} (h : m.poll t w = (st,m',t',w'))
    (htick : Ticking w.script) (hst : st ≠ .timeout) :
    Clock.left m.deadline w'.time < Clock.left m.deadline w.time := by
  have hlate := poll_timeout_iff hm t w
  rw [h] at hlate
  rw [(poll_waits hm h).2]
  exact millis_left htick fun hpast => hst (hlate.mpr hpast)

theorem TcpConnection.poll_pending {t t' : TcpConnection} {w w' : World}
    (h : t.poll w = (.pending,t',w')) :
    t' = t ∧ w' = w.lwipSelect.2.millis.2 ∧ expired w.millis.1 t.deadline ≠ true := by
  simp only [poll] at h
  split_ifs at h with hfd hok hneg hzero hlate
  · cases h
  · cases h
  · cases h
  · cases h
  · cases h
    exact ⟨rfl,rfl,hlate⟩
  · split at h
    · cases h
    · split_ifs at h
      · cases h
      · cases h

theorem TcpConnection.poll_left {t t' : TcpConnection} {w w' : World}
    (h : t.poll w = (.pending,t',w')) (htick : Ticking w.script) :
    t' = t ∧ Clock.left t.deadline w'.time < Clock.left t.deadline w.time := by
  obtain ⟨rfl,rfl,hlate⟩ := poll_pending h
  exact ⟨rfl,millis_left (w := w.lwipSelect.2) htick hlate⟩

namespace Transfer

theorem writeLoop_unsent {fuel : Nat} {x x' : Transfer} {t t' : TcpConnection} {w w' : World}
    {st : Status} (hfuel : x.tx.length - x.txSent < fuel)
    (h : writeLoop fuel x t w = (st,x',t',w')) (hst : st ≠ .ok) : x'.txSent < x'.tx.length := by
  induction fuel generalizing x t w with
  | zero => exact absurd hfuel (Nat.not_lt_zero _)
  | succ fuel ih =>
    rw [writeLoop] at h
    split_ifs at h with hmore
    · split at h
      · cases h
        exact hmore
      · next n t₁ w₁ hpos hwrite =>
        refine ih ?_ h
        simp only
        have hne : n ≠ 0 := hpos
        omega
      · cases h
        exact hmore
    · cases h
      exact absurd rfl hst

end Transfer

namespace Session

theorem poll_dead {s s' : Session} (hs : s.exchanging = true) {t t' : TcpConnection} {w w' : World}
    {st : Status} (ht : t.connected = false) (hmore : s.io.txSent < s.io.tx.length)
    (h : s.poll t w = (st,s',t',w')) : st = .closed ∨ st = .timeout := by
  have hwrite : s.io.writePending t w.millis.2 = (.closed,s.io,t,w.millis.2) := by
    rw [Transfer.writePending,Transfer.writeLoop,if_pos hmore,TcpConnection.write,if_pos]
    exact Or.inr (by simpa [TcpConnection.connected] using ht)
  have hturned := poll_turned hs t w
  rw [h] at hturned
  cases hturned with
  | late _ => exact Or.inr rfl
  | unsent _ hsent _ =>
    rw [hwrite] at hsent
    cases hsent
    exact Or.inl rfl
  | read _ hsent _ =>
    rw [hwrite] at hsent
    cases hsent

def hopeful (s : Session) (t : TcpConnection) : Prop :=
  s.state = .registering ∧ (t.connected = true ∨ s.io.txSent < s.io.tx.length)

theorem hopeful.exchanging {s : Session} {t : TcpConnection} (h : s.hopeful t) :
    s.exchanging = true := by
  simp [Session.exchanging,h.1]

theorem hopeful.connected {s s' : Session} {t t' : TcpConnection} (hs : s.hopeful t) {w w' : World}
    {st : Status} (h : s.poll t w = (st,s',t',w')) (hclosed : st ≠ .closed)
    (hlate : st ≠ .timeout) : t.connected = true := by
  by_contra hdown
  rw [Bool.not_eq_true] at hdown
  rcases poll_dead hs.exchanging hdown (hs.2.resolve_left (by simp [hdown])) h with hst | hst
  · exact hclosed hst
  · exact hlate hst

theorem poll_hopeful {s s' : Session} {t t' : TcpConnection} (hs : s.hopeful t) {w w' : World}
    {st : Status} (h : s.poll t w = (st,s',t',w')) (hok : st ≠ .ok) (hlate : st ≠ .timeout) :
    s'.deadline = s.deadline ∧ (s'.state = .failed ∨ s'.hopeful t') := by
  have hturned := poll_turned hs.exchanging t w
  have hwaits := poll_waits hs.exchanging h
  have hup := hs.connected h
  rw [h] at hturned
  cases hturned with
  | late _ => exact absurd rfl hlate
  | unsent _ hwrite hst =>
    exact ⟨rfl,Or.inr ⟨hs.1,Or.inr (Transfer.writeLoop_unsent (Nat.lt_succ_self _) hwrite hst)⟩⟩
  | @read x y u t' v w' got _ hwrite hread =>
    by_cases hwait : got = .pending
    · have hgot : s.taken got y = (.pending,exchanger.resume s y) := if_pos hwait
      rw [hgot] at hwaits hup ⊢
      rw [hwaits.1.resolve_right (by simp)]
      exact ⟨rfl,Or.inr ⟨hs.1,Or.inl (hup (by simp) (by simp))⟩⟩
    by_cases hdone : got = .ok
    · subst hdone
      have hgot : s.taken .ok y = exchanger.finish s y := rfl
      rw [hgot] at hok ⊢
      simp only [exchanger,hs.1,if_true] at hok ⊢
      split_ifs at hok ⊢
      · exact ⟨rfl,Or.inl rfl⟩
      · exact ⟨rfl,Or.inl rfl⟩
      · exact absurd rfl hok
    · have hgot : s.taken got y = (got,exchanger.fail s y) := by
        rw [taken,if_neg hwait,if_neg hdone]
      rw [hgot]
      exact ⟨rfl,Or.inl rfl⟩

theorem poll_enrolling {s s' : Session} {t t' : TcpConnection}
    (hs : s.state = .failed ∨ s.hopeful t) {w w' : World} {st : Status}
    (h : s.poll t w = (st,s',t',w')) (hok : st ≠ .ok) (hlate : st ≠ .timeout) (herr : st ≠ .error) :
    s.hopeful t ∧ s'.deadline = s.deadline ∧ (s'.state = .failed ∨ s'.hopeful t') := by
  rcases hs with hfailed | hgoes
  · simp only [poll,hfailed] at h
    cases h
    exact absurd rfl herr
  · exact ⟨hgoes,poll_hopeful hgoes h hok hlate⟩

def free (s : Session) : Prop := s.state ≠ .registering ∧ s.state ≠ .registered

def leaving (s : Session) : Prop := s.state = .failed ∨ s.state = .unregistering

theorem abort_free (s : Session) : s.abort.free := ⟨by simp [abort],by simp [abort]⟩

theorem leaving_free {s : Session} (h : s.leaving) : s.free := by
  rcases h with h | h <;> simp [free,h]

theorem open_hopeful {s s' : Session} (hs : s.free) {t : TcpConnection} (ht : t.connected = true)
    {timeoutMs : UInt32} {w w' : World} {st : Status} (h : s.open t timeoutMs w = (st,s',w')) :
    s'.hopeful t := by
  rcases s.open_cases t timeoutMs w with ⟨_,_,heq,_⟩ | ⟨_,_,_,⟨_,hbusy⟩ | hdown⟩
  · rw [h] at heq
    cases heq
    exact ⟨rfl,Or.inl ht⟩
  · exact absurd hbusy (not_or.mpr hs)
  · rw [ht] at hdown
    cases hdown

theorem poll_farewell {s s' : Session} (hs : s.leaving) {t t' : TcpConnection} {w w' : World}
    {st : Status} (h : s.poll t w = (st,s',t',w')) (herr : st ≠ .error) :
    s.state = .unregistering := by
  rcases hs with hfailed | hun
  · simp only [poll,hfailed] at h
    cases h
    exact absurd rfl herr
  · exact hun

theorem poll_leaving {s s' : Session} (hs : s.leaving) {t t' : TcpConnection} {w w' : World}
    {st : Status} (h : s.poll t w = (st,s',t',w')) :
    s'.free ∧ (st ≠ .ok → s'.leaving) ∧ s'.deadline = s.deadline := by
  cases hex : s.exchanging with
  | false =>
    obtain ⟨_,heq,_⟩ := poll_still hex t w
    rw [h] at heq
    cases heq
    exact ⟨leaving_free hs,fun _ => hs,rfl⟩
  | true =>
    have hun : s.state = .unregistering := by
      rcases hs with hs | hs
      · simp [exchanging,hs] at hex
      · exact hs
    obtain ⟨_,_,_,_,heq,hpolled⟩ := poll_polled hex t w
    rw [h] at heq
    cases heq
    rcases hpolled.ended with ⟨hsame,_⟩ | ⟨hfailed,_⟩ | ⟨hreg,_⟩ | ⟨_,hclosed,hok,_⟩
    · have hleaving : s'.leaving := Or.inr (hsame.trans hun)
      exact ⟨leaving_free hleaving,fun _ => hleaving,hpolled.deadline⟩
    · have hleaving : s'.leaving := Or.inl hfailed
      exact ⟨leaving_free hleaving,fun _ => hleaving,hpolled.deadline⟩
    · rw [hun] at hreg
      cases hreg
    · exact ⟨by simp [free,hclosed],fun hne => absurd hok hne,hpolled.deadline⟩

theorem poll_registered {s s' : Session} {t t' : TcpConnection}
    (hs : s.state = .failed ∨ s.hopeful t) {w w' : World} (h : s.poll t w = (.ok,s',t',w')) :
    t'.connected = true ∧ s'.state = .registered := by
  rcases hs with hfailed | hs
  · simp [poll,hfailed] at h
  have hup := hs.connected h (by simp) (by simp)
  have hsame : t' = t := (poll_waits hs.exchanging h).1.resolve_right (by simp)
  obtain ⟨_,_,_,_,heq,hpolled⟩ := poll_polled hs.exchanging t w
  rw [h] at heq
  cases heq
  rcases hpolled.ended with ⟨_,_,hne,_⟩ | ⟨_,hne,_⟩ | ⟨_,hdone,_⟩ | ⟨hun,_⟩
  · exact absurd rfl hne
  · exact absurd rfl hne
  · exact ⟨hsame ▸ hup,hdone⟩
  · rw [hs.1] at hun
    cases hun

end Session

theorem TcpConnection.poll_connected {t t' : TcpConnection} {w w' : World}
    (h : t.poll w = (.ok,t',w')) : t'.connected = true := by
  obtain ⟨_,_,_,heq,_,hkind⟩ := t.poll_cases w
  rw [h] at heq
  cases heq
  rcases hkind with ⟨rfl,⟨hst,_⟩ | ⟨_,hst⟩ | hst⟩ | ⟨rfl,_,_⟩ | ⟨_,hst | hst⟩
  · cases hst
  · simp [connected,hst]
  · cases hst
  · rfl
  · cases hst
  · cases hst

theorem TcpConnection.poll_closed {t t' : TcpConnection} {w w' : World}
    (h : t.poll w = (.closed,t',w')) : t.fd < 0 := by
  obtain ⟨_,_,_,heq,_,hkind⟩ := t.poll_cases w
  rw [h] at heq
  cases heq
  rcases hkind with ⟨_,⟨_,hfd⟩ | ⟨hst,_⟩ | hst⟩ | ⟨_,hst,_⟩ | ⟨_,hst | hst⟩
  · exact hfd
  · cases hst
  · cases hst
  · cases hst
  · cases hst
  · cases hst

theorem ExplicitMessage.poll_flight {m m' : ExplicitMessage} (hm : m.inFlight = true)
    {t t' : TcpConnection} {w w' : World} {st : Status} (h : m.poll t w = (st,m',t',w')) :
    m'.deadline = m.deadline ∧ (st = .pending ∧ m'.inFlight = true ∧ t' = t ∨
      st = .ok ∧ m'.inFlight = false ∧ t' = t ∨
        (st = .closed ∨ st = .error ∨ st = .timeout) ∧ m'.inFlight = false) := by
  have hwaits := (poll_waits hm h).1
  obtain ⟨_,_,_,_,heq,hpolled⟩ := poll_polled hm t w
  rw [h] at heq
  cases heq
  refine ⟨hpolled.deadline,?_⟩
  rcases hpolled.ended with ⟨hst,hflight,_⟩ | ⟨hst,hdone,_⟩ | ⟨hst,hfailed⟩
  · exact Or.inl ⟨hst,hflight,hwaits.resolve_right (by simp [hst])⟩
  · exact Or.inr (Or.inl ⟨hst,by simp [inFlight,hdone],hwaits.resolve_right (by simp [hst])⟩)
  · exact Or.inr (Or.inr ⟨hst,by simp [inFlight,hfailed]⟩)

theorem ExplicitMessage.flight_waits {m m' : ExplicitMessage} (hm : m.inFlight = true)
    {t t' : TcpConnection} {w w' : World} (h : m.poll t w = (.pending,m',t',w')) :
    m'.inFlight = true ∧ t' = t := by
  rcases (poll_flight hm h).2 with ⟨_,hflight,hsame⟩ | ⟨hst,_⟩ | ⟨hst,_⟩
  · exact ⟨hflight,hsame⟩
  · cases hst
  · simp at hst

theorem ExplicitMessage.flight_taken {m m' : ExplicitMessage} (hm : m.inFlight = true)
    {t t' : TcpConnection} {w w' : World} (h : m.poll t w = (.ok,m',t',w')) :
    m'.inFlight = false ∧ t' = t := by
  rcases (poll_flight hm h).2 with ⟨hst,_⟩ | ⟨_,hidle,hsame⟩ | ⟨hst,_⟩
  · cases hst
  · exact ⟨hidle,hsame⟩
  · simp at hst

theorem ExplicitMessage.flight_ends {m m' : ExplicitMessage} (hm : m.inFlight = true)
    {t t' : TcpConnection} {w w' : World} {st : Status} (h : m.poll t w = (st,m',t',w'))
    (hst : st ≠ .pending) : m'.inFlight = false := by
  rcases (poll_flight hm h).2 with ⟨hwait,_⟩ | ⟨_,hidle,_⟩ | ⟨_,hidle⟩
  · exact absurd hwait hst
  · exact hidle
  · exact hidle

theorem ExplicitMessage.sendRouted_flight {m m' : ExplicitMessage} {t : TcpConnection}
    {sessionHandle : UInt32} {slot service : UInt8} {path data : List UInt8} {timeoutMs : UInt32}
    {w w' : World} {st : Status}
    (h : m.sendRouted t sessionHandle slot service path data timeoutMs w = (st,m',w')) :
    st = .pending ∧ m'.inFlight = true ∨ st ≠ .pending ∧ m' = m := by
  have hissued := m.sendRouted_issued t sessionHandle slot service path data timeoutMs w
  rw [h] at hissued
  cases hissued with
  | taken _ _ _ _ => exact Or.inl ⟨rfl,rfl⟩
  | refused hst _ => exact Or.inr ⟨hst,rfl⟩

theorem ExplicitMessage.sendRouted_flies {m m' : ExplicitMessage} {t : TcpConnection}
    {sessionHandle : UInt32} {slot service : UInt8} {path data : List UInt8} {timeoutMs : UInt32}
    {w w' : World}
    (h : m.sendRouted t sessionHandle slot service path data timeoutMs w = (.pending,m',w')) :
    m'.inFlight = true := by
  rcases sendRouted_flight h with ⟨_,hflight⟩ | ⟨hst,_⟩
  · exact hflight
  · exact absurd rfl hst

theorem ExplicitMessage.sendRouted_stays {m m' : ExplicitMessage} {t : TcpConnection}
    {sessionHandle : UInt32} {slot service : UInt8} {path data : List UInt8} {timeoutMs : UInt32}
    {w w' : World} {st : Status}
    (h : m.sendRouted t sessionHandle slot service path data timeoutMs w = (st,m',w'))
    (hst : st ≠ .pending) : m' = m := by
  rcases sendRouted_flight h with ⟨hwait,_⟩ | ⟨_,hsame⟩
  · exact absurd hwait hst
  · exact hsame

theorem ExplicitMessage.poll_connected {m m' : ExplicitMessage} {t t' : TcpConnection}
    {w w' : World} {st : Status} (h : m.poll t w = (st,m',t',w')) (hup : t'.connected = true) :
    t' = t := by
  cases hm : m.inFlight with
  | false =>
    have heq : (m.poll t w).2.2.1 = t := by
      cases hs : m.state <;> simp_all [poll,inFlight]
    rw [h] at heq
    exact heq
  | true =>
    obtain ⟨_,_,_,_,heq,hpolled⟩ := poll_polled hm t w
    rw [h] at heq
    cases heq
    rcases hpolled.io.kept with hsame | hclosed
    · exact hsame
    · rw [hclosed] at hup
      simp [TcpConnection.connected] at hup

end ControlLogix
