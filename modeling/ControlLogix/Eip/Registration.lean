import ControlLogix.Eip.Carrier
import ControlLogix.Eip.Steady

namespace ControlLogix

namespace Session

inductive Since (now timeoutMs : UInt32) : Session → Prop
  | opened {s : Session} {t : TcpConnection} {w : World} : w.millis.1 = now →
      (s.open t timeoutMs w).1 = .pending → Since now timeoutMs (s.open t timeoutMs w).2.1
  | polled {s : Session} {t : TcpConnection} {w : World} : Since now timeoutMs s →
      Since now timeoutMs (s.poll t w).2.1

theorem open_taken {s : Session} {t : TcpConnection} {timeoutMs : UInt32} {w : World}
    (h : (s.open t timeoutMs w).1 = .pending) : s.open t timeoutMs w = (.pending,
      {s with conn := true, deadline := w.millis.1 + timeoutMs,
              io := Transfer.load (registerFrame s.context), state := .registering},
      w.millis.2) := by
  simp only [Session.open] at h ⊢
  split_ifs at h ⊢
  · rfl

theorem Since.deadline_eq {now timeoutMs : UInt32} {s : Session} (h : Since now timeoutMs s) :
    s.deadline = now + timeoutMs := by
  induction h with
  | opened hnow hopen =>
    rw [open_taken hopen,hnow]
  | @polled s t w _ ih =>
    cases hs : s.exchanging with
    | true =>
      obtain ⟨_,_,_,_,heq,hp⟩ := poll_polled hs t w
      rw [heq]
      exact hp.deadline.trans ih
    | false =>
      obtain ⟨_,heq,_⟩ := poll_still hs t w
      rw [heq]
      exact ih

theorem taken_io (s : Session) (st : Status) (x : Transfer) : (s.taken st x).2.io = x := by
  rw [taken]
  split_ifs
  · rfl
  · exact exchanger.io_finish s x
  · rfl

theorem taken_status {s : Session} {st : Status} {x : Transfer}
    (hst : st = .pending ∨ st = .ok ∨ st = .closed ∨ st = .error) :
    (s.taken st x).1 ≠ .timeout := by
  rw [taken]
  rcases hst with rfl | rfl | rfl | rfl
  · simp
  · simp only [exchanger,reduceCtorEq,if_false,if_true]
    split_ifs <;> simp
  · simp
  · simp

theorem poll_sends {s : Session} (hs : s.exchanging = true) {t : TcpConnection} {w : World}
    {frame : List UInt8} (hload : s.io = Transfer.load frame) (hlive : t.live)
    (hsends : intake frame.length w.script.sends = .ok)
    (hdl : expired w.millis.1 s.deadline = false) :
    (s.poll t w).1 ≠ .timeout ∧ sentBetween w.log (s.poll t w).2.2.2.log = frame := by
  have hwritten : (s.io.writePending t w.millis.2).1 = .ok := by
    rw [Transfer.writePending,Transfer.writeLoop_intake (Nat.lt_succ_self _) hlive,hload]
    exact hsends
  obtain ⟨_,_,_,_,hpoll,hp⟩ := poll_polled hs t w
  have hturned := poll_turned hs t w
  generalize hr : s.poll t w = r at hpoll hturned ⊢
  cases hturned with
  | late hlate =>
    rw [hdl] at hlate
    cases hlate
  | unsent _ hwrite hne =>
    rw [hwrite] at hwritten
    exact absurd hwritten hne
  | @read x y u t' v w' st _ hwrite hread =>
    cases hpoll
    have hrd := Transfer.Read.of_read hread
    refine ⟨taken_status ?_,?_⟩
    · rcases hrd.status with h | ⟨h,_⟩ | h | h <;> simp [h]
    · obtain ⟨mid,hsent,hgot,hend⟩ := hp.io.traffic
      rw [hload] at hsent hgot
      rw [taken_io] at hsent hgot
      have hall : y.txSent = frame.length := by
        have hmost : frame.length ≤ y.txSent := by
          have hsent := (Transfer.Wrote.of_write hwrite).all_sent hrd
          rw [hload] at hsent
          exact hsent
        rcases hsent.le.2 with h | h
        · exact Nat.le_antisymm h hmost
        · simp only [Transfer.load] at h
          omega
      exact Exchanger.Traffic.sentBetween (x := y) ⟨mid,hsent,hgot,Or.inr hall⟩ hall

end Session

-- The deadline that open() has set still counts when the session is closed.
theorem unregister_goes_out_iff {now timeoutMs : UInt32} {s : Session}
    (h : s.Since now timeoutMs) (hs : s.registered = true) : s.close.1 = .pending ∧
      ∀ (t : TcpConnection) (w : World), t.live →
        intake (Session.unregisterFrame s.handle s.context).length w.script.sends = .ok →
        ((s.close.2.poll t w).1 ≠ .timeout ∧ sentBetween w.log (s.close.2.poll t w).2.2.2.log =
          Session.unregisterFrame s.handle s.context ↔
            expired w.millis.1 (now + timeoutMs) = false) := by
  have hstate : s.state = .registered := by simpa [Session.registered] using hs
  have hclose : s.close = s.startUnregister := if_pos hstate
  rw [hclose]
  refine ⟨rfl,fun t w hlive hsends => ⟨fun hout => ?_,fun hdl => ?_⟩⟩
  · rw [← h.deadline_eq]
    cases hdl : expired w.millis.1 s.deadline with
    | false => rfl
    | true =>
      refine absurd ?_ hout.1
      have hlate : expired w.millis.1 s.startUnregister.2.deadline = true := hdl
      rw [Session.poll_late rfl hlate]
  · refine Session.poll_sends rfl rfl hlive hsends ?_
    rw [← h.deadline_eq] at hdl
    exact hdl

namespace Sample

-- A session opened at 0 with 5000 ms, which its target accepts.
def plug : TcpConnection := {fd := 3, state := .ok}

def grantsSession : List UInt8 :=
  headerBytes {command := Command.code .registerSession, length := 4, session := 9, context := 1} ++
    (putU16 1 ++ putU16 0)

def newSession : Status × Session × World :=
  ({} : Session).open plug 5000 {time := 0, script := {}, log := []}

def openSession : Session :=
  (newSession.2.1.poll plug {newSession.2.2 with
    script := {sends := [.ok 28], recvs := [.ok grantsSession]}}).2.1

theorem openSession_since : openSession.Since 0 5000 :=
  .polled (.opened (w := {time := 0, script := {}, log := []}) (by decide) (by decide))

def closing (time : Nat) : Status × Session × TcpConnection × World :=
  openSession.close.2.poll plug {time := time, script := {sends := [.ok 24]}, log := []}

theorem unregister_goes_out : (closing 4999).1 ≠ .timeout ∧
    sentBetween [] (closing 4999).2.2.2.log =
      Session.unregisterFrame openSession.handle openSession.context :=
  ((unregister_goes_out_iff openSession_since (by decide)).2 plug
    {time := 4999, script := {sends := [.ok 24]}, log := []} ⟨by decide,rfl⟩ (by decide)).mpr
    (by decide)

theorem unregister_times_out : openSession.registered = true ∧ openSession.handle = 9 ∧
    openSession.close.1 = .pending ∧ intake 24 [.ok 24] = .ok ∧ (closing 6000).1 = .timeout ∧
      sentBetween [] (closing 6000).2.2.2.log = [] := by
  decide

end Sample

namespace Session

-- The handle a stream of bytes grants, once its first frame is there.
def granted (bs : List UInt8) : Option UInt32 :=
  let h := decodeHeader bs
  if kEncapsulationHeaderSize ≤ bs.length ∧
      kEncapsulationHeaderSize + h.length.toNat ≤ bs.length ∧
      h.command = Command.code .registerSession ∧ h.status = 0 ∧
      4 ≤ h.length.toNat ∧ h.length.toNat ≤ kMaxBodySize ∧ h.session ≠ 0 then some h.session
  else none

theorem granted_iff {bs : List UInt8} {handle : UInt32} : granted bs = some handle ↔
    (kEncapsulationHeaderSize ≤ bs.length ∧
      kEncapsulationHeaderSize + (decodeHeader bs).length.toNat ≤ bs.length ∧
      (decodeHeader bs).command = Command.code .registerSession ∧ (decodeHeader bs).status = 0 ∧
      4 ≤ (decodeHeader bs).length.toNat ∧ (decodeHeader bs).length.toNat ≤ kMaxBodySize ∧
      (decodeHeader bs).session ≠ 0) ∧ (decodeHeader bs).session = handle := by
  simp only [granted]
  split_ifs with h
  · rw [Option.some.injEq,and_iff_right h]
  · exact iff_of_false (by simp) fun hall => h hall.1

theorem granted_front {bs cs : List UInt8} (hpre : bs <+: cs) {handle : UInt32}
    (h : granted bs = some handle) : granted cs = some handle := by
  rw [granted_iff] at h ⊢
  obtain ⟨⟨hlen,hall,hrest⟩,hhandle⟩ := h
  rw [decodeHeader_front hpre hlen]
  have hle := hpre.length_le
  exact ⟨⟨hlen.trans hle,hall.trans hle,hrest⟩,hhandle⟩

-- By this poll the request can leave whole, and the bytes that have arrived grant a handle.
def Ready (s : Session) (w : World) : Prop :=
  intake (s.io.tx.length - s.io.txSent) w.script.sends = .ok ∧
    ∃ handle, granted (s.io.rx ++ readable w.script.recvs) = some handle

inductive Advanced (s : Session) (t : TcpConnection) (w : World) :
    Status × Session × TcpConnection × World → Prop
  | waits {x : Transfer} {w' : World} : ¬ s.Ready w → x.Paced →
      x.rxExpected ≤ kEncapsulationHeaderSize + kMaxBodySize →
      Advanced s t w (.pending,{s with io := x},t,w')
  | registered {x : Transfer} {w' : World} : s.Ready w →
      granted x.rx = some (decodeHeader x.rx).session →
      x.rx.length = kEncapsulationHeaderSize + (decodeHeader x.rx).length.toNat →
      Advanced s t w
        (.ok,{s with io := x, handle := (decodeHeader x.rx).session, state := .registered},t,w')
  | fails {st : Status} {s' : Session} {t' : TcpConnection} {w' : World} : s'.state = .failed →
      granted (s.io.rx ++ arriving w.script.recvs) = none → Advanced s t w (st,s',t',w')

theorem granted_none {rx bs : List UInt8} (hpre : rx <+: bs)
    (hlen : kEncapsulationHeaderSize ≤ rx.length)
    (hbad : ¬((decodeHeader rx).command = Command.code .registerSession ∧
      (decodeHeader rx).status = 0 ∧ 4 ≤ (decodeHeader rx).length.toNat ∧
      (decodeHeader rx).length.toNat ≤ kMaxBodySize ∧ (decodeHeader rx).session ≠ 0)) :
    granted bs = none := by
  rw [Option.eq_none_iff_forall_ne_some]
  intro handle h
  obtain ⟨⟨_,_,hrest⟩,_⟩ := granted_iff.mp h
  rw [decodeHeader_front hpre hlen] at hrest
  exact hbad hrest

theorem granted_short {x : Transfer} (hp : x.Paced) (hmore : x.rx.length < x.rxExpected) :
    granted x.rx = none := by
  rw [Option.eq_none_iff_forall_ne_some]
  intro handle h
  obtain ⟨⟨hlen,hall,_⟩,_⟩ := granted_iff.mp h
  have hexp := hp.2.2 hlen
  omega

theorem finish_advanced {s : Session} (hs : s.state = .registering) {t : TcpConnection}
    {w w' : World} {y : Transfer}
    (hsends : intake (s.io.tx.length - s.io.txSent) w.script.sends = .ok)
    (hfront : y.rx <+: s.io.rx ++ readable w.script.recvs) (hp : y.Paced)
    (hall : y.rxExpected ≤ y.rx.length)
    (hcap : y.rxExpected ≤ kEncapsulationHeaderSize + kMaxBodySize) :
    Advanced s t w ((s.taken .ok y).1,(s.taken .ok y).2,t,w') := by
  have hhead := hp.header hall
  have hexp := hp.2.2 hhead
  have hfit := hp.1
  have hlen : (4 : UInt16) ≤ (decodeHeader y.rx).length ↔ 4 ≤ (decodeHeader y.rx).length.toNat :=
    UInt16.le_iff_toNat_le
  have hstream : y.rx <+: s.io.rx ++ arriving w.script.recvs :=
    hfront.trans ((List.prefix_append_right_inj _).mpr (readable_front _))
  have hfinish : s.taken .ok y = exchanger.finish s y := rfl
  rw [hfinish]
  simp only [exchanger,hs,if_true]
  by_cases hbad : (decodeHeader y.rx).command ≠ Command.code .registerSession ∨
      (decodeHeader y.rx).status ≠ 0 ∨ (decodeHeader y.rx).length < 4
  · rw [if_pos hbad]
    refine .fails rfl (granted_none hstream hhead ?_)
    rintro ⟨hcommand,hstatus,hfour,_⟩
    rcases hbad with h | h | h
    · exact h hcommand
    · exact h hstatus
    · exact absurd (hlen.mpr hfour) (UInt16.not_le.mpr h)
  rw [if_neg hbad]
  rw [not_or,not_or,not_not,not_not,UInt16.not_lt,hlen] at hbad
  by_cases hzero : (decodeHeader y.rx).session = 0
  · rw [if_pos hzero]
    exact .fails rfl (granted_none hstream hhead fun h => h.2.2.2.2 hzero)
  · rw [if_neg hzero]
    have hgranted : granted y.rx = some (decodeHeader y.rx).session := by
      rw [granted_iff]
      exact ⟨⟨hhead,by omega,hbad.1,hbad.2.1,hbad.2.2,by omega,hzero⟩,rfl⟩
    exact .registered ⟨hsends,_,granted_front hfront hgranted⟩ hgranted (by omega)

theorem poll_advanced {s : Session} (hs : s.state = .registering) (hp : s.io.Paced)
    (hcap : s.io.rxExpected ≤ kEncapsulationHeaderSize + kMaxBodySize) {t : TcpConnection}
    {w : World} (hlive : t.live) (hsteady : w.script.steady = true)
    (hdl : expired w.millis.1 s.deadline = false) : Advanced s t w (s.poll t w) ∧
      (s.poll t w).2.2.2.script.steady = true ∧ s.io.rx ++ arriving w.script.recvs =
        (s.poll t w).2.1.io.rx ++ arriving (s.poll t w).2.2.2.script.recvs := by
  obtain ⟨st,k,v,hwrite,hsteady',hrecvs,hend⟩ := Transfer.writeLoop_steady
    (s.io.tx.length - s.io.txSent + 1) (x := s.io) (w := w.millis.2) hlive hsteady
  have hintake : st = intake (s.io.tx.length - s.io.txSent) w.script.sends := by
    have h := Transfer.writeLoop_intake (x := s.io) (w := w.millis.2) (Nat.lt_succ_self _) hlive
    rw [hwrite] at h
    exact h
  have hwrite' : s.io.writePending t w.millis.2 = (st,{s.io with txSent := k},t,v) := hwrite
  have hbusy : s.exchanging = true := by simp [exchanging,hs]
  have hturned := poll_turned hbusy t w
  generalize s.poll t w = r at hturned ⊢
  cases hturned with
  | late hlate =>
    rw [hdl] at hlate
    cases hlate
  | unsent _ heq hne =>
    rw [hwrite'] at heq
    cases heq
    obtain rfl := hend.resolve_right hne
    refine ⟨.waits (fun h => ?_) hp hcap,hsteady',by rw [hrecvs]; rfl⟩
    exact hne (hintake.trans h.1)
  | @read x y u t' v' w' st' _ heq hread =>
    rw [hwrite'] at heq
    cases heq
    obtain ⟨_,_,_,_,hread',hfetched,hsteady'',hstream,hcapped⟩ := Transfer.readResponse_steady
      kMaxBodySize (x := {s.io with txSent := k}) hp hlive hsteady'
    rw [hread] at hread'
    cases hread'
    have hrd := Transfer.Read.of_read hread
    rw [hrecvs] at hstream
    refine ⟨?_,hsteady'',by rw [taken_io]; exact hstream⟩
    cases hfetched with
    | dry hrx hmore =>
      have hpaced := hrd.paced hp (by simp)
      refine .waits (fun h => ?_) hpaced (hcapped hcap)
      obtain ⟨handle,hgranted⟩ := h.2
      rw [hrecvs] at hrx
      have hrx' : y.rx = s.io.rx ++ readable w.script.recvs := hrx
      rw [← hrx',granted_short hpaced hmore] at hgranted
      cases hgranted
    | full hall hfront =>
      rw [hrecvs] at hfront
      exact finish_advanced hs hintake.symm hfront (hrd.paced hp (by simp)) hall (hcapped hcap)
    | flooded hlen hlong =>
      refine .fails rfl (granted_none (hstream ▸ List.prefix_append _ _) hlen.ge ?_)
      rintro ⟨_,_,_,hshort,_⟩
      exact absurd hshort (Nat.not_le.mpr hlong)
    | closed hrx hmore =>
      rw [hrecvs] at hrx
      have hrx' : y.rx = s.io.rx ++ arriving w.script.recvs := hrx
      refine .fails rfl ?_
      rw [← hrx']
      exact granted_short (hrd.paced hp (by simp)) hmore

def polled : Nat → Session → TcpConnection → World → Session × TcpConnection × World
  | 0, s, t, w => (s,t,w)
  | n + 1, s, t, w =>
    let (s,t,w) := polled n s t w
    (s.poll t w).2

def Granting (s : Session) (t : TcpConnection) (w : World) (k : Nat) : Prop :=
  (∀ j ≤ k, expired (polled j s t w).2.2.millis.1 s.deadline = false) ∧
    (polled k s t w).1.Ready (polled k s t w).2.2

inductive Stood (s : Session) (t : TcpConnection) (w : World) (n : Nat) :
    Session × TcpConnection × World → Prop
  | waits {s' : Session} {w' : World} : s'.state = .registering → s'.deadline = s.deadline →
      s'.io.Paced → s'.io.rxExpected ≤ kEncapsulationHeaderSize + kMaxBodySize →
      w'.script.steady = true →
      (∀ j < n, expired (polled j s t w).2.2.millis.1 s.deadline = false) →
      (∀ k < n, ¬ (polled k s t w).1.Ready (polled k s t w).2.2) → Stood s t w n (s',t,w')
  | registered {s' : Session} {t' : TcpConnection} {w' : World} : s'.state = .registered →
      granted s'.io.rx = some s'.handle →
      s'.io.rx.length = kEncapsulationHeaderSize + (decodeHeader s'.io.rx).length.toNat →
      (∃ k < n, Granting s t w k) → Stood s t w n (s',t',w')
  | failed {s' : Session} {t' : TcpConnection} {w' : World} : s'.state = .failed →
      (granted (s.io.rx ++ arriving w.script.recvs) = none ∨ ∀ k, ¬ Granting s t w k) →
      Stood s t w n (s',t',w')

theorem stood_step {s : Session} {t : TcpConnection} (hlive : t.live) {w : World} {n : Nat}
    (hstood : Stood s t w n (polled n s t w))
    (hstream : s.io.rx ++ arriving w.script.recvs =
      (polled n s t w).1.io.rx ++ arriving (polled n s t w).2.2.script.recvs) :
    Stood s t w (n + 1) (polled (n + 1) s t w) ∧ s.io.rx ++ arriving w.script.recvs =
      (polled (n + 1) s t w).1.io.rx ++ arriving (polled (n + 1) s t w).2.2.script.recvs := by
  have hnext : polled (n + 1) s t w =
    ((polled n s t w).1.poll (polled n s t w).2.1 (polled n s t w).2.2).2 := rfl
  rw [hnext]
  generalize hr : polled n s t w = r at hstood hstream ⊢
  cases hstood with
  | @waits s' w' hs' hdl hp' hcap' hsteady' htimely hyet =>
    cases hnow : expired w'.millis.1 s'.deadline with
    | true =>
      rw [poll_late (by simp [exchanging,hs']) hnow]
      refine ⟨.failed rfl (Or.inr fun k hk => ?_),hstream⟩
      rcases Nat.lt_or_ge k n with hlt | hge
      · exact hyet k hlt hk.2
      · have hin := hk.1 n hge
        rw [hr,← hdl,hnow] at hin
        cases hin
    | false =>
      have htimely' : ∀ j < n + 1, expired (polled j s t w).2.2.millis.1 s.deadline = false := by
        intro j hj
        rcases Nat.lt_succ_iff_lt_or_eq.mp hj with hlt | rfl
        · exact htimely j hlt
        · rw [hr,← hdl]
          exact hnow
      obtain ⟨hadvanced,hsteady'',hrest⟩ := poll_advanced hs' hp' hcap' hlive hsteady' hnow
      refine ⟨?_,hstream.trans hrest⟩
      generalize hq : s'.poll t w' = q at hadvanced hsteady''
      cases hadvanced with
      | waits hready hp'' hcap'' =>
        refine .waits hs' hdl hp'' hcap'' hsteady'' htimely' fun k hk => ?_
        rcases Nat.lt_succ_iff_lt_or_eq.mp hk with hlt | rfl
        · exact hyet k hlt
        · rw [hr]
          exact hready
      | registered hready hgranted hlen =>
        refine .registered rfl hgranted hlen ⟨n,Nat.lt_succ_self n,fun j hj => ?_,?_⟩
        · exact htimely' j (Nat.lt_succ_of_le hj)
        · rw [hr]
          exact hready
      | fails hfailed hnone =>
        refine .failed hfailed (Or.inl ?_)
        rw [hstream]
        exact hnone
  | @registered s' t' w' hs' hgranted hlen hgranting =>
    obtain ⟨_,hpoll,_⟩ := poll_still (s := s') (by simp [exchanging,hs']) t' w'
    obtain ⟨k,hk,hgranting⟩ := hgranting
    rw [hpoll]
    exact ⟨.registered hs' hgranted hlen ⟨k,Nat.lt_succ_of_lt hk,hgranting⟩,hstream⟩
  | @failed s' t' w' hs' hnever =>
    obtain ⟨_,hpoll,_⟩ := poll_still (s := s') (by simp [exchanging,hs']) t' w'
    rw [hpoll]
    exact ⟨.failed hs' hnever,hstream⟩

theorem polled_stood {s : Session} (hs : s.state = .registering) (hp : s.io.Paced)
    (hcap : s.io.rxExpected ≤ kEncapsulationHeaderSize + kMaxBodySize) {t : TcpConnection}
    (hlive : t.live) {w : World} (hsteady : w.script.steady = true) (n : Nat) :
    Stood s t w n (polled n s t w) ∧ s.io.rx ++ arriving w.script.recvs =
      (polled n s t w).1.io.rx ++ arriving (polled n s t w).2.2.script.recvs := by
  induction n with
  | zero =>
    exact ⟨.waits hs rfl hp hcap hsteady (fun _ h => absurd h (Nat.not_lt_zero _))
      (fun _ h => absurd h (Nat.not_lt_zero _)),rfl⟩
  | succ n ih => exact stood_step hlive ih.1 ih.2

theorem polled_outcome {s : Session} (hs : s.state = .registering)
    (hio : s.io = Transfer.load (registerFrame s.context)) {t : TcpConnection} (hlive : t.live)
    {w : World} (hsteady : w.script.steady = true) (n : Nat) :
    let stream := arriving w.script.recvs
    let (s',_,w') := polled n s t w
    (s'.registered = true ↔ ∃ k < n, Granting s t w k) ∧
      (s'.registered = true → granted stream = some s'.handle ∧
        s'.io.rx.length = kEncapsulationHeaderSize + (decodeHeader stream).length.toNat) ∧
      stream = s'.io.rx ++ arriving w'.script.recvs ∧
      (s'.state = .registered ∨ s'.state = .failed ∨ s'.state = .registering) := by
  have hempty : s.io.rx = [] := by rw [hio]; rfl
  have hpaced : s.io.Paced := by rw [hio]; exact Transfer.load_paced _
  have hcap : s.io.rxExpected ≤ kEncapsulationHeaderSize + kMaxBodySize := by
    rw [hio]
    exact Nat.le_add_right _ _
  have hall := polled_stood hs hpaced hcap hlive hsteady
  simp only [hempty,List.nil_append] at hall
  have hgrants : ∀ k, Granting s t w k → granted (arriving w.script.recvs) ≠ none := by
    rintro k ⟨_,_,handle,hready⟩ hnone
    have hpre := (List.prefix_append_right_inj (polled k s t w).1.io.rx).mpr
      (readable_front (polled k s t w).2.2.script.recvs)
    rw [← (hall k).2] at hpre
    rw [granted_front hpre hready] at hnone
    cases hnone
  obtain ⟨hstood,hstream⟩ := hall n
  generalize polled n s t w = r at hstood hstream ⊢
  cases hstood with
  | waits hs' _ _ _ _ _ hyet =>
    refine ⟨iff_of_false (by simp [registered,hs']) ?_,by simp [registered,hs'],hstream,
      Or.inr (Or.inr hs')⟩
    rintro ⟨k,hk,_,hready⟩
    exact hyet k hk hready
  | @registered s' t' w' hs' hgranted hlen hgranting =>
    have hpre : s'.io.rx <+: arriving w.script.recvs := hstream ▸ List.prefix_append _ _
    refine ⟨iff_of_true (by simp [registered,hs']) hgranting,fun _ => ⟨?_,?_⟩,hstream,Or.inl hs'⟩
    · exact granted_front hpre hgranted
    · rw [decodeHeader_front hpre (hlen ▸ Nat.le_add_right _ _)]
      exact hlen
  | failed hs' hnever =>
    refine ⟨iff_of_false (by simp [registered,hs']) ?_,by simp [registered,hs'],hstream,
      Or.inr (Or.inl hs')⟩
    rintro ⟨k,_,hgranting⟩
    rcases hnever with hnone | hnever
    · rw [hempty] at hnone
      exact hgrants k hgranting hnone
    · exact hnever k hgranting

-- Whatever becomes of a session: it is constructed, opened, polled, closed and dropped.
inductive Reached : Session → Prop
  | constructed : Reached {}
  | opened {s : Session} (t : TcpConnection) (timeoutMs : UInt32) (w : World) : Reached s →
      Reached (s.open t timeoutMs w).2.1
  | polled {s : Session} (t : TcpConnection) (w : World) : Reached s → Reached (s.poll t w).2.1
  | closed {s : Session} : Reached s → Reached s.close.2
  | aborted {s : Session} : Reached s → Reached s.abort

theorem Reached.handle_ne {s : Session} (h : Reached s) (hs : s.state = .registered) :
    s.handle ≠ 0 := by
  induction h with
  | constructed => cases hs
  | @opened s t timeoutMs w _ ih =>
    rcases open_cases s t timeoutMs w with ⟨_,_,heq,_⟩ | ⟨_,_,heq,_⟩
    · rw [heq] at hs
      cases hs
    · rw [heq] at hs ⊢
      exact ih hs
  | @polled s t w _ ih =>
    cases hbusy : s.exchanging with
    | true =>
      obtain ⟨_,_,_,_,heq,hp⟩ := poll_polled hbusy t w
      rw [heq] at hs ⊢
      simp only at hs ⊢
      rcases hp.ended with ⟨hstate,hhandle,_⟩ | ⟨hstate,_⟩ | ⟨_,_,_,hne,_⟩ | ⟨_,hstate,_⟩
      · rw [hhandle]
        exact ih (hstate ▸ hs)
      · rw [hstate] at hs
        cases hs
      · exact hne
      · rw [hstate] at hs
        cases hs
    | false =>
      obtain ⟨_,heq,_⟩ := poll_still hbusy t w
      rw [heq] at hs ⊢
      exact ih hs
  | @closed s _ ih =>
    simp only [close] at hs ⊢
    split_ifs at hs ⊢ with hreg hbusy
    · cases hs
    · exact absurd hs hreg
    · cases hs
  | aborted => cases hs

end Session

theorem registration_outcome :
    (∀ {s : Session} {t : TcpConnection} {timeoutMs : UInt32} {w : World},
      (s.open t timeoutMs w).1 = .pending → t.live → w.script.steady = true → ∀ n,
        let (_,opened,w₀) := s.open t timeoutMs w
        let stream := arriving w.script.recvs
        let (s',_,w') := opened.polled n t w₀
        (s'.registered = true ↔ ∃ k < n,
          (∀ j ≤ k, expired (opened.polled j t w₀).2.2.millis.1 (w.millis.1 + timeoutMs) = false) ∧
            (opened.polled k t w₀).1.Ready (opened.polled k t w₀).2.2) ∧
        (s'.registered = true → Session.granted stream = some s'.handle ∧
          s'.io.rx.length = kEncapsulationHeaderSize + (decodeHeader stream).length.toNat) ∧
        stream = s'.io.rx ++ arriving w'.script.recvs ∧
        (s'.state = .registered ∨ s'.state = .failed ∨ s'.state = .registering)) ∧
    ∀ {s : Session}, s.Reached → s.registered = true → s.handle ≠ 0 := by
  refine ⟨?_,fun h hs => h.handle_ne (of_decide_eq_true hs)⟩
  intro s t timeoutMs w hopen hlive hsteady n
  rw [Session.open_taken hopen]
  have hsteady' : w.millis.2.script.steady = true := hsteady
  exact Session.polled_outcome (s := (Session.startRegister
    {s with conn := true, deadline := w.millis.1 + timeoutMs}).2) rfl rfl hlive hsteady' n

namespace Sample

def halting : World :=
  {time := 0,
   script := {sends := [.ok 28],
              recvs := [.ok (grantsSession.take 10),.error .ewouldblock,
                        .ok (grantsSession.drop 10)]},
   log := []}

def joining : Status × Session × World := ({} : Session).open plug 5000 halting

def joined (n : Nat) : Session := (joining.2.1.polled n plug joining.2.2).1

theorem joined_reached (n : Nat) : (joined n).Reached := by
  induction n with
  | zero => exact .opened plug 5000 halting .constructed
  | succ n ih => exact .polled _ _ ih

theorem second_poll_registers : (joined 1).registered = false ∧ (joined 2).registered = true ∧
    (joined 2).handle ≠ 0 := by
  have hopen : joining.1 = .pending := by decide
  have hsteady : halting.script.steady = true := by decide
  have h := (registration_outcome.1 hopen ⟨by decide,rfl⟩ hsteady 2).1.mpr
    ⟨1,by decide,by decide,by decide,9,by decide⟩
  exact ⟨by decide,h,registration_outcome.2 (joined_reached 2) h⟩

end Sample

end ControlLogix
