import ControlLogix.Eip.Link
import ControlLogix.Eip.Readable

namespace ControlLogix

theorem Sent.still {fd : Int} {tx : List UInt8} {a b : Nat} {log log' : List Event}
    (h : Sent fd tx a log b log') (hle : b ≤ a) : log' = log := by
  cases h with
  | refl => rfl
  | step hs hn _ =>
    have := hs.le
    omega

namespace Transfer

theorem writeLoop_fuel {f g : Nat} {x : Transfer} {t : TcpConnection} {w : World}
    (hf : x.tx.length - x.txSent < f) (hg : x.tx.length - x.txSent < g) :
    writeLoop f x t w = writeLoop g x t w := by
  induction f generalizing g x t w with
  | zero => omega
  | succ f ih =>
    cases g with
    | zero => omega
    | succ g =>
      rw [writeLoop,writeLoop]
      by_cases hmore : x.txSent < x.tx.length
      · rw [if_pos hmore,if_pos hmore]
        rcases t.write x.tx x.txSent (x.tx.length - x.txSent) w with ⟨_ | k,t',w'⟩
        · rfl
        · cases k with
          | zero => rfl
          | succ k =>
            exact ih (x := {x with txSent := x.txSent + (k + 1)}) (by simp only; omega)
              (by simp only; omega)
      · rw [if_neg hmore,if_neg hmore]

def unread (cap : Nat) (x : Transfer) : Nat :=
  x.rxExpected - x.rx.length + if x.rx.length < kEncapsulationHeaderSize then cap else 0

theorem readLoop_fuel {cap f g : Nat} {x : Transfer} {t : TcpConnection} {w : World}
    (hf : x.unread cap < f) (hg : x.unread cap < g) :
    readLoop cap f x t w = readLoop cap g x t w := by
  induction f generalizing g x t w with
  | zero => omega
  | succ f ih =>
    cases g with
    | zero => omega
    | succ g =>
      rw [readLoop,readLoop]
      by_cases hmore : x.rx.length < x.rxExpected
      · rw [if_pos hmore,if_pos hmore]
        rcases t.read (x.rxExpected - x.rx.length) w with ⟨_ | got,t',w'⟩
        · rfl
        · cases got with
          | nil => rfl
          | cons b got =>
            simp only
            have hlen : (x.rx ++ b :: got).length = x.rx.length + (got.length + 1) := by simp
            simp only [unread] at hf hg
            by_cases hhead : (x.rx ++ b :: got).length = kEncapsulationHeaderSize
            · rw [if_pos hhead,if_pos hhead]
              rw [if_pos (by omega)] at hf hg
              by_cases hcap : cap < (decodeHeader (x.rx ++ b :: got)).length.toNat
              · rw [if_pos hcap,if_pos hcap]
              · rw [if_neg hcap,if_neg hcap]
                refine ih ?_ ?_ <;>
                · simp only [unread,hhead,Nat.lt_irrefl,if_false]
                  omega
            · rw [if_neg hhead,if_neg hhead]
              have hless : unread cap {x with rx := x.rx ++ b :: got} < x.unread cap := by
                simp only [unread,hlen]
                split_ifs <;> omega
              simp only [unread] at hless
              refine ih (x := {x with rx := x.rx ++ b :: got}) ?_ ?_ <;>
              · simp only [unread]
                omega
      · rw [if_neg hmore,if_neg hmore]

theorem unread_le (cap : Nat) (x : Transfer) :
    x.unread cap ≤ x.rxExpected - x.rx.length + cap := by
  simp only [unread]
  split <;> omega

end Transfer

-- What the three exchanges have in common: a machine that writes a request, reads the packet that
-- answers it and then makes of it what it will.
structure Exchanger (M : Type) where
  cap : Nat
  io : M → Transfer
  busy : M → Bool
  deadline : M → UInt32
  poll : M → TcpConnection → World → Status × M × TcpConnection × World
  resume : M → Transfer → M
  finish : M → Transfer → Status × M
  fail : M → Transfer → M
  io_resume : ∀ m x, io (resume m x) = x
  io_finish : ∀ m x, io (finish m x).2 = x
  io_fail : ∀ m x, io (fail m x) = x
  busy_resume : ∀ m x, busy m = true → busy (resume m x) = true
  deadline_resume : ∀ m x, deadline (resume m x) = deadline m
  finish_resume : ∀ m x y, finish (resume m x) y = finish m y
  fail_resume : ∀ m x y, fail (resume m x) y = fail m y
  finish_ne : ∀ m x, (finish m x).1 ≠ .pending
  poll_write : ∀ m t w x t' w', busy m = true → expired w.millis.1 (deadline m) = false →
    (io m).writePending t w.millis.2 = (.pending,x,t',w') → x.txSent < x.tx.length →
    poll m t w = (.pending,resume m x,t',w')
  poll_read : ∀ m t w x u v st y t' w', busy m = true → expired w.millis.1 (deadline m) = false →
    (io m).writePending t w.millis.2 = (.ok,x,u,v) → x.readResponse cap u v = (st,y,t',w') →
    y.tx.length ≤ y.txSent →
    poll m t w = if st = .pending then (.pending,resume m y,t',w')
      else if st = .ok then ((finish m y).1,(finish m y).2,t',w') else (st,fail m y,t',w')

namespace Exchanger

variable {M : Type} (E : Exchanger M)

def polls : Nat → M → TcpConnection → World → Status × M × TcpConnection × World
  | 0, m, t, w => (.pending,m,t,w)
  | n+1, m, t, w =>
    let (st,m,t,w) := E.poll m t w
    if st = .pending then polls n m t w else (st,m,t,w)

-- None of these polls comes after the deadline.
def Timely : Nat → M → TcpConnection → World → Prop
  | 0, _, _, _ => True
  | n+1, m, t, w => expired w.millis.1 (E.deadline m) = false ∧
      (let (st,m,t,w) := E.poll m t w
       st = .pending → Timely n m t w)

instance Timely.decidable : ∀ n m t w, Decidable (E.Timely n m t w)
  | 0, _, _, _ => isTrue trivial
  | n+1, m, t, w =>
    @instDecidableAnd _ _ _ (@instDecidableForall _ _ _ (Timely.decidable n (E.poll m t w).2.1
      (E.poll m t w).2.2.1 (E.poll m t w).2.2.2))

def answers (s : Script) : Nat := s.sends.length + s.recvs.length

-- The pieces of the frame that have left, from its first byte on, and after them the bytes read.
def Traffic (t : TcpConnection) (frame : List UInt8) (log : List Event) (x : Transfer)
    (log' : List Event) : Prop :=
  ∃ mid, Sent t.fd frame 0 log x.txSent mid ∧ Got t.fd [] mid x.rx log' ∧
    (x.rx = [] ∧ mid = log' ∨ x.txSent = frame.length)

structure Flowing (m₀ : M) (frame S : List UInt8) (t : TcpConnection) (log : List Event) (m : M)
    (w : World) : Prop where
  busy : E.busy m = true
  tx_eq : (E.io m).tx = frame
  sent_le : (E.io m).txSent ≤ frame.length
  paced : (E.io m).Paced
  capped : (E.io m).rxExpected ≤ kEncapsulationHeaderSize + E.cap
  stream : S = (E.io m).rx ++ arriving w.script.recvs
  calm : w.script.calm = true
  traffic : Traffic t frame log (E.io m) w.log
  finish_eq : ∀ y, E.finish m y = E.finish m₀ y
  fail_eq : ∀ y, E.fail m y = E.fail m₀ y

def Stuck (frame : List UInt8) (m : M) (w : World) : Prop :=
  (E.io m).txSent < frame.length ∧ w.script.sends = [] ∨
    (E.io m).txSent = frame.length ∧ w.script.recvs = [] ∧
      (E.io m).rx.length < (E.io m).rxExpected

def loaded (frame S : List UInt8) (k : Nat) : Transfer where
  tx := frame
  txSent := frame.length
  rx := S.take k
  rxExpected := k

def announced (S : List UInt8) : Nat := (decodeHeader S).length.toNat

inductive Ended (m₀ : M) (frame S : List UInt8) (t : TcpConnection) (log : List Event) :
    Status → M → World → Prop
  | whole {w : World} : announced S ≤ E.cap →
      kEncapsulationHeaderSize + announced S ≤ S.length →
      Traffic t frame log (loaded frame S (kEncapsulationHeaderSize + announced S)) w.log →
      Ended m₀ frame S t log
        (E.finish m₀ (loaded frame S (kEncapsulationHeaderSize + announced S))).1
        (E.finish m₀ (loaded frame S (kEncapsulationHeaderSize + announced S))).2 w
  | flooded {w : World} : E.cap < announced S → kEncapsulationHeaderSize ≤ S.length →
      Traffic t frame log (loaded frame S kEncapsulationHeaderSize) w.log →
      Ended m₀ frame S t log .error (E.fail m₀ (loaded frame S kEncapsulationHeaderSize)) w

variable {E} {m₀ m : M} {frame S : List UInt8} {t : TcpConnection} {log : List Event} {w : World}

theorem Flowing.resumed (h : Flowing E m₀ frame S t log m w) {x : Transfer} {w' : World}
    (htx : x.tx = frame) (hsent : x.txSent ≤ frame.length) (hpaced : x.Paced)
    (hcapped : x.rxExpected ≤ kEncapsulationHeaderSize + E.cap)
    (hstream : S = x.rx ++ arriving w'.script.recvs) (hcalm : w'.script.calm = true)
    (htraffic : Traffic t frame log x w'.log) :
    Flowing E m₀ frame S t log (E.resume m x) w' := by
  have hio := E.io_resume m x
  refine ⟨E.busy_resume _ _ h.busy,?_,?_,?_,?_,?_,hcalm,?_,fun y => ?_,fun y => ?_⟩
  · rwa [hio]
  · rwa [hio]
  · rwa [hio]
  · rwa [hio]
  · rwa [hio]
  · rwa [hio]
  · rw [E.finish_resume,h.finish_eq]
  · rw [E.fail_resume,h.fail_eq]

theorem Flowing.poll_writes (h : Flowing E m₀ frame S t log m w) (hlive : t.live)
    (hdl : expired w.millis.1 (E.deadline m) = false) :
    (∃ k w', E.poll m t w = (.pending,E.resume m {E.io m with txSent := k},t,w') ∧
      Flowing E m₀ frame S t log (E.resume m {E.io m with txSent := k}) w' ∧
      k < frame.length ∧ w'.script.recvs = w.script.recvs ∧
      Spent w.script.sends w'.script.sends ∧ (E.io m).txSent ≤ k) ∨
    ∃ v, (E.io m).writePending t w.millis.2 = (.ok,{E.io m with txSent := frame.length},t,v) ∧
      Traffic t frame log {E.io m with txSent := frame.length} v.log ∧ v.script.calm = true ∧
      v.script.recvs = w.script.recvs ∧ v.script.sends.length ≤ w.script.sends.length ∧
      ((E.io m).txSent < frame.length → w.script.sends ≠ []) := by
  have hcalm : w.millis.2.script.calm = true := h.calm
  obtain ⟨st,k,v,hwrite,hcalm',hrecvs,hless,hend⟩ := Transfer.writeLoop_calm (x := E.io m)
    (w := w.millis.2) (Nat.lt_succ_self _) hlive hcalm
  have hsent := (Transfer.Wrote.of_write hwrite).sent
  have hle := hsent.le
  simp only [h.tx_eq] at hend hsent hle
  have htx := h.tx_eq
  obtain ⟨mid,hbefore,hgot,hread⟩ := h.traffic
  have hroom : k ≤ frame.length := by
    have := h.sent_le
    rcases hle.2 with hk | hk <;> omega
  -- Nothing has been read while bytes of the request are left to write.
  have htraffic : Traffic t frame log {E.io m with txSent := k} v.log := by
    rcases hread with ⟨hnone,rfl⟩ | hall
    · refine ⟨v.log,hbefore.trans hsent,?_,Or.inl ⟨hnone,rfl⟩⟩
      simp only [hnone]
      exact Got.refl
    · have hk : k = frame.length := by omega
      have hlog : v.log = w.log := hsent.still (by omega)
      exact ⟨mid,by rw [hk,← hall]; exact hbefore,by rw [hlog]; exact hgot,Or.inr hk⟩
  rcases hend with ⟨rfl,hmore,hspent⟩ | ⟨rfl,hall,hsome⟩
  · have hflow := h.resumed (x := {E.io m with txSent := k}) htx hroom h.paced h.capped
      (hrecvs ▸ h.stream) hcalm' htraffic
    exact Or.inl ⟨k,v,E.poll_write m t w _ _ _ h.busy hdl hwrite (by simpa [htx] using hmore),
      hflow,hmore,hrecvs,hspent,hle.1⟩
  · obtain rfl : k = frame.length := Nat.le_antisymm hroom hall
    exact Or.inr ⟨v,hwrite,htraffic,hcalm',hrecvs,hless,hsome⟩

theorem loaded_packet {x : Transfer} {left : List UInt8} (hstream : S = x.rx ++ left)
    (hp : x.Paced) (hall : x.rxExpected ≤ x.rx.length)
    (hcapped : x.rxExpected ≤ kEncapsulationHeaderSize + E.cap) (htx : x.tx = frame)
    (hsent : x.txSent = frame.length) :
    announced S ≤ E.cap ∧ kEncapsulationHeaderSize + announced S ≤ S.length ∧
      x = loaded frame S (kEncapsulationHeaderSize + announced S) := by
  have hhead := hp.header hall
  have hexp := hp.2.2 hhead
  have hfit := hp.1
  have hlen : announced S = (decodeHeader x.rx).length.toNat := by
    rw [announced,hstream,decodeHeader_append _ _ hhead]
  have hrx : x.rx = S.take (kEncapsulationHeaderSize + announced S) := by
    have hk : kEncapsulationHeaderSize + announced S = x.rx.length := by omega
    rw [hk,hstream,List.take_left]
  have hle : x.rx.length ≤ S.length := by rw [hstream]; simp
  refine ⟨by omega,by omega,?_⟩
  obtain ⟨tx,txSent,rx,rxExpected⟩ := x
  simp only at htx hsent hrx hexp hlen
  rw [loaded,htx,hsent,hrx,hexp,hlen]

theorem loaded_header {x : Transfer} {left : List UInt8} (hstream : S = x.rx ++ left)
    (hlen : x.rx.length = kEncapsulationHeaderSize)
    (hexp : x.rxExpected = kEncapsulationHeaderSize) (htx : x.tx = frame)
    (hsent : x.txSent = frame.length) :
    announced S = (decodeHeader x.rx).length.toNat ∧ kEncapsulationHeaderSize ≤ S.length ∧
      x = loaded frame S kEncapsulationHeaderSize := by
  have hrx : x.rx = S.take kEncapsulationHeaderSize := by rw [hstream,List.take_left' hlen]
  have hle : x.rx.length ≤ S.length := by rw [hstream]; simp
  refine ⟨by rw [announced,hstream,decodeHeader_append _ _ hlen.ge],by omega,?_⟩
  obtain ⟨tx,txSent,rx,rxExpected⟩ := x
  simp only at htx hsent hrx hexp
  rw [loaded,htx,hsent,hrx,hexp]

theorem Flowing.turn (h : Flowing E m₀ frame S t log m w) (hlive : t.live)
    (hdl : expired w.millis.1 (E.deadline m) = false) :
    ∃ st m' w', E.poll m t w = (st,m',t,w') ∧
      (st = .pending ∧ Flowing E m₀ frame S t log m' w' ∧
        (Stuck E frame m' w' ∨ ¬ Stuck E frame m w ∧ answers w'.script < answers w.script) ∨
      st ≠ .pending ∧ Ended E m₀ frame S t log st m' w') := by
  rcases h.poll_writes hlive hdl with ⟨k,w',heq,hflow,hmore,hrecvs,hspent,hle⟩ |
    ⟨v,hwrite,htraffic,hcalm,hrecvs,hless,hsome⟩
  · refine ⟨_,_,w',heq,Or.inl ⟨rfl,hflow,?_⟩⟩
    rcases hspent with hnone | hfewer
    · exact Or.inl (Or.inl ⟨by rw [E.io_resume]; exact hmore,hnone⟩)
    · refine Or.inr ⟨?_,?_⟩
      · rintro (⟨_,hnone⟩ | ⟨hall,_⟩)
        · simp [hnone] at hfewer
        · omega
      · simp only [answers,hrecvs]
        omega
  · have hp : Transfer.Paced {E.io m with txSent := frame.length} := h.paced
    obtain ⟨st,x,w',hread,hdrained,habsorbed⟩ :=
      Transfer.readResponse_calm E.cap hp hlive hcalm
    have hr := Transfer.Read.of_read hread
    have htx : x.tx = frame := hr.tx_eq.trans h.tx_eq
    have hsent : x.txSent = frame.length := hr.sent_eq
    have hpoll := E.poll_read m t w _ _ _ _ _ _ _ h.busy hdl hwrite hread (by rw [htx,hsent])
    have hstream : S = x.rx ++ arriving w'.script.recvs := by
      rw [← habsorbed.stream,hrecvs]
      exact h.stream
    have hmoved : Traffic t frame log x w'.log := by
      obtain ⟨mid,hbefore,hgot,_⟩ := htraffic
      exact ⟨mid,by rw [hsent]; exact hbefore,hgot.trans hr.got,Or.inr hsent⟩
    cases hdrained with
    | dry hrx hmore =>
      rw [if_pos rfl] at hpoll
      refine ⟨_,_,w',hpoll,Or.inl ⟨rfl,?_,?_⟩⟩
      · exact h.resumed htx hsent.le (hr.paced hp (by simp)) (habsorbed.capped h.capped) hstream
          habsorbed.calm hmoved
      · rcases habsorbed.spent rfl with hnone | hfewer
        · exact Or.inl (Or.inr (by rw [E.io_resume]; exact ⟨hsent,hnone,hmore⟩))
        · refine Or.inr ⟨?_,?_⟩
          · rintro (⟨hless',hnone⟩ | ⟨_,hnone,_⟩)
            · exact hsome hless' hnone
            · rw [hrecvs,hnone] at hfewer
              simp at hfewer
          · have hsends := habsorbed.sends
            rw [hrecvs] at hfewer
            simp only [answers,hsends]
            omega
    | full hall =>
      rw [if_neg (by simp),if_pos rfl] at hpoll
      obtain ⟨hcap,hlen,hx⟩ := loaded_packet hstream (hr.paced hp (by simp)) hall
        (habsorbed.capped h.capped) htx hsent
      rw [h.finish_eq,hx] at hpoll
      refine ⟨_,_,w',hpoll,Or.inr ⟨E.finish_ne _ _,.whole hcap hlen (hx ▸ hmoved)⟩⟩
    | flooded hlen hexp hcap =>
      rw [if_neg (by simp),if_neg (by simp)] at hpoll
      obtain ⟨hS,hheader,hx⟩ := loaded_header hstream hlen hexp htx hsent
      rw [h.fail_eq,hx] at hpoll
      refine ⟨_,_,w',hpoll,Or.inr ⟨by simp,.flooded (by omega) hheader (hx ▸ hmoved)⟩⟩

theorem Flowing.polls (h : Flowing E m₀ frame S t log m w) (hlive : t.live) {n : Nat}
    (hdl : E.Timely n m t w) :
    ∃ st m' w', E.polls n m t w = (st,m',t,w') ∧
      (st = .pending ∧ Flowing E m₀ frame S t log m' w' ∧
        (answers w.script < n ∨ Stuck E frame m w → Stuck E frame m' w') ∨
      st ≠ .pending ∧ Ended E m₀ frame S t log st m' w') := by
  induction n generalizing m w with
  | zero => exact ⟨.pending,m,w,rfl,Or.inl ⟨rfl,h,fun hs => hs.resolve_left (Nat.not_lt_zero _)⟩⟩
  | succ n ih =>
    obtain ⟨hnow,hlater⟩ := hdl
    rw [Exchanger.polls]
    obtain ⟨st,m',w',heq,⟨rfl,hflow,hstuck⟩ | ⟨hst,hend⟩⟩ := h.turn hlive hnow
    · rw [heq] at hlater ⊢
      simp only [if_true]
      obtain ⟨st,m'',w'',hrun,⟨hst,hflow',hstuck'⟩ | hend⟩ := ih hflow (hlater rfl)
      · refine ⟨st,m'',w'',hrun,Or.inl ⟨hst,hflow',fun hs => hstuck' ?_⟩⟩
        rcases hstuck with hstuck | ⟨hfree,hless⟩
        · exact Or.inr hstuck
        · exact Or.inl (by have := hs.resolve_right hfree; omega)
      · exact ⟨st,m'',w'',hrun,Or.inr hend⟩
    · rw [heq]
      simp only [if_neg hst]
      exact ⟨st,m',w',rfl,Or.inr ⟨hst,hend⟩⟩

variable (E)

-- The request leaves whole, in order and once, then one packet is read, and the pieces in which
-- the socket moves the bytes do not matter.
def Faithful : Prop :=
  ∀ (m : M) (frame : List UInt8) (t : TcpConnection) (w : World) (n : Nat),
    E.busy m = true → E.io m = Transfer.load frame → t.live → w.script.calm = true →
    E.Timely n m t w → ∃ st m' w', E.polls n m t w = (st,m',t,w') ∧
      (st = .pending ∧ Flowing E m frame (arriving w.script.recvs) t w.log m' w' ∧
        (answers w.script < n → Stuck E frame m' w') ∨
      st ≠ .pending ∧ Ended E m frame (arriving w.script.recvs) t w.log st m' w')

theorem faithful : E.Faithful := by
  intro m frame t w n hbusy hload hlive hcalm hdl
  have hflow : Flowing E m frame (arriving w.script.recvs) t w.log m w := by
    refine ⟨hbusy,?_,?_,?_,?_,?_,hcalm,?_,fun _ => rfl,fun _ => rfl⟩ <;> rw [hload]
    · rfl
    · exact Nat.zero_le _
    · exact Transfer.load_paced frame
    · exact Nat.le_add_right _ _
    · rfl
    · exact ⟨w.log,Sent.refl,Got.refl,Or.inl ⟨rfl,rfl⟩⟩
  obtain ⟨st,m',w',hrun,⟨hst,hflow',hstuck⟩ | hend⟩ := hflow.polls hlive hdl
  · exact ⟨st,m',w',hrun,Or.inl ⟨hst,hflow',fun hn => hstuck (Or.inl hn)⟩⟩
  · exact ⟨st,m',w',hrun,Or.inr hend⟩

def Started (m : M) : Prop :=
  E.busy m = true ∧ ∃ frame, E.io m = Transfer.load frame ∧
    frame.length ≤ kEncapsulationHeaderSize + E.cap

end Exchanger

end ControlLogix
