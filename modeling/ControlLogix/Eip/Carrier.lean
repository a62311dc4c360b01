import ControlLogix.Eip.Exchanger

namespace ControlLogix

-- An owner of an exchange: its poll polls the exchange, waits with it, and settles by what became
-- of it.
structure Carrier (T : Type) {M : Type} (E : Exchanger M) where
  get : T → M
  set : T → M → T
  carries : T → Bool
  win : T → Status × T
  lose : T → T
  poll : T → TcpConnection → World → Status × T × TcpConnection × World
  get_set : ∀ x m, get (set x m) = m
  set_set : ∀ x m m', set (set x m) m' = set x m'
  carries_set : ∀ x m, carries (set x m) = carries x
  get_win : ∀ x, get (win x).2 = get x
  get_lose : ∀ x, get (lose x) = get x
  win_ne : ∀ x, (win x).1 ≠ .pending
  poll_eq : ∀ x t w, carries x = true → E.busy (get x) = true → poll x t w =
    (let (st,m,t,w) := E.poll (get x) t w
     if st = .pending then (.pending,set x m,t,w)
     else if st = .ok then ((win (set x m)).1,(win (set x m)).2,t,w)
     else (st,lose (set x m),t,w))

namespace Carrier

variable {T M : Type} {E : Exchanger M} (C : Carrier T E)

def settle (x : T) (r : Status × M) : Status × T :=
  if r.1 = .ok then C.win (C.set x r.2) else (r.1,C.lose (C.set x r.2))

theorem get_settle (x : T) (r : Status × M) : C.get (C.settle x r).2 = r.2 := by
  rw [settle]
  split
  · rw [C.get_win,C.get_set]
  · rw [C.get_lose,C.get_set]

theorem settle_ne {x : T} {r : Status × M} (h : r.1 ≠ .pending) :
    (C.settle x r).1 ≠ .pending := by
  rw [settle]
  split
  · exact C.win_ne _
  · exact h

theorem settle_set (x : T) (m : M) (r : Status × M) : C.settle (C.set x m) r = C.settle x r := by
  simp only [settle,C.set_set]

def exchanger : Exchanger T where
  cap := E.cap
  io x := E.io (C.get x)
  busy x := C.carries x && E.busy (C.get x)
  deadline x := E.deadline (C.get x)
  poll := C.poll
  resume x y := C.set x (E.resume (C.get x) y)
  finish x y := C.settle x (E.finish (C.get x) y)
  fail x y := C.lose (C.set x (E.fail (C.get x) y))
  io_resume := by
    intro x y
    rw [C.get_set,E.io_resume]
  io_finish := by
    intro x y
    rw [C.get_settle,E.io_finish]
  io_fail := by
    intro x y
    rw [C.get_lose,C.get_set,E.io_fail]
  busy_resume := by
    intro x y h
    rw [Bool.and_eq_true_iff] at h
    rw [C.carries_set,C.get_set,h.1,E.busy_resume _ _ h.2]
    rfl
  deadline_resume := by
    intro x y
    rw [C.get_set,E.deadline_resume]
  finish_resume := by
    intro x y z
    rw [C.get_set,E.finish_resume,C.settle_set]
  fail_resume := by
    intro x y z
    rw [C.get_set,E.fail_resume,C.set_set]
  finish_ne := by
    intro x y
    exact C.settle_ne (E.finish_ne _ _)
  poll_write := by
    intro x t w y t' w' hbusy hdl hwrite hmore
    obtain ⟨hcarries,hbusy⟩ := Bool.and_eq_true_iff.mp hbusy
    rw [C.poll_eq x t w hcarries hbusy,E.poll_write _ _ _ _ _ _ hbusy hdl hwrite hmore]
    rfl
  poll_read := by
    intro x t w y u v st z t' w' hbusy hdl hwrite hread hall
    obtain ⟨hcarries,hbusy⟩ := Bool.and_eq_true_iff.mp hbusy
    rw [C.poll_eq x t w hcarries hbusy,
      E.poll_read _ _ _ _ _ _ _ _ _ _ hbusy hdl hwrite hread hall]
    by_cases hwait : st = .pending
    · simp [hwait]
    by_cases hok : st = .ok
    · have hne := E.finish_ne (C.get x) z
      simp only [if_pos hok,if_neg hwait,if_neg hne,settle]
      by_cases hwin : (E.finish (C.get x) z).1 = .ok
      · rw [if_pos hwin,if_pos hwin]
      · rw [if_neg hwin,if_neg hwin]
    · simp only [if_neg hok,if_neg hwait]

end Carrier

namespace Exchanger

variable {M : Type} {E : Exchanger M}

theorem Ended.packet {m₀ m : M} {frame p : List UInt8} {t : TcpConnection} {log : List Event}
    {st : Status} {w : World} (h : Ended E m₀ frame p t log st m w) (hbox : Encapsulated p)
    (hcap : announced p ≤ E.cap) : st = (E.finish m₀ (loaded frame p p.length)).1 ∧
      m = (E.finish m₀ (loaded frame p p.length)).2 ∧
      Traffic t frame log (loaded frame p p.length) w.log := by
  have hlen : kEncapsulationHeaderSize + announced p = p.length := hbox.symm
  cases h with
  | whole _ _ htraffic =>
    rw [hlen] at htraffic ⊢
    exact ⟨rfl,rfl,htraffic⟩
  | flooded hflood => omega

theorem polls_packet {m : M} {frame p : List UInt8} {t : TcpConnection} {w : World} {n : Nat}
    (hbusy : E.busy m = true) (hload : E.io m = Transfer.load frame) (hlive : t.live)
    (hcalm : w.script.calm = true) (hdl : E.Timely n m t w) (hp : arriving w.script.recvs = p)
    (hbox : Encapsulated p) (hcap : announced p ≤ E.cap)
    (hend : (E.polls n m t w).1 ≠ .pending) : ∃ w',
      E.polls n m t w = ((E.finish m (loaded frame p p.length)).1,
        (E.finish m (loaded frame p p.length)).2,t,w') ∧
      Traffic t frame w.log (loaded frame p p.length) w'.log := by
  obtain ⟨st,m',w',hrun,⟨hst,_⟩ | ⟨_,hended⟩⟩ := E.faithful m frame t w n hbusy hload hlive hcalm hdl
  · rw [hrun] at hend
    exact absurd hst hend
  · rw [hp] at hended
    obtain ⟨rfl,rfl,htraffic⟩ := hended.packet hbox hcap
    exact ⟨w',hrun,htraffic⟩

theorem polls_sent {m : M} {frame : List UInt8} {t : TcpConnection} {w : World} {n : Nat}
    (hbusy : E.busy m = true) (hload : E.io m = Transfer.load frame) (hlive : t.live)
    (hcalm : w.script.calm = true) (hdl : E.Timely n m t w)
    (hend : (E.polls n m t w).1 ≠ .pending) : ∃ x, x.txSent = frame.length ∧
      Traffic t frame w.log x (E.polls n m t w).2.2.2.log := by
  obtain ⟨st,m',w',hrun,⟨hst,_⟩ | ⟨_,hended⟩⟩ := E.faithful m frame t w n hbusy hload hlive hcalm hdl
  · rw [hrun] at hend
    exact absurd hst hend
  · rw [hrun]
    cases hended with
    | whole _ _ htraffic => exact ⟨_,rfl,htraffic⟩
    | flooded _ _ htraffic => exact ⟨_,rfl,htraffic⟩

end Exchanger

def sentBetween (past log : List Event) : List UInt8 :=
  (Writes.written (lastLink log).sends).drop (Writes.written (lastLink past).sends).length

theorem Exchanger.Traffic.sentBetween {t : TcpConnection} {frame : List UInt8}
    {log log' : List Event} {x : Transfer} (h : Traffic t frame log x log')
    (hall : x.txSent = frame.length) : sentBetween log log' = frame := by
  obtain ⟨mid,hsent,hgot,_⟩ := h
  obtain ⟨more,_,hlink⟩ := hgot.link
  have hold : Writes.written (lastLink log).sends =
      Writes.written (lastLink log).sends ++ frame.take 0 := by simp
  have hwritten := hsent.written hold
  rw [ControlLogix.sentBetween,hlink]
  simp only
  rw [hwritten,List.drop_left,hall,List.take_length]

end ControlLogix
