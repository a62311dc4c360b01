import ControlLogix.Machine.Exclusive

namespace ControlLogix

-- Every end of an operation is followed at once by the tag callback with its slot and status, and
-- no callback stands anywhere else.
def answered : List Event → Bool
  | [] => true
  | .tagCallback i st :: .ended j st' _ _ :: log => i = j && st = st' && answered log
  | .tagCallback _ _ :: _ => false
  | .ended _ _ _ _ :: _ => false
  | _ :: log => answered log

theorem answered_quiet {e : Event} (h : e.quiet = true) (log : List Event) :
    answered (e :: log) = answered log := by
  cases e <;> simp_all [Event.quiet,Event.board,answered]

namespace Config

variable {n : Nat}

def visiting (s : Config n) (l : Label) : Option (Fin n) :=
  match l.act, s.stack with
  | .advance, .scan next _ :: _ =>
    if h : next < n then if s.client.inUse ⟨next,h⟩ then some ⟨next,h⟩ else none else none
  | _, _ => none

theorem visiting_eq {s : Config n} {l : Label} {i : Fin n} {disconnected : Bool}
    {stack : List Frame} (ha : l.act = .advance) (hstack : s.stack = .scan i disconnected :: stack)
    (huse : s.client.inUse i = true) : s.visiting l = some i := by
  simp [visiting,ha,hstack,huse]

theorem visiting_step {s : Config n} {l : Label} {i : Fin n} (h : s.visiting l = some i) :
    ∃ disconnected stack, s.stack = .scan i disconnected :: stack ∧ s.client.inUse i = true ∧
      s.step l = (s.hear l.script).visit i disconnected stack := by
  unfold visiting at h
  split at h
  · next next disconnected stack ha hstack =>
    split_ifs at h with hin huse
    obtain rfl := Option.some.inj h
    refine ⟨disconnected,stack,hstack,huse,?_⟩
    have hheard : (s.hear l.script).stack = .scan next disconnected :: stack := hstack
    have huse' : (s.hear l.script).client.inUse ⟨next,hin⟩ = true := huse
    simp only [step,act,ha,advance,hheard]
    rw [dif_pos hin,if_pos huse']
  · cases h

def callbackSet (s : Config n) (l : Label) : Bool :=
  (s.visiting l).isNone || s.client.tagCallback

-- The first poll that visits a tag after its operation was started already ends the operation.
def endsAtFirstPoll (s : Config n) (l : Label) : Bool :=
  match s.visiting l with
  | none => false
  | some i => s.client.busy i && s.client.tagPrevStatus i ≠ .pending &&
      ((s.client.tags i).poll s.client.msg s.client.tcp (s.hear l.script).world).1 ≠ .pending

def Watched (s : Config n) : Prop := ∀ i, s.client.inUse i = true →
  s.client.tagPrevStatus i = .pending → s.client.busy i = true

theorem polled_busy {c : PlcClient n} {log : List Event} {i : Fin n} {w w' : World} {st : Status}
    {g : Tag} {m : ExplicitMessage} {t : TcpConnection} (h : c.Exclusive log)
    (hpoll : (c.tags i).poll c.msg c.tcp w = (st,g,m,t,w')) (hst : st = .pending) :
    g.inFlight = true := by
  rcases h.poll_cases hpoll with ⟨hg,_,hpolled⟩ | ⟨_,hstatus,rfl,_⟩
  · cases hpolled with
    | waits => exact hg
    | fails _ _ hne => exact absurd hst hne
    | ends _ _ hres => rcases hres with ⟨rfl,_⟩ | ⟨rfl,_⟩ <;> cases hst
  · exact (Tag.status_pending _).mp (hstatus.symm.trans hst)

theorem watched_step {s : Config n} {l : Label} (h : Watched s)
    (hex : s.client.Exclusive s.world.log) : Watched (s.step l) := by
  intro j huse hprev
  cases s.step_move l with
  | quiet hk _ _ =>
    have hj := h j (by rw [← hk.inUse]; exact huse) (by rw [← hk.prev]; exact hprev)
    simpa [PlcClient.busy,hk.tags] using hj
  | created i _ _ _ _ _ _ hc _ =>
    obtain ⟨_,_,hc⟩ := hc
    rw [hc] at huse hprev ⊢
    by_cases hji : j = i
    · simp [hji] at hprev
    · exact h j (by simpa [hji] using huse) (by simpa [hji] using hprev)
  | destroyed i _ _ _ _ hc _ =>
    rw [hc] at huse hprev ⊢
    by_cases hji : j = i
    · simp [hji] at huse
    · exact h j (by simpa [hji] using huse) hprev
  | started i g _ _ _ _ _ _ _ _ _ _ _ _ hg _ _ hc _ =>
    rw [PlcClient.busy_update (c := s.client) (i := i) (g := g) (by rw [hc]),hg]
    rw [hc] at huse hprev
    by_cases hji : j = i
    · simp [hji]
    · rw [Function.update_of_ne hji]
      exact h j huse hprev
  | typed i f _ hc _ =>
    rw [PlcClient.busy_update (c := s.client) (i := i) (g := (s.client.tags i).set f)
      (by rw [hc])]
    rw [hc] at huse hprev
    by_cases hji : j = i
    · simpa [hji,PlcClient.busy] using h j huse hprev
    · rw [Function.update_of_ne hji]
      exact h j huse hprev
  | aborted i _ hc _ =>
    rw [PlcClient.busy_update (c := s.client) (i := i)
      (g := ((s.client.tags i).abort s.client.msg).1) (by rw [hc])]
    rw [hc] at huse hprev
    by_cases hji : j = i
    · simp [hji] at hprev
    · rw [Function.update_of_ne hji]
      exact h j huse (by simpa [hji] using hprev)
  | visited i _ _ st g m t w' _ _ _ hpoll hc _ =>
    rw [PlcClient.busy_update (c := s.client) (i := i) (g := g) (by rw [hc])]
    rw [hc] at huse hprev
    by_cases hji : j = i
    · rw [hji,Function.update_self]
      exact polled_busy hex hpoll (by simpa [hji] using hprev)
    · rw [Function.update_of_ne hji]
      exact h j huse (by simpa [hji] using hprev)

def CallsBack (s : Config n) : Prop :=
  Watched s ∧ s.client.Exclusive s.world.log ∧ answered s.world.log = true

theorem callsBack_step {s : Config n} {l : Label} (h : CallsBack s)
    (hg : s.callbackSet l = true ∧ s.endsAtFirstPoll l = false) : CallsBack (s.step l) := by
  obtain ⟨hwatch,hex,hlog⟩ := h
  refine ⟨watched_step hwatch hex,s.exclusive_step l hex,?_⟩
  cases s.step_move l with
  | quiet _ hgrow _ => rw [hgrow.reading fun e he es => answered_quiet he es,hlog]
  | created i _ _ _ _ _ _ _ heq => rw [heq]; exact hlog
  | destroyed i _ _ _ _ _ heq => rw [heq]; exact hlog
  | started i _ _ _ _ _ _ _ _ _ _ _ _ _ _ _ _ _ heq => rw [heq]; exact hlog
  | typed i _ _ _ heq =>
    rw [heq]
    split <;> exact hlog
  | aborted i _ _ heq =>
    rw [heq]
    split <;> exact hlog
  | visited i disconnected stack st g m t w' ha hstack huse hpoll hc heq =>
    have hvisit := visiting_eq ha hstack huse
    have hspoke := (hex.poll_moved hpoll).spoke
    have hpast : answered w'.log = true := by
      rw [(grows_quiet hspoke).reading fun e he es => answered_quiet he es]
      exact hlog
    have hset : s.client.tagCallback = true := by simpa [callbackSet,hvisit] using hg.1
    have hfirst : s.client.busy i = true → st ≠ .pending → s.client.tagPrevStatus i = .pending := by
      intro hbusy hst
      by_contra hprev
      simp [endsAtFirstPoll,hvisit,hbusy,hprev,hpoll,hst] at hg
    rw [heq,visitMarks]
    by_cases hst : st = .pending
    · simpa [hst] using hpast
    by_cases hbusy : s.client.busy i = true
    · have hprev := hfirst hbusy hst
      have hfly : (s.client.tags i).inFlight = true := hbusy
      simpa [hst,hprev,hfly,hset,answered] using hpast
    · have hprev : s.client.tagPrevStatus i ≠ .pending := fun hp => hbusy (hwatch i huse hp)
      have hfly : (s.client.tags i).inFlight = false := by simpa [PlcClient.busy] using hbusy
      simpa [hprev,hfly] using hpast

theorem callsBack_after (memory : Fin n → Buffer Tag.kMaxDataSize) (time : Nat)
    {ls : List Label}
    (hrun : Runs.Guarded step (fun s l => s.callbackSet l = true ∧ s.endsAtFirstPoll l = false)
      (init memory time) ls) : CallsBack (after memory time ls) :=
  Runs.invariant_run (fun _ _ h hg => callsBack_step h hg)
    (show CallsBack (init memory time) from
      ⟨fun _ huse => (by cases huse),PlcClient.exclusive_init memory time,rfl⟩) hrun

theorem callback_once_per_completion (memory : Fin n → Buffer Tag.kMaxDataSize) (time : Nat)
    (ls : List Label)
    (hrun : Runs.Guarded step (fun s l => s.callbackSet l = true ∧ s.endsAtFirstPoll l = false)
      (init memory time) ls) :
    let s := after memory time ls
    answered s.world.log = true ∧ Trace.Always Owned s.world.log ∧
      ∀ i : Fin n, (s.client.tags i).status = .pending ↔
        ∃ frame, holder s.world.log = some (i.val,frame) := by
  obtain ⟨_,hex,hlog⟩ := callsBack_after memory time hrun
  refine ⟨hlog,hex.2,fun i => ?_⟩
  rw [Tag.status_pending]
  exact hex.1.busy_iff Fin.val_injective i

end Config

namespace Sample

def watched : List Label :=
  online ++ [call (.setTagCallback true),call (.createTag tagA 1),call (.read 0 1000)]

def slowReply : List Label :=
  watched ++ sweep {sends := [.ok 48]} ++ sweep {recvs := [.ok (dataReply 1 dint)]}

def promptReply : List Label :=
  watched ++ sweep {sends := [.ok 48], recvs := [.ok (dataReply 1 dint)]}

theorem callback_once_slowReply :
    answered (after slowReply).world.log = true ∧
      .tagCallback 0 .ok ∈ (after slowReply).world.log :=
  ⟨(Config.callback_once_per_completion memory 0 slowReply (by decide +kernel)).1,
    by decide +kernel⟩

theorem promptReply_skips_callback :
    let s := after promptReply
    Runs.Guarded Config.step (fun s l => s.callbackSet l = true) (Config.init memory 0)
        promptReply ∧
      .ended 0 .ok true (dataReply 1 dint) ∈ s.world.log ∧
        (∀ st, .tagCallback 0 st ∉ s.world.log) ∧ answered s.world.log = false := by
  refine ⟨by decide +kernel,by decide +kernel,?_,by decide +kernel⟩
  intro st
  cases st <;> decide +kernel

end Sample

end ControlLogix
