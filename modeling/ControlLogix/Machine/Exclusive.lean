import ControlLogix.Library.Lease
import ControlLogix.Machine.TagMoves

namespace ControlLogix

-- The operation the log says is in flight: its slot and the frame it was started with.
def holder : List Event → Option (Nat × List UInt8)
  | [] => none
  | .started i frame :: _ => some (i,frame)
  | .ended _ _ _ _ :: _ => none
  | .aborted _ :: _ => none
  | _ :: log => holder log

-- An operation starts when there is none, and is ended by the slot that started it.
def Owned : Event → List Event → Prop
  | .started _ _, past => holder past = none
  | .ended i _ _ _, past => ∃ frame, holder past = some (i,frame)
  | .aborted i, past => ∃ frame, holder past = some (i,frame)
  | _, _ => True

theorem holder_quiet {e : Event} (h : e.quiet = true) (log : List Event) :
    holder (e :: log) = holder log := by
  cases e <;> simp_all [Event.quiet,Event.board,holder]

theorem owned_quiet {e : Event} (h : e.quiet = true) (log : List Event) : Owned e log := by
  cases e <;> simp_all [Event.quiet,Event.board,Owned]

theorem quiet_of_board {e : Event} (h : e.board = true) : e.quiet = true := by
  cases e <;> simp_all [Event.quiet,Event.board]

namespace PlcClient

variable {n : Nat}

def busy (c : PlcClient n) (i : Fin n) : Bool := (c.tags i).inFlight

theorem busy_update {c c' : PlcClient n} {i : Fin n} {g : Tag}
    (htags : c'.tags = Function.update c.tags i g) :
    c'.busy = Function.update c.busy i g.inFlight := by
  funext j
  rw [busy,htags]
  by_cases h : j = i
  · subst h
    simp
  · simp [h,busy]

def Exclusive (c : PlcClient n) (log : List Event) : Prop :=
  Lease.Holds (fun i : Fin n => i.val) c.busy c.msg.inFlight c.msg.io.tx (holder log) ∧
    Trace.Always Owned log

variable {c c' : PlcClient n} {log log' : List Event} {i : Fin n}

theorem exclusive_init (memory : Fin n → Buffer Tag.kMaxDataSize) (time : Nat) :
    Exclusive (Config.init memory time).client (Config.init memory time).world.log :=
  ⟨.free (fun _ => rfl) rfl,trivial⟩

theorem Exclusive.quiet (h : Exclusive c log)
    (hlog : Trace.Grows (fun e => e.quiet = true) log log') : Exclusive c log' := by
  refine ⟨?_,hlog.always (fun e he es => owned_quiet he es) h.2⟩
  rw [hlog.reading fun e he es => holder_quiet he es]
  exact h.1

theorem Exclusive.same (h : Exclusive c log) (htags : c'.tags = c.tags) (hmsg : c'.msg = c.msg) :
    Exclusive c' log := by
  have hbusy : c'.busy = c.busy := by
    funext i
    rw [busy,busy,htags]
  rw [Exclusive,hbusy,hmsg]
  exact h

theorem Exclusive.msg_inFlight (h : Exclusive c log) (hi : (c.tags i).inFlight = true) :
    c.msg.inFlight = true := h.1.taken_iff.mpr ⟨i,hi⟩

theorem Exclusive.still (h : Exclusive c log) {g : Tag}
    (htags : c'.tags = Function.update c.tags i g) (hg : g.inFlight = (c.tags i).inFlight)
    (hmsg : c'.msg = c.msg) : Exclusive c' log := by
  refine ⟨?_,h.2⟩
  rw [busy_update htags,hmsg]
  exact h.1.still hg

theorem Exclusive.started (h : Exclusive c log) (hm : c.msg.inFlight = false) {g : Tag}
    {frame : List UInt8} {deadline : UInt32} (htags : c'.tags = Function.update c.tags i g)
    (hg : g.inFlight = true) (hmsg : c'.msg = c.msg.issued frame deadline) :
    Exclusive c' (.started i frame :: log) := by
  refine ⟨?_,h.1.holder_none hm,h.2⟩
  rw [busy_update htags,hmsg,hg]
  exact h.1.take hm i frame

theorem Exclusive.aborted (h : Exclusive c log)
    (htags : c'.tags = Function.update c.tags i ((c.tags i).abort c.msg).1)
    (hmsg : c'.msg = ((c.tags i).abort c.msg).2) :
    Exclusive c' ((if (c.tags i).inFlight then [.aborted i] else []) ++ log) := by
  cases hg : (c.tags i).inFlight with
  | false =>
    refine h.still htags hg.symm (hmsg.trans ?_)
    exact if_neg (by simpa [Tag.inFlight] using hg)
  | true =>
    have hend : ((c.tags i).abort c.msg).2 = c.msg.abort := if_pos ((Tag.inFlight_iff _).mp hg)
    refine ⟨?_,⟨_,h.1.holder_eq hg⟩,h.2⟩
    rw [busy_update htags,hmsg,hend]
    exact h.1.drop hg _

theorem Exclusive.poll_cases (h : Exclusive c log) {st : Status} {g : Tag} {m : ExplicitMessage}
    {t : TcpConnection} {w w' : World} (hpoll : (c.tags i).poll c.msg c.tcp w = (st,g,m,t,w')) :
    (c.busy i = true ∧ c.msg.inFlight = true ∧
      (c.tags i).Polled c.msg c.tcp w (st,g,m,t,w')) ∨
    c.busy i = false ∧ st = (c.tags i).status ∧ g = c.tags i ∧ m = c.msg ∧ t = c.tcp ∧ w' = w := by
  cases hg : c.busy i with
  | false =>
    have hstill := Tag.poll_still (g := c.tags i) hg c.msg c.tcp w
    rw [hpoll] at hstill
    exact Or.inr ⟨rfl,by simpa using hstill⟩
  | true =>
    have hm := h.msg_inFlight hg
    have hpolled := Tag.poll_polled (g := c.tags i) (t := c.tcp) (w := w) hg hm
    rw [hpoll] at hpolled
    exact Or.inl ⟨rfl,hm,hpolled⟩

theorem Exclusive.poll_moved (h : Exclusive c log) {st : Status} {g : Tag} {m : ExplicitMessage}
    {t : TcpConnection} {w w' : World} (hpoll : (c.tags i).poll c.msg c.tcp w = (st,g,m,t,w')) :
    Transfer.Moved c.msg.io c.tcp w m.io t w' := by
  rcases h.poll_cases hpoll with ⟨_,_,hpolled⟩ | ⟨_,_,_,rfl,rfl,rfl⟩
  · cases hpolled with
    | waits hm _ => exact hm.io
    | fails hm _ _ => exact hm.io
    | ends hm _ _ => exact hm.io
  · exact Transfer.Moved.refl _ _ _

theorem Exclusive.visited (h : Exclusive c log) {st : Status} {g : Tag} {m : ExplicitMessage}
    {t : TcpConnection} {w w' : World} (hw : w.log = log)
    (hpoll : (c.tags i).poll c.msg c.tcp w = (st,g,m,t,w')) (called : Bool)
    (htags : c'.tags = Function.update c.tags i g) (hmsg : c'.msg = m) :
    Exclusive c' (visitMarks i st m (c.tags i).inFlight called ++ w'.log) := by
  have hbusy := busy_update htags
  have hcall {past : List Event} (hp : Exclusive c' past) :
      Exclusive c' ((if called then [.tagCallback i st] else []) ++ past) := by
    split
    · exact ⟨hp.1,trivial,hp.2⟩
    · exact hp
  rw [visitMarks,List.append_assoc]
  apply hcall
  have hpast : Exclusive c w'.log :=
    h.quiet (hw ▸ (h.poll_moved hpoll).spoke.mono fun e he => quiet_of_board he)
  rcases h.poll_cases hpoll with ⟨hg,hfly,hpolled⟩ | ⟨hg,rfl,rfl,rfl,rfl,rfl⟩
  · have hdone (hst : st ≠ .pending) (hover : m.inFlight = false) (hgover : g.inFlight = false) :
        Exclusive c' ((if (c.tags i).inFlight = true ∧ st ≠ .pending then
          [.ended i st (m.state = .done) m.io.rx] else []) ++ w'.log) := by
      rw [if_pos ⟨hg,hst⟩]
      refine ⟨?_,⟨_,hpast.1.holder_eq hg⟩,hpast.2⟩
      rw [hbusy,hmsg,hover,hgover]
      exact hpast.1.drop hg _
    cases hpolled with
    | waits hm hmfly =>
      rw [if_neg (by simp),List.nil_append]
      refine ⟨?_,hpast.2⟩
      rw [hbusy,hmsg,hm.io.tx_eq,hmfly,← hfly]
      exact hpast.1.still rfl
    | fails hm hstate hst => exact hdone hst (by simp [ExplicitMessage.inFlight,hstate]) rfl
    | ends hm hstate hres =>
      have hover : m.inFlight = false := by simp [ExplicitMessage.inFlight,hstate]
      rcases hres with ⟨rfl,hgs⟩ | ⟨rfl,hgs,_⟩
      · exact hdone (by simp) hover (by simp [Tag.inFlight,hgs])
      · exact hdone (by simp) hover (by simp [Tag.inFlight,hgs])
  · have hidle : (c.tags i).inFlight = false := hg
    rw [if_neg (by simp [hidle]),List.nil_append,hw]
    exact h.same (by rw [htags,Function.update_eq_self]) hmsg

end PlcClient

namespace Config

variable {n : Nat}

def Stamped (m : ExplicitMessage) : Prop :=
  m.inFlight = true → ExplicitMessage.frameContext m.io.tx = m.sentContext

theorem exclusive_step (s : Config n) (l : Label)
    (h : PlcClient.Exclusive s.client s.world.log) :
    PlcClient.Exclusive (s.step l).client (s.step l).world.log := by
  cases s.step_move l with
  | quiet hk hlog _ => exact (h.quiet hlog).same hk.tags hk.msg
  | created i _ _ _ _ _ _ hc hlog =>
    obtain ⟨_,_,hc⟩ := hc
    rw [hlog,hc]
    exact PlcClient.Exclusive.same ⟨h.1,trivial,h.2⟩ rfl rfl
  | destroyed i _ _ _ _ hc hlog =>
    rw [hlog,hc]
    exact h.same rfl rfl
  | started i g service path data deadline frame _ _ _ _ hg hm _ hfly _ _ hc hlog =>
    rw [hlog]
    exact h.started hm (by rw [hc]) hfly (by rw [hc])
  | typed i f _ hc hlog =>
    rw [hlog]
    have hstill : (s.step l).client.Exclusive s.world.log :=
      h.still (by rw [hc]) (Tag.set_inFlight _ f) (by rw [hc])
    split
    · exact ⟨hstill.1,trivial,hstill.2⟩
    · exact hstill
  | aborted i _ hc hlog =>
    rw [hlog]
    exact h.aborted (by rw [hc]) (by rw [hc])
  | visited i _ _ st g m t w' _ _ _ hpoll hc hlog =>
    rw [hlog]
    exact h.visited (w := (s.hear l.script).world) rfl hpoll _ (by rw [hc]) (by rw [hc])

theorem exclusive_after (memory : Fin n → Buffer Tag.kMaxDataSize) (time : Nat)
    (ls : List Label) : PlcClient.Exclusive (after memory time ls).client
      (after memory time ls).world.log :=
  Runs.invariant_always exclusive_step (PlcClient.exclusive_init memory time) ls

theorem stamped_step {s : Config n} {l : Label} (hex : s.client.Exclusive s.world.log)
    (h : Stamped s.client.msg) : Stamped (s.step l).client.msg := by
  cases s.step_move l with
  | quiet hk _ _ => rw [hk.msg]; exact h
  | created i _ _ _ _ _ _ hc _ => obtain ⟨_,_,hc⟩ := hc; rw [hc]; exact h
  | destroyed i _ _ _ _ hc _ => rw [hc]; exact h
  | started i g service path data deadline frame _ _ _ _ _ _ _ _ _ hframe hc _ =>
    rw [hc]
    intro _
    simp only [ExplicitMessage.issued,Transfer.load,hframe.1]
    exact ExplicitMessage.frameContext_requestFrame _ _ _ _ _
  | typed i f _ hc _ => rw [hc]; exact h
  | aborted i _ hc _ =>
    rw [hc]
    simp only [Tag.abort]
    split
    · intro hfly
      cases hfly
    · exact h
  | visited i _ _ st g m t w' _ _ _ hpoll hc _ =>
    rw [hc]
    rcases hex.poll_cases hpoll with ⟨_,hfly,hpolled⟩ | ⟨_,_,_,rfl,_,_⟩
    · have hkeep {mst : Status} (hm : s.client.msg.Polled s.client.tcp (s.hear l.script).world mst m
          t w') : Stamped m := by
        intro _
        rw [hm.io.tx_eq,hm.sentContext]
        exact h hfly
      cases hpolled with
      | waits hm _ => exact hkeep hm
      | fails hm _ _ => exact hkeep hm
      | ends hm _ _ => exact hkeep hm
    · exact h

theorem stamped_after (memory : Fin n → Buffer Tag.kMaxDataSize) (time : Nat)
    (ls : List Label) : Stamped (after memory time ls).client.msg := by
  have hrun : (after memory time ls).client.Exclusive (after memory time ls).world.log ∧
      Stamped (after memory time ls).client.msg :=
    @Runs.invariant_always _ _ step
      (fun s : Config n => s.client.Exclusive s.world.log ∧ Stamped s.client.msg)
      (fun s l h => ⟨s.exclusive_step l h.1,stamped_step h.1 h.2⟩)
      _ ⟨PlcClient.exclusive_init memory time,fun hfly => (by cases hfly)⟩ ls
  exact hrun.2

theorem one_tag_holds_the_message (memory : Fin n → Buffer Tag.kMaxDataSize) (time : Nat)
    (ls : List Label) :
    let s := after memory time ls
    (∀ i j, s.client.busy i = true → s.client.busy j = true → i = j) ∧
    (s.client.msg.inFlight = true ↔ ∃ i, s.client.busy i = true) ∧
    (∀ i, s.client.busy i = true → holder s.world.log = some (i.val,s.client.msg.io.tx)) ∧
    Trace.Always Owned s.world.log := by
  have h := exclusive_after memory time ls
  exact ⟨fun i j => h.1.unique,h.1.taken_iff,fun i => h.1.holder_eq,h.2⟩

end Config

end ControlLogix
