import ControlLogix.Library.Custody
import ControlLogix.Library.Runs
import ControlLogix.Transport.Client

namespace ControlLogix

open Custody

def Event.driver : Event → Option (Use Unit)
  | .ethBegin true => some (.acquired ())
  | .ethBegin false => some .refused
  | .ethEnd => some (.released ())
  | _ => none

def driverUses (log : List Event) : List (Use Unit) := log.filterMap Event.driver

namespace Client

def destruct (c : Client) (w : World) : Client × World :=
  ({c with started := false, ready := false},if c.started then w.ethEnd else w)

inductive Call where
  | begin | poll
  deriving DecidableEq

def step (s : Client × World) (l : Heard Call) : Client × World :=
  let w := s.2.hear l.script
  match l.call with
  | .begin => (s.1.begin w).2
  | .poll => (s.1.poll w).2

def after (time : Nat) (ls : List (Heard Call)) : Client × World :=
  Runs.run step ({},{time := time, script := {}, log := []}) ls

-- The driver comes up and its configuration is refused.
def halfBegun (l : Heard Call) : Bool :=
  l.call = .begin && l.script.ethBegins.headD true && !l.script.ethConfigs.headD true

variable {c : Client} {w : World}

theorem poll_log (c : Client) (w : World) : (c.poll w).2.2.log = w.log := by
  simp only [poll]
  split_ifs <;> rfl

theorem poll_started (c : Client) (w : World) : (c.poll w).2.1.started = c.started := by
  simp only [poll]
  split_ifs <;> rfl

def ended (c : Client) (log : List Event) : List Event :=
  if c.started then .ethEnd :: log else log

theorem destruct_log (c : Client) (w : World) : (c.destruct w).2.log = c.ended w.log := by
  simp only [destruct,ended]
  split <;> rfl

theorem begin_log (c : Client) (w : World) :
    (c.begin w).2.2.log = .ethBegin (w.script.ethBegins.headD true) :: c.ended w.log ∧
      (c.begin w).2.1.started =
        (w.script.ethBegins.headD true && w.script.ethConfigs.headD true) := by
  have hend : (if c.started then w.ethEnd else w) = {w with log := c.ended w.log} := by
    simp only [ended]
    split <;> rfl
  simp only [begin,hend,World.ethBegin,World.ethConfig,World.note]
  cases w.script.ethBegins.headD true with
  | false => exact ⟨rfl,rfl⟩
  | true => cases w.script.ethConfigs.headD true <;> exact ⟨rfl,rfl⟩

-- The driver is up exactly while the client has it down as started.
def Accounted (s : Client × World) : Prop :=
  Orderly (driverUses s.2.log) ∧
    held (driverUses s.2.log) = bif s.1.started then some () else none

-- The driver was left up by a client that has forgotten it, or begun again on top of that.
def Leaked (s : Client × World) : Prop :=
  ¬ Orderly (driverUses s.2.log) ∨
    held (driverUses s.2.log) = some () ∧ s.1.started = false

theorem Accounted.ended {s : Client × World} (h : Accounted s) :
    Settled (driverUses (s.1.ended s.2.log)) := by
  obtain ⟨horder,hheld⟩ := h
  rw [Client.ended]
  cases hs : s.1.started with
  | false =>
    rw [hs] at hheld
    exact ⟨horder,hheld⟩
  | true =>
    rw [hs] at hheld
    exact ⟨⟨hheld,horder⟩,rfl⟩

theorem accounted_step {s : Client × World} {l : Heard Call} (h : Accounted s)
    (hl : halfBegun l = false) : Accounted (step s l) := by
  obtain ⟨call,script⟩ := l
  cases call with
  | poll =>
    simp only [step,Accounted]
    rw [poll_log,poll_started]
    exact h
  | begin =>
    obtain ⟨hlog,hstarted⟩ := s.1.begin_log (s.2.hear script)
    have hdown := Accounted.ended (s := s) h
    simp only [step,Accounted]
    rw [hlog,hstarted]
    have hscript : (s.2.hear script).script = script := rfl
    rw [hscript]
    cases hup : script.ethBegins.headD true with
    | false => exact ⟨⟨hdown.2,hdown.1⟩,hdown.2⟩
    | true =>
      have hcfg : script.ethConfigs.headD true = true := by
        simpa [halfBegun,← List.headD_eq_head?_getD,hup] using hl
      rw [hcfg]
      exact ⟨⟨hdown.2,hdown.1⟩,rfl⟩

theorem leaked_begun {l : Heard Call} (hl : halfBegun l = true) (s : Client × World) :
    Leaked (step s l) := by
  obtain ⟨call,script⟩ := l
  obtain ⟨⟨hcall,hup⟩,hcfg⟩ : (call = .begin ∧ script.ethBegins.headD true = true) ∧
      script.ethConfigs.headD true = false := by
    simpa only [halfBegun,Bool.and_eq_true,decide_eq_true_eq,Bool.not_eq_true'] using hl
  subst hcall
  obtain ⟨hlog,hstarted⟩ := s.1.begin_log (s.2.hear script)
  have hscript : (s.2.hear script).script = script := rfl
  simp only [step,Leaked]
  rw [hlog,hstarted,hscript,hup,hcfg]
  exact Or.inr ⟨rfl,rfl⟩

theorem Leaked.ended {s : Client × World} (h : Leaked s) :
    ¬ Settled (driverUses (s.1.ended s.2.log)) := by
  rintro ⟨horder,hnone⟩
  rw [Client.ended] at horder hnone
  rcases h with hbad | ⟨hheld,hs⟩
  · refine hbad ?_
    split at horder
    · exact horder.past
    · exact horder
  · rw [hs,if_neg Bool.false_ne_true,hheld] at hnone
    cases hnone

theorem leaked_step {s : Client × World} {l : Heard Call} (h : Leaked s) : Leaked (step s l) := by
  obtain ⟨call,script⟩ := l
  cases call with
  | poll =>
    simp only [step,Leaked]
    rw [poll_log,poll_started]
    exact h
  | begin =>
    obtain ⟨hlog,-⟩ := s.1.begin_log (s.2.hear script)
    simp only [step,Leaked]
    rw [hlog]
    refine Or.inl fun horder => h.ended ?_
    cases hup : (s.2.hear script).script.ethBegins.headD true with
    | false => rw [hup] at horder; exact ⟨horder.2,horder.1⟩
    | true => rw [hup] at horder; exact ⟨horder.2,horder.1⟩

theorem leaked_run {s : Client × World} (h : Leaked s) (ls : List (Heard Call)) :
    Leaked (Runs.run step s ls) :=
  Runs.invariant_always (fun _ _ => leaked_step) h ls

theorem accounted_settled_iff {s : Client × World} (h : Accounted s) (ls : List (Heard Call)) :
    Settled (driverUses ((Runs.run step s ls).1.ended (Runs.run step s ls).2.log)) ↔
      ∀ l ∈ ls, halfBegun l = false := by
  induction ls generalizing s with
  | nil =>
    refine ⟨fun _ l hl => (by cases hl),fun _ => ?_⟩
    exact h.ended
  | cons l ls ih =>
    rw [Runs.run_cons,List.forall_mem_cons]
    cases hl : halfBegun l with
    | false =>
      rw [ih (accounted_step h hl)]
      simp
    | true =>
      refine ⟨fun hs => absurd hs ?_,fun hall => absurd hall.1 (by simp)⟩
      exact (leaked_run (leaked_begun hl s) ls).ended

theorem driver_calls_are_balanced_iff (time : Nat) (ls : List (Heard Call)) :
    let s := after time ls
    Settled (driverUses (s.1.destruct s.2).2.log) ↔ ∀ l ∈ ls, halfBegun l = false := by
  intro s
  rw [destruct_log]
  have hstart : Accounted (({} : Client),{time := time, script := {}, log := []}) :=
    ⟨trivial,rfl⟩
  exact accounted_settled_iff hstart ls

end Client

-- The configuration is refused once and the sketch tries again.
namespace Sample

def retried : List (Heard Client.Call) :=
  [{call := .begin, script := {ethConfigs := [false]}},{call := .poll},{call := .begin}]

theorem retried_begins_twice :
    let s := Client.after 0 retried
    (s.1.destruct s.2).2.log = [.ethEnd,.ethBegin true,.ethBegin true] ∧
      ¬ Settled (driverUses (s.1.destruct s.2).2.log) := by
  decide +kernel

end Sample

end ControlLogix
