import ControlLogix.Library.Trace

-- One thing at a time in the hands of one owner: the log of what is obtained, used and given back,
-- newest first.
namespace Custody

variable {K : Type*}

inductive Use (K : Type*) where
  | refused
  | acquired (k : K)
  | used (k : K)
  | released (k : K)
  deriving DecidableEq

def held : List (Use K) → Option K
  | [] => none
  | .acquired k :: _ => some k
  | .released _ :: _ => none
  | .refused :: log => held log
  | .used _ :: log => held log

-- The next thing is asked for with empty hands; only what is held is used or given back.
def Proper : Use K → List (Use K) → Prop
  | .refused, past => held past = none
  | .acquired _, past => held past = none
  | .used k, past => held past = some k
  | .released k, past => held past = some k

instance [DecidableEq K] : ∀ (u : Use K) past, Decidable (Proper u past)
  | .refused, past => inferInstanceAs (Decidable (held past = none))
  | .acquired _, past => inferInstanceAs (Decidable (held past = none))
  | .used k, past => inferInstanceAs (Decidable (held past = some k))
  | .released k, past => inferInstanceAs (Decidable (held past = some k))

def Orderly (log : List (Use K)) : Prop := Trace.Always Proper log

def Settled (log : List (Use K)) : Prop := Orderly log ∧ held log = none

instance [DecidableEq K] (log : List (Use K)) : Decidable (Orderly log) :=
  inferInstanceAs (Decidable (Trace.Always Proper log))

instance [DecidableEq K] (log : List (Use K)) : Decidable (Settled log) :=
  inferInstanceAs (Decidable (Orderly log ∧ held log = none))

-- A stay of one thing: it is obtained, used some times and given back.
inductive Stay (K : Type*) where
  | refused
  | kept (k : K) (uses : Nat)

def Stay.log : Stay K → List (Use K)
  | .refused => [.refused]
  | .kept k uses => .released k :: (List.replicate uses (.used k) ++ [.acquired k])

theorem Orderly.past {u : Use K} {log : List (Use K)} (h : Orderly (u :: log)) : Orderly log := h.2

theorem held_some {k : K} {log : List (Use K)} (h : Orderly log) (hk : held log = some k) :
    ∃ uses past, log = List.replicate uses (.used k) ++ .acquired k :: past ∧ Settled past := by
  induction log with
  | nil => cases hk
  | cons u log ih =>
    cases u with
    | refused =>
      have hnone : held log = none := h.1
      have hsome : held log = some k := hk
      rw [hnone] at hsome
      cases hsome
    | acquired k' =>
      obtain rfl := Option.some.inj hk
      exact ⟨0,log,rfl,h.past,h.1⟩
    | used k' =>
      have hlog : held log = some k := hk
      have hk' : held log = some k' := h.1
      obtain rfl := Option.some.inj (hk'.symm.trans hlog)
      obtain ⟨uses,past,rfl,hpast⟩ := ih h.past hlog
      exact ⟨uses + 1,past,rfl,hpast⟩
    | released k' => cases hk

theorem held_uses (k : K) (uses : Nat) (log : List (Use K)) :
    held (List.replicate uses (.used k) ++ log) = held log := by
  induction uses with
  | zero => rfl
  | succ uses ih => exact ih

theorem Settled.stay {log : List (Use K)} (h : Settled log) (s : Stay K) :
    Settled (s.log ++ log) := by
  cases s with
  | refused => exact ⟨⟨h.2,h.1⟩,h.2⟩
  | kept k uses =>
    have hheld : held (List.replicate uses (.used k) ++ .acquired k :: log) = some k := by
      rw [held_uses]
      rfl
    have horder : Orderly (List.replicate uses (.used k) ++ .acquired k :: log) := by
      clear hheld
      induction uses with
      | zero => exact ⟨h.2,h.1⟩
      | succ uses ih => exact ⟨held_uses k uses _,ih⟩
    simp only [Stay.log,List.cons_append,List.append_assoc,List.nil_append]
    exact ⟨⟨hheld,horder⟩,rfl⟩

theorem settled_iff {log : List (Use K)} :
    Settled log ↔ ∃ stays : List (Stay K), log = stays.flatMap Stay.log := by
  constructor
  · intro h
    induction hn : log.length using Nat.strongRecOn generalizing log with
    | _ n ih =>
      cases log with
      | nil => exact ⟨[],rfl⟩
      | cons u log =>
        rw [List.length_cons] at hn
        cases u with
        | refused =>
          obtain ⟨stays,rfl⟩ := ih log.length (by omega) ⟨h.1.past,h.2⟩ rfl
          exact ⟨.refused :: stays,rfl⟩
        | acquired k => cases h.2
        | used k =>
          have hk : held log = some k := h.1.1
          have hnone : held log = none := h.2
          rw [hnone] at hk
          cases hk
        | released k =>
          obtain ⟨uses,past,rfl,hpast⟩ := held_some h.1.past h.1.1
          obtain ⟨stays,rfl⟩ := ih past.length
            (by rw [List.length_append,List.length_cons] at hn; omega) hpast rfl
          exact ⟨.kept k uses :: stays,by simp [Stay.log]⟩
  · rintro ⟨stays,rfl⟩
    induction stays with
    | nil => exact ⟨trivial,rfl⟩
    | cons s stays ih => exact ih.stay s

end Custody
