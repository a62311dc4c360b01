import Mathlib.Data.List.Basic

namespace Runs

variable {S L : Type*} (step : S → L → S)

def run (s : S) (ls : List L) : S := ls.foldl step s

@[simp] theorem run_nil (s : S) : run step s [] = s := List.foldl_nil

@[simp] theorem run_cons (s : S) (l : L) (ls : List L) :
    run step s (l :: ls) = run step (step s l) ls := rfl

theorem run_append (s : S) (xs ys : List L) :
    run step s (xs ++ ys) = run step (run step s xs) ys := by
  simp [run,List.foldl_append]

def Guarded (guard : S → L → Prop) : S → List L → Prop
  | _, [] => True
  | s, l :: ls => guard s l ∧ Guarded guard (step s l) ls

@[simp] theorem guarded_nil (guard : S → L → Prop) (s : S) : Guarded step guard s [] := trivial

instance Guarded.decidable (guard : S → L → Prop) [∀ s l, Decidable (guard s l)] :
    ∀ s ls, Decidable (Guarded step guard s ls)
  | _, [] => isTrue trivial
  | s, l :: ls => @instDecidableAnd _ _ _ (Guarded.decidable guard (step s l) ls)

theorem guarded_append (guard : S → L → Prop) (s : S) (xs ys : List L) :
    Guarded step guard s (xs ++ ys) ↔
      Guarded step guard s xs ∧ Guarded step guard (run step s xs) ys := by
  induction xs generalizing s with
  | nil => simp
  | cons l xs ih => simp [Guarded,ih,and_assoc]

theorem guarded_true (s : S) (ls : List L) : Guarded step (fun _ _ => True) s ls := by
  induction ls generalizing s with
  | nil => trivial
  | cons l ls ih => exact ⟨trivial,ih _⟩

theorem Guarded.mono {g h : S → L → Prop} (himp : ∀ s l, g s l → h s l) {s : S} {ls : List L}
    (hg : Guarded step g s ls) : Guarded step h s ls := by
  induction ls generalizing s with
  | nil => trivial
  | cons l ls ih => exact ⟨himp _ _ hg.1,ih hg.2⟩

variable {step}

theorem invariant_run {guard : S → L → Prop} {inv : S → Prop}
    (hstep : ∀ s l, inv s → guard s l → inv (step s l)) {s : S} {ls : List L}
    (hs : inv s) (hg : Guarded step guard s ls) : inv (run step s ls) := by
  induction ls generalizing s with
  | nil => exact hs
  | cons l ls ih => exact ih (hstep s l hs hg.1) hg.2

theorem invariant_always {inv : S → Prop} (hstep : ∀ s l, inv s → inv (step s l)) {s : S}
    (hs : inv s) (ls : List L) : inv (run step s ls) :=
  invariant_run (fun s l h _ => hstep s l h) hs (guarded_true step s ls)

theorem guarded_iff (guard : S → L → Prop) (s : S) (ls : List L) : Guarded step guard s ls ↔
    ∀ pre l post, ls = pre ++ l :: post → guard (run step s pre) l := by
  constructor
  · rintro h pre l post rfl
    exact ((guarded_append step guard s pre (l :: post)).mp h).2.1
  · intro h
    induction ls generalizing s with
    | nil => trivial
    | cons l ls ih =>
      refine ⟨h [] l ls rfl,ih _ fun pre m post hls => ?_⟩
      exact h (l :: pre) m post (by rw [hls,List.cons_append])

theorem guarded_all {ask : L → Prop} {ls : List L} (h : ∀ l ∈ ls, ask l) (s : S) :
    Guarded step (fun _ l => ask l) s ls := by
  rw [guarded_iff]
  intro pre l post hls
  exact h l (by rw [hls]; simp)

theorem guarded_congr {g h : S → L → Prop} {keep : S → Prop}
    (hstep : ∀ s l, keep s → keep (step s l)) (hsame : ∀ s l, keep s → (g s l ↔ h s l)) {s : S}
    (hs : keep s) (ls : List L) : Guarded step g s ls ↔ Guarded step h s ls := by
  induction ls generalizing s with
  | nil => exact Iff.rfl
  | cons l ls ih => exact and_congr (hsame s l hs) (ih (hstep s l hs))

theorem run_forget {T : Type*} {rstep : T → L → T} {forget : T → S}
    (h : ∀ t l, forget (rstep t l) = step (forget t) l) (t : T) (ls : List L) :
    forget (run rstep t ls) = run step (forget t) ls := by
  induction ls generalizing t with
  | nil => rfl
  | cons l ls ih => rw [run_cons,run_cons,ih,h]

theorem guarded_forget {T : Type*} {rstep : T → L → T} {forget : T → S}
    (h : ∀ t l, forget (rstep t l) = step (forget t) l) {guard : S → L → Prop} {t : T} {ls : List L}
    (hg : Guarded step guard (forget t) ls) :
    Guarded rstep (fun t l => guard (forget t) l) t ls := by
  induction ls generalizing t with
  | nil => trivial
  | cons l ls ih =>
    refine ⟨hg.1,ih ?_⟩
    rw [h]
    exact hg.2

theorem reaches {guard : S → L → Prop} {keep goal : S → Prop} {measure : S → Nat}
    (hstep : ∀ s l, keep s → guard s l → ¬ goal s →
      keep (step s l) ∧ measure (step s l) < measure s) {s : S} {ls : List L} (hs : keep s)
    (hg : Guarded step guard s ls) (hlen : measure s < ls.length) :
    ∃ pre post, ls = pre ++ post ∧ goal (run step s pre) := by
  induction ls generalizing s with
  | nil => exact absurd hlen (Nat.not_lt_zero _)
  | cons l ls ih =>
    by_cases hgoal : goal s
    · exact ⟨[],l :: ls,rfl,hgoal⟩
    obtain ⟨hkeep,hless⟩ := hstep s l hs hg.1 hgoal
    rw [List.length_cons] at hlen
    obtain ⟨pre,post,rfl,hreached⟩ := ih hkeep hg.2 (by omega)
    exact ⟨l :: pre,post,rfl,hreached⟩

variable (step) in
-- The steps of a run, and what is left of them without some of those that drop allows to omit.
inductive Thinned (drop : S → L → Prop) : S → List L → List L → Prop
  | nil {s : S} : Thinned drop s [] []
  | keep {s : S} {l : L} {ls kept : List L} :
      Thinned drop (step s l) ls kept → Thinned drop s (l :: ls) (l :: kept)
  | drop {s : S} {l : L} {ls kept : List L} :
      drop s l → Thinned drop (step s l) ls kept → Thinned drop s (l :: ls) kept

theorem thinned_run {R : S → S → Prop} {guard drop : S → L → Prop}
    (hkeep : ∀ s t l, R s t → guard s l → R (step s l) (step t l))
    (hdrop : ∀ s t l, R s t → guard s l → drop s l → R (step s l) t) {s t : S} {ls kept : List L}
    (h : R s t) (hg : Guarded step guard s ls) (hthin : Thinned step drop s ls kept) :
    R (run step s ls) (run step t kept) := by
  induction hthin generalizing t with
  | nil => exact h
  | keep _ ih => exact ih (hkeep _ _ _ h hg.1) hg.2
  | drop hl _ ih => exact ih (hdrop _ _ _ h hg.1 hl) hg.2

end Runs
