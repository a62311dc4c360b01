import Mathlib.Logic.Function.Basic

-- One resource lent to one of several slots at a time: which slots are busy, whether the resource
-- is taken, what it carries, and the name and the load a history gives to the loan.
namespace Lease

variable {I K F : Type*} {key : I → K} {busy : I → Bool} {taken : Bool} {load : F}
  {holder : Option (K × F)}

inductive Holds (key : I → K) (busy : I → Bool) (taken : Bool) (load : F) :
    Option (K × F) → Prop
  | free : (∀ i, busy i = false) → taken = false → Holds key busy taken load none
  | held (i : I) : (∀ j, busy j = true ↔ j = i) → taken = true →
      Holds key busy taken load (some (key i,load))

theorem Holds.unique (h : Holds key busy taken load holder) {i j : I} (hi : busy i = true)
    (hj : busy j = true) : i = j := by
  cases h with
  | free hnone _ => simp [hnone i] at hi
  | held k hk _ => exact ((hk i).mp hi).trans ((hk j).mp hj).symm

theorem Holds.taken_iff (h : Holds key busy taken load holder) :
    taken = true ↔ ∃ i, busy i = true := by
  cases h with
  | free hnone htaken => simp [hnone,htaken]
  | held i hi htaken => exact ⟨fun _ => ⟨i,(hi i).mpr rfl⟩,fun _ => htaken⟩

theorem Holds.holder_eq (h : Holds key busy taken load holder) {i : I} (hi : busy i = true) :
    holder = some (key i,load) := by
  cases h with
  | free hnone _ => simp [hnone i] at hi
  | held k hk _ => rw [(hk i).mp hi]

theorem Holds.holder_none (h : Holds key busy taken load holder) (ht : taken = false) :
    holder = none := by
  cases h with
  | free _ _ => rfl
  | held _ _ htaken => simp [ht] at htaken

theorem Holds.busy_iff (h : Holds key busy taken load holder)
    (hkey : Function.Injective key) (i : I) : busy i = true ↔ ∃ f, holder = some (key i,f) := by
  refine ⟨fun hi => ⟨load,h.holder_eq hi⟩,?_⟩
  rintro ⟨f,hf⟩
  cases h with
  | free _ _ => cases hf
  | held k hk _ => exact (hk i).mpr (hkey (Prod.mk.inj (Option.some.inj hf)).1).symm

variable [DecidableEq I]

theorem Holds.take (h : Holds key busy taken load holder) (ht : taken = false) (i : I) (f : F) :
    Holds key (Function.update busy i true) true f (some (key i,f)) := by
  cases h with
  | free hnone _ =>
    refine .held i (fun j => ?_) rfl
    by_cases hj : j = i
    · simp [hj]
    · simp [hj,hnone j]
  | held _ _ htaken => simp [ht] at htaken

theorem Holds.drop (h : Holds key busy taken load holder) {i : I} (hi : busy i = true) (f : F) :
    Holds key (Function.update busy i false) false f none := by
  refine .free (fun j => ?_) rfl
  by_cases hj : j = i
  · simp [hj]
  · rw [Function.update_of_ne hj]
    by_contra hbusy
    exact hj (h.unique (by simpa using hbusy) hi)

theorem Holds.still (h : Holds key busy taken load holder) {i : I} {b : Bool} (hb : b = busy i) :
    Holds key (Function.update busy i b) taken load holder := by
  rwa [hb,Function.update_eq_self]

end Lease
