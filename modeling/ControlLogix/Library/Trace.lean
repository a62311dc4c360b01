import Mathlib.Data.List.Basic

-- Logs are kept newest first, so the tail of an entry is the past it was made in.
namespace Trace

variable {E : Type*}

def Always (P : E → List E → Prop) : List E → Prop
  | [] => True
  | e :: es => P e es ∧ Always P es

instance Always.decidable (P : E → List E → Prop) [∀ e es, Decidable (P e es)] :
    ∀ log, Decidable (Always P log)
  | [] => isTrue trivial
  | _ :: es => @instDecidableAnd _ _ _ (Always.decidable P es)

@[simp] theorem always_nil (P : E → List E → Prop) : Always P [] := trivial

@[simp] theorem always_cons (P : E → List E → Prop) (e : E) (es : List E) :
    Always P (e :: es) ↔ P e es ∧ Always P es := Iff.rfl

theorem always_iff (P : E → List E → Prop) (log : List E) :
    Always P log ↔ ∀ e es, e :: es <:+ log → P e es := by
  induction log with
  | nil => simp
  | cons d ds ih =>
    rw [always_cons,ih]
    constructor
    · rintro ⟨hd,hs⟩ e es h
      rcases List.suffix_cons_iff.mp h with heq | hsuf
      · obtain ⟨rfl,rfl⟩ := List.cons.inj heq
        exact hd
      · exact hs e es hsuf
    · intro h
      exact ⟨h d ds List.suffix_rfl,fun e es hs => h e es (hs.trans (List.suffix_cons d ds))⟩

theorem Always.suffix {P : E → List E → Prop} {log past : List E} (h : Always P log)
    (hsuf : past <:+ log) : Always P past :=
  (always_iff P past).mpr fun e es hs => (always_iff P log).mp h e es (hs.trans hsuf)

theorem always_append {P : E → List E → Prop} {new log : List E}
    (hnew : ∀ e ∈ new, ∀ es, P e es) (hlog : Always P log) : Always P (new ++ log) := by
  induction new with
  | nil => exact hlog
  | cons e new ih =>
    exact ⟨hnew e (by simp) _,ih (fun d hd => hnew d (by simp [hd]))⟩

-- What one log adds to another, when every entry of the addition is of the kind K.
def Grows (K : E → Prop) (log log' : List E) : Prop :=
  ∃ new, log' = new ++ log ∧ ∀ e ∈ new, K e

theorem Grows.refl (K : E → Prop) (log : List E) : Grows K log log := ⟨[],rfl,by simp⟩

theorem Grows.cons {K : E → Prop} {e : E} (he : K e) (log : List E) : Grows K log (e :: log) :=
  ⟨[e],rfl,by simpa using he⟩

theorem Grows.trans {K : E → Prop} {a b c : List E} (hab : Grows K a b) (hbc : Grows K b c) :
    Grows K a c := by
  obtain ⟨xs,rfl,hx⟩ := hab
  obtain ⟨ys,rfl,hy⟩ := hbc
  refine ⟨ys ++ xs,by simp,?_⟩
  intro e he
  rcases List.mem_append.mp he with h | h
  · exact hy e h
  · exact hx e h

theorem Grows.mono {K K' : E → Prop} (himp : ∀ e, K e → K' e) {a b : List E} (h : Grows K a b) :
    Grows K' a b := by
  obtain ⟨xs,hx,hk⟩ := h
  exact ⟨xs,hx,fun e he => himp e (hk e he)⟩

theorem Grows.always {K : E → Prop} {P : E → List E → Prop} (hk : ∀ e, K e → ∀ es, P e es)
    {a b : List E} (h : Grows K a b) (ha : Always P a) : Always P b := by
  obtain ⟨xs,rfl,hx⟩ := h
  exact always_append (fun e he => hk e (hx e he)) ha

theorem Grows.reading {K : E → Prop} {A : Type*} {read : List E → A}
    (hk : ∀ e, K e → ∀ es, read (e :: es) = read es) {a b : List E} (h : Grows K a b) :
    read b = read a := by
  obtain ⟨xs,rfl,hx⟩ := h
  induction xs with
  | nil => rfl
  | cons e xs ih =>
    rw [List.cons_append,hk e (hx e (by simp)),ih (fun d hd => hx d (by simp [hd]))]

end Trace
