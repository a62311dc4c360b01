import Mathlib.Data.List.Basic
import Mathlib.Logic.Function.Basic

-- A dictionary that keeps its keys in the order in which they were first set.
abbrev Dict (K V : Type*) := List (K × V)

namespace Dict

variable {K V : Type*} [DecidableEq K]

def get (k : K) : Dict K V → Option V
  | [] => none
  | (key,v) :: d => if key = k then some v else get k d

def set (k : K) (v : V) : Dict K V → Dict K V
  | [] => [(k,v)]
  | (key,old) :: d => if key = k then (key,v) :: d else (key,old) :: set k v d

theorem get_set_self (k : K) (v : V) (d : Dict K V) : get k (set k v d) = some v := by
  induction d with
  | nil => exact if_pos rfl
  | cons e d ih =>
    obtain ⟨key,old⟩ := e
    by_cases h : key = k
    · rw [set,if_pos h,get,if_pos h]
    · rw [set,if_neg h,get,if_neg h,ih]

theorem get_set_other {k key : K} (h : k ≠ key) (v : V) (d : Dict K V) :
    get key (set k v d) = get key d := by
  induction d with
  | nil => exact if_neg h
  | cons e d ih =>
    obtain ⟨old,w⟩ := e
    by_cases hk : old = k
    · rw [set,if_pos hk,get,get,if_neg (hk ▸ h),if_neg (hk ▸ h)]
    · rw [set,if_neg hk,get,get,ih]

theorem set_keys (k : K) (v : V) (d : Dict K V) : (set k v d).map Prod.fst =
    if k ∈ d.map Prod.fst then d.map Prod.fst else d.map Prod.fst ++ [k] := by
  induction d with
  | nil => rfl
  | cons e d ih =>
    obtain ⟨key,old⟩ := e
    by_cases h : key = k
    · simp [set,h]
    · rw [set,if_neg h,List.map_cons,List.map_cons,ih]
      by_cases hmem : k ∈ d.map Prod.fst
      · rw [if_pos hmem,if_pos (List.mem_cons_of_mem _ hmem)]
      · rw [if_neg hmem,if_neg (List.not_mem_cons_of_ne_of_not_mem (Ne.symm h) hmem)]
        rfl

theorem set_all {P : V → Prop} {k : K} {v : V} {d : Dict K V} (hd : ∀ e ∈ d, P e.2) (hv : P v) :
    ∀ e ∈ set k v d, P e.2 := by
  induction d with
  | nil =>
    intro e he
    rw [List.mem_singleton.mp he]
    exact hv
  | cons e d ih =>
    obtain ⟨key,old⟩ := e
    intro x hx
    by_cases h : key = k
    · rw [set,if_pos h] at hx
      rcases List.mem_cons.mp hx with rfl | hm
      · exact hv
      · exact hd x (List.mem_cons_of_mem _ hm)
    · rw [set,if_neg h] at hx
      rcases List.mem_cons.mp hx with rfl | hm
      · exact hd _ List.mem_cons_self
      · exact ih (fun y hy => hd y (List.mem_cons_of_mem _ hy)) x hm

theorem get_all {P : V → Prop} {k : K} {v : V} {d : Dict K V} (hd : ∀ e ∈ d, P e.2)
    (h : get k d = some v) : P v := by
  induction d with
  | nil => cases h
  | cons e d ih =>
    obtain ⟨key,old⟩ := e
    rw [get] at h
    by_cases hk : key = k
    · rw [if_pos hk] at h
      exact Option.some.inj h ▸ hd _ List.mem_cons_self
    · rw [if_neg hk] at h
      exact ih (fun y hy => hd y (List.mem_cons_of_mem _ hy)) h

end Dict

abbrev Memory (K V : Type*) := K → Option V

namespace Memory

variable {K V : Type*} [DecidableEq K]

def after (m : Memory K V) : List (K × V) → Memory K V
  | [] => m
  | (k,v) :: ws => Function.update (after m ws) k (some v)

@[simp] theorem after_cons (m : Memory K V) (w : K × V) (ws : List (K × V)) :
    after m (w :: ws) = Function.update (after m ws) w.1 (some w.2) := rfl

theorem after_others {ws : List (K × V)} {k : K} (h : ∀ e ∈ ws, e.1 ≠ k) (m : Memory K V)
    (past : List (K × V)) : after m (ws ++ past) k = after m past k := by
  induction ws with
  | nil => rfl
  | cons w ws ih =>
    rw [List.cons_append,after_cons,Function.update_of_ne (h w List.mem_cons_self).symm]
    exact ih fun e he => h e (List.mem_cons_of_mem _ he)

theorem after_last {later earlier : List (K × V)} {k : K} {v : V} (h : ∀ e ∈ later, e.1 ≠ k)
    (m : Memory K V) : after m (later ++ (k,v) :: earlier) k = some v := by
  rw [after_others h,after_cons,Function.update_self]

end Memory

namespace Dict

variable {K V : Type*} [DecidableEq K]

def memory (d : Dict K V) : Memory K V := fun k => get k d

theorem memory_set (k : K) (v : V) (d : Dict K V) :
    memory (set k v d) = Function.update (memory d) k (some v) := by
  funext key
  by_cases h : key = k
  · rw [h,Function.update_self]
    exact get_set_self k v d
  · rw [Function.update_of_ne h]
    exact get_set_other (Ne.symm h) v d

end Dict
