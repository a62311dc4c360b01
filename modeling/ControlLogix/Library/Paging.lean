import Mathlib.Data.List.Basic
import Mathlib.Data.Nat.Basic

-- A row of items in the order of their keys, fetched in pieces: a piece begins with the first item
-- whose key is not below a cursor, and the next cursor is one above the last key fetched.
namespace Paging

variable {α : Type*} (key : α → Nat)

def Ascending (all : List α) : Prop := all.Pairwise fun a b => key a < key b

def left (cursor : Nat) (all : List α) : List α := all.filter fun a => cursor ≤ key a

-- The cursor behind a piece, which is the one before it if there is nothing in the piece.
def next (cursor : Nat) (piece : List α) : Nat := piece.foldl (fun _ a => key a + 1) cursor

variable {key} {all piece rest : List α} {cursor : Nat}

@[simp] theorem next_concat (cursor : Nat) (piece : List α) (a : α) :
    next key cursor (piece ++ [a]) = key a + 1 := by
  simp [next]

theorem left_all (h : ∀ a ∈ all, cursor ≤ key a) : left key cursor all = all := by
  rw [left,List.filter_eq_self]
  intro a ha
  exact decide_eq_true (h a ha)

theorem left_next (hall : Ascending key all) (h : left key cursor all = piece ++ rest) :
    left key (next key cursor piece) all = rest := by
  rcases List.eq_nil_or_concat piece with rfl | ⟨pre,a,rfl⟩
  · exact h
  rw [List.concat_eq_append] at h ⊢
  have hsorted : Ascending key (pre ++ [a] ++ rest) := by
    rw [← h]
    exact hall.filter _
  have ha : cursor ≤ key a := by
    have hmem : a ∈ left key cursor all := by
      rw [h]
      simp
    exact of_decide_eq_true (List.mem_filter.mp hmem).2
  -- Going on from behind a is going on from the cursor and then from behind a.
  have htwice : left key (key a + 1) all = left key (key a + 1) (left key cursor all) := by
    rw [left,left,left,List.filter_filter]
    refine List.filter_congr fun b _ => ?_
    rw [← Bool.decide_and]
    refine decide_eq_decide.mpr ?_
    omega
  obtain ⟨hfront,hrest,hcross⟩ := List.pairwise_append.mp hsorted
  obtain ⟨_,_,hlast⟩ := List.pairwise_append.mp hfront
  have hnone : left key (key a + 1) (pre ++ [a]) = [] := by
    rw [left,List.filter_eq_nil_iff]
    intro b hb
    rcases List.mem_append.mp hb with hb | hb
    · have hless := hlast b hb a (List.mem_singleton_self a)
      simp only [decide_eq_true_eq]
      omega
    · rw [List.mem_singleton.mp hb]
      simp
  have hmany : left key (key a + 1) rest = rest :=
    left_all fun b hb => hcross a (by simp) b hb
  rw [next_concat,htwice,h,left,List.filter_append]
  simp only [left] at hnone hmany
  rw [hnone,hmany,List.nil_append]

theorem fetched_next (hall : Ascending key all) {fetched : List α}
    (hfetched : all = fetched ++ left key cursor all) (h : left key cursor all = piece ++ rest) :
    all = (fetched ++ piece) ++ left key (next key cursor piece) all := by
  rw [left_next hall h,List.append_assoc,← h]
  exact hfetched

theorem left_shrinks (hall : Ascending key all) (h : left key cursor all = piece ++ rest)
    (hpiece : piece ≠ []) :
    (left key (next key cursor piece) all).length < (left key cursor all).length := by
  rw [left_next hall h,h,List.length_append]
  exact Nat.lt_add_of_pos_left (List.length_pos_iff.mpr hpiece)

end Paging
