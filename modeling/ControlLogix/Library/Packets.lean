import Mathlib.Data.List.Basic
import Mathlib.Tactic.SplitIfs

-- A byte stream cut into packets by a size function that reads the length of the first packet off
-- the front of the stream, once enough of it is there.
namespace Packets

variable {A : Type*} (size : List A → Option Nat)

def cutAt : Nat → List A → List (List A) × List A
  | 0, bs => ([],bs)
  | fuel+1, bs =>
    match size bs with
    | none => ([],bs)
    | some k =>
      if k = 0 ∨ bs.length < k then ([],bs)
      else (bs.take k :: (cutAt fuel (bs.drop k)).1,(cutAt fuel (bs.drop k)).2)

def cut (bs : List A) : List (List A) × List A := cutAt size bs.length bs

variable {size}

theorem cutAt_nil (fuel : Nat) : cutAt size fuel ([] : List A) = ([],[]) := by
  cases fuel with
  | zero => rfl
  | succ fuel =>
    simp only [cutAt]
    cases size [] with
    | none => rfl
    | some k => exact if_pos (by simp; omega)

theorem cutAt_stable {f g : Nat} {bs : List A} (hf : bs.length ≤ f) (hg : bs.length ≤ g) :
    cutAt size f bs = cutAt size g bs := by
  induction f generalizing g bs with
  | zero => rw [List.length_eq_zero_iff.mp (Nat.le_zero.mp hf),cutAt_nil,cutAt_nil]
  | succ f ih =>
    cases g with
    | zero => rw [List.length_eq_zero_iff.mp (Nat.le_zero.mp hg),cutAt_nil,cutAt_nil]
    | succ g =>
      simp only [cutAt]
      cases size bs with
      | none => rfl
      | some k =>
        simp only
        split_ifs with hk
        · rfl
        · have hdrop : (bs.drop k).length + 1 ≤ bs.length := by simp; omega
          rw [ih (g := g) (by omega) (by omega)]

theorem cut_eq {fuel : Nat} {bs : List A} (h : bs.length ≤ fuel) :
    cutAt size fuel bs = cut size bs := cutAt_stable h (Nat.le_refl _)

theorem cut_packet {p : List A} (hp : p ≠ []) (bs : List A)
    (hsize : size (p ++ bs) = some p.length) :
    cut size (p ++ bs) = (p :: (cut size bs).1,(cut size bs).2) := by
  have hpos : 0 < p.length := List.length_pos_iff.mpr hp
  rw [cut,List.length_append,show p.length + bs.length = (p.length - 1 + bs.length) + 1 by omega]
  simp only [cutAt,hsize]
  rw [if_neg (by simp; omega),List.drop_left,List.take_left,cut_eq (by omega)]

theorem cut_short {bs : List A} (h : ∀ k, size bs = some k → bs.length < k) :
    cut size bs = ([],bs) := by
  rw [cut]
  cases hlen : bs.length with
  | zero => rfl
  | succ m =>
    simp only [cutAt]
    cases hsize : size bs with
    | none => rfl
    | some k => exact if_pos (Or.inr (h k hsize))

theorem cut_nil : cut size ([] : List A) = ([],[]) := cutAt_nil _

theorem cut_whole {p : List A} (hp : p ≠ []) (hsize : size p = some p.length) :
    cut size p = ([p],[]) := by
  have h : cut size (p ++ []) = _ := cut_packet hp [] (by rwa [List.append_nil])
  rwa [List.append_nil,cut_nil] at h

theorem cut_cases (size : List A → Option Nat) (bs : List A) : cut size bs = ([],bs) ∨
    ∃ p rest, bs = p ++ rest ∧ p ≠ [] ∧ size bs = some p.length ∧ rest.length < bs.length := by
  cases hsize : size bs with
  | none => exact Or.inl (cut_short (by simp [hsize]))
  | some k =>
    by_cases hk : k = 0 ∨ bs.length < k
    · left
      rw [cut]
      cases hlen : bs.length with
      | zero => rfl
      | succ m => simp only [cutAt,hsize,if_pos hk]
    · have htake : (bs.take k).length = k := by simp; omega
      refine Or.inr ⟨bs.take k,bs.drop k,(List.take_append_drop k bs).symm,?_,?_,?_⟩
      · intro hnil
        simp [hnil] at htake
        omega
      · rw [htake]
      · simp
        omega

theorem cut_append (hmono : ∀ bs more k, size bs = some k → size (bs ++ more) = some k)
    {bs : List A} (h : (cut size bs).2 = []) (more : List A) :
    cut size (bs ++ more) = ((cut size bs).1 ++ (cut size more).1,(cut size more).2) := by
  induction hlen : bs.length using Nat.strongRecOn generalizing bs with
  | ind m ih =>
    rcases cut_cases size bs with hstop | ⟨p,rest,rfl,hne,hsize,hlt⟩
    · obtain rfl : bs = [] := by
        rw [hstop] at h
        exact h
      rw [cut_nil,List.nil_append]
      rfl
    · rw [cut_packet hne rest hsize] at h ⊢
      rw [List.append_assoc,cut_packet hne (rest ++ more)
        (by rw [← List.append_assoc]; exact hmono _ _ _ hsize),ih rest.length (hlen ▸ hlt) h rfl]
      rfl

end Packets
