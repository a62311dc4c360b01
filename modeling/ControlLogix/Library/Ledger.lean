import ControlLogix.Library.Dict
import Mathlib.Data.List.Nodup
import Mathlib.Data.List.Perm.Basic
import Mathlib.Data.List.Range

-- The keys a store of limited size has given out and not got back, each with what it was given
-- out for.
namespace Ledger

variable {K V : Type*} {L : List (K × V)} {m : Memory K V}

def Matches (L : List (K × V)) (m : Memory K V) : Prop :=
  (L.map Prod.fst).Nodup ∧ ∀ k v, (k,v) ∈ L ↔ m k = some v

theorem matches_nil (h : ∀ k, m k = none) : Matches [] m :=
  ⟨List.nodup_nil,fun k v => by simp [h k]⟩

theorem Matches.key_iff (h : Matches L m) (k : K) :
    k ∈ L.map Prod.fst ↔ (m k).isSome = true := by
  rw [List.mem_map,Option.isSome_iff_exists]
  constructor
  · rintro ⟨⟨key,v⟩,he,rfl⟩
    exact ⟨v,(h.2 key v).mp he⟩
  · rintro ⟨v,hv⟩
    exact ⟨(k,v),(h.2 k v).mpr hv,rfl⟩

theorem Matches.length_eq (h : Matches L m) {places : List K} (hplaces : places.Nodup)
    (hall : ∀ k, (m k).isSome = true → k ∈ places) :
    L.length = places.countP fun k => (m k).isSome := by
  have hperm : (L.map Prod.fst).Perm (places.filter fun k => (m k).isSome) := by
    rw [List.perm_ext_iff_of_nodup h.1 (hplaces.filter _)]
    intro k
    rw [h.key_iff,List.mem_filter]
    exact ⟨fun hk => ⟨hall k hk,hk⟩,And.right⟩
  rw [List.countP_eq_length_filter,← hperm.length_eq,List.length_map]

theorem Matches.room_iff (h : Matches L m) {places : List K} (hplaces : places.Nodup)
    (hall : ∀ k, (m k).isSome = true → k ∈ places) :
    L.length < places.length ↔ ∃ k ∈ places, m k = none := by
  have hle : places.countP (fun k => (m k).isSome) ≤ places.length := List.countP_le_length
  rw [h.length_eq hplaces hall,Nat.lt_iff_le_and_ne,and_iff_right hle,Ne,List.countP_eq_length]
  simp only [not_forall,Bool.not_eq_true,Option.isSome_eq_false_iff,Option.isNone_iff_eq_none]
  exact ⟨fun ⟨k,hk,hm⟩ => ⟨k,hk,hm⟩,fun ⟨k,hk,hm⟩ => ⟨k,hk,hm⟩⟩

variable [DecidableEq K]

theorem Matches.add (h : Matches L m) {k : K} (hfree : m k = none) (v : V) :
    Matches (L ++ [(k,v)]) (Function.update m k (some v)) := by
  constructor
  · rw [List.map_append,List.map_singleton,← List.concat_eq_append]
    refine List.Nodup.concat (fun hk => ?_) h.1
    rw [h.key_iff,hfree] at hk
    cases hk
  · intro key val
    rw [List.mem_append,List.mem_singleton,h.2 key val]
    by_cases hk : key = k
    · subst hk
      simp [hfree,eq_comm]
    · simp [hk]

theorem Matches.remove (h : Matches L m) (k : K) :
    Matches (L.filter fun e => e.1 ≠ k) (Function.update m k none) := by
  constructor
  · exact h.1.sublist (List.filter_sublist.map _)
  · intro key val
    rw [List.mem_filter,h.2 key val]
    by_cases hk : key = k
    · simp [hk]
    · simp [hk]

end Ledger

-- Stamps given out one after the other by a counter, newest first.
namespace Stamps

variable {C : Type*} (stamp : Nat → C)

def Numbered (l : List C) : Prop := l = (List.range l.length).reverse.map stamp

-- The counter does not come back to a stamp before it has given out bound of them.
def Fresh (bound : Nat) : Prop := ∀ i j, i < bound → j < bound → stamp i = stamp j → i = j

variable {stamp}

theorem Numbered.nil : Numbered stamp [] := rfl

theorem Numbered.push {l : List C} (h : Numbered stamp l) :
    Numbered stamp (stamp l.length :: l) := by
  rw [Numbered,List.length_cons,List.range_succ,List.reverse_append]
  simp only [List.reverse_cons,List.reverse_nil,List.nil_append,List.singleton_append,List.map_cons]
  rw [← h]

theorem Numbered.fresh {bound : Nat} (hfresh : Fresh stamp bound) {c : C} {l : List C}
    (h : Numbered stamp (c :: l)) (hlen : l.length < bound) : c ∉ l := by
  rw [Numbered,List.length_cons,List.range_succ,List.reverse_append] at h
  simp only [List.reverse_cons,List.reverse_nil,List.nil_append,List.singleton_append,
    List.map_cons,List.cons.injEq] at h
  obtain ⟨hlast,htail⟩ := h
  intro hmem
  rw [htail] at hmem
  obtain ⟨k,hk,heq⟩ := List.mem_map.mp hmem
  rw [List.mem_reverse,List.mem_range] at hk
  have := hfresh k l.length (by omega) hlen (heq.trans hlast)
  omega

end Stamps
