import Mathlib.Data.List.Basic

-- Words of a code laid one behind the other, where a word can be told from what comes behind it.
namespace Codewords

variable {R A : Type*}

structure Instantaneous (word : R → List A) : Prop where
  nonempty : ∀ r, word r ≠ []
  split : ∀ {r q x y}, word r ++ x = word q ++ y → r = q

-- rs is the longest run of whole words at the front of bs.
def Longest (word : R → List A) (rs : List R) (bs : List A) : Prop :=
  rs.flatMap word <+: bs ∧
    ∀ qs : List R, qs.flatMap word <+: bs → (qs.flatMap word).length ≤ (rs.flatMap word).length

variable {word : R → List A}

theorem longest_nil {bs : List A} (h : ∀ r, ¬ word r <+: bs) : Longest word [] bs := by
  refine ⟨List.nil_prefix,fun qs hqs => ?_⟩
  cases qs with
  | nil => exact Nat.le_refl _
  | cons q qs =>
    rw [List.flatMap_cons] at hqs
    exact absurd ((List.prefix_append _ _).trans hqs) (h q)

theorem Longest.cons (hword : Instantaneous word) {rs : List R} {bs : List A}
    (h : Longest word rs bs) (r : R) : Longest word (r :: rs) (word r ++ bs) := by
  obtain ⟨hfront,hmost⟩ := h
  refine ⟨by rwa [List.flatMap_cons,List.prefix_append_right_inj],fun qs hqs => ?_⟩
  cases qs with
  | nil => exact Nat.zero_le _
  | cons q qs =>
    rw [List.flatMap_cons] at hqs
    obtain ⟨x,hx⟩ := hqs
    rw [List.append_assoc] at hx
    obtain rfl := hword.split hx
    have hrest := hmost qs ⟨x,List.append_cancel_left hx⟩
    rw [List.flatMap_cons,List.flatMap_cons,List.length_append,List.length_append]
    omega

theorem exists_longest (hword : Instantaneous word) (bs : List A) :
    ∃ rs rest, bs = rs.flatMap word ++ rest ∧ (∀ r, ¬ word r <+: rest) ∧
      Longest word rs bs := by
  induction hlen : bs.length using Nat.strongRecOn generalizing bs with
  | ind n ih =>
    by_cases hstart : ∃ r, word r <+: bs
    · obtain ⟨r,tail,rfl⟩ := hstart
      have hpos := List.length_pos_iff.mpr (hword.nonempty r)
      rw [List.length_append] at hlen
      obtain ⟨rs,rest,rfl,hnone,hlong⟩ := ih tail.length (by omega) tail rfl
      refine ⟨r :: rs,rest,?_,hnone,hlong.cons hword r⟩
      rw [List.flatMap_cons,List.append_assoc]
    · rw [not_exists] at hstart
      exact ⟨[],bs,rfl,hstart,longest_nil hstart⟩

theorem runs_nested (hword : Instantaneous word) {rs qs : List R} {bs : List A}
    (hr : rs.flatMap word <+: bs) (hq : qs.flatMap word <+: bs) : rs <+: qs ∨ qs <+: rs := by
  induction rs generalizing qs bs with
  | nil => exact Or.inl List.nil_prefix
  | cons r rs ih =>
    cases qs with
    | nil => exact Or.inr List.nil_prefix
    | cons q qs =>
      rw [List.flatMap_cons] at hr hq
      obtain ⟨x,hx⟩ := hr
      obtain ⟨y,hy⟩ := hq
      rw [List.append_assoc] at hx hy
      obtain rfl := hword.split (hx.trans hy.symm)
      rw [← hy] at hx
      have hfront : rs.flatMap word <+: rs.flatMap word ++ x := List.prefix_append _ _
      have htails := ih hfront ⟨y,(List.append_cancel_left hx).symm⟩
      rwa [List.prefix_cons_inj,List.prefix_cons_inj]

theorem Longest.unique (hword : Instantaneous word) {rs qs : List R} {bs : List A}
    (hr : Longest word rs bs) (hq : Longest word qs bs) : rs = qs := by
  have hall {as cs : List R} (ha : Longest word as bs) (hc : Longest word cs bs)
      (hfront : as <+: cs) : as = cs := by
    obtain ⟨more,rfl⟩ := hfront
    cases more with
    | nil => rw [List.append_nil]
    | cons m more =>
      have hle := ha.2 _ hc.1
      have hpos := List.length_pos_iff.mpr (hword.nonempty m)
      rw [List.flatMap_append,List.flatMap_cons,List.length_append,List.length_append] at hle
      omega
  rcases runs_nested hword hr.1 hq.1 with h | h
  · exact hall hr hq h
  · exact (hall hq hr h).symm

theorem Instantaneous.injective (hword : Instantaneous word) :
    Function.Injective fun rs : List R => rs.flatMap word := by
  intro rs qs h
  have hall (as : List R) : Longest word as (as.flatMap word) :=
    ⟨List.prefix_refl _,fun _ hfront => hfront.length_le⟩
  have hrs := hall rs
  rw [show rs.flatMap word = qs.flatMap word from h] at hrs
  exact hrs.unique hword (hall qs)

-- A function that takes one word off the front, and takes nothing else for a word.
structure Reads (word : R → List A) (read : List A → Option (R × List A)) : Prop where
  nonempty : ∀ r, word r ≠ []
  read_word : ∀ r x, read (word r ++ x) = some (r,x)
  of_read : ∀ {bs r x}, read bs = some (r,x) → bs = word r ++ x

def decodeAt (read : List A → Option (R × List A)) : Nat → List A → Option (List R)
  | _, [] => some []
  | 0, _ :: _ => none
  | fuel+1, b :: bs =>
    (read (b :: bs)).bind fun found => (decodeAt read fuel found.2).map fun rs => found.1 :: rs

def decode (read : List A → Option (R × List A)) (bs : List A) : Option (List R) :=
  decodeAt read bs.length bs

variable {read : List A → Option (R × List A)}

theorem Reads.instantaneous (h : Reads word read) : Instantaneous word where
  nonempty := h.nonempty
  split := by
    intro r q x y heq
    have hr := h.read_word r x
    rw [heq,h.read_word q y] at hr
    cases hr
    rfl

theorem Reads.flatMap_nil (h : Reads word read) {rs : List R} :
    [] = rs.flatMap word ↔ rs = [] := by
  constructor
  · intro hnil
    cases rs with
    | nil => rfl
    | cons r rs => exact absurd (List.append_eq_nil_iff.mp hnil.symm).1 (h.nonempty r)
  · rintro rfl
    rfl

theorem Reads.decodeAt_iff (h : Reads word read) {fuel : Nat} {bs : List A} {rs : List R}
    (hfuel : bs.length ≤ fuel) : decodeAt read fuel bs = some rs ↔ bs = rs.flatMap word := by
  induction fuel generalizing bs rs with
  | zero =>
    rw [List.length_eq_zero_iff.mp (Nat.le_zero.mp hfuel),h.flatMap_nil]
    simp [decodeAt,eq_comm]
  | succ fuel ih =>
    cases bs with
    | nil =>
      rw [h.flatMap_nil]
      simp [decodeAt,eq_comm]
    | cons b bs =>
      have hless {r : R} {rest : List A} (hsplit : b :: bs = word r ++ rest) :
          rest.length ≤ fuel := by
        have hlen := congrArg List.length hsplit
        have hpos := List.length_pos_iff.mpr (h.nonempty r)
        rw [List.length_append,List.length_cons] at hlen
        rw [List.length_cons] at hfuel
        omega
      rw [decodeAt,Option.bind_eq_some_iff]
      constructor
      · rintro ⟨⟨r,rest⟩,hread,hmap⟩
        obtain ⟨qs,hqs,rfl⟩ := Option.map_eq_some_iff.mp hmap
        have hsplit := h.of_read hread
        have hrest : rest = qs.flatMap word := (ih (hless hsplit)).mp hqs
        exact hsplit.trans (congrArg (word r ++ ·) hrest)
      · intro hall
        cases rs with
        | nil => cases hall
        | cons r rs =>
          rw [List.flatMap_cons] at hall
          have hrest : decodeAt read fuel (rs.flatMap word) = some rs := (ih (hless hall)).mpr rfl
          refine ⟨(r,rs.flatMap word),by rw [hall,h.read_word],?_⟩
          rw [hrest]
          rfl

theorem Reads.decode_iff (h : Reads word read) {bs : List A} {rs : List R} :
    decode read bs = some rs ↔ bs = rs.flatMap word := h.decodeAt_iff (Nat.le_refl _)

end Codewords
