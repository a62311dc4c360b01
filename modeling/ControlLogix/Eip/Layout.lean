import ControlLogix.Eip.Cpf

namespace ControlLogix

variable {A : Type*}

-- The items are laid out at the front of some bytes, and their lengths are what two bytes hold.
def LaidOut (items : List CpfItem) (bs : List UInt8) : Prop :=
  (∀ e ∈ items, e.data.length < 65536) ∧ itemBytes items <+: bs

theorem LaidOut.nil (bs : List UInt8) : LaidOut [] bs :=
  ⟨fun _ h => absurd h List.not_mem_nil,List.nil_prefix⟩

theorem LaidOut.cons {bs : List UInt8} {items : List CpfItem} (hfour : 4 ≤ bs.length)
    (hroom : (getU16 (bs.drop 2)).toNat ≤ bs.length - 4)
    (h : LaidOut items (bs.drop (4 + (getU16 (bs.drop 2)).toNat))) :
    LaidOut (⟨getU16 bs,(bs.drop 4).take (getU16 (bs.drop 2)).toNat⟩ :: items) bs := by
  have hlen : ((bs.drop 4).take (getU16 (bs.drop 2)).toNat).length = (getU16 (bs.drop 2)).toNat := by
    rw [List.length_take,List.length_drop]
    exact Nat.min_eq_left hroom
  obtain ⟨hsmall,rest,hrest⟩ := h
  refine ⟨fun e he => ?_,rest,?_⟩
  · rcases List.mem_cons.mp he with rfl | htail
    · simp only [hlen]
      exact UInt16.toNat_lt _
    · exact hsmall e htail
  · have hback : UInt16.ofNat (getU16 (bs.drop 2)).toNat = getU16 (bs.drop 2) :=
      UInt16.ofNat_toNat
    rw [itemBytes_cons,CpfItem.bytes]
    simp only [hlen,hback]
    rw [putU16_getU16 (by omega),putU16_getU16 (by rw [List.length_drop]; omega)]
    simp only [List.append_assoc]
    rw [hrest,← List.drop_drop,List.take_append_drop,← List.drop_drop (i := 2) (j := 2),
      List.take_append_drop,List.take_append_drop]

theorem walkItems_iff {take : A → UInt16 → Nat → Nat → Option A} {rx : List UInt8}
    {count p remaining : Nat} {a b : A} (hroom : p + remaining = rx.length) :
    walkItems take rx count p remaining a = some b ↔
      ∃ items, items.length = count ∧ LaidOut items (rx.drop p) ∧
        pickItems take p items a = some b := by
  constructor
  · intro h
    induction count generalizing p remaining a with
    | zero =>
      rw [walkItems] at h
      exact ⟨[],rfl,LaidOut.nil _,h⟩
    | succ count ih =>
      rw [walkItems] at h
      split_ifs at h with hshort
      simp only at h
      split_ifs at h with hlong
      have hfour : 4 ≤ (rx.drop p).length := by rw [List.length_drop]; omega
      have hfits : (getU16 (rx.drop (p + 2))).toNat ≤ (rx.drop p).length - 4 := by
        rw [List.length_drop]; omega
      rw [← List.drop_drop] at h hfits
      have hdata : (((rx.drop p).drop 4).take (getU16 ((rx.drop p).drop 2)).toNat).length =
          (getU16 ((rx.drop p).drop 2)).toNat := by
        rw [List.length_take,List.length_drop]
        exact Nat.min_eq_left hfits
      cases hnext : take a (getU16 (rx.drop p)) (p + 4) (getU16 ((rx.drop p).drop 2)).toNat with
      | none =>
        rw [hnext] at h
        cases h
      | some c =>
        rw [hnext] at h
        obtain ⟨items,hcount,hlaid,hpick⟩ := ih (by rw [← List.drop_drop] at hlong; omega) h
        rw [Nat.add_assoc,← List.drop_drop] at hlaid
        refine ⟨_,congrArg (· + 1) hcount,hlaid.cons hfour hfits,?_⟩
        rw [pickItems,hdata,hnext]
        exact hpick
  · rintro ⟨items,hcount,⟨hsmall,post,hpost⟩,hpick⟩
    have hle : p ≤ rx.length := by omega
    have hpre : (rx.take p).length = p := List.length_take_of_le hle
    have hsplit : rx = rx.take p ++ (itemBytes items ++ post) := by
      rw [hpost,List.take_append_drop]
    have hlen := congrArg List.length hpost
    rw [List.length_append,List.length_drop] at hlen
    have hwalk := walkItems_items take (rx.take p) post hsmall a
    rw [← hsplit,hpre,hcount,hpick] at hwalk
    rw [← hwalk]
    congr 1
    omega

def FrameItems (rx : List UInt8) (items : List CpfItem) : Prop :=
  8 ≤ rx.length - kEncapsulationHeaderSize ∧
    items.length = (getU16 (rx.drop (kEncapsulationHeaderSize + 6))).toNat ∧
    LaidOut items (rx.drop (kEncapsulationHeaderSize + 8))

theorem FrameItems.split {rx : List UInt8} {items : List CpfItem} (h : FrameItems rx items) :
    ∃ post, rx = rx.take (kEncapsulationHeaderSize + 8) ++ (itemBytes items ++ post) ∧
      (rx.take (kEncapsulationHeaderSize + 8)).length = kEncapsulationHeaderSize + 8 := by
  obtain ⟨hbody,_,_,post,hpost⟩ := h
  refine ⟨post,?_,List.length_take_of_le (by omega)⟩
  rw [hpost,List.take_append_drop]

theorem walkItems_frame {take : A → UInt16 → Nat → Nat → Option A} {rx : List UInt8}
    (hbody : 8 ≤ rx.length - kEncapsulationHeaderSize) {a b : A} :
    walkItems take rx (getU16 (rx.drop (kEncapsulationHeaderSize + 6))).toNat
        (kEncapsulationHeaderSize + 8) (rx.length - kEncapsulationHeaderSize - 8) a = some b ↔
      ∃ items, FrameItems rx items ∧
        pickItems take (kEncapsulationHeaderSize + 8) items a = some b := by
  rw [walkItems_iff (by omega)]
  constructor
  · rintro ⟨items,hcount,hlaid,hpick⟩
    exact ⟨items,⟨hbody,hcount,hlaid⟩,hpick⟩
  · rintro ⟨items,⟨_,hcount,hlaid⟩,hpick⟩
    exact ⟨items,hcount,hlaid,hpick⟩

-- A read of n bytes at an offset, or nothing when it would leave the bytes there are.
def peek (rx : List UInt8) (p n : Nat) : Option (List UInt8) :=
  if p + n ≤ rx.length then some ((rx.drop p).take n) else none

def peekItems (take : A → UInt16 → Nat → Nat → Option (Option A)) (rx : List UInt8) :
    Nat → Nat → Nat → A → Option (Option A)
  | 0, _, _, a => some (some a)
  | count+1, p, remaining, a =>
    if remaining < 4 then some none
    else
      (peek rx p 2).bind fun type => (peek rx (p + 2) 2).bind fun len =>
        if remaining - 4 < (getU16 len).toNat then some none
        else
          (take a (getU16 type) (p + 4) (getU16 len).toNat).bind fun next =>
            match next with
            | none => some none
            | some a => peekItems take rx count (p + 4 + (getU16 len).toNat)
                (remaining - 4 - (getU16 len).toNat) a

theorem peek_eq {rx : List UInt8} {p n : Nat} (h : p + n ≤ rx.length) :
    peek rx p n = some ((rx.drop p).take n) := if_pos h

theorem getU16_take (bs : List UInt8) : getU16 (bs.take 2) = getU16 bs := by
  simp only [getU16,List.getD_eq_getElem?_getD]
  rw [List.getElem?_take_of_lt (by omega),List.getElem?_take_of_lt (by omega)]

theorem getU32_take (bs : List UInt8) : getU32 (bs.take 4) = getU32 bs := by
  simp only [getU32,List.getD_eq_getElem?_getD]
  rw [List.getElem?_take_of_lt (by omega),List.getElem?_take_of_lt (by omega),
    List.getElem?_take_of_lt (by omega),List.getElem?_take_of_lt (by omega)]

theorem getD_take (bs : List UInt8) {n i : Nat} (h : i < n) :
    (bs.take n).getD i 0 = bs.getD i 0 := by
  simp only [List.getD_eq_getElem?_getD]
  rw [List.getElem?_take_of_lt h]

theorem peekItems_eq {take : A → UInt16 → Nat → Nat → Option A}
    {taken : A → UInt16 → Nat → Nat → Option (Option A)} {rx : List UInt8}
    (htake : ∀ a type p len, p + len ≤ rx.length → taken a type p len = some (take a type p len))
    {count p remaining : Nat} (hroom : p + remaining ≤ rx.length) (a : A) :
    peekItems taken rx count p remaining a = some (walkItems take rx count p remaining a) := by
  induction count generalizing p remaining a with
  | zero => rfl
  | succ count ih =>
    rw [peekItems,walkItems]
    by_cases hshort : remaining < 4
    · rw [if_pos hshort,if_pos hshort]
    rw [if_neg hshort,if_neg hshort,peek_eq (by omega),peek_eq (by omega)]
    simp only [Option.bind_some,getU16_take]
    by_cases hlong : remaining - 4 < (getU16 (rx.drop (p + 2))).toNat
    · rw [if_pos hlong,if_pos hlong]
    rw [if_neg hlong,if_neg hlong,htake _ _ _ _ (by omega),Option.bind_some]
    cases take a (getU16 (rx.drop p)) (p + 4) (getU16 (rx.drop (p + 2))).toNat with
    | none => rfl
    | some b => exact ih (by omega) b

end ControlLogix
