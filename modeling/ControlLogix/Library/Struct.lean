import ControlLogix.Library.LittleEndian

-- Python's struct module, for formats of unsigned letters behind "<": no padding, low byte first.
namespace Struct

open LittleEndian

def width : Char → Option Nat
  | 'B' => some 1
  | 'H' => some 2
  | 'I' => some 4
  | 'Q' => some 8
  | _ => none

def widths : List Char → Option (List Nat)
  | '<' :: letters => letters.mapM width
  | _ => none

-- A value that does not fit its letter raises, and so does a value too few or too many.
def packAs : List Nat → List Nat → Option (List UInt8)
  | [], [] => some []
  | w :: ws, n :: ns => if n < 256 ^ w then (packAs ws ns).map fun bs => bytes w n ++ bs else none
  | _, _ => none

-- unpack takes a buffer of exactly the size of the format.
def unpackAs : List Nat → List UInt8 → Option (List Nat)
  | [], [] => some []
  | [], _ => none
  | w :: ws, bs =>
    if bs.length < w then none
    else (unpackAs ws (bs.drop w)).map fun ns => value (bs.take w) :: ns

def pack (fmt : List Char) (ns : List Nat) : Option (List UInt8) :=
  (widths fmt).bind fun ws => packAs ws ns

def unpack (fmt : List Char) (bs : List UInt8) : Option (List Nat) :=
  (widths fmt).bind fun ws => unpackAs ws bs

theorem packAs_cons {w n : Nat} {ws ns : List Nat} {bs : List UInt8} :
    packAs (w :: ws) (n :: ns) = some bs ↔
      n < 256 ^ w ∧ ∃ rest, packAs ws ns = some rest ∧ bs = bytes w n ++ rest := by
  rw [packAs]
  by_cases h : n < 256 ^ w
  · rw [if_pos h,Option.map_eq_some_iff]
    constructor
    · rintro ⟨rest,hrest,rfl⟩
      exact ⟨h,rest,hrest,rfl⟩
    · rintro ⟨_,rest,hrest,rfl⟩
      exact ⟨rest,hrest,rfl⟩
  · rw [if_neg h]
    constructor
    · intro hnone
      cases hnone
    · rintro ⟨hlt,_⟩
      exact absurd hlt h

theorem unpackAs_cons {w : Nat} {ws ns : List Nat} {bs : List UInt8} :
    unpackAs (w :: ws) bs = some ns ↔ w ≤ bs.length ∧
      ∃ rest, unpackAs ws (bs.drop w) = some rest ∧ ns = value (bs.take w) :: rest := by
  rw [unpackAs]
  by_cases h : bs.length < w
  · rw [if_pos h]
    constructor
    · intro hnone
      cases hnone
    · rintro ⟨hle,_⟩
      exact absurd h (Nat.not_lt.mpr hle)
  · rw [if_neg h,Option.map_eq_some_iff]
    constructor
    · rintro ⟨rest,hrest,rfl⟩
      exact ⟨Nat.not_lt.mp h,rest,hrest,rfl⟩
    · rintro ⟨_,rest,hrest,rfl⟩
      exact ⟨rest,hrest,rfl⟩

theorem unpackAs_of_packAs {ws ns : List Nat} {bs : List UInt8} (h : packAs ws ns = some bs) :
    unpackAs ws bs = some ns := by
  induction ws generalizing ns bs with
  | nil =>
    cases ns with
    | nil =>
      cases h
      rfl
    | cons n ns => cases h
  | cons w ws ih =>
    cases ns with
    | nil => cases h
    | cons n ns =>
      obtain ⟨hn,rest,hrest,rfl⟩ := packAs_cons.mp h
      have hlen := length_bytes w n
      refine unpackAs_cons.mpr ⟨by simp,ns,?_,?_⟩
      · rw [List.drop_left' hlen]
        exact ih hrest
      · rw [List.take_left' hlen,value_bytes w n hn]

theorem packAs_of_unpackAs {ws ns : List Nat} {bs : List UInt8} (h : unpackAs ws bs = some ns) :
    packAs ws ns = some bs := by
  induction ws generalizing ns bs with
  | nil =>
    cases bs with
    | nil =>
      cases h
      rfl
    | cons b bs => cases h
  | cons w ws ih =>
    obtain ⟨hw,rest,hrest,rfl⟩ := unpackAs_cons.mp h
    have hlen : (bs.take w).length = w := List.length_take_of_le hw
    have hlt := value_lt (bs.take w)
    have hback := bytes_value (bs.take w)
    rw [hlen] at hlt hback
    exact packAs_cons.mpr ⟨hlt,bs.drop w,ih hrest,by rw [hback,List.take_append_drop]⟩

theorem pack_iff {fmt : List Char} {ns : List Nat} {bs : List UInt8} :
    pack fmt ns = some bs ↔ unpack fmt bs = some ns := by
  rw [pack,unpack]
  cases widths fmt with
  | none => simp
  | some ws => exact ⟨unpackAs_of_packAs,packAs_of_unpackAs⟩

end Struct
