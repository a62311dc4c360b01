import ControlLogix.Library.LittleEndian
import ControlLogix.Tag.Accessors

namespace ControlLogix

open LittleEndian

namespace Tag

-- The integer, bool and bit-pattern accessors; each has a setter and a getter.
inductive Kind where
  | bool | int8 | int16 | int32 | int64 | uint8 | uint16 | uint32 | uint64 | float32 | float64
  deriving DecidableEq

namespace Kind

abbrev Value : Kind → Type
  | .bool => Bool
  | .int8 => Int8
  | .int16 => Int16
  | .int32 => Int32
  | .int64 => Int64
  | .uint8 => UInt8
  | .uint16 => UInt16
  | .uint32 => UInt32
  | .uint64 => UInt64
  | .float32 => UInt32
  | .float64 => UInt64

def width : Kind → Nat
  | .bool => 1
  | .int8 => 1
  | .int16 => 2
  | .int32 => 4
  | .int64 => 8
  | .uint8 => 1
  | .uint16 => 2
  | .uint32 => 4
  | .uint64 => 8
  | .float32 => 4
  | .float64 => 8

def setter : (k : Kind) → Nat → k.Value → Setter
  | .bool, off, v => .bool off v
  | .int8, off, v => .int8 off v
  | .int16, off, v => .int16 off v
  | .int32, off, v => .int32 off v
  | .int64, off, v => .int64 off v
  | .uint8, off, v => .uint8 off v
  | .uint16, off, v => .uint16 off v
  | .uint32, off, v => .uint32 off v
  | .uint64, off, v => .uint64 off v
  | .float32, off, v => .float32 off v
  | .float64, off, v => .float64 off v

def getter : Kind → Nat → Getter
  | .bool => .bool
  | .int8 => .int8
  | .int16 => .int16
  | .int32 => .int32
  | .int64 => .int64
  | .uint8 => .uint8
  | .uint16 => .uint16
  | .uint32 => .uint32
  | .uint64 => .uint64
  | .float32 => .float32
  | .float64 => .float64

def reading : (k : Kind) → k.Value → Reading
  | .bool, v => .bool v
  | .int8, v => .int8 v
  | .int16, v => .int16 v
  | .int32, v => .int32 v
  | .int64, v => .int64 v
  | .uint8, v => .uint8 v
  | .uint16, v => .uint16 v
  | .uint32, v => .uint32 v
  | .uint64, v => .uint64 v
  | .float32, v => .float32 v
  | .float64, v => .float64 v

def encode : (k : Kind) → k.Value → Nat
  | .bool, v => v.toNat
  | .int8, v => v.toUInt8.toNat
  | .int16, v => v.toUInt16.toNat
  | .int32, v => v.toUInt32.toNat
  | .int64, v => v.toUInt64.toNat
  | .uint8, v => v.toNat
  | .uint16, v => v.toNat
  | .uint32, v => v.toNat
  | .uint64, v => v.toNat
  | .float32, v => v.toNat
  | .float64, v => v.toNat

def signed : Kind → Bool
  | .int8 => true
  | .int16 => true
  | .int32 => true
  | .int64 => true
  | _ => false

def meaning (k : Kind) (bits : Nat) : Int :=
  if k = .bool then if bits = 0 then 0 else 1
  else if k.signed then Int.bmod bits (256 ^ k.width)
  else bits

end Kind

def Reading.number : Reading → Int
  | .bool v => v.toNat
  | .int8 v => v.toInt
  | .int16 v => v.toInt
  | .int32 v => v.toInt
  | .int64 v => v.toInt
  | .uint8 v => v.toNat
  | .uint16 v => v.toNat
  | .uint32 v => v.toNat
  | .uint64 v => v.toNat
  | .float32 bits => bits.toNat
  | .float64 bits => bits.toNat
  | .string n _ => n

def cells (g : Tag) : Nat → UInt8 := fun i => g.data.bytes.getD i 0

theorem inBounds_iff {off w : Nat} : inBounds off w = true ↔ off + w ≤ kMaxDataSize := by
  simp [inBounds]
  omega

theorem setBytes_byte (g : Tag) (off : Nat) (bs : List UInt8) (i : Nat) :
    (g.setBytes off bs).cells i =
      if off + bs.length ≤ kMaxDataSize ∧ off ≤ i ∧ i < off + bs.length then bs.getD (i - off) 0
      else g.cells i := by
  rw [setBytes]
  by_cases hin : inBounds off bs.length = true
  · have hfits := inBounds_iff.mp hin
    rw [dif_pos hin]
    simp only [hfits,true_and]
    exact store_byte (by rw [g.data.length_eq]; omega) bs i
  · rw [dif_neg hin,if_neg (fun h => hin (inBounds_iff.mpr h.1))]

theorem setBytes_cells (g : Tag) (off w v : Nat) :
    (g.setBytes off (bytes w v)).cells = Cells.save kMaxDataSize g.cells off w v := by
  funext i
  rw [setBytes_byte,length_bytes,Cells.save]
  by_cases hi : off + w ≤ kMaxDataSize ∧ off ≤ i ∧ i < off + w
  · rw [if_pos hi,if_pos hi,Cells.bytes_getD (by omega)]
  · rw [if_neg hi,if_neg hi]

theorem putByte_eq (b : UInt8) : [b] = bytes 1 b.toNat := by simp [bytes]

theorem set_eq (g : Tag) (k : Kind) (off : Nat) (v : k.Value) :
    g.set (k.setter off v) = g.setBytes off (bytes k.width (k.encode v)) := by
  cases k with
  | bool => cases v <;> rfl
  | int8 => exact congrArg (g.setBytes off) (putByte_eq _)
  | uint8 => exact congrArg (g.setBytes off) (putByte_eq _)
  | int16 => exact congrArg (g.setBytes off) (putU16_eq _)
  | uint16 => exact congrArg (g.setBytes off) (putU16_eq _)
  | int32 => exact congrArg (g.setBytes off) (putU32_eq _)
  | uint32 => exact congrArg (g.setBytes off) (putU32_eq _)
  | float32 => exact congrArg (g.setBytes off) (putU32_eq _)
  | int64 => exact congrArg (g.setBytes off) (putU64_eq _)
  | uint64 => exact congrArg (g.setBytes off) (putU64_eq _)
  | float64 => exact congrArg (g.setBytes off) (putU64_eq _)

theorem drop_cells (g : Tag) (off i : Nat) :
    (g.data.bytes.drop off).getD i 0 = g.cells (off + i) := by
  simp [cells,List.getD_eq_getElem?_getD]

theorem load_cells (g : Tag) (off : Nat) :
    (off + 1 ≤ kMaxDataSize →
      (g.data.bytes.getD off 0).toNat = Cells.load kMaxDataSize g.cells off 1) ∧
    (off + 2 ≤ kMaxDataSize →
      (getU16 (g.data.bytes.drop off)).toNat = Cells.load kMaxDataSize g.cells off 2) ∧
    (off + 4 ≤ kMaxDataSize →
      (getU32 (g.data.bytes.drop off)).toNat = Cells.load kMaxDataSize g.cells off 4) ∧
    (off + 8 ≤ kMaxDataSize →
      (getU64 (g.data.bytes.drop off)).toNat = Cells.load kMaxDataSize g.cells off 8) := by
  refine ⟨fun h => ?_,fun h => ?_,fun h => ?_,fun h => ?_⟩
  · exact (Cells.load_one g.cells h).symm
  · rw [getU16_toNat,Cells.load,if_pos h]
    simp only [drop_cells]
    rfl
  · rw [getU32_toNat,Cells.load,if_pos h]
    simp only [drop_cells]
    rfl
  · rw [getU64_toNat,Cells.load,if_pos h]
    simp only [drop_cells]
    rfl

theorem load_out {size off w : Nat} (h : ¬ off + w ≤ size) (a : Nat → UInt8) :
    Cells.load size a off w = 0 := if_neg h

theorem toInt8_bmod (b : UInt8) : b.toInt8.toInt = Int.bmod b.toNat (256 ^ 1) :=
  BitVec.toInt_eq_toNat_bmod _

theorem toInt16_bmod (v : UInt16) : v.toInt16.toInt = Int.bmod v.toNat (256 ^ 2) :=
  BitVec.toInt_eq_toNat_bmod _

theorem toInt32_bmod (v : UInt32) : v.toInt32.toInt = Int.bmod v.toNat (256 ^ 4) :=
  BitVec.toInt_eq_toNat_bmod _

theorem toInt64_bmod (v : UInt64) : v.toInt64.toInt = Int.bmod v.toNat (256 ^ 8) :=
  BitVec.toInt_eq_toNat_bmod _

theorem guarded_number (g : Tag) {A : Type} (number : A → Int) (meaning : Nat → Int) {off w : Nat}
    {v z : A}
    (hin : off + w ≤ kMaxDataSize → number v = meaning (Cells.load kMaxDataSize g.cells off w))
    (hout : number z = meaning 0) : number (if inBounds off w then v else z) =
      meaning (Cells.load kMaxDataSize g.cells off w) := by
  by_cases hfits : off + w ≤ kMaxDataSize
  · rw [if_pos (inBounds_iff.mpr hfits)]
    exact hin hfits
  · rw [if_neg (fun h => hfits (inBounds_iff.mp h)),load_out hfits]
    exact hout

theorem getFloat32_eq (g : Tag) (off : Nat) : g.getFloat32 off = g.getUint32 off := by
  rw [getFloat32,getUint32]
  cases inBounds off 4 <;> rfl

theorem getFloat64_eq (g : Tag) (off : Nat) : g.getFloat64 off = g.getUint64 off := by
  rw [getFloat64,getUint64]
  cases inBounds off 8 <;> rfl

theorem getBool_eq (g : Tag) (off : Nat) :
    g.getBool off = if inBounds off 1 then g.data.bytes.getD off 0 != 0 else false := by
  rw [getBool]
  cases inBounds off 1 <;> rfl

theorem truth_number (b : UInt8) : ((b != 0).toNat : Int) = if b.toNat = 0 then 0 else 1 := by
  by_cases h : b = 0
  · subst h
    rfl
  · have hn : b.toNat ≠ 0 := fun hz => h (UInt8.toNat_inj.mp hz)
    rw [if_neg hn,bne_iff_ne.mpr h]
    rfl

theorem meaning_bool (n : Nat) : Kind.meaning .bool n = if n = 0 then 0 else 1 := rfl

theorem meaning_signed {k : Kind} (h : k.signed = true) (n : Nat) :
    k.meaning n = Int.bmod n (256 ^ k.width) := by
  have hk : k ≠ .bool := by
    rintro rfl
    cases h
  rw [Kind.meaning,if_neg hk,if_pos h]

theorem meaning_unsigned {k : Kind} (hbool : k ≠ .bool) (h : k.signed = false) (n : Nat) :
    k.meaning n = n := by
  rw [Kind.meaning,if_neg hbool,h]
  rfl

theorem signed_number (g : Tag) {k : Kind} (hk : k.signed = true) {A : Type} (number : A → Int)
    {off : Nat} {v z : A} (hz : number z = 0)
    (hv : off + k.width ≤ kMaxDataSize →
      number v = Int.bmod (Cells.load kMaxDataSize g.cells off k.width) (256 ^ k.width)) :
    number (if inBounds off k.width then v else z) =
      k.meaning (Cells.load kMaxDataSize g.cells off k.width) :=
  g.guarded_number number k.meaning
    (fun h => by rw [meaning_signed hk]; exact hv h)
    (by rw [hz,meaning_signed hk,Nat.cast_zero,Int.zero_bmod])

theorem unsigned_number (g : Tag) {k : Kind} (hbool : k ≠ .bool) (hk : k.signed = false)
    {A : Type} (number : A → Nat) {off : Nat} {v z : A} (hz : number z = 0)
    (hv : off + k.width ≤ kMaxDataSize →
      number v = Cells.load kMaxDataSize g.cells off k.width) :
    (number (if inBounds off k.width then v else z) : Int) =
      k.meaning (Cells.load kMaxDataSize g.cells off k.width) :=
  g.guarded_number (fun a => (number a : Int)) k.meaning
    (fun h => by rw [meaning_unsigned hbool hk,hv h])
    (by rw [hz,meaning_unsigned hbool hk])

theorem get_number (g : Tag) (k : Kind) (off : Nat) :
    (g.get (k.getter off)).number =
      k.meaning (Cells.load kMaxDataSize g.cells off k.width) := by
  obtain ⟨hone,htwo,hfour,height⟩ := g.load_cells off
  cases k with
  | bool =>
    simp only [Kind.getter,get,Reading.number,getBool_eq]
    exact g.guarded_number (fun b : Bool => (b.toNat : Int)) (Kind.meaning .bool)
      (fun h => by rw [meaning_bool,← hone h]; exact truth_number _) rfl
  | int8 =>
    exact g.signed_number (k := .int8) rfl Int8.toInt rfl
      (fun h => (toInt8_bmod _).trans (by rw [hone h]; rfl))
  | int16 =>
    exact g.signed_number (k := .int16) rfl Int16.toInt rfl
      (fun h => (toInt16_bmod _).trans (by rw [htwo h]; rfl))
  | int32 =>
    exact g.signed_number (k := .int32) rfl Int32.toInt rfl
      (fun h => (toInt32_bmod _).trans (by rw [hfour h]; rfl))
  | int64 =>
    exact g.signed_number (k := .int64) rfl Int64.toInt rfl
      (fun h => (toInt64_bmod _).trans (by rw [height h]; rfl))
  | uint8 => exact g.unsigned_number (k := .uint8) (by decide) rfl UInt8.toNat rfl hone
  | uint16 => exact g.unsigned_number (k := .uint16) (by decide) rfl UInt16.toNat rfl htwo
  | uint32 => exact g.unsigned_number (k := .uint32) (by decide) rfl UInt32.toNat rfl hfour
  | uint64 => exact g.unsigned_number (k := .uint64) (by decide) rfl UInt64.toNat rfl height
  | float32 =>
    simp only [Kind.getter,get,Reading.number,getFloat32_eq]
    exact g.unsigned_number (k := .float32) (by decide) rfl UInt32.toNat rfl hfour
  | float64 =>
    simp only [Kind.getter,get,Reading.number,getFloat64_eq]
    exact g.unsigned_number (k := .float64) (by decide) rfl UInt64.toNat rfl height

theorem encode_lt (k : Kind) (v : k.Value) : k.encode v < 256 ^ k.width := by
  cases k with
  | bool => cases v <;> decide
  | int8 => exact UInt8.toNat_lt _
  | int16 => exact UInt16.toNat_lt _
  | int32 => exact UInt32.toNat_lt _
  | int64 => exact UInt64.toNat_lt _
  | uint8 => exact UInt8.toNat_lt _
  | uint16 => exact UInt16.toNat_lt _
  | uint32 => exact UInt32.toNat_lt _
  | uint64 => exact UInt64.toNat_lt _
  | float32 => exact UInt32.toNat_lt _
  | float64 => exact UInt64.toNat_lt _

theorem meaning_encode (k : Kind) (v : k.Value) :
    k.meaning (k.encode v) = (k.reading v).number := by
  cases k with
  | bool => cases v <;> rfl
  | int8 =>
    rw [meaning_signed rfl]
    exact (toInt8_bmod (Int8.toUInt8 v)).symm
  | int16 =>
    rw [meaning_signed rfl]
    exact (toInt16_bmod (Int16.toUInt16 v)).symm
  | int32 =>
    rw [meaning_signed rfl]
    exact (toInt32_bmod (Int32.toUInt32 v)).symm
  | int64 =>
    rw [meaning_signed rfl]
    exact (toInt64_bmod (Int64.toUInt64 v)).symm
  | _ => rfl

theorem number_inj {k : Kind} {v v' : k.Value}
    (h : (k.reading v).number = (k.reading v').number) : v = v' := by
  cases k with
  | bool =>
    cases v <;> cases v'
    · rfl
    · cases h
    · cases h
    · rfl
  | int8 => exact Int8.toInt_inj.mp h
  | int16 => exact Int16.toInt_inj.mp h
  | int32 => exact Int32.toInt_inj.mp h
  | int64 => exact Int64.toInt_inj.mp h
  | uint8 => exact UInt8.toNat_inj.mp (Int.ofNat.inj h)
  | uint16 => exact UInt16.toNat_inj.mp (Int.ofNat.inj h)
  | uint32 => exact UInt32.toNat_inj.mp (Int.ofNat.inj h)
  | uint64 => exact UInt64.toNat_inj.mp (Int.ofNat.inj h)
  | float32 => exact UInt32.toNat_inj.mp (Int.ofNat.inj h)
  | float64 => exact UInt64.toNat_inj.mp (Int.ofNat.inj h)

theorem get_reading (g : Tag) (k : Kind) (off : Nat) :
    ∃ v, g.get (k.getter off) = k.reading v := by
  cases k <;> exact ⟨_,rfl⟩

theorem set_get (g : Tag) {k : Kind} {off : Nat} (hfits : off + k.width ≤ kMaxDataSize)
    (v : k.Value) : (g.set (k.setter off v)).get (k.getter off) = k.reading v := by
  obtain ⟨v',hv⟩ := (g.set (k.setter off v)).get_reading k off
  have hnumber := (g.set (k.setter off v)).get_number k off
  rw [hv,set_eq,setBytes_cells,Cells.save_same hfits _ (encode_lt k v),meaning_encode] at hnumber
  rw [hv,number_inj hnumber]

-- The bounds check as size_t arithmetic of 32 bits has it.
def fits (off size : UInt32) : Bool :=
  size ≤ UInt32.ofNat kMaxDataSize ∧ off ≤ UInt32.ofNat kMaxDataSize - size

theorem fits_iff (off size : UInt32) :
    fits off size = true ↔ off.toNat + size.toNat ≤ kMaxDataSize := by
  have hmax : (UInt32.ofNat kMaxDataSize).toNat = kMaxDataSize := rfl
  simp only [fits,Bool.decide_and,Bool.and_eq_true,decide_eq_true_eq]
  by_cases hsize : size ≤ UInt32.ofNat kMaxDataSize
  · have hroom := UInt32.toNat_sub_of_le _ _ hsize
    have hle := UInt32.le_iff_toNat_le.mp hsize
    rw [UInt32.le_iff_toNat_le (a := off),hroom,hmax]
    rw [hmax] at hle
    constructor
    · intro h
      omega
    · intro h
      exact ⟨hsize,by omega⟩
  · refine ⟨fun h => absurd h.1 hsize,fun h => absurd (UInt32.le_iff_toNat_le.mpr ?_) hsize⟩
    omega

theorem fits_width (k : Kind) (off : UInt32) :
    fits off (UInt32.ofNat k.width) = true ↔ off.toNat + k.width ≤ kMaxDataSize := by
  have hwidth : (UInt32.ofNat k.width).toNat = k.width := by cases k <;> rfl
  rw [fits_iff,hwidth]

-- Reads and writes of an array that has no bytes but its own.
def fetch (bs : List UInt8) (off : Nat) : Nat → Option (List UInt8)
  | 0 => some []
  | w+1 => bs[off]?.bind fun b => (fetch bs (off + 1) w).map (b :: ·)

def put (bs : List UInt8) (off : Nat) : List UInt8 → Option (List UInt8)
  | [] => some bs
  | b :: new => if off < bs.length then put (bs.set off b) (off + 1) new else none

theorem fetch_some {bs : List UInt8} {off w : Nat} (h : off + w ≤ bs.length) :
    fetch bs off w = some ((List.range w).map fun i => bs.getD (off + i) 0) := by
  induction w generalizing off with
  | zero => rfl
  | succ w ih =>
    have hoff : off < bs.length := by omega
    rw [fetch,List.getElem?_eq_getElem hoff,Option.bind_some,ih (by omega),Option.map_some,
      List.range_succ_eq_map,List.map_cons,List.map_map]
    refine congrArg some (congrArg₂ List.cons ?_ (List.map_congr_left fun i _ => ?_))
    · simp [List.getD_eq_getElem?_getD,hoff]
    · simp only [Function.comp_apply,Nat.succ_eq_add_one,Nat.add_right_comm off 1 i,← Nat.add_assoc]

theorem store_set {bs : List UInt8} {off : Nat} (h : off < bs.length) (b : UInt8)
    (new : List UInt8) : store (bs.set off b) (off + 1) new = store bs off (b :: new) := by
  have hpre : (bs.take off ++ [b]).length = off + 1 := by
    rw [List.length_append,List.length_take_of_le (by omega)]
    rfl
  have hset : bs.set off b = (bs.take off ++ [b]) ++ bs.drop (off + 1) := by
    rw [List.set_eq_take_append_cons_drop,if_pos h,List.append_assoc]
    rfl
  have hend : off + 1 + new.length = off + (b :: new).length := by
    rw [List.length_cons]
    omega
  rw [hset,store_next _ _ _ hpre,List.drop_drop,hend,store,List.append_assoc (bs.take off)]
  rfl

theorem put_some {bs : List UInt8} {off : Nat} {new : List UInt8}
    (h : off + new.length ≤ bs.length) : put bs off new = some (store bs off new) := by
  induction new generalizing bs off with
  | nil => simp [put,store]
  | cons b new ih =>
    rw [List.length_cons] at h
    have hoff : off < bs.length := by omega
    rw [put,if_pos hoff,ih (by rw [List.length_set]; omega),store_set hoff]

inductive Touch where
  | set (k : Kind) (off : UInt32) (v : k.Value)
  | get (k : Kind) (off : UInt32)

-- What the getters among some calls return, and the tag afterwards.
def perform (g : Tag) : List Touch → List Int × Tag
  | [] => ([],g)
  | .set k off v :: ts => perform (g.set (k.setter off.toNat v)) ts
  | .get k off :: ts =>
    let (numbers,g') := perform g ts
    ((g.get (k.getter off.toNat)).number :: numbers,g')

def performCells (a : Nat → UInt8) : List Touch → List Int × (Nat → UInt8)
  | [] => ([],a)
  | .set k off v :: ts =>
    performCells (Cells.save kMaxDataSize a off.toNat k.width (k.encode v)) ts
  | .get k off :: ts =>
    let (numbers,a') := performCells a ts
    (k.meaning (Cells.load kMaxDataSize a off.toNat k.width) :: numbers,a')

def performBytes (bs : List UInt8) : List Touch → Option (List Int × List UInt8)
  | [] => some ([],bs)
  | .set k off v :: ts =>
    if fits off (UInt32.ofNat k.width) then
      (put bs off.toNat (bytes k.width (k.encode v))).bind fun bs => performBytes bs ts
    else performBytes bs ts
  | .get k off :: ts =>
    (if fits off (UInt32.ofNat k.width) then (fetch bs off.toNat k.width).map value
      else some 0).bind fun bits =>
        (performBytes bs ts).map fun r => (k.meaning bits :: r.1,r.2)

theorem perform_cells (g : Tag) (ts : List Touch) :
    ((g.perform ts).1,(g.perform ts).2.cells) = performCells g.cells ts := by
  induction ts generalizing g with
  | nil => rfl
  | cons t ts ih =>
    cases t with
    | set k off v =>
      rw [perform,performCells,ih,set_eq,setBytes_cells]
    | get k off =>
      have hrest := ih g
      simp only [perform,performCells,← hrest,get_number]

theorem setBytes_bytes (g : Tag) {off : Nat} {bs : List UInt8}
    (h : off + bs.length ≤ kMaxDataSize) :
    (g.setBytes off bs).data.bytes = store g.data.bytes off bs := by
  rw [setBytes,dif_pos (inBounds_iff.mpr h)]
  rfl

theorem perform_bytes (g : Tag) (ts : List Touch) :
    performBytes g.data.bytes ts = some ((g.perform ts).1,(g.perform ts).2.data.bytes) := by
  induction ts generalizing g with
  | nil => rfl
  | cons t ts ih =>
    cases t with
    | set k off v =>
      rw [performBytes,perform,← ih,set_eq]
      by_cases hfits : off.toNat + k.width ≤ kMaxDataSize
      · rw [if_pos ((fits_width k off).mpr hfits),
          put_some (by rw [length_bytes,g.data.length_eq]; exact hfits),
          setBytes_bytes _ (by rw [length_bytes]; exact hfits)]
        rfl
      · rw [if_neg (fun h => hfits ((fits_width k off).mp h)),setBytes,
          dif_neg (fun h => hfits (by rw [length_bytes] at h; exact inBounds_iff.mp h))]
    | get k off =>
      rw [performBytes,ih g,perform,get_number]
      by_cases hfits : off.toNat + k.width ≤ kMaxDataSize
      · rw [if_pos ((fits_width k off).mpr hfits),
          fetch_some (by rw [g.data.length_eq]; exact hfits),Cells.load,if_pos hfits]
        rfl
      · rw [if_neg (fun h => hfits ((fits_width k off).mp h)),load_out hfits]
        rfl

theorem set_kept (g : Tag) (k : Kind) (off : Nat) (v : k.Value) :
    (g.set (k.setter off v)).dataLen = g.dataLen ∧
      (g.set (k.setter off v)).dataType = g.dataType ∧
        (g.set (k.setter off v)).state = g.state := by
  rw [set_eq,setBytes]
  split <;> exact ⟨rfl,rfl,rfl⟩

theorem perform_kept (g : Tag) (ts : List Touch) :
    (g.perform ts).2.dataLen = g.dataLen ∧ (g.perform ts).2.dataType = g.dataType ∧
      (g.perform ts).2.state = g.state := by
  induction ts generalizing g with
  | nil => exact ⟨rfl,rfl,rfl⟩
  | cons t ts ih =>
    cases t with
    | set k off v =>
      obtain ⟨hlen,htype,hstate⟩ := ih (g.set (k.setter off.toNat v))
      obtain ⟨hlen',htype',hstate'⟩ := g.set_kept k off.toNat v
      exact ⟨hlen.trans hlen',htype.trans htype',hstate.trans hstate'⟩
    | get k off => exact ih g

theorem get_bytewise (g : Tag) (k : Kind) (off : Nat) :
    (g.get (k.getter off)).number = k.meaning (if off + k.width ≤ kMaxDataSize then
      value ((List.range k.width).map fun i => g.getUint8 (off + i)) else 0) := by
  rw [get_number,Cells.load]
  by_cases hfits : off + k.width ≤ kMaxDataSize
  · rw [if_pos hfits,if_pos hfits]
    refine congrArg (fun bs => k.meaning (value bs)) (List.map_congr_left fun i hi => ?_)
    have hi' := List.mem_range.mp hi
    exact (getUint8_bytes g (by omega)).symm
  · rw [if_neg hfits,if_neg hfits]

theorem accessors_share_one_array (g : Tag) (ts : List Touch) :
    let r := g.perform ts
    (r.1,r.2.cells) = performCells g.cells ts ∧
      performBytes g.data.bytes ts = some (r.1,r.2.data.bytes) ∧
      (r.2.dataLen = g.dataLen ∧ r.2.dataType = g.dataType ∧ r.2.state = g.state) ∧
      (∀ k off v, off + Kind.width k ≤ kMaxDataSize →
        (r.2.set (k.setter off v)).get (k.getter off) = k.reading v) ∧
      ∀ k off, (r.2.get (Kind.getter k off)).number =
        k.meaning (if off + k.width ≤ kMaxDataSize then
          value ((List.range k.width).map fun i => r.2.getUint8 (off + i)) else 0) :=
  ⟨g.perform_cells ts,g.perform_bytes ts,g.perform_kept ts,
    fun _ _ v hfits => set_get _ hfits v,fun k off => get_bytewise _ k off⟩

end Tag

end ControlLogix
