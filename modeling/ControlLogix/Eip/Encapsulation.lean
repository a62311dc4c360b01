import ControlLogix.Library.LittleEndian
import Mathlib.Tactic.SplitIfs

namespace ControlLogix

open LittleEndian

def putU16 (v : UInt16) : List UInt8 := [v.toUInt8,(v >>> 8).toUInt8]

def putU32 (v : UInt32) : List UInt8 :=
  [v.toUInt8,(v >>> 8).toUInt8,(v >>> 16).toUInt8,(v >>> 24).toUInt8]

def putU64 (v : UInt64) : List UInt8 :=
  (List.range 8).map fun i => (v >>> UInt64.ofNat (8 * i)).toUInt8

def getU16 (p : List UInt8) : UInt16 :=
  (p.getD 0 0).toUInt16 ||| ((p.getD 1 0).toUInt16 <<< 8)

def getU32 (p : List UInt8) : UInt32 :=
  (p.getD 0 0).toUInt32 ||| ((p.getD 1 0).toUInt32 <<< 8) |||
    ((p.getD 2 0).toUInt32 <<< 16) ||| ((p.getD 3 0).toUInt32 <<< 24)

def getU64 (p : List UInt8) : UInt64 :=
  [7,6,5,4,3,2,1,0].foldl (fun v i => (v <<< 8) ||| (p.getD i 0).toUInt64) 0

theorem putU16_eq (v : UInt16) : putU16 v = bytes 2 v.toNat := by
  simp only [putU16,bytes,List.cons.injEq,and_true]
  constructor <;> apply UInt8.toNat_inj.mp <;> simp [Nat.shiftRight_eq_div_pow]

theorem putU32_eq (v : UInt32) : putU32 v = bytes 4 v.toNat := by
  simp only [putU32,bytes,List.cons.injEq,and_true]
  refine ⟨?_,?_,?_,?_⟩ <;> apply UInt8.toNat_inj.mp <;> simp [Nat.shiftRight_eq_div_pow] <;> omega

theorem putU64_eq (v : UInt64) : putU64 v = bytes 8 v.toNat := by
  simp only [putU64,bytes,List.range_succ,List.range_zero,List.map_cons,List.map_nil,
    List.nil_append,List.cons_append,List.cons.injEq,and_true]
  refine ⟨?_,?_,?_,?_,?_,?_,?_,?_⟩ <;> apply UInt8.toNat_inj.mp <;>
    simp [Nat.shiftRight_eq_div_pow] <;> omega

theorem getU16_toNat (p : List UInt8) : (getU16 p).toNat = value [p.getD 0 0,p.getD 1 0] := by
  have h0 := (p.getD 0 0).toNat_lt
  have h1 := (p.getD 1 0).toNat_lt
  have e8 : (8 : UInt16).toNat % 16 = 8 := rfl
  simp only [getU16,value,UInt16.toNat_or,UInt16.toNat_shiftLeft,UInt8.toNat_toUInt16,e8]
  rw [Nat.mod_eq_of_lt (by rw [Nat.shiftLeft_eq]; omega),or_shift _ _ _ h0]
  omega

theorem getU32_toNat (p : List UInt8) :
    (getU32 p).toNat = value [p.getD 0 0,p.getD 1 0,p.getD 2 0,p.getD 3 0] := by
  have h0 := (p.getD 0 0).toNat_lt
  have h1 := (p.getD 1 0).toNat_lt
  have h2 := (p.getD 2 0).toNat_lt
  have h3 := (p.getD 3 0).toNat_lt
  have e8 : (8 : UInt32).toNat % 32 = 8 := rfl
  have e16 : (16 : UInt32).toNat % 32 = 16 := rfl
  have e24 : (24 : UInt32).toNat % 32 = 24 := rfl
  simp only [getU32,value,UInt32.toNat_or,UInt32.toNat_shiftLeft,UInt8.toNat_toUInt32,e8,e16,e24]
  generalize (p.getD 0 0).toNat = a at *
  generalize (p.getD 1 0).toNat = b at *
  generalize (p.getD 2 0).toNat = c at *
  generalize (p.getD 3 0).toNat = d at *
  have hb : b <<< 8 % 2 ^ 32 = b <<< 8 := Nat.mod_eq_of_lt (by rw [Nat.shiftLeft_eq]; omega)
  have hc : c <<< 16 % 2 ^ 32 = c <<< 16 := Nat.mod_eq_of_lt (by rw [Nat.shiftLeft_eq]; omega)
  have hd : d <<< 24 % 2 ^ 32 = d <<< 24 := Nat.mod_eq_of_lt (by rw [Nat.shiftLeft_eq]; omega)
  rw [hb,hc,hd,or_shift a b 8 h0,or_shift _ c 16 (by omega),or_shift _ d 24 (by omega)]
  omega

theorem getU64_toNat (p : List UInt8) :
    (getU64 p).toNat = value [p.getD 0 0,p.getD 1 0,p.getD 2 0,p.getD 3 0,
      p.getD 4 0,p.getD 5 0,p.getD 6 0,p.getD 7 0] := by
  have h (i : Nat) := (p.getD i 0).toNat_lt
  have := h 0; have := h 1; have := h 2; have := h 3
  have := h 4; have := h 5; have := h 6; have := h 7
  have z : (0 : UInt64).toNat = 0 := rfl
  have s7 := push_byte 0 (p.getD 7 0) (by simp)
  have s6 := push_byte _ (p.getD 6 0) (by rw [s7]; omega)
  have s5 := push_byte _ (p.getD 5 0) (by rw [s6]; omega)
  have s4 := push_byte _ (p.getD 4 0) (by rw [s5]; omega)
  have s3 := push_byte _ (p.getD 3 0) (by rw [s4]; omega)
  have s2 := push_byte _ (p.getD 2 0) (by rw [s3]; omega)
  have s1 := push_byte _ (p.getD 1 0) (by rw [s2]; omega)
  simp only [getU64,List.foldl_cons,List.foldl_nil,value]
  rw [push_byte _ (p.getD 0 0) (by rw [s1]; omega)]
  omega

@[simp] theorem getU16_putU16 (v : UInt16) (l : List UInt8) : getU16 (putU16 v ++ l) = v := by
  apply UInt16.toNat_inj.mp
  rw [getU16_toNat]
  exact (congrArg value (putU16_eq v)).trans (value_bytes 2 _ v.toNat_lt)

@[simp] theorem getU32_putU32 (v : UInt32) (l : List UInt8) : getU32 (putU32 v ++ l) = v := by
  apply UInt32.toNat_inj.mp
  rw [getU32_toNat]
  exact (congrArg value (putU32_eq v)).trans (value_bytes 4 _ v.toNat_lt)

@[simp] theorem getU64_putU64 (v : UInt64) (l : List UInt8) : getU64 (putU64 v ++ l) = v := by
  apply UInt64.toNat_inj.mp
  rw [getU64_toNat]
  exact (congrArg value (putU64_eq v)).trans (value_bytes 8 _ v.toNat_lt)

theorem getU16_alone (v : UInt16) : getU16 (putU16 v) = v := by
  have h := getU16_putU16 v []
  rwa [List.append_nil] at h

theorem getU32_alone (v : UInt32) : getU32 (putU32 v) = v := by
  have h := getU32_putU32 v []
  rwa [List.append_nil] at h

theorem getU64_alone (v : UInt64) : getU64 (putU64 v) = v := by
  have h := getU64_putU64 v []
  rwa [List.append_nil] at h

theorem putU16_getU16 {p : List UInt8} (h : 2 ≤ p.length) : putU16 (getU16 p) = p.take 2 := by
  have hfront : p.take 2 = [p.getD 0 0,p.getD 1 0] := by
    match p, h with
    | _ :: _ :: _, _ => rfl
  rw [hfront,putU16_eq,getU16_toNat]
  exact bytes_value [p.getD 0 0,p.getD 1 0]

theorem putU32_getU32 {p : List UInt8} (h : 4 ≤ p.length) : putU32 (getU32 p) = p.take 4 := by
  have hfront : p.take 4 = [p.getD 0 0,p.getD 1 0,p.getD 2 0,p.getD 3 0] := by
    match p, h with
    | _ :: _ :: _ :: _ :: _, _ => rfl
  rw [hfront,putU32_eq,getU32_toNat]
  exact bytes_value [p.getD 0 0,p.getD 1 0,p.getD 2 0,p.getD 3 0]

theorem putU64_getU64 {p : List UInt8} (h : 8 ≤ p.length) : putU64 (getU64 p) = p.take 8 := by
  have hfront : p.take 8 = [p.getD 0 0,p.getD 1 0,p.getD 2 0,p.getD 3 0,p.getD 4 0,p.getD 5 0,
      p.getD 6 0,p.getD 7 0] := by
    match p, h with
    | _ :: _ :: _ :: _ :: _ :: _ :: _ :: _ :: _, _ => rfl
  rw [hfront,putU64_eq,getU64_toNat]
  exact bytes_value [p.getD 0 0,p.getD 1 0,p.getD 2 0,p.getD 3 0,p.getD 4 0,p.getD 5 0,
    p.getD 6 0,p.getD 7 0]

@[simp] theorem putU16_length (v : UInt16) : (putU16 v).length = 2 := rfl

@[simp] theorem putU32_length (v : UInt32) : (putU32 v).length = 4 := rfl

@[simp] theorem putU64_length (v : UInt64) : (putU64 v).length = 8 := by
  rw [putU64,List.length_map,List.length_range]

inductive Command where
  | nop | listServices | listIdentity | listInterfaces | registerSession | unregisterSession
  | sendRRData | sendUnitData | indicateStatus | cancel
  deriving DecidableEq, Repr

def Command.code : Command → UInt16
  | .nop => 0x0000
  | .listServices => 0x0004
  | .listIdentity => 0x0063
  | .listInterfaces => 0x0064
  | .registerSession => 0x0065
  | .unregisterSession => 0x0066
  | .sendRRData => 0x006F
  | .sendUnitData => 0x0070
  | .indicateStatus => 0x0072
  | .cancel => 0x0073

def kEncapsulationHeaderSize : Nat := 24

structure EncapsulationHeader where
  command : UInt16 := 0
  length : UInt16 := 0
  session : UInt32 := 0
  status : UInt32 := 0
  context : UInt64 := 0
  options : UInt32 := 0
  deriving DecidableEq, Repr

def store (out : List UInt8) (off : Nat) (bs : List UInt8) : List UInt8 :=
  out.take off ++ bs ++ out.drop (off + bs.length)

def encodeHeader (out : List UInt8) (h : EncapsulationHeader) : List UInt8 :=
  let out := store out 0 (putU16 h.command)
  let out := store out 2 (putU16 h.length)
  let out := store out 4 (putU32 h.session)
  let out := store out 8 (putU32 h.status)
  let out := store out 12 (putU64 h.context)
  store out 20 (putU32 h.options)

def decodeHeader (p : List UInt8) : EncapsulationHeader where
  command := getU16 p
  length := getU16 (p.drop 2)
  session := getU32 (p.drop 4)
  status := getU32 (p.drop 8)
  context := getU64 (p.drop 12)
  options := getU32 (p.drop 20)

def headerBytes (h : EncapsulationHeader) : List UInt8 :=
  putU16 h.command ++ (putU16 h.length ++ (putU32 h.session ++ (putU32 h.status ++
    (putU64 h.context ++ putU32 h.options))))

@[simp] theorem headerBytes_length (h : EncapsulationHeader) : (headerBytes h).length = 24 := rfl

theorem store_next {off : Nat} (pre more bs : List UInt8) (h : pre.length = off) :
    store (pre ++ more) off bs = (pre ++ bs) ++ more.drop bs.length := by
  simp [store,← h,← List.drop_drop]

theorem encodeHeader_eq (out : List UInt8) (h : EncapsulationHeader) :
    encodeHeader out h = headerBytes h ++ out.drop 24 := by
  have s0 : store out 0 (putU16 h.command) = putU16 h.command ++ out.drop 2 :=
    store_next [] out _ rfl
  simp only [encodeHeader,s0]
  rw [store_next,store_next,store_next,store_next,store_next]
  · simp [headerBytes,List.drop_drop]
  all_goals rfl

@[simp] theorem encodeHeader_blank (h : EncapsulationHeader) :
    encodeHeader (List.replicate 24 0) h = headerBytes h := by
  rw [encodeHeader_eq]
  exact List.append_nil _

@[simp] theorem decodeHeader_headerBytes (h : EncapsulationHeader) (l : List UInt8) :
    decodeHeader (headerBytes h ++ l) = h := by
  have e2 : (headerBytes h ++ l).drop 2 = putU16 h.length ++ (putU32 h.session ++
      (putU32 h.status ++ (putU64 h.context ++ (putU32 h.options ++ l)))) := rfl
  have e4 : (headerBytes h ++ l).drop 4 = putU32 h.session ++ (putU32 h.status ++
      (putU64 h.context ++ (putU32 h.options ++ l))) := rfl
  have e8 : (headerBytes h ++ l).drop 8 = putU32 h.status ++ (putU64 h.context ++
      (putU32 h.options ++ l)) := rfl
  have e12 : (headerBytes h ++ l).drop 12 = putU64 h.context ++ (putU32 h.options ++ l) := rfl
  have e20 : (headerBytes h ++ l).drop 20 = putU32 h.options ++ l := rfl
  have e0 : getU16 (headerBytes h ++ l) = h.command := getU16_putU16 _ _
  simp only [decodeHeader,e0,e2,e4,e8,e12,e20,getU16_putU16,getU32_putU32,getU64_putU64]

theorem headerBytes_decodeHeader {p : List UInt8} (h : 24 ≤ p.length) :
    headerBytes (decodeHeader p) = p.take 24 := by
  have hrest (k : Nat) : (p.drop k).length = p.length - k := List.length_drop
  simp only [headerBytes,decodeHeader]
  rw [putU16_getU16 (by omega),putU16_getU16 (by rw [hrest]; omega),
    putU32_getU32 (by rw [hrest]; omega),putU32_getU32 (by rw [hrest]; omega),
    putU64_getU64 (by rw [hrest]; omega),putU32_getU32 (by rw [hrest]; omega)]
  -- Each field begins where the one before it ends.
  have hnext (k w : Nat) : p.drop (k + w) = (p.drop k).drop w := List.drop_drop.symm
  rw [hnext 12 8,← List.take_add,hnext 8 4,← List.take_add,hnext 4 4,← List.take_add,hnext 2 2,
    ← List.take_add,← List.take_add]

def Encapsulated (frame : List UInt8) : Prop :=
  frame.length = kEncapsulationHeaderSize + (decodeHeader frame).length.toNat

instance (frame : List UInt8) : Decidable (Encapsulated frame) :=
  inferInstanceAs (Decidable (frame.length = _))

theorem encapsulated_headerBytes {h : EncapsulationHeader} {body : List UInt8}
    (hlen : body.length = h.length.toNat) : Encapsulated (headerBytes h ++ body) := by
  rw [Encapsulated,decodeHeader_headerBytes,List.length_append,hlen]
  rfl

theorem decodeHeader_append (p l : List UInt8) (hp : 24 ≤ p.length) :
    decodeHeader (p ++ l) = decodeHeader p := by
  have hget (k i : Nat) (hi : k + i < 24) : ((p ++ l).drop k).getD i 0 = (p.drop k).getD i 0 := by
    simp only [List.getD_eq_getElem?_getD,List.getElem?_drop]
    rw [List.getElem?_append_left (by omega)]
  have h0 (i : Nat) (hi : i < 24) : (p ++ l).getD i 0 = p.getD i 0 := by
    simpa using hget 0 i (by omega)
  simp only [decodeHeader,getU16,getU32,getU64,List.foldl_cons,List.foldl_nil]
  rw [h0 0 (by omega),h0 1 (by omega),hget 2 0 (by omega),hget 2 1 (by omega)]
  simp only [hget 4 0 (by omega),hget 4 1 (by omega),hget 4 2 (by omega),hget 4 3 (by omega),
    hget 8 0 (by omega),hget 8 1 (by omega),hget 8 2 (by omega),hget 8 3 (by omega),
    hget 12 0 (by omega),hget 12 1 (by omega),hget 12 2 (by omega),hget 12 3 (by omega),
    hget 12 4 (by omega),hget 12 5 (by omega),hget 12 6 (by omega),hget 12 7 (by omega),
    hget 20 0 (by omega),hget 20 1 (by omega),hget 20 2 (by omega),hget 20 3 (by omega)]

theorem decodeHeader_front {p bs : List UInt8} (hpre : p <+: bs) (hp : 24 ≤ p.length) :
    decodeHeader bs = decodeHeader p := by
  obtain ⟨more,rfl⟩ := hpre
  exact decodeHeader_append p more hp

def packetSize (bs : List UInt8) : Option Nat :=
  if bs.length < kEncapsulationHeaderSize then none
  else some (kEncapsulationHeaderSize + (decodeHeader bs).length.toNat)

theorem packetSize_append (bs more : List UInt8) (k : Nat) (h : packetSize bs = some k) :
    packetSize (bs ++ more) = some k := by
  simp only [packetSize] at h ⊢
  split_ifs at h with hshort
  rw [decodeHeader_append _ _ (by simpa [kEncapsulationHeaderSize] using hshort),
    if_neg (by simp; omega)]
  exact h

theorem Encapsulated.header {frame : List UInt8} (h : Encapsulated frame) :
    kEncapsulationHeaderSize ≤ frame.length := by
  rw [h]
  exact Nat.le_add_right _ _

theorem Encapsulated.packetSize {frame : List UInt8} (h : Encapsulated frame) :
    packetSize frame = some frame.length := by
  have hlen := h.header
  rw [ControlLogix.packetSize,if_neg (by omega),← h]

theorem Encapsulated.unique {p q bs : List UInt8} (hp : Encapsulated p) (hq : Encapsulated q)
    (hpre : p <+: bs) (hqre : q <+: bs) : p = q := by
  have hpb := hp.packetSize
  have hqb := hq.packetSize
  obtain ⟨more,rfl⟩ := hpre
  obtain ⟨rest,hrest⟩ := hqre
  have hsize := packetSize_append q rest _ hqb
  rw [hrest,packetSize_append p more _ hpb] at hsize
  exact List.append_inj_left hrest.symm (Option.some.inj hsize)

end ControlLogix
