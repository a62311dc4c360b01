import ControlLogix.Tag.Requests

namespace ControlLogix

open SyntheticServer (answer)

namespace Tag

def getBool (g : Tag) (off : Nat) : Bool := inBounds off 1 && g.data.bytes.getD off 0 != 0

def getInt8 (g : Tag) (off : Nat) : Int8 :=
  if inBounds off 1 then (g.data.bytes.getD off 0).toInt8 else 0

def getInt16 (g : Tag) (off : Nat) : Int16 :=
  if inBounds off 2 then (getU16 (g.data.bytes.drop off)).toInt16 else 0

def getInt32 (g : Tag) (off : Nat) : Int32 :=
  if inBounds off 4 then (getU32 (g.data.bytes.drop off)).toInt32 else 0

def getInt64 (g : Tag) (off : Nat) : Int64 :=
  if inBounds off 8 then (getU64 (g.data.bytes.drop off)).toInt64 else 0

def getUint8 (g : Tag) (off : Nat) : UInt8 :=
  if inBounds off 1 then g.data.bytes.getD off 0 else 0

def getUint16 (g : Tag) (off : Nat) : UInt16 :=
  if inBounds off 2 then getU16 (g.data.bytes.drop off) else 0

def getUint32 (g : Tag) (off : Nat) : UInt32 :=
  if inBounds off 4 then getU32 (g.data.bytes.drop off) else 0

def getUint64 (g : Tag) (off : Nat) : UInt64 :=
  if inBounds off 8 then getU64 (g.data.bytes.drop off) else 0

-- Floats by their bit patterns, as in the setters.
def getFloat32 (g : Tag) (off : Nat) : UInt32 :=
  if !inBounds off 4 then 0 else getU32 (g.data.bytes.drop off)

def getFloat64 (g : Tag) (off : Nat) : UInt64 :=
  if !inBounds off 8 then 0 else getU64 (g.data.bytes.drop off)

-- The count that is returned, and the caller's buffer afterwards.
def getString (g : Tag) (buf : Option (List UInt8)) : Nat × Option (List UInt8) :=
  match buf with
  | none => (0,none)
  | some buf =>
    if g.dataLen < 4 ∨ buf.length = 0 then (0,some buf)
    else
      let len := (getU32 g.data.bytes).toNat
      let n := if len < g.dataLen - 4 then len else g.dataLen - 4
      let n := if buf.length - 1 < n then buf.length - 1 else n
      (n,some (store (store buf 0 ((g.data.bytes.drop 4).take n)) n [0]))

inductive Getter where
  | bool (off : Nat)
  | int8 (off : Nat)
  | int16 (off : Nat)
  | int32 (off : Nat)
  | int64 (off : Nat)
  | uint8 (off : Nat)
  | uint16 (off : Nat)
  | uint32 (off : Nat)
  | uint64 (off : Nat)
  | float32 (off : Nat)
  | float64 (off : Nat)
  | string (buf : Option (List UInt8))

inductive Reading where
  | bool (v : Bool)
  | int8 (v : Int8)
  | int16 (v : Int16)
  | int32 (v : Int32)
  | int64 (v : Int64)
  | uint8 (v : UInt8)
  | uint16 (v : UInt16)
  | uint32 (v : UInt32)
  | uint64 (v : UInt64)
  | float32 (bits : UInt32)
  | float64 (bits : UInt64)
  | string (n : Nat) (buf : Option (List UInt8))
  deriving DecidableEq

def get (g : Tag) : Getter → Reading
  | .bool off => .bool (g.getBool off)
  | .int8 off => .int8 (g.getInt8 off)
  | .int16 off => .int16 (g.getInt16 off)
  | .int32 off => .int32 (g.getInt32 off)
  | .int64 off => .int64 (g.getInt64 off)
  | .uint8 off => .uint8 (g.getUint8 off)
  | .uint16 off => .uint16 (g.getUint16 off)
  | .uint32 off => .uint32 (g.getUint32 off)
  | .uint64 off => .uint64 (g.getUint64 off)
  | .float32 off => .float32 (g.getFloat32 off)
  | .float64 off => .float64 (g.getFloat64 off)
  | .string buf => .string (g.getString buf).1 (g.getString buf).2

theorem get_congr {g h : Tag} (hdata : g.data.bytes = h.data.bytes) (hlen : g.dataLen = h.dataLen)
    (f : Getter) : g.get f = h.get f := by
  cases f with
  | string buf =>
    cases buf with
    | none => rfl
    | some buf => simp only [get,getString,hdata,hlen]
  | _ => simp only [get,getBool,getInt8,getInt16,getInt32,getInt64,getUint8,getUint16,getUint32,
      getUint64,getFloat32,getFloat64,hdata]

theorem getUint8_bytes (g : Tag) {i : Nat} (hi : i < kMaxDataSize) :
    g.getUint8 i = g.data.bytes.getD i 0 := by
  simp only [kMaxDataSize] at hi
  rw [getUint8,if_pos (by simp [inBounds,kMaxDataSize]; omega)]

theorem get_same_iff {g h : Tag} (hlen : g.dataLen = h.dataLen) : (∀ f, g.get f = h.get f) ↔
    ∀ i, i < kMaxDataSize → g.data.bytes.getD i 0 = h.data.bytes.getD i 0 := by
  constructor
  · intro hsame i hi
    have hbyte := hsame (.uint8 i)
    rw [get,get,Reading.uint8.injEq,getUint8_bytes g hi,getUint8_bytes h hi] at hbyte
    exact hbyte
  · intro hsame
    refine get_congr (List.ext_getElem ?_ fun i hg hh => ?_) hlen
    · rw [g.data.length_eq,h.data.length_eq]
    · have hbyte := hsame i (by rw [g.data.length_eq] at hg; exact hg)
      simpa [List.getD_eq_getElem?_getD,hg,hh] using hbyte

-- The value the reply to a read supplies: none unless the reply was taken, without a CIP error
-- and with a type code.
def supplied (m : ExplicitMessage) (t : TcpConnection) (w : World) : List UInt8 :=
  if (m.poll t w).1 = .ok ∧ (m.poll t w).2.1.resultCode = 0 ∧ 2 ≤ (m.poll t w).2.1.dataLen then
    ((m.poll t w).2.1.dataBytes.drop 2).take kMaxDataSize
  else []

-- The ways in which an operation comes to its end, whatever message it is polled with.
inductive Ends : Tag → List UInt8 → Tag → Prop
  | waits {g g' : Tag} {m : ExplicitMessage} {t : TcpConnection} {w : World} {value : List UInt8} :
      (g.poll m t w).1 = .pending → Ends (g.poll m t w).2.1 value g' → Ends g value g'
  | polled {g : Tag} {m : ExplicitMessage} {t : TcpConnection} {w : World} :
      (g.poll m t w).1 ≠ .pending → Ends g (supplied m t w) (g.poll m t w).2.1
  | aborted {g : Tag} {m : ExplicitMessage} : Ends g [] (g.abort m).1

theorem store_nil (bs : List UInt8) : store bs 0 [] = bs := rfl

theorem supplied_length (m : ExplicitMessage) (t : TcpConnection) (w : World) :
    (supplied m t w).length ≤ kMaxDataSize := by
  rw [supplied]
  split
  · rw [List.length_take]
    exact Nat.min_le_left _ _
  · exact Nat.zero_le _

theorem poll_supplied {g : Tag} (hg : g.state = .reading) (hlen : g.dataLen = 0)
    (m : ExplicitMessage) (t : TcpConnection) (w : World) :
    (g.poll m t w).1 = .pending ∧ (g.poll m t w).2.1 = g ∨
      (g.poll m t w).1 ≠ .pending ∧
      (g.poll m t w).2.1.data.bytes = store g.data.bytes 0 (supplied m t w) ∧
        (g.poll m t w).2.1.dataLen = (supplied m t w).length ∧
        (g.poll m t w).2.1.inFlight = false := by
  rw [poll_settle (by rw [inFlight,hg]; rfl),supplied]
  rcases m.poll t w with ⟨st,m',t',w'⟩
  simp only
  by_cases hwait : st = .pending
  · rw [if_pos hwait]
    exact Or.inl ⟨rfl,rfl⟩
  rw [if_neg hwait]
  refine Or.inr ?_
  by_cases hok : st = .ok
  · rw [if_pos hok]
    simp only [settle,hg,hok,true_and]
    by_cases hcode : m'.resultCode = 0
    · rw [if_neg (not_not.mpr hcode)]
      by_cases htwo : 2 ≤ m'.dataLen
      · rw [if_pos htwo,if_pos ⟨hcode,htwo⟩]
        exact ⟨by simp,rfl,rfl,rfl⟩
      · rw [if_neg htwo,if_neg (fun h => htwo h.2)]
        exact ⟨by simp,(store_nil _).symm,hlen,rfl⟩
    · rw [if_pos hcode,if_neg (fun h => hcode h.1)]
      exact ⟨by simp,(store_nil _).symm,hlen,rfl⟩
  · rw [if_neg hok,if_neg (fun h => hok h.1)]
    exact ⟨hwait,(store_nil _).symm,hlen,rfl⟩

theorem Ends.stored {g g' : Tag} {value : List UInt8} (h : Ends g value g')
    (hg : g.state = .reading) (hlen : g.dataLen = 0) : value.length ≤ kMaxDataSize ∧
      g'.data.bytes = store g.data.bytes 0 value ∧ g'.dataLen = value.length ∧
      g'.inFlight = false := by
  induction h with
  | @waits g g' m t w value hwait hend ih =>
    rcases poll_supplied hg hlen m t w with ⟨_,heq⟩ | ⟨hne,_⟩
    · rw [heq] at ih
      exact ih hg hlen
    · exact absurd hwait hne
  | @polled g m t w hne =>
    rcases poll_supplied hg hlen m t w with ⟨hwait,_⟩ | ⟨_,hdata,hsize,hover⟩
    · exact absurd hwait hne
    · exact ⟨supplied_length m t w,hdata,hsize,hover⟩
  | aborted => exact ⟨Nat.zero_le _,(store_nil _).symm,rfl,rfl⟩

theorem poll_over {g : Tag} (h : g.inFlight = false) (m : ExplicitMessage) (t : TcpConnection)
    (w : World) : (g.poll m t w).2.1 = g := by
  have hnot : g.state ≠ .reading ∧ g.state ≠ .writing := by
    rw [← not_or,← g.inFlight_iff,h]
    exact Bool.false_ne_true
  rw [poll,if_pos hnot]
  cases g.state <;> rfl

theorem read_taken {g : Tag} {m : ExplicitMessage} {t : TcpConnection} {sessionHandle : UInt32}
    {name : Option (List UInt8)} {elementCount timeoutMs : UInt32} {cpuSlot : UInt8} {w : World}
    (h : (g.read m t sessionHandle name elementCount timeoutMs cpuSlot w).1 = .pending) :
    (g.read m t sessionHandle name elementCount timeoutMs cpuSlot w).2.1 =
      {g with dataLen := 0, resultCode := 0, state := .reading} := by
  cases name with
  | none => cases h
  | some name =>
    simp only [read,startRead] at h ⊢
    split_ifs at h ⊢ <;> first | rfl | exact absurd h ‹_›

def Reads (g : Tag) (value : List UInt8) (g' : Tag) : Prop :=
  ∃ m t sessionHandle name elementCount timeoutMs cpuSlot w,
    (g.read m t sessionHandle name elementCount timeoutMs cpuSlot w).1 = .pending ∧
      Ends (g.read m t sessionHandle name elementCount timeoutMs cpuSlot w).2.1 value g'

theorem Reads.stored {g g' : Tag} {value : List UInt8} (h : Reads g value g') :
    value.length ≤ kMaxDataSize ∧ g'.data.bytes = store g.data.bytes 0 value ∧
      g'.dataLen = value.length ∧ g'.inFlight = false := by
  obtain ⟨m,t,sessionHandle,name,elementCount,timeoutMs,cpuSlot,w,hpend,hends⟩ := h
  rw [read_taken hpend] at hends
  exact hends.stored rfl rfl

theorem store_byte {out : List UInt8} {off : Nat} (h : off ≤ out.length) (bs : List UInt8)
    (i : Nat) : (store out off bs).getD i 0 =
      if off ≤ i ∧ i < off + bs.length then bs.getD (i - off) 0 else out.getD i 0 := by
  have hoff : (out.take off).length = off := List.length_take_of_le h
  simp only [store,List.getD_eq_getElem?_getD]
  by_cases hlo : i < off
  · rw [if_neg (fun hi => absurd hi.1 (Nat.not_le.mpr hlo)),List.append_assoc,
      List.getElem?_append_left (by rw [hoff]; exact hlo),List.getElem?_take_of_lt hlo]
  rw [Nat.not_lt] at hlo
  by_cases hhi : i < off + bs.length
  · rw [if_pos ⟨hlo,hhi⟩,List.append_assoc,List.getElem?_append_right (by rw [hoff]; exact hlo),
      hoff,List.getElem?_append_left (by omega)]
  · rw [if_neg (fun hi => hhi hi.2),List.getElem?_append_right (by
      rw [List.length_append,hoff]; exact Nat.not_lt.mp hhi),List.length_append,hoff,
      List.getElem?_drop,Nat.add_sub_cancel' (Nat.not_lt.mp hhi)]

theorem store_same_iff (bs cs value : List UInt8) :
    (∀ i, i < kMaxDataSize → (store bs 0 value).getD i 0 = (store cs 0 value).getD i 0) ↔
      ∀ i, value.length ≤ i → i < kMaxDataSize → bs.getD i 0 = cs.getD i 0 := by
  simp only [store_byte (Nat.zero_le _),Nat.zero_le,Nat.zero_add,true_and]
  constructor
  · intro h i hlo hhi
    have hi := h i hhi
    rw [if_neg (Nat.not_lt.mpr hlo),if_neg (Nat.not_lt.mpr hlo)] at hi
    exact hi
  · intro h i hhi
    by_cases hi : i < value.length
    · rw [if_pos hi,if_pos hi]
    · rw [if_neg hi,if_neg hi]
      exact h i (Nat.not_lt.mp hi) hhi

theorem zeros_length : (List.replicate kMaxDataSize (0 : UInt8)).length = kMaxDataSize :=
  List.length_replicate

def zeros : Buffer kMaxDataSize := ⟨List.replicate kMaxDataSize 0,zeros_length⟩

theorem zeros_room (value : List UInt8) : 0 + (value.take kMaxDataSize).length ≤ kMaxDataSize := by
  rw [Nat.zero_add,List.length_take]
  exact Nat.min_le_left _ _

-- A tag that holds a value and has never held another.
def fresh (value : List UInt8) : Tag where
  data := zeros.write 0 (value.take kMaxDataSize) (zeros_room value)
  dataLen := value.length

theorem fresh_bytes {value : List UInt8} (h : value.length ≤ kMaxDataSize) :
    (fresh value).data.bytes = store zeros.bytes 0 value := by
  have hfront : (fresh value).data.bytes = store zeros.bytes 0 (value.take kMaxDataSize) := rfl
  rw [hfront,List.take_of_length_le h]

theorem zeros_byte (i : Nat) : zeros.bytes.getD i 0 = 0 := by
  rw [zeros,List.getD_eq_getElem?_getD]
  rw [List.getElem?_replicate]
  split <;> rfl

theorem no_stale_values_iff {g g' : Tag} {value : List UInt8} (h : Reads g value g') :
    (∀ m t w, (g'.poll m t w).2.1 = g') ∧
    ((∀ f, g'.get f = (fresh value).get f) ↔
      ∀ i, value.length ≤ i → i < kMaxDataSize → g.data.bytes.getD i 0 = 0) ∧
    ∀ k k', Reads k value k' → ((∀ f, g'.get f = k'.get f) ↔
      ∀ i, value.length ≤ i → i < kMaxDataSize →
        g.data.bytes.getD i 0 = k.data.bytes.getD i 0) := by
  obtain ⟨hvalue,hdata,hlen,hover⟩ := h.stored
  refine ⟨poll_over hover,?_,fun k k' hk => ?_⟩
  · rw [get_same_iff hlen,hdata,fresh_bytes hvalue,store_same_iff]
    simp only [zeros_byte]
  · obtain ⟨_,hkdata,hklen,_⟩ := hk.stored
    rw [get_same_iff (hlen.trans hklen.symm),hdata,hkdata,store_same_iff]

end Tag

namespace Sample

def replySeven : Reply := answer 1 [0xCC,0,0,0,0xC4,0,7,0,0,0] (by decide) (by decide)

def readSeven : Access where
  kind := .read
  tag := {data := blank}
  name := [0x41]
  timeoutMs := 1000
  sessionHandle := 7
  script := {sends := [.ok 100],
             recvs := [.ok replySeven.bytes]}
  polls := 1

def sevenBegun : Status × Tag × ExplicitMessage × World :=
  readSeven.tag.read {} {fd := 3, state := .ok} 7 (some [0x41]) 1 1000 kNoRoute
    {idle with script := readSeven.script}

def seven : Status × Tag × ExplicitMessage × TcpConnection × World :=
  sevenBegun.2.1.poll sevenBegun.2.2.1 {fd := 3, state := .ok} sevenBegun.2.2.2

def readLate : Status × Tag × ExplicitMessage × World :=
  seven.2.1.read seven.2.2.1 seven.2.2.2.1 7 (some [0x41]) 1 1000 kNoRoute seven.2.2.2.2

def sevenLate : Status × Tag × ExplicitMessage × TcpConnection × World :=
  readLate.2.1.poll readLate.2.2.1 seven.2.2.2.1 {readLate.2.2.2 with script := {ticks := [1000]}}

theorem seven_reads : Tag.Reads readSeven.tag [7,0,0,0] seven.2.1 := by
  refine ⟨{},{fd := 3, state := .ok},7,some [0x41],1,1000,kNoRoute,
    {idle with script := readSeven.script},by decide +kernel,?_⟩
  have hvalue : Tag.supplied sevenBegun.2.2.1 {fd := 3, state := .ok} sevenBegun.2.2.2 =
      [7,0,0,0] := by
    decide +kernel
  rw [← hvalue]
  exact .polled (by decide +kernel)

theorem sevenLate_reads : Tag.Reads seven.2.1 [] sevenLate.2.1 := by
  refine ⟨seven.2.2.1,seven.2.2.2.1,7,some [0x41],1,1000,kNoRoute,seven.2.2.2.2,
    by decide +kernel,?_⟩
  have hvalue : Tag.supplied readLate.2.2.1 seven.2.2.2.1
      {readLate.2.2.2 with script := {ticks := [1000]}} = [] := by
    decide +kernel
  rw [← hvalue]
  exact .polled (by decide +kernel)

theorem seven_is_fresh : seven.2.1.get (.int32 0) = (Tag.fresh [7,0,0,0]).get (.int32 0) :=
  (Tag.no_stale_values_iff seven_reads).2.1.mpr (fun i _ _ => Tag.zeros_byte i) (.int32 0)

theorem seven_outlives_its_read :
    seven.1 = .ok ∧ sevenLate.1 = .timeout ∧ sevenLate.2.1.dataLen = 0 ∧
      Tag.Reads seven.2.1 [] sevenLate.2.1 ∧ sevenLate.2.1.get (.int32 0) = .int32 7 ∧
      (Tag.fresh []).get (.int32 0) = .int32 0 :=
  ⟨by decide +kernel,by decide +kernel,by decide +kernel,sevenLate_reads,by decide +kernel,
    by decide +kernel⟩

end Sample

end ControlLogix
