import ControlLogix.Server.ReadAfterWrite
import ControlLogix.Sketch.TagValues
import ControlLogix.Tag.Strings

namespace ControlLogix

open LittleEndian

def Tag.Kind.type : Tag.Kind → DataType
  | .bool => .bool
  | .int8 => .sint
  | .int16 => .int
  | .int32 => .dint
  | .int64 => .lint
  | .uint8 => .usint
  | .uint16 => .uint
  | .uint32 => .udint
  | .uint64 => .ulint
  | .float32 => .real
  | .float64 => .lreal

theorem Tag.Kind.type_sized (k : Tag.Kind) : k.type.code ≠ DataType.code .string ∧
    dataTypeElementSize (DataType.cast k.type.code) = k.width := by
  cases k <;> decide

namespace ListTags

theorem readLogixString_eq (p : List UInt8) :
    readLogixString p 46 = peek p 4 (min (getU32 p).toNat 45) := by
  simp only [readLogixString]
  congr 1
  split_ifs with h
  · rw [UInt32.lt_iff_toNat_lt] at h
    exact (Nat.min_eq_right h.le).symm
  · rw [UInt32.lt_iff_toNat_lt,not_lt] at h
    exact (Nat.min_eq_left h).symm

theorem printValue_none (type : UInt8) (v : List UInt8) :
    printValue (putU16 type.toUInt16 ++ v) = none ↔ type = DataType.code .string ∧ 4 ≤ v.length ∧
      v.length < 4 + min (getU32 v).toNat 45 := by
  have hlen : ¬ (putU16 type.toUInt16 ++ v).length < 2 := by
    rw [List.length_append,putU16_length]
    omega
  have hdrop : (putU16 type.toUInt16 ++ v).drop 2 = v := rfl
  simp only [printValue,if_neg hlen,hdrop,getU16_putU16,UInt8.toUInt8_toUInt16]
  by_cases htype : type = DataType.code .string
  · subst htype
    simp [DataType.code,readLogixString_eq,peek]
    split_ifs <;> simp <;> omega
  · have hother : type ≠ 0xD0 := htype
    simp [hother,htype,← apply_ite some]

-- A value as a setter of a tag takes it.
inductive Given where
  | typed (k : Tag.Kind) (v : k.Value)
  | string (s : List UInt8)

namespace Given

def type : Given → DataType
  | .typed k _ => k.type
  | .string _ => .string

def put (g : Tag) : Given → Tag
  | .typed k v => g.set (k.setter 0 v)
  | .string s => g.setString (some s)

def bytes : Given → List UInt8
  | .typed k v => LittleEndian.bytes k.width (k.encode v)
  | .string s => putU32 (UInt32.ofNat (min s.length Tag.kMaxStringSize)) ++ s.take Tag.kMaxStringSize

-- What is printed of it: of a string the first 45 characters, and no more than a C string shows.
def prints : Given → Printed
  | .typed .bool v => .bool v
  | .typed .int8 v => .integer v.toInt
  | .typed .int16 v => .integer v.toInt
  | .typed .int32 v => .integer v.toInt
  | .typed .int64 v => .integer v.toInt
  | .typed .uint8 v => .integer v.toNat
  | .typed .uint16 v => .integer v.toNat
  | .typed .uint32 v => .integer v.toNat
  | .typed .uint64 v => .integer v.toNat
  | .typed .float32 v => .real v
  | .typed .float64 v => .lreal v
  | .string s => .text (Tag.cString (s.take 45))

theorem bytes_length (x : Given) : x.bytes.length ≤ Tag.kMaxDataSize := by
  cases x with
  | typed k v =>
    rw [bytes,length_bytes]
    cases k <;> decide
  | string s =>
    simp only [bytes,List.length_append,putU32_length,List.length_take,Tag.kMaxStringSize,
      Tag.kMaxDataSize]
    omega

theorem put_value {x : Given} {g : Tag} (htype : g.dataType = x.type.code) :
    (x.put g).dataType = x.type.code ∧ ∃ len, (x.put g).writeLength 1 = some len ∧
      (x.put g).data.bytes.take len = x.bytes := by
  cases x with
  | typed k v =>
    have hin : Tag.inBounds 0 k.width = true := by cases k <;> decide
    have hdata : ((typed k v).put g).data.bytes =
        LittleEndian.bytes k.width (k.encode v) ++ g.data.bytes.drop k.width := by
      simp only [put,Tag.set_eq,Tag.setBytes,length_bytes,dif_pos hin,Buffer.write,store,
        List.take_zero,List.nil_append,Nat.zero_add]
    have hkept : ((typed k v).put g).dataType = (typed k v).type.code :=
      (Tag.set_kept g k 0 v).2.1.trans htype
    refine ⟨hkept,k.width,?_,?_⟩
    · have hin' : k.width ≠ 0 ∧ k.width ≤ Tag.kMaxDataSize := by cases k <;> decide
      have hroom : ¬ (k.width = 0 ∨ Tag.kMaxDataSize / k.width < (1 : UInt32).toNat) := by
        have hone := Nat.div_pos hin'.2 (Nat.pos_of_ne_zero hin'.1)
        rw [UInt32.toNat_one]
        omega
      simp only [Tag.writeLength,hkept,type,if_neg k.type_sized.1,k.type_sized.2,if_neg hroom]
      rw [UInt32.toNat_one,Nat.one_mul]
    · rw [hdata,bytes]
      exact List.take_left' (length_bytes _ _)
  | string s =>
    exact ⟨(Tag.setString_type g s).trans htype,_,Tag.setString_writeLength htype s 1,
      Tag.setString_payload g s⟩

theorem printValue_bytes (x : Given) :
    printValue (putU16 x.type.code.toUInt16 ++ x.bytes) = some x.prints := by
  have hlen : ¬ (putU16 x.type.code.toUInt16 ++ x.bytes).length < 2 := by
    rw [List.length_append,putU16_length]
    omega
  have hdrop : (putU16 x.type.code.toUInt16 ++ x.bytes).drop 2 = x.bytes := rfl
  simp only [printValue,if_neg hlen,hdrop,getU16_putU16,UInt8.toUInt8_toUInt16]
  cases x with
  | typed k v =>
    cases k with
    | bool => cases v <;> rfl
    | int8 =>
      rw [show bytes (typed .int8 v) = [v.toUInt8] from (Tag.putByte_eq _).symm]
      simp [type,Tag.Kind.type,prints,DataType.code]
    | int16 =>
      rw [show bytes (typed .int16 v) = putU16 v.toUInt16 from (putU16_eq _).symm]
      simp [type,Tag.Kind.type,prints,DataType.code,getU16_alone]
    | int32 =>
      rw [show bytes (typed .int32 v) = putU32 v.toUInt32 from (putU32_eq _).symm]
      simp [type,Tag.Kind.type,prints,DataType.code,getU32_alone]
    | int64 =>
      rw [show bytes (typed .int64 v) = putU64 v.toUInt64 from (putU64_eq _).symm]
      simp [type,Tag.Kind.type,prints,DataType.code,getU64_alone]
    | uint8 =>
      rw [show bytes (typed .uint8 v) = [v] from (Tag.putByte_eq _).symm]
      simp [type,Tag.Kind.type,prints,DataType.code]
    | uint16 =>
      rw [show bytes (typed .uint16 v) = putU16 v from (putU16_eq _).symm]
      simp [type,Tag.Kind.type,prints,DataType.code,getU16_alone]
    | uint32 =>
      rw [show bytes (typed .uint32 v) = putU32 v from (putU32_eq _).symm]
      simp [type,Tag.Kind.type,prints,DataType.code,getU32_alone]
    | uint64 =>
      rw [show bytes (typed .uint64 v) = putU64 v from (putU64_eq _).symm]
      simp [type,Tag.Kind.type,prints,DataType.code,getU64_alone]
    | float32 =>
      rw [show bytes (typed .float32 v) = putU32 v from (putU32_eq _).symm]
      simp [type,Tag.Kind.type,prints,DataType.code,getU32_alone]
    | float64 =>
      rw [show bytes (typed .float64 v) = putU64 v from (putU64_eq _).symm]
      simp [type,Tag.Kind.type,prints,DataType.code,getU64_alone]
  | string s =>
    have hcount : (UInt32.ofNat (min s.length Tag.kMaxStringSize)).toNat =
        min s.length Tag.kMaxStringSize := by
      rw [UInt32.toNat_ofNat']
      simp only [Tag.kMaxStringSize,Tag.kMaxDataSize]
      omega
    have hfour : 4 ≤ (bytes (.string s)).length := by
      simp only [bytes,List.length_append,putU32_length]
      omega
    have hchars : (bytes (.string s)).drop 4 = s.take Tag.kMaxStringSize :=
      List.drop_left' (putU32_length _)
    have hmin : min (min (min s.length Tag.kMaxStringSize) 45) Tag.kMaxStringSize =
        min s.length 45 := by
      simp only [Tag.kMaxStringSize,Tag.kMaxDataSize]
      omega
    have hread : readLogixString (bytes (.string s)) 46 = some (s.take 45) := by
      rw [readLogixString_eq,bytes,getU32_putU32,hcount,← bytes,peek_eq,hchars,List.take_take,hmin,
        Nat.min_comm,← List.take_eq_take_min]
      simp only [bytes,List.length_append,putU32_length,List.length_take]
      omega
    simp [type,prints,DataType.code,hread,hfour]

end Given

-- A reply to a read brings the type and the value that the target holds under the name, or an
-- error.
def Tells (held : List UInt8 → Option (UInt8 × List UInt8)) (o : Option Run) (script : Script) :
    Prop :=
  ∀ r ∈ o, r.sketch.phase = .readValues → r.sketch.enumerating = true →
    ∀ tag ∈ r.sketch.inventory.tags[r.sketch.cursor]?,
      (r.sketch.msg.poll r.sketch.conn (r.world.hear script)).1 = .ok →
      (r.sketch.msg.poll r.sketch.conn (r.world.hear script)).2.1.resultCode = 0 →
        (held tag.name).map (fun v => putU16 v.1.toUInt16 ++ v.2) =
          some (r.sketch.msg.poll r.sketch.conn (r.world.hear script)).2.1.dataBytes

instance (held : List UInt8 → Option (UInt8 × List UInt8)) (o : Option Run) (script : Script) :
    Decidable (Tells held o script) :=
  inferInstanceAs (Decidable (∀ r ∈ o, _ → _ → ∀ tag ∈ _, _ → _ → _))

def Line.Shows (held : List UInt8 → Option (UInt8 × List UInt8)) : Line → Prop
  | .value tag printed =>
    ∃ v, held tag.name = some v ∧ printed = printValue (putU16 v.1.toUInt16 ++ v.2)
  | .failed _ _ _ => True

theorem shown_loop {held : List UInt8 → Option (UInt8 × List UInt8)} {s s' : ListTags}
    {w w' : World} (h : ∀ line ∈ s.values, line.Shows held)
    (htells : s.phase = .readValues → s.enumerating = true →
      ∀ tag ∈ s.inventory.tags[s.cursor]?, (s.msg.poll s.conn w).1 = .ok →
        (s.msg.poll s.conn w).2.1.resultCode = 0 →
          (held tag.name).map (fun v => putU16 v.1.toUInt16 ++ v.2) =
            some (s.msg.poll s.conn w).2.1.dataBytes)
    (hloop : s.loop w = some (s',w')) : ∀ line ∈ s'.values, line.Shows held := by
  have hturned := s.loop_turned w
  rw [hloop] at hturned
  cases hturned with
  | @answered msg conn _ _ _ _ _ hbatch =>
    rcases finishBatch_cases hbatch with ⟨_,_,⟨_,rfl⟩ | ⟨_,rfl⟩⟩
    · exact h
    · exact h
  | @told tag _ msg conn _ _ hs htag hgoes hpoll _ hline =>
    intro line' hmem
    rcases List.mem_append.mp hmem with hold | hnew
    · exact h line' hold
    rw [List.mem_singleton.mp hnew,hline]
    split_ifs with hok
    · obtain ⟨rfl,hcode⟩ := hok
      have hdata := htells hs hgoes tag htag
      simp only [hpoll,hcode,forall_const] at hdata
      obtain ⟨v,hheld,hv⟩ := Option.map_eq_some_iff.mp hdata
      exact ⟨v,hheld,by rw [hv]⟩
    · trivial
  | _ => exact h

section

open SyntheticServer

theorem server_tells {s : SyntheticServer} {name : List UInt8}
    (hname : name.length ≤ kMaxSymbolicName) {v : TagValue}
    (hheld : s.memory (some (decodeAscii name)) = some v) (hfits : v.2.length ≤ kMaxValue)
    {m : ExplicitMessage} {t : TcpConnection} {sessionHandle : UInt32} {w : World} {n : Nat}
    (hsend : (startReadTag m t sessionHandle name w).1 = .pending)
    (hserved : s.Served n (startReadTag m t sessionHandle name w).2.1 t
      (startReadTag m t sessionHandle name w).2.2) :
    ∃ m' w', polled n (startReadTag m t sessionHandle name w).2.1 t
        (startReadTag m t sessionHandle name w).2.2 = (.ok,m',t,w') ∧
      m'.resultCode = 0 ∧ m'.dataBytes = putU16 v.1.toUInt16 ++ v.2 := by
  have hget : Dict.get (parseSymbolicPath (appendSymbolic name)) s.tags = some v := by
    rw [parseSymbolicPath_append hname]
    exact hheld
  have hserve : s.handleCipRequest sessionHandle (readRequest name).service (readRequest name).path
      (readRequest name).rest =
        some ([SyntheticServer.readTag ||| 0x80,0,0,0] ++ putU16 v.1.toUInt16 ++ v.2,s) := by
    rw [← handleReadTag_found hget]
    rfl
  have hsmall : ([SyntheticServer.readTag ||| 0x80,0,0,0] ++ putU16 v.1.toUInt16 ++ v.2).length ≤
      ExplicitMessage.kMaxCipData := by
    simp only [List.length_append,putU16_length,List.length_cons,List.length_nil,kMaxValue,
      ExplicitMessage.kMaxCipData] at hfits ⊢
    omega
  obtain ⟨m',w',hrun,_,hcode,hdata⟩ := hserved.answered (r := readRequest name)
    (fun hslot => by cases hslot) hsend hserve (by simp) rfl hsmall
  exact ⟨m',w',hrun,hcode,hdata⟩

theorem turn_done (k : Stack) (a : Access) : ∃ d : Done, (k.turn a).history = d :: k.history ∧
    d.access = a ∧ (d.taken = true → a.name.length ≤ kMaxSymbolicName) := by
  simp only [Stack.turn]
  split_ifs with htaken
  · obtain ⟨_,_,hname,_⟩ := Stack.begun_taken htaken
    exact ⟨_,rfl,rfl,fun _ => hname⟩
  · exact ⟨_,rfl,rfl,fun h => by cases h⟩

theorem named_run {k : Stack} (hnew : k.history = []) (as : List Access) :
    ∀ d ∈ (Runs.run Stack.turn k as).history, d.taken = true →
      d.access.name.length ≤ kMaxSymbolicName := by
  refine @Runs.invariant_always _ _ Stack.turn (fun k => ∀ d ∈ k.history, d.taken = true →
    d.access.name.length ≤ kMaxSymbolicName) (fun k a h => ?_) k (by rw [hnew]; simp) as
  obtain ⟨d,hd,rfl,hname⟩ := turn_done k a
  rw [hd]
  exact List.forall_mem_cons.mpr ⟨hname,h⟩

theorem last_write {mem : Memory Name TagValue} {k : Stack} (h : Stack.Serving mem k) {last : Done}
    {later earlier : List Done} (hsplit : k.history = later ++ last :: earlier)
    (hwrote : last.wrote = true)
    (hothers : ∀ e ∈ later, e.wrote = true → e.access.name ≠ last.access.name ∧
      (isAscii last.access.name = true ∨ isAscii e.access.name = true)) :
    k.server.memory last.access.key = some (last.access.tag.dataType,last.access.value) := by
  have heffect : last.effect =
      some (last.access.key,last.access.tag.dataType,last.access.value) := if_pos hwrote
  rw [h.memory,hsplit,List.filterMap_append,List.filterMap_cons_some heffect]
  refine Memory.after_last (fun e he => ?_) mem
  obtain ⟨d,hd,heq⟩ := List.mem_filterMap.mp he
  obtain ⟨hdwrote,hdkey⟩ := Done.effect_key heq
  obtain ⟨hne,hascii⟩ := hothers d hd hdwrote
  rw [hdkey]
  exact Access.key_ne hne hascii

end

end ListTags

open ListTags Sample

namespace Sample

open SyntheticServer

-- A client that writes -2 to "B", and a board that reads it.
def putB : Access :=
  {writeB with tag := (Given.typed .int16 (-2)).put {data := blank, dataType := DataType.code .int}}

def printBoard : World where
  time := 0
  script := {sends := [.ok 5,.error .ewouldblock,.ok 100],
             recvs := [.ok (answer 1 ([0xCC,0,0,0,0xC3,0] ++ putU16 (-2)) (by decide)
               (by decide)).bytes]}
  log := []

end Sample

end ControlLogix
