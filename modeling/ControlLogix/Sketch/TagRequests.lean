import ControlLogix.Cip.Appended
import ControlLogix.Library.Paging
import ControlLogix.Server.Served
import ControlLogix.Sketch.ListTags

namespace ControlLogix

namespace ListTags

def CPU_SLOT : UInt8 := 0

def MESSAGE_TIMEOUT_MS : UInt32 := 5000

def buildSymbolPath (instanceId : UInt32) : List UInt8 :=
  appendClass kSymbolClass ++
    if instanceId ≤ 0xFF then appendInstance instanceId.toUInt8
    else if instanceId ≤ 0xFFFF then appendInstance16 instanceId.toUInt16
    else appendInstance32 instanceId

-- The number of attributes, the name and the type of a symbol.
def enumerateData : List UInt8 :=
  putU16 2 ++ putU16 kSymbolName.toUInt16 ++ putU16 kSymbolType.toUInt16

def startEnumerate (m : ExplicitMessage) (t : TcpConnection) (sessionHandle startInstance : UInt32)
    (w : World) : Status × ExplicitMessage × World :=
  m.sendRouted t sessionHandle CPU_SLOT (Service.code .getInstanceAttributeList)
    (buildSymbolPath startInstance) enumerateData MESSAGE_TIMEOUT_MS w

-- One element of the tag of that name.
def startReadTag (m : ExplicitMessage) (t : TcpConnection) (sessionHandle : UInt32)
    (name : List UInt8) (w : World) : Status × ExplicitMessage × World :=
  m.sendRouted t sessionHandle CPU_SLOT (TagService.code .read) (appendSymbolic name) (putU16 1)
    MESSAGE_TIMEOUT_MS w

def instanceSegment (instanceId : UInt32) : AppendedSegment :=
  if instanceId ≤ 0xFF then .plain (.instanceId instanceId.toUInt8)
  else if instanceId ≤ 0xFFFF then .instanceId16 instanceId.toUInt16
  else .instanceId32 instanceId

theorem buildSymbolPath_segments (instanceId : UInt32) : buildSymbolPath instanceId =
    [.plain (.classId kSymbolClass),instanceSegment instanceId].flatMap AppendedSegment.bytes := by
  rw [buildSymbolPath,instanceSegment]
  split_ifs <;> rfl

theorem buildSymbolPath_fits (instanceId : UInt32) :
    (buildSymbolPath instanceId).length ≤ 8 ∧ (buildSymbolPath instanceId).length % 2 = 0 := by
  rw [buildSymbolPath]
  split_ifs <;> simp [appendClass,appendInstance,appendInstance16,appendInstance32]

open SyntheticServer

theorem parseInstance8 (id : UInt8) :
    parseInstanceFromPath (appendClass kSymbolClass ++ appendInstance id) = some id.toNat := rfl

theorem parseInstance16 (id : UInt16) :
    parseInstanceFromPath (appendClass kSymbolClass ++ appendInstance16 id) = some id.toNat := by
  have hnumber : getU16 ([id.toUInt8,(id >>> 8).toUInt8] ++ [0]) = id := getU16_putU16 id [0]
  exact congrArg (fun v : UInt16 => some v.toNat) hnumber

theorem parseInstance32 (id : UInt32) :
    parseInstanceFromPath (appendClass kSymbolClass ++ appendInstance32 id) = some id.toNat := by
  have hnumber : getU32 (putU32 id ++ [0]) = id := getU32_putU32 id [0]
  exact congrArg (fun v : UInt32 => some v.toNat) hnumber

theorem parseInstance_path (instanceId : UInt32) :
    parseInstanceFromPath (buildSymbolPath instanceId) = some instanceId.toNat := by
  rw [buildSymbolPath]
  split_ifs with h8 h16
  · have hsmall : instanceId.toNat ≤ 255 := UInt32.le_iff_toNat_le.mp h8
    rw [parseInstance8,UInt32.toNat_toUInt8,Nat.mod_eq_of_lt (by omega)]
  · have hsmall : instanceId.toNat ≤ 65535 := UInt32.le_iff_toNat_le.mp h16
    rw [parseInstance16,UInt32.toNat_toUInt16,Nat.mod_eq_of_lt (by omega)]
  · exact parseInstance32 instanceId

def Record.entry (r : Record) : TagEntry :=
  {name := Tag.cString (r.name.take 45), symbolType := r.symbolType}

-- What is left of a row of tags: a table of the first, and a line for each with the number of
-- tags in the table.
def Inventory.of (entries : List TagEntry) : Inventory where
  tags := entries.take kMaxTags
  printed := entries.zipIdx.map fun e => (min (e.2 + 1) kMaxTags,e.1)

theorem Inventory.enter_of (entries : List TagEntry) (r : Record) :
    r.enter (Inventory.of entries) = Inventory.of (entries ++ [r.entry]) := by
  have hzip : (entries ++ [r.entry]).zipIdx = entries.zipIdx ++ [(r.entry,entries.length)] := by
    simp [List.zipIdx_append]
  simp only [Record.enter,Inventory.enter,Inventory.of,hzip,List.map_append,List.map_cons,
    List.map_nil,List.length_take]
  by_cases hroom : min kMaxTags entries.length < kMaxTags
  · have hless : entries.length < kMaxTags := by omega
    have hall : (entries ++ [r.entry]).take kMaxTags = entries ++ [r.entry] :=
      List.take_of_length_le (by rw [List.length_append]; exact hless)
    rw [if_pos hroom,hall,List.take_of_length_le hless.le,List.length_append,
      Nat.min_eq_left (by exact hless)]
    rfl
  · have hfull : kMaxTags ≤ entries.length := by omega
    rw [if_neg hroom,List.take_append_of_le_length hfull,List.length_take,
      Nat.min_eq_left hfull,Nat.min_eq_right (by omega)]
    rfl

theorem Inventory.foldl_of (rs : List Record) (entries : List TagEntry) :
    rs.foldl Record.enter (Inventory.of entries) = Inventory.of (entries ++ rs.map Record.entry) := by
  induction rs generalizing entries with
  | nil => simp
  | cons r rs ih => rw [List.foldl_cons,Inventory.enter_of,ih,List.map_cons,List.append_assoc]; rfl

def entryOf (tag : Name × TagValue) : TagEntry :=
  {name := Tag.cString ((ascii (tag.1.getD [])).take 45), symbolType := tag.2.1.toUInt16}

-- The names can be told: they are there, of ASCII characters, and no longer than a length can say.
def Tellable (tags : Dict Name TagValue) : Prop :=
  ∀ tag ∈ tags, ∃ name bs, tag.1 = some name ∧ encodeAscii name = some bs ∧ name.length < 4294967296

theorem encodeAscii_ascii {name : List Char} {bs : List UInt8} (h : encodeAscii name = some bs) :
    bs = ascii name := by
  rw [encodeAscii] at h
  split_ifs at h
  exact (Option.some.inj h).symm

def Record.key (r : Record) : Nat := r.instanceId.toNat

def symbolOf (idx : Nat) (tag : Name × TagValue) : Option Record :=
  (tag.1.bind encodeAscii).bind fun name =>
    if h : name.length < 4294967296 then
      some ⟨UInt32.ofNat idx,name,tag.2.1.toUInt16,h⟩
    else none

def symbols : Nat → Dict Name TagValue → List Record
  | _, [] => []
  | idx, tag :: tags => (symbolOf idx tag).toList ++ symbols (idx + 1) tags

theorem symbolOf_told {tag : Name × TagValue} (h : ∃ name bs, tag.1 = some name ∧
    encodeAscii name = some bs ∧ name.length < 4294967296) {idx : Nat} (hidx : idx < 4294967296) :
    ∃ r, symbolOf idx tag = some r ∧ r.key = idx ∧ r.entry = entryOf tag ∧
      symbolAttributes tag.1 tag.2.1 [1,2] =
        some (putU32 (UInt32.ofNat r.name.length) ++ r.name ++ putU16 r.symbolType) ∧
      r.instanceId = UInt32.ofNat idx := by
  obtain ⟨name,bs,hname,henc,hlen⟩ := h
  obtain rfl := encodeAscii_ascii henc
  obtain ⟨_,typeCode,value⟩ := tag
  simp only at hname
  subst hname
  have hfits : (ascii name).length < 4294967296 := by simpa [ascii] using hlen
  refine ⟨⟨UInt32.ofNat idx,ascii name,typeCode.toUInt16,hfits⟩,?_,?_,rfl,?_,rfl⟩
  · simp [symbolOf,henc,hfits]
  · exact UInt32.toNat_ofNat_of_lt' hidx
  · have hsame : (ascii name).length = name.length := by simp [ascii]
    simp [symbolAttributes,henc,hsame]

section

variable {tags : Dict Name TagValue}

theorem symbols_told (h : Tellable tags) {idx : Nat} (hidx : idx + tags.length ≤ 4294967296) :
    (symbols idx tags).map Record.key = List.range' idx tags.length ∧
      (symbols idx tags).map Record.entry = tags.map entryOf := by
  induction tags generalizing idx with
  | nil => exact ⟨rfl,rfl⟩
  | cons tag tags ih =>
    rw [List.length_cons] at hidx
    obtain ⟨hkeys,hentries⟩ := ih (fun t ht => h t (List.mem_cons_of_mem _ ht))
      (show idx + 1 + tags.length ≤ 4294967296 by omega)
    obtain ⟨r,hr,hkey,hentry,_⟩ := symbolOf_told (h tag List.mem_cons_self)
      (show idx < 4294967296 by omega)
    rw [symbols,hr,Option.toList_some,List.singleton_append,List.map_cons,List.map_cons,hkeys,
      hentries,hkey,hentry,List.length_cons,List.range'_succ]
    exact ⟨rfl,rfl⟩

theorem symbolRecords_told (h : Tellable tags) {idx : Nat}
    (hidx : idx + tags.length ≤ 4294967296) (start : Nat) :
    symbolRecords start [1,2] idx tags =
      some ((Paging.left Record.key start (symbols idx tags)).flatMap Record.bytes) := by
  induction tags generalizing idx with
  | nil => rfl
  | cons tag tags ih =>
    rw [List.length_cons] at hidx
    have htail := ih (fun t ht => h t (List.mem_cons_of_mem _ ht))
      (show idx + 1 + tags.length ≤ 4294967296 by omega)
    obtain ⟨r,hr,hkey,_,hattrs,hid⟩ := symbolOf_told (h tag List.mem_cons_self)
      (show idx < 4294967296 by omega)
    obtain ⟨name,typeCode,value⟩ := tag
    rw [symbolRecords,symbols,hr,Option.toList_some,List.singleton_append]
    simp only at hattrs
    by_cases hskip : idx < start
    · rw [if_pos hskip,htail,Paging.left,Paging.left,List.filter_cons_of_neg]
      rw [hkey]
      simpa using hskip
    · rw [if_neg hskip,hattrs,htail,Paging.left,Paging.left,List.filter_cons_of_pos]
      · rw [List.flatMap_cons,Record.bytes,hid]
        simp
      · rw [hkey]
        simpa using hskip

end

def enumerateRequest (startInstance : UInt32) : Request where
  slot := some CPU_SLOT
  service := Service.code .getInstanceAttributeList
  path := buildSymbolPath startInstance
  rest := enumerateData

def readRequest (name : List UInt8) : Request where
  slot := some CPU_SLOT
  service := TagService.code .read
  path := appendSymbolic name
  rest := putU16 1

theorem readRequest_fits (name : List UInt8) : (readRequest name).fits := by
  have hlen := Connection.appendSymbolic_length name
  refine ⟨?_,appendSymbolic_even name⟩
  simp only [readRequest,ExplicitMessage.kMaxCipData,putU16_length]
  omega

section

variable {m : ExplicitMessage} {t : TcpConnection}

theorem startReadTag_taken (hm : m.inFlight = false) (ht : t.connected = true)
    (sessionHandle : UInt32) (name : List UInt8) (w : World) :
    (startReadTag m t sessionHandle name w).1 = .pending := by
  refine Request.send_taken (readRequest_fits name) (fun slot hslot => ?_) hm ht sessionHandle
    MESSAGE_TIMEOUT_MS w
  cases hslot
  decide

end

theorem enumerate_served (s : SyntheticServer) (h : Tellable s.tags)
    (hcount : 1 + s.tags.length ≤ 4294967296) (session startInstance : UInt32) :
    s.handleCipRequest session (enumerateRequest startInstance).service
        (enumerateRequest startInstance).path (enumerateRequest startInstance).rest =
      some ([getInstanceAttributeList ||| 0x80,0,0,0] ++
        (Paging.left Record.key startInstance.toNat (symbols 1 s.tags)).flatMap Record.bytes,s) := by
  have hattrs : requestedAttributes enumerateData = some [1,2] := by decide
  have hservice : Service.code .getInstanceAttributeList = getInstanceAttributeList := rfl
  simp only [enumerateRequest,handleCipRequest,hservice,if_true,parseInstance_path,
    handleGetInstanceAttributeList,hattrs,symbolRecords_told h hcount]
  rfl

theorem enumerate_told {rs : List Record} (hlen : (rs.flatMap Record.bytes).length ≤ 527)
    (entries : List TagEntry) {rounds : Nat}
    (hrounds : (rs.flatMap Record.bytes).length < rounds) :
    ∃ b, enumerate rounds (rs.flatMap Record.bytes) {inventory := Inventory.of entries} = some b ∧
      b.inventory = Inventory.of (entries ++ rs.map Record.entry) ∧
        b.last = rs.foldl (fun _ r => r.instanceId) 0 := by
  have hmany := records_length rs
  obtain ⟨b,hp,hinv,hlast,hrun⟩ := enumerate_records (b := {inventory := Inventory.of entries})
    hlen (show rs.flatMap Record.bytes = [] ++ (rs.flatMap Record.bytes ++ []) by simp) rfl
    (rounds - rs.length)
  rw [Nat.sub_add_cancel (by omega)] at hrun
  refine ⟨b,?_,hinv.trans (Inventory.foldl_of rs entries),hlast⟩
  rw [hrun]
  exact enumerate_over hlen (by simp [hp]) (by simp [hp]) _

end ListTags

open ListTags SyntheticServer

-- In the layout in which this library appends segments the path says its class and instance, and
-- the server reads the same instance.
theorem symbol_path_is_decoded (instanceId : UInt32) :
    parseAppendedPath (buildSymbolPath instanceId) =
        some [.plain (.classId kSymbolClass),instanceSegment instanceId] ∧
      parseInstanceFromPath (buildSymbolPath instanceId) = some instanceId.toNat ∧
        (buildSymbolPath instanceId).length ≤ 8 ∧ (buildSymbolPath instanceId).length % 2 = 0 :=
  ⟨parseAppendedPath_iff.mpr (buildSymbolPath_segments instanceId),parseInstance_path instanceId,
    buildSymbolPath_fits instanceId⟩

end ControlLogix
