import ControlLogix.Cip.Encoders
import ControlLogix.Library.Codewords
import ControlLogix.Server.Answers

namespace ControlLogix

abbrev SymbolName := {name : List UInt8 // name.length < 256}

-- A path is a row of segments: a hop out of a port, a class, an instance, a symbol.
inductive Segment where
  | port (p : Fin 16) (link : UInt8)
  | classId (id : UInt8)
  | instanceId (id : UInt8)
  | symbol (name : SymbolName)
  deriving DecidableEq, Repr

namespace Segment

def padding (len : Nat) : List UInt8 := List.replicate (len % 2) 0

def bytes : Segment → List UInt8
  | .port p link => [UInt8.ofNat p,link]
  | .classId id => [0x20,id]
  | .instanceId id => [0x24,id]
  | .symbol name =>
    0x91 :: UInt8.ofNat name.1.length :: (name.1 ++ padding name.1.length)

def readSymbol (len : UInt8) (bs : List UInt8) : Option (Segment × List UInt8) :=
  if len.toNat ≤ bs.length ∧ padding len.toNat <+: bs.drop len.toNat then
    some (.symbol ⟨bs.take len.toNat,(List.length_take_le _ _).trans_lt len.toNat_lt⟩,
      bs.drop (len.toNat + len.toNat % 2))
  else none

def read : List UInt8 → Option (Segment × List UInt8)
  | a :: b :: rest =>
    if a = 0x20 then some (.classId b,rest)
    else if a = 0x24 then some (.instanceId b,rest)
    else if a = 0x91 then readSymbol b rest
    else if h : a.toNat < 16 then some (.port ⟨a.toNat,h⟩ b,rest)
    else none
  | _ => none

theorem port_byte : ∀ p : Fin 16, UInt8.ofNat p ≠ 0x20 ∧ UInt8.ofNat p ≠ 0x24 ∧
    UInt8.ofNat p ≠ 0x91 ∧ (UInt8.ofNat p).toNat = p := by decide

theorem readSymbol_symbol (name : SymbolName) (rest : List UInt8) :
    readSymbol (UInt8.ofNat name.1.length) (name.1 ++ padding name.1.length ++ rest) =
      some (.symbol name,rest) := by
  obtain ⟨name,hname⟩ := name
  have hlen : (UInt8.ofNat name.length).toNat = name.length := by
    rw [UInt8.toNat_ofNat']
    omega
  have hdrop : (name ++ padding name.length ++ rest).drop (name.length + name.length % 2) = rest :=
    List.drop_left' (by simp [padding])
  rw [List.append_assoc] at hdrop ⊢
  simp only [readSymbol,hlen,hdrop]
  rw [if_pos ⟨by simp,by rw [List.drop_left]; exact List.prefix_append _ _⟩]
  simp only [List.take_left]

theorem readSymbol_sound {len : UInt8} {bs rest : List UInt8} {s : Segment}
    (h : readSymbol len bs = some (s,rest)) : 0x91 :: len :: bs = s.bytes ++ rest := by
  rw [readSymbol] at h
  split_ifs at h with hfit
  obtain ⟨hlen,more,hmore⟩ := hfit
  cases h
  have htake : (bs.take len.toNat).length = len.toNat := List.length_take_of_le hlen
  have hpad : (padding len.toNat).length = len.toNat % 2 := List.length_replicate
  have hrest : bs.drop (len.toNat + len.toNat % 2) = more := by
    rw [← List.drop_drop,← hmore,List.drop_left' hpad]
  simp only [bytes,htake,hrest,UInt8.ofNat_toNat,List.cons_append,List.append_assoc,hmore,
    List.take_append_drop]

theorem reads : Codewords.Reads bytes read where
  nonempty := by
    intro s
    cases s <;> exact List.cons_ne_nil _ _
  read_word := by
    intro s rest
    cases s with
    | port p link =>
      obtain ⟨h20,h24,h91,hport⟩ := port_byte p
      simp only [bytes,List.cons_append,List.nil_append,read,if_neg h20,if_neg h24,if_neg h91,
        hport,dif_pos p.isLt]
    | classId id => rfl
    | instanceId id => rfl
    | symbol name => exact readSymbol_symbol name rest
  of_read := by
    intro bs s rest h
    match bs, h with
    | a :: b :: bs, h =>
      rw [read] at h
      split_ifs at h with h20 h24 h91 hport
      · cases h
        rw [h20]
        rfl
      · cases h
        rw [h24]
        rfl
      · rw [h91]
        exact readSymbol_sound h
      · cases h
        simp [bytes]

end Segment

def parsePath (path : List UInt8) : Option (List Segment) := Codewords.decode Segment.read path

theorem parsePath_iff {path : List UInt8} {segments : List Segment} :
    parsePath path = some segments ↔ path = segments.flatMap Segment.bytes :=
  Segment.reads.decode_iff

-- The row of segments a connection path is meant to be.
def connectionSegments (cpuSlot : UInt8) (name : SymbolName) : List Segment :=
  (if cpuSlot ≠ kNoRoute then [.port 1 cpuSlot,.classId 2,.instanceId 1] else []) ++ [.symbol name]

def keptName {tagName : List UInt8} (h : tagName.length < Connection.kTagNameSize) : SymbolName :=
  ⟨tagName,h.trans (by decide)⟩

theorem appendSymbolic_segment (name : SymbolName) (h : name.1.length ≤ kMaxSymbolicName) :
    appendSymbolic name.1 = (Segment.symbol name).bytes := by
  rw [appendSymbolic_eq h,Segment.bytes,Segment.padding]
  rcases Nat.mod_two_eq_zero_or_one name.1.length with heven | hodd
  · rw [heven]
    rfl
  · rw [hodd]
    rfl

theorem buildConnectionPath_segments (cpuSlot : UInt8) {tagName : List UInt8}
    (h : tagName.length < Connection.kTagNameSize) :
    Connection.buildConnectionPath cpuSlot tagName =
      (connectionSegments cpuSlot (keptName h)).flatMap Segment.bytes := by
  have hname : tagName.length ≤ kMaxSymbolicName := by
    simp only [Connection.kTagNameSize,kMaxSymbolicName] at *
    omega
  rw [Connection.buildConnectionPath,connectionSegments,List.flatMap_append,
    List.flatMap_singleton,
    show appendSymbolic tagName = _ from appendSymbolic_segment (keptName h) hname]
  split_ifs
  · rfl
  · rfl

theorem connectionSegments_injective {cpuSlot cpuSlot' : UInt8} {name name' : SymbolName}
    (h : connectionSegments cpuSlot name = connectionSegments cpuSlot' name') :
    cpuSlot = cpuSlot' ∧ name = name' := by
  simp only [connectionSegments] at h
  split_ifs at h with hslot hslot' hslot'
  · simpa using h
  · simp at h
  · simp at h
  · rw [not_not] at hslot hslot'
    exact ⟨hslot.trans hslot'.symm,by simpa using h⟩

theorem buildConnectionPath_injective {cpuSlot cpuSlot' : UInt8} {tagName tagName' : List UInt8}
    (hname : tagName.length < Connection.kTagNameSize)
    (hname' : tagName'.length < Connection.kTagNameSize)
    (h : Connection.buildConnectionPath cpuSlot tagName =
      Connection.buildConnectionPath cpuSlot' tagName') :
    cpuSlot = cpuSlot' ∧ tagName = tagName' := by
  rw [buildConnectionPath_segments cpuSlot hname,buildConnectionPath_segments cpuSlot' hname'] at h
  obtain ⟨hslot,hsame⟩ :=
    connectionSegments_injective (Segment.reads.instantaneous.injective h)
  exact ⟨hslot,congrArg Subtype.val hsame⟩

namespace SyntheticServer

theorem decoded_small (b : UInt8) :
    (if b < 128 then Char.ofNat b.toNat else '\uFFFD').toNat < 128 ↔ b < 128 := by
  by_cases hb : b < 128
  · have hnum := ascii_char ⟨b.toNat,hb⟩
    rw [if_pos hb,hnum]
    exact Iff.rfl
  · rw [if_neg hb]
    exact iff_of_false (by decide) hb

theorem encodeAscii_decodeAscii (name : List UInt8) :
    encodeAscii (decodeAscii name) = some name ↔ isAscii name = true := by
  have hall : ((decodeAscii name).all fun c => c.toNat < 128) = isAscii name := by
    simp only [decodeAscii,isAscii,List.all_map,Function.comp_def,decoded_small]
  rw [encodeAscii,hall]
  by_cases h : isAscii name = true
  · rw [if_pos h]
    refine iff_of_true ?_ h
    have hbytes (b : UInt8) (hb : b ∈ name) :
        UInt8.ofNat (if b < 128 then Char.ofNat b.toNat else '\uFFFD').toNat = b := by
      have hlt : b < 128 := of_decide_eq_true (List.all_eq_true.mp h b hb)
      rw [if_pos hlt,ascii_char ⟨b.toNat,hlt⟩,UInt8.ofNat_toNat]
    rw [ascii,decodeAscii,List.map_map]
    exact congrArg some ((List.map_congr_left hbytes).trans (List.map_id _))
  · rw [if_neg h]
    exact iff_of_false (by simp) h

end SyntheticServer

namespace Connection

-- The path-size byte and the path behind it: of a Forward Open, and of a Forward Close, which has
-- a reserved byte between the two.
def openPath (frame : List UInt8) : UInt8 × List UInt8 := (frame.getD 81 0,frame.drop 82)

def closePath (frame : List UInt8) : UInt8 × List UInt8 := (frame.getD 56 0,frame.drop 58)

def sizedPath (path : List UInt8) : UInt8 × List UInt8 := (UInt8.ofNat (path.length / 2),path)

theorem getD_of_drop {bs rest : List UInt8} {b : UInt8} {k : Nat} (h : bs.drop k = b :: rest) :
    bs.getD k 0 = b ∧ bs.drop (k + 1) = rest := by
  constructor
  · rw [List.getD_eq_getElem?_getD,← Nat.add_zero k,← List.getElem?_drop,h]
    rfl
  · rw [← List.drop_drop,h]
    rfl

theorem openPath_openFrame (c : Connection) (sessionHandle : UInt32) (context : UInt64)
    (serial : UInt32) : openPath (c.openFrame sessionHandle context serial) =
      sizedPath (buildConnectionPath c.cpuSlot c.tagName) := by
  have hdata := ExplicitMessage.requestFrame_drop sessionHandle context kForwardOpen managerPath
    (forwardOpenData c.toConnId c.connSerial serial (buildConnectionPath c.cpuSlot c.tagName))
  have hsized : (c.openFrame sessionHandle context serial).drop 81 =
      UInt8.ofNat ((buildConnectionPath c.cpuSlot c.tagName).length / 2) ::
        buildConnectionPath c.cpuSlot c.tagName := by
    rw [show 81 = 42 + managerPath.length + 35 from rfl,← List.drop_drop,openFrame,hdata]
    rfl
  obtain ⟨hwords,hpath⟩ := getD_of_drop hsized
  rw [openPath,hwords,hpath,sizedPath]

theorem closePath_closeFrame (c : Connection) (sessionHandle : UInt32) (context : UInt64)
    (serial : UInt32) : closePath (c.closeFrame sessionHandle context serial) =
      sizedPath (buildConnectionPath c.cpuSlot c.tagName) := by
  have hdata := ExplicitMessage.requestFrame_drop sessionHandle context kForwardClose managerPath
    (forwardCloseData c.connSerial serial (buildConnectionPath c.cpuSlot c.tagName))
  have hsized : (c.closeFrame sessionHandle context serial).drop 56 =
      UInt8.ofNat ((buildConnectionPath c.cpuSlot c.tagName).length / 2) :: 0 ::
        buildConnectionPath c.cpuSlot c.tagName := by
    rw [show 56 = 42 + managerPath.length + 10 from rfl,← List.drop_drop,closeFrame,hdata]
    rfl
  obtain ⟨hwords,hreserved⟩ := getD_of_drop hsized
  rw [closePath,hwords,(getD_of_drop hreserved).2,sizedPath]

theorem sizedPath_words (cpuSlot : UInt8) {tagName : List UInt8}
    (hname : tagName.length < kTagNameSize) :
    (sizedPath (buildConnectionPath cpuSlot tagName)).1.toNat * 2 =
      (buildConnectionPath cpuSlot tagName).length := by
  have hpath := buildConnectionPath_size cpuSlot hname
  simp only [sizedPath]
  rw [UInt8.toNat_ofNat']
  omega

theorem Run.open_path {s : Run} {l : Call} {sessionHandle timeoutMs : UInt32}
    {tagName : List UInt8} {cpuSlot : UInt8}
    (hl : l.op = .open sessionHandle (some tagName) timeoutMs cpuSlot)
    (hst : (s.turn l).1 = .pending) : tagName.length < kTagNameSize ∧
      openPath (s.turn l).2.client.fwd.io.tx = sizedPath (buildConnectionPath cpuSlot tagName) := by
  simp only [turn,hl] at hst ⊢
  obtain ⟨hname,serial,deadline,hfwd⟩ := open_sent hst
  refine ⟨hname,?_⟩
  rw [hfwd,← s.client.drawn_path hname cpuSlot l.chip s.statics]
  exact openPath_openFrame _ _ _ _

theorem Run.close_path {s : Run} {l : Call} {sessionHandle timeoutMs : UInt32}
    (hl : l.op = .close sessionHandle timeoutMs) (hst : (s.turn l).1 = .pending) :
    s.client.state = .open ∧ closePath (s.turn l).2.client.fwd.io.tx =
      sizedPath (buildConnectionPath s.client.cpuSlot s.client.tagName) := by
  have hclosed := s.client.close_closed l.conn sessionHandle timeoutMs l.chip s.statics
    {s.world with script := l.script}
  simp only [turn,hl] at hst ⊢
  generalize s.client.close l.conn sessionHandle timeoutMs l.chip s.statics
    {s.world with script := l.script} = r at hclosed hst ⊢
  cases hclosed with
  | refused hnot _ => exact absurd hst hnot
  | sent hopen _ _ _ => exact ⟨hopen,closePath_closeFrame _ _ _ _⟩

theorem Run.close_path_accepted {time : Nat} {ls : List Call}
    (hg : Runs.Guarded Run.step Attached (Run.init time) ls) {l : Call}
    {sessionHandle timeoutMs : UInt32} (hl : l.op = .close sessionHandle timeoutMs)
    (hst : ((Run.after time ls).turn l).1 = .pending) :
    ∃ frame reply, accepted (Run.after time ls).world.log = some (frame,reply) ∧
      closePath ((Run.after time ls).turn l).2.client.fwd.io.tx = openPath frame := by
  obtain ⟨hopen,hpath⟩ := close_path hl hst
  obtain ⟨frame,reply,hacc,hnamed⟩ := (agreed_after hg).named (Or.inl hopen)
  obtain ⟨_,_,hframe⟩ := hnamed.frame_eq
  refine ⟨frame,reply,hacc,?_⟩
  rw [hpath,hframe,openPath_openFrame]

end Connection

-- A path says which slot and which name it is of, and what is sent has its size before it. The
-- server reads a name as ASCII; a connection is closed under the path it was opened with.
theorem connection_paths_are_decodable (time : Nat) (ls : List Connection.Call) :
    let s := Connection.Run.after time ls
    (∀ (cpuSlot : UInt8) (tagName : List UInt8) (h : tagName.length < Connection.kTagNameSize),
      parsePath (Connection.buildConnectionPath cpuSlot tagName) =
          some (connectionSegments cpuSlot (keptName h)) ∧
        (Connection.buildConnectionPath cpuSlot tagName).length % 2 = 0 ∧
        (Connection.sizedPath (Connection.buildConnectionPath cpuSlot tagName)).1.toNat * 2 =
          (Connection.buildConnectionPath cpuSlot tagName).length ∧
        ∀ (cpuSlot' : UInt8) (tagName' : List UInt8), tagName'.length < Connection.kTagNameSize →
          Connection.buildConnectionPath cpuSlot tagName =
            Connection.buildConnectionPath cpuSlot' tagName' →
          cpuSlot = cpuSlot' ∧ tagName = tagName') ∧
      (∀ name : List UInt8, name.length ≤ kMaxSymbolicName →
        SyntheticServer.parseSymbolicPath (appendSymbolic name) =
            some (SyntheticServer.decodeAscii name) ∧
          ((SyntheticServer.parseSymbolicPath (appendSymbolic name)).bind
              SyntheticServer.encodeAscii = some name ↔ SyntheticServer.isAscii name = true)) ∧
      (∀ (l : Connection.Call) (sessionHandle timeoutMs : UInt32) (tagName : List UInt8)
          (cpuSlot : UInt8), l.op = .open sessionHandle (some tagName) timeoutMs cpuSlot →
        (s.turn l).1 = .pending → tagName.length < Connection.kTagNameSize ∧
          Connection.openPath (s.turn l).2.client.fwd.io.tx =
            Connection.sizedPath (Connection.buildConnectionPath cpuSlot tagName)) ∧
      ∀ (l : Connection.Call) (sessionHandle timeoutMs : UInt32),
        l.op = .close sessionHandle timeoutMs → (s.turn l).1 = .pending →
        s.client.tagName.length < Connection.kTagNameSize ∧
          Connection.closePath (s.turn l).2.client.fwd.io.tx = Connection.sizedPath
            (Connection.buildConnectionPath s.client.cpuSlot s.client.tagName) ∧
          (Runs.Guarded Connection.Run.step Connection.Attached (Connection.Run.init time) ls →
            ∃ frame reply, Connection.accepted s.world.log = some (frame,reply) ∧
              Connection.closePath (s.turn l).2.client.fwd.io.tx = Connection.openPath frame) := by
  intro s
  refine ⟨?_,?_,?_,?_⟩
  · intro cpuSlot tagName h
    exact ⟨parsePath_iff.mpr (buildConnectionPath_segments cpuSlot h),
      (Connection.buildConnectionPath_size cpuSlot h).2,Connection.sizedPath_words cpuSlot h,
      fun _ _ h' heq => buildConnectionPath_injective h h' heq⟩
  · intro name hname
    have hparse := SyntheticServer.parseSymbolicPath_append hname
    refine ⟨hparse,?_⟩
    rw [hparse,Option.bind_some]
    exact SyntheticServer.encodeAscii_decodeAscii name
  · intro l sessionHandle timeoutMs tagName cpuSlot hl hst
    exact Connection.Run.open_path hl hst
  · intro l sessionHandle timeoutMs hl hst
    exact ⟨Connection.named_after time ls,(Connection.Run.close_path hl hst).2,
      fun hg => Connection.Run.close_path_accepted hg hl hst⟩

namespace Sample

def closeOpened : Connection.Call where
  op := .close 7 1000
  conn := plugged

theorem opened_closes_its_path :
    parsePath (Connection.buildConnectionPath 3 [0x91,0x20,0x24]) =
        some [.port 1 3,.classId 2,.instanceId 1,.symbol ⟨[0x91,0x20,0x24],by decide⟩] ∧
      ∃ frame reply, Connection.accepted (Connection.Run.after 0 opened).world.log =
          some (frame,reply) ∧
        Connection.closePath ((Connection.Run.after 0 opened).turn closeOpened).2.client.fwd.io.tx =
          Connection.openPath frame := by
  obtain ⟨hpaths,_,_,hclose⟩ := connection_paths_are_decodable 0 opened
  exact ⟨(hpaths 3 [0x91,0x20,0x24] (by decide)).1,
    (hclose closeOpened 7 1000 rfl (by decide +kernel)).2.2 (by decide +kernel)⟩

theorem high_bytes_read_alike :
    (SyntheticServer.parseSymbolicPath (appendSymbolic [0x80]) =
        SyntheticServer.parseSymbolicPath (appendSymbolic [0x81]) ∧
      appendSymbolic [0x80] ≠ appendSymbolic [0x81]) ∧
    ((Connection.Run.after 0 refusedOpen).turn closeOpened).1 = .pending ∧
      (Connection.accepted (Connection.Run.after 0 refusedOpen).world.log).map
          (fun a => Connection.openPath a.1) = some (2,[0x91,1,0x41,0]) ∧
      Connection.closePath
          ((Connection.Run.after 0 refusedOpen).turn closeOpened).2.client.fwd.io.tx =
        (2,[0x91,1,0x42,0]) := by
  decide +kernel

end Sample

end ControlLogix
