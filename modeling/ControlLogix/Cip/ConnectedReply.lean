import ControlLogix.Cip.Connection
import ControlLogix.Cip.Reply

namespace ControlLogix

theorem getU16_front {p : List UInt8} (hp : 2 ≤ p.length) (l : List UInt8) :
    getU16 (p ++ l) = getU16 p := by
  simp only [getU16,List.getD_eq_getElem?_getD]
  rw [List.getElem?_append_left (by omega),List.getElem?_append_left (by omega)]

theorem getU32_front {p : List UInt8} (hp : 4 ≤ p.length) (l : List UInt8) :
    getU32 (p ++ l) = getU32 p := by
  simp only [getU32,List.getD_eq_getElem?_getD]
  rw [List.getElem?_append_left (by omega),List.getElem?_append_left (by omega),
    List.getElem?_append_left (by omega),List.getElem?_append_left (by omega)]

def lastItem (type : UInt16) : List CpfItem → Option (List UInt8)
  | [] => none
  | e :: items => (lastItem type items).or (if e.type = type then some e.data else none)

-- A well-formed SendUnitData reply that fits the receive buffer.
structure ConnectedReply where
  session : UInt32 := 0
  context : UInt64
  options : UInt32 := 0
  interface : UInt32 := 0
  timeout : UInt16 := 0
  items : List CpfItem
  address : List UInt8
  sequence : UInt16
  cip : List UInt8
  address_eq : lastItem 0x00A1 items = some address
  addressed : ∀ e ∈ items, e.type = 0x00A1 → 4 ≤ e.data.length
  data_eq : lastItem 0x00B1 items = some (putU16 sequence ++ cip)
  cip_length : 4 ≤ cip.length
  fits : 8 + (itemBytes items).length ≤ 22 + Connection.kMaxDataSize

namespace ConnectedReply

def connId (q : ConnectedReply) : UInt32 := getU32 q.address

def body (q : ConnectedReply) : List UInt8 := cpfBody q.interface q.timeout q.items

def header (q : ConnectedReply) : EncapsulationHeader where
  command := Command.code .sendUnitData
  length := UInt16.ofNat q.body.length
  session := q.session
  context := q.context
  options := q.options

def bytes (q : ConnectedReply) : List UInt8 := headerBytes q.header ++ q.body

theorem body_length (q : ConnectedReply) : q.body.length = 8 + (itemBytes q.items).length :=
  cpfBody_length _ _ _

theorem header_length (q : ConnectedReply) : q.header.length.toNat = q.body.length := by
  have hfits := q.fits
  simp only [Connection.kMaxDataSize] at hfits
  rw [header,UInt16.toNat_ofNat',q.body_length]
  omega

@[simp] theorem decodeHeader_bytes (q : ConnectedReply) : decodeHeader q.bytes = q.header :=
  decodeHeader_headerBytes _ _

theorem encapsulated (q : ConnectedReply) : Encapsulated q.bytes :=
  encapsulated_headerBytes q.header_length.symm

end ConnectedReply

namespace Connection

theorem pickItems_connected (rx pre post : List UInt8) {items : List CpfItem}
    (hrx : rx = pre ++ (itemBytes items ++ post))
    (haddr : ∀ e ∈ items, e.type = 0x00A1 → 4 ≤ e.data.length)
    (a : Option UInt32 × Option (Nat × Nat)) :
    ∃ b, pickItems (takeConnected rx) pre.length items a = some b ∧
      b.1 = ((lastItem 0x00A1 items).map getU32).or a.1 ∧
      match lastItem 0x00B1 items with
      | none => b.2 = a.2
      | some d => ∃ p rest, b.2 = some (p,d.length) ∧ rx.drop p = d ++ rest := by
  induction items generalizing pre a with
  | nil => exact ⟨a,rfl,rfl,rfl⟩
  | cons e items ih =>
    obtain ⟨hsplit,hdrop⟩ := item_next hrx
    have hnext := ih (pre ++ e.bytes) hsplit fun d hd => haddr d (List.mem_cons_of_mem _ hd)
    rw [List.length_append,CpfItem.bytes_length,← Nat.add_assoc] at hnext
    rw [pickItems,lastItem,lastItem,takeConnected]
    by_cases hA : e.type = 0x00A1
    · have hlen := haddr e List.mem_cons_self hA
      obtain ⟨b,hpick,hid,hdata⟩ := hnext (some (getU32 e.data),a.2)
      rw [if_pos hA,if_neg (by omega),hdrop,getU32_front hlen]
      refine ⟨b,hpick,?_,?_⟩
      · rw [hid,if_pos hA]
        cases lastItem 0x00A1 items <;> rfl
      · rw [if_neg (by rw [hA]; decide),Option.or_none]
        exact hdata
    · rw [if_neg hA,if_neg hA]
      by_cases hB : e.type = 0x00B1
      · obtain ⟨b,hpick,hid,hdata⟩ := hnext (a.1,some (pre.length + 4,e.data.length))
        rw [if_pos hB,if_pos hB]
        refine ⟨b,hpick,by rw [hid,Option.or_none],?_⟩
        cases hlast : lastItem 0x00B1 items with
        | none =>
          rw [hlast] at hdata
          exact ⟨pre.length + 4,_,hdata,hdrop⟩
        | some d =>
          rw [hlast] at hdata
          exact hdata
      · obtain ⟨b,hpick,hid,hdata⟩ := hnext a
        rw [if_neg hB,if_neg hB]
        exact ⟨b,hpick,by rw [hid,Option.or_none],by rw [Option.or_none]; exact hdata⟩

theorem connectedItems_bytes (q : ConnectedReply) :
    ∃ p rest, connectedItems q.bytes = some (q.connId,p,2 + q.cip.length) ∧
      q.bytes.drop p = putU16 q.sequence ++ (q.cip ++ rest) := by
  have hfits := q.fits
  simp only [kMaxDataSize] at hfits
  have hle := items_le_bytes q.items
  have hcount : (getU16 (q.bytes.drop (kEncapsulationHeaderSize + 6))).toNat = q.items.length := by
    have hdrop : q.bytes.drop (kEncapsulationHeaderSize + 6) =
        putU16 (UInt16.ofNat q.items.length) ++ itemBytes q.items := rfl
    rw [hdrop,getU16_putU16,UInt16.toNat_ofNat']
    omega
  have hpre : q.bytes = (headerBytes q.header ++ (putU32 q.interface ++ (putU16 q.timeout ++
      putU16 (UInt16.ofNat q.items.length)))) ++ (itemBytes q.items ++ []) := by
    simp only [ConnectedReply.bytes,ConnectedReply.body,cpfBody,List.append_assoc,List.append_nil]
  have hbody : q.bytes.length - kEncapsulationHeaderSize = 8 + (itemBytes q.items).length := by
    rw [hpre]
    simp [kEncapsulationHeaderSize]
    omega
  obtain ⟨b,hpick,hid,hdata⟩ := pickItems_connected q.bytes _ [] hpre q.addressed (none,none)
  have hsmall : ∀ e ∈ q.items, e.data.length < 65536 := fun e he => by
    have := item_le_bytes he
    omega
  have hwalk := walkItems_items (takeConnected q.bytes) (headerBytes q.header ++
    (putU32 q.interface ++ (putU16 q.timeout ++ putU16 (UInt16.ofNat q.items.length)))) [] hsmall
      (none,none)
  rw [hpick,← hpre] at hwalk
  rw [q.data_eq] at hdata
  obtain ⟨p,rest,hplace,hdrop⟩ := hdata
  rw [q.address_eq] at hid
  obtain ⟨b₁,b₂⟩ := b
  simp only [Option.map_some,Option.some_or] at hid hplace
  subst hid hplace
  have hlen : (putU16 q.sequence ++ q.cip).length = 2 + q.cip.length := by simp
  have hcip := q.cip_length
  refine ⟨p,rest,?_,by rw [hdrop,List.append_assoc]⟩
  simp only [List.length_append,headerBytes_length,putU32_length,putU16_length,List.length_nil,
    Nat.add_zero] at hwalk
  simp only [connectedItems,hbody,hcount]
  rw [if_neg (by omega),Nat.add_sub_cancel_left]
  simp only [kEncapsulationHeaderSize]
  rw [hwalk]
  simp only
  rw [if_neg (by omega)]
  rfl

theorem parseConnectedResponse_reply {c : Connection} {q : ConnectedReply}
    (hrx : c.io.rx = q.bytes) (hcontext : q.context = c.sentContext)
    (hid : q.connId = c.toConnId) (hseq : q.sequence = c.sentSequence) :
    ∃ c', c.parseConnectedResponse = (.ok,c') ∧ c'.io = c.io ∧
      c'.replyService = q.cip.getD 0 0 ∧ c'.resultCode = q.cip.getD 2 0 ∧
        c'.dataBytes = q.cip.drop 4 ∧ c'.dataLen = q.cip.length - 4 := by
  obtain ⟨p,rest,hitems,hdrop⟩ := connectedItems_bytes q
  have hcip := q.cip_length
  have hat (k : Nat) : q.bytes.drop (p + (2 + k)) = (q.cip ++ rest).drop k := by
    rw [← List.drop_drop,hdrop,← List.drop_drop]
    rfl
  have hget (k : Nat) (hk : k < q.cip.length) : q.bytes.getD (p + (2 + k)) 0 = q.cip.getD k 0 := by
    have h := congrArg (fun l => l.getD 0 0) (hat k)
    simp only [List.getD_eq_getElem?_getD,List.getElem?_drop,Nat.add_zero] at h ⊢
    rw [h,List.getElem?_append_left hk]
  simp only [parseConnectedResponse,hrx,ConnectedReply.decodeHeader_bytes,hitems]
  rw [if_neg (by simp [ConnectedReply.header]),
    if_neg (by simpa [ConnectedReply.header] using hcontext),if_neg (not_not.mpr hid),
    hdrop,getU16_putU16,if_neg (not_not.mpr hseq),if_neg (by omega)]
  refine ⟨_,rfl,rfl,hget 0 (by omega),hget 2 (by omega),?_,by simp only; omega⟩
  simp only [dataBytes,hrx]
  rw [hat 4,List.drop_append_of_le_length hcip,List.take_append_of_le_length (by simp)]
  exact List.take_of_length_le (by simp)

end Connection

-- One CIP reply, delivered to both parsers: they differ on the additional status only.
theorem parsers_agree_iff (m : ExplicitMessage) (c : Connection) (r : Reply) (q : ConnectedReply)
    (hcip : q.cip = r.cip) (hm : m.io.rx = r.bytes) (hmctx : r.context = m.sentContext)
    (hc : c.io.rx = q.bytes) (hcctx : q.context = c.sentContext) (hid : q.connId = c.toConnId)
    (hseq : q.sequence = c.sentSequence) :
    ∃ m' c', m.parseResponse = (.ok,m') ∧ c.parseConnectedResponse = (.ok,c') ∧
      c'.replyService = m'.replyService ∧ c'.resultCode = m'.resultCode ∧
      (c'.dataBytes = m'.dataBytes ∧ c'.dataLen = m'.dataLen ↔
        r.cip.getD 3 0 = 0 ∨ r.cip.length = 4) := by
  obtain ⟨m',hparse,_,hservice,hcode,hdata,hlen⟩ := ExplicitMessage.parseResponse_reply hm hmctx
  obtain ⟨c',hparse',_,hservice',hcode',hdata',hlen'⟩ :=
    Connection.parseConnectedResponse_reply hc hcctx hid hseq
  refine ⟨m',c',hparse,hparse',?_,?_,?_⟩
  · rw [hservice,hservice',hcip]
  · rw [hcode,hcode',hcip]
    rfl
  · rw [hdata,hdata',hlen,hlen',hcip,Reply.data,List.length_drop]
    have hfour := r.cip_length
    have hextra : r.extra = 0 ↔ r.cip.getD 3 0 = 0 ∨ r.cip.length = 4 := by
      rw [Reply.extra,← UInt8.toNat_inj]
      simp only [UInt8.toNat_zero]
      omega
    rw [← hextra]
    constructor
    · rintro ⟨_,hsame⟩
      have hle : r.extra ≤ r.cip.length - 4 := Nat.min_le_right _ _
      omega
    · intro hnone
      rw [hnone]
      exact ⟨rfl,rfl⟩

namespace Sample

-- A Read Tag reply with general status 1 and one word of additional status.
def refusal : List UInt8 := [0xCC,0,0x01,1,0x05,0x21]

theorem refusal_fits {cip : List UInt8} (h : 4 ≤ cip.length ∧ cip.length ≤ 6) :
    8 + (itemBytes ([] ++ [⟨0x00B2,cip⟩])).length ≤
      16 + ExplicitMessage.kMaxCipData + ExplicitMessage.kRoutedOverhead := by
  simp [ExplicitMessage.kMaxCipData,ExplicitMessage.kRoutedOverhead]
  omega

def refusalReply (cip : List UInt8) (h : 4 ≤ cip.length ∧ cip.length ≤ 6) : Reply where
  context := 1
  cip := cip
  cip_length := h.1
  trailing_type := Reply.no_trailing
  fits := refusal_fits h

def refusalFrame (cip : List UInt8) (h : 4 ≤ cip.length ∧ cip.length ≤ 6) : ConnectedReply where
  context := 1
  items := [⟨0x00A1,putU32 9⟩,⟨0x00B1,putU16 1 ++ cip⟩]
  address := putU32 9
  sequence := 1
  cip := cip
  address_eq := rfl
  addressed := by simp
  data_eq := rfl
  cip_length := h.1
  fits := by simp [Connection.kMaxDataSize]; omega

def asking (rx : List UInt8) : ExplicitMessage where
  state := .receiving
  sentContext := 1
  io := {rx := rx}

def sending (rx : List UInt8) : Connection where
  state := .sending
  toConnId := 9
  sentContext := 1
  sentSequence := 1
  io := {rx := rx}

theorem parsers_agree_typed : ∃ m' c',
    (asking (refusalReply [0xCC,0,0,0,0xC4,0] (by decide)).bytes).parseResponse = (.ok,m') ∧
      (sending (refusalFrame [0xCC,0,0,0,0xC4,0] (by decide)).bytes).parseConnectedResponse =
        (.ok,c') ∧ m'.dataBytes = [0xC4,0] ∧ c'.dataBytes = m'.dataBytes ∧
          c'.dataLen = m'.dataLen := by
  obtain ⟨m',c',hm,hc,_,_,hiff⟩ := parsers_agree_iff
    (asking (refusalReply [0xCC,0,0,0,0xC4,0] (by decide)).bytes)
    (sending (refusalFrame [0xCC,0,0,0,0xC4,0] (by decide)).bytes)
    (refusalReply [0xCC,0,0,0,0xC4,0] (by decide)) (refusalFrame [0xCC,0,0,0,0xC4,0] (by decide))
    rfl rfl rfl rfl rfl (by decide) rfl
  have hdata : (asking (refusalReply [0xCC,0,0,0,0xC4,0]
      (by decide)).bytes).parseResponse.2.dataBytes = [0xC4,0] := by
    decide
  rw [hm] at hdata
  exact ⟨m',c',hm,hc,hdata,hiff.mpr (Or.inl rfl)⟩

theorem parsers_differ_on_refusal :
    let m := (asking (refusalReply refusal (by decide)).bytes).parseResponse
    let c := (sending (refusalFrame refusal (by decide)).bytes).parseConnectedResponse
    m.1 = .ok ∧ c.1 = .ok ∧ m.2.dataBytes = [] ∧ m.2.dataLen = 0 ∧
      c.2.dataBytes = [0x05,0x21] ∧ c.2.dataLen = 2 := by
  decide

end Sample

end ControlLogix
