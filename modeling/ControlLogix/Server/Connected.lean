import ControlLogix.Cip.ConnectedReply
import ControlLogix.Server.Answers

namespace ControlLogix

theorem Connection.connectedFrame_cpf (sessionHandle : UInt32) (context : UInt64)
    (otConnId : UInt32) (sequence : UInt16) (service : UInt8) (path data : List UInt8) :
    connectedFrame sessionHandle context otConnId sequence service path data =
      headerBytes {command := Command.code .sendUnitData,
                   length := UInt16.ofNat (22 + (2 + path.length + data.length)),
                   session := sessionHandle, status := 0, context := context, options := 0} ++
        cpfBody 0 0 [⟨0x00A1,putU32 otConnId⟩,
          ⟨0x00B1,putU16 sequence ++ cipRequest service path data⟩] := by
  simp only [connectedFrame,encodeHeader_blank,cpfBody,itemBytes_cons,itemBytes_nil,CpfItem.bytes,
    List.length_append,putU16_length,cipRequest_length,List.append_assoc,List.append_nil]
  rfl

theorem Connection.connectedFrame_encapsulated (sessionHandle : UInt32) (context : UInt64)
    (otConnId : UInt32) (sequence : UInt16) (service : UInt8) {path data : List UInt8}
    (hfits : 2 + path.length + data.length ≤ kMaxDataSize) :
    Encapsulated (connectedFrame sessionHandle context otConnId sequence service path data) := by
  simp only [kMaxDataSize] at hfits
  rw [connectedFrame_cpf]
  refine encapsulated_headerBytes ?_
  rw [cpfBody_length,UInt16.toNat_ofNat']
  simp [cipRequest_length]
  omega

namespace SyntheticServer

variable {s : SyntheticServer}

theorem unitItems_item {body pre post : List UInt8} {e : CpfItem}
    (hbody : body = pre ++ (e.bytes ++ post)) (hfit : e.data.length < 65536)
    (haddr : e.type = cpfConnectedAddress → 4 ≤ e.data.length) (count : Nat)
    (connId : Option UInt32) (connData : Option (List UInt8)) :
    unitItems body (count + 1) pre.length connId connData =
      unitItems body count (pre ++ e.bytes).length
        (if e.type = cpfConnectedAddress then some (getU32 e.data) else connId)
        (if e.type = cpfConnectedData then some e.data else connData) := by
  have hlen : body.length = pre.length + (4 + e.data.length + post.length) := by
    rw [hbody]
    simp
  have hhead : body.drop pre.length = putU16 e.type ++ (putU16 (UInt16.ofNat e.data.length) ++
      (e.data ++ post)) := by
    rw [hbody,List.drop_left,CpfItem.bytes]
    simp only [List.append_assoc]
  have htype : getU16 (body.drop pre.length) = e.type := by rw [hhead,getU16_putU16]
  have hsize : (getU16 (body.drop (pre.length + 2))).toNat = e.data.length := by
    rw [← List.drop_drop,hhead,List.drop_left' (putU16_length _),getU16_putU16,
      UInt16.toNat_ofNat']
    exact Nat.mod_eq_of_lt hfit
  have hdata : body.drop (pre.length + 4) = e.data ++ post := by
    rw [← List.drop_drop,hhead,← List.append_assoc]
    exact List.drop_left' rfl
  have hnext : pre.length + 4 + e.data.length = (pre ++ e.bytes).length := by
    simp
    omega
  rw [unitItems]
  simp only [htype,hsize,hdata]
  rw [if_neg (by omega),if_neg (by omega)]
  by_cases hA : e.type = cpfConnectedAddress
  · have hfour := haddr hA
    have hB : e.type ≠ cpfConnectedData := by rw [hA]; decide
    rw [if_pos hA,if_neg (by omega),if_pos hA,if_neg hB,hnext,getU32_front hfour]
  · rw [if_neg hA,if_neg hA]
    by_cases hB : e.type = cpfConnectedData
    · rw [if_pos hB,if_pos hB,hnext,List.take_left]
    · rw [if_neg hB,if_neg hB,hnext]

theorem unitItems_request (interface : UInt32) (timeout : UInt16) (otConnId : UInt32)
    {connData : List UInt8} (hfit : connData.length < 65536) :
    let body := cpfBody interface timeout [⟨0x00A1,putU32 otConnId⟩,⟨0x00B1,connData⟩]
    unitItems body (getU16 (body.drop 6)).toNat 8 none none = .ok (some otConnId,some connData) := by
  intro body
  let pre := putU32 interface ++ (putU16 timeout ++ putU16 2)
  let addr : CpfItem := ⟨0x00A1,putU32 otConnId⟩
  let data : CpfItem := ⟨0x00B1,connData⟩
  have hcount : (getU16 (body.drop 6)).toNat = 2 := by
    have hdrop : body.drop 6 = putU16 2 ++ itemBytes [addr,data] := rfl
    rw [hdrop,getU16_putU16]
    rfl
  have haddr : body = pre ++ (addr.bytes ++ data.bytes) := by
    simp [body,pre,addr,data,cpfBody]
  have hdata : body = (pre ++ addr.bytes) ++ (data.bytes ++ []) := by
    rw [haddr,List.append_nil]
    exact (List.append_assoc _ _ _).symm
  have hid : getU32 (putU32 otConnId) = otConnId := by
    have := getU32_putU32 otConnId []
    rwa [List.append_nil] at this
  rw [hcount]
  have hA : addr.type = cpfConnectedAddress := rfl
  have hA' : addr.type ≠ cpfConnectedData := show (0x00A1 : UInt16) ≠ 0x00B1 by decide
  have hB : data.type = cpfConnectedData := rfl
  have hB' : data.type ≠ cpfConnectedAddress := show (0x00B1 : UInt16) ≠ 0x00A1 by decide
  have hfirst := unitItems_item haddr (show 4 < 65536 by decide) (fun _ => Nat.le_refl 4) 1 none none
  have hsecond := unitItems_item hdata hfit (fun h => absurd h hB') 0 (some otConnId) none
  rw [if_pos hA,if_neg hA',show addr.data = putU32 otConnId from rfl,hid] at hfirst
  rw [if_pos hB,if_neg hB'] at hsecond
  exact hfirst.trans hsecond

theorem connectedAnswer_fits (clientTo : UInt32) (sequence : UInt16) {cip : List UInt8}
    (hfits : cip.length ≤ 6 + kMaxValue) :
    8 + (itemBytes [⟨0x00A1,putU32 clientTo⟩,⟨0x00B1,putU16 sequence ++ cip⟩]).length ≤
      22 + Connection.kMaxDataSize := by
  simp only [kMaxValue,Connection.kMaxDataSize] at hfits ⊢
  simp
  omega

def connectedAnswer (session : UInt32) (context : UInt64) (clientTo : UInt32) (sequence : UInt16)
    (cip : List UInt8) (hcip : 4 ≤ cip.length) (hfits : cip.length ≤ 6 + kMaxValue) :
    ConnectedReply where
  session := session
  context := context
  items := [⟨0x00A1,putU32 clientTo⟩,⟨0x00B1,putU16 sequence ++ cip⟩]
  address := putU32 clientTo
  sequence := sequence
  cip := cip
  address_eq := rfl
  addressed := by simp
  data_eq := rfl
  cip_length := hcip
  fits := connectedAnswer_fits clientTo sequence hfits

theorem connectedReply_answer (session : UInt32) (context : UInt64) (clientTo : UInt32)
    (sequence : UInt16) {cip : List UInt8} (hcip : 4 ≤ cip.length)
    (hfits : cip.length ≤ 6 + kMaxValue) : connectedReply session context clientTo sequence cip =
      some (connectedAnswer session context clientTo sequence cip hcip hfits).bytes := by
  simp only [kMaxValue] at hfits
  have hbody : putU32 0 ++ putU16 0 ++ putU16 2 ++ putU16 cpfConnectedAddress ++ putU16 4 ++
      putU32 clientTo ++ putU16 cpfConnectedData ++ putU16 (UInt16.ofNat (2 + cip.length)) ++
      putU16 sequence ++ cip =
      (connectedAnswer session context clientTo sequence cip hcip hfits).body := by
    simp only [ConnectedReply.body,connectedAnswer,cpfBody,itemBytes_cons,itemBytes_nil,
      CpfItem.bytes,List.length_append,putU16_length,List.append_assoc,List.append_nil]
    rfl
  have hlen := (connectedAnswer session context clientTo sequence cip hcip hfits).body_length
  have hfit := (connectedAnswer session context clientTo sequence cip hcip hfits).fits
  simp only [Connection.kMaxDataSize] at hfit
  rw [connectedReply,if_neg (by omega),hbody,sendPacket,if_neg (by omega)]
  rfl

theorem handleUnitRequest_length (h : s.Bounded) (r : Request) :
    4 ≤ (s.handleUnitRequest r).1.length ∧ (s.handleUnitRequest r).1.length ≤ 6 + kMaxValue := by
  rw [handleUnitRequest]
  by_cases hread : r.service = readTag
  · rw [if_pos hread]
    exact handleReadTag_length h r.path
  rw [if_neg hread]
  by_cases hwrite : r.service = writeTag
  · rw [if_pos hwrite,handleWriteTag_length]
    simp [kMaxValue]
  · rw [if_neg hwrite]
    simp [kMaxValue]

theorem handleUnitRequest_bounded (h : s.Bounded) {r : Request}
    (hfits : 2 + r.path.length + r.rest.length ≤ Connection.kMaxDataSize) :
    (s.handleUnitRequest r).2.Bounded := by
  rw [handleUnitRequest]
  by_cases hread : r.service = readTag
  · rw [if_pos hread]
    exact h
  rw [if_neg hread]
  by_cases hwrite : r.service = writeTag
  · rw [if_pos hwrite]
    exact handleWriteTag_bounded h _ (by simp only [kMaxValue,Connection.kMaxDataSize] at *; omega)
  · rw [if_neg hwrite]
    exact h

theorem handleUnitRequest_connections (s : SyntheticServer) (r : Request) :
    (s.handleUnitRequest r).2.connections = s.connections := by
  rw [handleUnitRequest]
  split_ifs
  · rfl
  · rw [handleWriteTag]
    split <;> rfl
  · rfl

theorem handleUnitRequest_service (s : SyntheticServer) (r : Request) :
    (s.handleUnitRequest r).1.getD 0 0 = r.service ||| 0x80 := by
  rw [handleUnitRequest]
  split_ifs with hread hwrite
  · rw [hread,handleReadTag]
    split <;> rfl
  · rw [hwrite,handleWriteTag]
    split <;> rfl
  · rfl

theorem handleUnitRequest_memory (s : SyntheticServer) (r : Request) :
    (s.handleUnitRequest r).2.memory =
      if r.service = writeTag ∧ 4 ≤ r.rest.length then
        Function.update s.memory (parseSymbolicPath r.path)
          (some ((getU16 (r.rest.drop 2)).toUInt8,r.rest.drop 4))
      else s.memory := by
  rw [handleUnitRequest]
  by_cases hread : r.service = readTag
  · rw [if_pos hread,if_neg (by rw [hread]; exact fun h => absurd h.1 (by decide))]
  rw [if_neg hread]
  by_cases hwrite : r.service = writeTag
  · rw [if_pos hwrite]
    by_cases hlen : 4 ≤ r.rest.length
    · rw [if_pos ⟨hwrite,hlen⟩,handleWriteTag_stored _ _ hlen]
      exact Dict.memory_set _ _ _
    · rw [if_neg fun h => hlen h.2,handleWriteTag,if_neg hlen]
  · rw [if_neg hwrite,if_neg fun h => hwrite h.1]

theorem handleUnitRequest_read {r : Request} (hread : r.service = readTag) {v : TagValue}
    (h : s.memory (parseSymbolicPath r.path) = some v) :
    (s.handleUnitRequest r).1 = [readTag ||| 0x80,0,0,0] ++ putU16 v.1.toUInt16 ++ v.2 := by
  rw [handleUnitRequest,if_pos hread]
  exact handleReadTag_found h

theorem handleConnection_connected (h : s.Bounded) {session : UInt32} {otConnId toConnId : UInt32}
    (hconn : Dict.get session s.connections = some (otConnId,toConnId)) (context : UInt64)
    (sequence : UInt16) {service : UInt8} {path data : List UInt8}
    (hfits : 2 + path.length + data.length ≤ Connection.kMaxDataSize)
    (heven : path.length % 2 = 0) :
    let r : Request := {service := service, path := path, rest := data}
    s.handleConnection (Connection.connectedFrame session context otConnId sequence service path
        data) =
      some ((connectedAnswer session context toConnId sequence (s.handleUnitRequest r).1
        (handleUnitRequest_length h r).1 (handleUnitRequest_length h r).2).bytes,
        (s.handleUnitRequest r).2) := by
  intro r
  have hbox := Connection.connectedFrame_encapsulated session context otConnId sequence service hfits
  have hpacket := s.handleConnection_packet hbox []
  have hsmall := hfits
  simp only [Connection.kMaxDataSize] at hsmall
  have hbody : (Connection.connectedFrame session context otConnId sequence service path data).drop
      kEncapsulationHeaderSize = cpfBody 0 0 [⟨0x00A1,putU32 otConnId⟩,
        ⟨0x00B1,putU16 sequence ++ cipRequest service path data⟩] := by
    rw [Connection.connectedFrame_cpf]
    exact List.drop_left' (headerBytes_length _)
  have hitems := @unitItems_request 0 0 otConnId (putU16 sequence ++ cipRequest service path data)
    (by simp [cipRequest_length]; omega)
  have hparse : parseCip (cipRequest service path data) = r :=
    parseCip_cipRequest (by omega) heven
  have hunit : s.handleSendUnitData session context (cpfBody 0 0 [⟨0x00A1,putU32 otConnId⟩,
      ⟨0x00B1,putU16 sequence ++ cipRequest service path data⟩]) =
        some ((connectedAnswer session context toConnId sequence (s.handleUnitRequest r).1
          (handleUnitRequest_length h r).1 (handleUnitRequest_length h r).2).bytes,
          (s.handleUnitRequest r).2) := by
    simp only [handleSendUnitData,hitems,hconn]
    rw [if_neg (by rw [cpfBody_length]; omega),if_neg (by simp [cipRequest_length]; omega),
      if_neg (not_not.mpr rfl),List.drop_left' (putU16_length _),hparse,getU16_putU16,
      connectedReply_answer session context toConnId sequence (handleUnitRequest_length h r).1
        (handleUnitRequest_length h r).2]
    rfl
  have hhandled : s.handlePacket (Connection.connectedFrame session context otConnId sequence
      service path data) = some ((connectedAnswer session context toConnId sequence
        (s.handleUnitRequest r).1 (handleUnitRequest_length h r).1
        (handleUnitRequest_length h r).2).bytes,(s.handleUnitRequest r).2) := by
    simp only [handlePacket,hbody]
    rw [Connection.connectedFrame_cpf,decodeHeader_headerBytes]
    exact hunit
  rw [List.append_nil,hhandled] at hpacket
  rw [hpacket]
  simp [handleConnection,Packets.cut_nil,handlePackets]

end SyntheticServer

end ControlLogix
