import ControlLogix.Cip.ExplicitMessage
import ControlLogix.Server.SyntheticServer

namespace ControlLogix

-- A CIP request: the service, the words of the path, the path and the data.
def cipRequest (service : UInt8) (path data : List UInt8) : List UInt8 :=
  service :: UInt8.ofNat (path.length / 2) :: (path ++ data)

theorem cipRequest_length (service : UInt8) (path data : List UInt8) :
    (cipRequest service path data).length = 2 + path.length + data.length := by
  simp [cipRequest]
  omega

theorem ExplicitMessage.requestFrame_cpf (sessionHandle : UInt32) (context : UInt64)
    (service : UInt8) (path data : List UInt8) :
    requestFrame sessionHandle context service path data =
      headerBytes {command := Command.code .sendRRData,
                   length := UInt16.ofNat (16 + (2 + path.length + data.length)),
                   session := sessionHandle, status := 0, context := context, options := 0} ++
        cpfBody 0 10 [⟨0x0000,[]⟩,⟨0x00B2,cipRequest service path data⟩] := by
  simp only [requestFrame,encodeHeader_blank,cpfBody,itemBytes_cons,itemBytes_nil,CpfItem.bytes,
    cipRequest_length,List.append_assoc,List.append_nil]
  rfl

namespace SyntheticServer

-- The request as the client makes it: to the controller itself, or through it to a slot.
def Request.send (r : Request) (m : ExplicitMessage) (t : TcpConnection) (sessionHandle : UInt32)
    (timeoutMs : UInt32) (w : World) : Status × ExplicitMessage × World :=
  match r.slot with
  | none => m.send t sessionHandle r.service r.path r.rest timeoutMs w
  | some slot => m.sendRouted t sessionHandle slot r.service r.path r.rest timeoutMs w

-- The requests the server can tell apart from an Unconnected Send and from a CIP header cut short.
def Request.plain (r : Request) : Prop :=
  r.slot = none → r.service ≠ unconnectedSend ∧ 2 ≤ r.path.length + r.rest.length

def Request.fits (r : Request) : Prop :=
  2 + r.path.length + r.rest.length ≤ ExplicitMessage.kMaxCipData ∧ r.path.length % 2 = 0

def Request.cip (r : Request) : List UInt8 :=
  match r.slot with
  | none => cipRequest r.service r.path r.rest
  | some slot => cipRequest kUnconnectedSend [0x20,kConnectionManagerClass,0x24,0x01]
      (ExplicitMessage.unconnectedSend slot r.service r.path r.rest)

def Request.frame (r : Request) (sessionHandle : UInt32) (context : UInt64) : List UInt8 :=
  headerBytes {command := Command.code .sendRRData, length := UInt16.ofNat (16 + r.cip.length),
               session := sessionHandle, status := 0, context := context, options := 0} ++
    cpfBody 0 10 [⟨0x0000,[]⟩,⟨0x00B2,r.cip⟩]

theorem frame_direct (sessionHandle : UInt32) (context : UInt64) (service : UInt8)
    (path data : List UInt8) : ExplicitMessage.requestFrame sessionHandle context service path data =
      Request.frame {service := service, path := path, rest := data} sessionHandle context := by
  rw [ExplicitMessage.requestFrame_cpf,← cipRequest_length service]
  rfl

theorem parseCip_cipRequest {service : UInt8} {path data : List UInt8}
    (hsize : path.length ≤ 510) (heven : path.length % 2 = 0) :
    parseCip (cipRequest service path data) =
      {slot := none, service := service, path := path, rest := data} := by
  have hwords : (UInt8.ofNat (path.length / 2)).toNat * 2 = path.length := by
    rw [UInt8.toNat_ofNat']
    omega
  simp only [parseCip,cipRequest,List.getD_cons_zero,List.getD_cons_succ,hwords]
  rw [Nat.add_comm 2]
  simp only [List.drop_succ_cons,List.drop_zero,List.take_left,List.drop_left]

theorem Request.cip_length (r : Request) (hfits : r.fits) :
    r.cip.length ≤ ExplicitMessage.kMaxCipData + ExplicitMessage.kRoutedOverhead := by
  obtain ⟨hlen,_⟩ := hfits
  simp only [cip,ExplicitMessage.kMaxCipData,ExplicitMessage.kRoutedOverhead] at hlen ⊢
  cases r.slot with
  | none =>
    simp only [cipRequest_length]
    omega
  | some slot =>
    have := ExplicitMessage.unconnectedSend_length slot r.service r.path r.rest
    simp only [cipRequest_length,List.length_cons,List.length_nil]
    omega

theorem Request.cip_header (r : Request) (hplain : r.plain) : 4 ≤ r.cip.length := by
  rw [cip]
  cases hslot : r.slot with
  | none =>
    have := (hplain hslot).2
    simp only [cipRequest_length]
    omega
  | some slot =>
    simp only [cipRequest_length,List.length_cons,List.length_nil]
    omega

theorem walk_cip (interface : UInt32) (timeout : UInt16) {items leading : List CpfItem}
    {cip : List UInt8} (hitems : items = leading ++ [⟨0x00B2,cip⟩])
    (hfit : ∀ e ∈ items, e.data.length < 65536) (hcount : items.length < 65536) :
    let body := cpfBody interface timeout items
    walkItems (takeCip body) body (getU16 (body.drop 6)).toNat 8 (body.length - 8) none =
      some (some cip) := by
  intro body
  let pre := putU32 interface ++ (putU16 timeout ++ putU16 (UInt16.ofNat items.length))
  have hbody : body = pre ++ (itemBytes items ++ []) := by
    simp only [body,pre,cpfBody,List.append_assoc,List.append_nil]
  have hcount' : (getU16 (body.drop 6)).toNat = items.length := by
    have hdrop : body.drop 6 = putU16 (UInt16.ofNat items.length) ++ itemBytes items := rfl
    rw [hdrop,getU16_putU16,UInt16.toNat_ofNat']
    omega
  have hlen : body.length - 8 = (itemBytes items).length + ([] : List UInt8).length := by
    rw [cpfBody_length]
    simp
  have hat : body.drop (8 + (itemBytes leading).length + 4) = cip := by
    have hsplit : body = (pre ++ (itemBytes leading ++
        (putU16 0x00B2 ++ putU16 (UInt16.ofNat cip.length)))) ++ cip := by
      rw [hbody,hitems]
      simp [CpfItem.bytes]
    rw [hsplit]
    exact List.drop_left' (by simp [pre]; omega)
  obtain ⟨found,hfound⟩ := pickItems_total (takeCip body)
    (fun a type p len => ⟨if type = cpfUnconnectedData then some ((body.drop p).take len) else a,
      rfl⟩) 8 leading none
  have hwalk := walkItems_items (takeCip body) pre [] hfit none
  rw [← hbody] at hwalk
  rw [hcount',hlen]
  refine hwalk.trans ?_
  have hpre : pre.length = 8 := rfl
  rw [hpre,hitems,pickItems_append,hfound,Option.bind_some,pickItems]
  simp only [takeCip,cpfUnconnectedData,if_true,pickItems,hat,List.take_length]

theorem parseUnconnectedSend_send {slot service : UInt8} {path data : List UInt8}
    (hsize : 2 + path.length + data.length ≤ ExplicitMessage.kMaxCipData)
    (heven : path.length % 2 = 0) :
    parseUnconnectedSend (ExplicitMessage.unconnectedSend slot service path data) =
      some {slot := some slot, service := service, path := path, rest := data} := by
  simp only [ExplicitMessage.kMaxCipData] at hsize
  obtain ⟨pad,hpad⟩ : ∃ pad, ExplicitMessage.unconnectedSend slot service path data =
      [0x0A,0x05] ++ (putU16 (UInt16.ofNat (cipRequest service path data).length) ++
        (cipRequest service path data ++ (pad ++ appendBackplaneRoute slot))) := by
    refine ⟨if (2 + path.length + data.length) % 2 = 1 then [0x00] else [],?_⟩
    simp only [ExplicitMessage.unconnectedSend,cipRequest_length]
    simp only [cipRequest,List.append_assoc,List.cons_append,List.nil_append]
  have hlen : (getU16 ((ExplicitMessage.unconnectedSend slot service path data).drop 2)).toNat =
      (cipRequest service path data).length := by
    have hdrop : (ExplicitMessage.unconnectedSend slot service path data).drop 2 =
        putU16 (UInt16.ofNat (cipRequest service path data).length) ++
          (cipRequest service path data ++ (pad ++ appendBackplaneRoute slot)) := by
      rw [hpad]
      rfl
    rw [hdrop,getU16_putU16,UInt16.toNat_ofNat',cipRequest_length]
    omega
  have htake : ((ExplicitMessage.unconnectedSend slot service path data).drop 4).take
      (cipRequest service path data).length = cipRequest service path data := by
    have hdrop : (ExplicitMessage.unconnectedSend slot service path data).drop 4 =
        cipRequest service path data ++ (pad ++ appendBackplaneRoute slot) := by
      rw [hpad]
      rfl
    rw [hdrop,List.take_left]
  have htotal : (ExplicitMessage.unconnectedSend slot service path data).length =
      4 + (cipRequest service path data).length + pad.length + 4 := by
    rw [hpad]
    simp [appendBackplaneRoute]
    omega
  have hlast : (ExplicitMessage.unconnectedSend slot service path data).getLastD 0 = slot := by
    have hsplit : ExplicitMessage.unconnectedSend slot service path data =
        ([0x0A,0x05] ++ (putU16 (UInt16.ofNat (cipRequest service path data).length) ++
          (cipRequest service path data ++ (pad ++ [0x01,0x00,0x01])))) ++ [slot] := by
      rw [hpad,appendBackplaneRoute]
      simp only [List.append_assoc,List.cons_append,List.nil_append]
    rw [hsplit]
    exact List.getLastD_concat
  rw [parseUnconnectedSend]
  simp only [hlen,htake,hlast,htotal]
  rw [if_neg (by omega),if_neg (by rw [cipRequest_length]; omega),if_pos (by omega),
    parseCip_cipRequest (by omega) heven]

theorem unconnectedRequest_body (interface : UInt32) (timeout : UInt16) {r : Request}
    (hplain : r.plain) (hfits : r.fits) :
    unconnectedRequest (cpfBody interface timeout [⟨0x0000,[]⟩,⟨0x00B2,r.cip⟩]) = some r := by
  have hlen := r.cip_length hfits
  simp only [ExplicitMessage.kMaxCipData,ExplicitMessage.kRoutedOverhead] at hlen
  have hwalk := @walk_cip interface timeout [⟨0x0000,[]⟩,⟨0x00B2,r.cip⟩] [⟨0x0000,[]⟩] r.cip rfl
    (by simp; omega) (by simp)
  rw [unconnectedRequest,if_neg (by rw [cpfBody_length]; omega)]
  simp only [hwalk]
  rw [if_neg (by have := r.cip_header hplain; omega)]
  obtain ⟨hsize,heven⟩ := hfits
  have hwords := hsize
  simp only [ExplicitMessage.kMaxCipData] at hwords
  obtain ⟨slot,service,path,rest⟩ := r
  simp only at hsize heven hwords
  cases slot with
  | none =>
    have hparse : parseCip (cipRequest service path rest) = _ :=
      parseCip_cipRequest (by omega) heven
    simp only [Request.cip,hparse]
    exact if_neg (hplain rfl).1
  | some slot =>
    have hparse : parseCip (cipRequest kUnconnectedSend [0x20,kConnectionManagerClass,0x24,0x01]
      (ExplicitMessage.unconnectedSend slot service path rest)) = _ :=
      parseCip_cipRequest (by simp) rfl
    simp only [Request.cip,hparse]
    exact (if_pos rfl).trans (parseUnconnectedSend_send hsize heven)

theorem Request.send_cases (r : Request) (m : ExplicitMessage) (t : TcpConnection)
    (sessionHandle timeoutMs : UInt32) (w : World) :
    (∃ deadline, r.send m t sessionHandle timeoutMs w =
        (.pending,m.issued (r.frame sessionHandle m.context) deadline,w.millis.2) ∧ r.fits) ∨
    ∃ st, st ≠ .pending ∧ r.send m t sessionHandle timeoutMs w = (st,m,w) := by
  obtain ⟨slot,service,path,rest⟩ := r
  cases slot with
  | none =>
    have hframe := frame_direct sessionHandle m.context service path rest
    simp only [send,ExplicitMessage.send]
    split_ifs with hbusy hconn hlen
    · exact Or.inr ⟨_,by simp,rfl⟩
    · exact Or.inr ⟨_,by simp,rfl⟩
    · exact Or.inr ⟨_,by simp,rfl⟩
    · rw [not_or,not_not,Nat.not_lt] at hlen
      rw [ExplicitMessage.startSend,hframe]
      exact Or.inl ⟨_,rfl,hlen⟩
  | some slot =>
    have hframe := ExplicitMessage.requestFrame_cpf sessionHandle m.context kUnconnectedSend
      [0x20,kConnectionManagerClass,0x24,0x01]
      (ExplicitMessage.unconnectedSend slot service path rest)
    rw [← cipRequest_length kUnconnectedSend] at hframe
    simp only [send,ExplicitMessage.sendRouted]
    split_ifs with hbusy hconn hslot hlen
    · exact Or.inr ⟨_,by simp,rfl⟩
    · exact Or.inr ⟨_,by simp,rfl⟩
    · exact Or.inr ⟨_,by simp,rfl⟩
    · exact Or.inr ⟨_,by simp,rfl⟩
    · rw [not_or,not_not,Nat.not_lt] at hlen
      rw [ExplicitMessage.startSend,hframe]
      exact Or.inl ⟨_,rfl,hlen⟩

theorem Request.send_frame {r : Request} {m : ExplicitMessage} {t : TcpConnection}
    {sessionHandle timeoutMs : UInt32} {w : World}
    (h : (r.send m t sessionHandle timeoutMs w).1 = .pending) :
    (r.send m t sessionHandle timeoutMs w).2.1.io.tx = r.frame sessionHandle m.context ∧ r.fits := by
  rcases r.send_cases m t sessionHandle timeoutMs w with ⟨deadline,heq,hfits⟩ | ⟨st,hst,heq⟩
  · rw [heq]
    exact ⟨rfl,hfits⟩
  · rw [heq] at h
    exact absurd h hst

theorem Request.send_taken {r : Request} {m : ExplicitMessage} {t : TcpConnection}
    (hfits : r.fits) (hslot : ∀ slot, r.slot = some slot → slot ≤ 16) (hm : m.inFlight = false)
    (ht : t.connected = true) (sessionHandle timeoutMs : UInt32) (w : World) :
    (r.send m t sessionHandle timeoutMs w).1 = .pending := by
  have hfree : ¬(m.state = .sending ∨ m.state = .receiving) := by
    rw [← ExplicitMessage.inFlight_iff,hm]
    simp
  obtain ⟨hlen,heven⟩ := hfits
  rw [send]
  cases hroute : r.slot with
  | none =>
    simp only [ExplicitMessage.send]
    rw [if_neg hfree,if_neg (by simp [ht]),if_neg (by omega)]
    rfl
  | some slot =>
    have hsmall : ¬ 16 < slot := UInt8.not_lt.mpr (hslot slot hroute)
    simp only [ExplicitMessage.sendRouted]
    rw [if_neg hfree,if_neg (by simp [ht]),if_neg hsmall,if_neg (by omega)]
    rfl

theorem Request.frame_encapsulated {r : Request} (hfits : r.fits) (sessionHandle : UInt32)
    (context : UInt64) : Encapsulated (r.frame sessionHandle context) := by
  have hlen := r.cip_length hfits
  simp only [ExplicitMessage.kMaxCipData,ExplicitMessage.kRoutedOverhead] at hlen
  refine encapsulated_headerBytes ?_
  rw [cpfBody_length,UInt16.toNat_ofNat']
  simp
  omega

theorem handleConnection_packet (s : SyntheticServer) {packet : List UInt8}
    (h : Encapsulated packet) (more : List UInt8) : s.handleConnection (packet ++ more) =
      match s.handlePacket packet with
      | none => none
      | some (sent,s) => (s.handleConnection more).map fun r => (sent ++ r.1,r.2) := by
  have hne : packet ≠ [] := by
    intro hnil
    have := h.header
    rw [hnil] at this
    cases this
  rw [handleConnection,Packets.cut_packet hne more (packetSize_append _ _ _ h.packetSize),
    handlePackets]
  rfl

theorem handlePacket_frame (s : SyntheticServer) {r : Request} (hplain : r.plain) (hfits : r.fits)
    (sessionHandle : UInt32) (context : UInt64) :
    s.handlePacket (r.frame sessionHandle context) =
      match s.handleCipRequest sessionHandle r.service r.path r.rest with
      | none => none
      | some (cipResp,s) => (unconnectedReply context cipResp).map fun sent => (sent,s) := by
  have hbody : (r.frame sessionHandle context).drop kEncapsulationHeaderSize =
      cpfBody 0 10 [⟨0x0000,[]⟩,⟨0x00B2,r.cip⟩] := List.drop_left' (headerBytes_length _)
  simp only [handlePacket,hbody]
  rw [Request.frame,decodeHeader_headerBytes]
  simp only [handleSendRrData,unconnectedRequest_body 0 10 hplain hfits]
  rfl

-- Frames that agree wherever the context is not.
def SameButContext (a b : List UInt8) : Prop := a.take 12 = b.take 12 ∧ a.drop 20 = b.drop 20

theorem Request.frame_session (r : Request) (sessionHandle : UInt32) (context : UInt64) :
    getU32 (((r.frame sessionHandle context).take 12).drop 4) = sessionHandle := by
  have hdrop : ((r.frame sessionHandle context).take 12).drop 4 =
      putU32 sessionHandle ++ putU32 0 := rfl
  rw [hdrop,getU32_putU32]

theorem Request.frame_body (r : Request) (sessionHandle : UInt32) (context : UInt64) :
    ((r.frame sessionHandle context).drop 20).drop 4 =
      cpfBody 0 10 [⟨0x0000,[]⟩,⟨0x00B2,r.cip⟩] := by
  rw [List.drop_drop]
  exact List.drop_left' (headerBytes_length _)

theorem request_is_dispatched (r : Request) (hplain : r.plain) (m : ExplicitMessage)
    (t : TcpConnection) (sessionHandle timeoutMs : UInt32) (w : World)
    (hsent : (r.send m t sessionHandle timeoutMs w).1 = .pending) :
    let frame := (r.send m t sessionHandle timeoutMs w).2.1.io.tx
    unconnectedRequest (frame.drop kEncapsulationHeaderSize) = some r ∧
    (∀ (s : SyntheticServer) (more : List UInt8), s.handleConnection (frame ++ more) =
      match s.handleCipRequest sessionHandle r.service r.path r.rest with
      | none => none
      | some (cipResp,s) =>
        match unconnectedReply m.context cipResp with
        | none => none
        | some sent => (s.handleConnection more).map fun rest => (sent ++ rest.1,rest.2)) ∧
    ∀ (r' : Request) (m' : ExplicitMessage) (t' : TcpConnection) (sessionHandle' timeoutMs' : UInt32)
      (w' : World), r'.plain → (r'.send m' t' sessionHandle' timeoutMs' w').1 = .pending →
      SameButContext frame (r'.send m' t' sessionHandle' timeoutMs' w').2.1.io.tx →
      r' = r ∧ sessionHandle' = sessionHandle := by
  intro frame
  obtain ⟨hframe,hfits⟩ := Request.send_frame hsent
  have hread := unconnectedRequest_body 0 10 hplain hfits
  refine ⟨?_,?_,?_⟩
  · rw [show frame = r.frame sessionHandle m.context from hframe,
      show kEncapsulationHeaderSize = 20 + 4 from rfl,← List.drop_drop,r.frame_body]
    exact hread
  · intro s more
    rw [show frame = r.frame sessionHandle m.context from hframe,
      s.handleConnection_packet (Request.frame_encapsulated hfits sessionHandle m.context) more,
      s.handlePacket_frame hplain hfits]
    cases s.handleCipRequest sessionHandle r.service r.path r.rest with
    | none => rfl
    | some resp =>
      simp only
      cases unconnectedReply m.context resp.1 with
      | none => rfl
      | some sent => rfl
  · intro r' m' t' sessionHandle' timeoutMs' w' hplain' hsent' hsame
    obtain ⟨hframe',hfits'⟩ := Request.send_frame hsent'
    rw [show frame = r.frame sessionHandle m.context from hframe,hframe'] at hsame
    constructor
    · have hbody := congrArg (fun bs => unconnectedRequest (bs.drop 4)) hsame.2
      simp only [r.frame_body,r'.frame_body,hread,unconnectedRequest_body 0 10 hplain' hfits',
        Option.some.injEq] at hbody
      exact hbody.symm
    · have hsession := congrArg (fun bs => getU32 (bs.drop 4)) hsame.1
      simp only [r.frame_session,r'.frame_session] at hsession
      exact hsession.symm

end SyntheticServer

namespace Sample

open SyntheticServer

-- Read Tag of A, through the controller to slot 3: the embedded request has an odd length.
def routedRead : SyntheticServer.Request where
  slot := some 3
  service := 0x4C
  path := [0x91,1,0x41,0]
  rest := [1]

theorem routedRead_is_dispatched : unconnectedRequest ((routedRead.send {} {fd := 3, state := .ok} 7
    1000 {time := 0, script := {}, log := []}).2.1.io.tx.drop kEncapsulationHeaderSize) =
      some routedRead :=
  (request_is_dispatched routedRead (by intro h; cases h) {} {fd := 3, state := .ok} 7 1000
    {time := 0, script := {}, log := []} (by decide)).1

end Sample

end ControlLogix
