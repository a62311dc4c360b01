import ControlLogix.Library.Struct
import ControlLogix.Server.SyntheticServer

namespace ControlLogix

def puts (p : Nat) : List UInt8 → List (Nat × UInt8)
  | [] => []
  | b :: bs => (p,b) :: puts (p + 1) bs

def assign (out : List UInt8) (w : Nat × UInt8) : List UInt8 := out.set w.1 w.2

-- The assignments encodeHeader makes, one byte at a time.
def headerWrites (h : EncapsulationHeader) : List (Nat × UInt8) :=
  puts 0 (putU16 h.command) ++ puts 2 (putU16 h.length) ++ puts 4 (putU32 h.session) ++
    puts 8 (putU32 h.status) ++ puts 12 (putU64 h.context) ++ puts 20 (putU32 h.options)

theorem puts_append (p : Nat) (as bs : List UInt8) :
    puts p (as ++ bs) = puts p as ++ puts (p + as.length) bs := by
  induction as generalizing p with
  | nil => rfl
  | cons a as ih =>
    rw [List.cons_append,puts,puts,ih,List.length_cons,Nat.add_assoc,Nat.add_comm 1,
      List.cons_append]

theorem assign_puts (pre : List UInt8) {bs more : List UInt8} (h : bs.length ≤ more.length) :
    (puts pre.length bs).foldl assign (pre ++ more) = pre ++ (bs ++ more.drop bs.length) := by
  induction bs generalizing pre more with
  | nil => rfl
  | cons b bs ih =>
    cases more with
    | nil => cases h
    | cons m more =>
      have hset : assign (pre ++ m :: more) (pre.length,b) = (pre ++ [b]) ++ more := by
        simp [assign]
      have hplace : pre.length + 1 = (pre ++ [b]).length := by simp
      rw [puts,List.foldl_cons,hset,hplace,ih (pre ++ [b]) (Nat.le_of_succ_le_succ h)]
      simp

theorem headerWrites_eq (h : EncapsulationHeader) : headerWrites h = puts 0 (headerBytes h) := by
  simp only [headerWrites,headerBytes,puts_append,List.append_assoc,putU16_length,putU32_length,
    putU64_length]

theorem encodeHeader_assigns {out : List UInt8} (hout : kEncapsulationHeaderSize ≤ out.length)
    (h : EncapsulationHeader) : encodeHeader out h = (headerWrites h).foldl assign out := by
  have hall : (puts 0 (headerBytes h)).foldl assign out = headerBytes h ++ out.drop 24 :=
    assign_puts [] hout
  rw [headerWrites_eq,encodeHeader_eq,hall]

theorem headerWrites_places (h : EncapsulationHeader) :
    (headerWrites h).map Prod.fst = List.range kEncapsulationHeaderSize := rfl

namespace SyntheticServer

def headerFmt : List Char := "<HHIIQI".toList

def headerFields (h : EncapsulationHeader) : List Nat :=
  [h.command.toNat,h.length.toNat,h.session.toNat,h.status.toNat,h.context.toNat,h.options.toNat]

theorem headerFmt_widths : Struct.widths headerFmt = some [2,2,4,4,8,4] := by decide

theorem pack_header (h : EncapsulationHeader) :
    Struct.pack headerFmt (headerFields h) = some (headerBytes h) := by
  have hcommand : h.command.toNat < 256 ^ 2 := h.command.toNat_lt
  have hlength : h.length.toNat < 256 ^ 2 := h.length.toNat_lt
  have hsession : h.session.toNat < 256 ^ 4 := h.session.toNat_lt
  have hstatus : h.status.toNat < 256 ^ 4 := h.status.toNat_lt
  have hcontext : h.context.toNat < 256 ^ 8 := h.context.toNat_lt
  have hoptions : h.options.toNat < 256 ^ 4 := h.options.toNat_lt
  rw [Struct.pack,headerFmt_widths,Option.bind_some,headerFields,headerBytes]
  simp only [Struct.packAs,if_pos hcommand,if_pos hlength,if_pos hsession,if_pos hstatus,
    if_pos hcontext,if_pos hoptions,Option.map_some,List.append_nil,putU16_eq,putU32_eq,putU64_eq]

theorem unpack_header {b : List UInt8} (hb : b.length = kEncapsulationHeaderSize) :
    Struct.unpack headerFmt b = some (headerFields (decodeHeader b)) := by
  have hback : headerBytes (decodeHeader b) = b := by
    rw [headerBytes_decodeHeader hb.ge]
    exact List.take_of_length_le hb.le
  rw [← Struct.pack_iff,pack_header,hback]

theorem sendPacket_pack (command : UInt16) (session status : UInt32) (context : UInt64)
    (body : List UInt8) : sendPacket command session status context body =
      (Struct.pack headerFmt [command.toNat,body.length,session.toNat,status.toNat,
        context.toNat,0]).map fun header => header ++ body := by
  rw [sendPacket]
  by_cases hlong : 65535 < body.length
  · have hcommand : command.toNat < 256 ^ 2 := command.toNat_lt
    rw [if_pos hlong,Struct.pack,headerFmt_widths,Option.bind_some,Struct.packAs,if_pos hcommand,
      Struct.packAs,if_neg (by omega)]
    rfl
  · rw [if_neg hlong]
    have hlen : (UInt16.ofNat body.length).toNat = body.length := by
      rw [UInt16.toNat_ofNat']
      omega
    have hpack := pack_header {command := command, length := UInt16.ofNat body.length,
                               session := session, status := status, context := context,
                               options := 0}
    rw [headerFields] at hpack
    simp only [hlen] at hpack
    exact (congrArg (Option.map fun header => header ++ body) hpack).symm

theorem unpack_packet {packet : List UInt8} (h : kEncapsulationHeaderSize ≤ packet.length) :
    Struct.unpack headerFmt (packet.take kEncapsulationHeaderSize) =
      some (headerFields (decodeHeader packet)) := by
  have hlen := List.length_take_of_le h
  rw [unpack_header hlen,← decodeHeader_front (List.take_prefix _ _) hlen.ge]

theorem sendPacket_header {command : UInt16} {session status : UInt32} {context : UInt64}
    {body sent : List UInt8} (h : sendPacket command session status context body = some sent) :
    (decodeHeader sent).command = command ∧ (decodeHeader sent).context = context := by
  rw [sendPacket] at h
  split_ifs at h
  cases h
  rw [decodeHeader_headerBytes]
  exact ⟨rfl,rfl⟩

theorem unconnectedReply_header {context : UInt64} {cip sent : List UInt8}
    (h : unconnectedReply context cip = some sent) :
    (decodeHeader sent).command = sendRrDataCommand ∧ (decodeHeader sent).context = context := by
  rw [unconnectedReply] at h
  split_ifs at h
  exact sendPacket_header h

theorem connectedReply_header {session clientTo : UInt32} {context : UInt64} {sequence : UInt16}
    {cip sent : List UInt8} (h : connectedReply session context clientTo sequence cip = some sent) :
    (decodeHeader sent).command = sendUnitDataCommand ∧ (decodeHeader sent).context = context := by
  rw [connectedReply] at h
  split_ifs at h
  exact sendPacket_header h

theorem handleSendRrData_header {s s' : SyntheticServer} {session : UInt32} {context : UInt64}
    {body sent : List UInt8} (h : s.handleSendRrData session context body = some (sent,s')) :
    sent = [] ∨ (decodeHeader sent).command = sendRrDataCommand ∧
      (decodeHeader sent).context = context := by
  rw [handleSendRrData] at h
  cases hrequest : unconnectedRequest body with
  | none =>
    rw [hrequest] at h
    cases h
    exact Or.inl rfl
  | some r =>
    simp only [hrequest] at h
    cases hcip : s.handleCipRequest session r.service r.path r.rest with
    | none =>
      rw [hcip] at h
      cases h
    | some answer =>
      rw [hcip] at h
      obtain ⟨reply,hreply,heq⟩ := Option.map_eq_some_iff.mp h
      cases heq
      exact Or.inr (unconnectedReply_header hreply)

theorem handleSendUnitData_header {s s' : SyntheticServer} {session : UInt32} {context : UInt64}
    {body sent : List UInt8} (h : s.handleSendUnitData session context body = some (sent,s')) :
    sent = [] ∨ (decodeHeader sent).command = sendUnitDataCommand ∧
      (decodeHeader sent).context = context := by
  have hsilent {s'' : SyntheticServer} (heq : some ([],s'') = some (sent,s')) : sent = [] := by
    cases heq
    rfl
  rw [handleSendUnitData] at h
  split_ifs at h with hshort
  · exact Or.inl (hsilent h)
  split at h
  · cases h
  · next connId connData _ =>
    split_ifs at h with hdata
    · exact Or.inl (hsilent h)
    cases hconn : Dict.get session s.connections with
    | none =>
      rw [hconn] at h
      exact Or.inl (hsilent h)
    | some ids =>
      obtain ⟨ot,clientTo⟩ := ids
      simp only [hconn] at h
      split_ifs at h with hid
      · exact Or.inl (hsilent h)
      obtain ⟨reply,hreply,heq⟩ := Option.map_eq_some_iff.mp h
      cases heq
      exact Or.inr (connectedReply_header hreply)
  · exact Or.inl (hsilent h)

theorem handlePacket_echoes {s s' : SyntheticServer} {packet sent : List UInt8}
    (h : s.handlePacket packet = some (sent,s')) :
    sent = [] ∨ (decodeHeader sent).command = (decodeHeader packet).command ∧
      (decodeHeader sent).context = (decodeHeader packet).context := by
  simp only [handlePacket] at h
  split_ifs at h with hregister hunregister hrr hunit
  · obtain ⟨reply,hreply,heq⟩ := Option.map_eq_some_iff.mp h
    cases heq
    rw [hregister]
    exact Or.inr (sendPacket_header hreply)
  · obtain ⟨reply,hreply,heq⟩ := Option.map_eq_some_iff.mp h
    cases heq
    rw [hunregister]
    exact Or.inr (sendPacket_header hreply)
  · rw [hrr]
    exact handleSendRrData_header h
  · rw [hunit]
    exact handleSendUnitData_header h
  · cases h
    exact Or.inl rfl

end SyntheticServer

theorem header_codec_is_a_bijection {out b : List UInt8}
    (hout : kEncapsulationHeaderSize ≤ out.length) (hb : b.length = kEncapsulationHeaderSize)
    (h : EncapsulationHeader) :
    decodeHeader (encodeHeader out h) = h ∧
      encodeHeader out (decodeHeader b) = b ++ out.drop kEncapsulationHeaderSize ∧
      encodeHeader out h = (headerWrites h).foldl assign out ∧
      (headerWrites h).map Prod.fst = List.range kEncapsulationHeaderSize ∧
      Struct.pack SyntheticServer.headerFmt (SyntheticServer.headerFields h) =
        some ((encodeHeader out h).take kEncapsulationHeaderSize) ∧
      Struct.unpack SyntheticServer.headerFmt ((encodeHeader out h).take kEncapsulationHeaderSize) =
        some (SyntheticServer.headerFields h) ∧
      (Struct.unpack SyntheticServer.headerFmt b).bind (Struct.pack SyntheticServer.headerFmt) =
        some b ∧
      (∀ (command : UInt16) (session status : UInt32) (context : UInt64) (body : List UInt8),
        SyntheticServer.sendPacket command session status context body =
          (Struct.pack SyntheticServer.headerFmt [command.toNat,body.length,session.toNat,
            status.toNat,context.toNat,0]).map fun header => header ++ body) ∧
      (∀ packet : List UInt8, kEncapsulationHeaderSize ≤ packet.length →
        Struct.unpack SyntheticServer.headerFmt (packet.take kEncapsulationHeaderSize) =
          some (SyntheticServer.headerFields (decodeHeader packet))) ∧
      ∀ (s s' : SyntheticServer) (body sent : List UInt8),
        s.handlePacket ((encodeHeader out h).take kEncapsulationHeaderSize ++ body) =
          some (sent,s') →
        sent = [] ∨ (decodeHeader sent).command = h.command ∧
          (decodeHeader sent).context = h.context := by
  have hfront : (encodeHeader out h).take kEncapsulationHeaderSize = headerBytes h := by
    rw [encodeHeader_eq]
    exact List.take_left' (headerBytes_length h)
  have hunpack := Struct.pack_iff.mp (SyntheticServer.pack_header h)
  have hb' := SyntheticServer.unpack_header hb
  rw [hfront]
  refine ⟨?_,?_,encodeHeader_assigns hout h,headerWrites_places h,SyntheticServer.pack_header h,
    hunpack,?_,SyntheticServer.sendPacket_pack,fun _ hlen => SyntheticServer.unpack_packet hlen,?_⟩
  · rw [encodeHeader_eq,decodeHeader_headerBytes]
  · rw [encodeHeader_eq,headerBytes_decodeHeader hb.ge]
    exact congrArg (· ++ _) (List.take_of_length_le hb.le)
  · rw [hb',Option.bind_some]
    exact Struct.pack_iff.mpr hb'
  · intro s s' body sent hsent
    have hechoes := SyntheticServer.handlePacket_echoes hsent
    rwa [decodeHeader_headerBytes] at hechoes

namespace Sample

def numbered : EncapsulationHeader where
  command := 0x0201
  length := 0x0403
  session := 0x08070605
  status := 0x0C0B0A09
  context := 0x14131211100F0E0D
  options := 0x18171615

theorem numbered_comes_back :
    decodeHeader (encodeHeader (List.replicate 26 0xAA) numbered) = numbered ∧
      encodeHeader (List.replicate 26 0xAA) (decodeHeader (List.replicate 24 0x55)) =
        List.replicate 24 0x55 ++ [0xAA,0xAA] := by
  have hlong : kEncapsulationHeaderSize ≤ (List.replicate 26 (0xAA : UInt8)).length := by decide
  have hwhole : (List.replicate 24 (0x55 : UInt8)).length = kEncapsulationHeaderSize := by decide
  obtain ⟨hdecode,hencode,_⟩ := header_codec_is_a_bijection hlong hwhole numbered
  exact ⟨hdecode,hencode⟩

end Sample

end ControlLogix
