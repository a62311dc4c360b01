import ControlLogix.Eip.Cpf
import ControlLogix.Library.Dict
import ControlLogix.Library.Packets

namespace ControlLogix

-- The server of tools/synthetic_eip_server.py. The texts it prints are left out, and so are the
-- two seconds after which it drops a silent client.
namespace SyntheticServer

def registerSession : UInt16 := 0x0065

def unregisterSession : UInt16 := 0x0066

def sendRrDataCommand : UInt16 := 0x006F

def sendUnitDataCommand : UInt16 := 0x0070

def getAttributeSingle : UInt8 := 0x0E

def readTag : UInt8 := 0x4C

def writeTag : UInt8 := 0x4D

def forwardOpen : UInt8 := 0x54

def forwardClose : UInt8 := 0x4E

def unconnectedSend : UInt8 := 0x52

def getInstanceAttributeList : UInt8 := 0x55

def symbolClass : UInt8 := 0x6B

def cpfNullAddress : UInt16 := 0x0000

def cpfUnconnectedData : UInt16 := 0x00B2

def cpfConnectedAddress : UInt16 := 0x00A1

def cpfConnectedData : UInt16 := 0x00B1

def sessionHandle : UInt32 := 0x13572468

-- A name is a Python string, or None when a path is not symbolic.
abbrev Name := Option (List Char)

-- The type code and the raw bytes of a tag.
abbrev TagValue := UInt8 × List UInt8

-- The O->T and the T->O connection ID of a session.
abbrev ConnIds := UInt32 × UInt32

end SyntheticServer

structure SyntheticServer where
  tags : Dict SyntheticServer.Name SyntheticServer.TagValue
  connections : Dict UInt32 SyntheticServer.ConnIds := []
  deriving DecidableEq

namespace SyntheticServer

-- Python's bytes of an ASCII literal.
def ascii (s : List Char) : List UInt8 := s.map fun c => UInt8.ofNat c.toNat

-- decode("ascii","replace").
def decodeAscii (bs : List UInt8) : List Char :=
  bs.map fun b => if b < 128 then Char.ofNat b.toNat else '\uFFFD'

-- encode("ascii") raises on any other character.
def encodeAscii (s : List Char) : Option (List UInt8) :=
  if s.all fun c => c.toNat < 128 then some (ascii s) else none

def init : SyntheticServer where
  tags :=
    [(some "TestDint".toList,0xC4,putU32 1001),
     (some "TestReal".toList,0xCA,putU32 0x4048F5C3),
     (some "TestBool".toList,0xC1,[1]),
     (some "TestInt".toList,0xC3,putU16 0xFF85),
     (some "TestString".toList,0xD0,putU32 11 ++ ascii "Hello World".toList),
     (some "ControllerInfo.Mode".toList,0xC4,putU32 1)]

def identityAttributes : Dict UInt8 (List UInt8) :=
  [(1,putU16 1),(2,putU16 0x000E),(3,putU16 0x0001),(4,[1,20]),(5,putU16 0),
   (6,putU32 0x12345678),(7,13 :: ascii "Synthetic PLC".toList),(8,[3])]

def parseSymbolicPath (path : List UInt8) : Name :=
  match path with
  | 0x91 :: nameLen :: rest => some (decodeAscii (rest.take nameLen.toNat))
  | _ => none

def parseInstanceFromPath (path : List UInt8) : Option Nat :=
  if path.length < 4 ∨ path.getD 0 0 ≠ 0x20 ∨ path.getD 1 0 ≠ symbolClass then none
  else
    let seg := path.getD 2 0
    if seg = 0x24 then some (path.getD 3 0).toNat
    else if seg = 0x25 ∧ 5 ≤ path.length then some (getU16 (path.drop 3)).toNat
    else if seg = 0x26 ∧ 7 ≤ path.length then some (getU32 (path.drop 3)).toNat
    else none

-- The attributes of one symbol. A name that is None or not ASCII raises.
def symbolAttributes (name : Name) (typeCode : UInt8) : List UInt16 → Option (List UInt8)
  | [] => some []
  | attr :: attrs =>
    let record :=
      if attr = 1 then
        name.bind fun name => (encodeAscii name).map fun bs =>
          putU32 (UInt32.ofNat name.length) ++ bs
      else if attr = 2 then some (putU16 typeCode.toUInt16)
      else some (putU32 0)
    match record with
    | none => none
    | some record => (symbolAttributes name typeCode attrs).map fun rest => record ++ rest

def symbolRecords (start : Nat) (attrs : List UInt16) :
    Nat → Dict Name TagValue → Option (List UInt8)
  | _, [] => some []
  | idx, (name,typeCode,_) :: tags =>
    if idx < start then symbolRecords start attrs (idx + 1) tags
    else
      match symbolAttributes name typeCode attrs with
      | none => none
      | some record => (symbolRecords start attrs (idx + 1) tags).map fun rest =>
          putU32 (UInt32.ofNat idx) ++ record ++ rest

-- The attribute IDs a request lists. Fewer bytes than it counts raise.
def requestedAttributes (rest : List UInt8) : Option (List UInt16) :=
  if rest.length < 2 then some [1,2]
  else
    let count := (getU16 rest).toNat
    if rest.length < 2 + count * 2 then none
    else some ((List.range count).map fun i => getU16 (rest.drop (2 + 2 * i)))

def handleGetInstanceAttributeList (s : SyntheticServer) (start : Nat) (rest : List UInt8) :
    Option (List UInt8) :=
  match requestedAttributes rest with
  | none => none
  | some attrs => (symbolRecords start attrs 1 s.tags).map fun records =>
      [getInstanceAttributeList ||| 0x80,0,0,0] ++ records

def handleReadTag (s : SyntheticServer) (path : List UInt8) : List UInt8 :=
  match Dict.get (parseSymbolicPath path) s.tags with
  | some (typeCode,value) => [readTag ||| 0x80,0,0,0] ++ putU16 typeCode.toUInt16 ++ value
  | none => [readTag ||| 0x80,0,0x04,0]

def handleWriteTag (s : SyntheticServer) (path rest : List UInt8) :
    List UInt8 × SyntheticServer :=
  if 4 ≤ rest.length then
    ([writeTag ||| 0x80,0,0,0],
      {s with tags := Dict.set (parseSymbolicPath path)
                ((getU16 (rest.drop 2)).toUInt8,rest.drop 4) s.tags})
  else ([writeTag ||| 0x80,0,0x04,0],s)

-- Nothing stands for an exception, which ends the server.
def handleCipRequest (s : SyntheticServer) (session : UInt32) (service : UInt8)
    (path rest : List UInt8) : Option (List UInt8 × SyntheticServer) :=
  match (if service = getInstanceAttributeList then parseInstanceFromPath path else none) with
  | some start => (s.handleGetInstanceAttributeList start rest).map fun reply => (reply,s)
  | none =>
    if service = getAttributeSingle ∧ 6 ≤ path.length ∧
        path.take 4 = [0x20,0x01,0x24,0x01] then
      if path.getD 4 0 = 0x30 then
        match Dict.get (path.getD 5 0) identityAttributes with
        | none => some ([getAttributeSingle ||| 0x80,0,0x09,0],s)
        | some value => some ([getAttributeSingle ||| 0x80,0,0,0] ++ value,s)
      else some ([getAttributeSingle ||| 0x80,0,0x05,0],s)
    else if service = readTag then some (s.handleReadTag path,s)
    else if service = writeTag then some (s.handleWriteTag path rest)
    else if service = forwardOpen then
      if 10 ≤ rest.length then
        let clientTo := getU32 (rest.drop 6)
        let serverOt := 0x10203040
        some ([forwardOpen ||| 0x80,0,0,0] ++ putU32 serverOt ++ putU32 clientTo ++ putU16 1 ++
            putU16 0x0001,
          {s with connections := Dict.set session (serverOt,clientTo) s.connections})
      else some ([forwardOpen ||| 0x80,0,0x04,0],s)
    else if service = forwardClose then some ([forwardClose ||| 0x80,0,0,0],s)
    else some ([service ||| 0x80,0,0x08,0],s)

-- A length that does not fit its sixteen bits raises.
def sendPacket (command : UInt16) (session status : UInt32) (context : UInt64)
    (body : List UInt8) : Option (List UInt8) :=
  if 65535 < body.length then none
  else some (headerBytes {command := command, length := UInt16.ofNat body.length,
                          session := session, status := status, context := context,
                          options := 0} ++ body)

-- The unconnected-data item the loop over the items keeps.
def takeCip (body : List UInt8) (cip : Option (List UInt8)) (type : UInt16) (p len : Nat) :
    Option (Option (List UInt8)) :=
  some (if type = cpfUnconnectedData then some ((body.drop p).take len) else cip)

-- A CIP request as handle_send_rr_data takes it apart, with the slot it was routed to.
structure Request where
  slot : Option UInt8 := none
  service : UInt8
  path : List UInt8
  rest : List UInt8
  deriving DecidableEq, Repr

def parseCip (cip : List UInt8) : Request where
  service := cip.getD 0 0
  path := (cip.drop 2).take ((cip.getD 1 0).toNat * 2)
  rest := cip.drop (2 + (cip.getD 1 0).toNat * 2)

def parseUnconnectedSend (rest : List UInt8) : Option Request :=
  if rest.length < 4 then none
  else
    let msgLen := (getU16 (rest.drop 2)).toNat
    let embedded := (rest.drop 4).take msgLen
    if embedded.length < 2 then none
    else
      let slot := if 4 + msgLen + 4 ≤ rest.length then rest.getLastD 0 else 0
      some {parseCip embedded with slot := some slot}

-- The part of handle_send_rr_data before the request is handled.
def unconnectedRequest (body : List UInt8) : Option Request :=
  if body.length < 8 then none
  else
    let itemCount := (getU16 (body.drop 6)).toNat
    match walkItems (takeCip body) body itemCount 8 (body.length - 8) none with
    | some (some cip) =>
      if cip.length < 4 then none
      else
        let r := parseCip cip
        if r.service = unconnectedSend then parseUnconnectedSend r.rest else some r
    | _ => none

def unconnectedReply (context : UInt64) (cipResp : List UInt8) : Option (List UInt8) :=
  if 65535 < cipResp.length then none
  else
    sendPacket sendRrDataCommand sessionHandle 0 context
      (putU32 0 ++ putU16 0 ++ putU16 2 ++ putU16 cpfNullAddress ++ putU16 0 ++
        putU16 cpfUnconnectedData ++ putU16 (UInt16.ofNat cipResp.length) ++ cipResp)

def handleSendRrData (s : SyntheticServer) (session : UInt32) (context : UInt64)
    (body : List UInt8) : Option (List UInt8 × SyntheticServer) :=
  match unconnectedRequest body with
  | none => some ([],s)
  | some r =>
    match s.handleCipRequest session r.service r.path r.rest with
    | none => none
    | some (cipResp,s) => (unconnectedReply context cipResp).map fun sent => (sent,s)

inductive Stop where
  | returned | raised
  deriving DecidableEq, Repr

-- The loop of handle_send_unit_data: the connection ID and the connected data it has found.
def unitItems (body : List UInt8) :
    Nat → Nat → Option UInt32 → Option (List UInt8) →
      Except Stop (Option UInt32 × Option (List UInt8))
  | 0, _, connId, connData => .ok (connId,connData)
  | count+1, p, connId, connData =>
    if body.length < p + 4 then .error .returned
    else
      let type := getU16 (body.drop p)
      let len := (getU16 (body.drop (p + 2))).toNat
      let p := p + 4
      if body.length < p + len then .error .returned
      else if type = cpfConnectedAddress then
        if body.length < p + 4 then .error .raised
        else unitItems body count (p + len) (some (getU32 (body.drop p))) connData
      else if type = cpfConnectedData then
        unitItems body count (p + len) connId (some ((body.drop p).take len))
      else unitItems body count (p + len) connId connData

def handleUnitRequest (s : SyntheticServer) (r : Request) : List UInt8 × SyntheticServer :=
  if r.service = readTag then (s.handleReadTag r.path,s)
  else if r.service = writeTag then s.handleWriteTag r.path r.rest
  else ([r.service ||| 0x80,0,0x08,0],s)

def connectedReply (session : UInt32) (context : UInt64) (clientTo : UInt32) (sequence : UInt16)
    (cipResp : List UInt8) : Option (List UInt8) :=
  if 65535 < 2 + cipResp.length then none
  else
    sendPacket sendUnitDataCommand session 0 context
      (putU32 0 ++ putU16 0 ++ putU16 2 ++ putU16 cpfConnectedAddress ++ putU16 4 ++
        putU32 clientTo ++ putU16 cpfConnectedData ++
        putU16 (UInt16.ofNat (2 + cipResp.length)) ++ putU16 sequence ++ cipResp)

def handleSendUnitData (s : SyntheticServer) (session : UInt32) (context : UInt64)
    (body : List UInt8) : Option (List UInt8 × SyntheticServer) :=
  if body.length < 8 then some ([],s)
  else
    match unitItems body (getU16 (body.drop 6)).toNat 8 none none with
    | .error .raised => none
    | .ok (some connId,some connData) =>
      if connData.length < 4 then some ([],s)
      else
        match Dict.get session s.connections with
        | none => some ([],s)
        | some (ot,clientTo) =>
          if connId ≠ ot then some ([],s)
          else
            let (cipResp,s) := s.handleUnitRequest (parseCip (connData.drop 2))
            (connectedReply session context clientTo (getU16 connData) cipResp).map
              fun sent => (sent,s)
    | _ => some ([],s)

-- One turn of the loop of handle_connection: a packet, and the bytes sent back.
def handlePacket (s : SyntheticServer) (packet : List UInt8) :
    Option (List UInt8 × SyntheticServer) :=
  let h := decodeHeader packet
  let body := packet.drop kEncapsulationHeaderSize
  if h.command = registerSession then
    (sendPacket registerSession sessionHandle 0 h.context (putU16 1 ++ putU16 0)).map
      fun sent => (sent,s)
  else if h.command = unregisterSession then
    (sendPacket unregisterSession 0 0 h.context []).map fun sent => (sent,s)
  else if h.command = sendRrDataCommand then s.handleSendRrData h.session h.context body
  else if h.command = sendUnitDataCommand then s.handleSendUnitData h.session h.context body
  else some ([],s)

def handlePackets (s : SyntheticServer) : List (List UInt8) → Option (List UInt8 × SyntheticServer)
  | [] => some ([],s)
  | packet :: packets =>
    match s.handlePacket packet with
    | none => none
    | some (sent,s) => (s.handlePackets packets).map fun r => (sent ++ r.1,r.2)

-- The stream is read one header and then the body it announces.
def handleConnection (s : SyntheticServer) (stream : List UInt8) :
    Option (List UInt8 × SyntheticServer) :=
  s.handlePackets (Packets.cut packetSize stream).1

end SyntheticServer

end ControlLogix
