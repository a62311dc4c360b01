import ControlLogix.Cip.Cip
import ControlLogix.Cip.ExplicitMessage
import ControlLogix.Eip.Session
import ControlLogix.Sketch.Hosts
import ControlLogix.Sketch.ListIdentity
import ControlLogix.Tag.Strings
import ControlLogix.Transport.Client

namespace ControlLogix

namespace LanInventory

def EIP_PORT : UInt16 := 44818

def SCAN_TIMEOUT_MS : UInt32 := 100

def SESSION_TIMEOUT_MS : UInt32 := 1000

def MESSAGE_TIMEOUT_MS : UInt32 := 1000

-- productName holds the bytes before the zero that is put behind the copied ones.
structure Identity where
  vendor : UInt16 := 0
  deviceType : UInt16 := 0
  productCode : UInt16 := 0
  revMajor : UInt8 := 0
  revMinor : UInt8 := 0
  status : UInt16 := 0
  serial : UInt32 := 0
  productName : List UInt8 := []
  state : UInt8 := 0xFF
  deriving DecidableEq, Repr

def kIdentityAttrs : List UInt8 := [1,2,3,4,5,6,7,8]

def kIdentityAttrCount : Nat := kIdentityAttrs.length

inductive Phase where
  | waitEthernet | scan | connect | register | query | close | done
  deriving DecidableEq, Repr

def identityState (state : UInt8) : String :=
  if state = 0 then "nonexistent/unknown"
  else if state = 1 then "self-testing"
  else if state = 2 then "standby"
  else if state = 3 then "operational"
  else if state = 4 then "major recoverable fault"
  else if state = 5 then "major unrecoverable fault"
  else if state = 6 then "communication fault"
  else if state = 7 then "unconfigured"
  else "unknown"

def KEYSWITCH_RUN : UInt8 := 0x60

def KEYSWITCH_PROG : UInt8 := 0x70

def KEYSWITCH_REMOTE_0 : UInt8 := 0x30

def KEYSWITCH_REMOTE_1 : UInt8 := 0x31

def keyswitchName (statusWord : UInt16) : String :=
  let s0 := statusWord.toUInt8
  let s1 := (statusWord >>> 8).toUInt8
  let remote := s1 = KEYSWITCH_REMOTE_0 ∨ s1 = KEYSWITCH_REMOTE_1
  if s0 = KEYSWITCH_RUN then (if remote then "REMOTE RUN" else "RUN")
  else if s0 = KEYSWITCH_PROG then (if remote then "REMOTE PROG" else "PROG")
  else "UNKNOWN"

structure Report where
  ip : IPAddress
  id : Identity
  name : Option (List UInt8)
  state : String
  switch : String
  deriving DecidableEq, Repr

def printDevice (ip : IPAddress) (id : Identity) : Report where
  ip := ip
  id := id
  name := if id.productName.getD 0 0 ≠ 0 then some (Tag.cString id.productName) else none
  state := identityState id.state
  switch := keyswitchName id.status

-- What becomes of the datagram socket of one query: whether it could be bound, and the datagram
-- that came in time.
structure Udp where
  bound : Bool := true
  datagram : Option (List UInt8) := none
  deriving DecidableEq, Repr

def listIdentityRequest : List UInt8 :=
  encodeHeader (List.replicate 24 0)
    {command := Command.code .listIdentity, length := 0, session := 0, status := 0, context := 0,
     options := 0}

-- The state, and the request as far as it was sent. No read leaves the datagram.
def queryListIdentityState (udp : Udp) (w : World) : UInt8 × List (List UInt8) × World :=
  let (fd,w) := w.lwipSocket
  if fd < 0 then (0xFF,[],w)
  else if !udp.bound then (0xFF,[],w.lwipClose fd)
  else
    let state := match udp.datagram with
      | none => 0xFF
      | some bs => (identityReply (bs.take 512)).getD 0xFF
    (state,[listIdentityRequest],w.lwipClose fd)

end LanInventory

-- The globals of the sketch. Beside them: the addresses connect() was called with, the datagrams
-- sent, and the devices printed, in the order in which that was done.
structure LanInventory where
  gateway : IPAddress
  eth : Client := {}
  tcp : TcpConnection := {}
  session : Session := {}
  msg : ExplicitMessage := {}
  phase : LanInventory.Phase := .waitEthernet
  phaseStarted : UInt32 := 0
  network : IPAddress := {}
  broadcast : IPAddress := {}
  currentIp : IPAddress := {}
  found : Nat := 0
  queryIndex : Nat := 0
  stepStarted : Bool := false
  id : LanInventory.Identity := {}
  probed : List IPAddress := []
  asked : List (IPAddress × List UInt8) := []
  reports : List LanInventory.Report := []

namespace LanInventory

-- What the board answers during one turn of the loop.
structure Turn where
  script : Script := {}
  localIP : IPAddress := {}
  subnetMask : IPAddress := {}
  udp : Udp := {}

def setup (gateway : IPAddress) (w : World) : LanInventory × World :=
  let (st,eth,w) := ({} : Client).begin w
  let (now,w) := w.millis
  ({gateway := gateway, eth := eth, phase := if st = .error then .done else .waitEthernet,
    phaseStarted := now},w)

-- Get Attribute Single of the Identity object of the CPU in slot 0.
def startQuery (s : LanInventory) (w : World) : LanInventory × World :=
  let attr := kIdentityAttrs.getD s.queryIndex 0
  let path := appendClass 1 ++ appendInstance 1 ++ appendAttribute attr
  let (st,msg,w) := s.msg.sendRouted s.tcp s.session.handle 0 (Service.code .getAttributeSingle)
    path [] MESSAGE_TIMEOUT_MS w
  ({s with msg := msg, stepStarted := st = .pending},w)

-- A field is taken when there are bytes enough for it; of a name 63 bytes fit.
def Identity.store (id : Identity) (attr : UInt8) (d : List UInt8) : Identity :=
  let n := d.length
  if attr = 1 then (if 2 ≤ n then {id with vendor := getU16 d} else id)
  else if attr = 2 then (if 2 ≤ n then {id with deviceType := getU16 d} else id)
  else if attr = 3 then (if 2 ≤ n then {id with productCode := getU16 d} else id)
  else if attr = 4 then
    (if 2 ≤ n then {id with revMajor := d.getD 0 0, revMinor := d.getD 1 0} else id)
  else if attr = 5 then (if 2 ≤ n then {id with status := getU16 d} else id)
  else if attr = 6 then (if 4 ≤ n then {id with serial := getU32 d} else id)
  else if attr = 7 then
    (if 0 < n then {id with productName := d.take (if n < 63 then n else 63)} else id)
  else if attr = 8 then (if 1 ≤ n then {id with state := d.getD 0 0} else id)
  else id

-- The answer to the query on the way: its field, if it was answered without an error.
def finishField (s : LanInventory) : Identity :=
  if s.queryIndex < kIdentityAttrCount ∧ s.msg.resultCode = 0 then
    s.id.store (kIdentityAttrs.getD s.queryIndex 0) s.msg.dataBytes
  else s.id

def finishQuery (s : LanInventory) (turn : Turn) (w : World) : LanInventory × World :=
  let s := {s with id := s.finishField, queryIndex := s.queryIndex + 1, stepStarted := false}
  if kIdentityAttrCount ≤ s.queryIndex then
    let (st,sent,w) := queryListIdentityState turn.udp w
    let id := if st ≠ 0xFF then {s.id with state := st} else s.id
    let (_,session) := s.session.close
    let (now,w) := w.millis
    ({s with id := id, asked := s.asked ++ sent.map fun req => (s.currentIp,req),
             reports := s.reports ++ [printDevice s.currentIp id],
             session := session, phase := .close, phaseStarted := now},w)
  else (s,w)

def waitEthernet (s : LanInventory) (turn : Turn) (w : World) : LanInventory × World :=
  let (st,eth,w) := s.eth.poll w
  let s := {s with eth := eth}
  if st = .ok then
    let network := turn.localIP.network turn.subnetMask
    let (now,w) := w.millis
    ({s with network := network, broadcast := turn.localIP.broadcast turn.subnetMask,
             currentIp := network, phase := .scan, phaseStarted := now},w)
  else if st = .error then ({s with phase := .done},w)
  else (s,w)

def scan (s : LanInventory) (turn : Turn) (w : World) : LanInventory × World :=
  let (more,ip) := s.currentIp.nextHost
  let s := {s with currentIp := ip}
  if !more ∨ ip = s.broadcast then ({s with phase := .done},w)
  else if ip = s.gateway ∨ ip = turn.localIP then (s,w)
  else
    let (_,tcp,w) := s.tcp.connect ip.word EIP_PORT SCAN_TIMEOUT_MS w
    let (now,w) := w.millis
    ({s with tcp := tcp, probed := s.probed ++ [ip], phase := .connect, phaseStarted := now},w)

-- session.abort(), tcp.close() and on to the next host.
def giveUp (s : LanInventory) (w : World) : LanInventory × World :=
  let (tcp,w) := s.tcp.close w
  ({s with session := s.session.abort, tcp := tcp, phase := .scan},w)

def connect (s : LanInventory) (w : World) : LanInventory × World :=
  let (st,tcp,w) := s.tcp.poll w
  let s := {s with tcp := tcp}
  if st = .ok then
    let (_,session,w) := s.session.open s.tcp SESSION_TIMEOUT_MS w
    let (now,w) := w.millis
    ({s with session := session, phase := .register, phaseStarted := now},w)
  else if st = .timeout ∨ st = .error ∨ st = .closed then
    let (tcp,w) := s.tcp.close w
    ({s with tcp := tcp, phase := .scan},w)
  else (s,w)

def register (s : LanInventory) (w : World) : LanInventory × World :=
  let (st,session,tcp,w) := s.session.poll s.tcp w
  let s := {s with session := session, tcp := tcp}
  if st = .ok then
    let (now,w) := w.millis
    ({s with id := {}, queryIndex := 0, stepStarted := false, phase := .query,
             phaseStarted := now},w)
  else if st = .timeout ∨ st = .error then s.giveUp w
  else (s,w)

def query (s : LanInventory) (turn : Turn) (w : World) : LanInventory × World :=
  if !s.stepStarted then s.startQuery w
  else
    let (st,msg,tcp,w) := s.msg.poll s.tcp w
    let s := {s with msg := msg, tcp := tcp}
    if st = .ok then s.finishQuery turn w
    else if st = .timeout ∨ st = .error ∨ st = .closed then s.giveUp w
    else (s,w)

def close (s : LanInventory) (w : World) : LanInventory × World :=
  let (st,session,tcp,w) := s.session.poll s.tcp w
  let s := {s with session := session, tcp := tcp}
  if st = .ok ∨ st = .closed then
    let (tcp,w) := s.tcp.close w
    ({s with tcp := tcp, found := s.found + 1, phase := .scan},w)
  else if st = .timeout ∨ st = .error then {s with found := s.found + 1}.giveUp w
  else (s,w)

-- The delays of the loop are time that passes before the clock is looked at next.
def loop (s : LanInventory) (turn : Turn) (w : World) : LanInventory × World :=
  match s.phase with
  | .waitEthernet => s.waitEthernet turn w
  | .scan => s.scan turn w
  | .connect => s.connect w
  | .register => s.register w
  | .query => s.query turn w
  | .close => s.close w
  | .done => (s,w)

structure Run where
  sketch : LanInventory
  world : World

def Run.step (r : Run) (turn : Turn) : Run :=
  let (s,w) := r.sketch.loop turn (r.world.hear turn.script)
  {sketch := s, world := w}

def Run.init (gateway : IPAddress) (w : World) : Run :=
  {sketch := (setup gateway w).1, world := (setup gateway w).2}

def Run.after (gateway : IPAddress) (w : World) (turns : List Turn) : Run :=
  Runs.run Run.step (Run.init gateway w) turns

end LanInventory

end ControlLogix
