import ControlLogix.Library.Runs
import ControlLogix.PlcClient

namespace ControlLogix

-- Where a poll() stands that has not returned: in the loop over the tags, before slot next, or in
-- a callback, out of which the sketch may call the client again.
inductive Frame where
  | scan (next : Nat) (disconnected : Bool)
  | tagCallback (next : Nat) (disconnected : Bool)
  | stateCallback
  deriving DecidableEq, Repr

inductive Op where
  | begin
  | connect (ip : UInt32) (port : UInt16) (timeoutMs : UInt32)
  | disconnect
  | poll
  | setCpuSlot (slot : UInt8)
  | createTag (name : Option (List UInt8)) (elementCount : UInt32)
  | destroyTag (handle : Int)
  | read (handle : Int) (timeoutMs : UInt32)
  | write (handle : Int) (timeoutMs : UInt32)
  | abortTag (handle : Int)
  | setTag (handle : Int) (f : Tag.Setter)
  | setTagCallback (set : Bool)
  | setStateCallback (set : Bool)

inductive Act where
  | call (op : Op)
  | advance
  | ret

structure Label where
  act : Act
  script : Script := {}

structure Config (n : Nat) where
  client : PlcClient n
  world : World
  stack : List Frame := []

namespace Config

variable {n : Nat}

def init (memory : Fin n → Buffer Tag.kMaxDataSize) (time : Nat) : Config n where
  client := {tags := fun i => {data := memory i}}
  world := {time := time, script := {}, log := []}

def scanning (s : Config n) : Bool :=
  match s.stack with
  | .scan _ _ :: _ => true
  | _ => false

def enter (p : Poll × PlcClient n × World) (stack : List Frame) : Config n :=
  match p with
  | (.returns _,c,w) => {client := c, world := w, stack := stack}
  | (.calls arg _,c,w) =>
    {client := c, world := w.note (.stateCallback arg), stack := .stateCallback :: stack}
  | (.scans,c,w) => {client := c, world := w, stack := .scan 0 false :: stack}

def started (handle : Int) (r : Status × PlcClient n × World) (stack : List Frame) : Config n :=
  match r with
  | (st,c,w) =>
    {client := c, stack := stack,
     world := if st = .pending then w.note (.started handle.toNat c.msg.io.tx) else w}

def createTag (s : Config n) (name : Option (List UInt8)) (elementCount : UInt32) : Config n :=
  let (h,c) := s.client.createTag name elementCount
  {s with client := c, world := if 0 ≤ h then s.world.note (.created h.toNat) else s.world}

def setTag (s : Config n) (handle : Int) (f : Tag.Setter) : Config n :=
  {s with client := s.client.setTag handle f,
          world := match s.client.validHandle handle with
            | none => s.world
            | some i => if f.types then s.world.note (.typed i) else s.world}

def abortTag (s : Config n) (handle : Int) : Config n :=
  {s with client := (s.client.abortTag handle).2,
          world := match s.client.validHandle handle with
            | none => s.world
            | some i => if (s.client.tags i).inFlight then s.world.note (.aborted i) else s.world}

def call (s : Config n) : Op → Config n
  | .begin =>
    let (_,c,w) := s.client.begin s.world
    {s with client := c, world := w}
  | .connect ip port timeoutMs =>
    let (_,c,w) := s.client.connect ip port timeoutMs s.world
    {s with client := c, world := w}
  | .disconnect =>
    let (_,c,w) := s.client.disconnect s.world
    {s with client := c, world := w}
  | .poll => enter (s.client.poll s.world) s.stack
  | .setCpuSlot slot => {s with client := s.client.setCpuSlot slot}
  | .createTag name elementCount => s.createTag name elementCount
  | .destroyTag handle => {s with client := (s.client.destroyTag handle).2}
  | .read handle timeoutMs => started handle (s.client.read handle timeoutMs s.world) s.stack
  | .write handle timeoutMs => started handle (s.client.write handle timeoutMs s.world) s.stack
  | .abortTag handle => s.abortTag handle
  | .setTag handle f => s.setTag handle f
  | .setTagCallback set => {s with client := s.client.setTagCallback set}
  | .setStateCallback set => {s with client := s.client.setStateCallback set}

def visit (s : Config n) (i : Fin n) (disconnected : Bool) (stack : List Frame) : Config n :=
  let (st,called,c,w) := s.client.visit i s.world
  let w := if (s.client.tags i).inFlight ∧ st ≠ .pending then
      w.note (.ended i st (c.msg.state = .done) c.msg.io.rx) else w
  let disconnected := disconnected || st = .closed
  if called then
    {client := c, world := w.note (.tagCallback i st),
     stack := .tagCallback (i + 1) disconnected :: stack}
  else {client := c, world := w, stack := .scan (i + 1) disconnected :: stack}

def advance (s : Config n) : Config n :=
  match s.stack with
  | .scan next disconnected :: stack =>
    if h : next < n then
      if s.client.inUse ⟨next,h⟩ then s.visit ⟨next,h⟩ disconnected stack
      else {s with stack := .scan (next + 1) disconnected :: stack}
    else enter (s.client.finish disconnected s.world) stack
  | _ => s

def ret (s : Config n) : Config n :=
  match s.stack with
  | .tagCallback next disconnected :: stack => {s with stack := .scan next disconnected :: stack}
  | .stateCallback :: stack => {s with stack := stack}
  | _ => s

def hear (s : Config n) (script : Script) : Config n := {s with world.script := script}

def act (s : Config n) : Act → Config n
  | .call op => if s.scanning then s else s.call op
  | .advance => s.advance
  | .ret => s.ret

def step (s : Config n) (l : Label) : Config n := (s.hear l.script).act l.act

def after (memory : Fin n → Buffer Tag.kMaxDataSize) (time : Nat) (ls : List Label) : Config n :=
  Runs.run step (init memory time) ls

def Reachable (s : Config n) : Prop := ∃ memory time ls, s = after memory time ls

end Config

-- A client of the default pool on zeroed memory, brought up to a registered session.
namespace Sample

def memory : Fin PlcClient.kMaxTags → Buffer Tag.kMaxDataSize :=
  fun _ => ⟨List.replicate Tag.kMaxDataSize 0,List.length_replicate⟩

def registerReply (handle : UInt32) : List UInt8 :=
  headerBytes {command := Command.code .registerSession, length := 4, session := handle,
               context := 1} ++ (putU16 1 ++ putU16 0)

def unregisterReply : List UInt8 :=
  headerBytes {command := Command.code .unregisterSession, session := 7, context := 1}

def dataReply (context : UInt64) (cip : List UInt8) : List UInt8 :=
  headerBytes {command := Command.code .sendRRData, length := UInt16.ofNat (16 + cip.length),
               session := 7, context := context} ++
    (putU32 0 ++ putU16 0 ++ putU16 2 ++ putU16 0 ++ putU16 0 ++ putU16 0x00B2 ++
      putU16 (UInt16.ofNat cip.length)) ++ cip

-- The reply to a read of one DINT whose value is 1.
def dint : List UInt8 := [0xCC,0,0,0,0xC4,0,1,0,0,0]

def call (op : Op) (script : Script := {}) : Label := {act := .call op, script := script}

def advance (k : Nat) (script : Script := {}) : List Label :=
  List.replicate k {act := .advance, script := script}

def online : List Label :=
  [call .begin,call (.connect 1 44818 5000),
   call .poll {ethLinks := [true,true], sockets := [3]},call .poll {selects := [1]},
   call .poll {sends := [.ok 28], recvs := [.ok (registerReply 7)]}]

-- A poll() whose loop visits every slot, all of them with the board answering as in script.
def sweep (script : Script := {}) : List Label :=
  call .poll :: advance (PlcClient.kMaxTags + 1) script

def tagA : Option (List UInt8) := some [0x41]

def tagB : Option (List UInt8) := some [0x42]

def after (ls : List Label) : Config PlcClient.kMaxTags := Config.after memory 0 ls

end Sample

end ControlLogix
