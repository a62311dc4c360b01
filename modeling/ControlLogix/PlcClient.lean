import ControlLogix.Eip.Session
import ControlLogix.Tag
import ControlLogix.Transport.Client
import Mathlib.Data.Fin.Basic
import Mathlib.Data.Fintype.Basic
import Mathlib.Data.List.FinRange
import Mathlib.Logic.Function.Basic

namespace ControlLogix

inductive PlcClient.State where
  | idle | ethernet | connecting | registering | ready | disconnecting | failed
  deriving DecidableEq, Repr

def PlcClient.kMaxTags : Nat := 8

def PlcClient.kMaxTagName : Nat := 64

-- n stands for kMaxTags, which a sketch may override; the callbacks are known only by being set.
structure PlcClient (n : Nat) where
  eth : Client := {}
  tcp : TcpConnection := {}
  session : Session := {}
  msg : ExplicitMessage := {}
  state : PlcClient.State := .idle
  remoteIp : UInt32 := 0
  remotePort : UInt16 := 0
  wantConnect : Bool := false
  connectTimeoutMs : UInt32 := 0
  deadline : UInt32 := 0
  cpuSlot : UInt8 := kNoRoute
  tags : Fin n → Tag
  inUse : Fin n → Bool := fun _ => false
  tagNames : Fin n → List UInt8 := fun _ => []
  tagElemCount : Fin n → UInt32 := fun _ => 0
  tagPrevStatus : Fin n → Status := fun _ => .pending
  tagCallback : Bool := false
  stateCallback : Bool := false

-- What a poll() comes to: it returns, it invokes the state callback before it returns, or it
-- enters the loop over the tags.
inductive Poll where
  | returns (st : Status)
  | calls (arg st : Status)
  | scans
  deriving DecidableEq, Repr

namespace PlcClient

variable {n : Nat}

def begin (c : PlcClient n) (w : World) : Status × PlcClient n × World :=
  let c := {c with state := .ethernet, wantConnect := false}
  let (st,eth,w) := c.eth.begin w
  (st,{c with eth := eth},w)

def connect (c : PlcClient n) (ip : UInt32) (port : UInt16) (timeoutMs : UInt32) (w : World) :
    Status × PlcClient n × World :=
  let c := {c with remoteIp := ip, remotePort := port, connectTimeoutMs := timeoutMs,
                   wantConnect := false}
  if c.eth.ready then
    let (tcp,w) := c.tcp.close w
    let c := {c with session := c.session.abort, tcp := tcp, state := .connecting}
    let (now,w) := w.millis
    let c := {c with deadline := now + timeoutMs}
    let (st,tcp,w) := c.tcp.connect c.remoteIp c.remotePort timeoutMs w
    let c := {c with tcp := tcp}
    if st ≠ .pending then (st,{c with state := .failed},w) else (.pending,c,w)
  else (.pending,{c with wantConnect := true, state := .ethernet},w)

def disconnect (c : PlcClient n) (w : World) : Status × PlcClient n × World :=
  if c.state = .ready then
    (.pending,{c with state := .disconnecting, session := c.session.close.2},w)
  else
    let (tcp,w) := c.tcp.close w
    (.ok,{c with session := c.session.abort, tcp := tcp, state := .idle},w)

def setCpuSlot (c : PlcClient n) (slot : UInt8) : PlcClient n := {c with cpuSlot := slot}

def notify (c : PlcClient n) (arg st : Status) : Poll :=
  if c.stateCallback then .calls arg st else .returns st

def pollEthernet (c : PlcClient n) (w : World) : Poll × PlcClient n × World :=
  let (st,eth,w) := c.eth.poll w
  let c := {c with eth := eth}
  if st = .ok then
    if c.wantConnect then
      let c := {c with wantConnect := false, state := .connecting}
      let (now,w) := w.millis
      let c := {c with deadline := now + c.connectTimeoutMs}
      let (cst,tcp,w) := c.tcp.connect c.remoteIp c.remotePort c.connectTimeoutMs w
      let c := {c with tcp := tcp}
      if cst ≠ .pending then (.returns cst,{c with state := .failed},w) else (.returns .pending,c,w)
    else (.returns .ok,c,w)
  else if st = .error then (.returns st,{c with state := .failed},w)
  else (.returns .pending,c,w)

def pollConnecting (c : PlcClient n) (w : World) : Poll × PlcClient n × World :=
  let (now,w) := w.millis
  if expired now c.deadline then (.returns .timeout,{c with state := .failed},w)
  else
    let (st,tcp,w) := c.tcp.poll w
    let c := {c with tcp := tcp}
    if st = .ok then
      let (now,w) := w.millis
      let (openSt,session,w) := c.session.open c.tcp (c.deadline - now) w
      let c := {c with session := session}
      if openSt ≠ .pending then (.returns openSt,{c with state := .failed},w)
      else (.returns .pending,{c with state := .registering},w)
    else if st = .timeout ∨ st = .error then (.returns st,{c with state := .failed},w)
    else (.returns .pending,c,w)

def pollRegistering (c : PlcClient n) (w : World) : Poll × PlcClient n × World :=
  let (now,w) := w.millis
  if expired now c.deadline then (.returns .timeout,{c with state := .failed},w)
  else
    let (st,session,tcp,w) := c.session.poll c.tcp w
    let c := {c with session := session, tcp := tcp}
    if st = .ok then (c.notify .ok .ok,{c with state := .ready},w)
    else if st = .timeout ∨ st = .error then (.returns st,{c with state := .failed},w)
    else (.returns .pending,c,w)

def pollDisconnecting (c : PlcClient n) (w : World) : Poll × PlcClient n × World :=
  let (st,session,tcp,w) := c.session.poll c.tcp w
  let c := {c with session := session, tcp := tcp}
  if st = .ok ∨ st = .closed then
    let (tcp,w) := c.tcp.close w
    (c.notify .closed .ok,{c with tcp := tcp, state := .idle},w)
  else (.returns .pending,c,w)

def poll (c : PlcClient n) (w : World) : Poll × PlcClient n × World :=
  match c.state with
  | .ethernet => c.pollEthernet w
  | .connecting => c.pollConnecting w
  | .registering => c.pollRegistering w
  | .ready => (.scans,c,w)
  | .disconnecting => c.pollDisconnecting w
  | .failed => (.returns .error,c,w)
  | .idle => (.returns .notReady,c,w)

-- The body of the loop for a slot in use: the status Tag::poll returned and whether the tag
-- callback is invoked with it.
def visit (c : PlcClient n) (i : Fin n) (w : World) : Status × Bool × PlcClient n × World :=
  let prev := c.tagPrevStatus i
  let (st,tag,msg,tcp,w) := (c.tags i).poll c.msg c.tcp w
  let c := {c with tags := Function.update c.tags i tag, msg := msg, tcp := tcp,
                   tagPrevStatus := Function.update c.tagPrevStatus i st}
  (st,prev = .pending ∧ st ≠ .pending ∧ c.tagCallback,c,w)

def finish (c : PlcClient n) (disconnected : Bool) (w : World) : Poll × PlcClient n × World :=
  if disconnected then
    let (tcp,w) := c.tcp.close w
    (c.notify .closed .closed,{c with session := c.session.abort, tcp := tcp, state := .idle},w)
  else (.returns .ok,c,w)

def findFreeTag (c : PlcClient n) : Option (Fin n) := (List.finRange n).find? fun i => !c.inUse i

def createTag (c : PlcClient n) (name : Option (List UInt8)) (elementCount : UInt32) :
    Int × PlcClient n :=
  match name with
  | none => (Status.code .invalidArg,c)
  | some name =>
    if name = [] ∨ kMaxTagName ≤ name.length then (Status.code .invalidArg,c)
    else
      match c.findFreeTag with
      | none => (Status.code .noMemory,c)
      | some h =>
        (h.val,
          {c with tagNames := Function.update c.tagNames h (name.take (kMaxTagName - 1)),
                  tagElemCount := Function.update c.tagElemCount h elementCount,
                  tagPrevStatus := Function.update c.tagPrevStatus h .notReady,
                  inUse := Function.update c.inUse h true})

def validHandle (c : PlcClient n) (handle : Int) : Option (Fin n) :=
  if h : 0 ≤ handle ∧ handle < n then
    let i : Fin n := ⟨handle.toNat,by omega⟩
    if c.inUse i then some i else none
  else none

def destroyTag (c : PlcClient n) (handle : Int) : Status × PlcClient n :=
  match c.validHandle handle with
  | none => (.invalidArg,c)
  | some i => (.ok,{c with inUse := Function.update c.inUse i false})

def anyTagBusy (c : PlcClient n) : Bool :=
  (List.finRange n).any fun i => c.inUse i && (c.tags i).status = .pending

def read (c : PlcClient n) (handle : Int) (timeoutMs : UInt32) (w : World) :
    Status × PlcClient n × World :=
  match c.validHandle handle with
  | none => (.invalidArg,c,w)
  | some i =>
    if c.state ≠ .ready then (.notReady,c,w)
    else if c.anyTagBusy then (.busy,c,w)
    else
      let (st,tag,msg,w) := (c.tags i).read c.msg c.tcp c.session.handle (some (c.tagNames i))
        (c.tagElemCount i) timeoutMs c.cpuSlot w
      (st,{c with tags := Function.update c.tags i tag, msg := msg},w)

def write (c : PlcClient n) (handle : Int) (timeoutMs : UInt32) (w : World) :
    Status × PlcClient n × World :=
  match c.validHandle handle with
  | none => (.invalidArg,c,w)
  | some i =>
    if c.state ≠ .ready then (.notReady,c,w)
    else if c.anyTagBusy then (.busy,c,w)
    else
      let (st,tag,msg,w) := (c.tags i).write c.msg c.tcp c.session.handle (some (c.tagNames i))
        (c.tagElemCount i) timeoutMs c.cpuSlot w
      (st,{c with tags := Function.update c.tags i tag, msg := msg},w)

def tagStatus (c : PlcClient n) (handle : Int) : Status :=
  match c.validHandle handle with
  | none => .invalidArg
  | some i => (c.tags i).status

def tag (c : PlcClient n) (handle : Int) : Option Tag := (c.validHandle handle).map c.tags

-- A setter called through the pointer tag(handle) returned.
def setTag (c : PlcClient n) (handle : Int) (f : Tag.Setter) : PlcClient n :=
  match c.validHandle handle with
  | none => c
  | some i => {c with tags := Function.update c.tags i ((c.tags i).set f)}

def abortTag (c : PlcClient n) (handle : Int) : Status × PlcClient n :=
  match c.validHandle handle with
  | none => (.invalidArg,c)
  | some i =>
    let (tag,msg) := (c.tags i).abort c.msg
    (.ok,{c with tags := Function.update c.tags i tag, msg := msg,
                 tagPrevStatus := Function.update c.tagPrevStatus i .notReady})

def setTagCallback (c : PlcClient n) (set : Bool) : PlcClient n := {c with tagCallback := set}

def setStateCallback (c : PlcClient n) (set : Bool) : PlcClient n := {c with stateCallback := set}

def ready (c : PlcClient n) : Bool := c.state = .ready

def sessionHandle (c : PlcClient n) : UInt32 := c.session.handle

def tagCount (c : PlcClient n) : Nat := (List.finRange n).countP fun i => c.inUse i

end PlcClient

end ControlLogix
