import ControlLogix.Sketch.Hosts
import ControlLogix.Sketch.TagRequests
import ControlLogix.Transport.Client

namespace ControlLogix

namespace ListTags

def TARGET_IP : IPAddress := {a := 192, b := 168, c := 1, d := 20}

def TARGET_PORT : UInt16 := 44818

def CONNECT_TIMEOUT_MS : UInt32 := 5000

def SESSION_TIMEOUT_MS : UInt32 := 5000

inductive Phase where
  | waitEthernet | connect | openSession | enumerate | readValues | done
  deriving DecidableEq, Repr

-- What is printed of a value; a float by its bits.
inductive Printed where
  | nothing
  | unknown
  | bool (v : Bool)
  | integer (v : Int)
  | real (bits : UInt32)
  | lreal (bits : UInt64)
  | text (s : List UInt8)
  | unhandled
  deriving DecidableEq, Repr

-- Of the bytes copied from behind the length; none where they are not all in p.
def readLogixString (p : List UInt8) (outCap : UInt32) : Option (List UInt8) :=
  let len := getU32 p
  let len := if outCap - 1 < len then outCap - 1 else len
  peek p 4 len.toNat

def printValue (data : List UInt8) : Option Printed :=
  if data.length < 2 then some .nothing
  else
    let code := (getU16 data).toUInt8
    let v := data.drop 2
    let n := v.length
    if code = 0xC1 then some (if 1 ≤ n then .bool (v.getD 0 0 ≠ 0) else .unknown)
    else if code = 0xC2 then some (.integer (if 1 ≤ n then (v.getD 0 0).toInt8.toInt else 0))
    else if code = 0xC3 then some (.integer (if 2 ≤ n then (getU16 v).toInt16.toInt else 0))
    else if code = 0xC4 then some (.integer (if 4 ≤ n then (getU32 v).toInt32.toInt else 0))
    else if code = 0xC5 then some (.integer (if 8 ≤ n then (getU64 v).toInt64.toInt else 0))
    else if code = 0xC6 then some (.integer (if 1 ≤ n then (v.getD 0 0).toNat else 0))
    else if code = 0xC7 then some (.integer (if 2 ≤ n then (getU16 v).toNat else 0))
    else if code = 0xC8 then some (.integer (if 4 ≤ n then (getU32 v).toNat else 0))
    else if code = 0xC9 then some (.integer (if 8 ≤ n then (getU64 v).toNat else 0))
    else if code = 0xCA then some (.real (if 4 ≤ n then getU32 v else 0))
    else if code = 0xCB then some (.lreal (if 8 ≤ n then getU64 v else 0))
    else if code = 0xD0 then
      if 4 ≤ n then (readLogixString v 46).map fun s => .text (Tag.cString s) else some (.text [])
    else some .unhandled

-- A line of the second part of the list; what is printed of a value is none where bytes behind the
-- reply go into it.
inductive Line where
  | value (tag : TagEntry) (printed : Option Printed)
  | failed (tag : TagEntry) (st : Status) (code : UInt8)
  deriving DecidableEq, Repr

def Line.tag : Line → TagEntry
  | .value tag _ => tag
  | .failed tag _ _ => tag

def TagEntry.readable (t : TagEntry) : Bool :=
  t.symbolType &&& 0x8000 = 0 ∧ (t.symbolType >>> 13) &&& 0x03 = 0

-- The cursor behind the tags of a row that cannot be read.
def seek : List TagEntry → Nat → Nat
  | [], cursor => cursor
  | t :: rest, cursor => if t.readable then cursor else seek rest (cursor + 1)

end ListTags

-- The globals of the sketch, and the lines it has printed of values.
structure ListTags where
  eth : Client := {}
  conn : TcpConnection := {}
  session : Session := {}
  msg : ExplicitMessage := {}
  inventory : ListTags.Inventory := {}
  nextInstance : UInt32 := 0
  enumerating : Bool := false
  valueCursor : Nat := 0
  phase : ListTags.Phase := .waitEthernet
  values : List ListTags.Line := []

namespace ListTags

def setup (w : World) : ListTags × World :=
  let (_,eth,w) := ({} : Client).begin w
  let (_,w) := w.millis
  ({eth := eth},w)

def waitEthernet (s : ListTags) (w : World) : ListTags × World :=
  let (st,eth,w) := s.eth.poll w
  let s := {s with eth := eth}
  if st = .ok then
    let (_,conn,w) := s.conn.connect TARGET_IP.word TARGET_PORT CONNECT_TIMEOUT_MS w
    ({s with conn := conn, phase := .connect},w)
  else if st = .error then
    let (_,eth,w) := s.eth.begin w
    ({s with eth := eth},w)
  else (s,w)

def connect (s : ListTags) (w : World) : ListTags × World :=
  let (st,conn,w) := s.conn.poll w
  let s := {s with conn := conn}
  if st = .ok then
    let (_,session,w) := s.session.open s.conn SESSION_TIMEOUT_MS w
    ({s with session := session, phase := .openSession},w)
  else if st = .timeout ∨ st = .error then ({s with phase := .done},w)
  else (s,w)

def openSession (s : ListTags) (w : World) : ListTags × World :=
  let (st,session,conn,w) := s.session.poll s.conn w
  let s := {s with session := session, conn := conn}
  if st = .ok then
    ({s with nextInstance := 0, inventory := {s.inventory with tags := []}, enumerating := false,
             phase := .enumerate},w)
  else if st = .timeout ∨ st = .error then ({s with phase := .done},w)
  else (s,w)

-- The batch in the reply, and the phase by its status. The loop over the batch is none if it reads
-- outside the reply or never ends: it goes by the cursor alone, which has one round for each place
-- in the reply.
def finishBatch (s : ListTags) : Option ListTags :=
  let d := s.msg.dataBytes
  (ListTags.enumerate (d.length + 1) d {inventory := s.inventory}).map fun b =>
    let s := {s with inventory := b.inventory, enumerating := false}
    if s.msg.resultCode = 0x00 then {s with valueCursor := 0, phase := .readValues}
    else if s.msg.resultCode = 0x06 then {s with nextInstance := b.last + 1}
    else {s with valueCursor := 0, phase := .readValues}

def enumerateTags (s : ListTags) (w : World) : Option (ListTags × World) :=
  if !s.enumerating then
    let (st,msg,w) := startEnumerate s.msg s.conn s.session.handle s.nextInstance w
    let s := {s with msg := msg}
    some (if st = .pending then {s with enumerating := true} else {s with phase := .done},w)
  else
    let (st,msg,conn,w) := s.msg.poll s.conn w
    let s := {s with msg := msg, conn := conn}
    if st = .pending then some (s,w)
    else if st ≠ .ok then some ({s with phase := .done},w)
    else s.finishBatch.map fun s => (s,w)

def readValues (s : ListTags) (w : World) : ListTags × World :=
  let s := {s with valueCursor := seek (s.inventory.tags.drop s.valueCursor) s.valueCursor}
  match s.inventory.tags[s.valueCursor]? with
  | none => ({s with session := s.session.close.2, phase := .done},w)
  | some tag =>
    if !s.enumerating then
      let (st,msg,w) := startReadTag s.msg s.conn s.session.handle tag.name w
      let s := {s with msg := msg}
      (if st = .pending then {s with enumerating := true}
        else {s with valueCursor := s.valueCursor + 1},w)
    else
      let (st,msg,conn,w) := s.msg.poll s.conn w
      let s := {s with msg := msg, conn := conn}
      if st = .pending then (s,w)
      else
        let line := if st = .ok ∧ msg.resultCode = 0 then .value tag (printValue msg.dataBytes)
          else .failed tag st msg.resultCode
        ({s with values := s.values ++ [line], enumerating := false,
                 valueCursor := s.valueCursor + 1},w)

def done (s : ListTags) (w : World) : ListTags × World :=
  let (conn,w) := s.conn.close w
  ({s with session := s.session.abort, conn := conn},w)

-- Nothing stands for a turn that does not end or that reads outside a reply.
def loop (s : ListTags) (w : World) : Option (ListTags × World) :=
  match s.phase with
  | .waitEthernet => some (s.waitEthernet w)
  | .connect => some (s.connect w)
  | .openSession => some (s.openSession w)
  | .enumerate => s.enumerateTags w
  | .readValues => some (s.readValues w)
  | .done => some (s.done w)

structure Run where
  sketch : ListTags
  world : World

def Run.step (r : Option Run) (script : Script) : Option Run :=
  r.bind fun r => (r.sketch.loop (r.world.hear script)).map fun (s,w) => {sketch := s, world := w}

def Run.init (w : World) : Run := {sketch := (setup w).1, world := (setup w).2}

def Run.after (w : World) (turns : List Script) : Option Run :=
  Runs.run Run.step (some (Run.init w)) turns

end ListTags

end ControlLogix
