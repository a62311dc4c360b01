import ControlLogix.Library.Trace
import ControlLogix.Library.Writes

namespace ControlLogix

inductive Status where
  | pending | ok | busy | wouldBlock | closed | timeout | notReady | noMemory | invalidArg | error
  deriving DecidableEq, Repr

def Status.code : Status → Int
  | .pending => 0
  | .ok => 1
  | .busy => 2
  | .wouldBlock => 3
  | .closed => -1
  | .timeout => -2
  | .notReady => -3
  | .noMemory => -4
  | .invalidArg => -5
  | .error => -6

inductive Errno where
  | ewouldblock | eagain | epipe | econnreset | einprogress | other
  deriving DecidableEq, Repr

-- What the board answers during one call, in the order it is asked. A list that has run out
-- answers with the neutral value used in the functions below.
structure Script where
  ticks : List Nat := []
  sockets : List Int := []
  fcntls : List Int := []
  connects : List (Except Errno Unit) := []
  selects : List Int := []
  sockopts : List (Except Errno Int) := []
  recvs : List (Except Errno (List UInt8)) := []
  sends : List (Except Errno Nat) := []
  ethBegins : List Bool := []
  ethConfigs : List Bool := []
  ethLinks : List Bool := []

-- The calls the library makes on the board, and the marks a run leaves on the tag operations.
inductive Event where
  | socket (fd : Int)
  | connect (fd : Int)
  | close (fd : Int)
  | send (fd : Int) (chunk : Writes.Chunk UInt8)
  | recv (fd : Int) (got : List UInt8)
  | ethBegin (up : Bool)
  | ethEnd
  | created (slot : Nat)
  | typed (slot : Nat)
  | started (slot : Nat) (frame : List UInt8)
  | ended (slot : Nat) (st : Status) (accepted : Bool) (rx : List UInt8)
  | aborted (slot : Nat)
  | tagCallback (slot : Nat) (st : Status)
  | stateCallback (st : Status)
  deriving DecidableEq

-- The calls made on the board, and among them those that carry or begin a byte stream.
def Event.board : Event → Bool
  | .socket _ => true
  | .connect _ => true
  | .close _ => true
  | .send _ _ => true
  | .recv _ _ => true
  | .ethBegin _ => true
  | .ethEnd => true
  | _ => false

def Event.wire : Event → Bool
  | .connect _ => true
  | .send _ _ => true
  | .recv _ _ => true
  | _ => false

def Event.hush (e : Event) : Bool := e.board && !e.wire

theorem Event.board_of_hush {e : Event} (h : e.hush = true) : e.board = true :=
  (Bool.and_eq_true_iff.mp h).1

structure World where
  time : Nat
  script : Script
  log : List Event

structure Heard (C : Type) where
  call : C
  script : Script := {}

def expired (now deadline : UInt32) : Bool := decide (0 ≤ (now - deadline).toInt32)

namespace World

def note (w : World) (e : Event) : World := {w with log := e :: w.log}

def hear (w : World) (script : Script) : World := {w with script := script}

def millis (w : World) : UInt32 × World :=
  let now := w.time + w.script.ticks.headD 0
  (UInt32.ofNat now,{w with time := now, script.ticks := w.script.ticks.tail})

def lwipSocket (w : World) : Int × World :=
  let fd := w.script.sockets.headD (-1)
  let w := {w with script.sockets := w.script.sockets.tail}
  (fd,if fd < 0 then w else w.note (.socket fd))

def lwipFcntl (w : World) : Int × World :=
  (w.script.fcntls.headD 0,{w with script.fcntls := w.script.fcntls.tail})

def lwipConnect (w : World) : Except Errno Unit × World :=
  (w.script.connects.headD (.error .einprogress),
    {w with script.connects := w.script.connects.tail})

def lwipSelect (w : World) : Int × World :=
  (w.script.selects.headD 0,{w with script.selects := w.script.selects.tail})

def lwipGetsockopt (w : World) : Except Errno Int × World :=
  (w.script.sockopts.headD (.ok 0),{w with script.sockopts := w.script.sockopts.tail})

def lwipClose (fd : Int) (w : World) : World := w.note (.close fd)

-- A pointer into a buffer is the buffer with an offset; at most length bytes are taken from it.
def lwipSend (fd : Int) (buffer : List UInt8) (off length : Nat) (w : World) :
    Except Errno Nat × World :=
  let answer := w.script.sends.headD (.error .ewouldblock)
  let w := {w with script.sends := w.script.sends.tail}
  match answer with
  | .error e => (.error e,w)
  | .ok n =>
    let n := min n length
    (.ok n,if n = 0 then w else w.note (.send fd ⟨buffer,off,n⟩))

-- Bytes that arrived but were not asked for stay for the next call; no bytes at all is the
-- peer's close.
def lwipRecv (fd : Int) (length : Nat) (w : World) : Except Errno (List UInt8) × World :=
  let answer := w.script.recvs.headD (.error .ewouldblock)
  let rest := w.script.recvs.tail
  match answer with
  | .error e => (.error e,{w with script.recvs := rest})
  | .ok bs =>
    let left := bs.drop length
    let rest := if left = [] then rest else .ok left :: rest
    (.ok (bs.take length),{w with script.recvs := rest}.note (.recv fd (bs.take length)))

def ethBegin (w : World) : Bool × World :=
  let up := w.script.ethBegins.headD true
  (up,{w with script.ethBegins := w.script.ethBegins.tail}.note (.ethBegin up))

def ethConfig (w : World) : Bool × World :=
  (w.script.ethConfigs.headD true,{w with script.ethConfigs := w.script.ethConfigs.tail})

def ethEnd (w : World) : World := w.note .ethEnd

-- ETH.linkUp() and ETH.hasIP(), each asked once.
def ethLink (w : World) : Bool × World :=
  (w.script.ethLinks.headD false,{w with script.ethLinks := w.script.ethLinks.tail})

def Spoke (w w' : World) : Prop := Trace.Grows (fun e => e.board = true) w.log w'.log

def Hushed (w w' : World) : Prop := Trace.Grows (fun e => e.hush = true) w.log w'.log

variable {w a b c : World}

theorem Spoke.refl (w : World) : Spoke w w := Trace.Grows.refl _ _

theorem Spoke.trans (hab : Spoke a b) (hbc : Spoke b c) : Spoke a c := Trace.Grows.trans hab hbc

theorem Hushed.refl (w : World) : Hushed w w := Trace.Grows.refl _ _

theorem Hushed.trans (hab : Hushed a b) (hbc : Hushed b c) : Hushed a c :=
  Trace.Grows.trans hab hbc

theorem Hushed.spoke (h : Hushed a b) : Spoke a b := h.mono fun _ he => Event.board_of_hush he

theorem spoke_of_log (h : b.log = a.log) : Spoke a b := ⟨[],h,by simp⟩

theorem hushed_of_log (h : b.log = a.log) : Hushed a b := ⟨[],h,by simp⟩

theorem hushed_note {e : Event} (h : e.hush = true) (w : World) : Hushed w (w.note e) :=
  Trace.Grows.cons (K := fun e : Event => e.hush = true) h w.log

@[simp] theorem note_log (e : Event) (w : World) : (w.note e).log = e :: w.log := rfl

@[simp] theorem millis_log (w : World) : w.millis.2.log = w.log := rfl

theorem millis_hushed (w : World) : Hushed w w.millis.2 := Hushed.refl w

theorem lwipSocket_hushed (w : World) : Hushed w w.lwipSocket.2 := by
  simp only [lwipSocket]
  split
  · exact Hushed.refl w
  · exact hushed_note rfl _

theorem lwipFcntl_hushed (w : World) : Hushed w w.lwipFcntl.2 := Hushed.refl w

theorem lwipConnect_hushed (w : World) : Hushed w w.lwipConnect.2 := Hushed.refl w

theorem lwipSelect_hushed (w : World) : Hushed w w.lwipSelect.2 := Hushed.refl w

theorem lwipGetsockopt_hushed (w : World) : Hushed w w.lwipGetsockopt.2 := Hushed.refl w

theorem lwipClose_hushed (fd : Int) (w : World) : Hushed w (w.lwipClose fd) := hushed_note rfl w

theorem ethBegin_hushed (w : World) : Hushed w w.ethBegin.2 := hushed_note rfl _

theorem ethConfig_hushed (w : World) : Hushed w w.ethConfig.2 := Hushed.refl w

theorem ethEnd_hushed (w : World) : Hushed w w.ethEnd := hushed_note rfl w

theorem ethLink_hushed (w : World) : Hushed w w.ethLink.2 := Hushed.refl w

end World

end ControlLogix
