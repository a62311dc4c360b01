import ControlLogix.Cip.ConnectedReply
import ControlLogix.Cip.MessageRun

namespace ControlLogix

namespace Connection

-- The last two are calls on another connection, which draws from the same static variables.
inductive Op where
  | «open» (sessionHandle : UInt32) (tagName : Option (List UInt8)) (timeoutMs : UInt32)
      (cpuSlot : UInt8)
  | send (sessionHandle : UInt32) (service : UInt8) (path data : List UInt8) (timeoutMs : UInt32)
  | close (sessionHandle timeoutMs : UInt32)
  | poll
  | opensElsewhere
  | closesElsewhere

structure Call where
  op : Op
  conn : TcpConnection := {}
  chip : Chip := {}
  script : Script := {}

structure Run where
  client : Connection := {}
  statics : Statics := {}
  world : World

def exchange (c : Connection) : Option Nat :=
  match c.state with
  | .opening => some 0
  | .sending => some 1
  | .closing => some 2
  | _ => none

def received (c : Connection) (i : Nat) : List UInt8 := if i = 1 then c.io.rx else c.fwd.io.rx

namespace Run

def turn (s : Run) (l : Call) : Status × Run :=
  let w := {s.world with script := l.script}
  match l.op with
  | .open sessionHandle tagName timeoutMs cpuSlot =>
    let (st,c,g,w) :=
      s.client.open l.conn sessionHandle tagName timeoutMs cpuSlot l.chip s.statics w
    (st,{client := c, statics := g,
         world := if st = .pending then w.note (.started 0 c.fwd.io.tx) else w})
  | .send sessionHandle service path data timeoutMs =>
    let (st,c,w) := s.client.send sessionHandle service path data timeoutMs w
    (st,{s with client := c,
                world := if st = .pending then w.note (.started 1 c.io.tx) else w})
  | .close sessionHandle timeoutMs =>
    let (st,c,g,w) := s.client.close l.conn sessionHandle timeoutMs l.chip s.statics w
    (st,{client := c, statics := g,
         world := if st = .pending then w.note (.started 2 c.fwd.io.tx) else w})
  | .poll =>
    let (st,c,_,w) := s.client.poll l.conn w
    (st,{s with
      client := c,
      world := match s.client.exchange with
        | none => w
        | some i => if st = .pending then w else w.note (.ended i st c.isOpen (c.received i))})
  | .opensElsewhere =>
    (.ok,{s with statics := (originatorSerialNumber l.chip.mac
      {s.statics with connSerial := nextSerial s.statics.connSerial}).2})
  | .closesElsewhere => (.ok,{s with statics := (originatorSerialNumber l.chip.mac s.statics).2})

def step (s : Run) (l : Call) : Run := (s.turn l).2

def init (time : Nat) : Run where
  world := {time := time, script := {}, log := []}

def after (time : Nat) (ls : List Call) : Run := Runs.run step (init time) ls

end Run

def forwards (i : Nat) : Bool := i = 0 ∨ i = 2

-- The Forward Open the target accepted last, and its reply.
def accepted : List Event → Option (List UInt8 × List UInt8)
  | [] => none
  | .ended i st _ rx :: log =>
    if i = 0 ∧ st = .ok then (requests forwards log).head?.map fun frame => (frame,rx)
    else accepted log
  | _ :: log => accepted log

-- The sequence number of a connected request, and the T->O connection ID of a Forward Open.
def frameSequence (frame : List UInt8) : UInt16 := getU16 (frame.drop 44)

def frameToConnId (frame : List UInt8) : UInt32 := getU32 (frame.drop 52)

-- A connected send that ends well has read the sequence number of its own request.
def Sequenced : Event → List Event → Prop
  | .ended i st _ rx, past => i = 1 → st = .ok → ∃ frame earlier connId p len,
      requests (only 1) past = frame :: earlier ∧ connectedItems rx = some (connId,p,len) ∧
      getU16 (rx.drop p) = frameSequence frame
  | _, _ => True

-- A connected send that ends well has read the connection ID of the connection that is open.
def Addressed : Event → List Event → Prop
  | .ended i st _ rx, past => i = 1 → st = .ok → ∃ frame reply p len,
      accepted past = some (frame,reply) ∧ connectedItems rx = some (frameToConnId frame,p,len)
  | _, _ => True

theorem sequenced_board {e : Event} (h : e.board = true) (log : List Event) : Sequenced e log := by
  cases e <;> simp_all [Event.board,Sequenced]

theorem addressed_board {e : Event} (h : e.board = true) (log : List Event) : Addressed e log := by
  cases e <;> simp_all [Event.board,Addressed]

theorem accepted_board {e : Event} (h : e.board = true) (log : List Event) :
    accepted (e :: log) = accepted log := by
  cases e <;> simp_all [Event.board,accepted]

theorem frameSequence_connectedFrame (sessionHandle : UInt32) (context : UInt64)
    (otConnId : UInt32) (sequence : UInt16) (service : UInt8) (path data : List UInt8) :
    frameSequence (connectedFrame sessionHandle context otConnId sequence service path data) =
      sequence := by
  simp only [connectedFrame,encodeHeader_blank,frameSequence]
  exact getU16_putU16 _ _

theorem frameContext_connectedFrame (sessionHandle : UInt32) (context : UInt64)
    (otConnId : UInt32) (sequence : UInt16) (service : UInt8) (path data : List UInt8) :
    ExplicitMessage.frameContext
      (connectedFrame sessionHandle context otConnId sequence service path data) = context := by
  simp only [connectedFrame,encodeHeader_blank,ExplicitMessage.frameContext,List.append_assoc]
  rw [decodeHeader_headerBytes]

theorem frameToConnId_openFrame (c : Connection) (sessionHandle : UInt32) (context : UInt64)
    (serial : UInt32) : frameToConnId (c.openFrame sessionHandle context serial) = c.toConnId := by
  have hdata := ExplicitMessage.requestFrame_drop sessionHandle context kForwardOpen managerPath
    (forwardOpenData c.toConnId c.connSerial serial (buildConnectionPath c.cpuSlot c.tagName))
  have hdrop : (c.openFrame sessionHandle context serial).drop (42 + managerPath.length + 6) =
      (forwardOpenData c.toConnId c.connSerial serial
        (buildConnectionPath c.cpuSlot c.tagName)).drop 6 := by
    rw [← List.drop_drop,openFrame,hdata]
  have hplace : frameToConnId (c.openFrame sessionHandle context serial) =
      getU32 ((c.openFrame sessionHandle context serial).drop (42 + managerPath.length + 6)) := rfl
  rw [hplace,hdrop]
  simp only [forwardOpenData,List.append_assoc]
  exact getU32_putU32 _ _

structure Tracks (c : Connection) (log : List Event) : Prop where
  forward : Tracked forwards c.fwd.context c.fwd.sentContext c.fwd.inFlight c.fwd.io log
  own : Tracked (only 1) c.context c.sentContext (c.state = .sending) c.io log
  flies : c.fwd.inFlight = true ↔ c.state = .opening ∨ c.state = .closing
  sequence : c.state = .sending → frameSequence c.io.tx = c.sentSequence
  forwarded : (requests forwards log).length < 2 ^ 64 →
    Trace.Always (Answered forwards (Command.code .sendRRData)) log
  answered : (requests (only 1) log).length < 2 ^ 64 →
    Trace.Always (Answered (only 1) (Command.code .sendUnitData)) log
  sequenced : Trace.Always Sequenced log

namespace Tracks

variable {c : Connection} {log : List Event}

theorem open_close {c' : Connection} {i : Nat} {frame : List UInt8} {deadline : UInt32}
    (h : Tracks c log) (hi : forwards i = true) (hown : only 1 i = false)
    (hframe : ExplicitMessage.frameContext frame = c.fwd.context)
    (hfwd : c'.fwd = c.fwd.issued frame deadline) (hcontext : c'.context = c.context)
    (hstate : c'.state = .opening ∨ c'.state = .closing) :
    Tracks c' (.started i frame :: log) := by
  have hrest : c'.state ≠ .sending := by rcases hstate with hs | hs <;> simp [hs]
  have hreq : requests (only 1) (.started i frame :: log) = requests (only 1) log := by
    simp [requests,hown]
  have hmore : requests forwards (.started i frame :: log) = frame :: requests forwards log :=
    if_pos hi
  refine ⟨?_,?_,?_,fun hs => absurd hs hrest,fun hcount => ⟨trivial,h.forwarded ?_⟩,
    fun hcount => ⟨trivial,h.answered (hreq ▸ hcount)⟩,⟨trivial,h.sequenced⟩⟩
  · rw [hfwd]
    exact h.forward.issued hi hframe
  · rw [hcontext,decide_eq_false hrest]
    exact h.own.idle _ _ hreq
  · rw [hfwd]
    simp [ExplicitMessage.issued,ExplicitMessage.inFlight,hstate]
  · rw [hmore] at hcount
    exact Nat.lt_of_succ_lt hcount

theorem send (h : Tracks c log) (hopen : c.state = .open) (sessionHandle : UInt32)
    (service : UInt8) (path data : List UInt8) (deadline : UInt32) :
    Tracks (c.loaded (connectedFrame sessionHandle c.context c.otConnId c.sequence service path
      data) deadline) (.started 1 (connectedFrame sessionHandle c.context c.otConnId c.sequence
      service path data) :: log) := by
  have hflies : c.fwd.inFlight = false := by
    rw [← Bool.not_eq_true,h.flies,hopen]
    simp
  refine ⟨?_,h.own.issued rfl (frameContext_connectedFrame _ _ _ _ _ _ _),?_,
    fun _ => frameSequence_connectedFrame _ _ _ _ _ _ _,
    fun hcount => ⟨trivial,h.forwarded hcount⟩,
    fun hcount => ⟨trivial,h.answered (Nat.lt_of_succ_lt hcount)⟩,⟨trivial,h.sequenced⟩⟩
  · simp only [loaded]
    rw [hflies]
    exact h.forward.idle _ _ rfl
  · simp [loaded,hflies]

theorem spoke {w w' : World} (h : Tracks c w.log) (hspoke : World.Spoke w w') :
    (∀ P, requests P w'.log = requests P w.log) ∧
      ((requests forwards w.log).length < 2 ^ 64 →
        Trace.Always (Answered forwards (Command.code .sendRRData)) w'.log) ∧
      ((requests (only 1) w.log).length < 2 ^ 64 →
        Trace.Always (Answered (only 1) (Command.code .sendUnitData)) w'.log) ∧
      Trace.Always Sequenced w'.log :=
  ⟨fun _ => hspoke.reading fun _ he past => requests_board he past,
    fun hcount => hspoke.always (fun _ he past => answered_board he past) (h.forwarded hcount),
    fun hcount => hspoke.always (fun _ he past => answered_board he past) (h.answered hcount),
    hspoke.always (fun _ he past => sequenced_board he past) h.sequenced⟩

theorem forward_waits {t t' : TcpConnection} {w w' : World} {fwd : ExplicitMessage}
    (h : Tracks c w.log) (hfly : c.fwd.inFlight = true)
    (hp : ExplicitMessage.Polled c.fwd t w .pending fwd t' w') :
    Tracks {c with fwd := fwd} w'.log := by
  obtain ⟨hreq,hforwarded,hanswered,hsequenced⟩ := h.spoke hp.io.spoke
  have htracked := hfly ▸ h.forward
  have hended : fwd.inFlight = true ∧ (c.fwd.io.Paced → fwd.io.Paced) := by simpa using hp.ended
  have hnot : decide (c.state = .sending) = false := by
    rcases h.flies.mp hfly with hs | hs <;> simp [hs]
  refine ⟨?_,?_,?_,h.sequence,fun hcount => hforwarded (hreq _ ▸ hcount),
    fun hcount => hanswered (hreq _ ▸ hcount),hsequenced⟩
  · rw [hp.context,hp.sentContext,hended.1]
    exact htracked.moved hp.io (hended.2 (htracked.flight rfl).2.2.2)
  · have hidle := h.own.idle c.sentContext c.io (hreq (only 1))
    rwa [← hnot] at hidle
  · simp only [hended.1,true_iff]
    exact h.flies.mp hfly

theorem forward_ends {t t' : TcpConnection} {w w' : World} {st : Status}
    {fwd : ExplicitMessage} (h : Tracks c w.log) (hfly : c.fwd.inFlight = true)
    (hpoll : c.fwd.poll t w = (st,fwd,t',w'))
    (hp : ExplicitMessage.Polled c.fwd t w st fwd t' w') (hst : st ≠ .pending)
    (c' : Connection) (i : Nat) (st' : Status) (a : Bool) (hfwd : c'.fwd = fwd)
    (hcontext : c'.context = c.context) (hfree : c'.busy = false) (hown : only 1 i = false)
    (hok : st' = .ok → st = .ok) : Tracks c' (.ended i st' a fwd.io.rx :: w'.log) := by
  subst hfwd
  obtain ⟨hreq,hforwarded,hanswered,hsequenced⟩ := h.spoke hp.io.spoke
  have htracked := hfly ▸ h.forward
  have hquiet : c'.fwd.inFlight = false := by
    rcases hp.ended with ⟨hwait,_⟩ | ⟨_,hdone,_⟩ | ⟨_,hfailed⟩
    · exact absurd hwait hst
    · simp [ExplicitMessage.inFlight,hdone]
    · simp [ExplicitMessage.inFlight,hfailed]
  have hfree' : c'.state ≠ .opening ∧ c'.state ≠ .sending ∧ c'.state ≠ .closing := by
    simpa [busy] using hfree
  refine ⟨?_,?_,?_,fun hs => absurd hs hfree'.2.1,fun hcount => ⟨?_,hforwarded (hreq _ ▸ hcount)⟩,
    fun hcount => ⟨fun hi => ?_,hanswered (hreq _ ▸ hcount)⟩,⟨fun hi => ?_,hsequenced⟩⟩
  · rw [hquiet,hp.context]
    exact htracked.idle _ _ (hreq _)
  · rw [hcontext,decide_eq_false hfree'.2.1]
    exact h.own.idle _ _ (hreq _)
  · simp [hquiet,hfree']
  · intro hi hst'
    obtain rfl := hok hst'
    obtain ⟨hbox,hcommand,hstatus,hheader⟩ :=
      ExplicitMessage.poll_taken hfly (htracked.flight rfl).2.2.2 hpoll
    exact htracked.answered hp.io (hreq forwards ▸ hcount) hbox hcommand hstatus hheader i a st'
      hi hst'
  · rw [hown] at hi
    cases hi
  · simp [only,hi] at hown

theorem own_waits {c' : Connection} {t t' : TcpConnection} {w w' : World} (h : Tracks c w.log)
    (hc : c.state = .sending) (hp : Exchanged c t w .pending c' t' w') : Tracks c' w'.log := by
  obtain ⟨hreq,hforwarded,hanswered,hsequenced⟩ := h.spoke hp.io.spoke
  have hended : c'.state = .sending ∧ (c.io.Paced → c'.io.Paced) := by simpa using hp.ended
  have htracked := h.own
  rw [decide_eq_true hc] at htracked
  have hquiet : c.fwd.inFlight = false := by
    rw [← Bool.not_eq_true,h.flies,hc]
    simp
  refine ⟨?_,?_,?_,?_,fun hcount => hforwarded (hreq _ ▸ hcount),
    fun hcount => hanswered (hreq _ ▸ hcount),hsequenced⟩
  · rw [hp.kept]
    simp only [hquiet]
    exact h.forward.idle _ _ (hreq _)
  · have hmoved := htracked.moved hp.io (hended.2 (htracked.flight rfl).2.2.2)
    rw [decide_eq_true hended.1,hp.kept]
    rw [hp.kept] at hmoved
    exact hmoved
  · rw [hended.1,hp.kept]
    simp [hquiet]
  · intro _
    rw [hp.io.tx_eq,h.sequence hc,hp.kept]

theorem own_ends {c' : Connection} {t t' : TcpConnection} {w w' : World} {st : Status}
    (h : Tracks c w.log) (hc : c.state = .sending) (hp : Exchanged c t w st c' t' w')
    (hst : st ≠ .pending) (a : Bool) : Tracks c' (.ended 1 st a c'.io.rx :: w'.log) := by
  obtain ⟨hreq,hforwarded,hanswered,hsequenced⟩ := h.spoke hp.io.spoke
  have htracked := h.own
  rw [decide_eq_true hc] at htracked
  have hquiet : c.fwd.inFlight = false := by
    rw [← Bool.not_eq_true,h.flies,hc]
    simp
  have hfree : c'.state = .open ∨ c'.state = .failed := by
    rcases hp.ended with ⟨hwait,_⟩ | ⟨_,hs,_⟩ | ⟨_,_,hs⟩
    · exact absurd hwait hst
    · exact Or.inl hs
    · exact Or.inr hs
  have hrest : c'.state ≠ .sending := by rcases hfree with hs | hs <;> simp [hs]
  have hpaced := (htracked.flight rfl).2.2.2
  have hgood (hok : st = .ok) := (hp.ended.resolve_left (by simp [hst])).resolve_right (by simp [hok])
  refine ⟨?_,?_,?_,fun hs => absurd hs hrest,fun hcount => ⟨fun hi => ?_,hforwarded (hreq _ ▸ hcount)⟩,
    fun hcount => ⟨?_,hanswered (hreq _ ▸ hcount)⟩,⟨fun _ hok => ?_,hsequenced⟩⟩
  · rw [hp.kept]
    simp only [hquiet]
    exact h.forward.idle _ _ (hreq _)
  · rw [decide_eq_false hrest,hp.kept]
    exact h.own.idle _ _ (hreq _)
  · rw [show c'.fwd = c.fwd by rw [hp.kept]]
    rcases hfree with hs | hs <;> simp [hquiet,hs]
  · exact absurd hi (by decide)
  · intro hi hok
    obtain ⟨_,_,hbox,hcommand,hstatus,hcontext,_⟩ := hgood hok
    exact htracked.answered hp.io (hreq (only 1) ▸ hcount) (hbox hpaced) hcommand hstatus hcontext
      1 a st hi hok
  · obtain ⟨_,_,_,_,_,_,p,len,hitems,hseq⟩ := hgood hok
    obtain ⟨earlier,hcur⟩ := (htracked.flight rfl).1
    exact ⟨c.io.tx,earlier,c.toConnId,p,len,by rw [hreq,hcur],hitems,by rw [hseq,h.sequence hc]⟩

end Tracks

def Call.opens (l : Call) (c : Connection) : Bool :=
  match l.op with
  | .open _ tagName _ _ => c.opens tagName
  | _ => false

theorem Call.opens_free {l : Call} {c : Connection} (h : l.opens c = true) : c.busy = false := by
  simp only [Call.opens] at h
  split at h
  · next tagName _ _ _ =>
    cases tagName with
    | none => cases h
    | some name =>
      simp only [Connection.opens,Bool.and_eq_true,Bool.not_eq_true'] at h
      exact h.2
  · cases h

inductive Moves (s : Run) (l : Call) : Status × Run → Prop
  | still {st : Status} {s' : Run} : s'.client = s.client → s'.world.log = s.world.log →
      (s.statics.serial ≠ 0 → s'.statics.serial = s.statics.serial) → Moves s l (st,s')
  | drawn {st : Status} {name : List UInt8} {cpuSlot : UInt8} {chip : Chip} {g : Statics}
      {w : World} : st ≠ .pending → l.opens s.client = true →
      s.client.fwd.inFlight = true ∨ l.conn.connected = false → w.log = s.world.log →
      Moves s l (st,⟨s.client.drawn name cpuSlot chip s.statics,g,w⟩)
  | opens {c : Connection} {sessionHandle serial deadline : UInt32} {g : Statics} {w : World} :
      c.toConnId ≠ 0 → c.context = s.client.context → g.serial = serial → serial ≠ 0 →
      w.log = .started 0 (c.openFrame sessionHandle s.client.fwd.context serial) :: s.world.log →
      Moves s l (.pending,
        ⟨{c with
            fwd := s.client.fwd.issued (c.openFrame sessionHandle s.client.fwd.context serial)
              deadline,
            state := .opening},g,w⟩)
  | sends {sessionHandle deadline : UInt32} {service : UInt8} {path data : List UInt8}
      {w : World} : s.client.state = .open →
      w.log = .started 1 (connectedFrame sessionHandle s.client.context s.client.otConnId
        s.client.sequence service path data) :: s.world.log →
      Moves s l (.pending,⟨s.client.loaded (connectedFrame sessionHandle s.client.context
        s.client.otConnId s.client.sequence service path data) deadline,s.statics,w⟩)
  | closes {sessionHandle serial deadline : UInt32} {g : Statics} {w : World} :
      w.log = .started 2 (s.client.closeFrame sessionHandle s.client.fwd.context serial) ::
        s.world.log →
      Moves s l (.pending,
        ⟨{s.client with
            fwd := s.client.fwd.issued
              (s.client.closeFrame sessionHandle s.client.fwd.context serial) deadline,
            state := .closing},g,w⟩)
  | waits {fwd : ExplicitMessage} {t : TcpConnection} {w : World} : l.op = .poll →
      s.client.fwd.inFlight = true →
      ExplicitMessage.Polled s.client.fwd l.conn {s.world with script := l.script} .pending fwd t w →
      Moves s l (.pending,⟨{s.client with fwd := fwd},s.statics,w⟩)
  | grants {fwd : ExplicitMessage} {t : TcpConnection} {w w' : World} : l.op = .poll →
      s.client.state = .opening → s.client.fwd.inFlight = true →
      s.client.fwd.poll l.conn {s.world with script := l.script} = (.ok,fwd,t,w) →
      ExplicitMessage.Polled s.client.fwd l.conn {s.world with script := l.script} .ok fwd t w →
      fwd.resultCode = 0 → getU32 fwd.dataBytes ≠ 0 →
      getU32 (fwd.dataBytes.drop 4) = s.client.toConnId → s.client.toConnId ≠ 0 →
      w'.log = .ended 0 .ok true fwd.io.rx :: w.log →
      Moves s l (.ok,
        ⟨{s.client with fwd := fwd, otConnId := getU32 fwd.dataBytes, state := .open},
          s.statics,w'⟩)
  | ends {fwd : ExplicitMessage} {t : TcpConnection} {w w' : World} {st st' : Status}
      {state : State} {i : Nat} {a : Bool} : l.op = .poll → s.client.fwd.inFlight = true →
      s.client.fwd.poll l.conn {s.world with script := l.script} = (st,fwd,t,w) →
      ExplicitMessage.Polled s.client.fwd l.conn {s.world with script := l.script} st fwd t w →
      st ≠ .pending → st' ≠ .pending → state = .closed ∨ state = .failed →
      i = 0 ∧ st' ≠ .ok ∨ i = 2 ∧ st' = st →
      w'.log = .ended i st' a fwd.io.rx :: w.log →
      Moves s l (st',⟨{s.client with fwd := fwd, state := state},s.statics,w'⟩)
  | awaits {c : Connection} {t : TcpConnection} {w : World} : l.op = .poll →
      s.client.state = .sending →
      Exchanged s.client l.conn {s.world with script := l.script} .pending c t w →
      Moves s l (.pending,⟨c,s.statics,w⟩)
  | answers {c : Connection} {t : TcpConnection} {w w' : World} {st : Status} {a : Bool} :
      l.op = .poll → s.client.state = .sending → st ≠ .pending →
      Exchanged s.client l.conn {s.world with script := l.script} st c t w →
      w'.log = .ended 1 st a c.io.rx :: w.log → Moves s l (st,⟨c,s.statics,w'⟩)

theorem Run.poll_moves {s : Run} (h : Tracks s.client s.world.log) {l : Call} (hl : l.op = .poll) :
    Moves s l (s.turn l) := by
  have hfly (hs : s.client.state = .opening ∨ s.client.state = .closing) :=
    h.flies.mpr hs
  simp only [Run.turn,hl]
  cases hst : s.client.state with
  | idle =>
    simp only [poll,exchange,hst]
    exact .still rfl rfl fun _ => rfl
  | «open» =>
    simp only [poll,exchange,hst]
    exact .still rfl rfl fun _ => rfl
  | closed =>
    simp only [poll,exchange,hst]
    exact .still rfl rfl fun _ => rfl
  | failed =>
    simp only [poll,exchange,hst]
    exact .still rfl rfl fun _ => rfl
  | sending =>
    obtain ⟨st,c,t,w,heq,hp⟩ := pollSending_exchanged hst l.conn {s.world with script := l.script}
    simp only [poll,exchange,hst,heq]
    by_cases hwait : st = .pending
    · subst hwait
      exact .awaits hl hst hp
    · simp only [if_neg hwait]
      exact .answers hl hst hwait hp rfl
  | opening =>
    have hfly := hfly (Or.inl hst)
    obtain ⟨st,fwd,t,w,heq,hp⟩ :=
      ExplicitMessage.poll_polled hfly l.conn {s.world with script := l.script}
    simp only [poll,exchange,hst]
    rcases pollOpening_cases heq with ⟨rfl,hpoll⟩ | ⟨hwait,st',hst',hok,hpoll⟩ |
      ⟨rfl,hcode,_,hot,hecho,hid,hpoll⟩
    · simp only [hpoll,if_true]
      exact .waits hl hfly hp
    · simp only [hpoll,if_neg hst']
      exact .ends hl hfly heq hp hwait hst' (Or.inr rfl) (Or.inl ⟨rfl,hok⟩) rfl
    · simp only [hpoll]
      rw [if_neg (by simp)]
      exact .grants hl hst hfly heq hp hcode hot hecho hid rfl
  | closing =>
    have hfly := hfly (Or.inr hst)
    obtain ⟨st,fwd,t,w,heq,hp⟩ :=
      ExplicitMessage.poll_polled hfly l.conn {s.world with script := l.script}
    simp only [poll,exchange,hst,pollClosing_cases heq]
    by_cases hwait : st = .pending
    · subst hwait
      simp only [if_true]
      have hstill : ({s.client with fwd := fwd, state := .closing} : Connection) =
          {s.client with fwd := fwd} := by rw [← hst]
      rw [hstill]
      exact .waits hl hfly hp
    · simp only [if_neg hwait]
      refine .ends hl hfly heq hp hwait hwait ?_ (Or.inr ⟨rfl,rfl⟩) rfl
      split_ifs
      · exact Or.inl rfl
      · exact Or.inr rfl

theorem Run.turn_moves {s : Run} (h : Tracks s.client s.world.log) (l : Call) :
    Moves s l (s.turn l) := by
  cases hop : l.op with
  | poll => exact poll_moves h hop
  | opensElsewhere =>
    simp only [Run.turn,hop]
    refine .still rfl rfl fun hne => ?_
    obtain ⟨serial,heq,_,hsame⟩ := originatorSerialNumber_spec l.chip.mac
      {s.statics with connSerial := nextSerial s.statics.connSerial}
    rw [heq]
    exact hsame hne
  | closesElsewhere =>
    simp only [Run.turn,hop]
    refine .still rfl rfl fun hne => ?_
    obtain ⟨serial,heq,_,hsame⟩ := originatorSerialNumber_spec l.chip.mac s.statics
    rw [heq]
    exact hsame hne
  | send sessionHandle service path data timeoutMs =>
    simp only [Run.turn,hop]
    rcases s.client.send_cases sessionHandle service path data timeoutMs
      {s.world with script := l.script} with ⟨st,hst,heq⟩ | ⟨deadline,w,hopen,_,_,hlog,heq⟩
    · rw [heq]
      simp only [if_neg hst]
      exact .still rfl rfl fun _ => rfl
    · rw [heq]
      simp only [if_true]
      exact .sends hopen (by rw [World.note_log,hlog]; rfl)
  | «open» sessionHandle tagName timeoutMs cpuSlot =>
    have hr := s.client.open_opened l.conn sessionHandle tagName timeoutMs cpuSlot l.chip s.statics
      {s.world with script := l.script}
    simp only [Run.turn,hop]
    generalize s.client.open l.conn sessionHandle tagName timeoutMs cpuSlot l.chip s.statics
      {s.world with script := l.script} = r at hr
    cases hr with
    | away hst _ =>
      simp only [if_neg hst]
      exact .still rfl rfl fun _ => rfl
    | refused hst hopens hwhy _ =>
      simp only [if_neg hst]
      exact .drawn hst (by simpa [Call.opens,hop] using hopens) hwhy rfl
    | sent _ _ _ _ hserial hne hlog =>
      simp only [if_true]
      refine .opens (drawn_toConnId_ne _ _ _ _ _) rfl hserial hne ?_
      rw [World.note_log,hlog]
      rfl
  | close sessionHandle timeoutMs =>
    have hr := s.client.close_closed l.conn sessionHandle timeoutMs l.chip s.statics
      {s.world with script := l.script}
    simp only [Run.turn,hop]
    generalize s.client.close l.conn sessionHandle timeoutMs l.chip s.statics
      {s.world with script := l.script} = r at hr
    cases hr with
    | refused hst hsame =>
      simp only [if_neg hst]
      exact .still rfl rfl hsame
    | sent _ _ _ hlog =>
      simp only [if_true]
      exact .closes (by rw [World.note_log,hlog]; rfl)

theorem Moves.tracks {s : Run} {l : Call} {r : Status × Run} (h : Tracks s.client s.world.log)
    (hr : Moves s l r) : Tracks r.2.client r.2.world.log := by
  cases hr with
  | still hclient hlog _ =>
    rw [hclient,hlog]
    exact h
  | drawn _ _ _ hlog =>
    rw [hlog]
    exact ⟨h.forward,h.own,h.flies,h.sequence,h.forwarded,h.answered,h.sequenced⟩
  | opens _ hcontext _ _ hlog =>
    rw [hlog]
    exact h.open_close rfl rfl (ExplicitMessage.frameContext_requestFrame _ _ _ _ _) rfl hcontext
      (Or.inl rfl)
  | sends hopen hlog =>
    rw [hlog]
    exact h.send hopen _ _ _ _ _
  | closes hlog =>
    rw [hlog]
    exact h.open_close rfl rfl (ExplicitMessage.frameContext_requestFrame _ _ _ _ _) rfl rfl
      (Or.inr rfl)
  | waits _ hfly hp => exact Tracks.forward_waits (w := {s.world with script := l.script}) h hfly hp
  | grants _ _ hfly hpoll hp _ _ _ _ hlog =>
    rw [hlog]
    exact Tracks.forward_ends (w := {s.world with script := l.script}) h hfly hpoll hp (by simp)
      _ _ _ _ rfl rfl rfl rfl id
  | @ends _ _ _ _ _ _ state _ _ _ hfly hpoll hp hst _ hstate hi hlog =>
    rw [hlog]
    refine Tracks.forward_ends (w := {s.world with script := l.script}) h hfly hpoll hp hst
      _ _ _ _ rfl rfl ?_ ?_ ?_
    · rcases hstate with rfl | rfl <;> rfl
    · rcases hi with ⟨rfl,_⟩ | ⟨rfl,_⟩ <;> rfl
    · rcases hi with ⟨_,hnot⟩ | ⟨_,hsame⟩
      · exact fun hok => absurd hok hnot
      · exact fun hok => hsame ▸ hok
  | awaits _ hc hp => exact Tracks.own_waits (w := {s.world with script := l.script}) h hc hp
  | answers _ hc hst hp hlog =>
    rw [hlog]
    exact Tracks.own_ends (w := {s.world with script := l.script}) h hc hp hst _

-- No open() that passes its own checks is made on a TCP connection that is not connected.
def Attached (s : Run) (l : Call) : Prop :=
  l.opens s.client = true → l.conn.connected = true

instance (s : Run) (l : Call) : Decidable (Attached s l) := inferInstanceAs (Decidable (_ → _))

theorem Tracks.not_drawn {s : Run} {l : Call} (h : Tracks s.client s.world.log)
    (hopens : l.opens s.client = true) (hguard : Attached s l)
    (hwhy : s.client.fwd.inFlight = true ∨ l.conn.connected = false) : False := by
  have hconn := hguard hopens
  have hfree := Call.opens_free hopens
  rcases hwhy with hfly | hdead
  · exact absurd (h.flies.mp hfly) (by simp [busy] at hfree; simp [hfree])
  · rw [hconn] at hdead
    cases hdead

structure Named (c : Connection) (serial : UInt32) (frame reply : List UInt8) : Prop where
  frame_eq : ∃ sessionHandle context, frame = c.openFrame sessionHandle context serial
  serial_ne : serial ≠ 0
  granted : (ExplicitMessage.readReply reply).resultCode = 0
  otConnId_eq : c.otConnId = getU32 (ExplicitMessage.readReply reply).dataBytes
  otConnId_ne : c.otConnId ≠ 0
  toConnId_eq : c.toConnId = getU32 ((ExplicitMessage.readReply reply).dataBytes.drop 4)
  toConnId_ne : c.toConnId ≠ 0

theorem Named.kept {c c' : Connection} {serial : UInt32} {frame reply : List UInt8}
    (h : Named c serial frame reply) (hid : c'.identity = c.identity) :
    Named c' serial frame reply := by
  simp only [identity,Prod.mk.injEq] at hid
  obtain ⟨hot,hto,hserial,hname,hslot⟩ := hid
  refine ⟨?_,h.serial_ne,h.granted,hot ▸ h.otConnId_eq,hot ▸ h.otConnId_ne,hto ▸ h.toConnId_eq,
    hto ▸ h.toConnId_ne⟩
  simp only [openFrame,hto,hserial,hname,hslot]
  exact h.frame_eq

theorem Exchanged.identity {c c' : Connection} {t t' : TcpConnection} {w w' : World} {st : Status}
    (h : Exchanged c t w st c' t' w') : c'.identity = c.identity := by
  rw [h.kept]
  rfl

structure Agreed (c : Connection) (g : Statics) (log : List Event) : Prop where
  asked : c.state = .opening → g.serial ≠ 0 ∧
    ∃ sessionHandle context, c.fwd.io.tx = c.openFrame sessionHandle context g.serial
  named : c.state = .open ∨ c.state = .sending →
    ∃ frame reply, accepted log = some (frame,reply) ∧ Named c g.serial frame reply
  addressed : Trace.Always Addressed log

theorem accepted_spoke {w w' : World} (h : World.Spoke w w') :
    accepted w'.log = accepted w.log := h.reading fun _ he past => accepted_board he past

theorem Agreed.spoke {c : Connection} {g : Statics} {w w' : World} (h : Agreed c g w.log)
    (hspoke : World.Spoke w w') : Trace.Always Addressed w'.log :=
  hspoke.always (fun _ he past => addressed_board he past) h.addressed

theorem Moves.agreed {s : Run} {l : Call} {r : Status × Run} (htracks : Tracks s.client s.world.log)
    (h : Agreed s.client s.statics s.world.log) (hguard : Attached s l) (hr : Moves s l r) :
    Agreed r.2.client r.2.statics r.2.world.log := by
  cases hr with
  | still hclient hlog hserial =>
    rw [hclient,hlog]
    refine ⟨fun hs => ?_,fun hs => ?_,h.addressed⟩
    · obtain ⟨hne,hframe⟩ := h.asked hs
      rw [hserial hne]
      exact ⟨hne,hframe⟩
    · obtain ⟨frame,reply,hacc,hnamed⟩ := h.named hs
      rw [hserial hnamed.serial_ne]
      exact ⟨frame,reply,hacc,hnamed⟩
  | drawn _ hopens hwhy _ => exact (htracks.not_drawn hopens hguard hwhy).elim
  | opens hid _ hserial hne hlog =>
    rw [hlog]
    exact ⟨fun _ => ⟨hserial ▸ hne,_,_,by rw [hserial]; rfl⟩,fun hs => by simp at hs,
      trivial,h.addressed⟩
  | sends hopen hlog =>
    rw [hlog]
    obtain ⟨frame,reply,hacc,hnamed⟩ := h.named (Or.inl hopen)
    exact ⟨fun hs => by simp [loaded] at hs,fun _ => ⟨frame,reply,hacc,⟨hnamed.frame_eq,
      hnamed.serial_ne,hnamed.granted,hnamed.otConnId_eq,hnamed.otConnId_ne,hnamed.toConnId_eq,
      hnamed.toConnId_ne⟩⟩,trivial,h.addressed⟩
  | closes hlog =>
    rw [hlog]
    exact ⟨fun hs => by simp at hs,fun hs => by simp at hs,trivial,h.addressed⟩
  | waits _ hfly hp =>
    have hbusy := htracks.flies.mp hfly
    refine ⟨fun hs => ?_,fun hs => ?_,h.spoke (w := {s.world with script := l.script}) hp.io.spoke⟩
    · simp only [hp.io.tx_eq]
      exact h.asked hs
    · rcases hbusy with hb | hb <;> simp [hb] at hs
  | grants _ hs hfly hpoll hp hcode hot hecho hid hlog =>
    obtain ⟨hne,sessionHandle,context,hframe⟩ := h.asked hs
    obtain ⟨⟨earlier,hcur⟩,_⟩ := htracks.forward.flight hfly
    obtain ⟨hcode',_,hdata⟩ := ExplicitMessage.poll_readReply hfly hpoll
    have hreq := hp.io.requests (P := forwards)
    rw [hlog]
    refine ⟨fun hs => by simp at hs,fun _ => ⟨_,_,?_,⟨sessionHandle,context,hframe⟩,hne,
      hcode' ▸ hcode,hdata ▸ rfl,hot,?_,hid⟩,fun hi => by simp at hi,
      h.spoke (w := {s.world with script := l.script}) hp.io.spoke⟩
    · rw [accepted,if_pos ⟨rfl,rfl⟩,hreq,hcur]
      rfl
    · rw [← hdata]
      exact hecho.symm
  | @ends _ _ _ _ _ _ state _ _ _ _ _ hp _ _ hstate hi hlog =>
    rw [hlog]
    refine ⟨fun hs => ?_,fun hs => ?_,fun hone => ?_,
      h.spoke (w := {s.world with script := l.script}) hp.io.spoke⟩
    · rcases hstate with rfl | rfl <;> simp at hs
    · rcases hstate with rfl | rfl <;> simp at hs
    · rcases hi with ⟨rfl,_⟩ | ⟨rfl,_⟩ <;> simp at hone
  | @awaits c _ _ _ hc hp =>
    have hspoke := h.spoke (w := {s.world with script := l.script}) hp.io.spoke
    have hacc := accepted_spoke hp.io.spoke
    obtain ⟨frame,reply,heq,hnamed⟩ := h.named (Or.inr hc)
    have hstate : c.state = .sending ∧ (s.client.io.Paced → c.io.Paced) := by
      simpa using hp.ended
    exact ⟨fun hs => by simp [hstate.1] at hs,
      fun _ => ⟨frame,reply,hacc.trans heq,hnamed.kept hp.identity⟩,hspoke⟩
  | @answers c _ _ _ st _ _ hc hst hp hlog =>
    have hspoke := h.spoke (w := {s.world with script := l.script}) hp.io.spoke
    have hacc := accepted_spoke hp.io.spoke
    obtain ⟨frame,reply,heq,hnamed⟩ := h.named (Or.inr hc)
    rw [hlog]
    refine ⟨fun hs => ?_,fun _ => ⟨frame,reply,hacc.trans heq,hnamed.kept hp.identity⟩,
      fun _ hok => ?_,hspoke⟩
    · rcases hp.ended with ⟨_,hs',_⟩ | ⟨_,hs',_⟩ | ⟨_,_,hs'⟩ <;> simp [hs'] at hs
    · obtain ⟨_,_,_,_,_,_,p,len,hitems,_⟩ :=
        (hp.ended.resolve_left (by simp [hst])).resolve_right (by simp [hok])
      obtain ⟨sessionHandle,context,hframe⟩ := hnamed.frame_eq
      exact ⟨frame,reply,p,len,hacc.trans heq,
        by rw [hitems,hframe,frameToConnId_openFrame]⟩

namespace Run

theorem tracks_init (time : Nat) : Tracks (init time).client (init time).world.log :=
  ⟨⟨.nil,rfl,fun h => (by cases h)⟩,⟨.nil,rfl,fun h => (by cases h)⟩,
    by simp [init,ExplicitMessage.inFlight],
    fun h => (by cases h),fun _ => trivial,fun _ => trivial,trivial⟩

theorem tracks_step {s : Run} (h : Tracks s.client s.world.log) (l : Call) :
    Tracks (s.step l).client (s.step l).world.log := (turn_moves h l).tracks h

theorem tracks_after (time : Nat) (ls : List Call) :
    Tracks (after time ls).client (after time ls).world.log :=
  @Runs.invariant_always _ _ step (fun s : Run => Tracks s.client s.world.log)
    (fun _ l h => tracks_step h l) _ (tracks_init time) ls

theorem agreed_after {time : Nat} {ls : List Call}
    (hg : Runs.Guarded step Attached (init time) ls) :
    Agreed (after time ls).client (after time ls).statics (after time ls).world.log := by
  have hinit : Agreed (init time).client (init time).statics (init time).world.log :=
    ⟨fun h => (by cases h),fun h => (by rcases h with h | h <;> cases h),trivial⟩
  have hboth := @Runs.invariant_run _ _ step Attached
    (fun s : Run => Tracks s.client s.world.log ∧ Agreed s.client s.statics s.world.log)
    (fun s l h hguard => ⟨tracks_step h.1 l,(turn_moves h.1 l).agreed h.1 h.2 hguard⟩)
    _ _ ⟨tracks_init time,hinit⟩ hg
  exact hboth.2

end Run

theorem Run.close_frame {s : Run} {l : Call} {sessionHandle timeoutMs : UInt32}
    (hl : l.op = .close sessionHandle timeoutMs) (hne : s.statics.serial ≠ 0)
    (hst : (s.turn l).1 = .pending) : ∃ context, (s.turn l).2.client.fwd.io.tx =
      s.client.closeFrame sessionHandle context s.statics.serial := by
  have hr := s.client.close_closed l.conn sessionHandle timeoutMs l.chip s.statics
    {s.world with script := l.script}
  simp only [turn,hl] at hst ⊢
  generalize s.client.close l.conn sessionHandle timeoutMs l.chip s.statics
    {s.world with script := l.script} = r at hr hst ⊢
  cases hr with
  | refused hnot _ => exact absurd hst hnot
  | @sent _ serial _ _ _ _ hsame _ =>
    rw [hsame hne]
    exact ⟨s.client.fwd.context,rfl⟩

def Op.starts : Op → Bool
  | .open _ _ _ _ => true
  | .send _ _ _ _ _ => true
  | .close _ _ => true
  | _ => false

theorem Moves.refused {s : Run} {l : Call} {r : Status × Run} (htracks : Tracks s.client s.world.log)
    (hguard : Attached s l) (hl : l.op.starts = true) (hr : Moves s l r) (hst : r.1 ≠ .pending) :
    r.2.client.identity = s.client.identity := by
  cases hr with
  | still hclient _ _ => rw [hclient]
  | drawn _ hopens hwhy _ => exact (htracks.not_drawn hopens hguard hwhy).elim
  | opens => exact absurd rfl hst
  | sends => exact absurd rfl hst
  | closes => exact absurd rfl hst
  | waits => exact absurd rfl hst
  | awaits => exact absurd rfl hst
  | grants hpoll =>
    rw [hpoll] at hl
    cases hl
  | ends hpoll =>
    rw [hpoll] at hl
    cases hl
  | answers hpoll =>
    rw [hpoll] at hl
    cases hl

end Connection

theorem open_connection_is_the_one_accepted (time : Nat) (ls : List Connection.Call)
    (hg : Runs.Guarded Connection.Run.step Connection.Attached (Connection.Run.init time) ls) :
    let s := Connection.Run.after time ls
    (s.client.isOpen = true → ∃ frame reply serial,
      Connection.accepted s.world.log = some (frame,reply) ∧
      Connection.Named s.client serial frame reply ∧
      ∀ (l : Connection.Call) (sessionHandle timeoutMs : UInt32),
        l.op = .close sessionHandle timeoutMs → (s.turn l).1 = .pending → ∃ context,
          (s.turn l).2.client.fwd.io.tx = s.client.closeFrame sessionHandle context serial) ∧
    ∀ l : Connection.Call, l.op.starts = true → Connection.Attached s l →
      (s.turn l).1 ≠ .pending → (s.turn l).2.client.identity = s.client.identity := by
  intro s
  have htracks := Connection.Run.tracks_after time ls
  have hagreed := Connection.Run.agreed_after hg
  constructor
  · intro hopen
    simp only [Connection.isOpen,decide_eq_true_eq] at hopen
    obtain ⟨frame,reply,hacc,hnamed⟩ := hagreed.named (Or.inl hopen)
    exact ⟨frame,reply,s.statics.serial,hacc,hnamed,fun l _ _ hl hst =>
      Connection.Run.close_frame hl hnamed.serial_ne hst⟩
  · intro l hl hguard hst
    exact (Connection.Run.turn_moves htracks l).refused htracks hguard hl hst

namespace Sample

-- The target opens the connection under the O->T ID 5.
def grant : Reply where
  session := 7
  context := 1
  leading := [⟨0,[]⟩]
  cip := [0xD4,0,0,0] ++ putU32 5 ++ putU32 9 ++ [0,0,0,0]
  cip_length := by decide
  trailing_type := Reply.no_trailing
  fits := by decide

def connectedReply (connId : UInt32) : ConnectedReply where
  session := 7
  context := 1
  items := [⟨0x00A1,putU32 connId⟩,⟨0x00B1,putU16 1 ++ [0xCC,0,0,0,0xC3,0,1,0]⟩]
  address := putU32 connId
  sequence := 1
  cip := [0xCC,0,0,0,0xC3,0,1,0]
  address_eq := rfl
  addressed := by simp
  data_eq := rfl
  cip_length := by decide
  fits := by simp [Connection.kMaxDataSize]

def plugged : TcpConnection := {fd := 3, state := .ok}

def openAs (name : List UInt8) (id : UInt32) (conn : TcpConnection) : Connection.Call where
  op := .open 7 (some name) 1000 kNoRoute
  conn := conn
  chip := {random := id}

def pollFor (reply : List UInt8) : Connection.Call where
  op := .poll
  conn := plugged
  script := {sends := [.ok 600], recvs := [.ok reply]}

def opened : List Connection.Call := [openAs [0x41] 9 plugged,pollFor grant.bytes]

def sendRead : Connection.Call where
  op := .send 7 0x4C [0x91,1,0x41,0] [1,0] 1000

def refusedOpen : List Connection.Call := opened ++ [openAs [0x42] 4 {}]

theorem open_connection_opened : ∃ frame reply serial,
    Connection.accepted (Connection.Run.after 0 opened).world.log = some (frame,reply) ∧
      Connection.Named (Connection.Run.after 0 opened).client serial frame reply := by
  obtain ⟨frame,reply,serial,hacc,hnamed,_⟩ :=
    (open_connection_is_the_one_accepted 0 opened (by decide +kernel)).1 (by decide +kernel)
  exact ⟨frame,reply,serial,hacc,hnamed⟩

theorem refused_open_renames :
    let s := Connection.Run.after 0 refusedOpen
    ((Connection.Run.after 0 opened).turn (openAs [0x42] 4 {})).1 = .notReady ∧
      s.client.isOpen = true ∧ s.client.identity = (0,4,2,[0x42],kNoRoute) ∧
      (Connection.Run.after 0 opened).client.identity = (5,9,1,[0x41],kNoRoute) ∧
      (Connection.accepted s.world.log).map (fun a => (Connection.frameToConnId a.1,a.2)) =
        some (9,grant.bytes) := by
  decide +kernel

end Sample

theorem reply_answers_its_request (time : Nat) (ms : List ExplicitMessage.Call)
    (ls : List Connection.Call) :
    let sent := (ExplicitMessage.Run.after time ms).world.log
    let log := (Connection.Run.after time ls).world.log
    ((requests (only 0) sent).length < 2 ^ 64 →
      Trace.Always (Answered (only 0) (Command.code .sendRRData)) sent) ∧
    ((requests Connection.forwards log).length < 2 ^ 64 →
      (requests (only 1) log).length < 2 ^ 64 →
        Trace.Always (Answered Connection.forwards (Command.code .sendRRData)) log ∧
        Trace.Always (Answered (only 1) (Command.code .sendUnitData)) log ∧
        Trace.Always Connection.Sequenced log ∧
        (Runs.Guarded Connection.Run.step Connection.Attached (Connection.Run.init time) ls →
          Trace.Always Connection.Addressed log)) := by
  intro sent log
  constructor
  · exact (ExplicitMessage.tracks_after time ms).2
  · intro hforwards hown
    have h := Connection.Run.tracks_after time ls
    exact ⟨h.forwarded hforwards,h.answered hown,h.sequenced,
      fun hg => (Connection.Run.agreed_after hg).addressed⟩

namespace Sample

def readAnswered : List Connection.Call := opened ++ [sendRead,pollFor (connectedReply 9).bytes]

theorem answered_by_its_reply :
    (Connection.Run.after 0 readAnswered).world.log.head? =
        some (.ended 1 .ok true (connectedReply 9).bytes) ∧
      Trace.Always (Answered (only 1) (Command.code .sendUnitData))
        (Connection.Run.after 0 readAnswered).world.log ∧
      Trace.Always Connection.Addressed (Connection.Run.after 0 readAnswered).world.log := by
  obtain ⟨_,hown,_,hopen⟩ := (reply_answers_its_request 0 [] readAnswered).2 (by decide +kernel)
    (by decide +kernel)
  exact ⟨by decide +kernel,hown,hopen (by decide +kernel)⟩

theorem refused_open_takes_another_id :
    let log := (Connection.Run.after 0
      (refusedOpen ++ [sendRead,pollFor (connectedReply 4).bytes])).world.log
    log.head? = some (.ended 1 .ok true (connectedReply 4).bytes) ∧
      (Connection.connectedItems (connectedReply 4).bytes).map (fun a => a.1) = some 4 ∧
      (Connection.accepted log.tail).map (fun a => Connection.frameToConnId a.1) = some 9 := by
  decide +kernel

end Sample

end ControlLogix
