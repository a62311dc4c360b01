import ControlLogix.Cip.Reply
import ControlLogix.Eip.Link
import ControlLogix.Machine.Callbacks
import ControlLogix.Machine.Wire

namespace ControlLogix

open ExplicitMessage (frameContext)

def atStart : List Event → List Event
  | [] => []
  | .started _ _ :: log => log
  | _ :: log => atStart log

theorem atStart_quiet {e : Event} (h : e.quiet = true) (log : List Event) :
    atStart (e :: log) = atStart log := by
  cases e <;> simp_all [Event.quiet,Event.board,atStart]

theorem atStart_aside {e : Event} (h : e.aside = true) (log : List Event) :
    atStart (e :: log) = atStart log := by
  cases e <;> simp_all [Event.aside,Event.wire,atStart]

theorem atStart_visitMarks (i : Nat) (st : Status) (m : ExplicitMessage) (inFlight called : Bool)
    (log : List Event) : atStart (visitMarks i st m inFlight called ++ log) = atStart log := by
  rw [visitMarks]
  split_ifs <;> rfl

-- The controller answers a whole request with a well-formed reply that echoes its context.
def Answers (serve : Nat → List UInt8 → List UInt8) : Prop :=
  ∀ k f, Encapsulated f → (decodeHeader f).command = Command.code .sendRRData →
    ∃ r : Reply, serve k f = r.bytes ∧ r.context = frameContext f

-- The replies, or the end of one, that lie before the reply to the operation in flight.
def unread (serve : Nat → List UInt8 → List UInt8) (log : List Event) : List UInt8 :=
  (lastLink (atStart log)).owed serve

def awaited (serve : Nat → List UInt8 → List UInt8) (log : List Event) (tx : List UInt8) :
    List UInt8 := serve (lastLink (atStart log)).requested.length tx

structure InStream (serve : Nat → List UInt8 → List UInt8) (x : Transfer) (log : List Event) :
    Prop where
  whole : (lastLink (atStart log)).unfinished = []
  served : (lastLink (atStart log)).rcvd <+: (lastLink (atStart log)).replies serve
  sent : Writes.written (lastLink log).sends =
    Writes.written (lastLink (atStart log)).sends ++ x.tx.take x.txSent
  rcvd : (lastLink log).rcvd = (lastLink (atStart log)).rcvd ++ x.rx
  silent : x.txSent < x.tx.length → x.rx = []
  frame : Encapsulated x.tx ∧ (decodeHeader x.tx).command = Command.code .sendRRData

namespace InStream

variable {serve : Nat → List UInt8 → List UInt8} {x x' : Transfer} {log log' : List Event}

theorem replies_sent (h : InStream serve x log) (hall : x.tx.length ≤ x.txSent) :
    (lastLink log).replies serve =
      (lastLink (atStart log)).rcvd ++ (unread serve log ++ awaited serve log x.tx) := by
  rw [Link.replies_whole h.whole h.sent h.frame.1 hall,Link.replies_eq h.served,
    List.append_assoc]
  rfl

theorem reads (h : InStream serve x log)
    (hserved : (lastLink log).rcvd <+: (lastLink log).replies serve) :
    x.rx <+: unread serve log ++ awaited serve log x.tx := by
  rcases Nat.lt_or_ge x.txSent x.tx.length with hmore | hall
  · rw [h.silent hmore]
    exact List.nil_prefix
  · rw [h.replies_sent hall,h.rcvd,List.prefix_append_right_inj] at hserved
    exact hserved

theorem aside (h : InStream serve x log)
    (hgrow : Trace.Grows (fun e => e.aside = true) log log') : InStream serve x log' := by
  have hlink := link_grows hgrow
  have hstart : atStart log' = atStart log := hgrow.reading fun e he es => atStart_aside he es
  refine ⟨?_,?_,?_,?_,h.silent,h.frame⟩
  · rw [hstart]
    exact h.whole
  · rw [hstart]
    exact h.served
  · rw [hstart,hlink]
    exact h.sent
  · rw [hstart,hlink]
    exact h.rcvd

theorem moved {t t' : TcpConnection} {w w' : World} (h : InStream serve x w.log)
    (hmoved : Transfer.Moved x t w x' t' w') : InStream serve x' w'.log := by
  have hstart : atStart w'.log = atStart w.log := (hmoved.spoke.mono fun e he =>
    quiet_of_board he).reading fun e he es => atStart_quiet he es
  obtain ⟨new,more,hrx,hlink⟩ := hmoved.link
  refine ⟨?_,?_,?_,?_,fun hmore => ?_,?_⟩
  · rw [hstart]
    exact h.whole
  · rw [hstart]
    exact h.served
  · rw [hstart]
    exact hmoved.written h.sent
  · rw [hstart,hlink,hrx,h.rcvd,List.append_assoc]
  · rw [hmoved.silent_until_sent hmore]
    refine h.silent ?_
    rw [hmoved.tx_eq] at hmore
    exact Nat.lt_of_le_of_lt hmoved.advances hmore
  · rw [hmoved.tx_eq]
    exact h.frame

theorem load {log : List Event} {i : Nat} {frame : List UInt8}
    (hwhole : (lastLink log).unfinished = [])
    (hserved : (lastLink log).rcvd <+: (lastLink log).replies serve)
    (hframe : Encapsulated frame ∧ (decodeHeader frame).command = Command.code .sendRRData) :
    InStream serve (Transfer.load frame) (.started i frame :: log) :=
  ⟨hwhole,hserved,(List.append_nil _).symm,(List.append_nil _).symm,fun _ => rfl,hframe⟩

theorem marks (h : InStream serve x log) (i : Nat) (st : Status) (m : ExplicitMessage)
    (called : Bool) : InStream serve x (visitMarks i st m true called ++ log) := by
  refine ⟨?_,?_,?_,?_,h.silent,h.frame⟩ <;> rw [atStart_visitMarks]
  · exact h.whole
  · exact h.served
  · rw [Config.visitMarks_link]
    exact h.sent
  · rw [Config.visitMarks_link]
    exact h.rcvd

end InStream

namespace PlcClient

variable {n : Nat}

-- The operation on slot i has taken p for its reply.
def Completes (c : PlcClient n) (i : Fin n) (p : List UInt8) : Prop :=
  c.msg.state = .done ∧ c.msg.io.rx = p ∧
    ∃ r : Reply, p = r.bytes ∧ c.tagStatus i = if r.status = 0 then .ok else .error

end PlcClient

namespace Config

variable {n : Nat} {serve : Nat → List UInt8 → List UInt8}

-- The client stays Ready on a socket that neither fails nor closes, begins an operation only when
-- no request is left half sent, and reads nothing but what the controller has answered.
def Attended (serve : Nat → List UInt8 → List UInt8) (s : Config n) (l : Label) : Prop :=
  (s.step l).client.state = .ready ∧ (0 ≤ (s.step l).client.tcp.fd ∧
    (s.step l).client.tcp.state = .ok) ∧ l.script.calm = true ∧
  ((s.begins l.act (s.hear l.script).world).isSome = true →
    (lastLink s.world.log).unfinished = []) ∧
  (lastLink (s.step l).world.log).rcvd <+: (lastLink (s.step l).world.log).replies serve

instance (serve : Nat → List UInt8 → List UInt8) (s : Config n) (l : Label) :
    Decidable (s.Attended serve l) := inferInstanceAs (Decidable (_ ∧ _ ∧ _ ∧ _ ∧ _))

-- The request is out after the step, and all that was answered could be read during it.
def arrives (serve : Nat → List UInt8 → List UInt8) (s : Config n) (l : Label) : Bool :=
  (s.step l).client.msg.io.tx.length ≤ (s.step l).client.msg.io.txSent &&
    (lastLink s.world.log).rcvd ++ readable l.script.recvs =
      (lastLink (s.step l).world.log).replies serve

structure Awaiting (serve : Nat → List UInt8 → List UInt8) (s : Config n) : Prop where
  exclusive : s.client.Exclusive s.world.log
  phases : Phases s.client
  stamped : Stamped s.client.msg
  ready : s.client.state = .ready
  message : s.client.msg.inFlight = true → s.client.tcp.live ∧ s.client.msg.io.Paced ∧
    InStream serve s.client.msg.io s.world.log

theorem awaiting_step {s : Config n} {l : Label} (h : Awaiting serve s)
    (hg : s.Attended serve l) : Awaiting serve (s.step l) := by
  obtain ⟨hready,hlive,_,hwhole,hserved⟩ := hg
  refine ⟨s.exclusive_step l h.exclusive,phases_step h.exclusive h.phases,
    stamped_step h.exclusive h.stamped,hready,fun hfly => ⟨hlive,?_⟩⟩
  cases s.wire_move l h.exclusive h.phases with
  | aside hgrow hmsg _ _ =>
    rcases hmsg with hmsg | hidle
    · rw [hmsg] at hfly ⊢
      obtain ⟨_,hpaced,hstream⟩ := h.message hfly
      exact ⟨hpaced,hstream.aside hgrow⟩
    · simp [hidle] at hfly
  | issued _ _ _ _ _ hs _ _ => simp [hs] at hready
  | opened _ _ hs _ _ _ _ => simp [hs] at hready
  | closes _ _ _ hs _ _ _ _ => simp [hs] at hready
  | turned _ _ _ _ hs _ _ _ _ _ _ _ =>
    rcases hs with hs | hs <;> rw [h.ready] at hs <;> cases hs
  | loaded i service path data deadline frame hbegins _ _ _ hframe hmsg _ _ hlog =>
    rw [hmsg,hlog]
    rw [hlog] at hserved
    refine ⟨Transfer.load_paced frame,InStream.load (hwhole (by simp [hbegins])) hserved
      ⟨hframe.2,?_⟩⟩
    obtain ⟨body,_,heq⟩ := ExplicitMessage.requestFrame_eq s.client.session.handle
      s.client.msg.context service path data
    rw [hframe.1,heq,decodeHeader_headerBytes]
  | visited i st called w' hbusy _ _ _ hmoved hpaced hlog =>
    obtain ⟨_,hp,hstream⟩ := h.message (h.exclusive.msg_inFlight hbusy)
    rw [hlog]
    have hheard : InStream serve s.client.msg.io (s.hear l.script).world.log := hstream
    exact ⟨hpaced hfly hp,(hheard.moved hmoved).marks _ _ _ _⟩

theorem awaiting_run {s : Config n} (hex : s.client.Exclusive s.world.log)
    (hph : Phases s.client) (hst : Stamped s.client.msg) (hready : s.client.state = .ready)
    (hfree : s.client.msg.inFlight = false) {ls : List Label}
    (hrun : Runs.Guarded step (Attended serve) s ls) : Awaiting serve (Runs.run step s ls) :=
  Runs.invariant_run (fun _ _ h hg => awaiting_step h hg)
    (show Awaiting serve s from ⟨hex,hph,hst,hready,fun hfly => by simp [hfree] at hfly⟩) hrun

theorem visiting_turned {s : Config n} {l : Label} (h : Awaiting serve s) {i : Fin n}
    (hvisit : s.visiting l = some i) (hbusy : s.client.busy i = true)
    (hcalm : l.script.calm = true)
    (hdl : expired (s.hear l.script).world.millis.1 s.client.msg.deadline = false) :
    ∃ st m w', s.client.msg.Turned s.client.tcp (s.hear l.script).world (st,m,s.client.tcp,w') ∧
      (s.step l).client.msg = m ∧ InStream serve m.io (s.step l).world.log ∧
        atStart (s.step l).world.log = atStart s.world.log ∧ m.io.tx = s.client.msg.io.tx ∧
          (st = .ok → (s.step l).client.tagStatus i =
            if m.resultCode = 0 then .ok else .error) ∧
          (st = .pending → (s.step l).client.busy i = true) := by
  obtain ⟨disconnected,stack,hstack,huse,hstep⟩ := visiting_step hvisit
  have hfly := h.exclusive.msg_inFlight hbusy
  obtain ⟨hlive,hpaced,hstream⟩ := h.message hfly
  have hturned := ExplicitMessage.poll_turned (w := (s.hear l.script).world) hfly hpaced hlive
    hcalm hdl
  generalize hmsg : s.client.msg.poll s.client.tcp (s.hear l.script).world = r at hturned
  obtain ⟨st,m,t,w'⟩ := r
  have htcp : t = s.client.tcp := by cases hturned <;> rfl
  subst htcp
  obtain ⟨st',g,htag,hpend,hdone⟩ := Tag.poll_msg (g := s.client.tags i) hbusy hmsg
  have hmoved := h.exclusive.poll_moved htag
  have hc := visit_client (s := s.hear l.script) disconnected stack htag
  have hl := visit_log (s := s.hear l.script) disconnected stack htag
  rw [← hstep] at hc hl
  have hfly' : ((s.hear l.script).client.tags i).inFlight = true := hbusy
  rw [hfly'] at hl
  have hheard : InStream serve s.client.msg.io (s.hear l.script).world.log := hstream
  refine ⟨st,m,w',hturned,by rw [hc],?_,?_,hmoved.tx_eq,fun hok => ?_,fun hwait => ?_⟩
  · rw [hl]
    exact (hheard.moved hmoved).marks _ _ _ _
  · rw [hl,atStart_visitMarks]
    exact (hmoved.spoke.mono fun e he => quiet_of_board he).reading
      fun e he es => atStart_quiet he es
  · have huse' : (s.step l).client.inUse i = true := by rw [hc]; exact huse
    rw [PlcClient.tagStatus,PlcClient.validHandle_eq_some.mpr ⟨rfl,huse'⟩,hc]
    simpa using hdone hok
  · rw [PlcClient.busy_update (c := s.client) (i := i) (g := g) (by rw [hc]; rfl),hpend hwait,
      Function.update_self]
    exact hbusy

theorem operation_gets_its_reply_iff (memory : Fin n → Buffer Tag.kMaxDataSize) (time : Nat)
    (before : List Label) (hserve : Answers serve)
    (hready : (after memory time before).client.state = .ready)
    (hfree : (after memory time before).client.msg.inFlight = false) (ls : List Label)
    (hrun : Runs.Guarded step (Attended serve) (after memory time before) ls) (l : Label)
    (hl : (Runs.run step (after memory time before) ls).Attended serve l) :
    let s := Runs.run step (after memory time before) ls
    let reply := awaited serve s.world.log s.client.msg.io.tx
    ∀ i, s.visiting l = some i → s.client.busy i = true →
      expired (s.hear l.script).world.millis.1 s.client.msg.deadline = false →
      (s.arrives serve l = true → ((s.step l).client.Completes i reply ↔
        reply <+: unread serve s.world.log ++ reply)) ∧
      (reply <+: unread serve s.world.log ++ reply →
        (s.step l).client.busy i = true ∨ (s.step l).client.Completes i reply) ∧
      ∀ r : Reply, r.bytes <+: unread serve s.world.log →
        r.context ≠ s.client.msg.sentContext → ¬ (s.step l).client.Completes i reply := by
  intro s reply i hvisit hbusy hdl
  have h : Awaiting serve s := awaiting_run (exclusive_after memory time before)
    (phases_after memory time before) (stamped_after memory time before) hready hfree hrun
  have hfly := h.exclusive.msg_inFlight hbusy
  obtain ⟨_,_,hstream₀⟩ := h.message hfly
  obtain ⟨st,m,w',hturned,hm,hstream,hstart,htx,hdone,hpend⟩ :=
    visiting_turned h hvisit hbusy hl.2.2.1 hdl
  obtain ⟨r,hr,hcontext⟩ := hserve (lastLink (atStart s.world.log)).requested.length _
    hstream₀.frame.1 hstream₀.frame.2
  have hreply : reply = r.bytes := hr
  have hreads : m.io.rx <+: unread serve s.world.log ++ reply := by
    have hread := hstream.reads hl.2.2.2.2
    rw [unread,awaited,hstart,htx] at hread
    exact hread
  have hcopy : (s.step l).client.Completes i reply →
      reply <+: unread serve s.world.log ++ reply := by
    rintro ⟨_,hrx,_⟩
    rw [hm] at hrx
    rwa [hrx] at hreads
  -- With the reply in front the poll waits for more of it or takes it.
  have hmain : reply <+: unread serve s.world.log ++ reply →
      st = .pending ∨ (s.step l).client.Completes i reply := by
    intro hpre
    rw [hreply] at hpre
    rcases hturned.takes hpre (by rw [← hreply]; exact hreads) (hcontext.trans (h.stamped hfly))
      with hwait | ⟨hok,hstate,hrx,hcode⟩
    · exact Or.inl hwait
    · have hstatus := hdone hok
      rw [hcode] at hstatus
      rw [← hm] at hstate hrx
      exact Or.inr ⟨hstate,hrx.trans hreply.symm,r,hreply,hstatus⟩
  refine ⟨fun harrives => ⟨hcopy,fun hpre => ?_⟩,fun hpre => (hmain hpre).imp hpend id,
    fun q hq hne hdone => ?_⟩
  · refine (hmain hpre).resolve_left fun hwait => ?_
    -- A poll that waits has read all there was, so the reply is not yet whole.
    subst hwait
    simp only [arrives,Bool.and_eq_true,decide_eq_true_eq] at harrives
    obtain ⟨hall,hread⟩ := harrives
    rw [hm] at hall
    obtain ⟨hrx,hpart⟩ := hturned.dry (by rw [← htx]; exact hall)
    have hreplies := hstream.replies_sent hall
    rw [unread,awaited,hstart,htx,← hread,hstream₀.rcvd,List.append_assoc,
      List.append_cancel_left_eq] at hreplies
    have hfront : m.io.rx = unread serve s.world.log ++ reply := hrx.trans hreplies
    exact hpart r (by rw [hfront,← hreply]; exact hpre)
  · have hpre := hcopy hdone
    rw [hreply] at hpre
    have hsame : q.bytes = r.bytes :=
      q.encapsulated.unique r.encapsulated (hq.trans (List.prefix_append _ _)) hpre
    have hctx : q.context = r.context := by
      have := congrArg (fun bs => (decodeHeader bs).context) hsame
      simpa [Reply.header] using this
    exact hne (hctx.trans (hcontext.trans (h.stamped hfly)))

end Config

namespace Sample

def controller : Nat → List UInt8 → List UInt8 := fun _ f =>
  if (decodeHeader f).command = Command.code .sendRRData then dataReply (frameContext f) dint
  else registerReply 7

def dintReply (context : UInt64) : Reply where
  session := 7
  context := context
  leading := [⟨0,[]⟩]
  cip := dint
  cip_length := by decide
  trailing_type := Reply.no_trailing
  fits := by decide

theorem controller_answers : Answers controller := by
  intro k f _ hcommand
  exact ⟨dintReply (frameContext f),by rw [controller,if_pos hcommand]; rfl,rfl⟩

def tagged : List Label := online ++ [call (.createTag tagA 1)]

def asked : List Label :=
  call (.read 0 100) :: sweep {sends := [.ok 48]} ++ [call .poll]

-- The read of the tag is given up, and its reply comes when it is read again.
def askedAgain : List Label :=
  call (.read 0 100) :: sweep {sends := [.ok 48]} ++ sweep {ticks := [200]} ++ asked

def promptAnswer : Label := {act := .advance, script := {recvs := [.ok (dataReply 1 dint)]}}

def lateAnswer : Label :=
  {act := .advance, script := {recvs := [.ok (dataReply 1 dint ++ dataReply 2 dint)]}}

theorem operation_gets_its_reply_asked :
    (Config.step (Runs.run Config.step (after tagged) asked) promptAnswer).client.Completes
      ⟨0,by decide⟩ (dataReply 1 dint) :=
  ((Config.operation_gets_its_reply_iff memory 0 tagged controller_answers (by decide +kernel)
    (by decide +kernel) asked (by decide +kernel) promptAnswer (by decide +kernel) ⟨0,by decide⟩
    (by decide +kernel) (by decide +kernel) (by decide +kernel)).1 (by decide +kernel)).mpr
      (by decide +kernel)

theorem late_reply_hides_the_next :
    let s := Runs.run Config.step (after tagged) askedAgain
    let t := s.step lateAnswer
    Runs.Guarded Config.step (Config.Attended controller) (after tagged) askedAgain ∧
      s.Attended controller lateAnswer ∧ s.visiting lateAnswer = some ⟨0,by decide⟩ ∧
      expired (s.hear lateAnswer.script).world.millis.1 s.client.msg.deadline = false ∧
      s.arrives controller lateAnswer = true ∧ (lastLink s.world.log).unfinished = [] ∧
      .ended 0 .timeout false [] ∈ s.world.log ∧
      t.client.msg.state = .failed ∧ t.client.tagStatus 0 = .error ∧
      .ended 0 .error false (dataReply 1 dint) ∈ t.world.log := by
  decide +kernel

end Sample

end ControlLogix
