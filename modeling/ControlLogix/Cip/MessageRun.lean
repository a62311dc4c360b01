import ControlLogix.Cip.ExplicitMessage
import ControlLogix.Eip.Link
import ControlLogix.Library.Runs
import ControlLogix.Library.Ledger

namespace ControlLogix

open ExplicitMessage (frameContext)

def requests (P : Nat → Bool) : List Event → List (List UInt8)
  | [] => []
  | .started i frame :: log => if P i then frame :: requests P log else requests P log
  | _ :: log => requests P log

def only (i : Nat) : Nat → Bool := fun j => j = i

-- The bytes read since a request was last started.
def consumed : List Event → List UInt8
  | [] => []
  | .started _ _ :: _ => []
  | .recv _ got :: log => consumed log ++ got
  | _ :: log => consumed log

-- An operation that ends well has read one whole packet, which carries the context of its request
-- and that of no request before it.
def Answered (P : Nat → Bool) (command : UInt16) : Event → List Event → Prop
  | .ended i st _ rx, past => P i = true → st = .ok → ∃ frame earlier,
      requests P past = frame :: earlier ∧ rx = consumed past ∧ Encapsulated rx ∧
      (decodeHeader rx).command = command ∧ (decodeHeader rx).status = 0 ∧
      (decodeHeader rx).context = frameContext frame ∧
      ∀ f ∈ earlier, frameContext f ≠ (decodeHeader rx).context
  | _, _ => True

def contextStamp (k : Nat) : UInt64 := UInt64.ofNat (k + 1)

theorem contextStamp_fresh : Stamps.Fresh contextStamp (2 ^ 64) := by
  intro i j hi hj heq
  have h := congrArg UInt64.toNat heq
  simp only [contextStamp,UInt64.toNat_ofNat'] at h
  omega

theorem contextStamp_succ (k : Nat) : contextStamp k + 1 = contextStamp (k + 1) := by
  apply UInt64.toNat_inj.mp
  simp only [contextStamp,UInt64.toNat_add,UInt64.toNat_ofNat',UInt64.toNat_one]
  omega

theorem requests_board {P : Nat → Bool} {e : Event} (h : e.board = true) (log : List Event) :
    requests P (e :: log) = requests P log := by
  cases e <;> simp_all [Event.board,requests]

theorem answered_board {P : Nat → Bool} {command : UInt16} {e : Event} (h : e.board = true)
    (log : List Event) : Answered P command e log := by
  cases e <;> simp_all [Event.board,Answered]

theorem Sent.consumed {fd : Int} {tx : List UInt8} {a b : Nat} {log log' : List Event}
    (h : Sent fd tx a log b log') : consumed log' = consumed log := by
  induction h with
  | refl => rfl
  | step _ _ _ ih => exact ih

theorem Got.consumed {fd : Int} {rx rx' : List UInt8} {log log' : List Event}
    (h : Got fd rx log rx' log') : ∃ more, rx' = rx ++ more ∧
      consumed log' = consumed log ++ more := by
  induction h with
  | refl => exact ⟨[],by simp,by simp⟩
  | step got _ ih =>
    obtain ⟨more,rfl,heq⟩ := ih
    exact ⟨more ++ got,by simp,by rw [ControlLogix.consumed,heq,List.append_assoc]⟩

theorem Transfer.Moved.consumed {x x' : Transfer} {t t' : TcpConnection} {w w' : World}
    (h : Moved x t w x' t' w') : ∃ more, x'.rx = x.rx ++ more ∧
      consumed w'.log = consumed w.log ++ more := by
  obtain ⟨mid,hsent,hgot,_⟩ := h.traffic
  obtain ⟨more,hrx,hmore⟩ := hgot.consumed
  exact ⟨more,hrx,by rw [hmore,hsent.consumed]⟩

theorem Transfer.Moved.requests {P : Nat → Bool} {x x' : Transfer} {t t' : TcpConnection}
    {w w' : World} (h : Moved x t w x' t' w') : requests P w'.log = requests P w.log :=
  h.spoke.reading fun _ he es => requests_board he es

structure Tracked (P : Nat → Bool) (next sent : UInt64) (flying : Bool) (io : Transfer)
    (log : List Event) : Prop where
  numbered : Stamps.Numbered contextStamp ((requests P log).map frameContext)
  next_eq : next = contextStamp (requests P log).length
  flight : flying = true → (∃ earlier, requests P log = io.tx :: earlier) ∧
    sent = frameContext io.tx ∧ io.rx = consumed log ∧ io.Paced

namespace Tracked

variable {P : Nat → Bool} {next sent : UInt64} {flying : Bool} {io io' : Transfer}
  {log log' : List Event}

theorem idle (h : Tracked P next sent flying io log) (sent' : UInt64) (io' : Transfer)
    (hreq : requests P log' = requests P log) : Tracked P next sent' false io' log' :=
  ⟨by rw [hreq]; exact h.numbered,by rw [hreq]; exact h.next_eq,fun hfly => (by cases hfly)⟩

theorem issued (h : Tracked P next sent flying io log) {i : Nat} (hi : P i = true)
    {frame : List UInt8} (hframe : frameContext frame = next) :
    Tracked P (next + 1) next true (Transfer.load frame) (.started i frame :: log) := by
  have hreq : requests P (.started i frame :: log) = frame :: requests P log := if_pos hi
  have hlen : ((requests P log).map frameContext).length = (requests P log).length :=
    List.length_map _
  refine ⟨?_,?_,fun _ => ⟨⟨_,hreq⟩,hframe.symm,rfl,Transfer.load_paced frame⟩⟩
  · rw [hreq,List.map_cons,hframe,h.next_eq,← hlen]
    exact h.numbered.push
  · rw [hreq,h.next_eq,contextStamp_succ]
    rfl

theorem moved {t t' : TcpConnection} {w w' : World} (h : Tracked P next sent true io w.log)
    (hmoved : Transfer.Moved io t w io' t' w') (hpaced : io'.Paced) :
    Tracked P next sent true io' w'.log := by
  obtain ⟨hcur,hsent,hrx,_⟩ := h.flight rfl
  obtain ⟨more,hmore,hcons⟩ := hmoved.consumed
  refine ⟨by rw [hmoved.requests]; exact h.numbered,by rw [hmoved.requests]; exact h.next_eq,
    fun _ => ⟨?_,?_,?_,hpaced⟩⟩
  · rw [hmoved.requests,hmoved.tx_eq]
    exact hcur
  · rw [hmoved.tx_eq]
    exact hsent
  · rw [hmore,hcons,hrx]

theorem answered {t t' : TcpConnection} {w w' : World} {command : UInt16}
    (h : Tracked P next sent true io w.log) (hmoved : Transfer.Moved io t w io' t' w')
    (hcount : (requests P w.log).length < 2 ^ 64) (hbox : Encapsulated io'.rx)
    (hcommand : (decodeHeader io'.rx).command = command)
    (hstatus : (decodeHeader io'.rx).status = 0)
    (hcontext : (decodeHeader io'.rx).context = sent) (i : Nat) (a : Bool) (st : Status) :
    Answered P command (.ended i st a io'.rx) w'.log := by
  obtain ⟨⟨earlier,hcur⟩,hsent,hrx,_⟩ := h.flight rfl
  obtain ⟨more,hmore,hcons⟩ := hmoved.consumed
  intro _ _
  refine ⟨io.tx,earlier,by rw [hmoved.requests,hcur],by rw [hmore,hcons,hrx],hbox,hcommand,
    hstatus,hcontext.trans hsent,fun f hf heq => ?_⟩
  have hnum := h.numbered
  rw [hcur] at hnum hcount
  simp only [List.length_cons] at hcount
  have hnot := hnum.fresh contextStamp_fresh (by rw [List.length_map]; omega)
  exact hnot (by rw [← hsent,← hcontext,← heq]; exact List.mem_map_of_mem hf)

end Tracked

namespace ExplicitMessage

inductive Op where
  | send (sessionHandle : UInt32) (service : UInt8) (path data : List UInt8) (timeoutMs : UInt32)
  | sendRouted (sessionHandle : UInt32) (slot service : UInt8) (path data : List UInt8)
      (timeoutMs : UInt32)
  | poll
  | abort

structure Call where
  op : Op
  conn : TcpConnection
  script : Script := {}

structure Run where
  msg : ExplicitMessage := {}
  world : World

namespace Run

def started (r : Status × ExplicitMessage × World) : Run where
  msg := r.2.1
  world := if r.1 = .pending then r.2.2.note (.started 0 r.2.1.io.tx) else r.2.2

def step (s : Run) (l : Call) : Run :=
  let w := {s.world with script := l.script}
  match l.op with
  | .send sessionHandle service path data timeoutMs =>
    started (s.msg.send l.conn sessionHandle service path data timeoutMs w)
  | .sendRouted sessionHandle slot service path data timeoutMs =>
    started (s.msg.sendRouted l.conn sessionHandle slot service path data timeoutMs w)
  | .poll =>
    let (st,m,_,w) := s.msg.poll l.conn w
    {msg := m,
     world := if s.msg.inFlight ∧ st ≠ .pending then
        w.note (.ended 0 st (m.state = .done) m.io.rx) else w}
  | .abort => {msg := s.msg.abort, world := w}

def init (time : Nat) : Run where
  world := {time := time, script := {}, log := []}

def after (time : Nat) (ls : List Call) : Run := Runs.run step (init time) ls

end Run

def Tracks (s : Run) : Prop :=
  Tracked (only 0) s.msg.context s.msg.sentContext s.msg.inFlight s.msg.io s.world.log ∧
    ((requests (only 0) s.world.log).length < 2 ^ 64 →
      Trace.Always (Answered (only 0) (Command.code .sendRRData)) s.world.log)

theorem tracks_started {s : Run} {t : TcpConnection} {sessionHandle : UInt32} {w : World}
    {r : Status × ExplicitMessage × World} (h : Tracks s) (hw : w.log = s.world.log)
    (hr : Issued s.msg t sessionHandle w r) : Tracks (Run.started r) := by
  cases hr with
  | @taken service path data deadline w' _ _ _ hlog =>
    have hframe := frameContext_requestFrame sessionHandle s.msg.context service path data
    have hnew : (Run.started (.pending,s.msg.issued
        (requestFrame sessionHandle s.msg.context service path data) deadline,w')).world.log =
        .started 0 (requestFrame sessionHandle s.msg.context service path data) ::
          s.world.log := by
      rw [← hw,← hlog]
      rfl
    rw [Tracks,hnew]
    refine ⟨h.1.issued rfl hframe,fun hcount => ⟨trivial,h.2 (Nat.lt_of_succ_lt ?_)⟩⟩
    exact hcount
  | refused hst _ =>
    simp only [Run.started,if_neg hst]
    rw [Tracks,hw]
    exact h

theorem tracks_poll {s : Run} (h : Tracks s) (t : TcpConnection) (script : Script) :
    Tracks (s.step ⟨.poll,t,script⟩) := by
  cases hfly : s.msg.inFlight with
  | false =>
    have hstill : s.msg.poll t {s.world with script := script} =
        ((s.msg.poll t {s.world with script := script}).1,s.msg,t,
          {s.world with script := script}) := by
      unfold poll
      cases hst : s.msg.state <;> simp_all [inFlight]
    rw [Run.step]
    simp only
    rw [hstill]
    simp only [hfly]
    exact h
  | true =>
    obtain ⟨st,m,t',w',heq,hp⟩ := poll_polled hfly t {s.world with script := script}
    have htracked : Tracked (only 0) s.msg.context s.msg.sentContext true s.msg.io s.world.log :=
      hfly ▸ h.1
    have hpaced := (htracked.flight rfl).2.2.2
    have hreq : requests (only 0) w'.log = requests (only 0) s.world.log := hp.io.requests
    have hrest : (requests (only 0) w'.log).length < 2 ^ 64 →
        Trace.Always (Answered (only 0) (Command.code .sendRRData)) w'.log := fun hcount =>
      hp.io.spoke.always (fun _ he past => answered_board he past) (h.2 (hreq ▸ hcount))
    rw [Run.step]
    simp only
    rw [heq]
    rw [Tracks]
    simp only [hfly,true_and,hp.context,hp.sentContext]
    rcases hp.ended with ⟨rfl,hfly',hpaced'⟩ | ⟨rfl,hdone,_⟩ | ⟨hst,hfailed⟩
    · rw [if_neg (by simp),hfly']
      exact ⟨htracked.moved (w := {s.world with script := script}) hp.io (hpaced' hpaced),hrest⟩
    · have hquiet : m.inFlight = false := by simp [inFlight,hdone]
      obtain ⟨hbox,hcommand,hstatus,hcontext⟩ := poll_taken hfly hpaced heq
      rw [if_pos (by simp),hquiet]
      exact ⟨htracked.idle _ _ hreq,fun hcount => ⟨htracked.answered
        (w := {s.world with script := script}) hp.io (hreq ▸ hcount) hbox hcommand hstatus
        hcontext _ _ _,hrest hcount⟩⟩
    · have hquiet : m.inFlight = false := by simp [inFlight,hfailed]
      have hnot : st ≠ .ok := by rcases hst with rfl | rfl | rfl <;> simp
      rw [if_pos (by rcases hst with rfl | rfl | rfl <;> simp),hquiet]
      exact ⟨htracked.idle _ _ hreq,fun hcount => ⟨fun _ hok => absurd hok hnot,hrest hcount⟩⟩

theorem tracks_step {s : Run} (h : Tracks s) (l : Call) : Tracks (s.step l) := by
  obtain ⟨op,t,script⟩ := l
  cases op with
  | send sessionHandle service path data timeoutMs =>
    exact tracks_started h (w := {s.world with script := script}) rfl
      (s.msg.send_issued t sessionHandle service path data timeoutMs _)
  | sendRouted sessionHandle slot service path data timeoutMs =>
    exact tracks_started h (w := {s.world with script := script}) rfl
      (s.msg.sendRouted_issued t sessionHandle slot service path data timeoutMs _)
  | abort => exact ⟨h.1.idle _ _ rfl,h.2⟩
  | poll => exact tracks_poll h t script

theorem tracks_after (time : Nat) (ls : List Call) : Tracks (Run.after time ls) :=
  @Runs.invariant_always _ _ Run.step Tracks (fun _ l h => tracks_step h l) (Run.init time)
    ⟨⟨.nil,rfl,fun h => (by cases h)⟩,fun _ => trivial⟩ ls

end ExplicitMessage

end ControlLogix
