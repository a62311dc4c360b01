import ControlLogix.Cip.ConnectionRun
import ControlLogix.Eip.Intake

namespace ControlLogix

-- A machine as its caller sees it: whether its exchange is under way, whether it is over for good,
-- and whether a new request could be refused with Busy.
structure Machine (M : Type) where
  poll : M → TcpConnection → World → Status × M × TcpConnection × World
  inFlight : M → Bool
  ended : M → Prop
  refuses : M → Prop

namespace Machine

variable {M : Type} (K : Machine M)

-- A poll waits exactly while the exchange is under way, and an error has ended it: later polls do
-- nothing, and a new request can be made.
def Ends (m : M) (t : TcpConnection) (w : World) : Prop :=
  ((K.poll m t w).1 = .pending ↔ K.inFlight (K.poll m t w).2.1 = true) ∧
    ((K.poll m t w).1.code < 0 → K.ended (K.poll m t w).2.1 ∧
      (∀ u v, (K.poll (K.poll m t w).2.1 u v).2 = ((K.poll m t w).2.1,u,v)) ∧
      ¬ K.refuses (K.poll m t w).2.1)

variable {K} {m m' : M} {t t' : TcpConnection} {w w' : World} {st : Status}

theorem ends_waits (h : K.poll m t w = (.pending,m',t',w')) (hfly : K.inFlight m' = true) :
    K.Ends m t w := by
  rw [Ends,h]
  exact ⟨iff_of_true rfl hfly,fun hneg => absurd hneg (by simp [Status.code])⟩

theorem ends_done (h : K.poll m t w = (st,m',t',w')) (hst : st ≠ .pending)
    (hfly : K.inFlight m' = false) (hover : st ≠ .ok → K.ended m' ∧
      (∀ u v, (K.poll m' u v).2 = (m',u,v)) ∧ ¬ K.refuses m') : K.Ends m t w := by
  rw [Ends,h]
  refine ⟨iff_of_false hst (by rw [hfly]; exact Bool.false_ne_true),fun hneg => hover ?_⟩
  rintro rfl
  exact absurd hneg (by simp [Status.code])

end Machine

def Session.machine : Machine Session where
  poll := Session.poll
  inFlight := Session.exchanging
  ended := fun s => s.state = .failed ∨ s.state = .closed
  refuses := fun s => ∃ t timeoutMs w, (s.open t timeoutMs w).1 = .busy

def ExplicitMessage.machine : Machine ExplicitMessage where
  poll := ExplicitMessage.poll
  inFlight := ExplicitMessage.inFlight
  ended := fun m => m.state = .failed
  refuses := fun m =>
    (∃ t sessionHandle service path data timeoutMs w,
      (m.send t sessionHandle service path data timeoutMs w).1 = .busy) ∨
    ∃ t sessionHandle slot service path data timeoutMs w,
      (m.sendRouted t sessionHandle slot service path data timeoutMs w).1 = .busy

def Connection.machine : Machine Connection where
  poll := Connection.poll
  inFlight := Connection.busy
  ended := fun c => c.state = .failed ∨ c.state = .closed
  refuses := fun c =>
    (∃ t sessionHandle tagName timeoutMs cpuSlot chip g w,
      (c.open t sessionHandle tagName timeoutMs cpuSlot chip g w).1 = .busy) ∨
    ∃ sessionHandle service path data timeoutMs w,
      (c.send sessionHandle service path data timeoutMs w).1 = .busy

namespace Session

theorem failed_ended {s : Session} (h : s.state = .failed) : machine.ended s ∧
    (∀ u v, (machine.poll s u v).2 = (s,u,v)) ∧ ¬ machine.refuses s := by
  refine ⟨Or.inl h,fun u v => ?_,?_⟩
  · simp only [machine,poll,h]
  · rintro ⟨t,timeoutMs,w,hbusy⟩
    rcases s.open_cases t timeoutMs w with ⟨_,_,heq,_⟩ | ⟨st,_,heq,⟨_,hs⟩ | hconn⟩
    · rw [heq] at hbusy
      cases hbusy
    · rcases hs with hs | hs <;>
      · rw [h] at hs
        cases hs
    · simp only [Session.open,h,hconn] at hbusy
      simp at hbusy

theorem taken_ends {s : Session} (hs : s.exchanging = true) (st : Status) (x : Transfer) :
    (s.taken st x).1 = .pending ∧ (s.taken st x).2.exchanging = true ∨
      (s.taken st x).1 ≠ .pending ∧ (s.taken st x).2.exchanging = false ∧
        ((s.taken st x).1 ≠ .ok → (s.taken st x).2.state = .failed) := by
  simp only [taken]
  by_cases hwait : st = .pending
  · rw [if_pos hwait]
    exact Or.inl ⟨rfl,exchanger.busy_resume s x hs⟩
  rw [if_neg hwait]
  refine Or.inr ?_
  by_cases hok : st = .ok
  · rw [if_pos hok]
    refine ⟨exchanger.finish_ne s x,?_⟩
    simp only [exchanger]
    split_ifs <;> simp [exchanging]
  · rw [if_neg hok]
    exact ⟨hwait,rfl,fun _ => rfl⟩

theorem ends_iff {s : Session} (hs : s.exchanging = true) (t : TcpConnection) (w : World) :
    machine.Ends s t w ↔
      expired w.millis.1 s.deadline = true ∨ ¬ s.io.Refused t w.script.sends := by
  have hrefused := s.io.writePending_refused t w.millis.2
  have hturned := poll_turned hs t w
  rcases hpoll : s.poll t w with ⟨st,s',t',w'⟩
  rw [hpoll] at hturned
  cases hturned with
  | late hlate =>
    exact iff_of_true (Machine.ends_done hpoll (by simp) rfl fun _ => failed_ended rfl)
      (Or.inl hlate)
  | @unsent _ x _ _ hdl hwrite hok =>
    rw [hwrite] at hrefused
    rw [hdl,or_iff_right Bool.false_ne_true]
    by_cases hwait : st = .pending
    · subst hwait
      exact iff_of_true (Machine.ends_waits hpoll hs) fun h => (hrefused.mp h).1 rfl
    · refine iff_of_false (fun h => ?_) (not_not.mpr (hrefused.mpr ⟨hwait,hok⟩))
      have hfly := h.1.mpr
      simp only [machine,hpoll] at hfly
      exact hwait (hfly hs)
  | @read x y _ _ _ _ st' hdl hwrite hread =>
    rw [hwrite] at hrefused
    refine iff_of_true ?_ (Or.inr fun h => (hrefused.mp h).2 rfl)
    rcases taken_ends hs st' y with ⟨hwait,hfly⟩ | ⟨hne,hfly,hover⟩
    · rw [hwait] at hpoll
      exact Machine.ends_waits hpoll hfly
    · exact Machine.ends_done hpoll hne hfly fun hok => failed_ended (hover hok)

end Session

namespace ExplicitMessage

theorem Issued.not_busy {m : ExplicitMessage} {t : TcpConnection} {sessionHandle : UInt32}
    {w : World} {r : Status × ExplicitMessage × World} (h : Issued m t sessionHandle w r)
    (hfree : m.inFlight = false) : r.1 ≠ .busy := by
  cases h with
  | taken => simp
  | refused _ hbusy =>
    intro hst
    rw [hbusy hst] at hfree
    cases hfree

theorem failed_ended {m : ExplicitMessage} (h : m.state = .failed) : machine.ended m ∧
    (∀ u v, (machine.poll m u v).2 = (m,u,v)) ∧ ¬ machine.refuses m := by
  refine ⟨h,fun u v => ?_,?_⟩
  · simp only [machine,poll,h]
  · have hfree : m.inFlight = false := by simp [inFlight,h]
    rintro (⟨t,sessionHandle,service,path,data,timeoutMs,w,hbusy⟩ |
      ⟨t,sessionHandle,slot,service,path,data,timeoutMs,w,hbusy⟩)
    · exact (m.send_issued t sessionHandle service path data timeoutMs w).not_busy hfree hbusy
    · exact (m.sendRouted_issued t sessionHandle slot service path data timeoutMs w).not_busy hfree
        hbusy

theorem ends {m : ExplicitMessage} (hm : m.inFlight = true) (t : TcpConnection) (w : World) :
    machine.Ends m t w := by
  obtain ⟨st,m',t',w',hpoll,h⟩ := poll_polled hm t w
  rcases h.ended with ⟨rfl,hfly,_⟩ | ⟨rfl,hdone,_⟩ | ⟨hst,hfailed⟩
  · exact Machine.ends_waits hpoll hfly
  · exact Machine.ends_done hpoll (by simp) (by simp [machine,inFlight,hdone])
      fun hok => absurd rfl hok
  · refine Machine.ends_done hpoll ?_ (by simp [machine,inFlight,hfailed])
      fun _ => failed_ended hfailed
    rcases hst with rfl | rfl | rfl <;> simp

end ExplicitMessage

namespace Connection

theorem open_not_busy {c : Connection} {t : TcpConnection} {sessionHandle : UInt32}
    {tagName : Option (List UInt8)} {timeoutMs : UInt32} {cpuSlot : UInt8} {chip : Chip}
    {g : Statics} {w : World} (hc : c.busy = false) (hfwd : c.fwd.inFlight = false) :
    (c.open t sessionHandle tagName timeoutMs cpuSlot chip g w).1 ≠ .busy := by
  cases tagName with
  | none => simp [Connection.open]
  | some name =>
    simp only [busy,decide_eq_false_iff_not] at hc
    simp only [Connection.open]
    rw [if_neg hc]
    split_ifs
    · simp
    obtain ⟨serial,hserial,_⟩ :=
      originatorSerialNumber_spec chip.mac {g with connSerial := nextSerial g.connSerial}
    generalize hd : c.drawn name cpuSlot chip g = d
    have hsent := c.fwd.send_issued t sessionHandle kForwardOpen managerPath (forwardOpenData
      d.toConnId d.connSerial serial (buildConnectionPath d.cpuSlot d.tagName)) timeoutMs w
    rcases hsend : c.fwd.send t sessionHandle kForwardOpen managerPath (forwardOpenData
      d.toConnId d.connSerial serial (buildConnectionPath d.cpuSlot d.tagName)) timeoutMs w
      with ⟨st,fwd,w'⟩
    rw [startOpen_eq hserial t sessionHandle name timeoutMs cpuSlot w hd hsend]
    rw [hsend] at hsent
    exact hsent.not_busy hfwd

theorem failed_ended {c : Connection} (h : c.state = .failed) (hfwd : c.fwd.inFlight = false) :
    machine.ended c ∧ (∀ u v, (machine.poll c u v).2 = (c,u,v)) ∧ ¬ machine.refuses c := by
  refine ⟨Or.inl h,fun u v => ?_,?_⟩
  · simp only [machine,poll,h]
  · rintro (⟨t,sessionHandle,tagName,timeoutMs,cpuSlot,chip,g,w,hbusy⟩ |
      ⟨sessionHandle,service,path,data,timeoutMs,w,hbusy⟩)
    · exact open_not_busy (by simp [busy,h]) hfwd hbusy
    · simp only [send,h] at hbusy
      simp at hbusy

theorem carried_ends {c : Connection} (hc : c.state = .opening ∨ c.state = .closing)
    (hfwd : c.fwd.inFlight = true) (t : TcpConnection) (w : World) : machine.Ends c t w := by
  obtain ⟨st,fwd,t',w',hpoll,h⟩ := ExplicitMessage.poll_polled hfwd t w
  have hfree (hst : st ≠ .pending) : fwd.inFlight = false := by
    rcases h.ended with ⟨hwait,_⟩ | ⟨_,hdone,_⟩ | ⟨_,hfailed⟩
    · exact absurd hwait hst
    · simp [ExplicitMessage.inFlight,hdone]
    · simp [ExplicitMessage.inFlight,hfailed]
  rcases hc with hc | hc
  · have heq : machine.poll c t w = c.pollOpening t w := by simp only [machine,poll,hc]
    rcases pollOpening_cases hpoll with ⟨_,hopen⟩ | ⟨hst,st',hst',_,hopen⟩ |
      ⟨_,_,_,_,_,_,hopen⟩
    · exact Machine.ends_waits (heq.trans hopen) (by simp [machine,busy,hc])
    · exact Machine.ends_done (heq.trans hopen) hst' rfl fun _ => failed_ended rfl (hfree hst)
    · exact Machine.ends_done (heq.trans hopen) (by simp) rfl fun hok => absurd rfl hok
  · have heq : machine.poll c t w = c.pollClosing t w := by simp only [machine,poll,hc]
    rw [pollClosing_cases hpoll] at heq
    by_cases hst : st = .pending
    · subst hst
      rw [if_pos rfl] at heq
      exact Machine.ends_waits heq (by simp [machine,busy,hc])
    rw [if_neg hst] at heq
    by_cases hok : st = .ok
    · rw [if_pos hok] at heq
      exact Machine.ends_done heq hst rfl fun hnot => absurd hok hnot
    · rw [if_neg hok] at heq
      exact Machine.ends_done heq hst rfl fun _ => failed_ended rfl (hfree hst)

theorem sending_ends {c : Connection} (hc : c.state = .sending) (hfwd : c.fwd.inFlight = false)
    (t : TcpConnection) (w : World) : machine.Ends c t w := by
  obtain ⟨st,c',t',w',hpoll,h⟩ := pollSending_exchanged hc t w
  have heq : machine.poll c t w = (st,c',t',w') := by
    simp only [machine,poll,hc]
    exact hpoll
  have hfree : c'.fwd.inFlight = false := by
    rw [h.kept]
    exact hfwd
  rcases h.ended with ⟨rfl,hsending,_⟩ | ⟨rfl,hopen,_⟩ | ⟨hst,_,hfailed⟩
  · exact Machine.ends_waits heq (by simp [machine,busy,hsending])
  · exact Machine.ends_done heq (by simp) (by simp [machine,busy,hopen])
      fun hok => absurd rfl hok
  · exact Machine.ends_done heq hst (by simp [machine,busy,hfailed])
      fun _ => failed_ended hfailed hfree

theorem Tracks.ends {c : Connection} {log : List Event} (h : Tracks c log) (hc : c.busy = true)
    (t : TcpConnection) (w : World) : machine.Ends c t w := by
  have hstate : c.state = .opening ∨ c.state = .sending ∨ c.state = .closing := by
    simpa [busy] using hc
  rcases hstate with hs | hs | hs
  · exact carried_ends (Or.inl hs) (h.flies.mpr (Or.inl hs)) t w
  · refine sending_ends hs ?_ t w
    rw [← Bool.not_eq_true,h.flies,hs]
    simp
  · exact carried_ends (Or.inr hs) (h.flies.mpr (Or.inr hs)) t w

end Connection

-- An error ends every exchange but one: a session whose request does not leave stays under way.
theorem failure_ends_exchange_iff (s : Session) (m : ExplicitMessage) (time : Nat)
    (ls : List Connection.Call) (t : TcpConnection) (w : World) :
    (s.exchanging = true → (Session.machine.Ends s t w ↔
      expired w.millis.1 s.deadline = true ∨ ¬ s.io.Refused t w.script.sends)) ∧
    (m.inFlight = true → ExplicitMessage.machine.Ends m t w) ∧
    ((Connection.Run.after time ls).client.busy = true →
      Connection.machine.Ends (Connection.Run.after time ls).client t w) :=
  ⟨fun hs => Session.ends_iff hs t w,fun hm => ExplicitMessage.ends hm t w,
    fun hc => (Connection.Run.tracks_after time ls).ends hc t w⟩

namespace Sample

def enrolling : Session :=
  ((({} : Session).open {fd := 3, state := .ok} 1000 {time := 0, script := {}, log := []}).2).1

def peerResets : World :=
  {time := 0, script := {sends := [.ok 28], recvs := [.error .econnreset]}, log := []}

theorem enrolling_ends :
    (enrolling.poll {fd := 3, state := .ok} peerResets).1 = .error ∧
      (enrolling.poll {fd := 3, state := .ok} peerResets).2.1.state = .failed ∧
        Session.machine.Ends enrolling {fd := 3, state := .ok} peerResets :=
  ⟨by decide,by decide,
    ((failure_ends_exchange_iff enrolling {} 0 [] {fd := 3, state := .ok} peerResets).1
      (by decide)).mpr (Or.inr fun h => h.2.elim (fun hdead => hdead ⟨by decide,rfl⟩)
        fun hfail => absurd hfail (by decide))⟩

def pipeBreaks : World := {time := 0, script := {sends := [.error .epipe]}, log := []}

def brokenPipe : Status × Session × TcpConnection × World :=
  enrolling.poll {fd := 3, state := .ok} pipeBreaks

theorem broken_pipe_goes_on : brokenPipe.1 = .closed ∧ brokenPipe.2.1.state = .registering ∧
    (brokenPipe.2.1.open {fd := 4, state := .ok} 1000 pipeBreaks).1 = .busy ∧
      ¬ Session.machine.Ends enrolling {fd := 3, state := .ok} pipeBreaks := by
  have hstate : brokenPipe.2.1.state = .registering := by decide
  refine ⟨by decide,hstate,by decide,fun h => ?_⟩
  rcases (h.2 (by decide)).1 with hover | hover <;>
  · have hsame : brokenPipe.2.1.state = _ := hover
    rw [hstate] at hsame
    cases hsame

end Sample

end ControlLogix
