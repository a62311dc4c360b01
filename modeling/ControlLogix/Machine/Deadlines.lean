import ControlLogix.Cip.ConnectionRun
import ControlLogix.Eip.Registration
import ControlLogix.Library.Clock
import ControlLogix.Machine.TagMoves

namespace ControlLogix

theorem expired_iff (now deadline : UInt32) :
    expired now deadline = true ↔ 0 ≤ (now - deadline).toInt32 := by
  rw [expired,decide_eq_true_eq]

theorem expired_exact {start elapsed : Nat} {timeoutMs now deadline : UInt32}
    (htimeout : timeoutMs.toNat < 2 ^ 31) (helapsed : elapsed < timeoutMs.toNat + 2 ^ 31)
    (hdeadline : deadline = Clock.shows start + timeoutMs)
    (hnow : now = Clock.shows (start + elapsed)) :
    expired now deadline = true ↔ timeoutMs.toNat ≤ elapsed := by
  rw [expired_iff,hdeadline,hnow]
  exact Clock.late_iff htimeout helapsed

theorem millis_shows (w : World) : w.millis.1 = Clock.shows w.millis.2.time := rfl

theorem Session.poll_timeout_iff {s : Session} (hs : s.exchanging = true) (t : TcpConnection)
    (w : World) : (s.poll t w).1 = .timeout ↔ expired w.millis.1 s.deadline = true := by
  refine ⟨fun hpoll => ?_,fun hlate => by rw [poll_late hs hlate]⟩
  have hturned := poll_turned hs t w
  generalize hr : s.poll t w = r at hpoll hturned
  cases hturned with
  | late hlate => exact hlate
  | unsent _ hwrite _ =>
    subst hpoll
    rcases (Transfer.Wrote.of_write hwrite).status with h | ⟨h,_⟩ | h <;> simp at h
  | read _ _ hread =>
    refine absurd hpoll (taken_status ?_)
    rcases (Transfer.Read.of_read hread).status with h | ⟨h,_⟩ | h | h <;> simp [h]

namespace ExplicitMessage

inductive Since (now timeoutMs : UInt32) : ExplicitMessage → Prop
  | sent {m : ExplicitMessage} {t : TcpConnection} {sessionHandle : UInt32} {service : UInt8}
      {path data : List UInt8} {w : World} : w.millis.1 = now →
      (m.send t sessionHandle service path data timeoutMs w).1 = .pending →
      Since now timeoutMs (m.send t sessionHandle service path data timeoutMs w).2.1
  | routed {m : ExplicitMessage} {t : TcpConnection} {sessionHandle : UInt32}
      {slot service : UInt8} {path data : List UInt8} {w : World} : w.millis.1 = now →
      (m.sendRouted t sessionHandle slot service path data timeoutMs w).1 = .pending →
      Since now timeoutMs (m.sendRouted t sessionHandle slot service path data timeoutMs w).2.1
  | polled {m : ExplicitMessage} {t : TcpConnection} {w : World} : Since now timeoutMs m →
      Since now timeoutMs (m.poll t w).2.1

theorem poll_deadline (m : ExplicitMessage) (t : TcpConnection) (w : World) :
    (m.poll t w).2.1.deadline = m.deadline := by
  cases hm : m.inFlight with
  | true =>
    obtain ⟨_,_,_,_,heq,hp⟩ := poll_polled hm t w
    rw [heq]
    exact hp.deadline
  | false =>
    cases hs : m.state <;> simp_all [poll,inFlight]

theorem Since.deadline_eq {now timeoutMs : UInt32} {m : ExplicitMessage}
    (h : Since now timeoutMs m) : m.deadline = now + timeoutMs := by
  induction h with
  | sent hnow hsend =>
    simp only [send] at hsend ⊢
    split_ifs at hsend ⊢
    rw [← hnow]
    rfl
  | routed hnow hsend =>
    simp only [sendRouted] at hsend ⊢
    split_ifs at hsend ⊢
    rw [← hnow]
    rfl
  | polled _ ih => rw [poll_deadline,ih]

theorem poll_passes {m : ExplicitMessage} (hm : m.inFlight = true) (t : TcpConnection) (w : World)
    {st : Status} (hst : st = .timeout ∨ st = .closed) : (m.poll t w).1 = st ↔
      if expired w.millis.1 m.deadline = true then st = .timeout
      else (m.io.writePending t w.millis.2).1 = st ∨
        ∃ y u v, m.io.writePending t w.millis.2 = (.ok,y,u,v) ∧
          (y.readResponse (16 + kMaxCipData + kRoutedOverhead) u v).1 = st := by
  have hne : st ≠ .ok ∧ st ≠ .error := by rcases hst with rfl | rfl <;> simp
  unfold poll
  split
  · next h => simp [h] at hm
  · next h => simp [h] at hm
  · next h => simp [h] at hm
  by_cases hlate : expired w.millis.1 m.deadline = true
  · simp only [if_pos hlate]
    exact eq_comm
  simp only [if_neg hlate]
  rcases m.io.turn (16 + kMaxCipData + kRoutedOverhead) t w.millis.2 with
    ⟨got,x,t',w',hwrite,hgot,_,_⟩ | ⟨y,u,v,got,x,t',w',hwrite,hread,hkind,_⟩
  · simp only [hwrite,if_pos hgot]
    simp [hgot]
  · have hone : (Status.ok = st ∨ ∃ y' u' v', (Status.ok,y,u,v) = (Status.ok,y',u',v') ∧
        (y'.readResponse (16 + kMaxCipData + kRoutedOverhead) u' v').1 = st) ↔ got = st := by
      constructor
      · rintro (hok | ⟨y',u',v',heq,h⟩)
        · exact absurd hok.symm hne.1
        · cases heq
          rwa [hread] at h
      · rintro rfl
        exact Or.inr ⟨y,u,v,rfl,by rw [hread]⟩
    simp only [hwrite,hread,hone]
    rcases hkind with rfl | rfl | rfl | rfl
    · simp
    · rcases parseResponse_cases {m with state := .receiving, io := x} with ⟨_,heq,_⟩ | heq
      · simp [heq]
      · simp [heq,hne.1.symm,hne.2.symm]
    · simp
    · simp

theorem poll_timeout_iff {m : ExplicitMessage} (hm : m.inFlight = true) (t : TcpConnection)
    (w : World) : (m.poll t w).1 = .timeout ↔ expired w.millis.1 m.deadline = true := by
  rw [poll_passes hm t w (Or.inl rfl)]
  by_cases hlate : expired w.millis.1 m.deadline = true
  · simp [hlate]
  rw [if_neg hlate]
  refine iff_of_false ?_ hlate
  rcases m.io.turn (16 + kMaxCipData + kRoutedOverhead) t w.millis.2 with
    ⟨st,x,t',w',hwrite,_,hkind,_⟩ | ⟨y,u,v,st,x,t',w',hwrite,hread,hkind,_⟩
  · rw [hwrite]
    rcases hkind with rfl | rfl | rfl <;> simp
  · rw [hwrite]
    rcases hkind with rfl | rfl | rfl | rfl <;> simp [hread]

end ExplicitMessage

namespace Connection

inductive Since (now timeoutMs : UInt32) : Connection → Prop
  | sent {c : Connection} {sessionHandle : UInt32} {service : UInt8} {path data : List UInt8}
      {w : World} : w.millis.1 = now →
      (c.send sessionHandle service path data timeoutMs w).1 = .pending →
      Since now timeoutMs (c.send sessionHandle service path data timeoutMs w).2.1
  | polled {c : Connection} {t : TcpConnection} {w : World} : Since now timeoutMs c →
      Since now timeoutMs (c.poll t w).2.1

theorem poll_deadline (c : Connection) (t : TcpConnection) (w : World) :
    (c.poll t w).2.1.deadline = c.deadline := by
  simp only [poll]
  cases hs : c.state with
  | opening =>
    rcases hfwd : c.fwd.poll t w with ⟨st,fwd,t',w'⟩
    rcases pollOpening_cases hfwd with ⟨_,heq⟩ | ⟨_,_,_,_,heq⟩ | ⟨_,_,_,_,_,_,heq⟩ <;> rw [heq]
  | sending =>
    obtain ⟨_,_,_,_,heq,hex⟩ := pollSending_exchanged hs t w
    simp only [heq]
    rw [hex.kept]
  | closing =>
    rcases hfwd : c.fwd.poll t w with ⟨st,fwd,t',w'⟩
    rw [pollClosing_cases hfwd]
  | _ => rfl

theorem Since.deadline_eq {now timeoutMs : UInt32} {c : Connection} (h : Since now timeoutMs c) :
    c.deadline = now + timeoutMs := by
  induction h with
  | sent hnow hsend =>
    simp only [send,startSend] at hsend ⊢
    split_ifs at hsend ⊢
    rw [← hnow]
  | polled _ ih => rw [poll_deadline,ih]

theorem poll_timeout_iff {c : Connection} (hc : c.state = .sending) (t : TcpConnection)
    (w : World) : (c.poll t w).1 = .timeout ↔ expired w.millis.1 c.deadline = true := by
  have hpoll : c.poll t w = c.pollSending t w := by simp only [poll,hc]
  rw [hpoll]
  simp only [pollSending]
  by_cases hlate : expired w.millis.1 c.deadline = true
  · simp [hlate]
  simp only [hlate]
  rcases c.io.turn (22 + kMaxDataSize) t w.millis.2 with
    ⟨st,x,t',w',hwrite,hst,hkind,_⟩ | ⟨y,u,v,st,x,t',w',hwrite,hread,hkind,_⟩
  · simp only [hwrite,if_pos hst]
    rcases hkind with rfl | rfl | rfl <;> simp
  · simp only [hwrite,hread]
    rcases hkind with rfl | rfl | rfl | rfl
    · simp
    · rcases parseConnectedResponse_cases {c with io := x} with ⟨_,_,_,heq,_⟩ | heq
      · simp [heq]
      · simp [heq]
    · simp
    · simp

end Connection

namespace TcpConnection

inductive Since (now timeoutMs : UInt32) : TcpConnection → Prop
  | dialed {t : TcpConnection} {ip : UInt32} {port : UInt16} {w : World} :
      (t.connect ip port timeoutMs w).1 = .pending →
      Clock.shows (t.connect ip port timeoutMs w).2.2.time = now →
      Since now timeoutMs (t.connect ip port timeoutMs w).2.1
  | polled {t : TcpConnection} {w : World} : Since now timeoutMs t →
      Since now timeoutMs (t.poll w).2.1

theorem Since.deadline_eq {now timeoutMs : UInt32} {t : TcpConnection} (h : Since now timeoutMs t)
    (hwait : t.state = .pending) : t.deadline = now + timeoutMs := by
  induction h with
  | @dialed t ip port w hconnect hnow =>
    simp only [connect] at hconnect hnow ⊢
    generalize (if 0 ≤ t.fd then t.close w else (t,w)) = r at hconnect hnow ⊢
    split_ifs at hconnect hnow ⊢
    rw [← hnow]
    rfl
  | @polled t w _ ih =>
    obtain ⟨_,_,_,heq,_,⟨rfl,_⟩ | ⟨rfl,_⟩ | ⟨rfl,_⟩⟩ := t.poll_cases w
    · rw [heq] at hwait ⊢
      exact ih hwait
    · rw [heq] at hwait
      cases hwait
    · rw [heq] at hwait
      cases hwait

theorem poll_timeout_iff {t : TcpConnection} (hfd : 0 ≤ t.fd) (hwait : t.state = .pending)
    {w : World} (hselect : w.lwipSelect.1 = 0) :
    (t.poll w).1 = .timeout ↔ expired w.lwipSelect.2.millis.1 t.deadline = true := by
  have hok : t.state ≠ .ok := by simp [hwait]
  simp only [poll]
  rw [if_neg (by omega),if_neg hok,if_neg (by omega),if_pos hselect]
  by_cases hlate : expired w.lwipSelect.2.millis.1 t.deadline = true
  · simp [hlate]
  · simp [hlate]

end TcpConnection

namespace PlcClient

variable {n : Nat}

theorem open_not_timeout (s : Session) (t : TcpConnection) (timeoutMs : UInt32) (w : World) :
    (s.open t timeoutMs w).1 ≠ .timeout := by
  simp only [Session.open]
  split_ifs <;> simp [Session.startRegister]

theorem pollConnecting_timeout_iff (c : PlcClient n) (w : World) :
    c.pollConnecting w = (.returns .timeout,{c with state := .failed},w.millis.2) ↔
      expired w.millis.1 c.deadline = true := by
  constructor
  · intro h
    by_contra hlate
    simp only [pollConnecting,if_neg hlate] at h
    obtain ⟨st,t,v,hpoll,_,hkind⟩ := c.tcp.poll_cases w.millis.2
    rw [hpoll] at h
    by_cases hok : st = .ok
    · rw [if_pos hok] at h
      have hopen := open_not_timeout c.session t (c.deadline - v.millis.1) v.millis.2
      split at h
      · exact hopen (Poll.returns.inj (Prod.mk.inj h).1)
      · cases (Prod.mk.inj h).1
    rw [if_neg hok] at h
    by_cases hbad : st = .timeout ∨ st = .error
    · rw [if_pos hbad] at h
      obtain ⟨hst,hclient,_⟩ := Prod.mk.inj h |>.imp id Prod.mk.inj
      have htcp : t = c.tcp := congrArg PlcClient.tcp hclient
      obtain rfl := Poll.returns.inj hst
      -- A TCP connect that timed out has closed its socket.
      rcases hkind with ⟨_,⟨h,_⟩ | ⟨h,_⟩ | h⟩ | ⟨_,h,_⟩ | ⟨hempty,_⟩
      · cases h
      · cases h
      · cases h
      · cases h
      · rw [← htcp,hempty] at hpoll
        cases hpoll
    · rw [if_neg hbad] at h
      cases (Prod.mk.inj h).1
  · intro hlate
    simp only [pollConnecting,if_pos hlate]

theorem pollRegistering_timeout_iff (c : PlcClient n) (w : World) :
    c.pollRegistering w = (.returns .timeout,{c with state := .failed},w.millis.2) ↔
      expired w.millis.1 c.deadline = true := by
  constructor
  · intro h
    by_contra hlate
    simp only [pollRegistering,if_neg hlate] at h
    rcases hpoll : c.session.poll c.tcp w.millis.2 with ⟨st,s,t,v⟩
    rw [hpoll] at h
    by_cases hok : st = .ok
    · rw [if_pos hok] at h
      simp only [notify] at h
      split at h <;> cases (Prod.mk.inj h).1
    rw [if_neg hok] at h
    by_cases hbad : st = .timeout ∨ st = .error
    · rw [if_pos hbad] at h
      obtain ⟨hst,hclient,_⟩ := Prod.mk.inj h |>.imp id Prod.mk.inj
      have hsession : s = c.session := congrArg PlcClient.session hclient
      obtain rfl := Poll.returns.inj hst
      -- A session whose time is up has failed, and a failed one does not say Timeout.
      cases hs : c.session.exchanging with
      | true =>
        have hlate' := (Session.poll_timeout_iff hs c.tcp w.millis.2).mp (by rw [hpoll])
        have hfailed := Session.poll_late hs hlate' c.tcp
        rw [hpoll,hsession] at hfailed
        have hstate := congrArg Session.state (Prod.mk.inj (Prod.mk.inj hfailed).2).1
        simp only at hstate
        simp [Session.exchanging,hstate] at hs
      | false =>
        cases hstate : c.session.state <;>
          simp [Session.poll,Session.exchanging,hstate] at hpoll hs
    · rw [if_neg hbad] at h
      cases (Prod.mk.inj h).1
  · intro hlate
    simp only [pollRegistering,if_pos hlate]

theorem pollConnecting_budget {c : PlcClient n} (hc : c.state = .connecting) {w : World}
    (hopen : (c.pollConnecting w).2.1.state = .registering) :
    let before := (c.tcp.poll w.millis.2).2.2.millis.2.time
    let after := (c.pollConnecting w).2.2.time
    before ≤ after ∧
      (c.pollConnecting w).2.1.session.deadline = c.deadline + Clock.shows (after - before) := by
  simp only [pollConnecting] at hopen ⊢
  by_cases hlate : expired w.millis.1 c.deadline = true
  · simp only [if_pos hlate] at hopen
    cases hopen
  simp only [if_neg hlate] at hopen ⊢
  generalize c.tcp.poll w.millis.2 = r at hopen ⊢
  obtain ⟨st,t,v⟩ := r
  simp only at hopen ⊢
  by_cases hok : st = .ok
  · simp only [if_pos hok] at hopen ⊢
    by_cases htaken : (c.session.open t (c.deadline - v.millis.1) v.millis.2).1 = .pending
    · rw [Session.open_taken htaken]
      have hle : v.millis.2.time ≤ v.millis.2.millis.2.time := Nat.le_add_right _ _
      refine ⟨hle,?_⟩
      exact Clock.shows_left hle c.deadline
    · simp only [if_pos htaken] at hopen
      cases hopen
  · simp only [if_neg hok] at hopen
    split at hopen
    · cases hopen
    · rw [hc] at hopen
      cases hopen

theorem connect_deadline (c : PlcClient n) (ip : UInt32) (port : UInt16) (timeoutMs : UInt32)
    (w : World) : (c.connect ip port timeoutMs w).2.1.deadline =
      if c.eth.ready then (c.tcp.close w).2.millis.1 + timeoutMs else c.deadline := by
  simp only [connect]
  cases c.eth.ready with
  | false => rfl
  | true =>
    simp only [if_true]
    split <;> rfl

theorem pollEthernet_deadline (c : PlcClient n) (w : World) :
    (c.pollEthernet w).2.1.deadline =
      if (c.eth.poll w).1 = .ok ∧ c.wantConnect = true then
        (c.eth.poll w).2.2.millis.1 + c.connectTimeoutMs else c.deadline := by
  simp only [pollEthernet]
  by_cases hok : (c.eth.poll w).1 = .ok
  · cases hwant : c.wantConnect with
    | false => simp [hok]
    | true =>
      simp only [hok,if_true,and_self]
      split <;> rfl
  · simp only [hok,false_and,if_false]
    split <;> rfl

theorem pollConnecting_deadline (c : PlcClient n) (w : World) :
    (c.pollConnecting w).2.1.deadline = c.deadline := by
  simp only [pollConnecting]
  split_ifs <;> rfl

theorem pollRegistering_deadline (c : PlcClient n) (w : World) :
    (c.pollRegistering w).2.1.deadline = c.deadline := by
  simp only [pollRegistering]
  split_ifs <;> rfl

theorem pollDisconnecting_deadline (c : PlcClient n) (w : World) :
    (c.pollDisconnecting w).2.1.deadline = c.deadline := by
  simp only [pollDisconnecting]
  split <;> rfl

theorem poll_deadline (c : PlcClient n) (w : World) : (c.poll w).2.1.deadline =
    if c.state = .ethernet ∧ (c.eth.poll w).1 = .ok ∧ c.wantConnect = true then
      (c.eth.poll w).2.2.millis.1 + c.connectTimeoutMs else c.deadline := by
  simp only [poll]
  cases hs : c.state with
  | ethernet => simpa using c.pollEthernet_deadline w
  | connecting => simpa using c.pollConnecting_deadline w
  | registering => simpa using c.pollRegistering_deadline w
  | disconnecting => simpa using c.pollDisconnecting_deadline w
  | _ => simp

end PlcClient

namespace Config

variable {n : Nat}

-- The true time from which a step counts the client's timeout, and the timeout, if it does.
def dials (s : Config n) (l : Label) : Option (Nat × UInt32) :=
  let c := s.client
  let w := s.world.hear l.script
  if s.scanning then none
  else
    match l.act with
    | .call (.connect _ _ timeoutMs) =>
      if c.eth.ready then some ((c.tcp.close w).2.millis.2.time,timeoutMs) else none
    | .call .poll =>
      if c.state = .ethernet ∧ (c.eth.poll w).1 = .ok ∧ c.wantConnect = true then
        some ((c.eth.poll w).2.2.millis.2.time,c.connectTimeoutMs)
      else none
    | _ => none

def deadlineAfter (s : Config n) (l : Label) : UInt32 :=
  match s.dials l with
  | some (start,timeoutMs) => Clock.shows start + timeoutMs
  | none => s.client.deadline

theorem started_deadline {c : PlcClient n} {handle : Int} {w : World}
    {r : Status × PlcClient n × World} (h : c.Started handle w r) (stack : List Frame) :
    (started handle r stack).client.deadline = c.deadline := by
  cases h <;> rfl

theorem enter_deadline (p : Poll × PlcClient n × World) (stack : List Frame) :
    (enter p stack).client.deadline = p.2.1.deadline := by
  obtain ⟨out,c,w⟩ := p
  cases out <;> rfl

theorem abortTag_deadline (c : PlcClient n) (handle : Int) :
    (c.abortTag handle).2.deadline = c.deadline := by
  simp only [PlcClient.abortTag]
  split <;> rfl

theorem setTag_deadline (c : PlcClient n) (handle : Int) (f : Tag.Setter) :
    (c.setTag handle f).deadline = c.deadline := by
  simp only [PlcClient.setTag]
  split <;> rfl

theorem destroyTag_deadline (c : PlcClient n) (handle : Int) :
    (c.destroyTag handle).2.deadline = c.deadline := by
  simp only [PlcClient.destroyTag]
  split <;> rfl

theorem createTag_deadline (c : PlcClient n) (name : Option (List UInt8)) (elementCount : UInt32) :
    (c.createTag name elementCount).2.deadline = c.deadline := by
  rcases c.createTag_cases name elementCount with ⟨_,_,heq⟩ | ⟨_,_,_,_,_,heq⟩ <;> rw [heq]

theorem disconnect_deadline (c : PlcClient n) (w : World) :
    (c.disconnect w).2.1.deadline = c.deadline := by
  simp only [PlcClient.disconnect]
  split <;> rfl

theorem advance_deadline (s : Config n) : s.advance.client.deadline = s.client.deadline := by
  unfold advance
  split
  · next next disconnected stack _ =>
    split_ifs with hin
    · rcases hpoll : (s.client.tags ⟨next,hin⟩).poll s.client.msg s.client.tcp s.world with
        ⟨st,g,m,t,w⟩
      rw [visit_client disconnected stack hpoll]
    · rfl
    · rw [enter_deadline,PlcClient.finish]
      split <;> rfl
  · rfl

theorem ret_deadline (s : Config n) : s.ret.client.deadline = s.client.deadline := by
  unfold ret
  split <;> rfl

theorem call_deadline {s : Config n} (hcall : s.scanning = false) (op : Op) (script : Script) :
    ((s.hear script).call op).client.deadline =
      s.deadlineAfter {act := .call op, script := script} := by
  have hscan : ¬ s.scanning = true := by simp [hcall]
  simp only [deadlineAfter,dials,if_neg hscan]
  cases op with
  | connect ip port timeoutMs =>
    refine (s.client.connect_deadline ip port timeoutMs _).trans ?_
    cases s.client.eth.ready <;> rfl
  | poll =>
    refine (enter_deadline _ _).trans ((s.client.poll_deadline _).trans ?_)
    by_cases hdial : s.client.state = .ethernet ∧
        (s.client.eth.poll (s.world.hear script)).1 = .ok ∧ s.client.wantConnect = true
    · rw [if_pos hdial]
      exact if_pos hdial
    · rw [if_neg hdial]
      exact if_neg hdial
  | read handle timeoutMs => exact started_deadline (s.client.read_started handle timeoutMs _) _
  | write handle timeoutMs => exact started_deadline (s.client.write_started handle timeoutMs _) _
  | disconnect => exact disconnect_deadline s.client _
  | createTag name elementCount => exact createTag_deadline s.client name elementCount
  | destroyTag handle => exact destroyTag_deadline s.client handle
  | abortTag handle => exact abortTag_deadline s.client handle
  | setTag handle f => exact setTag_deadline s.client handle f
  | _ => rfl

theorem deadline_step (s : Config n) (l : Label) :
    (s.step l).client.deadline = s.deadlineAfter l := by
  obtain ⟨act,script⟩ := l
  cases act with
  | advance =>
    refine (advance_deadline (s.hear script)).trans ?_
    simp [deadlineAfter,dials,hear]
  | ret =>
    refine (ret_deadline (s.hear script)).trans ?_
    simp [deadlineAfter,dials,hear]
  | call op =>
    cases hscan : s.scanning with
    | true =>
      have hstill : s.step {act := .call op, script := script} = s.hear script := if_pos hscan
      rw [hstill]
      simp [deadlineAfter,dials,hscan,hear]
    | false =>
      have hstep : s.step {act := .call op, script := script} = (s.hear script).call op :=
        if_neg (by rw [show (s.hear script).scanning = s.scanning from rfl,hscan]; simp)
      rw [hstep,call_deadline hscan]

theorem deadline_run {s : Config n} {ls : List Label}
    (h : Runs.Guarded step (fun s l => s.dials l = none) s ls) :
    (Runs.run step s ls).client.deadline = s.client.deadline := by
  induction ls generalizing s with
  | nil => rfl
  | cons l ls ih =>
    rw [Runs.run_cons,ih h.2,deadline_step,deadlineAfter,h.1]

theorem dialing_timeout_iff {c : PlcClient n}
    (hc : c.state = .connecting ∨ c.state = .registering) (w : World) :
    c.poll w = (.returns .timeout,{c with state := .failed},w.millis.2) ↔
      expired w.millis.1 c.deadline = true := by
  rcases hc with h | h
  · rw [show c.poll w = c.pollConnecting w by simp only [PlcClient.poll,h]]
    exact c.pollConnecting_timeout_iff w
  · rw [show c.poll w = c.pollRegistering w by simp only [PlcClient.poll,h]]
    exact c.pollRegistering_timeout_iff w

end Config

theorem deadlines_are_exact (start elapsed : Nat) (timeoutMs : UInt32)
    (htimeout : timeoutMs.toNat < 2 ^ 31) (helapsed : elapsed < timeoutMs.toNat + 2 ^ 31) :
    (∀ s t w, Session.Since (Clock.shows start) timeoutMs s → s.state = .registering →
      w.millis.2.time = start + elapsed →
        ((s.poll t w).1 = .timeout ↔ timeoutMs.toNat ≤ elapsed)) ∧
    (∀ m t w, ExplicitMessage.Since (Clock.shows start) timeoutMs m → m.inFlight = true →
      w.millis.2.time = start + elapsed →
        ((m.poll t w).1 = .timeout ↔ timeoutMs.toNat ≤ elapsed)) ∧
    (∀ c t w, Connection.Since (Clock.shows start) timeoutMs c → c.state = .sending →
      w.millis.2.time = start + elapsed →
        ((c.poll t w).1 = .timeout ↔ timeoutMs.toNat ≤ elapsed)) ∧
    (∀ t w, TcpConnection.Since (Clock.shows start) timeoutMs t → 0 ≤ t.fd →
      t.state = .pending → w.lwipSelect.1 = 0 →
        w.lwipSelect.2.millis.2.time = start + elapsed →
          ((t.poll w).1 = .timeout ↔ timeoutMs.toNat ≤ elapsed)) ∧
    (∀ (n : Nat) (memory : Fin n → Buffer Tag.kMaxDataSize) (time : Nat) (ls : List Label)
        (l : Label) (ms : List Label) (script : Script),
      (Config.after memory time ls).dials l = some (start,timeoutMs) →
      Runs.Guarded Config.step (fun s l => s.dials l = none)
        ((Config.after memory time ls).step l) ms →
      let s := Config.after memory time (ls ++ l :: ms)
      let w := s.world.hear script
      s.client.state = .connecting ∨ s.client.state = .registering →
        w.millis.2.time = start + elapsed →
          (s.client.poll w = (.returns .timeout,{s.client with state := .failed},w.millis.2) ↔
            timeoutMs.toNat ≤ elapsed)) ∧
    ∀ (n : Nat) (c : PlcClient n) (w : World), c.state = .connecting →
      (c.pollConnecting w).2.1.state = .registering →
        let before := (c.tcp.poll w.millis.2).2.2.millis.2.time
        let after := (c.pollConnecting w).2.2.time
        before ≤ after ∧
          (c.pollConnecting w).2.1.session.deadline =
            c.deadline + Clock.shows (after - before) := by
  refine ⟨fun s t w hs hstate hnow => ?_,fun m t w hm hfly hnow => ?_,
    fun c t w hc hstate hnow => ?_,fun t w ht hfd hwait hselect hnow => ?_,
    ?_,fun n c w hc hopen => PlcClient.pollConnecting_budget hc hopen⟩
  · rw [Session.poll_timeout_iff (by simp [Session.exchanging,hstate])]
    exact expired_exact htimeout helapsed hs.deadline_eq (by rw [millis_shows,hnow])
  · rw [ExplicitMessage.poll_timeout_iff hfly]
    exact expired_exact htimeout helapsed hm.deadline_eq (by rw [millis_shows,hnow])
  · rw [Connection.poll_timeout_iff hstate]
    exact expired_exact htimeout helapsed hc.deadline_eq (by rw [millis_shows,hnow])
  · rw [TcpConnection.poll_timeout_iff hfd hwait hselect]
    exact expired_exact htimeout helapsed (ht.deadline_eq hwait) (by rw [millis_shows,hnow])
  · intro n memory time ls l ms script hdial hrun s w hstate hnow
    have hdeadline : s.client.deadline = Clock.shows start + timeoutMs := by
      have hsplit : s = Runs.run Config.step ((Config.after memory time ls).step l) ms := by
        simp only [s,Config.after,Runs.run_append,Runs.run_cons]
      rw [hsplit,Config.deadline_run hrun,Config.deadline_step,Config.deadlineAfter,hdial]
    rw [Config.dialing_timeout_iff hstate]
    exact expired_exact htimeout helapsed hdeadline (by rw [millis_shows,hnow])

namespace Sample

-- A connect() called 100 ms before the clock wraps.
def dialedLate : Status × TcpConnection × World :=
  ({} : TcpConnection).connect 1 44818 5000
    {time := 2 ^ 32 - 100, script := {sockets := [3]}, log := []}

theorem deadlines_are_exact_wrapped :
    (dialedLate.2.1.poll {time := 2 ^ 32 + 4899, script := {}, log := []}).1 ≠ .timeout ∧
      (dialedLate.2.1.poll {time := 2 ^ 32 + 4900, script := {}, log := []}).1 = .timeout := by
  have hsince : TcpConnection.Since (Clock.shows (2 ^ 32 - 100)) 5000 dialedLate.2.1 :=
    .dialed (by decide +kernel) (by decide +kernel)
  have hexact (elapsed : Nat) (h : elapsed < 5000 + 2 ^ 31) :=
    (deadlines_are_exact (2 ^ 32 - 100) elapsed 5000 (by decide) h).2.2.2.1 dialedLate.2.1
  constructor
  · exact (not_congr (hexact 4999 (by decide) _ hsince (by decide +kernel) (by decide +kernel)
      rfl rfl)).mpr (by decide)
  · exact (hexact 5000 (by decide) _ hsince (by decide +kernel) (by decide +kernel)
      rfl rfl).mpr (by decide)

end Sample

end ControlLogix
