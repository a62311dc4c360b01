import ControlLogix.Machine.Phases

namespace ControlLogix

-- The board takes the rest of the request and hands over the whole reply, or tells that the peer
-- is gone.
def Transfer.finishes (cap : Nat) (x : Transfer) (t : TcpConnection) (w : World) : Bool :=
  match x.writePending t w with
  | (.ok,y,u,v) => (y.readResponse cap u v).1 = .ok || (y.readResponse cap u v).1 = .closed
  | (st,_,_,_) => st = .closed

namespace Session

def finishes (s : Session) (t : TcpConnection) (w : World) : Bool :=
  s.state = .unregistering && !expired w.millis.1 s.deadline &&
    s.io.finishes kMaxBodySize t w.millis.2

theorem finishes_iff {s : Session} (hs : s.state = .unregistering ∨ s.state = .failed)
    (t : TcpConnection) (w : World) :
    s.finishes t w = true ↔ (s.poll t w).1 = .ok ∨ (s.poll t w).1 = .closed := by
  rcases hs with hs | hs
  · simp only [finishes,poll,pollUnregistering,Transfer.finishes,hs]
    cases hlate : expired w.millis.1 s.deadline with
    | true => simp
    | false =>
      rcases hwrite : s.io.writePending t w.millis.2 with ⟨st,y,u,v⟩
      cases st with
      | ok =>
        rcases hread : y.readResponse kMaxBodySize u v with ⟨st,z,u',v'⟩
        cases st <;> simp [hread]
      | _ => simp
  · simp [finishes,poll,hs]

end Session

namespace PlcClient

variable {n : Nat}

-- Whether the exchange under the client's state is over for a poll() made at w.
def exchangeOver (c : PlcClient n) (w : World) : Bool :=
  match c.state with
  | .connecting => expired w.millis.1 c.deadline || c.tcp.state ≠ .pending ||
      (c.tcp.poll w.millis.2).1 = .closed || (c.tcp.poll w.millis.2).1 = .timeout ||
        (c.tcp.poll w.millis.2).1 = .error
  | .registering => c.session.state ≠ .registering || expired w.millis.1 c.deadline ||
      expired w.millis.2.millis.1 c.session.deadline
  | .disconnecting => c.session.state ≠ .unregistering || expired w.millis.1 c.session.deadline ||
      expired w.millis.1 c.deadline
  | _ => false

theorem pollConnecting_over {c : PlcClient n} {w : World} (h : Phases c)
    (hs : c.state = .connecting) (hover : c.exchangeOver w = true) :
    (c.pollConnecting w).2.1.state = .failed := by
  have hpend := h.connecting hs
  simp only [pollConnecting]
  by_cases hlate : expired w.millis.1 c.deadline = true
  · rw [if_pos hlate]
  rw [if_neg hlate]
  obtain ⟨st,t,v,hpoll,_,hkind⟩ := c.tcp.poll_cases w.millis.2
  have hbad : st = .timeout ∨ st = .error := by
    rcases hkind with ⟨_,⟨_,hfd⟩ | ⟨_,hok⟩ | rfl⟩ | ⟨_,rfl,_⟩ | ⟨_,h⟩
    · omega
    · simp [hpend.2] at hok
    · simp [exchangeOver,hs,hlate,hpend.2,hpoll] at hover
    · simp [exchangeOver,hs,hlate,hpend.2,hpoll] at hover
    · exact h.symm
  have hok : st ≠ .ok := by rcases hbad with rfl | rfl <;> simp
  simp only [hpoll,if_neg hok,if_pos hbad]

theorem pollRegistering_over {c : PlcClient n} {w : World} (h : Phases c)
    (hs : c.state = .registering) (hover : c.exchangeOver w = true) :
    (c.pollRegistering w).2.1.state = .failed := by
  simp only [pollRegistering]
  by_cases hlate : expired w.millis.1 c.deadline = true
  · rw [if_pos hlate]
  rw [if_neg hlate]
  rcases h.registering hs with hreg | hfail
  · have hdead : expired w.millis.2.millis.1 c.session.deadline = true := by
      simpa [exchangeOver,hs,hreg,hlate] using hover
    have hpoll : c.session.poll c.tcp w.millis.2 =
        (.timeout,{c.session with state := .failed},c.tcp,w.millis.2.millis.2) := by
      simp [Session.poll,hreg,Session.pollRegistering,hdead]
    simp [hpoll]
  · have hpoll : c.session.poll c.tcp w.millis.2 = (.error,c.session,c.tcp,w.millis.2) := by
      simp [Session.poll,hfail]
    simp [hpoll]

theorem poll_stuck {c : PlcClient n} (hs : c.state = .disconnecting)
    (hfail : c.session.state = .failed) (w : World) : c.poll w = (.returns .pending,c,w) := by
  have hsession : c.session.poll c.tcp w = (.error,c.session,c.tcp,w) := by
    simp [Session.poll,hfail]
  have hpoll : c.poll w = c.pollDisconnecting w := by simp only [poll,hs]
  rw [hpoll]
  simp only [pollDisconnecting,hsession]
  rw [if_neg (by simp)]

end PlcClient

namespace Config

variable {n : Nat}

def Left (s s' : Config n) : Prop :=
  match s.client.state with
  | .disconnecting => s'.client.state = .idle ∧ s'.client.tcp = {} ∧
      ∃ calls, (∀ e ∈ calls, e.board = true) ∧
        (0 ≤ s.client.tcp.fd → .close s.client.tcp.fd ∈ calls) ∧
          s'.world.log = (if s.client.stateCallback then [.stateCallback .closed] else []) ++
            (calls ++ s.world.log)
  | _ => s'.client.state = .ready ∨ s'.client.state = .failed

theorem step_poll {s : Config n} (hcall : s.scanning = false) (script : Script) :
    s.step {act := .call .poll, script := script} =
      enter (s.client.poll (s.hear script).world) s.stack := by
  have hheard : (s.hear script).scanning = false := hcall
  simp only [step,act,hheard]
  rfl

theorem enterMarks_notify (c : PlcClient n) (arg st : Status) :
    enterMarks (c.notify arg st) = if c.stateCallback then [.stateCallback arg] else [] := by
  simp only [PlcClient.notify]
  split <;> rfl

theorem left_disconnecting {s : Config n} (h : Phases s.client) (hcall : s.scanning = false)
    (hs : s.client.state = .disconnecting) (script : Script) :
    Left s (s.step {act := .call .poll, script := script}) ↔
      s.client.session.finishes s.client.tcp (s.hear script).world = true := by
  have hspoke := s.client.session.poll_spoke s.client.tcp (s.hear script).world
  obtain ⟨out,c',w',st,t,v,heq,_,hpoll,hcase⟩ :=
    s.client.pollDisconnecting_cases (s.hear script).world
  have hfinish := Session.finishes_iff (h.disconnecting hs) s.client.tcp (s.hear script).world
  have hstep : s.client.poll (s.hear script).world = (out,c',w') := by
    simp only [PlcClient.poll,hs]
    exact heq
  rw [hpoll] at hfinish hspoke
  rw [step_poll hcall,hstep,hfinish]
  simp only [Left,hs,enter_client,enter_log]
  rcases hcase with ⟨hover,rfl,htcp,hstate,rfl⟩ | ⟨hover,_,_,hstate,_⟩
  · refine ⟨fun _ => hover,fun _ => ⟨hstate,htcp,?_⟩⟩
    obtain ⟨calls,hlog,hcalls⟩ := hspoke
    have hfd : t.fd = s.client.tcp.fd := by
      cases hexch : s.client.session.exchanging with
      | true =>
        obtain ⟨_,_,_,_,heq',hpolled⟩ :=
          Session.poll_polled hexch s.client.tcp (s.hear script).world
        rw [heq'] at hpoll
        obtain ⟨_,_,rfl,_⟩ := by simpa using hpoll
        exact hpolled.io.kept.fd_eq
      | false =>
        obtain ⟨_,heq',_⟩ := Session.poll_still hexch s.client.tcp (s.hear script).world
        rw [heq'] at hpoll
        obtain ⟨_,_,rfl,_⟩ := by simpa using hpoll
        rfl
    have hlog' : v.log = calls ++ s.world.log := hlog
    simp only [enterMarks_notify,TcpConnection.close,hfd]
    by_cases hopen : 0 ≤ s.client.tcp.fd
    · refine ⟨.close s.client.tcp.fd :: calls,?_,fun _ => List.mem_cons_self,?_⟩
      · intro e he
        rcases List.mem_cons.mp he with rfl | he
        · rfl
        · exact hcalls e he
      · rw [if_pos hopen,World.lwipClose,World.note_log,hlog',List.cons_append]
    · refine ⟨calls,hcalls,fun h => absurd h hopen,?_⟩
      rw [if_neg hopen,hlog']
  · refine ⟨fun hleft => ?_,fun h => absurd h hover⟩
    rw [hstate,hs] at hleft
    cases hleft.1

theorem poll_leaves_iff (memory : Fin n → Buffer Tag.kMaxDataSize) (time : Nat) (ls : List Label)
    (script : Script) (hcall : (after memory time ls).scanning = false) :
    let s := after memory time ls
    let w := (s.hear script).world
    (s.client.exchangeOver w = true → Left s (s.step {act := .call .poll, script := script})) ↔
      (s.client.state = .disconnecting → s.client.exchangeOver w = true →
        s.client.session.finishes s.client.tcp w = true) := by
  intro s w
  have h : Phases s.client := phases_after memory time ls
  cases hs : s.client.state with
  | disconnecting =>
    rw [left_disconnecting h hcall hs]
    exact ⟨fun hf _ => hf,fun hf => hf rfl⟩
  | connecting =>
    refine ⟨fun _ hne => by simp at hne,fun _ hover => ?_⟩
    simp only [Left,hs,step_poll (s := s) hcall,enter_client,PlcClient.poll]
    exact Or.inr (PlcClient.pollConnecting_over h hs hover)
  | registering =>
    refine ⟨fun _ hne => by simp at hne,fun _ hover => ?_⟩
    simp only [Left,hs,step_poll (s := s) hcall,enter_client,PlcClient.poll]
    exact Or.inr (PlcClient.pollRegistering_over h hs hover)
  | _ => simp [PlcClient.exchangeOver,hs]

end Config

namespace Sample

-- disconnect() more than the connect timeout after the connection was opened.
def lateDisconnect : List Label :=
  online ++ [call .disconnect,call .poll {ticks := [6000]}]

-- The session is opened a little after the client has looked at its deadline, so its own is later by
-- that much, and the answer to the farewell comes between the two.
def slowDisconnect : List Label :=
  [call .begin,call (.connect 1 44818 5000),
   call .poll {ethLinks := [true,true], sockets := [3]},
   call .poll {selects := [1], ticks := [0,0,10]},
   call .poll {sends := [.ok 28], recvs := [.ok (registerReply 7)]},call .disconnect]

def answeredBetween : Script :=
  {ticks := [4994], sends := [.ok 24], recvs := [.ok unregisterReply]}

theorem poll_leaves_registering :
    let s := after (online.take 4)
    let s' := after slowDisconnect
    (s.client.state = .registering ∧
      s.client.exchangeOver (s.hear {ticks := [6000]}).world = true ∧
        Config.Left s (s.step {act := .call .poll, script := {ticks := [6000]}})) ∧
      s'.client.state = .disconnecting ∧
        s'.client.exchangeOver (s'.hear answeredBetween).world = true ∧
          Config.Left s' (s'.step {act := .call .poll, script := answeredBetween}) :=
  have hs : (after (online.take 4)).client.state = .registering := by decide +kernel
  have hover : (after (online.take 4)).client.exchangeOver
      ((after (online.take 4)).hear {ticks := [6000]}).world = true := by decide +kernel
  have hover' : (after slowDisconnect).client.exchangeOver
      ((after slowDisconnect).hear answeredBetween).world = true := by decide +kernel
  have hfinish : (after slowDisconnect).client.session.finishes (after slowDisconnect).client.tcp
      ((after slowDisconnect).hear answeredBetween).world = true := by decide +kernel
  ⟨⟨hs,hover,(Config.poll_leaves_iff memory 0 (online.take 4) {ticks := [6000]}
      (by decide +kernel)).mpr (fun h => absurd (hs.symm.trans h) (by decide)) hover⟩,
    by decide +kernel,hover',(Config.poll_leaves_iff memory 0 slowDisconnect answeredBetween
      (by decide +kernel)).mpr (fun _ _ => hfinish) hover'⟩

theorem lateDisconnect_stuck :
    let s := after lateDisconnect
    s.client.state = .disconnecting ∧ s.client.session.state = .failed ∧ 0 ≤ s.client.tcp.fd ∧
      s.scanning = false ∧ ∀ script, s.client.exchangeOver (s.hear script).world = true ∧
        ¬ Config.Left s (s.step {act := .call .poll, script := script}) ∧
          s.client.poll (s.hear script).world =
            (.returns .pending,s.client,(s.hear script).world) := by
  have hs : (after lateDisconnect).client.state = .disconnecting := by decide +kernel
  have hfail : (after lateDisconnect).client.session.state = .failed := by decide +kernel
  have hcall : (after lateDisconnect).scanning = false := by decide +kernel
  have hpoll (w : World) : (after lateDisconnect).client.poll w =
      (.returns .pending,(after lateDisconnect).client,w) := PlcClient.poll_stuck hs hfail w
  refine ⟨hs,hfail,by decide +kernel,hcall,fun script => ⟨?_,?_,hpoll _⟩⟩
  · simp [PlcClient.exchangeOver,hs,hfail]
  · simp only [Config.Left,hs,Config.step_poll hcall,hpoll,Config.enter]
    simp

end Sample

end ControlLogix
