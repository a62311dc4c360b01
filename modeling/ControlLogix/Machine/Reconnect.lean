import ControlLogix.Machine.Wire

namespace ControlLogix

namespace Session

def live (s : Session) : Bool :=
  s.state = .registering || s.state = .registered || s.state = .unregistering

theorem close_context (s : Session) : s.close.2.context = s.context := by
  simp only [close]
  split_ifs <;> rfl

theorem poll_context (s : Session) (t : TcpConnection) (w : World) :
    (s.poll t w).2.1.context = s.context := by
  cases hs : s.exchanging with
  | true =>
    obtain ⟨st,s',t',w',heq,h⟩ := poll_polled hs t w
    rw [heq]
    exact h.context
  | false =>
    obtain ⟨st,heq,_⟩ := poll_still hs t w
    rw [heq]

theorem open_fresh {s : Session} (hlive : s.live = false) (hcontext : s.context = 1)
    {t : TcpConnection} (ht : t.connected = true) (timeoutMs : UInt32) (w : World) :
    (s.open t timeoutMs w).1 = .pending ∧ (({} : Session).open t timeoutMs w).2.1 =
      {(s.open t timeoutMs w).2.1 with handle := 0} := by
  have hidle : ¬ (s.state = .registering ∨ s.state = .registered) := by
    rintro (h | h) <;> simp [live,h] at hlive
  simp only [Session.open]
  rw [if_neg hidle,if_neg (by simp [ht]),if_neg (by simp),if_neg (by simp [ht])]
  simp [startRegister,hcontext]

end Session

structure Fresh {n : Nat} (c : PlcClient n) : Prop where
  queued : c.state = .ethernet → c.wantConnect = true → c.session.live = false
  connecting : c.state = .connecting → c.session.live = false
  context : c.session.context = 1

namespace Fresh

variable {n : Nat} {c c' : PlcClient n} {w : World}

theorem same (h : Fresh c) (hstate : c'.state = c.state) (hsession : c'.session = c.session)
    (hwant : c'.wantConnect = c.wantConnect) : Fresh c' :=
  ⟨by rw [hstate,hsession,hwant]; exact h.queued,by rw [hstate,hsession]; exact h.connecting,
    by rw [hsession]; exact h.context⟩

theorem dropped (hlive : c'.session.live = false) (hcontext : c'.session.context = 1) : Fresh c' :=
  ⟨fun _ _ => hlive,fun _ => hlive,hcontext⟩

theorem outside (hethernet : c'.state ≠ .ethernet) (hconnecting : c'.state ≠ .connecting)
    (hcontext : c'.session.context = 1) : Fresh c' :=
  ⟨fun h => absurd h hethernet,fun h => absurd h hconnecting,hcontext⟩

theorem poll (h : Fresh c) (w : World) : Fresh (c.poll w).2.1 := by
  simp only [PlcClient.poll]
  cases hs : c.state with
  | ethernet =>
    obtain ⟨out,c',w',heq,hsession,⟨_,hwant,hstate,_⟩ | ⟨hwant,_,_⟩⟩ := c.pollEthernet_cases w
    · simp only [heq]
      rcases hstate with hstate | hstate
      · exact h.same hstate hsession hwant
      · exact outside (by simp [hstate]) (by simp [hstate]) (by rw [hsession]; exact h.context)
    · simp only [heq]
      exact dropped (by rw [hsession]; exact h.queued hs hwant) (by rw [hsession]; exact h.context)
  | connecting =>
    obtain ⟨out,c',w',heq,hwant,_,⟨hsession,_⟩ | ⟨deadline,hsession,_,_,_,hstate⟩⟩ :=
      c.pollConnecting_cases w
    · simp only [heq]
      exact dropped (by rw [hsession]; exact h.connecting hs) (by rw [hsession]; exact h.context)
    · simp only [heq]
      exact outside (by simp [hstate]) (by simp [hstate]) (by rw [hsession]; exact h.context)
  | registering =>
    obtain ⟨out,c',w',heq,_,⟨_,hsession,_,hstate,_⟩ | ⟨_,st,hpoll,hstate⟩⟩ :=
      c.pollRegistering_cases w
    · simp only [heq]
      exact outside (by simp [hstate]) (by simp [hstate]) (by rw [hsession]; exact h.context)
    · have hcontext := c.session.poll_context c.tcp w.millis.2
      rw [hpoll] at hcontext
      simp only [heq]
      refine outside ?_ ?_ (hcontext.trans h.context)
      · rw [hstate]
        split_ifs <;> simp [hs]
      · rw [hstate]
        split_ifs <;> simp [hs]
  | disconnecting =>
    obtain ⟨out,c',w',st,t,v,heq,_,hpoll,hcase⟩ := c.pollDisconnecting_cases w
    have hcontext := c.session.poll_context c.tcp w
    rw [hpoll] at hcontext
    have hstate : c'.state = .idle ∨ c'.state = .disconnecting := by
      rcases hcase with ⟨_,_,_,hstate,_⟩ | ⟨_,_,_,hstate,_⟩
      · exact Or.inl hstate
      · exact Or.inr (hstate.trans hs)
    simp only [heq]
    refine outside ?_ ?_ (hcontext.trans h.context)
    · rcases hstate with hstate | hstate <;> simp [hstate]
    · rcases hstate with hstate | hstate <;> simp [hstate]
  | ready => exact h
  | failed => exact h
  | idle => exact h

end Fresh

namespace Config

variable {n : Nat}

-- connect() called before Ethernet is ready, with a session that was never dropped.
def queuesOnLive (s : Config n) (l : Label) : Bool :=
  match l.act with
  | .call (.connect _ _ _) => !s.client.eth.ready && s.client.session.live
  | _ => false

theorem fresh_step {s : Config n} {l : Label} (h : Fresh s.client)
    (hg : s.queuesOnLive l = false) : Fresh (s.step l).client := by
  cases s.step_move l with
  | quiet _ _ hconn =>
    cases hconn with
    | still hstate hsession _ hwant _ => exact h.same hstate hsession hwant
    | begun _ hc _ =>
      rw [hc]
      exact ⟨fun _ hwant => (by cases hwant),fun hs => (by cases hs),h.context⟩
    | connected ip port timeoutMs ha hc _ =>
      rw [hc]
      obtain ⟨st,c',w',heq,⟨hready,hsession,_,hstate,_⟩ | ⟨_,hsession,_,_⟩⟩ :=
        s.client.connect_cases ip port timeoutMs (s.hear l.script).world
      · rw [heq]
        have hlive : s.client.session.live = false := by
          simpa [queuesOnLive,ha,hready] using hg
        exact Fresh.dropped (by rw [hsession]; exact hlive) (by rw [hsession]; exact h.context)
      · rw [heq]
        exact Fresh.dropped (by rw [hsession]; rfl) (by rw [hsession]; exact h.context)
    | disconnected _ hc _ =>
      rw [hc]
      simp only [PlcClient.disconnect]
      split
      · exact Fresh.outside (by simp) (by simp) (s.client.session.close_context.trans h.context)
      · exact Fresh.outside (by simp) (by simp) h.context
    | polled _ _ hc _ _ =>
      rw [hc]
      exact h.poll _
    | finished _ _ hc _ _ =>
      rw [hc]
      exact Fresh.outside (by simp [PlcClient.finish]) (by simp [PlcClient.finish]) h.context
  | created i _ _ _ _ _ _ hc _ =>
    obtain ⟨_,_,hc⟩ := hc
    rw [hc]
    exact h.same rfl rfl rfl
  | destroyed i _ _ _ _ hc _ =>
    rw [hc]
    exact h.same rfl rfl rfl
  | started i _ _ _ _ _ _ _ _ _ _ _ _ _ _ _ _ hc _ =>
    rw [hc]
    exact h.same rfl rfl rfl
  | typed i _ _ hc _ =>
    rw [hc]
    exact h.same rfl rfl rfl
  | aborted i _ hc _ =>
    rw [hc]
    exact h.same rfl rfl rfl
  | visited i _ _ st g m t w' _ _ _ _ hc _ =>
    rw [hc]
    exact h.same rfl rfl rfl

theorem issues_dropped {s : Config n} (h : Fresh s.client) {l : Label}
    (hl : s.issues l = true) : (s.step l).client.session.live = false := by
  obtain ⟨a,script⟩ := l
  simp only [issues,Bool.and_eq_true,Bool.not_eq_true'] at hl
  have hheard : (s.hear script).scanning = false := hl.1
  cases a with
  | advance => simp at hl
  | ret => simp at hl
  | call op =>
    simp only [step,act,hheard,Bool.false_eq_true,if_false]
    cases op with
    | connect ip port timeoutMs =>
      simp only [call]
      obtain ⟨st,c',w',heq,⟨hready,_⟩ | ⟨_,hsession,_⟩⟩ :=
        (s.hear script).client.connect_cases ip port timeoutMs (s.hear script).world
      · have hready' : s.client.eth.ready = true := hl.2
        exact absurd (hready.symm.trans hready') (by simp)
      · simp only [heq,hsession]
        rfl
    | poll =>
      obtain ⟨⟨hs,hwant⟩,_⟩ : (s.client.state = .ethernet ∧ s.client.wantConnect = true) ∧ _ := by
        simpa using hl.2
      simp only [call,enter_client]
      have hpoll : (s.hear script).client.poll (s.hear script).world =
          s.client.pollEthernet (s.hear script).world := by
        simp only [PlcClient.poll]
        rw [show (s.hear script).client.state = .ethernet from hs]
        rfl
      obtain ⟨out,c',w',heq,hsession,_⟩ := s.client.pollEthernet_cases (s.hear script).world
      rw [hpoll,heq]
      simp only [hsession]
      exact h.queued hs hwant
    | _ => simp at hl

theorem established_registers {s : Config n} (h : Fresh s.client)
    (hs : s.client.state = .connecting) {w : World}
    (hlate : expired w.millis.1 s.client.deadline = false)
    (hok : (s.client.tcp.poll w.millis.2).1 = .ok) :
    (s.client.poll w).1 = .returns .pending ∧ (s.client.poll w).2.1.state = .registering ∧
      (s.client.poll w).2.1.session.io = Transfer.load (Session.registerFrame 1) := by
  have hpoll : s.client.poll w = s.client.pollConnecting w := by simp only [PlcClient.poll,hs]
  obtain ⟨st,t,v,htcp,_,hkind⟩ := s.client.tcp.poll_cases w.millis.2
  obtain rfl : st = .ok := by rw [htcp] at hok; exact hok
  have ht : t.connected = true := by
    rcases hkind with ⟨rfl,⟨h,_⟩ | ⟨_,h⟩ | h⟩ | ⟨rfl,_⟩ | ⟨_,h | h⟩
    · cases h
    · simp [TcpConnection.connected,h]
    · cases h
    · rfl
    · cases h
    · cases h
  obtain ⟨hopen,hfresh⟩ := Session.open_fresh (h.connecting hs) h.context ht
    (s.client.deadline - v.millis.1) v.millis.2
  have hio : ((s.client.session.open t (s.client.deadline - v.millis.1) v.millis.2).2.1).io =
      Transfer.load (Session.registerFrame 1) := by
    have hio := congrArg Session.io hfresh
    simp only at hio
    rw [← hio]
    simp [Session.open,ht,Session.startRegister]
  rw [hpoll]
  simp only [PlcClient.pollConnecting,hlate,htcp]
  rw [if_neg (by simp),if_pos trivial,if_neg (not_not_intro hopen)]
  exact ⟨rfl,rfl,hio⟩

theorem fresh_after (memory : Fin n → Buffer Tag.kMaxDataSize) (time : Nat) {ls : List Label}
    (hrun : Runs.Guarded step (fun s l => s.queuesOnLive l = false) (init memory time) ls) :
    Fresh (after memory time ls).client :=
  @Runs.invariant_run _ _ step _ (fun s : Config n => Fresh s.client)
    (fun _ _ h hg => fresh_step h hg) _ _
    ⟨fun hs => (by cases hs),fun hs => (by cases hs),rfl⟩ hrun

theorem connect_finds_no_session (memory : Fin n → Buffer Tag.kMaxDataSize) (time : Nat)
    (ls : List Label)
    (hrun : Runs.Guarded step (fun s l => s.queuesOnLive l = false) (init memory time) ls) :
    let s := after memory time ls
    (∀ l, s.issues l = true → (s.step l).client.session.live = false) ∧
    (s.client.state = .connecting →
      (∀ t timeoutMs w, (s.client.session.open t timeoutMs w).1 ≠ .busy) ∧
      (∀ t timeoutMs w, t.connected = true → (({} : Session).open t timeoutMs w).2.1 =
        {(s.client.session.open t timeoutMs w).2.1 with handle := 0}) ∧
      ∀ w, expired w.millis.1 s.client.deadline = false →
        (s.client.tcp.poll w.millis.2).1 = .ok →
          (s.client.poll w).1 = .returns .pending ∧ (s.client.poll w).2.1.state = .registering ∧
            (s.client.poll w).2.1.session.io = Transfer.load (Session.registerFrame 1)) := by
  have h := fresh_after memory time hrun
  refine ⟨fun l hl => issues_dropped h hl,fun hs => ⟨fun t timeoutMs w hbusy => ?_,?_,?_⟩⟩
  · rcases (after memory time ls).client.session.open_cases t timeoutMs w with
      ⟨_,_,heq,_⟩ | ⟨st,_,heq,⟨_,hlive | hlive⟩ | hconn⟩
    · rw [heq] at hbusy
      cases hbusy
    · simpa [Session.live,hlive] using h.connecting hs
    · simpa [Session.live,hlive] using h.connecting hs
    · have hidle : ¬ ((after memory time ls).client.session.state = .registering ∨
          (after memory time ls).client.session.state = .registered) := by
        have hlive := h.connecting hs
        rintro (hr | hr) <;> simp [Session.live,hr] at hlive
      rw [Session.open,if_neg hidle,if_pos (by simp [hconn])] at hbusy
      cases hbusy
  · intro t timeoutMs w ht
    exact (Session.open_fresh (h.connecting hs) h.context ht timeoutMs w).2
  · intro w hlate hok
    exact established_registers h hs hlate hok

end Config

namespace Sample

-- begin() on a client that is Ready, then connect() before the link is up again.
def queuedAgain : List Label :=
  online ++ [call .begin,call (.connect 1 44818 5000),
    call .poll {ethLinks := [true,true], sockets := [4]}]

def dialedAgain : List Label :=
  online ++ [call .disconnect,call .poll {sends := [.ok 24], recvs := [.ok unregisterReply]},
    call (.connect 1 44818 5000) {sockets := [4]}]

theorem connect_finds_no_session_dialing :
    let s := after dialedAgain
    s.client.state = .connecting ∧ s.client.tcp.fd = 4 ∧
      (∀ t timeoutMs w, (s.client.session.open t timeoutMs w).1 ≠ .busy) ∧
      (s.client.poll (s.hear {selects := [1]}).world).2.1.state = .registering ∧
        (s.client.poll (s.hear {selects := [1]}).world).2.1.session.io =
          Transfer.load (Session.registerFrame 1) :=
  have hs : (after dialedAgain).client.state = .connecting := by decide +kernel
  have h := (Config.connect_finds_no_session memory 0 dialedAgain (by decide +kernel)).2 hs
  ⟨hs,by decide +kernel,h.1,(h.2.2 ((after dialedAgain).hear {selects := [1]}).world
    (by decide +kernel) (by decide +kernel)).2⟩

theorem queuedAgain_opens_busy :
    let s := after queuedAgain
    let s' := after (queuedAgain ++ [call .poll {selects := [1]}])
    (after (online ++ [call .begin,call (.connect 1 44818 5000)])).issues
        (call .poll {ethLinks := [true,true], sockets := [4]}) = true ∧
      s.client.state = .connecting ∧ s.client.session.state = .registered ∧
        s'.client.tcp.connected = true ∧ s'.client.state = .failed ∧
          (s.client.poll (s.hear {selects := [1]}).world).1 = .returns .busy := by
  decide +kernel

end Sample

end ControlLogix
