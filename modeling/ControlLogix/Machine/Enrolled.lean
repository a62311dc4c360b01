import ControlLogix.Machine.Callbacks
import ControlLogix.Machine.Isolation

namespace ControlLogix

structure Enrolment {n : Nat} (c : PlcClient n) (k : Link) : Prop where
  socket : 0 ≤ c.tcp.fd → k.fd = c.tcp.fd
  connecting : c.state = .connecting → k.rcvd = []
  registering : c.state = .registering → c.session.state = .registering →
    c.session.io.rx = k.rcvd ∧ c.session.io.Paced
  ready : c.state = .ready → Granted k c.session.handle ∧ c.session.handle ≠ 0

namespace Enrolment

variable {n : Nat} {c c' : PlcClient n} {k k' : Link} {w w' : World}

theorem same (h : Enrolment c k) (hstate : c'.state = c.state) (hsession : c'.session = c.session)
    (htcp : c'.tcp.fd = c.tcp.fd) : Enrolment c' k :=
  ⟨by rw [htcp]; exact h.socket,by rw [hstate]; exact h.connecting,
    by rw [hstate,hsession]; exact h.registering,by rw [hstate,hsession]; exact h.ready⟩

theorem relink (h : Enrolment c k) (hfd : k'.fd = k.fd) (hrcvd : k'.rcvd = k.rcvd) :
    Enrolment c k' := by
  obtain ⟨hsocket,hconn,hreg,hready⟩ := h
  refine ⟨by rw [hfd]; exact hsocket,by rw [hrcvd]; exact hconn,by rw [hrcvd]; exact hreg,?_⟩
  intro hs
  obtain ⟨hgranted,hne⟩ := hready hs
  exact ⟨by unfold Granted at hgranted ⊢; rw [hrcvd]; exact hgranted,hne⟩

theorem outside (hsocket : 0 ≤ c'.tcp.fd → k.fd = c'.tcp.fd)
    (hstate : c'.state.apart = true ∨ c'.state = .disconnecting) : Enrolment c' k := by
  refine ⟨hsocket,fun hs => ?_,fun hs => ?_,fun hs => ?_⟩
  all_goals simp [hs,PlcClient.State.apart] at hstate

theorem of_grows (h : Enrolment c (lastLink w.log))
    (hgrow : Trace.Grows (fun e => e.aside = true) w.log w'.log) :
    Enrolment c (lastLink w'.log) := by
  rw [link_grows hgrow]
  exact h

theorem dials {t : TcpConnection} (h : PlcClient.Dials t w c'.tcp c'.state w') :
    Enrolment c' (lastLink w'.log) := by
  generalize htcp : c'.tcp = tcp at h
  generalize hstate : c'.state = state at h
  cases h with
  | dialed _ hfd _ _ hlog =>
    have hlink : lastLink w'.log = {fd := tcp.fd} := by rw [hlog,hfd]; rfl
    rw [hlink]
    refine ⟨fun _ => by rw [htcp],fun _ => rfl,fun hs => ?_,fun hs => ?_⟩
    · rw [hstate] at hs
      cases hs
    · rw [hstate] at hs
      cases hs
  | refused _ =>
    refine outside (fun hfd => ?_) (Or.inl (by rw [hstate]; rfl))
    have hgone := Config.dropped_fd t
    rw [htcp] at hfd
    omega

theorem connect (h : Enrolment c (lastLink w.log)) (ip : UInt32) (port : UInt16)
    (timeoutMs : UInt32) : Enrolment (c.connect ip port timeoutMs w).2.1
      (lastLink (c.connect ip port timeoutMs w).2.2.log) := by
  obtain ⟨st,c',w',heq,⟨_,_,htcp,hstate,rfl⟩ | ⟨_,_,_,hdial⟩⟩ := c.connect_cases ip port timeoutMs w
  · rw [heq]
    exact outside (by rw [htcp]; exact h.socket) (Or.inl (by rw [hstate]; rfl))
  · rw [heq]
    exact dials hdial

theorem disconnect (h : Enrolment c (lastLink w.log)) :
    Enrolment (c.disconnect w).2.1 (lastLink (c.disconnect w).2.2.log) := by
  simp only [PlcClient.disconnect]
  split
  · exact outside h.socket (Or.inr rfl)
  · exact outside (fun hfd => absurd hfd (by simp [TcpConnection.close])) (Or.inl rfl)

theorem finish (w : World) : Enrolment (c.finish true w).2.1 (lastLink (c.finish true w).2.2.log) :=
  outside (fun hfd => absurd hfd (by simp [PlcClient.finish,TcpConnection.close]))
    (Or.inl rfl)

theorem pollEthernet (h : Enrolment c (lastLink w.log)) (hs : c.state = .ethernet) :
    Enrolment (c.pollEthernet w).2.1 (lastLink (c.pollEthernet w).2.2.log) := by
  obtain ⟨out,c',w',heq,_,⟨htcp,_,hstate,hhush⟩ | ⟨_,_,_,hdial⟩⟩ := c.pollEthernet_cases w
  · rw [heq]
    refine of_grows (w := w) (outside (by rw [htcp]; exact h.socket) (Or.inl ?_)) hhush.aside
    rcases hstate with hstate | hstate
    · rw [hstate,hs]
      rfl
    · rw [hstate]
      rfl
  · rw [heq]
    exact dials hdial

theorem pollConnecting (h : Enrolment c (lastLink w.log)) (hs : c.state = .connecting) :
    Enrolment (c.pollConnecting w).2.1 (lastLink (c.pollConnecting w).2.2.log) := by
  obtain ⟨out,c',w',heq,_,hhush,⟨hsession,hcase⟩ | ⟨deadline,hsession,_,_,htcp,hstate⟩⟩ :=
    c.pollConnecting_cases w
  · rw [heq]
    refine of_grows (w := w) ?_ hhush.aside
    rcases hcase with ⟨htcp,hstate | hstate⟩ | ⟨htcp | htcp,hstate⟩
    · exact h.same hstate hsession (by rw [htcp])
    · exact outside (by rw [htcp]; exact h.socket) (Or.inl (by rw [hstate]; rfl))
    · exact outside (fun hfd => absurd (htcp ▸ hfd) (by decide)) (Or.inl (by rw [hstate]; rfl))
    · exact outside (by rw [htcp]; exact h.socket) (Or.inl (by rw [hstate]; rfl))
  · rw [heq]
    refine of_grows (w := w) ⟨by rw [htcp]; exact h.socket,fun hne => ?_,fun _ _ => ?_,
      fun hne => ?_⟩ hhush.aside
    · rw [hstate] at hne
      cases hne
    · rw [hsession,h.connecting hs]
      exact ⟨rfl,Transfer.load_paced _⟩
    · rw [hstate] at hne
      cases hne

theorem registered (h : Enrolment c (lastLink w.log)) (hs : c.state = .registering)
    (hreg : c.session.state = .registering) {st : Status} {session : Session} {t : TcpConnection}
    (hpolled : c.session.Polled c.tcp w st session t w') :
    (session.state = .registering →
      session.io.rx = (lastLink w'.log).rcvd ∧ session.io.Paced) ∧
    (st = .ok → Granted (lastLink w'.log) session.handle ∧ session.handle ≠ 0) := by
  obtain ⟨hrx,hpaced⟩ := h.registering hs hreg
  obtain ⟨new,more,hmore,hlink⟩ := hpolled.io.link
  have hrx' : session.io.rx = (lastLink w'.log).rcvd := by rw [hlink,hmore,hrx]
  rcases hpolled.ended with ⟨_,_,hne,hkeep⟩ | ⟨hfailed,hne,_⟩ |
    ⟨_,hregd,_,hzero,hhandle,hcommand,hlen⟩ | ⟨hun,_⟩
  · exact ⟨fun _ => ⟨hrx',hkeep hpaced⟩,fun hok => absurd hok hne⟩
  · refine ⟨fun hstate => ?_,fun hok => absurd hok hne⟩
    rw [hfailed] at hstate
    cases hstate
  · refine ⟨fun hstate => ?_,fun _ => ⟨?_,hzero⟩⟩
    · rw [hregd] at hstate
      cases hstate
    · rw [Granted,← hrx']
      exact ⟨hlen hpaced,hcommand,hhandle.symm⟩
  · rw [hreg] at hun
    cases hun

theorem polled_socket (h : Enrolment c (lastLink w.log)) {st : Status} {session : Session}
    {t : TcpConnection} (hpolled : c.session.Polled c.tcp w st session t w') :
    0 ≤ t.fd → (lastLink w'.log).fd = t.fd := by
  rw [hpolled.io.link_fd,hpolled.io.kept.fd_eq]
  exact h.socket

theorem pollRegistering (h : Enrolment c (lastLink w.log)) (hph : Phases c)
    (hs : c.state = .registering) :
    Enrolment (c.pollRegistering w).2.1 (lastLink (c.pollRegistering w).2.2.log) := by
  obtain ⟨out,c',w',heq,_,⟨_,_,htcp,hstate,hhush⟩ | ⟨_,st,hpoll,hstate⟩⟩ := c.pollRegistering_cases w
  · rw [heq]
    exact of_grows (w := w) (outside (by rw [htcp]; exact h.socket) (Or.inl (by rw [hstate]; rfl)))
      hhush.aside
  rw [heq]
  rcases hph.registering hs with hreg | hfail
  · have hexch : c.session.exchanging = true := by simp [Session.exchanging,hreg]
    obtain ⟨st',s',t',v,hpoll',hpolled⟩ := Session.poll_polled hexch c.tcp w.millis.2
    obtain ⟨rfl,rfl,rfl,rfl⟩ : st = st' ∧ c'.session = s' ∧ c'.tcp = t' ∧ w' = v := by
      rw [hpoll'] at hpoll
      simpa [eq_comm] using hpoll
    obtain ⟨hturned,hgranted⟩ := registered (w := w.millis.2) h hs hreg hpolled
    refine ⟨polled_socket (w := w.millis.2) h hpolled,fun hne => ?_,fun _ => hturned,fun hready => ?_⟩
    · rw [hstate,hs] at hne
      split_ifs at hne
    · rw [hstate,hs] at hready
      split_ifs at hready with hok
      exact hgranted hok
  · have herr : c.session.poll c.tcp w.millis.2 = (.error,c.session,c.tcp,w.millis.2) := by
      simp [Session.poll,hfail]
    obtain ⟨rfl,_,htcp,rfl⟩ : st = .error ∧ c'.session = c.session ∧ c'.tcp = c.tcp ∧
        w' = w.millis.2 := by
      rw [herr] at hpoll
      simpa [eq_comm] using hpoll
    exact outside (by rw [htcp]; exact h.socket) (Or.inl (by rw [hstate]; rfl))

theorem pollDisconnecting (h : Enrolment c (lastLink w.log)) (hs : c.state = .disconnecting) :
    Enrolment (c.pollDisconnecting w).2.1 (lastLink (c.pollDisconnecting w).2.2.log) := by
  obtain ⟨out,c',w',st,t,v,heq,_,hpoll,⟨_,_,htcp,hstate,_⟩ | ⟨_,_,htcp,hstate,rfl⟩⟩ :=
    c.pollDisconnecting_cases w
  · rw [heq]
    exact outside (fun hfd => absurd (htcp ▸ hfd) (by decide)) (Or.inl (by rw [hstate]; rfl))
  · rw [heq]
    refine outside ?_ (Or.inr (hstate.trans hs))
    rw [htcp]
    cases hexch : c.session.exchanging with
    | true =>
      obtain ⟨_,_,_,_,hpoll',hpolled⟩ := Session.poll_polled hexch c.tcp w
      obtain ⟨rfl,rfl,rfl,rfl⟩ := by
        rw [hpoll'] at hpoll
        simpa using hpoll
      exact polled_socket h hpolled
    | false =>
      obtain ⟨_,hpoll',_⟩ := Session.poll_still hexch c.tcp w
      obtain ⟨_,_,rfl,rfl⟩ := by
        rw [hpoll'] at hpoll
        simpa using hpoll
      exact h.socket

theorem poll (h : Enrolment c (lastLink w.log)) (hph : Phases c) :
    Enrolment (c.poll w).2.1 (lastLink (c.poll w).2.2.log) := by
  simp only [PlcClient.poll]
  cases hs : c.state with
  | ethernet => exact h.pollEthernet hs
  | connecting => exact h.pollConnecting hs
  | registering => exact h.pollRegistering hph hs
  | disconnecting => exact h.pollDisconnecting hs
  | ready => exact h
  | failed => exact h
  | idle => exact h

end Enrolment

namespace Config

variable {n : Nat}

-- The loop of a poll() comes to a tag whose operation is in flight while the client registers on
-- a connection made from one of its callbacks.
def trespasses (s : Config n) (l : Label) : Bool :=
  match s.visiting l with
  | none => false
  | some i => s.client.busy i && s.client.state = .registering

structure Enrolled (s : Config n) : Prop where
  exclusive : s.client.Exclusive s.world.log
  phases : Phases s.client
  enrolment : Enrolment s.client (lastLink s.world.log)

theorem enrolment_visit {s : Config n} (hex : s.client.Exclusive s.world.log)
    (h : Enrolment s.client (lastLink s.world.log)) (hph : Phases s.client) {i : Fin n}
    (hg : s.client.busy i = true → s.client.state ≠ .registering) {w : World}
    (hw : w.log = s.world.log) {st : Status} {g : Tag} {m : ExplicitMessage} {t : TcpConnection}
    {w' : World} (hpoll : (s.client.tags i).poll s.client.msg s.client.tcp w = (st,g,m,t,w'))
    {c : PlcClient n} (hc : c = {s.client with
      tags := Function.update s.client.tags i g, msg := m, tcp := t,
      tagPrevStatus := Function.update s.client.tagPrevStatus i st}) :
    Enrolment c (lastLink w'.log) := by
  have hmoved := hex.poll_moved hpoll
  obtain ⟨new,more,_,hlink⟩ := hmoved.link
  rw [hw] at hlink
  have hfd : t.fd = s.client.tcp.fd := hmoved.kept.fd_eq
  subst hc
  rcases hex.poll_cases hpoll with ⟨hbusy,_⟩ | ⟨_,_,_,_,rfl,rfl⟩
  · refine ⟨?_,fun hs => ?_,fun hs => absurd hs (hg hbusy),fun hs => ?_⟩
    · rw [hlink]
      simp only [hfd]
      exact h.socket
    · -- A socket that is still connecting is not read.
      have hpend := (hph.connecting hs).2
      obtain ⟨_,_,hlog⟩ := hmoved.still fun hlive => by simp [hlive.2] at hpend
      rw [hlog,hw]
      exact h.connecting hs
    · obtain ⟨hgranted,hne⟩ := h.ready hs
      rw [hlink]
      exact ⟨hgranted.push _ _,hne⟩
  · rw [hw]
    exact h.same rfl rfl rfl

theorem enrolment_quiet {s s' : Config n} {l : Label}
    (h : Enrolment s.client (lastLink s.world.log)) (hph : Phases s.client)
    (hconn : ConnMove s.client l.act (s.hear l.script).world s'.client s'.world.log) :
    Enrolment s'.client (lastLink s'.world.log) := by
  have hmarks {marks log : List Event} (hm : ∀ e ∈ marks, ∃ arg, e = .stateCallback arg) :
      lastLink (marks ++ log) = lastLink log := link_grows (grows_stateCallbacks hm)
  cases hconn with
  | still hstate hsession htcp _ hlog =>
    rw [hlog]
    exact h.same hstate hsession (by rw [htcp])
  | begun _ hc hlog =>
    rw [hc,hlog]
    exact Enrolment.of_grows (w := (s.hear l.script).world) (.outside h.socket (Or.inl rfl))
      (s.client.eth.begin_hushed _).aside
  | connected ip port timeoutMs _ hc hlog =>
    rw [hc,hlog]
    exact Enrolment.connect (w := (s.hear l.script).world) h ip port timeoutMs
  | disconnected _ hc hlog =>
    rw [hc,hlog]
    exact Enrolment.disconnect (w := (s.hear l.script).world) h
  | polled marks _ hc hm hlog =>
    rw [hc,hlog,hmarks hm]
    exact Enrolment.poll (w := (s.hear l.script).world) h hph
  | finished marks _ hc hm hlog =>
    rw [hc,hlog,hmarks hm]
    exact Enrolment.finish _

theorem enrolment_step {s : Config n} {l : Label} (hex : s.client.Exclusive s.world.log)
    (hph : Phases s.client) (h : Enrolment s.client (lastLink s.world.log))
    (hg : s.trespasses l = false) :
    Enrolment (s.step l).client (lastLink (s.step l).world.log) := by
  cases s.step_move l with
  | quiet _ _ hconn => exact enrolment_quiet h hph hconn
  | created i _ _ _ _ _ _ hc hlog =>
    obtain ⟨_,_,hc⟩ := hc
    rw [hc,hlog]
    exact h.same rfl rfl rfl
  | destroyed i _ _ _ _ hc hlog =>
    rw [hc,hlog]
    exact h.same rfl rfl rfl
  | started i _ _ _ _ _ frame _ _ _ _ _ _ _ _ _ _ hc hlog =>
    rw [hc,hlog]
    have hlink : Enrolment s.client (lastLink (.started i frame :: s.world.log)) :=
      h.relink rfl rfl
    exact hlink.same rfl rfl rfl
  | typed i f _ hc hlog =>
    rw [hc,hlog]
    split <;> exact h.same rfl rfl rfl
  | aborted i _ hc hlog =>
    rw [hc,hlog]
    split <;> exact h.same rfl rfl rfl
  | visited i disconnected stack st g m t w' ha hstack huse hpoll hc hlog =>
    rw [hlog,visitMarks_link]
    refine enrolment_visit (w := (s.hear l.script).world) hex h hph (fun hbusy hs => ?_) rfl hpoll hc
    simp [trespasses,visiting_eq ha hstack huse,hbusy,hs] at hg

theorem enrolled_after (memory : Fin n → Buffer Tag.kMaxDataSize) (time : Nat) {ls : List Label}
    (hrun : Runs.Guarded step (fun s l => s.trespasses l = false) (init memory time) ls) :
    Enrolled (after memory time ls) :=
  Runs.invariant_run
    (fun s l h hg => ⟨s.exclusive_step l h.exclusive,phases_step h.exclusive h.phases,
      enrolment_step h.exclusive h.phases h.enrolment hg⟩)
    (show Enrolled (init memory time) from ⟨PlcClient.exclusive_init memory time,
      Phases.outside (Or.inl rfl),.outside (fun hfd => by cases hfd) (Or.inl rfl)⟩) hrun

theorem started_frame {c : PlcClient n} {handle : Int} {w w' : World} {c' : PlcClient n}
    (h : PlcClient.Started c handle w (.pending,c',w')) :
    (decodeHeader c'.msg.io.tx).command = Command.code .sendRRData ∧
      (decodeHeader c'.msg.io.tx).session = c.session.handle := by
  generalize hr : (Status.pending,c',w') = r at h
  cases h with
  | @taken _ _ service path data _ _ _ _ _ _ _ _ _ _ _ _ =>
    obtain ⟨rfl,_⟩ := Prod.mk.inj (Prod.mk.inj hr).2
    obtain ⟨body,_,heq⟩ :=
      ExplicitMessage.requestFrame_eq c.session.handle c.msg.context service path data
    simp only [ExplicitMessage.issued,Transfer.load,heq,decodeHeader_headerBytes]
    exact ⟨trivial,trivial⟩
  | refused hst _ => exact absurd (congrArg Prod.fst hr).symm hst

theorem ready_is_registered (memory : Fin n → Buffer Tag.kMaxDataSize) (time : Nat)
    (ls : List Label)
    (hrun : Runs.Guarded step (fun s l => s.trespasses l = false) (init memory time) ls) :
    let s := after memory time ls
    s.client.ready = true →
      s.client.session.registered = true ∧ s.client.sessionHandle ≠ 0 ∧
      (0 ≤ s.client.tcp.fd → (lastLink s.world.log).fd = s.client.tcp.fd) ∧
      Granted (lastLink s.world.log) s.client.sessionHandle ∧
      ∀ handle timeoutMs w c w', (s.client.read handle timeoutMs w = (.pending,c,w') ∨
          s.client.write handle timeoutMs w = (.pending,c,w')) →
        (decodeHeader c.msg.io.tx).command = Command.code .sendRRData ∧
          (decodeHeader c.msg.io.tx).session = s.client.sessionHandle := by
  intro s hready
  have hs : s.client.state = .ready := by simpa [PlcClient.ready] using hready
  obtain ⟨_,hph,henrolled⟩ := enrolled_after memory time hrun
  obtain ⟨hgranted,hne⟩ := henrolled.ready hs
  refine ⟨by simpa [Session.registered] using hph.ready hs,hne,henrolled.socket,hgranted,?_⟩
  rintro handle timeoutMs w c w' (heq | heq)
  · have h := s.client.read_started handle timeoutMs w
    rw [heq] at h
    exact started_frame h
  · have h := s.client.write_started handle timeoutMs w
    rw [heq] at h
    exact started_frame h

end Config

namespace Sample

-- The callback of A starts a read of B, connects anew and polls until the request to register is
-- sent and four bytes of the reply are there; the loop it returns to comes to B.
def crossing : List Label :=
  online ++ [call (.setTagCallback true),call (.createTag tagA 1),call (.createTag tagB 1),
    call (.read 0 1000)] ++ sweep {sends := [.ok 48]} ++
  [call .poll,{act := .advance, script := {recvs := [.ok (dataReply 1 dint)]}},
    call (.read 1 1000),call (.connect 1 44818 5000) {sockets := [4]},
    call .poll {selects := [1]},
    call .poll {sends := [.ok 28], recvs := [.ok ((registerReply 9).take 4)]},{act := .ret},
    {act := .advance,
     script := {sends := [.ok 48], recvs := [.ok (((registerReply 9).drop 4).take 8)]}}] ++
  advance 8 ++
  [call .poll {recvs := [.ok ((registerReply 9).drop 12 ++ (dataReply 2 dint).take 8)]}]

theorem ready_is_registered_coldReconnect :
    (after coldReconnect).client.ready = true ∧
      Granted (lastLink (after coldReconnect).world.log) (after coldReconnect).client.sessionHandle :=
  have hready : (after coldReconnect).client.ready = true := by decide +kernel
  ⟨hready,(Config.ready_is_registered memory 0 coldReconnect (by decide +kernel) hready).2.2.2.1⟩

theorem crossing_takes_other_handle :
    let s := after crossing
    let k := lastLink s.world.log
    s.client.ready = true ∧ s.client.sessionHandle = 1 ∧ k.fd = 4 ∧
      k.rcvd.take 28 = registerReply 9 ∧ (decodeHeader (registerReply 9)).session = 9 ∧
        ¬ Granted k s.client.sessionHandle := by
  refine ⟨by decide +kernel,by decide +kernel,by decide +kernel,by decide +kernel,
    by decide +kernel,fun h => ?_⟩
  have hother : (decodeHeader (lastLink (after crossing).world.log).rcvd).session ≠
      (after crossing).client.sessionHandle := by decide +kernel
  exact hother h.2.2

end Sample

end ControlLogix
