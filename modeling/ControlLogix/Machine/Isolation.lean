import ControlLogix.Machine.Wire

namespace ControlLogix

-- The RegisterSession reply that the connection began with gave out the handle.
def Granted (k : Link) (handle : UInt32) : Prop :=
  kEncapsulationHeaderSize ≤ k.rcvd.length ∧
    (decodeHeader k.rcvd).command = Command.code .registerSession ∧
      (decodeHeader k.rcvd).session = handle

def Fits (k : Link) (frame : List UInt8) : Prop :=
  (decodeHeader frame).command = Command.code .registerSession ∧ (decodeHeader frame).session = 0 ∨
    Granted k (decodeHeader frame).session ∧
      ((decodeHeader frame).command = Command.code .unregisterSession ∨ frame ∈ k.requests)

-- What is written to a connection was built for it, and what is read is read from it; the reply an
-- operation ends with came over it.
def Native : Event → List Event → Prop
  | .send fd chunk, past => (lastLink past).fd = fd ∧ Fits (lastLink past) chunk.frame
  | .recv fd _, past => (lastLink past).fd = fd
  | .ended _ _ _ rx, past => rx.Sublist (lastLink past).rcvd
  | _, _ => True

theorem Granted.push {k : Link} {handle : UInt32} (h : Granted k handle)
    (sends : List (Writes.Chunk UInt8)) (more : List UInt8) :
    Granted {k with sends := sends, rcvd := k.rcvd ++ more} handle := by
  obtain ⟨hlen,hhead⟩ := h
  refine ⟨by simp only [List.length_append]; omega,?_⟩
  simp only [decodeHeader_append _ _ hlen]
  exact hhead

theorem native_aside {e : Event} (h : e.aside = true) (log : List Event) : Native e log := by
  cases e <;> simp_all [Event.aside,Event.wire,Native]

theorem Fits.push {k : Link} {frame : List UInt8} (h : Fits k frame)
    (sends : List (Writes.Chunk UInt8)) (more : List UInt8) :
    Fits {k with sends := sends, rcvd := k.rcvd ++ more} frame := by
  rcases h with hreg | ⟨hgranted,hkind⟩
  · exact Or.inl hreg
  · exact Or.inr ⟨hgranted.push sends more,hkind⟩

namespace Transfer

variable {x x' : Transfer} {t t' : TcpConnection} {w w' : World}

theorem Moved.native (h : Moved x t w x' t' w') (hfd : 0 ≤ t.fd → (lastLink w.log).fd = t.fd)
    (hx : x.txSent < x.tx.length → Fits (lastLink w.log) x.tx)
    (hw : Trace.Always Native w.log) : Trace.Always Native w'.log := by
  rcases h.talks with hlive | ⟨_,_,hlog⟩
  · obtain ⟨mid,hsent,hgot,_⟩ := h.traffic
    obtain ⟨new,hmid⟩ := hsent.link
    refine hgot.always (fun got past rx hg => ?_)
      (hsent.always (fun k m past hm hle hs _ => ?_) hw)
    · obtain ⟨more,_,hlink⟩ := hg.link
      change (lastLink past).fd = t.fd
      rw [hlink,hmid]
      exact hfd hlive.1
    · have hmore : x.txSent < x.tx.length := by
        have := hs.le.1
        omega
      obtain ⟨sent,hnew⟩ := hs.link
      have hfits := (hx hmore).push (sent ++ (lastLink w.log).sends) []
      rw [List.append_nil] at hfits
      exact ⟨by rw [hnew]; exact hfd hlive.1,by rw [hnew]; exact hfits⟩
  · rw [hlog]
    exact hw

end Transfer

namespace Config

variable {n : Nat}

-- tcp_.connect is called while the message holds an exchange that has not come to a rest: bytes of
-- the request are not written, bytes of the reply are read, or a poll() under way will turn it.
def crosses (s : Config n) (l : Label) : Bool :=
  s.issues l && s.client.msg.inFlight &&
    (s.client.msg.unsent || s.client.msg.io.rx ≠ [] || s.wakes)

structure Isolated (s : Config n) : Prop where
  exclusive : s.client.Exclusive s.world.log
  phases : Phases s.client
  native : Trace.Always Native s.world.log
  socket : 0 ≤ s.client.tcp.fd → (lastLink s.world.log).fd = s.client.tcp.fd
  connecting : s.client.state = .connecting → (lastLink s.world.log).rcvd = []
  registering : s.client.state = .registering → s.client.session.state = .registering →
    s.client.session.io.rx = (lastLink s.world.log).rcvd ∧ s.client.session.io.Paced ∧
      (decodeHeader s.client.session.io.tx).command = Command.code .registerSession ∧
        (decodeHeader s.client.session.io.tx).session = 0
  ready : s.client.state = .ready → Granted (lastLink s.world.log) s.client.session.handle
  leaving : s.client.state = .disconnecting → s.client.session.state = .unregistering →
    Granted (lastLink s.world.log) (decodeHeader s.client.session.io.tx).session ∧
      (decodeHeader s.client.session.io.tx).command = Command.code .unregisterSession
  message : s.client.msg.inFlight = true →
    s.client.msg.unsent = false ∧ s.client.msg.io.rx = [] ∧ Asleep s ∨
      s.client.state ≠ .connecting ∧ s.client.state ≠ .registering ∧
        s.client.msg.io.rx.Sublist (lastLink s.world.log).rcvd ∧
          (s.client.msg.unsent = true → Fits (lastLink s.world.log) s.client.msg.io.tx)

variable {s : Config n} {l : Label}

theorem isolated_aside (h : Isolated s)
    (hgrow : Trace.Grows (fun e => e.aside = true) s.world.log (s.step l).world.log)
    (hmsg : (s.step l).client.msg = s.client.msg ∨ (s.step l).client.msg.inFlight = false)
    (htcp : (s.step l).client.tcp.fd = s.client.tcp.fd ∨ (s.step l).client.tcp.fd < 0)
    (hstate : (s.step l).client.state = s.client.state ∧
        (s.step l).client.session = s.client.session ∨ (s.step l).client.state.apart = true) :
    Isolated (s.step l) := by
  have hlink := link_grows hgrow
  refine ⟨s.exclusive_step l h.exclusive,phases_step h.exclusive h.phases,
    hgrow.always (fun e he es => native_aside he es) h.native,?_,?_,?_,?_,?_,?_⟩
  · exact socket_kept h.socket (by rw [hlink]) htcp
  · intro hs
    rw [hlink]
    exact h.connecting (apart_kept hstate rfl hs).1
  · intro hs hreg
    rw [(apart_kept hstate rfl hs).2] at hreg ⊢
    rw [hlink]
    exact h.registering (apart_kept hstate rfl hs).1 hreg
  · intro hs
    rw [hlink,(apart_kept hstate rfl hs).2]
    exact h.ready (apart_kept hstate rfl hs).1
  · intro hs hun
    rw [(apart_kept hstate rfl hs).2] at hun ⊢
    rw [hlink]
    exact h.leaving (apart_kept hstate rfl hs).1 hun
  · intro hfly
    rcases hmsg with hsame | hnone
    · rw [hsame] at hfly ⊢
      rw [hlink]
      rcases h.message hfly with ⟨hsent,hrx,hasleep⟩ | ⟨hconn,hreg,hrest⟩
      · refine Or.inl ⟨hsent,hrx,asleep_step h.exclusive hasleep ?_⟩
        intro hready
        exact hasleep.1 (apart_kept hstate rfl hready).1
      · exact Or.inr ⟨fun hs => hconn (apart_kept hstate rfl hs).1,
          fun hs => hreg (apart_kept hstate rfl hs).1,hrest⟩
    · simp [hnone] at hfly

theorem isolated_issued (h : Isolated s) (hg : s.crosses l = false) {fd : Int} {mid : List Event}
    (hissues : s.issues l = true)
    (hmid : Trace.Grows (fun e => e.aside = true) s.world.log mid)
    (hgrow : Trace.Grows (fun e => e.aside = true) (.connect fd :: mid) (s.step l).world.log)
    (hs : (s.step l).client.state = .connecting) (hfd : (s.step l).client.tcp.fd = fd)
    (hmsg : (s.step l).client.msg = s.client.msg) : Isolated (s.step l) := by
  have hlink : lastLink (s.step l).world.log = {fd := fd} := link_grows hgrow
  refine ⟨s.exclusive_step l h.exclusive,phases_step h.exclusive h.phases,?_,?_,?_,?_,?_,?_,?_⟩
  · refine hgrow.always (fun e he es => native_aside he es) ⟨trivial,?_⟩
    exact hmid.always (fun e he es => native_aside he es) h.native
  · intro _
    rw [hlink,hfd]
  · intro _
    rw [hlink]
  · intro hne
    simp [hs] at hne
  · intro hne
    simp [hs] at hne
  · intro hne
    simp [hs] at hne
  · intro hfly
    rw [hmsg] at hfly ⊢
    simp only [crosses,hissues,hfly] at hg
    obtain ⟨⟨hsent,hrx⟩,hwakes⟩ : (s.client.msg.unsent = false ∧ s.client.msg.io.rx = []) ∧
        s.wakes = false := by simpa using hg
    exact Or.inl ⟨hsent,hrx,by rw [hs]; simp,issues_wakes h.exclusive hissues hwakes⟩

theorem isolated_opened (h : Isolated s) {deadline : UInt32} (hold : s.client.state = .connecting)
    (hs : (s.step l).client.state = .registering)
    (hsession : (s.step l).client.session = (Session.startRegister
      {s.client.session with conn := true, deadline := deadline}).2)
    (htcp : (s.step l).client.tcp.fd = s.client.tcp.fd)
    (hmsg : (s.step l).client.msg = s.client.msg)
    (hgrow : Trace.Grows (fun e => e.aside = true) s.world.log (s.step l).world.log) :
    Isolated (s.step l) := by
  have hlink := link_grows hgrow
  refine ⟨s.exclusive_step l h.exclusive,phases_step h.exclusive h.phases,
    hgrow.always (fun e he es => native_aside he es) h.native,?_,?_,?_,?_,?_,?_⟩
  · rw [hlink,htcp]
    exact h.socket
  · intro hne
    simp [hs] at hne
  · intro _ _
    have htx : (s.step l).client.session.io =
        Transfer.load (Session.registerFrame s.client.session.context) := by
      rw [hsession]
      rfl
    rw [htx,hlink,h.connecting hold]
    refine ⟨rfl,Transfer.load_paced _,?_⟩
    simp only [Transfer.load,Session.registerFrame_eq,decodeHeader_headerBytes]
    exact ⟨trivial,trivial⟩
  · intro hne
    simp [hs] at hne
  · intro hne
    simp [hs] at hne
  · intro hfly
    rw [hmsg] at hfly ⊢
    rcases h.message hfly with ⟨hsent,hrx,hasleep⟩ | ⟨hconn,_⟩
    · exact Or.inl ⟨hsent,hrx,asleep_step h.exclusive hasleep (by simp [hs])⟩
    · exact absurd hold hconn

theorem isolated_closes (h : Isolated s) (hold : s.client.state = .ready)
    (hs : (s.step l).client.state = .disconnecting)
    (hsession : (s.step l).client.session = s.client.session.close.2)
    (htcp : (s.step l).client.tcp = s.client.tcp) (hmsg : (s.step l).client.msg = s.client.msg)
    (hlog : (s.step l).world.log = s.world.log) : Isolated (s.step l) := by
  refine ⟨s.exclusive_step l h.exclusive,phases_step h.exclusive h.phases,
    by rw [hlog]; exact h.native,?_,?_,?_,?_,?_,?_⟩
  · rw [hlog,htcp]
    exact h.socket
  · intro hne
    simp [hs] at hne
  · intro hne
    simp [hs] at hne
  · intro hne
    simp [hs] at hne
  · intro _ _
    have htx : (s.step l).client.session.io.tx =
        Session.unregisterFrame s.client.session.handle s.client.session.context := by
      simp [hsession,Session.close,h.phases.ready hold,Session.startUnregister,Transfer.load]
    simp only [htx,Session.unregisterFrame_eq,decodeHeader_headerBytes,hlog]
    exact ⟨h.ready hold,trivial⟩
  · intro hfly
    rw [hmsg] at hfly ⊢
    rw [hlog]
    rcases h.message hfly with ⟨_,_,hasleep⟩ | ⟨_,_,hrest⟩
    · exact absurd hold hasleep.1
    · exact Or.inr ⟨by simp [hs],by simp [hs],hrest⟩

theorem turned_registering (h : Isolated s) {st : Status} {t : TcpConnection} {w w' : World}
    (hold : s.client.state = .registering) (hexch : s.client.session.exchanging = true)
    (hw : w.log = s.world.log) {c : Session}
    (hpolled : s.client.session.Polled s.client.tcp w st c t w') :
    c.io.rx = (lastLink w'.log).rcvd ∧ (c.state = .registering → c.io.Paced) ∧
      (st = .ok → Granted (lastLink w'.log) c.handle) := by
  have hreg := h.phases.registers hold hexch
  obtain ⟨hrx,hpaced,_⟩ := h.registering hold hreg
  obtain ⟨new,more,hmore,hlink⟩ := hpolled.io.link
  have hrx' : c.io.rx = (lastLink w'.log).rcvd := by rw [hlink,hmore,hrx,hw]
  refine ⟨hrx',fun hstate => ?_,fun hok => ?_⟩
  · rcases hpolled.ended with ⟨_,_,_,hkeep⟩ | ⟨hfailed,_⟩ | ⟨_,hregd,_⟩ | ⟨_,hclosed,_⟩
    · exact hkeep hpaced
    · rw [hstate] at hfailed
      cases hfailed
    · rw [hstate] at hregd
      cases hregd
    · rw [hstate] at hclosed
      cases hclosed
  · rcases hpolled.ended with ⟨_,_,hne,_⟩ | ⟨_,hne,_⟩ | ⟨_,_,_,_,hhandle,hcommand,hlen⟩ | ⟨hun,_⟩
    · exact absurd hok hne
    · exact absurd hok hne
    · rw [Granted,← hrx']
      exact ⟨hlen hpaced,hcommand,hhandle.symm⟩
    · rw [hreg] at hun
      cases hun

theorem isolated_turned (h : Isolated s) {st : Status} {t : TcpConnection} {w w' : World}
    (hold : s.client.state = .registering ∨ s.client.state = .disconnecting)
    (hexch : s.client.session.exchanging = true) (hw : w.log = s.world.log)
    (hpolled : s.client.session.Polled s.client.tcp w st (s.step l).client.session t w')
    (hmsg : (s.step l).client.msg = s.client.msg)
    (htcp : (s.step l).client.tcp.fd = t.fd ∨ (s.step l).client.tcp.fd < 0)
    (hgrow : Trace.Grows (fun e => e.aside = true) w'.log (s.step l).world.log)
    (hstate : (s.step l).client.state = s.client.state ∨ (s.step l).client.state.apart = true ∨
      s.client.state = .registering ∧ st = .ok ∧ (s.step l).client.state = .ready) :
    Isolated (s.step l) := by
  have hmoved := hpolled.io
  have hlink := link_grows hgrow
  have hfd : (lastLink w'.log).fd = (lastLink s.world.log).fd := by rw [hmoved.link_fd,hw]
  obtain ⟨new,more,hrx,hpush⟩ := hmoved.link
  rw [hw] at hpush
  have hfits : Fits (lastLink s.world.log) s.client.session.io.tx := by
    rcases hold with hold | hold
    · exact Or.inl (h.registering hold (h.phases.registers hold hexch)).2.2
    · obtain ⟨hgranted,hcommand⟩ := h.leaving hold (h.phases.unregisters hold hexch)
      exact Or.inr ⟨hgranted,Or.inl hcommand⟩
  have hnative := hmoved.native (by rw [hw]; exact h.socket) (fun _ => by rw [hw]; exact hfits)
    (by rw [hw]; exact h.native)
  have hback {st' : PlcClient.State} (hst : st'.apart = false) (hne : st' ≠ .ready)
      (hs : (s.step l).client.state = st') : s.client.state = st' := by
    rcases hstate with hsame | hapart | ⟨_,_,hready⟩
    · exact hsame.symm.trans hs
    · simp [hs,hst] at hapart
    · exact absurd (hs.symm.trans hready) hne
  refine ⟨s.exclusive_step l h.exclusive,phases_step h.exclusive h.phases,
    hgrow.always (fun e he es => native_aside he es) hnative,?_,?_,?_,?_,?_,?_⟩
  · exact socket_kept h.socket (by rw [hlink,hfd]) (hmoved.kept.fd_eq ▸ htcp)
  · intro hs
    have hconn := hback rfl (by simp) hs
    rcases hold with hold | hold <;> rw [hold] at hconn <;> cases hconn
  · intro hs hreg
    have hold := hback rfl (by simp) hs
    obtain ⟨hall,hpaced,_⟩ := turned_registering h hold hexch hw hpolled
    rw [hlink,hmoved.tx_eq]
    exact ⟨hall,hpaced hreg,(h.registering hold (h.phases.registers hold hexch)).2.2⟩
  · intro hs
    rw [hlink]
    rcases hstate with hsame | hapart | ⟨hold,hok,_⟩
    · rcases hold with hold | hold <;> rw [hs,hold] at hsame <;> cases hsame
    · simp [hs,PlcClient.State.apart] at hapart
    · exact (turned_registering h hold hexch hw hpolled).2.2 hok
  · intro hs hun
    have hold := hback rfl (by simp) hs
    rw [hlink,hmoved.tx_eq,hpush]
    obtain ⟨hgranted,hcommand⟩ := h.leaving hold (h.phases.unregisters hold hexch)
    exact ⟨hgranted.push _ _,hcommand⟩
  · intro hfly
    rw [hmsg] at hfly ⊢
    rw [hlink,hpush]
    rcases h.message hfly with ⟨hsent,hnone,hasleep⟩ | ⟨hconn,hreg,hsub,hunsent⟩
    · by_cases hready : (s.step l).client.state = .ready
      · refine Or.inr ⟨by simp [hready],by simp [hready],?_,fun hmore => ?_⟩
        · rw [hnone]
          exact List.nil_sublist _
        · rw [hsent] at hmore
          cases hmore
      · exact Or.inl ⟨hsent,hnone,asleep_step h.exclusive hasleep hready⟩
    · refine Or.inr ⟨fun hs => hconn (hback rfl (by simp) hs),
        fun hs => hreg (hback rfl (by simp) hs),hsub.trans (List.sublist_append_left _ _),
        fun hmore => (hunsent hmore).push _ _⟩

theorem isolated_loaded (h : Isolated s) {i : Fin n} {service : UInt8} {path data : List UInt8}
    {deadline : UInt32} {frame : List UInt8} (hold : s.client.state = .ready)
    (hs : (s.step l).client.state = .ready)
    (hframe : frame = ExplicitMessage.requestFrame s.client.session.handle s.client.msg.context
      service path data ∧ Encapsulated frame)
    (hmsg : (s.step l).client.msg = s.client.msg.issued frame deadline)
    (hsession : (s.step l).client.session = s.client.session)
    (htcp : (s.step l).client.tcp = s.client.tcp)
    (hlog : (s.step l).world.log = .started i frame :: s.world.log) : Isolated (s.step l) := by
  refine ⟨s.exclusive_step l h.exclusive,phases_step h.exclusive h.phases,
    by rw [hlog]; exact ⟨trivial,h.native⟩,?_,?_,?_,?_,?_,?_⟩
  · rw [hlog,htcp]
    exact h.socket
  · intro hne
    simp [hs] at hne
  · intro hne
    simp [hs] at hne
  · intro _
    rw [hlog,hsession]
    exact h.ready hold
  · intro hne
    simp [hs] at hne
  · intro _
    rw [hmsg,hlog]
    refine Or.inr ⟨by simp [hs],by simp [hs],List.nil_sublist _,fun _ => Or.inr ⟨?_,Or.inr ?_⟩⟩
    · obtain ⟨body,_,heq⟩ := ExplicitMessage.requestFrame_eq s.client.session.handle
        s.client.msg.context service path data
      simp only [ExplicitMessage.issued,Transfer.load,hframe.1]
      rw [heq,decodeHeader_headerBytes]
      exact h.ready hold
    · exact List.mem_cons_self

theorem isolated_visited (h : Isolated s) {i : Fin n} {st : Status} {called : Bool} {w' : World}
    (hbusy : s.client.busy i = true) (hdue : s.due i = true)
    (hstate : (s.step l).client.state = s.client.state)
    (hsession : (s.step l).client.session = s.client.session)
    (hmoved : Transfer.Moved s.client.msg.io s.client.tcp (s.hear l.script).world
      (s.step l).client.msg.io (s.step l).client.tcp w')
    (hlog : (s.step l).world.log = visitMarks i st (s.step l).client.msg true called ++ w'.log) :
    Isolated (s.step l) := by
  have hfly := h.exclusive.msg_inFlight hbusy
  obtain ⟨hconn,hreg,hsub,hunsent⟩ := (h.message hfly).resolve_left fun hleft => by
    have hnot := wakes_false.mp hleft.2.2.2 i hbusy
    simp [hdue] at hnot
  have hlink : lastLink (s.step l).world.log = lastLink w'.log := by
    rw [hlog,visitMarks_link]
  have hfd : (lastLink w'.log).fd = (lastLink s.world.log).fd := hmoved.link_fd
  obtain ⟨new,more,hrx,hpush⟩ := hmoved.link
  have hpush' : lastLink w'.log = {lastLink s.world.log with
      sends := new ++ (lastLink s.world.log).sends,
      rcvd := (lastLink s.world.log).rcvd ++ more} := hpush
  have hnative := hmoved.native h.socket
    (fun hlt => hunsent (ExplicitMessage.unsent_iff.mpr ⟨hfly,hlt⟩)) h.native
  have hread : (s.step l).client.msg.io.rx.Sublist (lastLink w'.log).rcvd := by
    rw [hrx,hpush']
    exact hsub.append (List.Sublist.refl _)
  refine ⟨s.exclusive_step l h.exclusive,phases_step h.exclusive h.phases,?_,?_,?_,?_,?_,?_,?_⟩
  · rw [hlog]
    exact visitMarks_always _ _ (fun _ => trivial) hread hnative
  · rw [hmoved.kept.fd_eq,hlink,hfd]
    exact h.socket
  · intro hs
    exact absurd (hstate.symm.trans hs) hconn
  · intro hs
    exact absurd (hstate.symm.trans hs) hreg
  · intro hs
    rw [hlink,hpush',hsession]
    exact (h.ready (hstate.symm.trans hs)).push _ _
  · intro hs hun
    rw [hsession] at hun ⊢
    rw [hlink,hpush']
    obtain ⟨hgranted,hcommand⟩ := h.leaving (hstate.symm.trans hs) hun
    exact ⟨hgranted.push _ _,hcommand⟩
  · intro _
    rw [hlink,hstate]
    refine Or.inr ⟨hconn,hreg,hread,fun hmore => ?_⟩
    have hlt := (ExplicitMessage.unsent_iff.mp hmore).2
    rw [hmoved.tx_eq] at hlt ⊢
    rw [hpush']
    exact (hunsent (ExplicitMessage.unsent_iff.mpr
      ⟨hfly,Nat.lt_of_le_of_lt hmoved.advances hlt⟩)).push _ _

theorem isolated_step (h : Isolated s) (hg : s.crosses l = false) : Isolated (s.step l) := by
  cases s.wire_move l h.exclusive h.phases with
  | aside hgrow hmsg htcp hstate => exact isolated_aside h hgrow hmsg htcp hstate
  | issued fd mid hissues hmid hgrow hs hfd hmsg =>
    exact isolated_issued h hg hissues hmid hgrow hs hfd hmsg
  | opened deadline hold hs hsession htcp hmsg hgrow =>
    exact isolated_opened h hold hs hsession htcp hmsg hgrow
  | closes _ _ hold hs hsession htcp hmsg hlog =>
    exact isolated_closes h hold hs hsession htcp hmsg hlog
  | turned st t w w' hold hexch hw hpolled hmsg htcp hgrow hstate =>
    exact isolated_turned h hold hexch hw hpolled hmsg htcp hgrow hstate
  | loaded i service path data deadline frame _ hold hs _ hframe hmsg hsession htcp hlog =>
    exact isolated_loaded h hold hs hframe hmsg hsession htcp hlog
  | visited i st called w' hbusy hdue hstate hsession hmoved _ hlog =>
    exact isolated_visited h hbusy hdue hstate hsession hmoved hlog

theorem isolated_after (memory : Fin n → Buffer Tag.kMaxDataSize) (time : Nat) {ls : List Label}
    (hrun : Runs.Guarded step (fun s l => s.crosses l = false) (init memory time) ls) :
    Isolated (after memory time ls) :=
  Runs.invariant_run (fun _ _ h hg => isolated_step h hg)
    (show Isolated (init memory time) from
      ⟨PlcClient.exclusive_init memory time,Phases.outside (Or.inl rfl),trivial,
        fun hfd => (by cases hfd),fun _ => rfl,fun hs => (by cases hs),fun hs => (by cases hs),
        fun hs => (by cases hs),fun hfly => (by cases hfly)⟩) hrun

theorem connections_are_isolated (memory : Fin n → Buffer Tag.kMaxDataSize) (time : Nat)
    (ls : List Label)
    (hrun : Runs.Guarded step (fun s l => s.crosses l = false) (init memory time) ls) :
    let s := after memory time ls
    Trace.Always Native s.world.log ∧
    (s.client.msg.inFlight = true →
      s.client.msg.io.rx.Sublist (lastLink s.world.log).rcvd) ∧
    (s.client.state = .registering → s.client.session.state = .registering →
      s.client.session.io.rx = (lastLink s.world.log).rcvd) := by
  have h := isolated_after memory time hrun
  refine ⟨h.native,fun hfly => ?_,fun hs hreg => (h.registering hs hreg).1⟩
  rcases h.message hfly with ⟨_,hnone,_⟩ | ⟨_,_,hsub,_⟩
  · rw [hnone]
    exact List.nil_sublist _
  · exact hsub

end Config

namespace Sample

-- A second connection while a read is in flight on the first: the socket has taken none of the
-- request, and the controller gives out the handle 9.
def hotReconnect : List Label :=
  online ++ [call (.createTag tagA 1),call (.read 0 1000),
    call (.connect 1 44818 5000) {sockets := [4]},call .poll {selects := [1]},
    call .poll {sends := [.ok 28], recvs := [.ok (registerReply 9)]}] ++
    sweep {sends := [.ok 48]}

def coldReconnect : List Label :=
  online ++ [call (.createTag tagA 1),call (.connect 1 44818 5000) {sockets := [4]},
    call .poll {selects := [1]},
    call .poll {sends := [.ok 28], recvs := [.ok (registerReply 9)]},call (.read 0 1000)] ++
    sweep {sends := [.ok 48], recvs := [.ok (dataReply 1 dint)]}

theorem connections_are_isolated_coldReconnect :
    Trace.Always Native (after coldReconnect).world.log ∧
      (lastLink (after coldReconnect).world.log).sends.map
        (fun c => (decodeHeader c.frame).session) = [9,0] :=
  ⟨(Config.connections_are_isolated memory 0 coldReconnect (by decide +kernel)).1,
    by decide +kernel⟩

theorem hotReconnect_sends_stale_handle :
    let k := lastLink (after hotReconnect).world.log
    k.fd = 4 ∧ (decodeHeader k.rcvd).session = 9 ∧
      k.sends.map (fun c => (decodeHeader c.frame).session) = [7,0] ∧
        k.sends.all (fun c => c.size = c.frame.length) = true ∧ k.requests = [] := by
  decide +kernel

end Sample

end ControlLogix
