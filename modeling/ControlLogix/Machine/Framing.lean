import ControlLogix.Machine.Wire

namespace ControlLogix

-- Every piece written belongs to a whole packet, goes to the socket last asked for, and begins a
-- packet only where the one before it was written to its end.
def OnWire : Event → List Event → Prop
  | .send fd chunk, past => (lastLink past).fd = fd ∧ Encapsulated chunk.frame ∧
      Writes.Framed (chunk :: (lastLink past).sends)
  | _, _ => True

theorem onWire_aside {e : Event} (h : e.aside = true) (log : List Event) : OnWire e log := by
  cases e <;> simp_all [Event.aside,Event.wire,OnWire]

theorem framed_of_onWire {log : List Event} (h : Trace.Always OnWire log) :
    Writes.Framed (lastLink log).sends ∧ ∀ c ∈ (lastLink log).sends, Encapsulated c.frame := by
  induction log with
  | nil => exact ⟨trivial,by simp [lastLink]⟩
  | cons e log ih =>
    obtain ⟨he,hlog⟩ := h
    cases e with
    | connect fd => exact ⟨trivial,by simp [lastLink]⟩
    | send fd chunk => exact ⟨he.2.2,List.forall_mem_cons.mpr ⟨he.2.1,(ih hlog).2⟩⟩
    | _ => exact ih hlog

namespace Transfer

variable {x x' : Transfer} {t t' : TcpConnection} {w w' : World}

theorem Moved.onWire (h : Moved x t w x' t' w')
    (hfd : 0 ≤ t.fd → (lastLink w.log).fd = t.fd)
    (hx : x.txSent < x.tx.length → Encapsulated x.tx ∧
      Writes.Aligned x.tx x.txSent (lastLink w.log).sends)
    (hw : Trace.Always OnWire w.log) : Trace.Always OnWire w'.log := by
  rcases h.talks with hlive | ⟨_,_,hlog⟩
  · obtain ⟨mid,hsent,hgot,_⟩ := h.traffic
    refine hgot.always (fun _ _ _ _ => trivial) (hsent.always (fun k m past hm hle hs hp => ?_) hw)
    have hmore : x.txSent < x.tx.length := by
      have := hs.le.1
      omega
    obtain ⟨new,hnew⟩ := hs.link
    exact ⟨by rw [hnew]; exact hfd hlive.1,(hx hmore).1,
      (framed_of_onWire hp).1.push (hs.aligned (hx hmore).2) hm hle⟩
  · rw [hlog]
    exact hw

theorem Moved.aligned (h : Moved x t w x' t' w')
    (hx : Writes.Aligned x.tx x.txSent (lastLink w.log).sends) :
    Writes.Aligned x.tx x'.txSent (lastLink w'.log).sends := by
  obtain ⟨mid,hsent,hgot,_⟩ := h.traffic
  obtain ⟨more,_,hlink⟩ := hgot.link
  rw [hlink]
  exact hsent.aligned hx

theorem Moved.silent (h : Moved x t w x' t' w') (hall : x.tx.length ≤ x.txSent) :
    (lastLink w'.log).sends = (lastLink w.log).sends := by
  obtain ⟨mid,hsent,hgot,_⟩ := h.traffic
  obtain ⟨more,_,hlink⟩ := hgot.link
  rw [hlink]
  generalize x'.txSent = b at hsent
  cases hsent with
  | refl => rfl
  | step hs hn hle =>
    have := hs.le.1
    omega

end Transfer

namespace Config

variable {n : Nat}

-- The last packet begun on the connection was not written to its end.
def midFrame (s : Config n) : Bool := !decide (Writes.Settled (lastLink s.world.log).sends)

-- A second packet may come between the pieces of a first: an operation or the UnregisterSession is
-- begun behind a packet that is not finished, or a request that is not wholly written stays with
-- the message while the connection passes to someone else.
def tangles (s : Config n) (l : Label) : Bool :=
  match l.act with
  | .call .disconnect => !s.scanning && s.client.state = .ready &&
      (s.midFrame || s.client.msg.unsent && s.wakes)
  | _ => (s.begins l.act (s.hear l.script).world).isSome && s.midFrame ||
      s.issues l && s.client.msg.unsent && (0 < s.client.msg.io.txSent || s.wakes)

structure Framing (s : Config n) : Prop where
  exclusive : s.client.Exclusive s.world.log
  phases : Phases s.client
  wire : Trace.Always OnWire s.world.log
  socket : 0 ≤ s.client.tcp.fd → (lastLink s.world.log).fd = s.client.tcp.fd
  connecting : s.client.state = .connecting → (lastLink s.world.log).sends = []
  session : s.client.state = .registering ∨ s.client.state = .disconnecting →
    s.client.session.exchanging = true → Encapsulated s.client.session.io.tx ∧
      Writes.Aligned s.client.session.io.tx s.client.session.io.txSent (lastLink s.world.log).sends
  request : s.client.msg.inFlight = true → Encapsulated s.client.msg.io.tx
  message : s.client.msg.unsent = true → s.client.msg.io.txSent = 0 ∧ Asleep s ∨
    (s.client.state.apart = true ∨ s.client.state = .ready) ∧
      Writes.Aligned s.client.msg.io.tx s.client.msg.io.txSent (lastLink s.world.log).sends

variable {s : Config n} {l : Label}

theorem not_midFrame (h : s.midFrame = false) :
    Writes.Settled (lastLink s.world.log).sends := by
  simpa [midFrame] using h

theorem framing_aside (h : Framing s)
    (hgrow : Trace.Grows (fun e => e.aside = true) s.world.log (s.step l).world.log)
    (hmsg : (s.step l).client.msg = s.client.msg ∨ (s.step l).client.msg.inFlight = false)
    (htcp : (s.step l).client.tcp.fd = s.client.tcp.fd ∨ (s.step l).client.tcp.fd < 0)
    (hstate : (s.step l).client.state = s.client.state ∧
        (s.step l).client.session = s.client.session ∨ (s.step l).client.state.apart = true) :
    Framing (s.step l) := by
  have hlink := link_grows hgrow
  refine ⟨s.exclusive_step l h.exclusive,phases_step h.exclusive h.phases,
    hgrow.always (fun e he es => onWire_aside he es) h.wire,?_,?_,?_,?_,?_⟩
  · exact socket_kept h.socket (by rw [hlink]) htcp
  · intro hs
    rw [hlink]
    exact h.connecting (apart_kept hstate rfl hs).1
  · intro hs hexch
    obtain ⟨hs',hsession⟩ : (s.client.state = .registering ∨ s.client.state = .disconnecting) ∧
        (s.step l).client.session = s.client.session := by
      rcases hs with hs | hs
      · exact ⟨Or.inl (apart_kept hstate rfl hs).1,(apart_kept hstate rfl hs).2⟩
      · exact ⟨Or.inr (apart_kept hstate rfl hs).1,(apart_kept hstate rfl hs).2⟩
    rw [hsession] at hexch ⊢
    rw [hlink]
    exact h.session hs' hexch
  · intro hfly
    rcases hmsg with hsame | hnone
    · rw [hsame] at hfly ⊢
      exact h.request hfly
    · simp [hnone] at hfly
  · intro hunsent
    rcases hmsg with hsame | hnone
    · rw [hsame] at hunsent ⊢
      rw [hlink]
      rcases h.message hunsent with ⟨hzero,hasleep⟩ | ⟨hs,haligned⟩
      · refine Or.inl ⟨hzero,asleep_step h.exclusive hasleep ?_⟩
        intro hready
        exact hasleep.1 (apart_kept hstate rfl hready).1
      · refine Or.inr ⟨?_,haligned⟩
        rcases hstate with ⟨hsame,_⟩ | hapart
        · rw [hsame]
          exact hs
        · exact Or.inl hapart
    · simp [ExplicitMessage.unsent,hnone] at hunsent

theorem framing_issued (h : Framing s) (hg : s.tangles l = false) {fd : Int} {mid : List Event}
    (hissues : s.issues l = true)
    (hmid : Trace.Grows (fun e => e.aside = true) s.world.log mid)
    (hgrow : Trace.Grows (fun e => e.aside = true) (.connect fd :: mid) (s.step l).world.log)
    (hs : (s.step l).client.state = .connecting) (hfd : (s.step l).client.tcp.fd = fd)
    (hmsg : (s.step l).client.msg = s.client.msg) : Framing (s.step l) := by
  have hlink : lastLink (s.step l).world.log = {fd := fd} := link_grows hgrow
  refine ⟨s.exclusive_step l h.exclusive,phases_step h.exclusive h.phases,?_,?_,?_,?_,?_,?_⟩
  · refine hgrow.always (fun e he es => onWire_aside he es) ⟨trivial,?_⟩
    exact hmid.always (fun e he es => onWire_aside he es) h.wire
  · intro _
    rw [hlink,hfd]
  · intro _
    rw [hlink]
  · intro hne
    rcases hne with hne | hne <;> simp [hs] at hne
  · rw [hmsg]
    exact h.request
  · intro hunsent
    rw [hmsg] at hunsent ⊢
    have hcut : s.client.msg.io.txSent = 0 ∧ s.wakes = false := by
      rcases issues_cases hissues with ⟨ip,port,timeoutMs,ha⟩ | ⟨ha,_⟩
      · simp only [tangles,ha,hissues,hunsent,Bool.or_eq_false_iff] at hg
        simpa using hg.2
      · simp only [tangles,ha,hissues,hunsent,Bool.or_eq_false_iff] at hg
        simpa using hg.2
    exact Or.inl ⟨hcut.1,by rw [hs]; simp,issues_wakes h.exclusive hissues hcut.2⟩

theorem framing_opened (h : Framing s) {deadline : UInt32} (hold : s.client.state = .connecting)
    (hs : (s.step l).client.state = .registering)
    (hsession : (s.step l).client.session = (Session.startRegister
      {s.client.session with conn := true, deadline := deadline}).2)
    (htcp : (s.step l).client.tcp.fd = s.client.tcp.fd)
    (hmsg : (s.step l).client.msg = s.client.msg)
    (hgrow : Trace.Grows (fun e => e.aside = true) s.world.log (s.step l).world.log) :
    Framing (s.step l) := by
  have hlink := link_grows hgrow
  refine ⟨s.exclusive_step l h.exclusive,phases_step h.exclusive h.phases,
    hgrow.always (fun e he es => onWire_aside he es) h.wire,?_,?_,?_,?_,?_⟩
  · rw [hlink,htcp]
    exact h.socket
  · intro hne
    simp [hs] at hne
  · intro _ _
    rw [hlink,h.connecting hold,hsession]
    exact ⟨Session.registerFrame_encapsulated _,Or.inl ⟨rfl,trivial⟩⟩
  · rw [hmsg]
    exact h.request
  · intro hunsent
    rw [hmsg] at hunsent ⊢
    rcases h.message hunsent with ⟨hzero,hasleep⟩ | ⟨hne | hne,_⟩
    · exact Or.inl ⟨hzero,asleep_step h.exclusive hasleep (by simp [hs])⟩
    · rw [hold] at hne
      cases hne
    · rw [hold] at hne
      cases hne

theorem framing_closes (h : Framing s) (hg : s.tangles l = false) (ha : l.act = .call .disconnect)
    (hscan : s.scanning = false) (hold : s.client.state = .ready)
    (hs : (s.step l).client.state = .disconnecting)
    (hsession : (s.step l).client.session = s.client.session.close.2)
    (htcp : (s.step l).client.tcp = s.client.tcp) (hmsg : (s.step l).client.msg = s.client.msg)
    (hlog : (s.step l).world.log = s.world.log) : Framing (s.step l) := by
  have hcut : s.midFrame = false ∧ (s.client.msg.unsent = true → s.wakes = false) := by
    simp only [tangles,ha,hscan,hold] at hg
    simpa using hg
  have hset := not_midFrame hcut.1
  refine ⟨s.exclusive_step l h.exclusive,phases_step h.exclusive h.phases,by rw [hlog]; exact h.wire,
    ?_,?_,?_,?_,?_⟩
  · rw [hlog,htcp]
    exact h.socket
  · intro hne
    simp [hs] at hne
  · intro _ _
    have hclose : s.client.session.close.2 = s.client.session.startUnregister.2 := by
      simp [Session.close,h.phases.ready hold]
    rw [hlog,hsession,hclose]
    exact ⟨Session.unregisterFrame_encapsulated _ _,Or.inl ⟨rfl,hset⟩⟩
  · rw [hmsg]
    exact h.request
  · intro hunsent
    rw [hmsg] at hunsent ⊢
    have hwakes := wakes_step (l := l) h.exclusive (Or.inl ⟨by simp [begins,ha],by simp [ha]⟩)
      (hcut.2 hunsent)
    rcases h.message hunsent with ⟨hzero,_⟩ | ⟨_,haligned⟩
    · exact Or.inl ⟨hzero,by simp [hs],hwakes⟩
    · exact Or.inl ⟨haligned.unbegun (ExplicitMessage.unsent_iff.mp hunsent).2 hset,by simp [hs],
        hwakes⟩

theorem framing_turned (h : Framing s) {st : Status} {t : TcpConnection} {w w' : World}
    (hold : s.client.state = .registering ∨ s.client.state = .disconnecting)
    (hexch : s.client.session.exchanging = true) (hw : w.log = s.world.log)
    (hpolled : s.client.session.Polled s.client.tcp w st (s.step l).client.session t w')
    (hmsg : (s.step l).client.msg = s.client.msg)
    (htcp : (s.step l).client.tcp.fd = t.fd ∨ (s.step l).client.tcp.fd < 0)
    (hgrow : Trace.Grows (fun e => e.aside = true) w'.log (s.step l).world.log)
    (hstate : (s.step l).client.state = s.client.state ∨ (s.step l).client.state.apart = true ∨
      s.client.state = .registering ∧ st = .ok ∧ (s.step l).client.state = .ready) :
    Framing (s.step l) := by
  have hmoved := hpolled.io
  obtain ⟨hbox,haligned⟩ := h.session hold hexch
  rw [← hw] at haligned
  have hwire := hmoved.onWire (by rw [hw]; exact h.socket) (fun _ => ⟨hbox,haligned⟩)
    (by rw [hw]; exact h.wire)
  have haligned' := hmoved.aligned haligned
  have hlink := link_grows hgrow
  have hfd : (lastLink w'.log).fd = (lastLink s.world.log).fd := by rw [hmoved.link_fd,hw]
  refine ⟨s.exclusive_step l h.exclusive,phases_step h.exclusive h.phases,
    hgrow.always (fun e he es => onWire_aside he es) hwire,?_,?_,?_,?_,?_⟩
  · exact socket_kept h.socket (by rw [hlink,hfd]) (hmoved.kept.fd_eq ▸ htcp)
  · intro hs
    rcases hstate with hsame | hapart | ⟨_,_,hready⟩
    · rw [hs] at hsame
      rcases hold with hold | hold <;> rw [hold] at hsame <;> cases hsame
    · simp [hs,PlcClient.State.apart] at hapart
    · rw [hs] at hready
      cases hready
  · intro _ _
    rw [hmoved.tx_eq,hlink]
    exact ⟨hbox,haligned'⟩
  · rw [hmsg]
    exact h.request
  · intro hunsent
    rw [hmsg] at hunsent ⊢
    obtain ⟨hzero,hasleep⟩ : s.client.msg.io.txSent = 0 ∧ Asleep s := by
      rcases h.message hunsent with hleft | ⟨hne | hne,_⟩
      · exact hleft
      · rcases hold with hold | hold <;> rw [hold] at hne <;> cases hne
      · rcases hold with hold | hold <;> rw [hold] at hne <;> cases hne
    rcases hstate with hsame | hapart | ⟨_,hok,hready⟩
    · exact Or.inl ⟨hzero,asleep_step h.exclusive hasleep (by rw [hsame]; exact hasleep.1)⟩
    · refine Or.inl ⟨hzero,asleep_step h.exclusive hasleep fun hready => ?_⟩
      simp [hready,PlcClient.State.apart] at hapart
    · -- The client is Ready once the RegisterSession is written to its end.
      refine Or.inr ⟨Or.inr hready,Or.inl ⟨hzero,?_⟩⟩
      rw [hlink]
      exact (framed_of_onWire hwire).1.settled haligned' (hpolled.sent hok)

theorem framing_loaded (h : Framing s) (hg : s.tangles l = false) {i : Fin n} {service : UInt8}
    {path data : List UInt8} {deadline : UInt32} {frame : List UInt8}
    (hbegins : s.begins l.act (s.hear l.script).world = some (i.val : Int))
    (hs : (s.step l).client.state = .ready)
    (hframe : frame = ExplicitMessage.requestFrame s.client.session.handle s.client.msg.context
      service path data ∧ Encapsulated frame)
    (hmsg : (s.step l).client.msg = s.client.msg.issued frame deadline)
    (htcp : (s.step l).client.tcp = s.client.tcp)
    (hlog : (s.step l).world.log = .started i frame :: s.world.log) : Framing (s.step l) := by
  have hset : Writes.Settled (lastLink s.world.log).sends := by
    apply not_midFrame
    revert hg
    simp only [tangles]
    split
    · next ha => simp [begins,ha] at hbegins
    · simp only [hbegins,Bool.or_eq_false_iff]
      intro hg
      simpa using hg.1
  refine ⟨s.exclusive_step l h.exclusive,phases_step h.exclusive h.phases,
    by rw [hlog]; exact ⟨trivial,h.wire⟩,?_,?_,?_,?_,?_⟩
  · rw [hlog,htcp]
    exact h.socket
  · intro hne
    simp [hs] at hne
  · intro hne
    rcases hne with hne | hne <;> simp [hs] at hne
  · intro _
    rw [hmsg]
    exact hframe.2
  · intro _
    rw [hmsg,hlog]
    exact Or.inr ⟨Or.inr hs,Or.inl ⟨rfl,hset⟩⟩

theorem framing_visited (h : Framing s) {i : Fin n} {st : Status} {called : Bool} {w' : World}
    (hbusy : s.client.busy i = true) (hdue : s.due i = true)
    (hstate : (s.step l).client.state = s.client.state)
    (hsession : (s.step l).client.session = s.client.session)
    (hmoved : Transfer.Moved s.client.msg.io s.client.tcp (s.hear l.script).world
      (s.step l).client.msg.io (s.step l).client.tcp w')
    (hlog : (s.step l).world.log = visitMarks i st (s.step l).client.msg true called ++ w'.log) :
    Framing (s.step l) := by
  have hfly := h.exclusive.msg_inFlight hbusy
  have hawake {P : Prop} (hasleep : Asleep s) : P := by
    have hnot := wakes_false.mp hasleep.2 i hbusy
    simp [hdue] at hnot
  have hmore (hlt : s.client.msg.io.txSent < s.client.msg.io.tx.length) :
      (s.client.state.apart = true ∨ s.client.state = .ready) ∧
        Writes.Aligned s.client.msg.io.tx s.client.msg.io.txSent (lastLink s.world.log).sends :=
    (h.message (ExplicitMessage.unsent_iff.mpr ⟨hfly,hlt⟩)).resolve_left fun hleft => hawake hleft.2
  have hwire := hmoved.onWire h.socket (fun hlt => ⟨h.request hfly,(hmore hlt).2⟩) h.wire
  have hlink : lastLink (s.step l).world.log = lastLink w'.log := by
    rw [hlog,visitMarks_link]
  have hfd : (lastLink w'.log).fd = (lastLink s.world.log).fd := hmoved.link_fd
  have hsilent (hs : s.client.state.apart = false ∧ s.client.state ≠ .ready) :
      (lastLink (s.step l).world.log).sends = (lastLink s.world.log).sends := by
    rw [hlink]
    refine hmoved.silent (Nat.le_of_not_lt fun hlt => ?_)
    rcases (hmore hlt).1 with hapart | hready
    · simp [hs.1] at hapart
    · exact hs.2 hready
  refine ⟨s.exclusive_step l h.exclusive,phases_step h.exclusive h.phases,
    by rw [hlog]; exact visitMarks_always _ _ (fun _ => trivial) trivial hwire,?_,?_,?_,?_,?_⟩
  · rw [hmoved.kept.fd_eq,hlink,hfd]
    exact h.socket
  · intro hs
    rw [hstate] at hs
    rw [hsilent (by simp [hs,PlcClient.State.apart])]
    exact h.connecting hs
  · intro hs hexch
    rw [hstate] at hs
    rw [hsession] at hexch ⊢
    rw [hsilent (by rcases hs with hs | hs <;> simp [hs,PlcClient.State.apart])]
    exact h.session hs hexch
  · intro _
    rw [hmoved.tx_eq]
    exact h.request hfly
  · intro hunsent
    rw [hmoved.tx_eq,hlink,hstate]
    have hlt : s.client.msg.io.txSent < s.client.msg.io.tx.length := by
      have hlt' := (ExplicitMessage.unsent_iff.mp hunsent).2
      rw [hmoved.tx_eq] at hlt'
      exact Nat.lt_of_le_of_lt hmoved.advances hlt'
    exact Or.inr ⟨(hmore hlt).1,hmoved.aligned (hmore hlt).2⟩

theorem framing_step (h : Framing s) (hg : s.tangles l = false) : Framing (s.step l) := by
  cases s.wire_move l h.exclusive h.phases with
  | aside hgrow hmsg htcp hstate => exact framing_aside h hgrow hmsg htcp hstate
  | issued fd mid hissues hmid hgrow hs hfd hmsg =>
    exact framing_issued h hg hissues hmid hgrow hs hfd hmsg
  | opened deadline hold hs hsession htcp hmsg hgrow =>
    exact framing_opened h hold hs hsession htcp hmsg hgrow
  | closes ha hscan hold hs hsession htcp hmsg hlog =>
    exact framing_closes h hg ha hscan hold hs hsession htcp hmsg hlog
  | turned st t w w' hold hexch hw hpolled hmsg htcp hgrow hstate =>
    exact framing_turned h hold hexch hw hpolled hmsg htcp hgrow hstate
  | loaded i service path data deadline frame hbegins _ hs _ hframe hmsg _ htcp hlog =>
    exact framing_loaded h hg hbegins hs hframe hmsg htcp hlog
  | visited i st called w' hbusy hdue hstate hsession hmoved _ hlog =>
    exact framing_visited h hbusy hdue hstate hsession hmoved hlog

theorem framing_after (memory : Fin n → Buffer Tag.kMaxDataSize) (time : Nat) {ls : List Label}
    (hrun : Runs.Guarded step (fun s l => s.tangles l = false) (init memory time) ls) :
    Framing (after memory time ls) :=
  Runs.invariant_run (fun _ _ h hg => framing_step h hg)
    (show Framing (init memory time) from
      ⟨PlcClient.exclusive_init memory time,Phases.outside (Or.inl rfl),trivial,
        fun hfd => (by cases hfd),fun _ => rfl,fun hs => (by rcases hs with hs | hs <;> cases hs),
        fun hfly => (by cases hfly),fun hunsent => (by cases hunsent)⟩) hrun

structure Whole (sends : List (Writes.Chunk UInt8)) : Prop where
  written : Writes.written sends = (Writes.frames sends).flatten ++ Writes.rest sends
  frames : ∀ f ∈ Writes.frames sends, Encapsulated f
  rest : Writes.rest sends = [] ∨
    ∃ f, Encapsulated f ∧ Writes.rest sends <+: f ∧ (Writes.rest sends).length < f.length

theorem whole_of_onWire {log : List Event} (h : Trace.Always OnWire log) :
    Whole (lastLink log).sends := by
  obtain ⟨hframed,hbox⟩ := framed_of_onWire h
  refine ⟨hframed.written_eq,fun f hf => ?_,?_⟩
  · obtain ⟨c,hc,rfl⟩ := Writes.frames_mem hf
    exact hbox c hc
  · rcases hframed.rest_proper with hnone | ⟨c,hc,hcopy,hlt⟩
    · exact Or.inl hnone
    · exact Or.inr ⟨c.frame,hbox c hc,hcopy,hlt⟩

theorem frames_are_whole (memory : Fin n → Buffer Tag.kMaxDataSize) (time : Nat)
    (ls : List Label)
    (hrun : Runs.Guarded step (fun s l => s.tangles l = false) (init memory time) ls) :
    let s := after memory time ls
    Trace.Always OnWire s.world.log ∧
      ∀ past, past <:+ s.world.log → Whole (lastLink past).sends := by
  have h := (framing_after memory time hrun).wire
  exact ⟨h,fun past hpast => whole_of_onWire (h.suffix hpast)⟩

end Config

namespace Sample

-- A request that the socket takes in two pieces, and a disconnect once it is answered.
def pieces : List Label :=
  online ++ [call (.createTag tagA 1),call (.read 0 1000)] ++ sweep {sends := [.ok 10]} ++
    sweep {sends := [.ok 38], recvs := [.ok (dataReply 1 dint)]} ++
    [call .disconnect,call .poll {sends := [.ok 24]}]

-- A read given up when 10 of its 48 bytes are written, and another behind it.
def givenUp : List Label :=
  online ++ [call (.createTag tagA 1),call (.read 0 1000)] ++ sweep {sends := [.ok 10]} ++
    [call (.abortTag 0),call (.read 0 1000)] ++ sweep {sends := [.ok 48]}

theorem frames_are_whole_pieces :
    Trace.Always OnWire (after pieces).world.log ∧
      (Writes.frames (lastLink (after pieces).world.log).sends).length = 3 :=
  ⟨(Config.frames_are_whole memory 0 pieces (by decide +kernel)).1,by decide +kernel⟩

theorem givenUp_mixes_frames :
    let sends := (lastLink (after givenUp).world.log).sends
    ¬ Writes.Framed sends ∧ sends.map (fun c => (c.off,c.size,c.frame.length)) =
      [(0,48,48),(0,10,48),(0,28,28)] := by
  decide +kernel

end Sample

end ControlLogix
