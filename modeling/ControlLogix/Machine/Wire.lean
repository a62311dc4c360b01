import ControlLogix.Eip.Link
import ControlLogix.Machine.Phases

namespace ControlLogix

def Frame.reaches : Frame → Nat → Bool
  | .scan next _, i => next ≤ i
  | .tagCallback next _, i => next ≤ i
  | .stateCallback, _ => false

def PlcClient.State.apart : PlcClient.State → Bool
  | .idle => true
  | .ethernet => true
  | .failed => true
  | _ => false

namespace PlcClient

variable {n : Nat}

theorem notify_scans (c : PlcClient n) (arg st : Status) : c.notify arg st ≠ .scans := by
  simp only [notify]
  split <;> simp

theorem poll_scans {c : PlcClient n} {w : World} (h : (c.poll w).1 = .scans) :
    c.state = .ready := by
  revert h
  simp only [poll]
  cases hs : c.state with
  | ethernet =>
    simp only [pollEthernet]
    split_ifs <;> simp
  | connecting =>
    simp only [pollConnecting]
    split_ifs <;> simp
  | registering =>
    simp only [pollRegistering]
    split_ifs <;> simp [notify_scans]
  | disconnecting =>
    simp only [pollDisconnecting]
    split_ifs <;> simp [notify_scans]
  | _ => simp

theorem finish_scans (c : PlcClient n) (disconnected : Bool) (w : World) :
    (c.finish disconnected w).1 ≠ .scans := by
  simp only [finish]
  split <;> simp [notify_scans]

end PlcClient

namespace Config

variable {n : Nat}

-- The step calls tcp_.connect.
def issues (s : Config n) (l : Label) : Bool :=
  !s.scanning && match l.act with
  | .call (.connect _ _ _) => s.client.eth.ready
  | .call .poll => s.client.state = .ethernet && s.client.wantConnect &&
      (s.client.eth.poll (s.hear l.script).world).1 = .ok
  | _ => false

def due (s : Config n) (i : Nat) : Bool := s.stack.any fun f => f.reaches i

theorem enter_due {p : Poll × PlcClient n × World} (h : p.1 ≠ .scans) (stack : List Frame)
    (i : Nat) : (enter p stack).due i = stack.any fun f => f.reaches i := by
  obtain ⟨out,c,w⟩ := p
  cases out with
  | returns => rfl
  | calls => simp [enter,due,Frame.reaches]
  | scans => exact absurd rfl h

theorem call_due (s : Config n) {op : Op} (hop : op = .poll → s.client.state ≠ .ready) (i : Nat) :
    (s.call op).due i = s.due i := by
  cases op with
  | poll => exact enter_due (fun h => hop rfl (PlcClient.poll_scans h)) _ i
  | _ => rfl

theorem advance_due (s : Config n) (i : Nat) (h : s.advance.due i = true) : s.due i = true := by
  unfold advance at h
  split at h
  · next next disconnected stack hstack =>
    rw [due,hstack,List.any_cons,Bool.or_eq_true]
    split_ifs at h with hin huse
    · simp only [visit] at h
      split at h <;>
      · simp only [due,List.any_cons,Frame.reaches,Bool.or_eq_true,decide_eq_true_eq] at h ⊢
        exact h.imp (fun hle => by omega) id
    · simp only [due,List.any_cons,Frame.reaches,Bool.or_eq_true,decide_eq_true_eq] at h ⊢
      exact h.imp (fun hle => by omega) id
    · rw [enter_due (s.client.finish_scans _ _)] at h
      exact Or.inr h
  · exact h

theorem ret_due (s : Config n) (i : Nat) (h : s.ret.due i = true) : s.due i = true := by
  unfold ret at h
  split at h
  · next next disconnected stack hstack =>
    rw [due,hstack]
    exact h
  · next stack hstack =>
    rw [due,hstack]
    simpa [due,Frame.reaches] using h
  · exact h

theorem due_step {s : Config n} {l : Label}
    (hl : l.act = .call .poll → s.client.state ≠ .ready) {i : Nat}
    (h : (s.step l).due i = true) : s.due i = true := by
  obtain ⟨a,script⟩ := l
  cases a with
  | call op =>
    simp only [step,act] at h
    split at h
    · exact h
    · rwa [call_due (s.hear script) fun hop => hl (by rw [hop])] at h
  | advance => exact (s.hear script).advance_due i h
  | ret => exact (s.hear script).ret_due i h

theorem busy_step {s : Config n} {l : Label} (hex : s.client.Exclusive s.world.log)
    (hl : s.begins l.act (s.hear l.script).world = none ∨ s.client.state ≠ .ready) {i : Fin n}
    (h : (s.step l).client.busy i = true) :
    s.client.busy i = true := by
  have hkeep {j : Fin n} {g : Tag} (hc : (s.step l).client.tags = Function.update s.client.tags j g)
      (hg : g.inFlight = true → s.client.busy j = true) : s.client.busy i = true := by
    rw [PlcClient.busy_update hc] at h
    by_cases hij : i = j
    · subst hij
      exact hg (by simpa using h)
    · simpa [hij] using h
  cases s.step_move l with
  | quiet hk _ _ => simpa [PlcClient.busy,hk.tags] using h
  | created j _ _ _ _ _ _ hc _ =>
    obtain ⟨_,_,hc⟩ := hc
    rw [hc] at h
    exact h
  | destroyed j _ _ _ _ hc _ => rw [hc] at h; exact h
  | started j _ _ _ _ _ _ ha _ hready _ _ _ _ _ _ _ _ _ =>
    rcases hl with hnone | hs
    · rw [ha] at hnone
      cases hnone
    · exact absurd hready hs
  | typed j f _ hc _ =>
    exact hkeep (j := j) (g := (s.client.tags j).set f) (by rw [hc])
      fun hg => by simpa [PlcClient.busy] using hg
  | aborted j _ hc _ =>
    exact hkeep (j := j) (g := ((s.client.tags j).abort s.client.msg).1) (by rw [hc])
      fun hg => by simp [Tag.abort,Tag.inFlight] at hg
  | visited j _ _ st g m t w' _ _ _ hpoll hc _ =>
    refine hkeep (j := j) (g := g) (by rw [hc]) fun hg => ?_
    rcases hex.poll_cases hpoll with ⟨hbusy,_⟩ | ⟨_,_,rfl,_⟩
    · exact hbusy
    · exact hg

def wakes (s : Config n) : Bool := (List.finRange n).any fun i => s.client.busy i && s.due i

theorem wakes_false {s : Config n} :
    s.wakes = false ↔ ∀ i : Fin n, s.client.busy i = true → s.due i = false := by
  simp [wakes]

theorem wakes_step {s : Config n} {l : Label} (hex : s.client.Exclusive s.world.log)
    (hl : s.begins l.act (s.hear l.script).world = none ∧ l.act ≠ .call .poll ∨
      s.client.state ≠ .ready) (h : s.wakes = false) : (s.step l).wakes = false := by
  rw [wakes_false] at h ⊢
  intro i hi
  have hnot := h i (busy_step hex (hl.imp (fun h => h.1) id) hi)
  by_contra hdue
  have hpoll : l.act = .call .poll → s.client.state ≠ .ready := fun ha =>
    hl.resolve_left fun h => h.2 ha
  rw [due_step hpoll (by simpa using hdue)] at hnot
  cases hnot

theorem issues_cases {s : Config n} {l : Label} (h : s.issues l = true) :
    (∃ ip port timeoutMs, l.act = .call (.connect ip port timeoutMs)) ∨
      l.act = .call .poll ∧ s.client.state = .ethernet := by
  simp only [issues,Bool.and_eq_true] at h
  obtain ⟨_,h⟩ := h
  split at h
  · next ha => exact Or.inl ⟨_,_,_,ha⟩
  · next ha =>
    simp only [Bool.and_eq_true,decide_eq_true_eq] at h
    exact Or.inr ⟨ha,h.1.1⟩
  · cases h

theorem issues_wakes {s : Config n} {l : Label} (hex : s.client.Exclusive s.world.log)
    (hissues : s.issues l = true) (h : s.wakes = false) : (s.step l).wakes = false := by
  refine wakes_step hex ?_ h
  rcases issues_cases hissues with ⟨ip,port,timeoutMs,ha⟩ | ⟨_,hs⟩
  · exact Or.inl ⟨by simp [begins,ha],by simp [ha]⟩
  · exact Or.inr (by simp [hs])

def Asleep (s : Config n) : Prop := s.client.state ≠ .ready ∧ s.wakes = false

theorem asleep_step {s : Config n} {l : Label} (hex : s.client.Exclusive s.world.log)
    (h : Asleep s) (hs : (s.step l).client.state ≠ .ready) : Asleep (s.step l) :=
  ⟨hs,wakes_step hex (Or.inr h.1) h.2⟩

theorem apart_kept {c c' : PlcClient n}
    (h : c'.state = c.state ∧ c'.session = c.session ∨ c'.state.apart = true)
    {st : PlcClient.State} (hst : st.apart = false) (hs : c'.state = st) :
    c.state = st ∧ c'.session = c.session := by
  rcases h with ⟨hsame,hsession⟩ | hapart
  · exact ⟨hsame.symm.trans hs,hsession⟩
  · rw [hs,hst] at hapart
    cases hapart

inductive WireMove (s : Config n) (l : Label) (s' : Config n) : Prop
  | aside : Trace.Grows (fun e => e.aside = true) s.world.log s'.world.log →
      (s'.client.msg = s.client.msg ∨ s'.client.msg.inFlight = false) →
      (s'.client.tcp.fd = s.client.tcp.fd ∨ s'.client.tcp.fd < 0) →
      (s'.client.state = s.client.state ∧ s'.client.session = s.client.session ∨
        s'.client.state.apart = true) → WireMove s l s'
  | issued (fd : Int) (mid : List Event) : s.issues l = true →
      Trace.Grows (fun e => e.aside = true) s.world.log mid →
      Trace.Grows (fun e => e.aside = true) (.connect fd :: mid) s'.world.log →
      s'.client.state = .connecting → s'.client.tcp.fd = fd →
      s'.client.msg = s.client.msg → WireMove s l s'
  | opened (deadline : UInt32) : s.client.state = .connecting → s'.client.state = .registering →
      s'.client.session = (Session.startRegister
        {s.client.session with conn := true, deadline := deadline}).2 →
      s'.client.tcp.fd = s.client.tcp.fd → s'.client.msg = s.client.msg →
      Trace.Grows (fun e => e.aside = true) s.world.log s'.world.log → WireMove s l s'
  | closes : l.act = .call .disconnect → s.scanning = false → s.client.state = .ready →
      s'.client.state = .disconnecting → s'.client.session = s.client.session.close.2 →
      s'.client.tcp = s.client.tcp → s'.client.msg = s.client.msg →
      s'.world.log = s.world.log → WireMove s l s'
  | turned (st : Status) (t : TcpConnection) (w w' : World) :
      s.client.state = .registering ∨ s.client.state = .disconnecting →
      s.client.session.exchanging = true → w.log = s.world.log →
      s.client.session.Polled s.client.tcp w st s'.client.session t w' →
      s'.client.msg = s.client.msg → (s'.client.tcp.fd = t.fd ∨ s'.client.tcp.fd < 0) →
      Trace.Grows (fun e => e.aside = true) w'.log s'.world.log →
      s'.client.state = s.client.state ∨ s'.client.state.apart = true ∨
        s.client.state = .registering ∧ st = .ok ∧ s'.client.state = .ready → WireMove s l s'
  | loaded (i : Fin n) (service : UInt8) (path data : List UInt8) (deadline : UInt32)
      (frame : List UInt8) : s.begins l.act (s.hear l.script).world = some (i.val : Int) →
      s.client.state = .ready → s'.client.state = .ready → s.client.msg.inFlight = false →
      frame = ExplicitMessage.requestFrame s.client.session.handle s.client.msg.context service
        path data ∧ Encapsulated frame →
      s'.client.msg = s.client.msg.issued frame deadline →
      s'.client.session = s.client.session → s'.client.tcp = s.client.tcp →
      s'.world.log = .started i frame :: s.world.log → WireMove s l s'
  | visited (i : Fin n) (st : Status) (called : Bool) (w' : World) : s.client.busy i = true →
      s.due i = true → s'.client.state = s.client.state → s'.client.session = s.client.session →
      Transfer.Moved s.client.msg.io s.client.tcp (s.hear l.script).world s'.client.msg.io
        s'.client.tcp w' →
      (s'.client.msg.inFlight = true → s.client.msg.io.Paced → s'.client.msg.io.Paced) →
      s'.world.log = visitMarks i st s'.client.msg true called ++ w'.log → WireMove s l s'

theorem grows_stateCallbacks {marks log : List Event}
    (h : ∀ e ∈ marks, ∃ arg, e = .stateCallback arg) :
    Trace.Grows (fun e => e.aside = true) log (marks ++ log) := by
  refine ⟨marks,rfl,fun e he => ?_⟩
  obtain ⟨arg,rfl⟩ := h e he
  rfl

theorem visitMarks_idle (i : Nat) (st : Status) (m : ExplicitMessage) (called : Bool)
    (log : List Event) : Trace.Grows (fun e => e.aside = true) log
      (visitMarks i st m false called ++ log) := by
  rw [visitMarks]
  cases called with
  | true => exact Trace.Grows.cons (K := fun e : Event => e.aside = true) rfl log
  | false => exact .refl _ _

theorem visitMarks_link (i : Nat) (st : Status) (m : ExplicitMessage) (inFlight called : Bool)
    (log : List Event) : lastLink (visitMarks i st m inFlight called ++ log) = lastLink log := by
  rw [visitMarks]
  split_ifs <;> rfl

theorem visitMarks_always {P : Event → List Event → Prop} {i : Nat} {st : Status}
    {m : ExplicitMessage} {log : List Event} (inFlight called : Bool)
    (hcall : ∀ past, P (.tagCallback i st) past)
    (hend : P (.ended i st (m.state = .done) m.io.rx) log)
    (h : Trace.Always P log) : Trace.Always P (visitMarks i st m inFlight called ++ log) := by
  rw [visitMarks]
  split_ifs
  · exact ⟨hcall _,hend,h⟩
  · exact ⟨hcall _,h⟩
  · exact ⟨hend,h⟩
  · exact h

theorem dropped_fd (t : TcpConnection) : t.dropped.fd < 0 := by
  simp only [TcpConnection.dropped]
  split
  · decide
  · omega

theorem dials_wire {s s' : Config n} {l : Label} {t : TcpConnection} {w : World} {log : List Event}
    {c : PlcClient n} (hlog : s.world.log = w.log) (hissues : s.issues l = true) {w' : World}
    (h : PlcClient.Dials t w c.tcp c.state w')
    (hgrow : Trace.Grows (fun e => e.aside = true) w'.log log)
    (hc : s'.client = c) (hl : s'.world.log = log) (hmsg : c.msg = s.client.msg) :
    WireMove s l s' := by
  subst hc hl
  generalize htcp : s'.client.tcp = tcp at h
  generalize hstate : s'.client.state = state at h
  cases h with
  | @dialed fd _ mid _ hfd htfd _ hmid hconnect =>
    refine .issued fd mid.log hissues (hlog ▸ hmid.aside) ?_ hstate (by rw [htcp,htfd]) hmsg
    rwa [hconnect] at hgrow
  | refused hw =>
    refine .aside (hlog ▸ hw.aside.trans hgrow) (Or.inl hmsg) (Or.inr ?_) (Or.inr ?_)
    · rw [htcp]
      exact dropped_fd t
    · rw [hstate]
      rfl

variable {s s' : Config n} {l : Label}

theorem session_wire {c : PlcClient n} (hph : Phases s.client) {st : Status} {t : TcpConnection}
    {w w' : World} {log : List Event}
    (hs : s.client.state = .registering ∨ s.client.state = .disconnecting)
    (hw : w.log = s.world.log) (hpoll : s.client.session.poll s.client.tcp w = (st,c.session,t,w'))
    (hmsg : c.msg = s.client.msg) (htcp : c.tcp.fd = t.fd ∨ c.tcp.fd < 0)
    (hgrow : Trace.Grows (fun e => e.aside = true) w'.log log)
    (hstate : c.state = s.client.state ∨ c.state.apart = true ∨
      s.client.state = .registering ∧ st = .ok ∧ c.state = .ready)
    (hc : s'.client = c) (hl : s'.world.log = log) : WireMove s l s' := by
  subst hc hl
  cases hexch : s.client.session.exchanging with
  | true =>
    obtain ⟨st',c',t',v,heq,hpolled⟩ := Session.poll_polled hexch s.client.tcp w
    obtain ⟨rfl,rfl,rfl,rfl⟩ : st = st' ∧ s'.client.session = c' ∧ t = t' ∧ w' = v := by
      rw [heq] at hpoll
      simpa [eq_comm] using hpoll
    exact .turned st t w w' hs hexch hw hpolled hmsg htcp hgrow hstate
  | false =>
    obtain ⟨st',heq,_,hok,_⟩ := Session.poll_still hexch s.client.tcp w
    obtain ⟨rfl,hsession,rfl,rfl⟩ :
        st = st' ∧ s'.client.session = s.client.session ∧ t = s.client.tcp ∧ w' = w := by
      rw [heq] at hpoll
      simpa [eq_comm] using hpoll
    refine .aside (hw ▸ hgrow) (Or.inl hmsg) htcp ?_
    rcases hstate with hstate | hapart | ⟨hreg,rfl,_⟩
    · exact Or.inl ⟨hstate,hsession⟩
    · exact Or.inr hapart
    · -- A session that is not exchanging is Registered only in Ready.
      have hregd := hok.mp rfl
      rcases hph.registering hreg with h | h
      · rw [h] at hregd
        cases hregd
      · rw [h] at hregd
        cases hregd

theorem pollEthernet_wire (hact : l.act = .call .poll) (hscan : s.scanning = false)
    (hs : s.client.state = .ethernet) {w : World} (hw : w = (s.hear l.script).world)
    (hmsg : (s.client.pollEthernet w).2.1.msg = s.client.msg)
    (hc : s'.client = (s.client.pollEthernet w).2.1)
    (hgrow : Trace.Grows (fun e => e.aside = true) (s.client.pollEthernet w).2.2.log s'.world.log) :
    WireMove s l s' := by
  have hlog : w.log = s.world.log := by rw [hw]; rfl
  obtain ⟨out,c',w',heq,hsession,⟨htcp,_,hstate,hhush⟩ | ⟨hwant,hok,_,hdial⟩⟩ :=
    s.client.pollEthernet_cases w
  · rw [heq] at hmsg hc hgrow
    refine .aside (hlog ▸ hhush.aside.trans hgrow) (Or.inl (by rw [hc,hmsg]))
      (Or.inl (by rw [hc,htcp])) ?_
    rw [hc]
    rcases hstate with hstate | hstate
    · exact Or.inl ⟨hstate,hsession⟩
    · exact Or.inr (by simp only [hstate]; rfl)
  · rw [heq] at hmsg hc hgrow
    refine dials_wire hlog.symm ?_ hdial hgrow hc rfl hmsg
    simp [issues,hscan,hact,hs,hwant,← hw,hok]

theorem pollConnecting_wire (hs : s.client.state = .connecting) {w : World}
    (hlog : w.log = s.world.log) (hmsg : (s.client.pollConnecting w).2.1.msg = s.client.msg)
    (hc : s'.client = (s.client.pollConnecting w).2.1)
    (hgrow : Trace.Grows (fun e => e.aside = true) (s.client.pollConnecting w).2.2.log
      s'.world.log) : WireMove s l s' := by
  obtain ⟨out,c',w',heq,_,hhush,⟨hsession,htcp⟩ | ⟨deadline,hsession,_,_,htcp,hstate⟩⟩ :=
    s.client.pollConnecting_cases w
  · rw [heq] at hmsg hc hgrow
    refine .aside (hlog ▸ hhush.aside.trans hgrow) (Or.inl (by rw [hc,hmsg])) ?_ ?_
    · rw [hc]
      rcases htcp with ⟨htcp,_⟩ | ⟨htcp | htcp,_⟩
      · exact Or.inl (by rw [htcp])
      · exact Or.inr (by rw [htcp]; decide)
      · exact Or.inl (by rw [htcp])
    · rw [hc]
      rcases htcp with ⟨_,hstate | hstate⟩ | ⟨_,hstate⟩
      · exact Or.inl ⟨hstate,hsession⟩
      · exact Or.inr (by simp only [hstate]; rfl)
      · exact Or.inr (by simp only [hstate]; rfl)
  · rw [heq] at hmsg hc hgrow
    exact .opened deadline hs (by rw [hc,hstate]) (by rw [hc,hsession]) (by rw [hc,htcp])
      (by rw [hc,hmsg]) (hlog ▸ hhush.aside.trans hgrow)

theorem pollRegistering_wire (hph : Phases s.client) (hs : s.client.state = .registering)
    {w : World} (hlog : w.log = s.world.log)
    (hmsg : (s.client.pollRegistering w).2.1.msg = s.client.msg)
    (hc : s'.client = (s.client.pollRegistering w).2.1)
    (hgrow : Trace.Grows (fun e => e.aside = true) (s.client.pollRegistering w).2.2.log
      s'.world.log) : WireMove s l s' := by
  obtain ⟨out,c',w',heq,_,⟨_,hsession,htcp,hstate,hhush⟩ | ⟨_,st,hpoll,hstate⟩⟩ :=
    s.client.pollRegistering_cases w
  · rw [heq] at hmsg hc hgrow
    exact .aside (hlog ▸ hhush.aside.trans hgrow) (Or.inl (by rw [hc,hmsg]))
      (Or.inl (by rw [hc,htcp])) (Or.inr (by rw [hc,hstate]; rfl))
  · rw [heq] at hmsg hc hgrow
    refine session_wire (w := w.millis.2) hph (Or.inl hs) hlog hpoll hmsg (Or.inl rfl) hgrow ?_ hc
      rfl
    rw [hstate]
    split_ifs with hok hbad
    · exact Or.inr (Or.inr ⟨hs,hok,rfl⟩)
    · exact Or.inr (Or.inl rfl)
    · exact Or.inl rfl

theorem pollDisconnecting_wire (hph : Phases s.client) (hs : s.client.state = .disconnecting)
    {w : World} (hlog : w.log = s.world.log)
    (hmsg : (s.client.pollDisconnecting w).2.1.msg = s.client.msg)
    (hc : s'.client = (s.client.pollDisconnecting w).2.1)
    (hgrow : Trace.Grows (fun e => e.aside = true) (s.client.pollDisconnecting w).2.2.log
      s'.world.log) : WireMove s l s' := by
  obtain ⟨out,c',w',st,t,v,heq,_,hpoll,⟨_,_,htcp,hstate,hw'⟩ | ⟨_,_,htcp,hstate,hw'⟩⟩ :=
    s.client.pollDisconnecting_cases w
  · rw [heq] at hmsg hc hgrow
    simp only [hw'] at hgrow
    exact session_wire hph (Or.inr hs) hlog hpoll hmsg (Or.inr (by rw [htcp]; decide))
      ((TcpConnection.close_hushed t v).aside.trans hgrow) (Or.inr (Or.inl (by rw [hstate]; rfl)))
      hc rfl
  · rw [heq] at hmsg hc hgrow
    simp only [hw'] at hgrow
    exact session_wire hph (Or.inr hs) hlog hpoll hmsg (Or.inl (by rw [htcp])) hgrow
      (Or.inl hstate) hc rfl

theorem poll_wire (hph : Phases s.client) (hact : l.act = .call .poll)
    (hscan : s.scanning = false) {w : World} (hw : w = (s.hear l.script).world)
    {marks : List Event} (hmarks : ∀ e ∈ marks, ∃ arg, e = .stateCallback arg)
    (hmsg : (s.client.poll w).2.1.msg = s.client.msg)
    (hc : s'.client = (s.client.poll w).2.1)
    (hl : s'.world.log = marks ++ (s.client.poll w).2.2.log) : WireMove s l s' := by
  have hgrow : Trace.Grows (fun e => e.aside = true) (s.client.poll w).2.2.log s'.world.log := by
    rw [hl]
    exact grows_stateCallbacks hmarks
  have hlog : w.log = s.world.log := by rw [hw]; rfl
  have hstill (hsame : s'.client = s.client)
      (hgrow : Trace.Grows (fun e => e.aside = true) w.log s'.world.log) : WireMove s l s' :=
    .aside (hlog ▸ hgrow) (Or.inl (by rw [hsame])) (Or.inl (by rw [hsame]))
      (Or.inl ⟨by rw [hsame],by rw [hsame]⟩)
  simp only [PlcClient.poll] at hmsg hc hgrow
  cases hs : s.client.state with
  | ethernet =>
    simp only [hs] at hmsg hc hgrow
    exact pollEthernet_wire hact hscan hs hw hmsg hc hgrow
  | connecting =>
    simp only [hs] at hmsg hc hgrow
    exact pollConnecting_wire hs hlog hmsg hc hgrow
  | registering =>
    simp only [hs] at hmsg hc hgrow
    exact pollRegistering_wire hph hs hlog hmsg hc hgrow
  | disconnecting =>
    simp only [hs] at hmsg hc hgrow
    exact pollDisconnecting_wire hph hs hlog hmsg hc hgrow
  | ready | failed | idle =>
    simp only [hs] at hc hgrow
    exact hstill hc hgrow

theorem conn_wire (hph : Phases s.client) (hscan : ∀ op, l.act = .call op → s.scanning = false)
    (hk : PlcClient.TagsKept s.client s'.client)
    (hconn : ConnMove s.client l.act (s.hear l.script).world s'.client s'.world.log) :
    WireMove s l s' := by
  have hgone : ({} : TcpConnection).fd < 0 := by decide
  cases hconn with
  | still hstate hsession htcp _ hlog =>
    exact .aside (by rw [hlog]; exact .refl _ _) (Or.inl hk.msg) (Or.inl (by rw [htcp]))
      (Or.inl ⟨hstate,hsession⟩)
  | begun _ hc hlog =>
    refine .aside ?_ (Or.inl hk.msg) (Or.inl (by rw [hc]; rfl)) (Or.inr (by rw [hc]; rfl))
    rw [hlog]
    exact (s.client.eth.begin_hushed (s.hear l.script).world).aside
  | connected ip port timeoutMs ha hc hlog =>
    obtain ⟨st,c',w',heq,⟨_,hsession,htcp,hstate,hw⟩ | ⟨hready,_,_,hdial⟩⟩ :=
      s.client.connect_cases ip port timeoutMs (s.hear l.script).world
    · rw [heq] at hc hlog
      refine .aside ?_ (Or.inl hk.msg) (Or.inl (by rw [hc,htcp])) (Or.inr (by rw [hc,hstate]; rfl))
      rw [hlog,hw]
      exact .refl _ _
    · rw [heq] at hc hlog
      have hmsg := hk.msg
      rw [hc] at hmsg
      refine dials_wire (by rfl) ?_ hdial (by rw [hlog]; exact .refl _ _) hc rfl hmsg
      simp [issues,hscan _ ha,ha,hready]
  | disconnected ha hc hlog =>
    simp only [PlcClient.disconnect] at hc hlog
    split at hc
    · next hready =>
      rw [if_pos hready] at hlog
      exact .closes ha (hscan _ ha) hready (by rw [hc]) (by rw [hc]) (by rw [hc]) (by rw [hc]) hlog
    · next hready =>
      rw [if_neg hready] at hlog
      refine .aside ?_ (Or.inl hk.msg) (Or.inr (by rw [hc]; exact hgone))
        (Or.inr (by rw [hc]; rfl))
      rw [hlog]
      exact (s.client.tcp.close_hushed (s.hear l.script).world).aside
  | polled marks ha hc hmarks hlog =>
    exact poll_wire hph ha (hscan _ ha) rfl hmarks (hc ▸ hk.msg) hc hlog
  | finished marks _ hc hmarks hlog =>
    refine .aside ?_ (Or.inl hk.msg) (Or.inr (by rw [hc]; exact hgone))
        (Or.inr (by rw [hc]; rfl))
    rw [hlog]
    exact (s.client.tcp.close_hushed (s.hear l.script).world).aside.trans
      (grows_stateCallbacks hmarks)

theorem visit_wire (hex : s.client.Exclusive s.world.log) {i : Fin n} {disconnected : Bool}
    {stack : List Frame} {st : Status} {g : Tag} {m : ExplicitMessage} {t : TcpConnection}
    {w' : World} {called : Bool} (hstack : s.stack = .scan i disconnected :: stack)
    (hpoll : (s.client.tags i).poll s.client.msg s.client.tcp (s.hear l.script).world =
      (st,g,m,t,w'))
    (hc : s'.client = {s.client with
      tags := Function.update s.client.tags i g, msg := m, tcp := t,
      tagPrevStatus := Function.update s.client.tagPrevStatus i st})
    (hlog : s'.world.log = visitMarks i st m (s.client.tags i).inFlight called ++ w'.log) :
    WireMove s l s' := by
  rcases hex.poll_cases hpoll with ⟨hbusy,_,hpolled⟩ | ⟨hidle,_,_,rfl,rfl,rfl⟩
  · have hfly : (s.client.tags i).inFlight = true := hbusy
    refine .visited i st called w' hbusy ?_ (by rw [hc]) (by rw [hc]) ?_ ?_ ?_
    · simp [due,hstack,Frame.reaches]
    · rw [hc]
      exact hex.poll_moved hpoll
    · rw [hc]
      exact hpolled.paced
    · rw [hlog,hc,hfly]
  · have hfly : (s.client.tags i).inFlight = false := hidle
    refine .aside ?_ (Or.inl (by rw [hc])) (Or.inl (by rw [hc])) (Or.inl ⟨by rw [hc],by rw [hc]⟩)
    rw [hlog,hfly]
    exact visitMarks_idle _ _ _ _ _

theorem wire_move (s : Config n) (l : Label) (hex : s.client.Exclusive s.world.log)
    (hph : Phases s.client) : WireMove s l (s.step l) := by
  have hnone {log : List Event} (h : log = s.world.log) :
      Trace.Grows (fun e => e.aside = true) s.world.log log := by rw [h]; exact .refl _ _
  by_cases hheld : ∃ op, l.act = .call op ∧ s.scanning = true
  · obtain ⟨op,ha,hscan⟩ := hheld
    have hstep : s.step l = s.hear l.script := by
      have hheard : (s.hear l.script).scanning = true := hscan
      simp [step,act,ha,hheard]
    rw [hstep]
    exact .aside (.refl _ _) (Or.inl rfl) (Or.inl rfl) (Or.inl ⟨rfl,rfl⟩)
  have hscan : ∀ op, l.act = .call op → s.scanning = false := fun op ha => by
    by_contra h
    exact hheld ⟨op,ha,by simpa using h⟩
  cases s.step_move l with
  | quiet hk _ hconn => exact conn_wire hph hscan hk hconn
  | created i _ _ _ _ _ _ hc hlog =>
    obtain ⟨_,_,hc⟩ := hc
    refine .aside ?_ (Or.inl (by rw [hc])) (Or.inl (by rw [hc])) (Or.inl ⟨by rw [hc],by rw [hc]⟩)
    rw [hlog]
    exact Trace.Grows.cons (K := fun e : Event => e.aside = true) rfl _
  | destroyed i _ _ _ _ hc hlog =>
    exact .aside (hnone hlog) (Or.inl (by rw [hc])) (Or.inl (by rw [hc]))
      (Or.inl ⟨by rw [hc],by rw [hc]⟩)
  | started i g service path data deadline frame ha _ hready _ _ hm _ _ _ hframe hc hlog =>
    exact .loaded i service path data deadline frame ha hready (by rw [hc]; exact hready) hm hframe
      (by rw [hc]) (by rw [hc]) (by rw [hc]) hlog
  | typed i f _ hc hlog =>
    refine .aside ?_ (Or.inl (by rw [hc])) (Or.inl (by rw [hc])) (Or.inl ⟨by rw [hc],by rw [hc]⟩)
    rw [hlog]
    split
    · exact Trace.Grows.cons (K := fun e : Event => e.aside = true) rfl _
    · exact .refl _ _
  | aborted i _ hc hlog =>
    refine .aside ?_ ?_ (Or.inl (by rw [hc])) (Or.inl ⟨by rw [hc],by rw [hc]⟩)
    · rw [hlog]
      split
      · exact Trace.Grows.cons (K := fun e : Event => e.aside = true) rfl _
      · exact .refl _ _
    · rw [hc]
      simp only [Tag.abort]
      split
      · exact Or.inr rfl
      · exact Or.inl rfl
  | visited i _ _ st g m t w' _ hstack _ hpoll hc hlog =>
    exact visit_wire hex hstack hpoll hc hlog

end Config

end ControlLogix
