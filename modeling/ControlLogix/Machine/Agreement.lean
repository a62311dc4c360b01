import ControlLogix.Machine.Callbacks
import ControlLogix.Machine.Pool
import ControlLogix.Machine.Wire
import ControlLogix.Server.Synced

namespace ControlLogix

open SyntheticServer (Name TagValue)

namespace PlcClient

variable {n : Nat}

def underway (c : PlcClient n) (i : Fin n) (a : Access) (deadline : UInt32) : PlcClient n :=
  {c with tags := Function.update c.tags i a.flying,
          msg := c.msg.issued (a.request.frame a.sessionHandle c.msg.context) deadline}

def operate (c : PlcClient n) (i : Fin n) (a : Access) (w : World) :
    Status × PlcClient n × World :=
  if c.state ≠ .ready then (.notReady,c,w)
  else if c.anyTagBusy then (.busy,c,w)
  else
    let (st,tag,msg,w) := a.start c.msg c.tcp w
    (st,{c with tags := Function.update c.tags i tag, msg := msg},w)

variable {c : PlcClient n} {handle : Int} {i : Fin n} {timeoutMs : UInt32} {w : World}

theorem read_operates (h : c.validHandle handle = some i) :
    c.read handle timeoutMs w = c.operate i (c.access i .read timeoutMs) w := by
  simp only [read,h]
  rfl

theorem write_operates (h : c.validHandle handle = some i) :
    c.write handle timeoutMs w = c.operate i (c.access i .write timeoutMs) w := by
  simp only [write,h]
  rfl

theorem operate_pending {a : Access} (h : (c.operate i a w).1 = .pending) :
    a.name.length ≤ kMaxSymbolicName ∧
      (a.kind = .write → ∃ len, a.tag.writeLength a.elementCount = some len) ∧
      (∃ deadline, (c.operate i a w).2.1 = c.underway i a deadline) ∧
        (c.operate i a w).2.2.log = w.log := by
  rw [operate] at h ⊢
  split_ifs at h ⊢ with hready hbusy
  have hbegun := a.start_begun c.msg c.tcp w
  generalize a.start c.msg c.tcp w = r at hbegun h ⊢
  cases hbegun with
  | @taken deadline hname hlen => exact ⟨hname,hlen,⟨deadline,rfl⟩,rfl⟩
  | refused hst _ => exact absurd h hst

end PlcClient

def Act.operation : Act → Option (Access.Kind × Int × UInt32)
  | .call (.read handle timeoutMs) => some (.read,handle,timeoutMs)
  | .call (.write handle timeoutMs) => some (.write,handle,timeoutMs)
  | _ => none

namespace Config

variable {n : Nat}

def asks (s : Config n) (l : Label) : Option (Fin n × Access) :=
  if s.scanning = false ∧ (s.begins l.act (s.hear l.script).world).isSome then
    l.act.operation.bind fun (kind,handle,timeoutMs) =>
      (s.client.validHandle handle).map fun i => (i,s.client.access i kind timeoutMs)
  else none

theorem step_operates {s : Config n} {l : Label} (hscan : s.scanning = false)
    {kind : Access.Kind} {handle : Int} {timeoutMs : UInt32}
    (hop : l.act.operation = some (kind,handle,timeoutMs)) {i : Fin n}
    (hvalid : s.client.validHandle handle = some i) :
    let r := s.client.operate i (s.client.access i kind timeoutMs) (s.hear l.script).world
    s.step l = started handle r s.stack ∧
      ((s.begins l.act (s.hear l.script).world).isSome = true ↔ r.1 = .pending) := by
  obtain ⟨act,script⟩ := l
  have hheard : ¬ (s.hear script).scanning = true := by
    rw [Bool.not_eq_true]
    exact hscan
  cases act with
  | advance => cases hop
  | ret => cases hop
  | call op =>
    cases op with
    | read handle timeoutMs =>
      obtain ⟨rfl,rfl,rfl⟩ := by simpa [Act.operation] using hop
      have hread : s.client.read handle timeoutMs (s.hear script).world = _ :=
        PlcClient.read_operates hvalid
      rw [← hread,step,Config.act,if_neg hheard,begins]
      refine ⟨rfl,?_⟩
      split_ifs with hp <;> simp [hp]
    | write handle timeoutMs =>
      obtain ⟨rfl,rfl,rfl⟩ := by simpa [Act.operation] using hop
      have hwrite : s.client.write handle timeoutMs (s.hear script).world = _ :=
        PlcClient.write_operates hvalid
      rw [← hwrite,step,Config.act,if_neg hheard,begins]
      refine ⟨rfl,?_⟩
      split_ifs with hp <;> simp [hp]
    | _ => cases hop

theorem started_eq (handle : Int) {r : Status × PlcClient n × World} (h : r.1 = .pending)
    (stack : List Frame) : (started handle r stack).client = r.2.1 ∧
      (started handle r stack).world.log = .started handle.toNat r.2.1.msg.io.tx :: r.2.2.log := by
  obtain ⟨st,c,w⟩ := r
  subst h
  exact ⟨rfl,rfl⟩

theorem asks_some {s : Config n} {l : Label} {i : Fin n} {a : Access}
    (h : s.asks l = some (i,a)) : a.name.length ≤ kMaxSymbolicName ∧
      (a.kind = .write → ∃ len, a.tag.writeLength a.elementCount = some len) ∧
      (∃ deadline, (s.step l).client = s.client.underway i a deadline) ∧
        ∃ k frame, (s.step l).world.log = .started k frame :: s.world.log := by
  rw [asks] at h
  split_ifs at h with hbegins
  obtain ⟨⟨kind,handle,timeoutMs⟩,hop,h⟩ := Option.bind_eq_some_iff.mp h
  obtain ⟨j,hvalid,heq⟩ := Option.map_eq_some_iff.mp h
  obtain ⟨rfl,rfl⟩ := Prod.mk.inj heq
  obtain ⟨hstep,hpending⟩ := step_operates hbegins.1 hop hvalid
  have hp := hpending.mp hbegins.2
  obtain ⟨hname,hlen,⟨deadline,hc⟩,hlog⟩ := PlcClient.operate_pending hp
  obtain ⟨hclient,hworld⟩ := started_eq handle hp s.stack
  rw [hstep,hclient,hworld,hc,hlog]
  exact ⟨hname,hlen,⟨deadline,rfl⟩,_,_,rfl⟩

theorem begins_operation {s : Config n} {a : Act} {w : World} (h : (s.begins a w).isSome = true) :
    ∃ kind handle timeoutMs i, a.operation = some (kind,handle,timeoutMs) ∧
      s.client.validHandle handle = some i := by
  have hvalid (handle : Int) (hsome : s.client.validHandle handle ≠ none) :
      ∃ i, s.client.validHandle handle = some i := Option.ne_none_iff_exists'.mp hsome
  cases a with
  | advance => cases h
  | ret => cases h
  | call op =>
    cases op with
    | read handle timeoutMs =>
      obtain ⟨i,hi⟩ := hvalid handle fun hnone => by
        simp [begins,PlcClient.read,hnone] at h
      exact ⟨_,_,_,i,rfl,hi⟩
    | write handle timeoutMs =>
      obtain ⟨i,hi⟩ := hvalid handle fun hnone => by
        simp [begins,PlcClient.write,hnone] at h
      exact ⟨_,_,_,i,rfl,hi⟩
    | _ => cases h

theorem asks_none {s : Config n} {l : Label} (hex : s.client.Exclusive s.world.log)
    (h : s.asks l = none) {i : Fin n} (hbusy : (s.step l).client.busy i = true) :
    s.client.busy i = true := by
  rcases hbegins : s.begins l.act (s.hear l.script).world with _ | handle
  · exact busy_step hex (Or.inl hbegins) hbusy
  have hsome : (s.begins l.act (s.hear l.script).world).isSome = true := by rw [hbegins]; rfl
  obtain ⟨kind,handle,timeoutMs,j,hop,hvalid⟩ := begins_operation hsome
  cases hscan : s.scanning with
  | false =>
    simp [asks,hscan,hsome,hop,hvalid] at h
  | true =>
    -- Inside the loop over the tags no call is made.
    obtain ⟨act,script⟩ := l
    cases act with
    | advance => cases hop
    | ret => cases hop
    | call op =>
      have hheard : (s.hear script).scanning = true := hscan
      rw [step,Config.act,if_pos hheard] at hbusy
      exact hbusy

theorem state_kept {s : Config n} {l : Label} (hex : s.client.Exclusive s.world.log) {i : Fin n}
    (hbusy : s.client.busy i = true) (hstays : (s.step l).client.busy i = true) :
    ((s.step l).client.tags i).state = (s.client.tags i).state := by
  have hkeep {j : Fin n} {g : Tag} (hc : (s.step l).client.tags = Function.update s.client.tags j g)
      (hg : g.inFlight = true → g.state = (s.client.tags j).state) :
      ((s.step l).client.tags i).state = (s.client.tags i).state := by
    rw [PlcClient.busy_update hc] at hstays
    rw [hc]
    by_cases hij : i = j
    · subst hij
      rw [Function.update_self] at hstays ⊢
      exact hg hstays
    · rw [Function.update_of_ne hij]
  cases s.step_move l with
  | quiet hk _ _ => rw [hk.tags]
  | created j _ _ _ _ _ _ hc _ =>
    obtain ⟨_,_,hc⟩ := hc
    rw [hc]
  | destroyed j _ _ _ _ hc _ => rw [hc]
  | started j g _ _ _ _ _ _ _ _ _ _ hm _ _ _ _ _ _ =>
    rw [hex.msg_inFlight hbusy] at hm
    cases hm
  | typed j f _ hc _ =>
    exact hkeep (j := j) (g := (s.client.tags j).set f) (by rw [hc]) fun _ => Tag.set_state _ f
  | aborted j _ hc _ =>
    exact hkeep (j := j) (g := ((s.client.tags j).abort s.client.msg).1) (by rw [hc])
      fun hg => by simp [Tag.abort,Tag.inFlight] at hg
  | visited j _ _ st g m t w' _ _ _ hpoll hc _ =>
    refine hkeep (j := j) (g := g) (by rw [hc]) fun hg => ?_
    rcases hex.poll_cases hpoll with ⟨_,_,hpolled⟩ | ⟨_,_,rfl,_⟩
    · cases hpolled with
      | waits _ _ => rfl
      | fails _ _ _ => cases hg
      | ends _ _ hres =>
        rcases hres with ⟨_,hdone⟩ | ⟨_,hfailed,_⟩
        · simp [Tag.inFlight,hdone] at hg
        · simp [Tag.inFlight,hfailed] at hg
    · rfl

-- The client stays Ready on a socket that neither fails nor closes, no operation is given up or
-- polled to its end after its deadline, and nothing is read but what the server sends.
def Faithful (server : SyntheticServer) (s : Config n) (l : Label) : Prop :=
  (s.step l).client.state = .ready ∧
  (0 ≤ (s.step l).client.tcp.fd ∧ (s.step l).client.tcp.state = .ok) ∧ l.script.calm = true ∧
  (∀ i, s.client.busy i = true → (s.step l).client.busy i = false →
    s.visiting l = some i ∧
      expired (s.hear l.script).world.millis.1 s.client.msg.deadline = false) ∧
  (lastLink (s.step l).world.log).rcvd <+: (lastLink (s.step l).world.log).sent server

instance (server : SyntheticServer) (s : Config n) (l : Label) : Decidable (s.Faithful server l) :=
  inferInstanceAs (Decidable (_ ∧ _ ∧ _ ∧ _ ∧ _))

structure Flying (server sv : SyntheticServer) (s : Config n) (i : Fin n) (a : Access) : Prop where
  busy : s.client.busy i = true
  state : (s.client.tags i).state = a.flying.state
  live : s.client.tcp.live
  paced : s.client.msg.io.Paced
  request : ∃ context, s.client.msg.io.tx = a.request.frame a.sessionHandle context
  name : a.name.length ≤ kMaxSymbolicName
  value : a.kind = .write → ∃ len, a.tag.writeLength a.elementCount = some len
  underway : ∃ before, Link.Underway server sv before s.client.msg.io (lastLink s.world.log)

variable {server sv : SyntheticServer} {s : Config n} {l : Label} {i : Fin n} {a : Access}

theorem flying_begun (hsynced : (lastLink s.world.log).Synced server sv)
    (hasks : s.asks l = some (i,a)) (hl : s.Faithful server l) :
    Flying server sv (s.step l) i a := by
  obtain ⟨hname,hlen,⟨deadline,hc⟩,k,frame,hlog⟩ := asks_some hasks
  refine ⟨?_,?_,hl.2.1,?_,⟨s.client.msg.context,?_⟩,hname,hlen,lastLink s.world.log,?_⟩
  · rw [hc]
    simp [PlcClient.busy,PlcClient.underway,a.flying_inFlight]
  · rw [hc]
    simp [PlcClient.underway]
  · rw [hc]
    exact Transfer.load_paced _
  · rw [hc]
    rfl
  · rw [hc,hlog]
    exact Link.Underway.load hsynced _ rfl rfl

theorem flying_on (hex : s.client.Exclusive s.world.log) (hph : Phases s.client)
    (hready : s.client.state = .ready) (h : Flying server sv s i a) (hl : s.Faithful server l)
    (hstays : (s.step l).client.busy i = true) : Flying server sv (s.step l) i a := by
  have hfly := (s.exclusive_step l hex).msg_inFlight hstays
  obtain ⟨before,hunder⟩ := h.underway
  suffices hmsg : (s.step l).client.msg.io.Paced ∧
      (s.step l).client.msg.io.tx = s.client.msg.io.tx ∧
        Link.Underway server sv before (s.step l).client.msg.io (lastLink (s.step l).world.log) from
    ⟨hstays,(state_kept hex h.busy hstays).trans h.state,hl.2.1,hmsg.1,by
      obtain ⟨context,htx⟩ := h.request
      exact ⟨context,hmsg.2.1.trans htx⟩,h.name,h.value,before,hmsg.2.2⟩
  cases s.wire_move l hex hph with
  | aside hgrow hmsg _ _ =>
    rcases hmsg with hmsg | hidle
    · rw [hmsg,link_grows hgrow]
      exact ⟨h.paced,rfl,hunder⟩
    · rw [hidle] at hfly
      cases hfly
  | issued _ _ _ _ _ hs _ _ => simp [hl.1] at hs
  | opened _ _ hs _ _ _ _ => simp [hl.1] at hs
  | closes _ _ _ hs _ _ _ _ => simp [hl.1] at hs
  | turned _ _ _ _ hs _ _ _ _ _ _ _ => simp [hready] at hs
  | loaded j _ _ _ _ _ _ _ _ hm _ _ _ _ _ =>
    rw [hex.msg_inFlight h.busy] at hm
    cases hm
  | visited j st called w' _ _ _ _ hmoved hpaced hlog =>
    have hheard : Link.Underway server sv before s.client.msg.io
        (lastLink (s.hear l.script).world.log) := hunder
    rw [hlog,visitMarks_link]
    exact ⟨hpaced hfly h.paced,hmoved.tx_eq,hheard.moved hmoved⟩

theorem flying_visited (hex : s.client.Exclusive s.world.log) (h : Flying server sv s i a)
    (hvisit : s.visiting l = some i) (hcalm : l.script.calm = true)
    (hdl : expired (s.hear l.script).world.millis.1 s.client.msg.deadline = false) :
    ∃ st m t w', s.client.msg.Turned s.client.tcp (s.hear l.script).world (st,m,t,w') ∧
      (s.step l).client.msg = m ∧ m.io.tx = s.client.msg.io.tx ∧
      (∃ before, Link.Underway server sv before m.io (lastLink (s.step l).world.log)) ∧
      (st = .pending → (s.step l).client.tags i = s.client.tags i) ∧
      (st = .ok → (s.step l).client.tags i = ((s.client.tags i).settle m).2) := by
  obtain ⟨disconnected,stack,_,_,hstep⟩ := visiting_step hvisit
  have hturned := ExplicitMessage.poll_turned (w := (s.hear l.script).world)
    (hex.msg_inFlight h.busy) h.paced h.live hcalm hdl
  generalize hmsg : s.client.msg.poll s.client.tcp (s.hear l.script).world = r at hturned
  obtain ⟨st,m,t,w'⟩ := r
  obtain ⟨st',g,htag,hpend,_⟩ := Tag.poll_msg (g := s.client.tags i) h.busy hmsg
  have hmoved := hex.poll_moved htag
  have hc := visit_client (s := s.hear l.script) disconnected stack htag
  have hlog := visit_log (s := s.hear l.script) disconnected stack htag
  rw [← hstep] at hc hlog
  have hupdated : (s.step l).client.tags i = g := by
    rw [hc]
    exact Function.update_self _ _ _
  rw [hupdated]
  refine ⟨st,m,t,w',hturned,by rw [hc],hmoved.tx_eq,?_,hpend,fun hok => ?_⟩
  · obtain ⟨before,hunder⟩ := h.underway
    have hheard : Link.Underway server sv before s.client.msg.io
        (lastLink (s.hear l.script).world.log) := hunder
    rw [hlog,visitMarks_link]
    exact ⟨before,hheard.moved hmoved⟩
  · have hsettle := Tag.poll_settle (g := s.client.tags i) h.busy s.client.msg s.client.tcp
      (s.hear l.script).world
    rw [hmsg,hok] at hsettle
    have heq := htag.symm.trans hsettle
    simp only [if_true] at heq
    exact (Prod.mk.inj (Prod.mk.inj heq).2).1

theorem flying_home (hex : s.client.Exclusive s.world.log) (hst : Stamped s.client.msg)
    (h : Flying server sv s i a) (hl : s.Faithful server l)
    (hends : (s.step l).client.busy i = false) :
    (s.step l).client.msg.inFlight = false ∧
    ∃ sv', (lastLink (s.step l).world.log).Synced server sv' ∧
      ∀ (mem : Memory Name TagValue) (past : List Done),
        sv.memory = mem.after (past.filterMap Done.effect) →
        let d : Done := ⟨a,true,((s.step l).client.tags i).status,(s.step l).client.tags i⟩
        Done.Serves mem d past ∧ sv'.memory = mem.after ((d :: past).filterMap Done.effect) := by
  obtain ⟨_,_,hcalm,hgiven,hread⟩ := hl
  obtain ⟨hvisit,hdl⟩ := hgiven i h.busy hends
  obtain ⟨st,m,t,w',hturned,hmsg,hsame,⟨before,hunder⟩,hpend,hsettles⟩ :=
    flying_visited hex h hvisit hcalm hdl
  obtain ⟨context,htx⟩ := h.request
  obtain ⟨cip,sv',hserve,hcip,hsmall,hbounded,hanswers⟩ := a.handled h.name h.value
    hunder.synced.bounded
  have hserved := hunder.answered (hsame.trans htx) a.request_plain a.request_fits hserve hcip
    hsmall
  have hreads := hunder.reads (fun hall => (hserved hall).2) hread
  have hcontext : (SyntheticServer.answer context cip hcip hsmall).context =
      s.client.msg.sentContext := by
    rw [← hst (hex.msg_inFlight h.busy),htx]
    simp [SyntheticServer.answer,ExplicitMessage.frameContext,SyntheticServer.Request.frame]
  rcases hturned.brings List.prefix_rfl hreads hcontext with
    hwait | ⟨⟨hok,hdone,hrx,hcode⟩,hdata,hlen⟩
  · rw [PlcClient.busy,hpend hwait] at hends
    cases h.busy.symm.trans hends
  have hall : m.io.tx.length ≤ m.io.txSent := by
    by_contra hmore
    have hhead := (SyntheticServer.answer context cip hcip hsmall).encapsulated.header
    rw [← hrx,hunder.silent (Nat.not_le.mp hmore)] at hhead
    exact absurd hhead (by decide)
  obtain ⟨hwhole,hsent⟩ := hserved hall
  refine ⟨by rw [hmsg]; simp [ExplicitMessage.inFlight,hdone],sv',⟨hwhole,?_,hbounded⟩,
    fun mem past hmem => ?_⟩
  · rw [hsent,hunder.rcvd,hrx]
  · have hanswered := hanswers (SyntheticServer.answer context cip hcip hsmall) m
      (s.client.tags i) rfl h.state hcode hdata hlen mem past hmem
    rw [hsettles hok,Tag.settle_status]
    exact hanswered

end Config

-- A run with an account of its operations: the one under way, and those that are over, newest
-- first.
structure Account (n : Nat) where
  config : Config n
  asked : Option (Fin n × Access) := none
  history : List Done := []

namespace Account

variable {n : Nat}

def step (o : Account n) (l : Label) : Account n :=
  let s := o.config.step l
  match o.asked with
  | none => {o with config := s, asked := o.config.asks l}
  | some (i,a) =>
    if s.client.busy i then {o with config := s}
    else
      {config := s, asked := none,
       history := ⟨a,true,(s.client.tags i).status,s.client.tags i⟩ :: o.history}

theorem step_config (o : Account n) (l : Label) : (o.step l).config = o.config.step l := by
  rw [step]
  cases o.asked with
  | none => rfl
  | some e =>
    simp only
    split <;> rfl

structure Agrees (server : SyntheticServer) (mem : Memory Name TagValue) (o : Account n) :
    Prop where
  exclusive : o.config.client.Exclusive o.config.world.log
  phases : Phases o.config.client
  stamped : Config.Stamped o.config.client.msg
  ready : o.config.client.state = .ready
  serves : Trace.Always (Done.Serves mem) o.history
  idle : o.asked = none → o.config.client.msg.inFlight = false ∧
    ∃ sv, (lastLink o.config.world.log).Synced server sv ∧
      sv.memory = mem.after (o.history.filterMap Done.effect)
  flies : ∀ i a, o.asked = some (i,a) → ∃ sv, o.config.Flying server sv i a ∧
    sv.memory = mem.after (o.history.filterMap Done.effect)

variable {server : SyntheticServer} {mem : Memory Name TagValue} {o : Account n} {l : Label}

theorem idle_step (h : Agrees server mem o) (hasked : o.asked = none)
    (hasks : o.config.asks l = none) (hl : o.config.Faithful server l) :
    (o.config.step l).client.msg.inFlight = false ∧
      lastLink (o.config.step l).world.log = lastLink o.config.world.log := by
  have hfree := (h.idle hasked).1
  have hidle : (o.config.step l).client.msg.inFlight = false := by
    rw [← Bool.not_eq_true,((o.config.exclusive_step l h.exclusive).1.taken_iff)]
    rintro ⟨i,hbusy⟩
    have hfly := h.exclusive.msg_inFlight (Config.asks_none h.exclusive hasks hbusy)
    rw [hfree] at hfly
    cases hfly
  refine ⟨hidle,?_⟩
  cases o.config.wire_move l h.exclusive h.phases with
  | aside hgrow _ _ _ => exact link_grows hgrow
  | issued _ _ _ _ _ hs _ _ => simp [hl.1] at hs
  | opened _ _ hs _ _ _ _ => simp [hl.1] at hs
  | closes _ _ _ hs _ _ _ _ => simp [hl.1] at hs
  | turned _ _ _ _ hs _ _ _ _ _ _ _ => simp [h.ready] at hs
  | loaded j _ _ _ _ _ _ _ _ _ _ hmsg _ _ _ =>
    rw [hmsg] at hidle
    cases hidle
  | visited j _ _ _ hbusy _ _ _ _ _ _ =>
    have hfly := h.exclusive.msg_inFlight hbusy
    rw [hfree] at hfly
    cases hfly

theorem agrees_step (h : Agrees server mem o) (hl : o.config.Faithful server l) :
    Agrees server mem (o.step l) := by
  have hex := o.config.exclusive_step l h.exclusive
  have hph := Config.phases_step (l := l) h.exclusive h.phases
  have hst := Config.stamped_step (l := l) h.exclusive h.stamped
  cases hasked : o.asked with
  | none =>
    obtain ⟨hfree,sv,hsynced,hmem⟩ := h.idle hasked
    have hstep : o.step l = {o with config := o.config.step l, asked := o.config.asks l} := by
      rw [step,hasked]
    rw [hstep]
    refine ⟨hex,hph,hst,hl.1,h.serves,fun hnone => ?_,fun i a hsome => ?_⟩
    · obtain ⟨hidle,hlink⟩ := idle_step h hasked hnone hl
      exact ⟨hidle,sv,by simp only [hlink]; exact hsynced,hmem⟩
    · exact ⟨sv,Config.flying_begun hsynced hsome hl,hmem⟩
  | some e =>
    obtain ⟨i,a⟩ := e
    obtain ⟨sv,hflies,hmem⟩ := h.flies i a hasked
    cases hstays : (o.config.step l).client.busy i with
    | true =>
      have hstep : o.step l = {o with config := o.config.step l} := by
        simp only [step,hasked,hstays,if_true]
      rw [hstep]
      refine ⟨hex,hph,hst,hl.1,h.serves,fun hnone => ?_,fun j b hsome => ?_⟩
      · rw [hasked] at hnone
        cases hnone
      · obtain ⟨rfl,rfl⟩ := Prod.mk.inj (Option.some.inj (hasked.symm.trans hsome))
        exact ⟨sv,Config.flying_on h.exclusive h.phases h.ready hflies hl hstays,hmem⟩
    | false =>
      obtain ⟨hidle,sv',hsynced,hanswered⟩ := Config.flying_home h.exclusive h.stamped hflies hl
        hstays
      obtain ⟨hserves,hmem'⟩ := hanswered mem o.history hmem
      simp only [step,hasked,hstays]
      exact ⟨hex,hph,hst,hl.1,⟨hserves,h.serves⟩,fun _ => ⟨hidle,sv',hsynced,hmem'⟩,
        fun _ _ hsome => (by cases hsome)⟩

end Account

namespace Sample

def atServerB : List Label :=
  [call .begin,call (.connect 1 44818 5000),
   call .poll {ethLinks := [true,true], sockets := [3]},call .poll {selects := [1]},
   call .poll {sends := [.ok 28], recvs := [.ok (registerReply SyntheticServer.sessionHandle)]},
   call (.createTag tagB 1),call (.setTagCallback true)]

theorem written_fits : ([0xCD,0,0,0] : List UInt8).length ≤ ExplicitMessage.kMaxCipData := by
  decide

theorem minusTwo_length : 4 ≤ ([0xCC,0,0,0,0xC3,0,0xFE,0xFF] : List UInt8).length := by decide

theorem minusTwo_fits :
    ([0xCC,0,0,0,0xC3,0,0xFE,0xFF] : List UInt8).length ≤ ExplicitMessage.kMaxCipData := by
  decide

-- It writes -2 to the tag, sets it to 7 while the write is under way, and reads it in the callback
-- that tells it of the end of the write.
def putsBack : List Label :=
  [call (.setTag 0 (.dataType (DataType.code .int))),call (.setTag 0 (.int16 0 (-2))),
   call (.write 0 1000)] ++ sweep {sends := [.ok 9]} ++ [call (.setTag 0 (.int16 0 7))] ++
  sweep {sends := [.ok 100]} ++
  [call .poll,{act := .advance, script := {recvs := [.ok (SyntheticServer.answer 1 [0xCD,0,0,0]
    written_length written_fits).bytes]}},call (.read 0 1000),{act := .ret}] ++
  advance PlcClient.kMaxTags ++ sweep {sends := [.ok 100]} ++
  sweep {recvs := [.ok (SyntheticServer.answer 2 [0xCC,0,0,0,0xC3,0,0xFE,0xFF] minusTwo_length
    minusTwo_fits).bytes]}

def putBack : Account PlcClient.kMaxTags :=
  Runs.run Account.step {config := Config.after memory 0 atServerB} putsBack

end Sample

end ControlLogix
