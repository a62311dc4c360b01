import ControlLogix.Machine.Callbacks

namespace ControlLogix

open ExplicitMessage (frameContext)

-- The frames the present occupant of slot i has started, and those of the occupants before it.
def own (i : Nat) : List Event → List (List UInt8)
  | [] => []
  | .created j :: log => if j = i then [] else own i log
  | .started j frame :: log => if j = i then frame :: own i log else own i log
  | _ :: log => own i log

def former (i : Nat) : List Event → List (List UInt8)
  | [] => []
  | .created j :: log => if j = i then own i log ++ former i log else former i log
  | _ :: log => former i log

-- The present occupant has had an operation end well or been given a data type.
def learned (i : Nat) : List Event → Bool
  | [] => false
  | .created j :: log => j ≠ i && learned i log
  | .typed j :: log => j = i || learned i log
  | .ended j st _ _ :: log => (j = i && st = .ok) || learned i log
  | _ :: log => learned i log

-- What the sketch hears of slot i follows a start of its present occupant, and a reply that is
-- taken answers one of that occupant's frames and none of its predecessors'.
def Clean : Event → List Event → Prop
  | .tagCallback i _, past => own i past ≠ []
  | .ended i _ accepted rx, past => own i past ≠ [] ∧ (accepted = true →
      (∃ f ∈ own i past, frameContext f = frameContext rx) ∧
        ∀ f ∈ former i past, frameContext f ≠ frameContext rx)
  | _, _ => True

-- A slot changes hands only while no operation of it is in flight, and contexts are not used twice.
def Tenanted : Event → List Event → Prop
  | .created i, past => ∀ frame, holder past ≠ some (i,frame)
  | .started i frame, past => ∀ f ∈ former i past, frameContext f ≠ frameContext frame
  | _, _ => True

theorem own_quiet {e : Event} (h : e.quiet = true) (i : Nat) (log : List Event) :
    own i (e :: log) = own i log := by
  cases e <;> simp_all [Event.quiet,Event.board,own]

theorem former_quiet {e : Event} (h : e.quiet = true) (i : Nat) (log : List Event) :
    former i (e :: log) = former i log := by
  cases e <;> simp_all [Event.quiet,Event.board,former]

theorem learned_quiet {e : Event} (h : e.quiet = true) (i : Nat) (log : List Event) :
    learned i (e :: log) = learned i log := by
  cases e <;> simp_all [Event.quiet,Event.board,learned]

theorem tenanted_quiet {e : Event} (h : e.quiet = true) (log : List Event) : Tenanted e log := by
  cases e <;> simp_all [Event.quiet,Event.board,Tenanted]

theorem clean_quiet {e : Event} (h : e.quiet = true) (log : List Event) : Clean e log := by
  cases e <;> simp_all [Event.quiet,Event.board,Clean]

theorem holder_own {log : List Event} (h : Trace.Always Tenanted log) {i : Nat}
    {frame : List UInt8} (hh : holder log = some (i,frame)) :
    frame ∈ own i log ∧ ∀ f ∈ former i log, frameContext f ≠ frameContext frame := by
  induction log with
  | nil => cases hh
  | cons e log ih =>
    obtain ⟨he,hlog⟩ := h
    cases e with
    | created j =>
      have hij : j ≠ i := by
        rintro rfl
        exact he frame hh
      simpa [own,former,hij] using ih hlog hh
    | started j f =>
      obtain ⟨rfl,rfl⟩ : j = i ∧ f = frame := by simpa [holder] using hh
      exact ⟨by simp [own],he⟩
    | ended => cases hh
    | aborted => cases hh
    | _ => exact ih hlog hh

theorem own_visitMarks (i j : Nat) (st : Status) (m : ExplicitMessage) (inFlight called : Bool)
    (log : List Event) : own j (visitMarks i st m inFlight called ++ log) = own j log := by
  rw [visitMarks]
  split_ifs <;> rfl

theorem learned_visitMarks (i j : Nat) (st : Status) (m : ExplicitMessage)
    (inFlight called : Bool) (log : List Event) :
    learned j (visitMarks i st m inFlight called ++ log) =
      ((i = j && inFlight && st = .ok) || learned j log) := by
  rw [visitMarks]
  cases inFlight <;> cases called <;> cases st <;> simp [learned]

def Tag.blank (g : Tag) : Bool :=
  g.state = .idle && g.dataType = 0 && g.dataLen = 0 && g.resultCode = 0

namespace Config

variable {n : Nat}

-- createTag() allocates a slot whose Tag is not as it was constructed.
def reuses (s : Config n) (l : Label) : Bool :=
  match l.act with
  | .call (.createTag name _) =>
    match s.client.findFreeTag with
    | some i => PlcClient.validName name && !(s.client.tags i).blank
    | none => false
  | _ => false

-- An operation is started with a context that a request of an earlier occupant of the slot carried.
def recycles (s : Config n) (l : Label) : Bool :=
  match s.begins l.act (s.hear l.script).world with
  | some handle => (former handle.toNat s.world.log).any fun f =>
      frameContext f = s.client.msg.context
  | none => false

structure Tenant (c : PlcClient n) (log : List Event) (i : Fin n) : Prop where
  idle : own i log = [] → (c.tags i).state = .idle
  untyped : learned i log = false → (c.tags i).dataType = 0
  name : (c.tagNames i).length < PlcClient.kMaxTagName

theorem Tenant.started {c : PlcClient n} {log : List Event} {i : Fin n} (h : Tenant c log i)
    (hi : c.busy i = true) : own i log ≠ [] := by
  intro hown
  have hidle := h.idle hown
  simp [PlcClient.busy,Tag.inFlight,hidle] at hi

theorem Tenant.same {c c' : PlcClient n} {log log' : List Event} {i : Fin n} (h : Tenant c log i)
    (htags : c'.tags i = c.tags i) (hnames : c'.tagNames i = c.tagNames i)
    (hown : own i log' = own i log) (hlearned : learned i log' = learned i log) :
    Tenant c' log' i := by
  refine ⟨?_,?_,?_⟩
  · rw [htags,hown]
    exact h.idle
  · rw [htags,hlearned]
    exact h.untyped
  · rw [hnames]
    exact h.name

structure Reused (s : Config n) : Prop where
  exclusive : s.client.Exclusive s.world.log
  watched : Watched s
  stamped : Stamped s.client.msg
  tenants : ∀ i, s.client.inUse i = true → Tenant s.client s.world.log i
  tenanted : Trace.Always Tenanted s.world.log
  clean : Trace.Always Clean s.world.log

theorem visited_tenant {c c' : PlcClient n} {log : List Event} {i j : Fin n} {w w' : World}
    {st : Status} {g : Tag} {m : ExplicitMessage} {t : TcpConnection} (hex : c.Exclusive log)
    (hw : w.log = log) (h : Tenant c log j)
    (hpoll : (c.tags i).poll c.msg c.tcp w = (st,g,m,t,w')) (called : Bool)
    (htags : c'.tags = Function.update c.tags i g) (hnames : c'.tagNames = c.tagNames) :
    Tenant c' (visitMarks i st m (c.tags i).inFlight called ++ w'.log) j := by
  have hgrow := grows_quiet (hex.poll_moved hpoll).spoke
  rw [hw] at hgrow
  have hown : own j w'.log = own j log := hgrow.reading fun e he es => own_quiet he j es
  have hlearned : learned j w'.log = learned j log :=
    hgrow.reading fun e he es => learned_quiet he j es
  refine ⟨?_,?_,by rw [hnames]; exact h.name⟩
  · rw [own_visitMarks,hown,htags]
    intro hnone
    by_cases hji : j = i
    · subst hji
      rcases hex.poll_cases hpoll with ⟨hbusy,_⟩ | ⟨_,_,rfl,_⟩
      · exact absurd hnone (h.started hbusy)
      · simpa using h.idle hnone
    · rw [Function.update_of_ne hji]
      exact h.idle hnone
  · rw [learned_visitMarks,hlearned,htags,Bool.or_eq_false_iff]
    rintro ⟨hst,hnone⟩
    have htype := h.untyped hnone
    by_cases hji : j = i
    · subst hji
      rw [Function.update_self]
      rcases hex.poll_cases hpoll with ⟨hbusy,_,hpolled⟩ | ⟨_,_,rfl,_⟩
      · have hfly : (c.tags j).inFlight = true := hbusy
        cases hpolled with
        | waits => exact htype
        | fails => exact htype
        | ends _ _ hres =>
          rcases hres with ⟨rfl,_⟩ | ⟨_,_,heq⟩
          · simp [hfly] at hst
          · exact heq.trans htype
      · exact htype
    · rw [Function.update_of_ne hji]
      exact htype

theorem tenants_step {s : Config n} {l : Label} (hex : s.client.Exclusive s.world.log)
    (h : ∀ i, s.client.inUse i = true → Tenant s.client s.world.log i)
    (hg : s.reuses l = false) (j : Fin n) (huse : (s.step l).client.inUse j = true) :
    Tenant (s.step l).client (s.step l).world.log j := by
  cases s.step_move l with
  | quiet hk hlog _ =>
    exact (h j (by rw [← hk.inUse]; exact huse)).same (by rw [hk.tags]) (by rw [hk.names])
      (hlog.reading fun e he es => own_quiet he j es)
      (hlog.reading fun e he es => learned_quiet he j es)
  | created i name _ ha hfree hname _ hc hlog =>
    obtain ⟨text,htext,hc⟩ := hc
    rw [hlog,hc]
    rw [hc] at huse
    by_cases hji : j = i
    · subst hji
      have hblank : (s.client.tags j).blank = true := by
        simpa [reuses,ha,hfree,hname] using hg
      simp only [Tag.blank,Bool.and_eq_true,decide_eq_true_eq] at hblank
      exact ⟨fun _ => hblank.1.1.1,fun _ => hblank.1.1.2,by simpa using htext⟩
    · have hne : ¬ (i.val = j.val) := fun hv => hji (Fin.ext hv.symm)
      exact (h j (by simpa [hji] using huse)).same rfl (by simp [hji]) (by simp [own,hne])
        (by simp [learned,hne])
  | destroyed i _ _ _ _ hc hlog =>
    rw [hlog,hc]
    rw [hc] at huse
    have hji : j ≠ i := by
      rintro rfl
      simp at huse
    exact (h j (by simpa [hji] using huse)).same rfl rfl rfl rfl
  | started i g _ _ _ _ _ _ _ _ _ _ _ _ _ htype _ hc hlog =>
    rw [hlog,hc]
    have hj := h j (by rw [hc] at huse; exact huse)
    by_cases hji : j = i
    · subst hji
      exact ⟨fun hnone => by simp [own] at hnone,
        fun hnone => by simpa [htype] using hj.untyped hnone,hj.name⟩
    · have hne : ¬ (i.val = j.val) := fun hv => hji (Fin.ext hv.symm)
      exact hj.same (by simp [hji]) rfl (by simp [own,hne]) rfl
  | typed i f _ hc hlog =>
    rw [hlog,hc]
    have hj := h j (by rw [hc] at huse; exact huse)
    by_cases hji : j = i
    · subst hji
      refine ⟨fun hnone => ?_,fun hnone => ?_,hj.name⟩
      · simp only [Function.update_self,Tag.set_state]
        refine hj.idle ?_
        revert hnone
        split <;> simp [own]
      · simp only [Function.update_self]
        cases hf : f.types with
        | true => simp [hf,learned] at hnone
        | false =>
          rw [Tag.set_dataType _ hf]
          exact hj.untyped (by simpa [hf] using hnone)
    · have hne : ¬ (i.val = j.val) := fun hv => hji (Fin.ext hv.symm)
      refine hj.same (by simp [hji]) rfl ?_ ?_
      · split <;> simp [own]
      · split <;> simp [learned,hne]
  | aborted i _ hc hlog =>
    rw [hlog,hc]
    have hj := h j (by rw [hc] at huse; exact huse)
    have hown : own j ((if (s.client.tags i).inFlight then [.aborted i.val] else []) ++
        s.world.log) = own j s.world.log := by split <;> rfl
    have hlearned : learned j ((if (s.client.tags i).inFlight then [.aborted i.val] else []) ++
        s.world.log) = learned j s.world.log := by split <;> rfl
    by_cases hji : j = i
    · subst hji
      exact ⟨fun _ => by simp [Tag.abort],
        fun hnone => by simpa [Tag.abort] using hj.untyped (hlearned ▸ hnone),hj.name⟩
    · exact hj.same (by simp [hji]) rfl hown hlearned
  | visited i _ _ st g m t w' _ _ _ hpoll hc hlog =>
    rw [hlog]
    exact visited_tenant (w := (s.hear l.script).world) hex rfl
      (h j (by rw [hc] at huse; exact huse)) hpoll _ (by rw [hc]) (by rw [hc])

theorem tenanted_step {s : Config n} {l : Label} (h : Reused s)
    (hg : s.reuses l = false ∧ s.recycles l = false) :
    Trace.Always Tenanted (s.step l).world.log := by
  have hold := h.tenanted
  cases s.step_move l with
  | quiet _ hlog _ => exact hlog.always (fun e he es => tenanted_quiet he es) hold
  | created i name _ ha hfree hname _ _ hlog =>
    rw [hlog]
    refine ⟨fun frame hh => ?_,hold⟩
    have hblank : (s.client.tags i).blank = true := by
      simpa [reuses,ha,hfree,hname] using hg.1
    simp only [Tag.blank,Bool.and_eq_true,decide_eq_true_eq] at hblank
    have hbusy : s.client.busy i = true :=
      (h.exclusive.1.busy_iff Fin.val_injective i).mpr ⟨frame,hh⟩
    simp [PlcClient.busy,Tag.inFlight,hblank.1.1.1] at hbusy
  | destroyed i _ _ _ _ _ hlog => rw [hlog]; exact hold
  | started i g service path data deadline frame ha _ _ _ _ _ _ _ _ hframe _ hlog =>
    rw [hlog]
    refine ⟨fun f hf => ?_,hold⟩
    rw [hframe.1,ExplicitMessage.frameContext_requestFrame]
    have hnone := hg.2
    simp only [recycles,ha,List.any_eq_false,decide_eq_true_eq] at hnone
    exact hnone f (by simpa using hf)
  | typed i f _ _ hlog =>
    rw [hlog]
    split
    · exact ⟨trivial,hold⟩
    · exact hold
  | aborted i _ _ hlog =>
    rw [hlog]
    split
    · exact ⟨trivial,hold⟩
    · exact hold
  | visited i _ _ st g m t w' _ _ _ hpoll _ hlog =>
    have hpast := (grows_quiet (h.exclusive.poll_moved hpoll).spoke).always
      (fun e he es => tenanted_quiet he es) hold
    rw [hlog,visitMarks]
    split_ifs
    · exact ⟨trivial,trivial,hpast⟩
    · exact ⟨trivial,hpast⟩
    · exact ⟨trivial,hpast⟩
    · exact hpast

theorem polled_answers {c : PlcClient n} {log : List Event} {i : Fin n} {w w' : World}
    {st : Status} {g : Tag} {m : ExplicitMessage} {t : TcpConnection} (hex : c.Exclusive log)
    (hstamped : Stamped c.msg) (hpoll : (c.tags i).poll c.msg c.tcp w = (st,g,m,t,w'))
    (hbusy : c.busy i = true) (hdone : m.state = .done) :
    frameContext m.io.rx = frameContext c.msg.io.tx := by
  rcases hex.poll_cases hpoll with ⟨_,hfly,hpolled⟩ | ⟨hidle,_⟩
  · have hends {mst : Status} (hm : c.msg.Polled c.tcp w mst m t w') :
        frameContext m.io.rx = frameContext c.msg.io.tx := by
      rcases hm.ended with ⟨_,hmfly,_⟩ | ⟨_,_,hhead⟩ | ⟨_,hfailed⟩
      · simp [ExplicitMessage.inFlight,hdone] at hmfly
      · exact hhead.trans (hstamped hfly).symm
      · simp [hdone] at hfailed
    cases hpolled with
    | waits hm _ => exact hends hm
    | fails hm _ _ => exact hends hm
    | ends hm _ _ => exact hends hm
  · simp [hidle] at hbusy

theorem clean_step {s : Config n} {l : Label} (h : Reused s) :
    Trace.Always Clean (s.step l).world.log := by
  have hold := h.clean
  cases s.step_move l with
  | quiet _ hlog _ => exact hlog.always (fun e he es => clean_quiet he es) hold
  | created i _ _ _ _ _ _ _ hlog => rw [hlog]; exact ⟨trivial,hold⟩
  | destroyed i _ _ _ _ _ hlog => rw [hlog]; exact hold
  | started i _ _ _ _ _ _ _ _ _ _ _ _ _ _ _ _ _ hlog => rw [hlog]; exact ⟨trivial,hold⟩
  | typed i f _ _ hlog =>
    rw [hlog]
    split
    · exact ⟨trivial,hold⟩
    · exact hold
  | aborted i _ _ hlog =>
    rw [hlog]
    split
    · exact ⟨trivial,hold⟩
    · exact hold
  | visited i _ _ st g m t w' _ _ huse hpoll _ hlog =>
    have hgrow : Trace.Grows (fun e => e.quiet = true) s.world.log w'.log :=
      grows_quiet (h.exclusive.poll_moved hpoll).spoke
    have hpast := hgrow.always (fun e he es => clean_quiet he es) hold
    have hown : own i w'.log = own i s.world.log :=
      hgrow.reading fun e he es => own_quiet he i es
    have hformer : former i w'.log = former i s.world.log :=
      hgrow.reading fun e he es => former_quiet he i es
    have hended : Trace.Always Clean ((if (s.client.tags i).inFlight = true ∧ st ≠ .pending then
        [.ended i.val st (m.state = .done) m.io.rx] else []) ++ w'.log) := by
      split
      · next hend =>
        refine ⟨⟨?_,fun hdone => ?_⟩,hpast⟩
        · change own i w'.log ≠ []
          rw [hown]
          exact (h.tenants i huse).started hend.1
        · have hrx := polled_answers h.exclusive h.stamped hpoll hend.1
            (of_decide_eq_true hdone)
          obtain ⟨hmem,hnot⟩ := holder_own h.tenanted (h.exclusive.1.holder_eq hend.1)
          change (∃ f ∈ own i w'.log, _) ∧ ∀ f ∈ former i w'.log, _
          rw [hown,hformer]
          refine ⟨⟨_,hmem,hrx.symm⟩,fun f hf => ?_⟩
          rw [hrx]
          exact hnot f hf
      · exact hpast
    rw [hlog,visitMarks,List.append_assoc]
    split
    · next hcalled =>
      refine ⟨?_,hended⟩
      have hprev : s.client.tagPrevStatus i = .pending := (of_decide_eq_true hcalled).1
      have hstarted := (h.tenants i huse).started (h.watched i huse hprev)
      simp only [Clean]
      rw [← hown] at hstarted
      split <;> exact hstarted
    · exact hended

theorem reused_step {s : Config n} {l : Label} (h : Reused s)
    (hg : s.reuses l = false ∧ s.recycles l = false) : Reused (s.step l) where
  exclusive := s.exclusive_step l h.exclusive
  watched := watched_step h.watched h.exclusive
  stamped := stamped_step h.exclusive h.stamped
  tenants := tenants_step h.exclusive h.tenants hg.1
  tenanted := tenanted_step h hg
  clean := clean_step h

theorem reused_after (memory : Fin n → Buffer Tag.kMaxDataSize) (time : Nat) {ls : List Label}
    (hrun : Runs.Guarded step (fun s l => s.reuses l = false ∧ s.recycles l = false)
      (init memory time) ls) : Reused (after memory time ls) :=
  Runs.invariant_run (fun _ _ h hg => reused_step h hg)
    (show Reused (init memory time) from
      ⟨PlcClient.exclusive_init memory time,fun _ huse => (by cases huse),fun hfly => (by cases hfly),
        fun _ huse => (by cases huse),trivial,trivial⟩) hrun

theorem createTag_fresh {c c' : PlcClient n} {name : Option (List UInt8)} {elementCount : UInt32}
    {handle : Int} (hvalid : 0 ≤ handle) (hcreate : c.createTag name elementCount = (handle,c'))
    (hblank : ∀ i, c.findFreeTag = some i → PlcClient.validName name = true →
      (c.tags i).blank = true) :
    c'.tagStatus handle = .notReady ∧ ∃ g, c'.tag handle = some g ∧ g.blank = true := by
  rcases c.createTag_cases name elementCount with ⟨k,hneg,heq⟩ | ⟨i,text,hfree,hname,_,heq⟩
  · rw [heq] at hcreate
    obtain ⟨rfl,_⟩ := Prod.mk.inj hcreate
    omega
  · rw [heq] at hcreate
    obtain ⟨rfl,rfl⟩ := Prod.mk.inj hcreate
    have hhandle := PlcClient.validHandle_eq_some (c := {c with
      tagNames := Function.update c.tagNames i text,
      tagElemCount := Function.update c.tagElemCount i elementCount,
      tagPrevStatus := Function.update c.tagPrevStatus i .notReady,
      inUse := Function.update c.inUse i true}) (i := i) |>.mpr ⟨rfl,by simp⟩
    have hg := hblank i hfree hname
    refine ⟨?_,c.tags i,?_,hg⟩
    · simp only [Tag.blank,Bool.and_eq_true,decide_eq_true_eq] at hg
      simp only [PlcClient.tagStatus,hhandle,Tag.status,hg.1.1.1]
    · simp only [PlcClient.tag,hhandle,Option.map_some]

theorem write_untyped {c : PlcClient n} {i : Fin n} (huse : c.inUse i = true)
    (hname : (c.tagNames i).length < PlcClient.kMaxTagName) (htype : (c.tags i).dataType = 0)
    (timeoutMs : UInt32) (w : World) :
    (c.write i timeoutMs w).1 = .notReady ∨
      (c.write i timeoutMs w).1 = .busy ∧ c.anyTagBusy = true := by
  simp only [PlcClient.write,PlcClient.validHandle_eq_some.mpr ⟨rfl,huse⟩]
  by_cases hready : c.state = .ready
  · rw [if_neg (not_not_intro hready)]
    cases hbusy : c.anyTagBusy with
    | true => exact Or.inr ⟨by simp,rfl⟩
    | false =>
      have hshort : ¬ kMaxSymbolicName < (c.tagNames i).length := by
        simp only [kMaxSymbolicName,PlcClient.kMaxTagName] at hname ⊢
        omega
      simp [Tag.write,hshort,htype]
  · rw [if_pos hready]
    exact Or.inl rfl

theorem slot_reuse_is_clean (memory : Fin n → Buffer Tag.kMaxDataSize) (time : Nat)
    (ls : List Label)
    (hrun : Runs.Guarded step (fun s l => s.reuses l = false ∧ s.recycles l = false)
      (init memory time) ls) :
    let s := after memory time ls
    (∀ name elementCount handle c', 0 ≤ handle →
      s.reuses {act := .call (.createTag name elementCount)} = false →
      s.client.createTag name elementCount = (handle,c') →
        c'.tagStatus handle = .notReady ∧ ∃ g, c'.tag handle = some g ∧ g.dataType = 0 ∧
          g.dataLen = 0 ∧ g.resultCode = 0) ∧
    (∀ i : Fin n, s.client.inUse i = true → own i s.world.log = [] →
      s.client.tagStatus i = .notReady) ∧
    (∀ i : Fin n, s.client.inUse i = true → learned i s.world.log = false →
      (s.client.tags i).dataType = 0 ∧ ∀ timeoutMs w,
        (s.client.write i timeoutMs w).1 = .notReady ∨
          (s.client.write i timeoutMs w).1 = .busy ∧ s.client.anyTagBusy = true) ∧
    Trace.Always Clean s.world.log := by
  intro s
  have h : Reused s := reused_after memory time hrun
  refine ⟨?_,?_,?_,h.clean⟩
  · intro name elementCount handle c' hvalid hnew hcreate
    obtain ⟨hstatus,g,hg,hblank⟩ := createTag_fresh hvalid hcreate fun i hfree hname => by
      simpa [reuses,hfree,hname] using hnew
    simp only [Tag.blank,Bool.and_eq_true,decide_eq_true_eq] at hblank
    exact ⟨hstatus,g,hg,hblank.1.1.2,hblank.1.2,hblank.2⟩
  · intro i huse hown
    have hidle := (h.tenants i huse).idle hown
    simp only [PlcClient.tagStatus,PlcClient.validHandle_eq_some.mpr ⟨rfl,huse⟩,Tag.status,hidle]
  · intro i huse hnone
    have htype := (h.tenants i huse).untyped hnone
    exact ⟨htype,write_untyped huse (h.tenants i huse).name htype⟩

end Config

namespace Sample

def occupied : List Label :=
  online ++ [call (.setTagCallback true),call (.createTag tagA 1),call (.read 0 1000)]

-- The reply to A is stored and reported in slot 0 after the slot has passed to B.
def handedOver : List Label :=
  occupied ++ [call (.destroyTag 0),call (.createTag tagB 1)] ++ sweep {sends := [.ok 48]} ++
    advance 1 ++ sweep {recvs := [.ok (dataReply 1 dint)]}

def finished : List Label :=
  occupied ++ sweep {sends := [.ok 48], recvs := [.ok (dataReply 1 dint)]} ++
    [call (.destroyTag 0)]

-- A is read, read once more with a reply of type 0, and left in the middle of a third read; then the
-- slot passes to B.
def vacated : List Label :=
  online ++ [call (.createTag tagA 1),call (.read 0 1000)] ++
    sweep {sends := [.ok 48], recvs := [.ok (dataReply 1 dint)]} ++ [call (.read 0 1000)] ++
    sweep {sends := [.ok 48], recvs := [.ok (dataReply 2 [0xCC,0,0,0,0,0])]} ++
    [call (.read 0 1000),call (.abortTag 0),call (.destroyTag 0),call (.createTag tagB 1),
     call (.read 0 1000)]

def refilled : List Label :=
  vacated ++ sweep {sends := [.ok 48], recvs := [.ok (dataReply 4 dint)]}

set_option maxRecDepth 2000 in
theorem slot_reuse_is_clean_vacated :
    let s := after refilled
    ((former 0 s.world.log).length = 3 ∧ .ended 0 .ok true (dataReply 4 dint) ∈ s.world.log) ∧
      Trace.Always Clean s.world.log ∧
        ((after vacated).client.tags ⟨0,by decide⟩).dataType = 0 := by
  intro s
  have hlog : (former 0 s.world.log).length = 3 ∧
      .ended 0 .ok true (dataReply 4 dint) ∈ s.world.log := by
    decide +kernel
  have h := Config.slot_reuse_is_clean memory 0 vacated (by decide +kernel)
  have h' := Config.slot_reuse_is_clean memory 0 refilled (by decide +kernel)
  exact ⟨hlog,h'.2.2.2,(h.2.2.1 ⟨0,by decide⟩ (by decide +kernel) (by decide +kernel)).1⟩

theorem destroyed_tag_comes_back :
    let s := after finished
    let c := (s.client.createTag tagB 1).2
    let t := after handedOver
    (s.client.createTag tagB 1).1 = 0 ∧ c.tagStatus 0 = .ok ∧
      (c.tag 0).map (·.dataType) = some 0xC4 ∧
        .ended 0 .ok true (dataReply 1 dint) ∈ t.world.log ∧
          .tagCallback 0 .ok ∈ t.world.log ∧ own 0 t.world.log = [] := by
  decide +kernel

end Sample

end ControlLogix
