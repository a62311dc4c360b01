import ControlLogix.Machine.Callbacks
import ControlLogix.Machine.Wire

namespace ControlLogix

def Frame.loops : Frame → Bool
  | .scan _ _ => true
  | .tagCallback _ _ => true
  | .stateCallback => false

def Frame.found : Frame → Bool
  | .scan _ disconnected => disconnected
  | .tagCallback _ disconnected => disconnected
  | .stateCallback => false

def PlcClient.attempt {n : Nat} (c : PlcClient n) :=
  (c.state,c.session,c.wantConnect,c.remoteIp,c.remotePort,c.connectTimeoutMs,c.deadline,c.tcp.fd)

namespace Config

variable {n : Nat}

-- The step is one of the poll() itself whose frame stands on stack; it is its last; it finds a tag
-- Closed.
def owns (s : Config n) (stack : List Frame) (l : Label) : Bool :=
  match l.act, s.stack with
  | .advance, .scan _ _ :: rest => rest = stack
  | _, _ => false

def ends (s : Config n) (stack : List Frame) (l : Label) : Bool :=
  match l.act, s.stack with
  | .advance, .scan next _ :: rest => n ≤ next && rest = stack
  | _, _ => false

def loses (s : Config n) (stack : List Frame) (l : Label) : Bool :=
  match s.visiting l with
  | none => false
  | some i => s.stack.tail = stack &&
      ((s.client.tags i).poll s.client.msg s.client.tcp (s.hear l.script).world).1 = .closed

theorem loses_tail {s : Config n} {stack : List Frame} {l : Label}
    (h : s.loses stack l = true) : s.stack.tail = stack := by
  unfold loses at h
  split at h
  · cases h
  · simp only [Bool.and_eq_true,decide_eq_true_eq] at h
    exact h.1

theorem loses_none {s : Config n} {l : Label} (h : s.visiting l = none) (stack : List Frame) :
    s.loses stack l = false := by
  simp [loses,h]

theorem ends_eq {s : Config n} {stack : List Frame} {l : Label} (h : s.ends stack l = true) :
    l.act = .advance ∧ ∃ next disconnected, s.stack = .scan next disconnected :: stack ∧
      n ≤ next := by
  unfold ends at h
  split at h
  · next next disconnected rest ha hstack =>
    simp only [Bool.and_eq_true,decide_eq_true_eq] at h
    obtain ⟨hle,rfl⟩ := h
    exact ⟨ha,next,disconnected,hstack,hle⟩
  · cases h

inductive StackMove (s : Config n) (l : Label) (s' : Config n) : Prop
  | kept : s'.stack = s.stack → s.visiting l = none → StackMove s l s'
  | entered (f : Frame) : l.act = .call .poll → s'.stack = f :: s.stack →
      s.visiting l = none → StackMove s l s'
  | moved (f f' : Frame) (rest : List Frame) : s.stack = f :: rest → s'.stack = f' :: rest →
      f'.loops = f.loops → f'.found = (f.found || s.loses rest l) → StackMove s l s'
  | ended (rest : List Frame) : s.ends rest l = true → s.visiting l = none →
      (s'.stack = rest ∨ s'.stack = .stateCallback :: rest) → StackMove s l s'
  | left (rest : List Frame) : s.stack = .stateCallback :: rest → s'.stack = rest →
      s.visiting l = none → StackMove s l s'

theorem enter_stack (p : Poll × PlcClient n × World) (stack : List Frame) :
    (enter p stack).stack = stack ∨ ∃ f, (enter p stack).stack = f :: stack := by
  obtain ⟨out,c,w⟩ := p
  cases out with
  | returns st => exact Or.inl rfl
  | calls arg st => exact Or.inr ⟨.stateCallback,rfl⟩
  | scans => exact Or.inr ⟨.scan 0 false,rfl⟩

theorem call_stack (s : Config n) (op : Op) :
    (s.call op).stack = s.stack ∨ op = .poll ∧ ∃ f, (s.call op).stack = f :: s.stack := by
  cases op with
  | poll => exact (enter_stack _ _).imp id fun h => ⟨rfl,h⟩
  | _ => exact Or.inl rfl

theorem visit_stack (s : Config n) (i : Fin n) (disconnected : Bool) (stack : List Frame) :
    ∃ f, (s.visit i disconnected stack).stack = f :: stack ∧ f.loops = true ∧
      f.found = (disconnected ||
        ((s.client.tags i).poll s.client.msg s.client.tcp s.world).1 = .closed) := by
  simp only [visit]
  cases (s.client.visit i s.world).2.1 with
  | true => exact ⟨_,rfl,rfl,rfl⟩
  | false => exact ⟨_,rfl,rfl,rfl⟩

theorem finish_stack (c : PlcClient n) (disconnected : Bool) (w : World) (stack : List Frame) :
    (enter (c.finish disconnected w) stack).stack = stack ∨
      (enter (c.finish disconnected w) stack).stack = .stateCallback :: stack := by
  rcases hfinish : c.finish disconnected w with ⟨out,c',w'⟩
  cases out with
  | returns st => exact Or.inl rfl
  | calls arg st => exact Or.inr rfl
  | scans =>
    have hscans := c.finish_scans disconnected w
    rw [hfinish] at hscans
    exact absurd rfl hscans

theorem stack_move (s : Config n) (l : Label) : StackMove s l (s.step l) := by
  obtain ⟨a,script⟩ := l
  cases a with
  | call op =>
    have hnone : s.visiting {act := .call op, script := script} = none := by simp [visiting]
    simp only [step,act]
    split
    · exact .kept rfl hnone
    · rcases (s.hear script).call_stack op with h | ⟨rfl,f,h⟩
      · exact .kept h hnone
      · exact .entered f rfl h hnone
  | advance =>
    simp only [step,act,advance]
    split
    · next next disconnected stack hstack =>
      have hheard : s.stack = .scan next disconnected :: stack := hstack
      split_ifs with hin huse
      · have hvisit : s.visiting {act := .advance, script := script} = some ⟨next,hin⟩ :=
          visiting_eq rfl hheard huse
        obtain ⟨f,hf,hloops,hfound⟩ :=
          (s.hear script).visit_stack ⟨next,hin⟩ disconnected stack
        refine .moved _ f stack hheard hf hloops ?_
        rw [hfound]
        simp only [Frame.found,loses,hvisit,hheard,List.tail_cons,decide_true,Bool.true_and]
        rfl
      · have hnone : s.visiting {act := .advance, script := script} = none := by
          have huse' : s.client.inUse ⟨next,hin⟩ = false := eq_false_of_ne_true huse
          simp [visiting,hheard,hin,huse']
        refine .moved _ _ stack hheard rfl rfl ?_
        rw [loses_none hnone,Bool.or_false]
        rfl
      · have hnone : s.visiting {act := .advance, script := script} = none := by
          simp [visiting,hheard,hin]
        refine .ended stack ?_ hnone (finish_stack _ _ _ _)
        simp [ends,hheard,Nat.le_of_not_lt hin]
    · next hstack =>
      refine .kept rfl ?_
      simp only [visiting]
      split
      · next next disconnected stack _ hs => exact absurd hs (hstack next disconnected stack)
      · rfl
  | ret =>
    have hnone : s.visiting {act := .ret, script := script} = none := by simp [visiting]
    simp only [step,act,ret]
    split
    · next next disconnected stack hstack =>
      refine .moved _ _ stack hstack rfl rfl ?_
      rw [loses_none hnone,Bool.or_false]
      rfl
    · next stack hstack => exact .left stack hstack rfl hnone
    · exact .kept rfl hnone

theorem base_step {s : Config n} {l : Label} {stack fs : List Frame} {fr : Frame}
    (hs : s.stack = fs ++ fr :: stack) (hloops : fr.loops = true)
    (hends : s.ends stack l = false) :
    ∃ fs' fr', (s.step l).stack = fs' ++ fr' :: stack ∧ fr'.loops = true ∧
      fr'.found = (fr.found || s.loses stack l) ∧
        (l.act ≠ .call .poll → fs'.length ≤ fs.length) := by
  cases fs with
  | nil =>
    have hstack : s.stack = fr :: stack := hs
    cases s.stack_move l with
    | kept h hnone => exact ⟨[],fr,by rw [h,hs],hloops,by simp [loses_none hnone],by simp⟩
    | entered f ha h hnone =>
      exact ⟨[f],fr,by rw [h,hs]; rfl,hloops,by simp [loses_none hnone],fun hne => absurd ha hne⟩
    | moved f f' rest hold h hl hf =>
      obtain ⟨rfl,rfl⟩ := List.cons.inj (hold.symm.trans hstack)
      exact ⟨[],f',h,hl.trans hloops,hf,by simp⟩
    | ended rest hend hnone h =>
      obtain ⟨_,next,disconnected,hold,_⟩ := ends_eq hend
      obtain ⟨_,rfl⟩ := List.cons.inj (hold.symm.trans hstack)
      rw [hend] at hends
      cases hends
    | left rest hold _ _ =>
      obtain ⟨rfl,_⟩ := List.cons.inj (hold.symm.trans hstack)
      cases hloops
  | cons f fs =>
    have hstack : s.stack = f :: (fs ++ fr :: stack) := hs
    have hnot : s.loses stack l = false := by
      by_contra h
      have htail := loses_tail (by simpa using h)
      rw [hstack,List.tail_cons] at htail
      have hlen := congrArg List.length htail
      simp only [List.length_append,List.length_cons] at hlen
      omega
    rw [hnot,Bool.or_false]
    cases s.stack_move l with
    | kept h _ => exact ⟨f :: fs,fr,by rw [h,hs],hloops,rfl,by simp⟩
    | entered f' ha h _ =>
      exact ⟨f' :: f :: fs,fr,by rw [h,hs]; rfl,hloops,rfl,fun hne => absurd ha hne⟩
    | moved f₀ f' rest hold h _ _ =>
      obtain ⟨_,rfl⟩ := List.cons.inj (hold.symm.trans hstack)
      exact ⟨f' :: fs,fr,h,hloops,rfl,by simp⟩
    | ended rest hend _ h =>
      obtain ⟨_,_,_,hold,_⟩ := ends_eq hend
      obtain ⟨_,rfl⟩ := List.cons.inj (hold.symm.trans hstack)
      rcases h with h | h
      · exact ⟨fs,fr,h,hloops,rfl,by simp⟩
      · exact ⟨.stateCallback :: fs,fr,h,hloops,rfl,by simp⟩
    | left rest hold h _ =>
      obtain ⟨_,rfl⟩ := List.cons.inj (hold.symm.trans hstack)
      exact ⟨fs,fr,h,hloops,rfl,by simp⟩

theorem found_run {stack : List Frame} {ms : List Label} {s : Config n} {fs : List Frame}
    {fr : Frame} (hs : s.stack = fs ++ fr :: stack) (hloops : fr.loops = true)
    (hin : Runs.Guarded step (fun s l => s.ends stack l = false) s ms) {next : Nat}
    {disconnected : Bool}
    (hlast : (Runs.run step s ms).stack = .scan next disconnected :: stack) :
    disconnected = false ↔
      fr.found = false ∧ Runs.Guarded step (fun s l => s.loses stack l = false) s ms := by
  induction ms generalizing s fs fr with
  | nil =>
    have hlen := congrArg List.length (hs.symm.trans hlast)
    simp only [List.length_append,List.length_cons] at hlen
    obtain rfl : fs = [] := List.length_eq_zero_iff.mp (by omega)
    obtain ⟨rfl,_⟩ := List.cons.inj (hs.symm.trans hlast)
    simp [Frame.found]
  | cons m ms ih =>
    obtain ⟨fs',fr',hs',hloops',hfound,_⟩ := base_step hs hloops hin.1
    rw [ih hs' hloops' hin.2 hlast,hfound,Bool.or_eq_false_iff,and_assoc]
    exact Iff.rfl

-- The client is still at the connect() made in s: the new socket is open, and nothing was asked of
-- the board since, or the connect is queued.
def CarriesOut (s s' : Config n) : Prop :=
  s'.client.attempt = s.client.attempt ∧
    (s'.client.state = .connecting ∧ 0 ≤ s'.client.tcp.fd ∧ s'.client.tcp.state = .pending ∧
        Trace.Grows (fun e => e.board = false) s.world.log s'.world.log ∨
      s'.client.state = .ethernet ∧ s'.client.wantConnect = true)

-- The calls with which the sketch itself takes up or gives up a connection, or has it advanced.
def redirects (l : Label) : Bool :=
  match l.act with
  | .call .begin => true
  | .call (.connect _ _ _) => true
  | .call .disconnect => true
  | .call .poll => true
  | _ => false

theorem call_attempt {s : Config n} {op : Op} (hop : redirects {act := .call op} = false) :
    (s.call op).client.attempt = s.client.attempt ∧ (s.call op).client.tcp = s.client.tcp ∧
      Trace.Grows (fun e => e.board = false) s.world.log (s.call op).world.log := by
  have hnote {e : Event} (he : e.board = false) (log : List Event) :
      Trace.Grows (fun e : Event => e.board = false) log (e :: log) :=
    Trace.Grows.cons (K := fun e : Event => e.board = false) he log
  have hstart {handle : Int} {r : Status × PlcClient n × World}
      (h : PlcClient.Started s.client handle s.world r) :
      (started handle r s.stack).client.attempt = s.client.attempt ∧
        (started handle r s.stack).client.tcp = s.client.tcp ∧
          Trace.Grows (fun e => e.board = false) s.world.log
            (started handle r s.stack).world.log := by
    cases h with
    | taken _ _ _ _ _ _ _ _ _ hlog =>
      refine ⟨rfl,rfl,?_⟩
      simp only [started,if_true,World.note_log,hlog]
      exact hnote rfl _
    | refused hst _ =>
      refine ⟨rfl,rfl,?_⟩
      simp only [started,if_neg hst]
      exact .refl _ _
  cases op with
  | begin => cases hop
  | connect ip port timeoutMs => cases hop
  | disconnect => cases hop
  | poll => cases hop
  | setCpuSlot slot => exact ⟨rfl,rfl,.refl _ _⟩
  | createTag name elementCount =>
    simp only [call,createTag]
    rcases s.client.createTag_cases name elementCount with ⟨h,hneg,heq⟩ | ⟨i,_,_,_,_,heq⟩
    · rw [heq]
      simp only [if_neg (not_le.mpr hneg)]
      exact ⟨trivial,trivial,.refl _ _⟩
    · rw [heq]
      simp only [if_pos (Int.natCast_nonneg _)]
      exact ⟨rfl,trivial,hnote rfl _⟩
  | destroyTag handle =>
    simp only [call,PlcClient.destroyTag]
    split <;> exact ⟨rfl,rfl,.refl _ _⟩
  | read handle timeoutMs => exact hstart (s.client.read_started handle timeoutMs s.world)
  | write handle timeoutMs => exact hstart (s.client.write_started handle timeoutMs s.world)
  | abortTag handle =>
    simp only [call,abortTag,PlcClient.abortTag]
    cases hvalid : s.client.validHandle handle with
    | none => exact ⟨rfl,rfl,.refl _ _⟩
    | some i =>
      refine ⟨rfl,rfl,?_⟩
      simp only
      split
      · exact hnote rfl _
      · exact .refl _ _
  | setTag handle f =>
    simp only [call,setTag,PlcClient.setTag]
    cases hvalid : s.client.validHandle handle with
    | none => exact ⟨rfl,rfl,.refl _ _⟩
    | some i =>
      refine ⟨rfl,rfl,?_⟩
      simp only
      split
      · exact hnote rfl _
      · exact .refl _ _
  | setTagCallback set => exact ⟨rfl,rfl,.refl _ _⟩
  | setStateCallback set => exact ⟨rfl,rfl,.refl _ _⟩

theorem visitMarks_aboard (i : Nat) (st : Status) (m : ExplicitMessage) (inFlight called : Bool)
    (log : List Event) : Trace.Grows (fun e => e.board = false) log
      (visitMarks i st m inFlight called ++ log) := by
  refine ⟨visitMarks i st m inFlight called,rfl,fun e he => ?_⟩
  simp only [visitMarks,List.mem_append] at he
  rcases he with he | he
  · split at he
    · rw [List.mem_singleton.mp he]
      rfl
    · cases he
  · split at he
    · rw [List.mem_singleton.mp he]
      rfl
    · cases he

theorem visit_attempt {s : Config n} (hex : s.client.Exclusive s.world.log) (i : Fin n)
    (disconnected : Bool) (stack : List Frame) :
    (s.visit i disconnected stack).client.attempt = s.client.attempt ∧
      (s.client.tcp.state = .pending → (s.visit i disconnected stack).client.tcp = s.client.tcp ∧
        Trace.Grows (fun e => e.board = false) s.world.log
          (s.visit i disconnected stack).world.log) := by
  rcases hpoll : (s.client.tags i).poll s.client.msg s.client.tcp s.world with ⟨st,g,m,t,w⟩
  have hmoved := hex.poll_moved hpoll
  rw [visit_client disconnected stack hpoll,visit_log disconnected stack hpoll]
  refine ⟨?_,fun hpend => ?_⟩
  · simp only [PlcClient.attempt,hmoved.kept.fd_eq]
  · obtain ⟨_,ht,hlog⟩ := hmoved.still fun hlive => by simp [hlive.2] at hpend
    refine ⟨ht,?_⟩
    rw [hlog]
    exact visitMarks_aboard _ _ _ _ _ _

theorem own_attempt {s : Config n} (hex : s.client.Exclusive s.world.log) {stack : List Frame}
    {l : Label} (hown : s.owns stack l = true)
    (hlast : ∀ next, n ≤ next → s.stack ≠ .scan next true :: stack) :
    (s.step l).client.attempt = s.client.attempt := by
  obtain ⟨a,script⟩ := l
  unfold owns at hown
  split at hown
  · next next disconnected rest ha hstack =>
    obtain rfl : rest = stack := by simpa using hown
    obtain rfl : a = .advance := ha
    have hheard : (s.hear script).stack = .scan next disconnected :: rest := hstack
    simp only [step,act,advance,hheard]
    split_ifs with hin huse
    · exact (visit_attempt (s := s.hear script) hex _ _ _).1
    · rfl
    · cases disconnected with
      | false => rfl
      | true => exact absurd hstack (hlast next (Nat.le_of_not_lt hin))
  · cases hown

theorem carries_step {s s' : Config n} (hex : s'.client.Exclusive s'.world.log)
    (h : CarriesOut s s') {stack : List Frame} {fr : Frame} (hstack : s'.stack = fr :: stack)
    {l : Label} (hends : s'.ends stack l = false) (hred : redirects l = false) :
    CarriesOut s (s'.step l) := by
  have hnext {s'' : Config n} (hattempt : s''.client.attempt = s'.client.attempt)
      (hopen : s'.client.tcp.state = .pending → s''.client.tcp = s'.client.tcp ∧
        Trace.Grows (fun e => e.board = false) s'.world.log s''.world.log) :
      CarriesOut s s'' := by
    have hstate : s''.client.state = s'.client.state := congrArg Prod.fst hattempt
    have hwant : s''.client.wantConnect = s'.client.wantConnect :=
      congrArg (fun a => a.2.2.1) hattempt
    refine ⟨hattempt.trans h.1,?_⟩
    rw [hstate,hwant]
    rcases h.2 with ⟨hs,hfd,hpend,hgrow⟩ | hqueued
    · obtain ⟨htcp,hmore⟩ := hopen hpend
      exact Or.inl ⟨hs,by rw [htcp]; exact hfd,by rw [htcp]; exact hpend,hgrow.trans hmore⟩
    · exact Or.inr hqueued
  have hsame {s'' : Config n} (hc : s''.client = s'.client) (hlog : s''.world.log = s'.world.log) :
      CarriesOut s s'' :=
    hnext (by rw [hc]) fun _ => ⟨by rw [hc],by rw [hlog]; exact .refl _ _⟩
  obtain ⟨a,script⟩ := l
  cases a with
  | call op =>
    simp only [step,act]
    split
    · exact hsame rfl rfl
    · obtain ⟨hattempt,htcp,hgrow⟩ := @call_attempt n (s'.hear script) op hred
      exact hnext hattempt fun _ => ⟨htcp,hgrow⟩
  | advance =>
    simp only [step,act,advance]
    split
    · next next disconnected rest hheard =>
      obtain ⟨rfl,rfl⟩ := List.cons.inj (hstack.symm.trans hheard)
      split_ifs with hin huse
      · obtain ⟨hattempt,hopen⟩ :=
          visit_attempt (s := s'.hear script) hex ⟨next,hin⟩ disconnected stack
        exact hnext hattempt hopen
      · exact hsame rfl rfl
      · simp [ends,hstack,Nat.le_of_not_lt hin] at hends
    · exact hsame rfl rfl
  | ret =>
    simp only [step,act,ret]
    split <;> exact hsame rfl rfl

theorem carries_run {s s' : Config n} (hex : s'.client.Exclusive s'.world.log)
    (h : CarriesOut s s') {stack : List Frame} {fr : Frame} (hstack : s'.stack = fr :: stack)
    (hloops : fr.loops = true) {ms : List Label}
    (hin : Runs.Guarded step (fun s l => s.ends stack l = false) s' ms)
    (hred : ∀ m ∈ ms, redirects m = false) : CarriesOut s (Runs.run step s' ms) := by
  induction ms generalizing s' fr with
  | nil => exact h
  | cons m ms ih =>
    have hm := hred m (by simp)
    have hpoll : m.act ≠ .call .poll := fun ha => by simp [redirects,ha] at hm
    have halone : s'.stack = [] ++ fr :: stack := hstack
    obtain ⟨fs,fr',hs',hloops',_,hlen⟩ := base_step halone hloops hin.1
    obtain rfl : fs = [] := List.length_eq_zero_iff.mp (Nat.le_zero.mp (hlen hpoll))
    exact ih (s'.exclusive_step m hex) (carries_step hex h hstack hin.1 hm) hs' hloops' hin.2
      fun k hk => hred k (by simp [hk])

theorem connect_pending {c : PlcClient n} {ip : UInt32} {port : UInt16} {timeoutMs : UInt32}
    {w : World} (h : (c.connect ip port timeoutMs w).1 = .pending) :
    let c' := (c.connect ip port timeoutMs w).2.1
    c'.state = .connecting ∧ 0 ≤ c'.tcp.fd ∧ c'.tcp.state = .pending ∨
      c'.state = .ethernet ∧ c'.wantConnect = true := by
  have hfailed : (c.connect ip port timeoutMs w).2.1.state ≠ .failed := by
    simp only [PlcClient.connect] at h ⊢
    split_ifs at h ⊢ with hready hst
    · exact absurd h hst
    · simp
    · simp
  have hqueued : c.eth.ready = false → (c.connect ip port timeoutMs w).2.1.wantConnect = true := by
    intro hready
    simp [PlcClient.connect,hready]
  obtain ⟨st,c',w',heq,⟨hready,_,_,hstate,_⟩ | ⟨_,_,_,hdial⟩⟩ := c.connect_cases ip port timeoutMs w
  · rw [heq] at hqueued ⊢
    exact Or.inr ⟨hstate,hqueued hready⟩
  · rw [heq] at hfailed ⊢
    generalize htcp : c'.tcp = tcp at hdial
    generalize hstate : c'.state = state at hdial
    cases hdial with
    | dialed hfd htfd htst _ _ =>
      exact Or.inl ⟨hstate,by rw [htcp,htfd]; exact hfd,by rw [htcp]; exact htst⟩
    | refused _ => exact absurd hstate hfailed

theorem connect_carries {s : Config n} {next : Nat} {disconnected : Bool} {stack : List Frame}
    (hstack : s.stack = .tagCallback next disconnected :: stack) {ip : UInt32} {port : UInt16}
    {timeoutMs : UInt32} {script : Script}
    (hconn : (s.client.connect ip port timeoutMs (s.hear script).world).1 = .pending) :
    let s' := s.step {act := .call (.connect ip port timeoutMs), script := script}
    s'.stack = s.stack ∧ CarriesOut s' s' := by
  have hscan : (s.hear script).scanning = false := by
    have hheard : (s.hear script).stack = .tagCallback next disconnected :: stack := hstack
    simp [scanning,hheard]
  have hstep : s.step {act := .call (.connect ip port timeoutMs), script := script} =
      (s.hear script).call (.connect ip port timeoutMs) := by
    simp only [step,act,hscan,Bool.false_eq_true,if_false]
  rw [hstep]
  refine ⟨rfl,rfl,?_⟩
  rcases connect_pending hconn with ⟨hs,hfd,hpend⟩ | hqueued
  · exact Or.inl ⟨hs,hfd,hpend,.refl _ _⟩
  · exact Or.inr hqueued

theorem last_step {s : Config n} {next : Nat} {disconnected : Bool} {stack : List Frame}
    (hstack : s.stack = .scan next disconnected :: stack) (hle : n ≤ next) {l : Label}
    (ha : l.act = .advance) :
    s.step l = enter (s.client.finish disconnected (s.hear l.script).world) stack := by
  have hheard : (s.hear l.script).stack = .scan next disconnected :: stack := hstack
  simp only [step,act,ha,advance,hheard]
  rw [dif_neg (Nat.not_lt.mpr hle)]
  rfl

theorem owns_advance {s : Config n} {stack : List Frame} {l : Label}
    (h : s.owns stack l = true) : l.act = .advance := by
  unfold owns at h
  split at h
  · next ha _ => exact ha
  · cases h

theorem owns_run {s : Config n} (hex : s.client.Exclusive s.world.log) {stack : List Frame}
    {ms : List Label} (hin : Runs.Guarded step (fun s l => s.ends stack l = false) s ms) :
    Runs.Guarded step
      (fun s l => s.owns stack l = true → (s.step l).client.attempt = s.client.attempt) s ms := by
  induction ms generalizing s with
  | nil => trivial
  | cons m ms ih =>
    refine ⟨fun hown => own_attempt hex hown fun next hle hstack => ?_,
      ih (s.exclusive_step m hex) hin.2⟩
    have hends := hin.1
    simp [ends,owns_advance hown,hstack,hle] at hends

theorem exclusive_run {s : Config n} (hex : s.client.Exclusive s.world.log) (ms : List Label) :
    (Runs.run step s ms).client.Exclusive (Runs.run step s ms).world.log :=
  @Runs.invariant_always _ _ step (fun s : Config n => s.client.Exclusive s.world.log)
    (fun s l h => s.exclusive_step l h) s hex ms

theorem reentrant_connect_is_honoured {s : Config n} (hs : Reachable s) {next : Nat}
    {disconnected : Bool} {stack : List Frame}
    (hstack : s.stack = .tagCallback next disconnected :: stack) {ip : UInt32} {port : UInt16}
    {timeoutMs : UInt32} {script : Script}
    (hconn : (s.client.connect ip port timeoutMs (s.hear script).world).1 = .pending)
    {ms : List Label} {l : Label}
    (hin : Runs.Guarded step (fun s l => s.ends stack l = false)
      (s.step {act := .call (.connect ip port timeoutMs), script := script}) ms)
    (hlast : (Runs.run step (s.step {act := .call (.connect ip port timeoutMs), script := script})
      ms).ends stack l = true) :
    let s' := s.step {act := .call (.connect ip port timeoutMs), script := script}
    let s'' := Runs.run step s' (ms ++ [l])
    let clear := disconnected = false ∧
      Runs.Guarded step (fun s l => s.loses stack l = false) s' ms
    (clear → s''.stack = stack ∧ Runs.Guarded step
      (fun s l => s.owns stack l = true → (s.step l).client.attempt = s.client.attempt) s'
        (ms ++ [l])) ∧
    ((∀ m ∈ ms, redirects m = false) → (s''.stack = stack ∧ CarriesOut s' s'' ↔ clear)) := by
  intro s' s'' clear
  have hex : s'.client.Exclusive s'.world.log := by
    obtain ⟨memory,time,ls,rfl⟩ := hs
    exact Config.exclusive_step _ _ (exclusive_after memory time ls)
  obtain ⟨hkept,hcarries⟩ := connect_carries hstack hconn
  have hbase : s'.stack = [] ++ .tagCallback next disconnected :: stack := hkept.trans hstack
  obtain ⟨ha,last,found,hend,hle⟩ := ends_eq hlast
  have hfound : found = false ↔ clear := found_run hbase rfl hin hend
  have hlaststep : s'' = enter ((Runs.run step s' ms).client.finish found
      ((Runs.run step s' ms).hear l.script).world) stack := by
    change Runs.run step s' (ms ++ [l]) = _
    rw [Runs.run_append]
    exact last_step hend hle ha
  refine ⟨fun hclear => ⟨?_,?_⟩,fun hred => ⟨fun hdone => ?_,fun hclear => ?_⟩⟩
  · rw [hlaststep,hfound.mpr hclear]
    rfl
  · refine (Runs.guarded_append step _ s' ms [l]).mpr ⟨owns_run hex hin,fun hown => ?_,trivial⟩
    refine own_attempt (exclusive_run hex ms) hown fun k _ hstack => ?_
    have hframe := (List.cons.inj (hend.symm.trans hstack)).1
    rw [hfound.mpr hclear] at hframe
    cases hframe
  · -- A loop that found a tag Closed ends with the client Idle.
    cases found with
    | false => exact hfound.mp rfl
    | true =>
      have hidle : s''.client.state = .idle := by
        rw [hlaststep,enter_client]
        rfl
      rcases hdone.2.2 with ⟨hstate,_⟩ | ⟨hstate,_⟩
      · rw [hidle] at hstate
        cases hstate
      · rw [hidle] at hstate
        cases hstate
  · have hrun := carries_run hex hcarries hbase rfl hin hred
    rw [hlaststep,hfound.mpr hclear]
    exact ⟨rfl,hrun⟩

end Config

namespace Sample

-- The poll() that ends the read of A, in the callback of the tag.
def answeredA (script : Script) : List Label :=
  watched ++ sweep {sends := [.ok 48]} ++ [call .poll,{act := .advance, script := script}]

def again : Label := call (.connect 1 44818 5000) {sockets := [4]}

-- The rest of that poll(): the callback returns and the loop goes on to its end.
def rest : List Label := {act := .ret} :: advance 7

theorem connect_in_callback_honoured :
    let s := after (answeredA {recvs := [.ok (dataReply 1 dint)]})
    s.stack = [.tagCallback 1 false] ∧
      Config.CarriesOut (s.step again) (Runs.run Config.step (s.step again) (rest ++ advance 1)) := by
  intro s
  have hstack : s.stack = [.tagCallback 1 false] := by decide +kernel
  exact ⟨hstack,(((Config.reentrant_connect_is_honoured ⟨memory,0,_,rfl⟩ hstack
    (by decide +kernel) (by decide +kernel) (by decide +kernel)).2 (by decide +kernel)).mpr
      ⟨rfl,by decide +kernel⟩).2⟩

theorem connect_in_callback_dropped :
    let s := after (answeredA {recvs := [.ok []]})
    let s' := s.step again
    let s'' := Runs.run Config.step s' (rest ++ advance 1)
    s.stack = [.tagCallback 1 true] ∧ .tagCallback 0 .closed ∈ s.world.log ∧
      (s.client.connect 1 44818 5000 (s.hear again.script).world).1 = .pending ∧
      s'.client.state = .connecting ∧ s'.client.tcp.fd = 4 ∧ s''.stack = [] ∧
        s''.client.state = .idle ∧ s''.client.tcp.fd = -1 ∧ .close 4 ∈ s''.world.log := by
  decide +kernel

end Sample

end ControlLogix
