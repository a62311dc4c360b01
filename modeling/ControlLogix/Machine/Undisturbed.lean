import ControlLogix.Machine.Completion
import ControlLogix.PlcClient.Blind

namespace ControlLogix

open PlcClient Runs

namespace PlcClient

variable {n : Nat} {c c' c'' : PlcClient n} {i : Fin n}

theorem SlotKept.symm (h : SlotKept c c' i) : SlotKept c' c i :=
  ⟨h.tag.symm,h.inUse.symm,h.name.symm,h.count.symm,h.prev.symm⟩

theorem SlotKept.trans (h : SlotKept c c' i) (h' : SlotKept c' c'' i) : SlotKept c c'' i :=
  ⟨h'.tag.trans h.tag,h'.inUse.trans h.inUse,h'.name.trans h.name,h'.count.trans h.count,
    h'.prev.trans h.prev⟩

theorem Started.refused_of_inFlight {handle : Int} {w : World} {r : Status × PlcClient n × World}
    (h : Started c handle w r) (hm : c.msg.inFlight = true) : r.1 ≠ .pending := by
  cases h with
  | taken _ _ _ _ hfree => exact absurd hm (by rw [hfree]; simp)
  | refused hst _ => exact hst

end PlcClient

namespace Config

variable {n : Nat}

-- What two configurations share that differ at most in the slots other than i and in the past.
structure Alike (i : Fin n) (s s' : Config n) : Prop where
  bare : s'.client = s.client.withPool s'.client
  slot : SlotKept s.client s'.client i
  stack : s'.stack = s.stack
  time : s'.world.time = s.world.time

namespace Alike

variable {i : Fin n} {s s' s'' : Config n}

theorem refl (i : Fin n) (s : Config n) : Alike i s s := ⟨rfl,.refl _ i,rfl,rfl⟩

theorem symm (h : Alike i s s') : Alike i s' s := by
  refine ⟨?_,h.slot.symm,h.stack.symm,h.time.symm⟩
  rw [h.bare]

theorem trans (h : Alike i s s') (h' : Alike i s' s'') : Alike i s s'' := by
  refine ⟨?_,h.slot.trans h'.slot,h'.stack.trans h.stack,h'.time.trans h.time⟩
  have hbare := h'.bare
  rw [h.bare] at hbare
  exact hbare

theorem msg (h : Alike i s s') : s'.client.msg = s.client.msg := by rw [h.bare]

theorem tcp (h : Alike i s s') : s'.client.tcp = s.client.tcp := by rw [h.bare]

theorem tagCallback (h : Alike i s s') : s'.client.tagCallback = s.client.tagCallback := by
  rw [h.bare]

theorem busy (h : Alike i s s') : s'.client.busy i = s.client.busy i := by
  rw [PlcClient.busy,PlcClient.busy,h.slot.tag]

theorem hear (h : Alike i s s') (script : Script) : Alike i (s.hear script) (s'.hear script) :=
  ⟨h.bare,h.slot,h.stack,h.time⟩

theorem scanning (h : Alike i s s') : s'.scanning = s.scanning := by
  rw [Config.scanning,Config.scanning,h.stack]

end Alike

-- The calls that report an error: nothing was created and nothing is pending.
def refused (s : Config n) : Op → Bool
  | .createTag name elementCount => (s.client.createTag name elementCount).1 < 0
  | .read handle timeoutMs => (s.client.read handle timeoutMs s.world).1 ≠ .pending
  | .write handle timeoutMs => (s.client.write handle timeoutMs s.world).1 ≠ .pending
  | _ => false

-- The calls that are no business of the operation on slot i.
def aside (i : Fin n) (s : Config n) : Op → Bool
  | .createTag _ _ => true
  | .destroyTag handle => handle ≠ i.val
  | .abortTag handle => handle ≠ i.val
  | op => s.refused op

def Bystands (i : Fin n) (s : Config n) (l : Label) : Prop :=
  ∃ op, l.act = .call op ∧ (s.hear l.script).aside i op = true

def Flies (s : Config n) (i : Fin n) : Prop :=
  s.client.inUse i = true ∧ s.client.busy i = true

instance (i : Fin n) (s : Config n) : Decidable (Flies s i) := inferInstanceAs (Decidable (_ ∧ _))

theorem Alike.flies {i : Fin n} {s s' : Config n} (h : Alike i s s') : Flies s' i ↔ Flies s i := by
  rw [Flies,Flies,h.slot.inUse,h.busy]

theorem started_refused {s : Config n} {handle : Int} {r : Status × PlcClient n × World}
    (h : Started s.client handle s.world r) (hst : r.1 ≠ .pending) :
    started handle r s.stack = s := by
  rw [h.refused_eq hst]
  simp only [started]
  rw [if_neg hst]

theorem refused_call {s : Config n} {op : Op} (h : s.refused op = true) : s.call op = s := by
  cases op with
  | createTag name elementCount =>
    simp only [refused,decide_eq_true_eq] at h
    simp only [call,createTag]
    rcases s.client.createTag_cases name elementCount with ⟨handle,hneg,heq⟩ | ⟨j,_,_,_,_,heq⟩
    · rw [heq]
      simp only
      rw [if_neg (by omega)]
    · rw [heq] at h
      simp only at h
      omega
  | read handle timeoutMs =>
    simp only [refused,decide_eq_true_eq] at h
    exact started_refused (s.client.read_started handle timeoutMs s.world) h
  | write handle timeoutMs =>
    simp only [refused,decide_eq_true_eq] at h
    exact started_refused (s.client.write_started handle timeoutMs s.world) h
  | begin | connect | disconnect | poll | setCpuSlot | destroyTag | abortTag | setTag
  | setTagCallback | setStateCallback => cases h

theorem refused_step {s : Config n} {l : Label} {op : Op} (hact : l.act = .call op)
    (h : (s.hear l.script).refused op = true) : s.step l = s.hear l.script := by
  simp only [step,act,hact]
  split
  · rfl
  · exact refused_call h

theorem createTag_alike {i : Fin n} {s : Config n} (huse : s.client.inUse i = true)
    (name : Option (List UInt8)) (elementCount : UInt32) :
    Alike i s (s.createTag name elementCount) := by
  have hslot := createTag_slotKept huse name elementCount
  simp only [createTag]
  rcases s.client.createTag_cases name elementCount with ⟨handle,_,heq⟩ | ⟨j,_,_,_,_,heq⟩
  · rw [heq]
    exact ⟨rfl,.refl _ i,rfl,by split <;> rfl⟩
  · rw [heq] at hslot ⊢
    exact ⟨rfl,hslot,rfl,by split <;> rfl⟩

theorem destroyTag_alike {i : Fin n} {s : Config n} {handle : Int} (hother : handle ≠ i.val) :
    Alike i s {s with client := (s.client.destroyTag handle).2} := by
  refine ⟨?_,destroyTag_slotKept hother,rfl,rfl⟩
  simp only [destroyTag]
  cases s.client.validHandle handle <;> rfl

theorem setTag_alike {i : Fin n} {s : Config n} {handle : Int} (hother : handle ≠ i.val)
    (f : Tag.Setter) : Alike i s (s.setTag handle f) := by
  refine ⟨?_,setTag_slotKept hother f,rfl,?_⟩
  · simp only [setTag,PlcClient.setTag]
    cases s.client.validHandle handle <;> rfl
  · simp only [setTag]
    cases s.client.validHandle handle with
    | none => rfl
    | some j => simp only; split <;> rfl

theorem abortTag_alike {i : Fin n} {s : Config n} (hex : s.client.Exclusive s.world.log)
    (hbusy : s.client.busy i = true) {handle : Int} (hother : handle ≠ i.val) :
    Alike i s (s.abortTag handle) := by
  have hslot := abortTag_slotKept (c := s.client) hother
  simp only [abortTag,PlcClient.abortTag] at hslot ⊢
  cases hvalid : s.client.validHandle handle with
  | none => exact ⟨rfl,.refl _ i,rfl,rfl⟩
  | some j =>
    have hrest : (s.client.tags j).inFlight = false := by
      by_contra hfly
      rw [Bool.not_eq_false] at hfly
      exact ne_of_validHandle hvalid hother (hex.1.unique hbusy hfly)
    have hmsg : ((s.client.tags j).abort s.client.msg).2 = s.client.msg :=
      if_neg (by simpa [Tag.inFlight] using hrest)
    rw [hvalid] at hslot
    refine ⟨?_,hslot,rfl,?_⟩
    · simp only [hmsg]
    · simp [hrest]

theorem refused_alike {i : Fin n} {s : Config n} {op : Op} (h : s.refused op = true) :
    Alike i s (s.call op) := by
  rw [refused_call h]
  exact .refl i s

theorem starts_refused {i : Fin n} {s : Config n} (hex : s.client.Exclusive s.world.log)
    (hfly : Flies s i) (handle : Int) (timeoutMs : UInt32) :
    s.refused (.read handle timeoutMs) = true ∧ s.refused (.write handle timeoutMs) = true := by
  have hm := hex.msg_inFlight hfly.2
  have hread := (s.client.read_started handle timeoutMs s.world).refused_of_inFlight hm
  have hwrite := (s.client.write_started handle timeoutMs s.world).refused_of_inFlight hm
  exact ⟨decide_eq_true hread,decide_eq_true hwrite⟩

theorem aside_call {i : Fin n} {s : Config n} (hex : s.client.Exclusive s.world.log)
    (hfly : Flies s i) {op : Op} (h : s.aside i op = true) : Alike i s (s.call op) := by
  cases op with
  | createTag name elementCount => exact createTag_alike hfly.1 name elementCount
  | destroyTag handle => exact destroyTag_alike (by simpa [aside] using h)
  | abortTag handle => exact abortTag_alike hex hfly.2 (by simpa [aside] using h)
  | read | write | begin | connect | disconnect | poll | setCpuSlot | setTag | setTagCallback
  | setStateCallback => exact refused_alike h

theorem bystands_step {i : Fin n} {s : Config n} {l : Label}
    (hex : s.client.Exclusive s.world.log) (hfly : Flies s i) (h : Bystands i s l) :
    Alike i s (s.step l) := by
  obtain ⟨op,hact,haside⟩ := h
  have hheard : Alike i s (s.hear l.script) := ⟨rfl,.refl _ i,rfl,rfl⟩
  simp only [step,act,hact]
  split
  · exact hheard
  · exact hheard.trans (aside_call (s := s.hear l.script) hex hfly haside)

def present (s : Config n) : World := {s.world with log := []}

theorem Alike.present {i : Fin n} {s s' : Config n} (h : Alike i s s')
    (hscript : s'.world.script = s.world.script) :
    s'.world = s.present.under s'.world.log := by
  show s'.world = {time := s.world.time, script := s.world.script, log := s'.world.log}
  rw [← h.time,← hscript]

theorem Alike.blind {i : Fin n} {s s' : Config n} (h : Alike i s s')
    (hscript : s'.world.script = s.world.script) {α : Type}
    {f : PlcClient n → World → α × PlcClient n × World} (hf : Blind f) :
    ∃ (out : α) (c : PlcClient n) (w : World),
      f s.client s.world = (out,c.withPool s.client,w.under s.world.log) ∧
      f s'.client s'.world = (out,c.withPool s'.client,w.under s'.world.log) := by
  refine ⟨(f s.client s.present).1,(f s.client s.present).2.1,(f s.client s.present).2.2,
    hf s.client s.client s.present s.world.log,?_⟩
  have hrun := hf s.client s'.client s.present s'.world.log
  rwa [← h.bare,← h.present hscript] at hrun

theorem Alike.turned {i : Fin n} {s s' : Config n} (h : Alike i s s') (c : PlcClient n) (w : World)
    (past past' : List Event) (stack : List Frame) :
    Alike i {client := c.withPool s.client, world := w.under past, stack := stack}
      {client := c.withPool s'.client, world := w.under past', stack := stack} :=
  ⟨rfl,⟨h.slot.tag,h.slot.inUse,h.slot.name,h.slot.count,h.slot.prev⟩,rfl,rfl⟩

theorem Alike.entered {i : Fin n} {s s' : Config n} (h : Alike i s s')
    (hscript : s'.world.script = s.world.script)
    {f : PlcClient n → World → Poll × PlcClient n × World} (hf : Blind f) (stack : List Frame) :
    Alike i (enter (f s.client s.world) stack) (enter (f s'.client s'.world) stack) := by
  obtain ⟨p,c,w,heq,heq'⟩ := h.blind hscript hf
  rw [heq,heq']
  cases p with
  | returns st => exact h.turned c w _ _ stack
  | calls arg st =>
    exact h.turned c (w.note (.stateCallback arg)) _ _ (.stateCallback :: stack)
  | scans => exact h.turned c w _ _ (.scan 0 false :: stack)

theorem Alike.ran {i : Fin n} {s s' : Config n} (h : Alike i s s')
    (hscript : s'.world.script = s.world.script) {α : Type}
    {f : PlcClient n → World → α × PlcClient n × World} (hf : Blind f) :
    Alike i {s with client := (f s.client s.world).2.1, world := (f s.client s.world).2.2}
      {s' with client := (f s'.client s'.world).2.1, world := (f s'.client s'.world).2.2} := by
  obtain ⟨out,c,w,heq,heq'⟩ := h.blind hscript hf
  simp only [heq,heq',h.stack]
  exact h.turned c w _ _ s.stack

theorem Alike.destroyTag {i : Fin n} {s s' : Config n} (h : Alike i s s')
    (huse : s.client.inUse i = true) : Alike i (s.call (.destroyTag i.val))
      (s'.call (.destroyTag i.val)) := by
  have hv := validHandle_eq_some.mpr ⟨rfl,huse⟩
  have hv' := validHandle_eq_some.mpr ⟨rfl,h.slot.inUse.trans huse⟩
  simp only [call,PlcClient.destroyTag,hv,hv']
  refine ⟨?_,⟨h.slot.tag,by simp,h.slot.name,h.slot.count,h.slot.prev⟩,h.stack,h.time⟩
  exact congrArg
    (fun c : PlcClient n => {c with inUse := Function.update s'.client.inUse i false}) h.bare

theorem Alike.setTag {i : Fin n} {s s' : Config n} (h : Alike i s s')
    (huse : s.client.inUse i = true) (f : Tag.Setter) :
    Alike i (s.setTag i.val f) (s'.setTag i.val f) := by
  have hv := validHandle_eq_some.mpr ⟨rfl,huse⟩
  have hv' := validHandle_eq_some.mpr ⟨rfl,h.slot.inUse.trans huse⟩
  simp only [Config.setTag,PlcClient.setTag,hv,hv',h.slot.tag]
  refine ⟨?_,⟨by simp,h.slot.inUse,h.slot.name,h.slot.count,h.slot.prev⟩,h.stack,?_⟩
  · exact congrArg (fun c : PlcClient n =>
      {c with tags := Function.update s'.client.tags i ((s.client.tags i).set f)}) h.bare
  · split
    · exact h.time
    · exact h.time

theorem Alike.abortTag {i : Fin n} {s s' : Config n} (h : Alike i s s')
    (huse : s.client.inUse i = true) : Alike i (s.abortTag i.val) (s'.abortTag i.val) := by
  have hv := validHandle_eq_some.mpr ⟨rfl,huse⟩
  have hv' := validHandle_eq_some.mpr ⟨rfl,h.slot.inUse.trans huse⟩
  simp only [Config.abortTag,PlcClient.abortTag,hv,hv',h.slot.tag,h.msg]
  refine ⟨?_,⟨by simp,h.slot.inUse,h.slot.name,h.slot.count,by simp⟩,h.stack,?_⟩
  · exact congrArg (fun c : PlcClient n => {c with
      tags := Function.update s'.client.tags i ((s.client.tags i).abort s.client.msg).1,
      msg := ((s.client.tags i).abort s.client.msg).2,
      tagPrevStatus := Function.update s'.client.tagPrevStatus i .notReady}) h.bare
  · split
    · exact h.time
    · exact h.time

theorem Alike.call {i : Fin n} {s s' : Config n} (h : Alike i s s')
    (hscript : s'.world.script = s.world.script) (hfly : Flies s i)
    (hex : s.client.Exclusive s.world.log) (hex' : s'.client.Exclusive s'.world.log) (op : Op) :
    Alike i (s.call op) (s'.call op) := by
  have hfly' : Flies s' i := h.flies.mpr hfly
  -- what concerns other slots passes by both configurations
  have hboth (ha : Alike i s (s.call op)) (ha' : Alike i s' (s'.call op)) :
      Alike i (s.call op) (s'.call op) := (ha.symm.trans h).trans ha'
  cases op with
  | begin => exact h.ran hscript begin_blind
  | connect ip port timeoutMs => exact h.ran hscript (connect_blind ip port timeoutMs)
  | disconnect => exact h.ran hscript disconnect_blind
  | poll =>
    simp only [Config.call,h.stack]
    exact h.entered hscript poll_blind s.stack
  | setCpuSlot slot =>
    exact h.ran hscript (f := fun c w => ((),c.setCpuSlot slot,w)) fun _ _ _ _ => rfl
  | setTagCallback set =>
    exact h.ran hscript (f := fun c w => ((),c.setTagCallback set,w)) fun _ _ _ _ => rfl
  | setStateCallback set =>
    exact h.ran hscript (f := fun c w => ((),c.setStateCallback set,w)) fun _ _ _ _ => rfl
  | createTag name elementCount =>
    exact hboth (createTag_alike hfly.1 name elementCount)
      (createTag_alike hfly'.1 name elementCount)
  | read handle timeoutMs =>
    exact hboth (refused_alike (starts_refused hex hfly handle timeoutMs).1)
      (refused_alike (starts_refused hex' hfly' handle timeoutMs).1)
  | write handle timeoutMs =>
    exact hboth (refused_alike (starts_refused hex hfly handle timeoutMs).2)
      (refused_alike (starts_refused hex' hfly' handle timeoutMs).2)
  | destroyTag handle =>
    by_cases hown : handle = i.val
    · rw [hown]
      exact h.destroyTag hfly.1
    · exact hboth (destroyTag_alike hown) (destroyTag_alike hown)
  | abortTag handle =>
    by_cases hown : handle = i.val
    · rw [hown]
      exact h.abortTag hfly.1
    · exact hboth (abortTag_alike hex hfly.2 hown) (abortTag_alike hex' hfly'.2 hown)
  | setTag handle f =>
    by_cases hown : handle = i.val
    · rw [hown]
      exact h.setTag hfly.1 f
    · exact hboth (setTag_alike hown f) (setTag_alike hown f)

theorem Alike.restacked {i : Fin n} {s s' : Config n} (h : Alike i s s') (stack : List Frame) :
    Alike i {s with stack := stack} {s' with stack := stack} := ⟨h.bare,h.slot,rfl,h.time⟩

theorem visit_other {i j : Fin n} {s : Config n} (hex : s.client.Exclusive s.world.log)
    (hwatch : Watched s) (hfly : Flies s i) (huse : s.client.inUse j = true) (hij : i ≠ j)
    (disconnected : Bool) (stack : List Frame) :
    Alike i {s with stack := .scan (j + 1) disconnected :: stack}
      (s.visit j disconnected stack) := by
  have hrest : (s.client.tags j).inFlight = false := by
    by_contra hbusy
    rw [Bool.not_eq_false] at hbusy
    exact hij (hex.1.unique hfly.2 hbusy)
  have hprev : s.client.tagPrevStatus j ≠ .pending := by
    intro hpending
    have hbusy := hwatch j huse hpending
    rw [PlcClient.busy,hrest] at hbusy
    cases hbusy
  have hopen : (s.client.tags j).status ≠ .closed := by
    simp only [Tag.status]
    cases (s.client.tags j).state <;> simp
  simp only [Config.visit,PlcClient.visit,Tag.poll_still hrest]
  rw [if_neg (by simp [hprev]),if_neg (by simp [hrest])]
  refine ⟨rfl,⟨?_,rfl,rfl,rfl,Function.update_of_ne hij _ _⟩,?_,rfl⟩
  · exact Function.update_of_ne hij _ _
  · simp [hopen]

theorem Alike.polled {i : Fin n} {s s' : Config n} (h : Alike i s s')
    (hscript : s'.world.script = s.world.script) : ∃ st g m t w,
      (s.client.tags i).poll s.client.msg s.client.tcp s.world =
        (st,g,m,t,World.under w s.world.log) ∧
      (s'.client.tags i).poll s'.client.msg s'.client.tcp s'.world =
        (st,g,m,t,World.under w s'.world.log) := by
  have hrun := Tag.poll_under (s.client.tags i) s.client.msg s.client.tcp s.present
  refine ⟨_,_,_,_,_,hrun s.world.log,?_⟩
  rw [h.slot.tag,h.msg,h.tcp,h.present hscript]
  exact hrun s'.world.log

theorem Alike.visit {i : Fin n} {s s' : Config n} (h : Alike i s s')
    (hscript : s'.world.script = s.world.script) (disconnected : Bool) (stack : List Frame) :
    Alike i (s.visit i disconnected stack) (s'.visit i disconnected stack) := by
  obtain ⟨st,g,m,t,w,hpoll,hpoll'⟩ := h.polled hscript
  have hmoved (v v' : World) (htime : v'.time = v.time) (stack' : List Frame) : Alike i
      {client := {s.client with
        tags := Function.update s.client.tags i g, msg := m, tcp := t,
        tagPrevStatus := Function.update s.client.tagPrevStatus i st},
       world := v, stack := stack'}
      {client := {s'.client with
        tags := Function.update s'.client.tags i g, msg := m, tcp := t,
        tagPrevStatus := Function.update s'.client.tagPrevStatus i st},
       world := v', stack := stack'} := by
    refine ⟨?_,⟨by simp,h.slot.inUse,h.slot.name,h.slot.count,by simp⟩,rfl,htime⟩
    exact congrArg (fun c : PlcClient n => {c with
      tags := Function.update s'.client.tags i g, msg := m, tcp := t,
      tagPrevStatus := Function.update s'.client.tagPrevStatus i st}) h.bare
  have hcalled : decide (s'.client.tagPrevStatus i = .pending ∧ st ≠ .pending ∧
        s'.client.tagCallback = true) =
      decide (s.client.tagPrevStatus i = .pending ∧ st ≠ .pending ∧
        s.client.tagCallback = true) := by
    rw [h.slot.prev,h.tagCallback]
  simp only [Config.visit,PlcClient.visit,hpoll,hpoll',hcalled]
  rw [h.slot.tag]
  have htime (e : Event) : ((if (s.client.tags i).inFlight = true ∧ st ≠ .pending then
        (w.under s'.world.log).note e else w.under s'.world.log).time) =
      (if (s.client.tags i).inFlight = true ∧ st ≠ .pending then
        (w.under s.world.log).note e else w.under s.world.log).time := by
    split <;> rfl
  split
  · refine hmoved _ _ ?_ _
    exact htime _
  · refine hmoved _ _ ?_ _
    exact htime _

theorem Alike.advance {i : Fin n} {s s' : Config n} (h : Alike i s s')
    (hscript : s'.world.script = s.world.script) (hfly : Flies s i)
    (hex : s.client.Exclusive s.world.log) (hex' : s'.client.Exclusive s'.world.log)
    (hwatch : Watched s) (hwatch' : Watched s') : Alike i s.advance s'.advance := by
  have hfly' : Flies s' i := h.flies.mpr hfly
  simp only [Config.advance,h.stack]
  split
  · next next disconnected stack hstack =>
    by_cases hin : next < n
    · rw [dif_pos hin,dif_pos hin]
      by_cases hown : i = ⟨next,hin⟩
      · rw [← hown,if_pos hfly.1,if_pos hfly'.1]
        exact h.visit hscript disconnected stack
      · have hgoes {t : Config n} (ht : t.client.Exclusive t.world.log) (htw : Watched t)
            (htf : Flies t i) : Alike i {t with stack := .scan (next + 1) disconnected :: stack}
              (if t.client.inUse ⟨next,hin⟩ = true then t.visit ⟨next,hin⟩ disconnected stack
                else {t with stack := .scan (next + 1) disconnected :: stack}) := by
          split
          · next huse => exact visit_other ht htw htf huse hown disconnected stack
          · exact .refl i _
        exact ((hgoes hex hwatch hfly).symm.trans (h.restacked _)).trans
          (hgoes hex' hwatch' hfly')
    · rw [dif_neg hin,dif_neg hin]
      exact h.entered hscript (finish_blind disconnected) stack
  · exact h

theorem Alike.ret {i : Fin n} {s s' : Config n} (h : Alike i s s') : Alike i s.ret s'.ret := by
  simp only [Config.ret,h.stack]
  split
  · exact h.restacked _
  · exact h.restacked _
  · exact h

structure Abreast (i : Fin n) (s s' : Config n) : Prop where
  alike : Alike i s s'
  exclusive : s.client.Exclusive s.world.log
  exclusive' : s'.client.Exclusive s'.world.log
  watched : Watched s
  watched' : Watched s'

theorem Abreast.step {i : Fin n} {s s' : Config n} {l : Label} (h : Abreast i s s')
    (hfly : Flies s i) : Abreast i (s.step l) (s'.step l) := by
  refine ⟨?_,s.exclusive_step l h.exclusive,s'.exclusive_step l h.exclusive',
    watched_step h.watched h.exclusive,watched_step h.watched' h.exclusive'⟩
  have hheard : Alike i (s.hear l.script) (s'.hear l.script) := h.alike.hear l.script
  simp only [Config.step]
  cases l.act with
  | call op =>
    simp only [act,hheard.scanning]
    split
    · exact hheard
    · exact hheard.call rfl hfly h.exclusive h.exclusive' op
  | advance => exact hheard.advance rfl hfly h.exclusive h.exclusive' h.watched h.watched'
  | ret => exact hheard.ret

theorem Abreast.bystands {i : Fin n} {s s' : Config n} {l : Label} (h : Abreast i s s')
    (hfly : Flies s i) (hl : Bystands i s l) : Abreast i (s.step l) s' :=
  ⟨(bystands_step h.exclusive hfly hl).symm.trans h.alike,s.exclusive_step l h.exclusive,
    h.exclusive',watched_step h.watched h.exclusive,h.watched'⟩

theorem Reachable.abreast {s : Config n} (h : s.Reachable) (i : Fin n) : Abreast i s s := by
  obtain ⟨memory,time,ls,rfl⟩ := h
  have hall := @invariant_always _ _ Config.step
    (fun s : Config n => s.client.Exclusive s.world.log ∧ Watched s)
    (fun s l h => ⟨s.exclusive_step l h.1,watched_step h.2 h.1⟩) _
    ⟨exclusive_init memory time,fun _ huse => (by cases huse)⟩ ls
  exact ⟨.refl i _,hall.1,hall.1,hall.2,hall.2⟩

theorem bystands_run {i : Fin n} {s : Config n} {ds : List Label} (h : Abreast i s s)
    (hfly : Flies s i) (hds : Guarded Config.step (Bystands i) s ds) :
    Alike i (run Config.step s ds) s := by
  have hnext (x : Config n) (l : Label) (hx : Abreast i x s) (hl : Bystands i x l) :
      Abreast i (x.step l) s := hx.bystands (hx.alike.flies.mp hfly) hl
  exact (invariant_run hnext h hds).alike

theorem visiting_iff {s : Config n} {l : Label} {i : Fin n} : s.visiting l = some i ↔
    l.act = .advance ∧ s.client.inUse i = true ∧
      ∃ disconnected stack, s.stack = .scan i disconnected :: stack := by
  constructor
  · intro h
    obtain ⟨disconnected,stack,hstack,huse,_⟩ := visiting_step h
    refine ⟨?_,huse,disconnected,stack,hstack⟩
    unfold visiting at h
    split at h
    · next hact _ => exact hact
    · cases h
  · rintro ⟨hact,huse,disconnected,stack,hstack⟩
    exact visiting_eq hact hstack huse

theorem Alike.completes {i : Fin n} {s s' : Config n} (h : Alike i s s') (l : Label) (st : Status) :
    s.Completes l i st ↔ s'.Completes l i st := by
  obtain ⟨got,g,m,t,w,hpoll,hpoll'⟩ := (h.hear l.script).polled rfl
  have hst : ((s.client.tags i).poll s.client.msg s.client.tcp (s.hear l.script).world).1 = got :=
    congrArg (fun r => r.1) hpoll
  have hst' : ((s'.client.tags i).poll s'.client.msg s'.client.tcp
      (s'.hear l.script).world).1 = got := congrArg (fun r => r.1) hpoll'
  rw [Completes,Completes,visiting_iff,visiting_iff,h.stack,h.slot.inUse,h.busy,hst,hst']

end Config

theorem refused_calls_disturb_nothing {n : Nat} {s : Config n} (hs : s.Reachable) :
    (∀ l op, l.act = .call op → (s.hear l.script).refused op = true →
      s.step l = s.hear l.script) ∧
    ∀ i, s.Flies i →
      (∀ ds, Guarded Config.step (Config.Bystands i) s ds →
        Config.Alike i s (run Config.step s ds)) ∧
      ∀ ls kept, Guarded Config.step (fun s _ => s.Flies i) s ls →
        Thinned Config.step (Config.Bystands i) s ls kept →
          Config.Alike i (run Config.step s kept) (run Config.step s ls) ∧
          ∀ l st, (run Config.step s kept).Completes l i st ↔
            (run Config.step s ls).Completes l i st := by
  have hstart := hs.abreast
  refine ⟨fun l op hact h => Config.refused_step hact h,fun i hfly => ⟨fun ds hds => ?_,?_⟩⟩
  · exact (Config.bystands_run (hstart i) hfly hds).symm
  · intro ls kept hflies hthin
    have hkeep (x y : Config n) (l : Label) (h : Config.Abreast i x y) (hfly : x.Flies i) :
        Config.Abreast i (x.step l) (y.step l) := h.step hfly
    have hdrop (x y : Config n) (l : Label) (h : Config.Abreast i x y) (hfly : x.Flies i)
        (hl : Config.Bystands i x l) : Config.Abreast i (x.step l) y := h.bystands hfly hl
    have hrun := thinned_run hkeep hdrop (hstart i) hflies hthin
    exact ⟨hrun.alike.symm,hrun.alike.symm.completes⟩

namespace Sample

-- A read whose request has gone out, calls that are none of its business, and its reply.
def sent : List Label := watched ++ sweep {sends := [.ok 48]}

def others : List Label :=
  [call (.read 0 1000),call (.createTag tagB 1),call (.abortTag 1),call (.destroyTag 1)]

def reply : Label := {act := .advance, script := {recvs := [.ok (dataReply 1 dint)]}}

theorem others_bystand : Guarded Config.step (Config.Bystands firstSlot) (after sent) others :=
  ⟨⟨_,rfl,by decide +kernel⟩,⟨_,rfl,by decide +kernel⟩,⟨_,rfl,by decide +kernel⟩,
    ⟨_,rfl,by decide +kernel⟩,trivial⟩

theorem read_is_undisturbed :
    (after sent).step (call (.read 0 1000)) = (after sent).hear {} ∧
      Config.Alike firstSlot (after sent) (run Config.step (after sent) others) ∧
      Config.Alike firstSlot (run Config.step (after sent) [call .poll])
        (run Config.step (after sent) (others ++ [call .poll])) ∧
      (run Config.step (after sent) (others ++ [call .poll])).Completes reply firstSlot .ok := by
  have hsent : (after sent).Reachable := ⟨_,_,_,rfl⟩
  obtain ⟨hread,hcreate,habort,hdestroy,_⟩ := others_bystand
  have hall := refused_calls_disturb_nothing hsent
  have hslot := hall.2 firstSlot (by decide +kernel)
  have hrun := hslot.2 (others ++ [call .poll]) [call .poll] (by decide +kernel)
    (.drop hread (.drop hcreate (.drop habort (.drop hdestroy (.keep .nil)))))
  refine ⟨hall.1 _ _ rfl (by decide +kernel),hslot.1 others others_bystand,hrun.1,?_⟩
  rw [← hrun.2]
  show _ ∧ _ ∧ _ ∧ _
  decide +kernel

end Sample

end ControlLogix
