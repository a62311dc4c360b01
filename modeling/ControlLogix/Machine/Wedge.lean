import ControlLogix.Machine.Exclusive

namespace ControlLogix

namespace PlcClient

variable {n : Nat} {c : PlcClient n} {i : Fin n}

-- No operation the sketch may ask for is turned away as Busy.
def Accepts (c : PlcClient n) : Prop := ∀ handle timeoutMs w,
  (c.read handle timeoutMs w).1 ≠ .busy ∧ (c.write handle timeoutMs w).1 ≠ .busy

theorem Started.busy {handle : Int} {w : World} {r : Status × PlcClient n × World}
    (h : Started c handle w r) (hr : r.1 = .busy) :
    c.msg.inFlight = true ∨ ∃ i, c.inUse i = true ∧ c.busy i = true := by
  cases h with
  | taken => cases hr
  | refused _ hwhy =>
    rcases (hwhy hr).2 with hbusy | hm | ⟨i,hvalid,hi⟩
    · exact Or.inr ((anyTagBusy_iff c).mp hbusy)
    · exact Or.inl hm
    · exact Or.inr ⟨i,(validHandle_eq_some.mp hvalid).2,hi⟩

theorem accepts_of_free (hm : c.msg.inFlight = false) (hfree : ∀ i, c.busy i = false) :
    c.Accepts := by
  have hnot {handle : Int} {w : World} {r : Status × PlcClient n × World}
      (h : Started c handle w r) : r.1 ≠ .busy := by
    intro hr
    rcases h.busy hr with hbusy | ⟨i,_,hi⟩
    · simp [hm] at hbusy
    · simp [hfree i] at hi
  exact fun handle timeoutMs w => ⟨hnot (c.read_started _ _ _),hnot (c.write_started _ _ _)⟩

theorem tagStatus_pending (c : PlcClient n) (i : Fin n) :
    c.tagStatus i = .pending ↔ c.inUse i = true ∧ c.busy i = true := by
  cases huse : c.inUse i with
  | true => simp [tagStatus,validHandle_eq_some.mpr ⟨rfl,huse⟩,Tag.status_pending,busy]
  | false =>
    have hnone : c.validHandle i = none := by
      by_contra hsome
      obtain ⟨j,hj⟩ := Option.ne_none_iff_exists'.mp hsome
      obtain ⟨hij,hju⟩ := validHandle_eq_some.mp hj
      rw [← Fin.ext (Int.ofNat_inj.mp hij)] at hju
      simp [huse] at hju
    simp [tagStatus,hnone]

theorem accepts_abortTag {log : List Event} (h : Exclusive c log) (huse : c.inUse i = true)
    (hi : c.busy i = true) : (c.abortTag i).2.Accepts := by
  have hend : ((c.tags i).abort c.msg).2 = c.msg.abort := if_pos ((Tag.inFlight_iff _).mp hi)
  simp only [abortTag,validHandle_eq_some.mpr ⟨rfl,huse⟩]
  refine accepts_of_free (by rw [hend]; rfl) (fun j => ?_)
  rw [busy_update (c := c) rfl]
  have hlease := h.1.drop hi c.msg.io.tx
  cases hlease with
  | free hnone _ => exact hnone j

theorem accepts_visit {log : List Event} (h : Exclusive c log) (hi : c.busy i = true) (w : World)
    (hlate : expired w.millis.1 c.msg.deadline = true) : (c.visit i w).2.2.1.Accepts := by
  have hm := (ExplicitMessage.inFlight_iff _).mp (h.msg_inFlight hi)
  have hmsg : c.msg.poll c.tcp w = (.timeout,{c.msg with state := .failed},c.tcp,w.millis.2) := by
    unfold ExplicitMessage.poll
    rcases hm with hm | hm
    · simp [hm,hlate]
    · simp [hm,hlate]
  have htag : (c.tags i).poll c.msg c.tcp w = (.timeout,{(c.tags i) with state := .failed},
      {c.msg with state := .failed},c.tcp,w.millis.2) := by
    simp only [Tag.poll,hmsg]
    rw [if_neg (by simpa [busy,Tag.inFlight,imp_iff_not_or] using hi)]
    simp
  simp only [visit,htag]
  refine accepts_of_free rfl (fun j => ?_)
  rw [busy_update (c := c) rfl]
  have hlease := h.1.drop hi c.msg.io.tx
  cases hlease with
  | free hnone _ => exact hnone j

end PlcClient

namespace Config

variable {n : Nat}

-- destroyTag() on a tag whose operation is in flight.
def destroysBusy (s : Config n) (l : Label) : Bool :=
  match l.act with
  | .call (.destroyTag handle) =>
    match s.client.validHandle handle with
    | some i => s.client.busy i
    | none => false
  | _ => false

def Held (s : Config n) : Prop := ∀ i, s.client.busy i = true → s.client.inUse i = true

theorem Held.update {s s' : Config n} (h : Held s) {i : Fin n} (huse : s.client.inUse i = true)
    {g : Tag} (htags : s'.client.tags = Function.update s.client.tags i g)
    (hin : s'.client.inUse = s.client.inUse) : Held s' := by
  intro j hj
  rw [PlcClient.busy_update htags] at hj
  rw [hin]
  by_cases hji : j = i
  · rw [hji]
    exact huse
  · exact h j (by simpa [hji] using hj)

theorem held_step {s : Config n} {l : Label} (h : Held s) (hg : s.destroysBusy l = false) :
    Held (s.step l) := by
  cases s.step_move l with
  | quiet hk _ _ =>
    intro j hj
    rw [hk.inUse]
    exact h j (by simpa [PlcClient.busy,hk.tags] using hj)
  | created i _ _ _ _ _ _ hc _ =>
    obtain ⟨_,_,hc⟩ := hc
    intro j hj
    rw [hc] at hj ⊢
    by_cases hji : j = i
    · simp [hji]
    · exact (Function.update_of_ne hji true s.client.inUse).trans (h j hj)
  | destroyed i handle ha hvalid _ hc _ =>
    intro j hj
    have hbusy : s.client.busy j = true := by simpa [PlcClient.busy,hc] using hj
    have hji : j ≠ i := by
      rintro rfl
      simp [destroysBusy,ha,hvalid,hbusy] at hg
    rw [hc]
    exact (Function.update_of_ne hji false s.client.inUse).trans (h j hbusy)
  | started i g _ _ _ _ _ _ huse _ _ _ _ _ _ _ _ hc _ =>
    exact h.update huse (g := g) (by rw [hc]) (by rw [hc])
  | typed i f huse hc _ =>
    exact h.update huse (g := (s.client.tags i).set f) (by rw [hc]) (by rw [hc])
  | aborted i huse hc _ =>
    exact h.update huse (g := ((s.client.tags i).abort s.client.msg).1) (by rw [hc]) (by rw [hc])
  | visited i _ _ st g m t w' _ _ huse _ hc _ =>
    exact h.update huse (g := g) (by rw [hc]) (by rw [hc])

theorem held_after (memory : Fin n → Buffer Tag.kMaxDataSize) (time : Nat) {ls : List Label}
    (hrun : Runs.Guarded step (fun s l => s.destroysBusy l = false) (init memory time) ls) :
    Held (after memory time ls) :=
  Runs.invariant_run (fun _ _ h hg => held_step h hg)
    (show Held (init memory time) from fun _ hi => by cases hi) hrun

theorem busy_only_while_pending (memory : Fin n → Buffer Tag.kMaxDataSize) (time : Nat)
    (ls : List Label)
    (hrun : Runs.Guarded step (fun s l => s.destroysBusy l = false) (init memory time) ls) :
    let s := after memory time ls
    (s.client.msg.inFlight = true → ∃ i : Fin n, s.client.tagStatus i = .pending) ∧
    (s.client.state = .ready → s.client.tcp.connected = true → ∀ handle timeoutMs w,
      (s.client.read handle timeoutMs w).1 = .busy ∨
        (s.client.write handle timeoutMs w).1 = .busy →
          ∃ i : Fin n, s.client.tagStatus i = .pending) ∧
    (∀ i : Fin n, s.client.tagStatus i = .pending → (s.client.abortTag i).2.Accepts ∧
      ∀ w, expired w.millis.1 s.client.msg.deadline = true →
        (s.client.visit i w).2.2.1.Accepts) := by
  intro s
  have hheld : Held s := held_after memory time hrun
  have hex : s.client.Exclusive s.world.log := exclusive_after memory time ls
  have hmsg (hm : s.client.msg.inFlight = true) : ∃ i : Fin n, s.client.tagStatus i = .pending := by
    obtain ⟨i,hi⟩ := hex.1.taken_iff.mp hm
    exact ⟨i,(s.client.tagStatus_pending i).mpr ⟨hheld i hi,hi⟩⟩
  have hbusy {handle : Int} {w : World} {r : Status × PlcClient n × World}
      (h : PlcClient.Started s.client handle w r) (hr : r.1 = .busy) :
      ∃ i : Fin n, s.client.tagStatus i = .pending := by
    rcases h.busy hr with hm | ⟨i,hi⟩
    · exact hmsg hm
    · exact ⟨i,(s.client.tagStatus_pending i).mpr hi⟩
  refine ⟨hmsg,?_,?_⟩
  · rintro _ _ handle timeoutMs w (hr | hr)
    · exact hbusy (s.client.read_started handle timeoutMs w) hr
    · exact hbusy (s.client.write_started handle timeoutMs w) hr
  · intro i hi
    obtain ⟨huse,hfly⟩ := (s.client.tagStatus_pending i).mp hi
    exact ⟨PlcClient.accepts_abortTag hex huse hfly,
      fun w hlate => PlcClient.accepts_visit hex hfly w hlate⟩

end Config

namespace Sample

def reading : List Label :=
  online ++ [call (.createTag tagA 1),call (.createTag tagB 1),call (.read 0 1000)]

def orphaned : List Label := reading ++ [call (.destroyTag 0)]

theorem busy_only_while_pending_reading :
    (after reading).client.msg.inFlight = true ∧
      ∃ i : Fin PlcClient.kMaxTags, (after reading).client.tagStatus i = .pending :=
  have hfly : (after reading).client.msg.inFlight = true := by decide +kernel
  ⟨hfly,(Config.busy_only_while_pending memory 0 reading (by decide +kernel)).1 hfly⟩

theorem destroyed_tag_wedges_client :
    let s := after orphaned
    s.client.state = .ready ∧ s.client.tcp.connected = true ∧ s.client.tagStatus 1 = .notReady ∧
      s.client.msg.inFlight = true ∧ (s.client.read 1 1000 s.world).1 = .busy ∧
        ¬ ∃ i : Fin PlcClient.kMaxTags, s.client.tagStatus i = .pending := by
  decide +kernel

end Sample

end ControlLogix
