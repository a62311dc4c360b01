import ControlLogix.Machine.Exclusive

namespace ControlLogix

open PlcClient

namespace PlcClient

variable {n : Nat}

structure SlotKept (c c' : PlcClient n) (i : Fin n) : Prop where
  tag : c'.tags i = c.tags i
  inUse : c'.inUse i = c.inUse i
  name : c'.tagNames i = c.tagNames i
  count : c'.tagElemCount i = c.tagElemCount i
  prev : c'.tagPrevStatus i = c.tagPrevStatus i

theorem SlotKept.refl (c : PlcClient n) (i : Fin n) : SlotKept c c i := ⟨rfl,rfl,rfl,rfl,rfl⟩

variable {c : PlcClient n} {i : Fin n}

theorem ne_of_validHandle {handle : Int} {j : Fin n} (hvalid : c.validHandle handle = some j)
    (hother : handle ≠ i.val) : i ≠ j := by
  rintro rfl
  exact hother (validHandle_eq_some.mp hvalid).1

theorem createTag_slotKept (huse : c.inUse i = true) (name : Option (List UInt8))
    (elementCount : UInt32) : SlotKept c (c.createTag name elementCount).2 i := by
  rcases c.createTag_cases name elementCount with ⟨h,_,heq⟩ | ⟨j,text,hfree,_,_,heq⟩
  · rw [heq]
    exact .refl c i
  · have hij : i ≠ j := by
      rintro rfl
      rw [findFreeTag_some hfree] at huse
      cases huse
    rw [heq]
    exact ⟨rfl,Function.update_of_ne hij _ _,Function.update_of_ne hij _ _,
      Function.update_of_ne hij _ _,Function.update_of_ne hij _ _⟩

theorem destroyTag_slotKept {handle : Int} (hother : handle ≠ i.val) :
    SlotKept c (c.destroyTag handle).2 i := by
  simp only [destroyTag]
  cases hvalid : c.validHandle handle with
  | none => exact .refl c i
  | some j =>
    have hij : i ≠ j := ne_of_validHandle hvalid hother
    exact ⟨rfl,Function.update_of_ne hij _ _,rfl,rfl,rfl⟩

theorem abortTag_slotKept {handle : Int} (hother : handle ≠ i.val) :
    SlotKept c (c.abortTag handle).2 i := by
  simp only [abortTag]
  cases hvalid : c.validHandle handle with
  | none => exact .refl c i
  | some j =>
    have hij : i ≠ j := ne_of_validHandle hvalid hother
    exact ⟨Function.update_of_ne hij _ _,rfl,rfl,rfl,Function.update_of_ne hij _ _⟩

theorem setTag_slotKept {handle : Int} (hother : handle ≠ i.val) (f : Tag.Setter) :
    SlotKept c (c.setTag handle f) i := by
  simp only [setTag]
  cases hvalid : c.validHandle handle with
  | none => exact .refl c i
  | some j =>
    have hij : i ≠ j := ne_of_validHandle hvalid hother
    exact ⟨Function.update_of_ne hij _ _,rfl,rfl,rfl,rfl⟩

theorem Started.slotKept {handle : Int} {w : World} {r : Status × PlcClient n × World}
    (h : Started c handle w r) (hother : r.1 = .pending → handle ≠ i.val) :
    SlotKept c r.2.1 i := by
  cases h with
  | @taken j _ _ _ _ _ _ hvalid _ _ _ _ _ _ _ _ _ =>
    have hij : i ≠ j := ne_of_validHandle hvalid (hother rfl)
    exact ⟨Function.update_of_ne hij _ _,rfl,rfl,rfl,rfl⟩
  | refused _ _ => exact .refl c i

theorem Started.refused_eq {handle : Int} {w : World} {r : Status × PlcClient n × World}
    (h : Started c handle w r) (hst : r.1 ≠ .pending) : r = (r.1,c,w) := by
  cases h with
  | taken => exact absurd rfl hst
  | refused _ _ => rfl

end PlcClient

end ControlLogix
