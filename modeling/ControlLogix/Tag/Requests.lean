import ControlLogix.Cip.Encoders
import ControlLogix.Server.ReadAfterWrite

namespace ControlLogix

open SyntheticServer (Request unconnectedRequest)

-- A request on the wire, by itself or in an Unconnected Send.
def Carried (r : Request) (frame : List UInt8) : Prop :=
  match r.slot with
  | none => ∃ cip, PathSized r.service r.path r.rest cip ∧
      Measured ExplicitMessage.kTxSize 36 0x00B2 frame cip
  | some slot => ∃ wrapper cip, wrapper.length ≤ ExplicitMessage.kWrapperSize ∧
      Wrapped slot r.service r.path r.rest wrapper ∧
      PathSized kUnconnectedSend [0x20,kConnectionManagerClass,0x24,0x01] wrapper cip ∧
        Measured ExplicitMessage.kTxSize 36 0x00B2 frame cip

-- sizeof(path), and sizeof(wdata) in startWrite.
def Tag.kPathSize : Nat := 128

def Tag.kWriteSize : Nat := 2 + 2 + kMaxDataSize

namespace SyntheticServer

theorem Request.send_carried {r : Request} {m : ExplicitMessage} {t : TcpConnection}
    {sessionHandle timeoutMs : UInt32} {w : World}
    (h : (r.send m t sessionHandle timeoutMs w).1 = .pending) :
    Carried r (r.send m t sessionHandle timeoutMs w).2.1.io.tx := by
  obtain ⟨slot,service,path,rest⟩ := r
  cases slot with
  | none =>
    obtain ⟨cip,hframe,hcip⟩ := ExplicitMessage.send_measured h
    exact ⟨cip,hcip,hframe⟩
  | some slot => exact ExplicitMessage.sendRouted_measured h

theorem Request.send_not_too_large {r : Request} (hfits : r.fits)
    (hslot : ∀ slot, r.slot = some slot → slot ≤ 16) (m : ExplicitMessage) (t : TcpConnection)
    (sessionHandle timeoutMs : UInt32) (w : World) :
    (r.send m t sessionHandle timeoutMs w).1 ≠ .invalidArg := by
  obtain ⟨hlen,heven⟩ := hfits
  obtain ⟨slot,service,path,rest⟩ := r
  have hok : ¬(ExplicitMessage.kMaxCipData < 2 + path.length + rest.length ∨
      path.length % 2 ≠ 0) := by
    rintro (h | h)
    · exact absurd hlen (Nat.not_le.mpr h)
    · exact h heven
  cases slot with
  | none =>
    simp only [Request.send,ExplicitMessage.send]
    rw [if_neg hok]
    split_ifs <;> simp [ExplicitMessage.startSend]
  | some slot =>
    have hroute : ¬ 16 < slot := UInt8.not_lt.mpr (hslot slot rfl)
    simp only [Request.send,ExplicitMessage.sendRouted]
    rw [if_neg hroute,if_neg hok]
    split_ifs <;> simp [ExplicitMessage.startSend]

end SyntheticServer

namespace Access

theorem request_sizes (a : Access) (hname : a.name.length ≤ kMaxSymbolicName) :
    a.request.path.length ≤ Tag.kPathSize ∧ a.request.rest.length ≤ Tag.kWriteSize := by
  have hpath := appendSymbolic_size hname
  have hvalue := a.value_length
  simp only [kMaxSymbolicName] at hname
  simp only [request,Tag.kPathSize,Tag.kWriteSize]
  refine ⟨by omega,?_⟩
  cases a.kind <;> simp <;> omega

theorem start_carried {a : Access} {m : ExplicitMessage} {t : TcpConnection} {w : World}
    (h : (a.start m t w).1 = .pending) : a.request.path.length ≤ Tag.kPathSize ∧
      a.request.rest.length ≤ Tag.kWriteSize ∧ Carried a.request (a.start m t w).2.2.1.io.tx := by
  rcases a.start_eq m t w with ⟨heq,hname,_,_⟩ | ⟨_,st,hst,heq⟩
  · obtain ⟨hpath,hrest⟩ := a.request_sizes hname
    refine ⟨hpath,hrest,?_⟩
    simp only [heq] at h ⊢
    by_cases hst : (a.request.send m t a.sessionHandle a.timeoutMs w).1 = .pending
    · rw [if_neg (not_not.mpr hst)]
      exact SyntheticServer.Request.send_carried hst
    · rw [if_pos hst] at h
      exact absurd h hst
  · rw [heq] at h
    exact absurd h hst

theorem start_not_too_large {a : Access} (hname : a.name.length ≤ kMaxSymbolicName)
    (hslot : a.cpuSlot = kNoRoute ∨ a.cpuSlot ≤ 16)
    (hvalue : a.kind = .write → a.tag.writeLength a.elementCount ≠ none) (m : ExplicitMessage)
    (t : TcpConnection) (w : World) : (a.start m t w).1 ≠ .invalidArg := by
  have hroute : ∀ slot, a.request.slot = some slot → slot ≤ 16 := by
    intro slot h
    simp only [request] at h
    split_ifs at h with hdirect
    exact Option.some.inj h ▸ hslot.resolve_left hdirect
  have hsent := SyntheticServer.Request.send_not_too_large a.request_fits hroute m t
    a.sessionHandle a.timeoutMs w
  have hname' : ¬ kMaxSymbolicName < a.name.length := Nat.not_lt.mpr hname
  cases hkind : a.kind with
  | read =>
    simp only [start,hkind,Tag.read,if_neg hname',startRead_request hkind]
    split_ifs
    · simp
    · exact hsent
    · simp
  | write =>
    obtain ⟨len,hlen⟩ := Option.ne_none_iff_exists'.mp (hvalue hkind)
    simp only [start,hkind,Tag.write,if_neg hname',startWrite_request hkind hlen]
    split_ifs
    · simp
    · simp
    · exact hsent
    · simp

end Access

theorem encoders_are_exact :
    (∀ (a : Access) m t w, (a.start m t w).1 = .pending →
      a.request.path.length ≤ Tag.kPathSize ∧ a.request.rest.length ≤ Tag.kWriteSize ∧
        Carried a.request (a.start m t w).2.2.1.io.tx) ∧
    (∀ (m : ExplicitMessage) t sessionHandle service path data timeoutMs w,
      (m.send t sessionHandle service path data timeoutMs w).1 = .pending →
      Carried {service := service, path := path, rest := data}
        (m.send t sessionHandle service path data timeoutMs w).2.1.io.tx) ∧
    (∀ (m : ExplicitMessage) t sessionHandle slot service path data timeoutMs w,
      (m.sendRouted t sessionHandle slot service path data timeoutMs w).1 = .pending →
      Carried {slot := some slot, service := service, path := path, rest := data}
        (m.sendRouted t sessionHandle slot service path data timeoutMs w).2.1.io.tx) ∧
    (∀ (c : Connection) sessionHandle service path data timeoutMs w,
      (c.send sessionHandle service path data timeoutMs w).1 = .pending →
      ∃ sequence cip, PathSized service path data cip ∧ Measured Connection.kTxSize 40 0x00B1
        (c.send sessionHandle service path data timeoutMs w).2.1.io.tx (putU16 sequence ++ cip)) ∧
    (∀ (c : Connection) t sessionHandle tagName timeoutMs cpuSlot chip g w,
      (c.open t sessionHandle (some tagName) timeoutMs cpuSlot chip g w).1 = .pending →
      tagName.length < Connection.kTagNameSize ∧ Connection.Managed Connection.kForwardOpen []
        (Connection.buildConnectionPath cpuSlot tagName)
        (c.open t sessionHandle (some tagName) timeoutMs cpuSlot chip g w).2.1.fwd.io.tx) ∧
    (∀ (time : Nat) (ls : List Connection.Call) t sessionHandle timeoutMs chip g w,
      let c := (Connection.Run.after time ls).client
      (c.close t sessionHandle timeoutMs chip g w).1 = .pending →
      Connection.Managed Connection.kForwardClose [0]
        (Connection.buildConnectionPath c.cpuSlot c.tagName)
        (c.close t sessionHandle timeoutMs chip g w).2.1.fwd.io.tx) ∧
    ∀ (a : Access) m t w, a.name.length ≤ kMaxSymbolicName →
      (a.cpuSlot = kNoRoute ∨ a.cpuSlot ≤ 16) →
      (a.kind = .write → a.tag.writeLength a.elementCount ≠ none) →
      (a.start m t w).1 ≠ .invalidArg := by
  refine ⟨fun _ _ _ _ => Access.start_carried,?_,?_,fun _ _ _ _ _ _ _ => Connection.send_measured,
    fun _ _ _ _ _ _ _ _ _ => Connection.open_measured,
    fun time ls _ _ _ _ _ _ => Connection.close_measured (Connection.named_after time ls),
    fun _ m t w hname hslot hvalue => Access.start_not_too_large hname hslot hvalue m t w⟩
  · intro m t sessionHandle service path data timeoutMs w h
    exact SyntheticServer.Request.send_carried
      (r := {service := service, path := path, rest := data}) h
  · intro m t sessionHandle slot service path data timeoutMs w h
    exact SyntheticServer.Request.send_carried
      (r := {slot := some slot, service := service, path := path, rest := data}) h

-- The symbolic segment of a name: its length, its bytes and a pad to whole words.
def Symbolic (name path : List UInt8) : Prop :=
  ∃ (len : UInt8) (pad : List UInt8), path = 0x91 :: len :: (name ++ pad) ∧
    len.toNat = name.length ∧ pad.length = name.length % 2

namespace Access

def asked (a : Access) : Nat :=
  if a.tag.dataType = DataType.code .string then 4 + (getU32 a.tag.data.bytes).toNat
  else a.elementCount.toNat * dataTypeElementSize (DataType.cast a.tag.dataType)

-- What a controller makes out in a frame is what the caller asked for.
def Says (a : Access) (frame : List UInt8) : Prop :=
  ∃ r, unconnectedRequest (frame.drop kEncapsulationHeaderSize) = some r ∧
    r.slot = (if a.cpuSlot = kNoRoute then none else some a.cpuSlot) ∧
    Symbolic a.name r.path ∧ 2 ≤ r.rest.length ∧
    (getU16 r.rest).toNat = a.elementCount.toNat ∧
    match a.kind with
    | .read => r.service = 0x4C ∧ r.rest.drop 2 = []
    | .write => r.service = 0x4D ∧ ∃ value, r.rest.drop 2 = putU16 a.tag.dataType.toUInt16 ++ value ∧
        value <+: a.tag.data.bytes ∧ value.length = a.asked

theorem symbolic_name {a : Access} (hname : a.name.length ≤ kMaxSymbolicName) :
    Symbolic a.name a.request.path := by
  refine ⟨UInt8.ofNat a.name.length,if a.name.length % 2 = 1 then [0] else [],?_,?_,?_⟩
  · exact appendSymbolic_eq hname
  · simp only [kMaxSymbolicName] at hname
    rw [UInt8.toNat_ofNat']
    omega
  · split <;> simp <;> omega

theorem asked_eq {a : Access} {len : Nat} (h : a.tag.writeLength a.elementCount = some len) :
    len = a.asked := by
  simp only [Tag.writeLength] at h
  rw [asked]
  split_ifs at h ⊢ with hstring hlong hmany
  · exact (Option.some.inj h).symm
  · exact (Option.some.inj h).symm

theorem start_decoded {a : Access} {m : ExplicitMessage} {t : TcpConnection} {w : World}
    (h : (a.start m t w).1 = .pending) : a.name.length ≤ kMaxSymbolicName ∧
      (a.kind = .write → ∃ len, a.tag.writeLength a.elementCount = some len ∧
        a.value.length = a.asked ∧ a.value <+: a.tag.data.bytes) ∧
      unconnectedRequest ((a.start m t w).2.2.1.io.tx.drop kEncapsulationHeaderSize) =
        some a.request := by
  have hbegun := a.start_begun m t w
  generalize a.start m t w = r at h hbegun ⊢
  cases hbegun with
  | refused hst _ => exact absurd h hst
  | taken hname hvalue =>
    refine ⟨hname,fun hkind => ?_,?_⟩
    · obtain ⟨len,hlen⟩ := hvalue hkind
      obtain ⟨heq,hsize⟩ := value_eq hlen
      exact ⟨len,hlen,hsize.trans (asked_eq hlen),heq ▸ List.take_prefix _ _⟩
    · have hbody := a.request.frame_body a.sessionHandle m.context
      rw [List.drop_drop] at hbody
      exact (congrArg unconnectedRequest hbody).trans
        (SyntheticServer.unconnectedRequest_body 0 10 a.request_plain a.request_fits)

theorem few_elements {a : Access} {len : Nat} (h : a.tag.writeLength a.elementCount = some len)
    (htype : a.tag.dataType ≠ DataType.code .string) : a.elementCount.toNat ≤ Tag.kMaxDataSize := by
  simp only [Tag.writeLength] at h
  rw [if_neg htype] at h
  split_ifs at h with hmany
  rw [not_or,Nat.not_lt] at hmany
  exact hmany.2.trans (Nat.div_le_self _ _)

def payload (a : Access) : List UInt8 :=
  match a.kind with
  | .read => []
  | .write => putU16 a.tag.dataType.toUInt16 ++ a.value

theorem request_rest (a : Access) :
    a.request.rest = putU16 a.elementCount.toUInt16 ++ a.payload := by
  simp only [request,payload]
  cases a.kind
  · exact (List.append_nil _).symm
  · exact List.append_assoc _ _ _

theorem wire_count (a : Access) :
    (getU16 a.request.rest).toNat = a.elementCount.toNat % 2 ^ 16 := by
  rw [request_rest,getU16_putU16]
  exact UInt32.toNat_toUInt16 _

end Access

-- The count goes out in 16 bits: only the writes of elements check that it fits.
theorem request_says_what_was_asked_iff (a : Access) (m : ExplicitMessage) (t : TcpConnection)
    (w : World) (h : (a.start m t w).1 = .pending) :
    (a.Says (a.start m t w).2.2.1.io.tx ↔ a.elementCount.toNat < 2 ^ 16) ∧
      (a.kind = .write → a.tag.dataType ≠ DataType.code .string →
        a.elementCount.toNat < 2 ^ 16) := by
  obtain ⟨hname,hvalue,hdecoded⟩ := Access.start_decoded h
  have hcount := a.wire_count
  refine ⟨⟨?_,fun hsmall => ?_⟩,fun hkind htype => ?_⟩
  · rintro ⟨r,hr,_,_,_,hsame,_⟩
    rw [hdecoded,Option.some.injEq] at hr
    rw [← hr,hcount] at hsame
    omega
  · refine ⟨a.request,hdecoded,rfl,Access.symbolic_name hname,?_,?_,?_⟩
    · rw [a.request_rest]
      simp
    · rw [hcount,Nat.mod_eq_of_lt hsmall]
    · have hdrop : a.request.rest.drop 2 = a.payload := by
        rw [a.request_rest]
        exact List.drop_left' (putU16_length _)
      rw [hdrop]
      simp only [Access.payload,Access.request]
      cases hkind : a.kind with
      | read => exact ⟨rfl,rfl⟩
      | write =>
        obtain ⟨len,hlen,hsize,hfront⟩ := hvalue hkind
        exact ⟨rfl,a.value,rfl,hfront,hsize⟩
  · obtain ⟨len,hlen,_⟩ := hvalue hkind
    have hfew := Access.few_elements hlen htype
    simp only [Tag.kMaxDataSize] at hfew
    omega

namespace Sample

-- A Write Tag of 32 LINT to a name of 119 bytes, routed to slot 16.
def longest : Access where
  kind := .write
  tag := {data := blank, dataType := DataType.code .lint}
  name := List.replicate 119 0x41
  elementCount := 32
  timeoutMs := 1000
  cpuSlot := 16
  sessionHandle := 7
  script := {}
  polls := 0

def idle : World := {time := 0, script := {}, log := []}

theorem longest_is_exact : Carried longest.request
    (longest.start {} {fd := 3, state := .ok} idle).2.2.1.io.tx :=
  (encoders_are_exact.1 longest {} {fd := 3, state := .ok} idle (by decide +kernel)).2.2

theorem longest_says_what_was_asked :
    longest.Says (longest.start {} {fd := 3, state := .ok} idle).2.2.1.io.tx :=
  (request_says_what_was_asked_iff longest {} {fd := 3, state := .ok} idle
    (by decide +kernel)).1.mpr (by decide)

-- Read Tag of 65537 elements of "A".
def readMany : Access where
  kind := .read
  tag := {data := blank}
  name := [0x41]
  elementCount := 65537
  timeoutMs := 1000
  sessionHandle := 7
  script := {}
  polls := 0

theorem readMany_decoded : unconnectedRequest ((readMany.start {} {fd := 3, state := .ok}
    idle).2.2.1.io.tx.drop kEncapsulationHeaderSize) =
      some {service := 0x4C, path := [0x91,1,0x41,0], rest := putU16 1} := by
  decide +kernel

theorem one_element_is_asked_for :
    (readMany.start {} {fd := 3, state := .ok} idle).1 = .pending ∧
      ¬ readMany.Says (readMany.start {} {fd := 3, state := .ok} idle).2.2.1.io.tx := by
  refine ⟨by decide +kernel,?_⟩
  rintro ⟨r,hr,_,_,_,hcount,_⟩
  rw [readMany_decoded,Option.some.injEq] at hr
  subst hr
  exact absurd hcount (by decide)

end Sample

end ControlLogix
