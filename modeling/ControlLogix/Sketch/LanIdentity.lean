import ControlLogix.Machine
import ControlLogix.Server.Served
import ControlLogix.Sketch.LanScan

namespace ControlLogix

namespace LanInventory

-- A device: the value of each attribute that its Identity object shows, and the state in its answer
-- to ListIdentity.
structure Device where
  shows : UInt8 → Option (List UInt8)
  state : UInt8

-- What a device says of an attribute: its value, or an error.
def Device.Says (device : Device) (attr code : UInt8) (data : List UInt8) : Prop :=
  match device.shows attr with
  | some d => code = 0 ∧ data = d
  | none => code ≠ 0

def Identity.of (shows : UInt8 → Option (List UInt8)) (count : Nat) : Identity :=
  (kIdentityAttrs.take count).foldl (fun id attr => (shows attr).elim id (id.store attr)) {}

-- The attributes that show an identity, as a target encodes them; the name is a SHORT_STRING.
def Identity.shows (x : Identity) (attr : UInt8) : Option (List UInt8) :=
  if attr = 1 then some (putU16 x.vendor)
  else if attr = 2 then some (putU16 x.deviceType)
  else if attr = 3 then some (putU16 x.productCode)
  else if attr = 4 then some [x.revMajor,x.revMinor]
  else if attr = 5 then some (putU16 x.status)
  else if attr = 6 then some (putU32 x.serial)
  else if attr = 7 then some (UInt8.ofNat x.productName.length :: x.productName)
  else if attr = 8 then some [x.state]
  else none

theorem Identity.of_shows (x : Identity) : Identity.of x.shows kIdentityAttrCount =
    {x with productName := UInt8.ofNat x.productName.length :: x.productName.take 62} := by
  have hcut : (UInt8.ofNat x.productName.length :: x.productName).take
      (if x.productName.length + 1 < 63 then x.productName.length + 1 else 63) =
        UInt8.ofNat x.productName.length :: x.productName.take 62 := by
    split_ifs with hshort
    · rw [List.take_succ_cons,List.take_of_length_le (Nat.le_refl _),List.take_of_length_le (by omega)]
    · exact List.take_succ_cons
  simp [Identity.of,kIdentityAttrs,kIdentityAttrCount,Identity.store,Identity.shows,getU16_alone,
    getU32_alone,hcut]

theorem Identity.of_succ (shows : UInt8 → Option (List UInt8)) {k : Nat}
    (h : k < kIdentityAttrCount) : Identity.of shows (k + 1) =
      (shows (kIdentityAttrs.getD k 0)).elim (Identity.of shows k)
        ((Identity.of shows k).store (kIdentityAttrs.getD k 0)) := by
  have hget : kIdentityAttrs[k]? = some (kIdentityAttrs.getD k 0) := by
    rw [List.getD_eq_getElem?_getD]
    exact List.getElem?_eq_some_iff.mpr ⟨h,by simp [List.getElem?_eq_getElem h]⟩
  rw [Identity.of,Identity.of,List.take_add_one,hget,List.foldl_append]
  rfl

-- While the hosts are asked they answer as the devices that they are.
def Truthful (devices : IPAddress → Device) (r : Run) (turn : Turn) : Prop :=
  r.sketch.phase = .query → r.sketch.stepStarted = true →
    let device := devices r.sketch.currentIp
    let reply := r.sketch.msg.poll r.sketch.tcp (r.world.hear turn.script)
    (∀ bs ∈ turn.udp.datagram, identityReply (bs.take 512) = some 0xFF ∨
      identityReply (bs.take 512) = some device.state) ∧
    (reply.1 = .ok → device.Says (kIdentityAttrs.getD r.sketch.queryIndex 0)
      reply.2.1.resultCode reply.2.1.dataBytes)

instance (device : Device) (attr code : UInt8) (data : List UInt8) :
    Decidable (device.Says attr code data) :=
  match h : device.shows attr with
  | some d => decidable_of_iff (code = 0 ∧ data = d) (by rw [Device.Says,h])
  | none => decidable_of_iff (code ≠ 0) (by rw [Device.Says,h])

instance (devices : IPAddress → Device) (r : Run) (turn : Turn) :
    Decidable (Truthful devices r turn) :=
  inferInstanceAs (Decidable (_ → _ → _ ∧ _))

-- What is printed of a device is what it shows of itself.
def Faithful (device : Device) (report : Report) : Prop :=
  report = printDevice report.ip report.id ∧
    ∃ state, (state = (Identity.of device.shows kIdentityAttrCount).state ∨ state = device.state) ∧
      report.id = {Identity.of device.shows kIdentityAttrCount with state := state}

structure Identified (devices : IPAddress → Device) (s : LanInventory) : Prop where
  current : s.phase = .query → s.queryIndex < kIdentityAttrCount ∧
    s.id = Identity.of (devices s.currentIp).shows s.queryIndex
  reports : ∀ report ∈ s.reports, Faithful (devices report.ip) report

theorem finishField_told {device : Device} {s : LanInventory} (h : s.queryIndex < kIdentityAttrCount)
    (hid : s.id = Identity.of device.shows s.queryIndex)
    (htells : device.Says (kIdentityAttrs.getD s.queryIndex 0) s.msg.resultCode s.msg.dataBytes) :
    s.finishField = Identity.of device.shows (s.queryIndex + 1) := by
  rw [finishField,Identity.of_succ _ h,hid]
  rw [Device.Says] at htells
  cases hshown : device.shows (kIdentityAttrs.getD s.queryIndex 0) with
  | none =>
    simp only [hshown] at htells
    exact if_neg (fun hok => htells hok.2)
  | some d =>
    simp only [hshown] at htells
    obtain ⟨hcode,rfl⟩ := htells
    exact if_pos ⟨h,hcode⟩

theorem queryListIdentityState_told {device : Device} {udp : Udp} {w w' : World} {st : UInt8}
    {sent : List (List UInt8)}
    (htells : ∀ bs ∈ udp.datagram, identityReply (bs.take 512) = some 0xFF ∨
      identityReply (bs.take 512) = some device.state)
    (h : queryListIdentityState udp w = (st,sent,w')) : st = 0xFF ∨ st = device.state := by
  simp only [queryListIdentityState] at h
  split_ifs at h
  · cases h
    exact Or.inl rfl
  · cases h
    exact Or.inl rfl
  · cases hbs : udp.datagram with
    | none =>
      rw [hbs] at h
      cases h
      exact Or.inl rfl
    | some bs =>
      rw [hbs] at h
      cases h
      simp only
      rcases htells bs hbs with htold | htold
      · exact Or.inl (by rw [htold]; rfl)
      · exact Or.inr (by rw [htold]; rfl)

theorem identified_loop {devices : IPAddress → Device} {s : LanInventory} (h : Identified devices s)
    {turn : Turn} {w : World} (hanswers : Truthful devices ⟨s,w⟩ turn) :
    Identified devices (s.loop turn (w.hear turn.script)).1 := by
  obtain ⟨hcurrent,hreports⟩ := h
  have hturned := s.loop_turned turn (w.hear turn.script)
  generalize s.loop turn (w.hear turn.script) = r at hturned
  -- Outside of the queries there is no record to fill.
  have leaves {s' : LanInventory} (hs : s'.phase ≠ .query) (hsame : s'.reports = s.reports) :
      Identified devices s' := ⟨fun hc => absurd hc hs,by rw [hsame]; exact hreports⟩
  cases hturned with
  | ethWaits hs _ _ _ => exact leaves (by simp [hs]) rfl
  | ethFails _ _ => exact leaves (by simp) rfl
  | begins _ _ _ => exact leaves (by simp) rfl
  | ends _ _ => exact leaves (by simp) rfl
  | passes hs _ _ => exact leaves (by simp [hs]) rfl
  | probes _ _ _ _ => exact leaves (by simp) rfl
  | dials hs _ => exact leaves (by simp [hs]) rfl
  | refused _ _ _ _ => exact leaves (by simp) rfl
  | connects _ _ _ => exact leaves (by simp) rfl
  | registers hs _ _ _ _ => exact leaves (by simp [hs]) rfl
  | registered _ _ => exact ⟨fun _ => ⟨Nat.succ_pos 7,rfl⟩,hreports⟩
  | unregistered _ _ _ => exact leaves (by simp) rfl
  | asks hs _ _ => exact ⟨fun _ => hcurrent hs,hreports⟩
  | waits hs _ _ _ _ _ _ => exact ⟨fun _ => hcurrent hs,hreports⟩
  | unanswered _ _ _ _ => exact leaves (by simp) rfl
  | @answered msg tcp _ hs hstep hpoll hmore =>
    obtain ⟨hlt,hid⟩ := hcurrent hs
    have hreply := (hanswers hs hstep).2
    simp only [hpoll,forall_const] at hreply
    have hfield := finishField_told (s := {s with msg := msg}) hlt hid hreply
    exact ⟨fun _ => ⟨hmore,hfield⟩,hreports⟩
  | @reports msg tcp w₁ _ st sent id hs hstep hpoll hlast hquery hstate =>
    obtain ⟨hlt,hid⟩ := hcurrent hs
    obtain ⟨hdatagram,hreply⟩ := hanswers hs hstep
    simp only [hpoll,forall_const] at hreply
    have hfield := finishField_told (s := {s with msg := msg}) hlt hid hreply
    have hall : s.queryIndex + 1 = kIdentityAttrCount := Nat.le_antisymm hlt hlast
    rw [hall] at hfield
    refine ⟨fun hc => (by cases hc),fun report hmem => ?_⟩
    rcases List.mem_append.mp hmem with hold | hnew
    · exact hreports report hold
    rw [List.mem_singleton.mp hnew,hstate,hfield]
    refine ⟨rfl,?_⟩
    split_ifs with htold
    · exact ⟨st,Or.inr ((queryListIdentityState_told hdatagram hquery).resolve_left htold),rfl⟩
    · exact ⟨_,Or.inl rfl,rfl⟩
  | closes hs _ _ _ _ _ => exact leaves (by simp [hs]) rfl
  | closed _ _ _ => exact leaves (by simp) rfl
  | abandoned _ _ _ => exact leaves (by simp) rfl
  | idles hs => exact leaves (by simp [hs]) rfl

end LanInventory

open LanInventory

theorem reports_tell_the_devices (devices : IPAddress → Device) (gateway : IPAddress) (w : World)
    (turns : List Turn)
    (hanswers : Runs.Guarded LanInventory.Run.step (Truthful devices)
      (LanInventory.Run.init gateway w) turns) :
    ∀ report ∈ (LanInventory.Run.after gateway w turns).sketch.reports,
      Faithful (devices report.ip) report ∧
        ∀ x : Identity, (devices report.ip).shows = x.shows → (devices report.ip).state = x.state →
          report.id =
            {x with productName := UInt8.ofNat x.productName.length :: x.productName.take 62} := by
  have hinit : Identified devices (LanInventory.Run.init gateway w).sketch := by
    obtain ⟨_,hreports,_,hphase⟩ := setup_started gateway w
    refine ⟨fun hc => ?_,by simp [LanInventory.Run.init,hreports]⟩
    rcases hphase with hs | ⟨hs,_⟩
    · exact absurd (hs.symm.trans hc) (by decide)
    · exact absurd (hs.symm.trans hc) (by decide)
  have hall := @Runs.invariant_run _ _ LanInventory.Run.step (Truthful devices)
    (fun r => Identified devices r.sketch) (fun r turn h hanswer => identified_loop h hanswer)
    _ turns hinit hanswers
  intro report hmem
  have hfaithful := hall.reports report hmem
  refine ⟨hfaithful,fun x hshows hstate => ?_⟩
  obtain ⟨_,state,hwhich,hid⟩ := hfaithful
  rw [hshows,Identity.of_shows] at hid hwhich
  have hsame : state = x.state := hwhich.elim (fun h => h) (fun h => h.trans hstate)
  rw [hid,hsame]

section

open SyntheticServer

def serverIdentity : Identity where
  vendor := 1
  deviceType := 0x000E
  productCode := 1
  revMajor := 1
  revMinor := 20
  status := 0
  serial := 0x12345678
  productName := ascii "Synthetic PLC".toList
  state := 3

def serverDevice : Device := {shows := serverIdentity.shows, state := 3}

theorem identityAttributes_shown (attr : UInt8) :
    Dict.get attr identityAttributes = serverIdentity.shows attr := by
  simp only [identityAttributes,Dict.get,Identity.shows,eq_comm (b := attr)]
  rfl

def identityRequest (attr : UInt8) : Request where
  slot := some 0
  service := Service.code .getAttributeSingle
  path := appendClass 1 ++ appendInstance 1 ++ appendAttribute attr
  rest := []

def identityReplyTo (attr : UInt8) : List UInt8 :=
  match serverIdentity.shows attr with
  | some value => [getAttributeSingle ||| 0x80,0,0,0] ++ value
  | none => [getAttributeSingle ||| 0x80,0,0x09,0]

theorem identity_served (s : SyntheticServer) (session : UInt32) (attr : UInt8) :
    s.handleCipRequest session (identityRequest attr).service (identityRequest attr).path
      (identityRequest attr).rest = some (identityReplyTo attr,s) := by
  have hservice : (identityRequest attr).service = getAttributeSingle := rfl
  have hpath : (identityRequest attr).path = [0x20,0x01,0x24,0x01,0x30,attr] := rfl
  have hother : ¬ getAttributeSingle = getInstanceAttributeList := by decide
  rw [identityReplyTo,← identityAttributes_shown,handleCipRequest,hservice,hpath,if_neg hother]
  have hkind : [0x20,0x01,0x24,0x01,0x30,attr].getD 4 0 = 0x30 := rfl
  have hattr : [0x20,0x01,0x24,0x01,0x30,attr].getD 5 0 = attr := rfl
  rw [if_pos ⟨rfl,Nat.le_refl 6,rfl⟩,if_pos hkind,hattr]
  cases Dict.get attr identityAttributes <;> rfl

theorem serverIdentity_short {attr : UInt8} {value : List UInt8}
    (h : serverIdentity.shows attr = some value) : value.length ≤ 14 := by
  simp only [Identity.shows] at h
  split_ifs at h <;> cases h <;> decide

end

theorem server_is_a_device (server : SyntheticServer) (s : LanInventory) (w : World) (n : Nat)
    (hstarted : (s.startQuery w).1.stepStarted = true)
    (hserved : server.Served n (s.startQuery w).1.msg s.tcp (s.startQuery w).2) :
    ∃ m' w', SyntheticServer.polled n (s.startQuery w).1.msg s.tcp (s.startQuery w).2 =
        (.ok,m',s.tcp,w') ∧
      serverDevice.Says (kIdentityAttrs.getD s.queryIndex 0) m'.resultCode m'.dataBytes := by
  have hpending := of_decide_eq_true hstarted
  have hplain : (identityRequest (kIdentityAttrs.getD s.queryIndex 0)).plain := fun hslot => by
    cases hslot
  obtain ⟨m',w',hrun,_,hcode,hdata⟩ := hserved.answered
    (r := identityRequest (kIdentityAttrs.getD s.queryIndex 0)) hplain hpending
    (identity_served server s.session.handle _) (by
      rw [identityReplyTo]
      split <;> simp) (by
      rw [identityReplyTo]
      split <;> rfl) (by
      rw [identityReplyTo]
      split
      · next value hvalue =>
        have hshort := serverIdentity_short hvalue
        simp only [List.length_append,List.length_cons,List.length_nil,
          ExplicitMessage.kMaxCipData]
        omega
      · decide)
  refine ⟨m',w',hrun,?_⟩
  have hshown : serverDevice.shows = serverIdentity.shows := rfl
  rw [hcode,hdata,identityReplyTo,Device.Says,hshown]
  cases serverIdentity.shows (kIdentityAttrs.getD s.queryIndex 0) with
  | none => exact (by decide : (0x09 : UInt8) ≠ 0)
  | some value => exact ⟨rfl,rfl⟩

namespace Sample

open SyntheticServer

def questioner : LanInventory where
  gateway := ⟨10,0,0,254⟩
  tcp := {fd := 3, state := .ok}
  phase := .query

def askedWorld : World where
  time := 0
  script := {sends := [.ok 5,.error .ewouldblock,.ok 100],
             recvs := [.ok (answer 1 (identityReplyTo 1) (by decide +kernel)
               (by decide +kernel)).bytes]}
  log := []

theorem server_is_asked : ∃ m' w', polled 2 (questioner.startQuery askedWorld).1.msg questioner.tcp
      (questioner.startQuery askedWorld).2 = (.ok,m',questioner.tcp,w') ∧
    serverDevice.Says 1 m'.resultCode m'.dataBytes :=
  server_is_a_device init questioner askedWorld 2 (by decide +kernel)
    ⟨⟨by decide,rfl⟩,by decide +kernel,by decide +kernel,by decide +kernel,by decide +kernel⟩

-- The server at the first of two hosts: found, asked for its attributes one by one, and printed.
def deviceTurns : List Turn :=
  [lanTurn {ethLinks := [true,true]},lanTurn {sockets := [3]},lanTurn {selects := [1]},
   lanTurn {sends := [.ok 28], recvs := [.ok (registerReply 7)]}] ++
    (List.range 8).flatMap fun k => [lanTurn {},
      lanTurn {sends := [.ok 200],
               recvs := [.ok (dataReply (UInt64.ofNat (k + 1))
                 (identityReplyTo (kIdentityAttrs.getD k 0)))]}]

theorem device_is_told :
    let s := (LanInventory.Run.after ⟨10,0,0,254⟩ lanBoard deviceTurns).sketch
    s.reports.map Report.ip = [⟨10,0,0,1⟩] ∧ ∀ report ∈ s.reports, report.id =
      {serverIdentity with productName := 13 :: ascii "Synthetic PLC".toList} := by
  intro s
  have hanswers : Runs.Guarded LanInventory.Run.step (Truthful fun _ => serverDevice)
      (LanInventory.Run.init ⟨10,0,0,254⟩ lanBoard) deviceTurns := by
    decide +kernel
  refine ⟨by decide +kernel,fun report hmem => ?_⟩
  exact (reports_tell_the_devices (fun _ => serverDevice) ⟨10,0,0,254⟩ lanBoard deviceTurns
    hanswers report hmem).2 serverIdentity rfl rfl

theorem lan_is_told :
    let s := (LanInventory.Run.after ⟨10,0,0,254⟩ lanBoard deviceTurns).sketch
    s.reports.map Report.ip = [⟨10,0,0,1⟩] ∧
      List.Sublist (s.reports.map Report.ip) s.probed ∧
        s.found + (if s.phase = .close then 1 else 0) = s.reports.length := by
  obtain ⟨hsub,_,hfound⟩ := devices_are_told_once ⟨10,0,0,254⟩ lanBoard deviceTurns
  exact ⟨by decide +kernel,hsub,hfound⟩

end Sample

end ControlLogix
