import ControlLogix.Library.Runs
import ControlLogix.Server.Answers
import ControlLogix.Tag

namespace ControlLogix

open SyntheticServer (Name TagValue Request isAscii decodeAscii answer)

-- What a tag in flight makes of a reply its message has taken.
def Tag.settle (g : Tag) (m : ExplicitMessage) : Status × Tag :=
  let g : Tag := {g with resultCode := m.resultCode}
  if g.resultCode ≠ 0 then (.error,{g with state := .failed})
  else
    let g := if g.state = .reading ∧ 2 ≤ m.dataLen then g.receive m.dataBytes else g
    (.ok,{g with state := .done})

theorem Tag.poll_settle {g : Tag} (hg : g.inFlight = true) (m : ExplicitMessage)
    (t : TcpConnection) (w : World) : g.poll m t w =
      (let (st,m,t,w) := m.poll t w
       if st = .pending then (.pending,g,m,t,w)
       else if st = .ok then ((g.settle m).1,(g.settle m).2,m,t,w)
       else (st,{g with state := .failed},m,t,w)) := by
  have hfly : ¬(g.state ≠ .reading ∧ g.state ≠ .writing) := by
    rw [not_and_or,not_not,not_not]
    exact g.inFlight_iff.mp hg
  rw [poll,if_neg hfly]
  rcases m.poll t w with ⟨st,m',t',w'⟩
  simp only
  by_cases hwait : st = .pending
  · rw [if_pos hwait,if_pos hwait]
  by_cases hok : st = .ok
  · rw [if_neg hwait,if_neg hwait,if_pos hok,if_neg (not_not.mpr hok),settle]
    simp only
    by_cases hcode : m'.resultCode ≠ 0
    · rw [if_pos hcode,if_pos hcode]
    · rw [if_neg hcode,if_neg hcode]
  · rw [if_neg hwait,if_neg hwait,if_neg hok,if_pos hok]

def Tag.carrier : Carrier (Tag × ExplicitMessage) ExplicitMessage.exchanger where
  get x := x.2
  set x m := (x.1,m)
  carries x := x.1.inFlight
  win x := ((x.1.settle x.2).1,((x.1.settle x.2).2,x.2))
  lose x := ({x.1 with state := .failed},x.2)
  poll x t w :=
    let (st,g,m,t,w) := x.1.poll x.2 t w
    (st,(g,m),t,w)
  get_set _ _ := rfl
  set_set _ _ _ := rfl
  carries_set _ _ := rfl
  get_win _ := rfl
  get_lose _ := rfl
  win_ne x := by
    simp only [Tag.settle]
    split <;> simp
  poll_eq x t w hx _ := by
    have hpoll : ExplicitMessage.exchanger.poll x.2 t w = x.2.poll t w := rfl
    rw [hpoll,Tag.poll_settle hx]
    rcases x.2.poll t w with ⟨st,m',t',w'⟩
    simp only
    by_cases hwait : st = .pending
    · rw [if_pos hwait,if_pos hwait]
    by_cases hok : st = .ok
    · rw [if_neg hwait,if_neg hwait,if_pos hok,if_pos hok]
    · rw [if_neg hwait,if_neg hwait,if_neg hok,if_neg hok]

def Tag.exchanger : Exchanger (Tag × ExplicitMessage) := Tag.carrier.exchanger

inductive Access.Kind where
  | read | write
  deriving DecidableEq, Repr

-- An operation on a tag, with what the network answers until it is over.
structure Access where
  kind : Access.Kind
  tag : Tag
  name : List UInt8
  elementCount : UInt32 := 1
  timeoutMs : UInt32
  cpuSlot : UInt8 := kNoRoute
  sessionHandle : UInt32
  script : Script
  polls : Nat

structure Done where
  access : Access
  taken : Bool
  status : Status
  tag : Tag

-- One message on one connection to the server, and the operations so far, newest first.
structure Stack where
  conn : TcpConnection
  message : ExplicitMessage := {}
  server : SyntheticServer := SyntheticServer.init
  world : World
  history : List Done := []

namespace Access

def start (a : Access) (m : ExplicitMessage) (t : TcpConnection) (w : World) :
    Status × Tag × ExplicitMessage × World :=
  match a.kind with
  | .read =>
    a.tag.read m t a.sessionHandle (some a.name) a.elementCount a.timeoutMs a.cpuSlot w
  | .write =>
    a.tag.write m t a.sessionHandle (some a.name) a.elementCount a.timeoutMs a.cpuSlot w

def flying (a : Access) : Tag :=
  match a.kind with
  | .read => {a.tag with dataLen := 0, resultCode := 0, state := .reading}
  | .write => {a.tag with state := .writing}

def value (a : Access) : List UInt8 :=
  a.tag.data.bytes.take ((a.tag.writeLength a.elementCount).getD 0)

def request (a : Access) : Request where
  slot := if a.cpuSlot = kNoRoute then none else some a.cpuSlot
  service := match a.kind with
    | .read => TagService.code .read
    | .write => TagService.code .write
  path := appendSymbolic a.name
  rest := match a.kind with
    | .read => putU16 a.elementCount.toUInt16
    | .write => putU16 a.elementCount.toUInt16 ++ putU16 a.tag.dataType.toUInt16 ++ a.value

-- What a caller has to keep to for the operation to be accepted.
def sound (a : Access) : Prop :=
  a.name.length ≤ kMaxSymbolicName ∧ a.tag.inFlight = false ∧
    (a.cpuSlot = kNoRoute ∨ a.cpuSlot ≤ 16) ∧
    (a.kind = .write → a.tag.dataType ≠ 0 ∧ a.tag.writeLength a.elementCount ≠ none)

theorem writeLength_le {g : Tag} {elementCount : UInt32} {len : Nat}
    (h : g.writeLength elementCount = some len) : len ≤ Tag.kMaxDataSize := by
  simp only [Tag.writeLength] at h
  by_cases hstring : g.dataType = DataType.code .string
  · rw [if_pos hstring] at h
    by_cases hlong : Tag.kMaxDataSize - 4 < (getU32 g.data.bytes).toNat
    · rw [if_pos hlong] at h
      cases h
    · rw [if_neg hlong] at h
      cases h
      simp only [Tag.kMaxDataSize] at hlong ⊢
      omega
  · rw [if_neg hstring] at h
    generalize dataTypeElementSize (DataType.cast g.dataType) = size at h
    by_cases hmany : size = 0 ∨ Tag.kMaxDataSize / size < elementCount.toNat
    · rw [if_pos hmany] at h
      cases h
    · rw [if_neg hmany] at h
      cases h
      rw [not_or,Nat.not_lt] at hmany
      exact (Nat.mul_le_mul_right _ hmany.2).trans (Nat.div_mul_le_self _ _)

theorem value_length (a : Access) : a.value.length ≤ Tag.kMaxDataSize := by
  rw [value,List.length_take]
  cases h : a.tag.writeLength a.elementCount with
  | none => simp
  | some len => exact (Nat.min_le_left _ _).trans (writeLength_le h)

theorem request_fits (a : Access) : a.request.fits := by
  have hpath := Connection.appendSymbolic_length a.name
  have hvalue := a.value_length
  simp only [Tag.kMaxDataSize] at hvalue
  refine ⟨?_,SyntheticServer.appendSymbolic_even a.name⟩
  simp only [request,ExplicitMessage.kMaxCipData]
  cases a.kind <;> simp <;> omega

theorem request_plain (a : Access) : a.request.plain := by
  intro _
  simp only [request]
  cases a.kind with
  | read => exact ⟨by decide,by simp⟩
  | write => exact ⟨by decide,by simp; omega⟩

theorem send_request (a : Access) (m : ExplicitMessage) (t : TcpConnection) (w : World) :
    a.request.send m t a.sessionHandle a.timeoutMs w =
      if a.cpuSlot = kNoRoute then
        m.send t a.sessionHandle a.request.service a.request.path a.request.rest a.timeoutMs w
      else
        m.sendRouted t a.sessionHandle a.cpuSlot a.request.service a.request.path a.request.rest
          a.timeoutMs w := by
  rw [Request.send]
  by_cases h : a.cpuSlot = kNoRoute
  · rw [if_pos h]
    simp only [request,if_pos h]
  · rw [if_neg h]
    simp only [request,if_neg h]

theorem startRead_request {a : Access} (hkind : a.kind = .read) (m : ExplicitMessage)
    (t : TcpConnection) (w : World) :
    a.tag.startRead m t a.sessionHandle a.name a.elementCount a.timeoutMs a.cpuSlot w =
      (let (st,m,w) := a.request.send m t a.sessionHandle a.timeoutMs w
       if st ≠ .pending then (st,a.tag,m,w) else (.pending,a.flying,m,w)) := by
  rw [send_request]
  simp only [request,flying,hkind]
  rfl

theorem startWrite_request {a : Access} (hkind : a.kind = .write) {len : Nat}
    (hlen : a.tag.writeLength a.elementCount = some len) (m : ExplicitMessage)
    (t : TcpConnection) (w : World) :
    a.tag.startWrite m t a.sessionHandle a.name a.elementCount a.timeoutMs a.cpuSlot w =
      (let (st,m,w) := a.request.send m t a.sessionHandle a.timeoutMs w
       if st ≠ .pending then (st,a.tag,m,w) else (.pending,a.flying,m,w)) := by
  rw [send_request]
  simp only [request,flying,value,hkind,hlen,Tag.startWrite]
  rfl

theorem start_eq (a : Access) (m : ExplicitMessage) (t : TcpConnection) (w : World) :
    (a.start m t w = (let (st,m,w) := a.request.send m t a.sessionHandle a.timeoutMs w
        if st ≠ .pending then (st,a.tag,m,w) else (.pending,a.flying,m,w)) ∧
      a.name.length ≤ kMaxSymbolicName ∧ a.tag.inFlight = false ∧
        (a.kind = .write → ∃ len, a.tag.writeLength a.elementCount = some len)) ∨
    ¬ a.sound ∧ ∃ st, st ≠ .pending ∧ a.start m t w = (st,a.tag,m,w) := by
  by_cases hname : kMaxSymbolicName < a.name.length
  · refine Or.inr ⟨fun h => absurd h.1 (by omega),.invalidArg,by simp,?_⟩
    cases hkind : a.kind with
    | read => simp only [start,hkind,Tag.read,if_pos hname]
    | write => simp only [start,hkind,Tag.write,if_pos hname]
  by_cases hfly : a.tag.state = .reading ∨ a.tag.state = .writing
  · have hbusy : ¬ a.sound := fun h => by
      have := a.tag.inFlight_iff.mpr hfly
      rw [h.2.1] at this
      cases this
    cases hkind : a.kind with
    | read =>
      refine Or.inr ⟨hbusy,.busy,by simp,?_⟩
      simp only [start,hkind,Tag.read,if_neg hname,if_pos hfly]
    | write =>
      by_cases htype : a.tag.dataType = 0
      · refine Or.inr ⟨hbusy,.notReady,by simp,?_⟩
        simp only [start,hkind,Tag.write,if_neg hname,if_pos htype]
      · refine Or.inr ⟨hbusy,.busy,by simp,?_⟩
        simp only [start,hkind,Tag.write,if_neg hname,if_neg htype,if_pos hfly]
  have hidle : a.tag.inFlight = false := by
    rw [← Bool.not_eq_true,a.tag.inFlight_iff]
    exact hfly
  have hlen : a.name.length ≤ kMaxSymbolicName := Nat.not_lt.mp hname
  cases hkind : a.kind with
  | read =>
    refine Or.inl ⟨?_,hlen,hidle,fun h => (by cases h)⟩
    rw [← startRead_request hkind]
    simp only [start,hkind,Tag.read,if_neg hname,if_neg hfly]
  | write =>
    by_cases htype : a.tag.dataType = 0
    · refine Or.inr ⟨fun h => (h.2.2.2 hkind).1 htype,.notReady,by simp,?_⟩
      simp only [start,hkind,Tag.write,if_neg hname,if_pos htype]
    cases hsize : a.tag.writeLength a.elementCount with
    | none =>
      refine Or.inr ⟨fun h => (h.2.2.2 hkind).2 hsize,.invalidArg,by simp,?_⟩
      simp only [start,hkind,Tag.write,if_neg hname,if_neg htype,if_neg hfly,Tag.startWrite,hsize]
    | some len =>
      refine Or.inl ⟨?_,hlen,hidle,fun _ => ⟨len,rfl⟩⟩
      rw [← startWrite_request hkind hsize]
      simp only [start,hkind,Tag.write,if_neg hname,if_neg htype,if_neg hfly]

inductive Begun (a : Access) (m : ExplicitMessage) (t : TcpConnection) (w : World) :
    Status × Tag × ExplicitMessage × World → Prop
  | taken {deadline : UInt32} : a.name.length ≤ kMaxSymbolicName →
      (a.kind = .write → ∃ len, a.tag.writeLength a.elementCount = some len) →
      Begun a m t w (.pending,a.flying,
        m.issued (a.request.frame a.sessionHandle m.context) deadline,w.millis.2)
  | refused {st : Status} : st ≠ .pending →
      (m.inFlight = false → t.connected = true → ¬ a.sound) → Begun a m t w (st,a.tag,m,w)

theorem start_begun (a : Access) (m : ExplicitMessage) (t : TcpConnection) (w : World) :
    Begun a m t w (a.start m t w) := by
  rcases a.start_eq m t w with ⟨heq,hname,_,hvalue⟩ | ⟨hnot,st,hst,heq⟩
  · rw [heq]
    rcases a.request.send_cases m t a.sessionHandle a.timeoutMs w with
      ⟨deadline,hsend,_⟩ | ⟨st,hst,hsend⟩
    · rw [hsend]
      exact .taken hname hvalue
    · simp only [hsend,if_pos hst]
      refine .refused hst fun hm ht hsound => hst ?_
      have htaken := Request.send_taken a.request_fits (fun slot hslot => ?_) hm ht a.sessionHandle
        a.timeoutMs w
      · rw [hsend] at htaken
        exact htaken
      · simp only [request] at hslot
        split_ifs at hslot with hroute
        exact Option.some.inj hslot ▸ hsound.2.2.1.resolve_left hroute
  · rw [heq]
    exact .refused hst fun _ _ => hnot

theorem flying_inFlight (a : Access) : a.flying.inFlight = true := by
  rw [flying]
  cases a.kind <;> rfl

end Access

namespace Stack

def begun (k : Stack) (a : Access) : Status × Tag × ExplicitMessage × World :=
  a.start k.message k.conn {k.world with script := a.script}

def ended (k : Stack) (a : Access) : Status × (Tag × ExplicitMessage) × TcpConnection × World :=
  let (_,g,m,w) := k.begun a
  Tag.exchanger.polls a.polls (g,m) k.conn w

def served (k : Stack) (a : Access) : Option (List UInt8 × SyntheticServer) :=
  k.server.handleConnection (sentBetween k.world.log (k.ended a).2.2.2.log)

def turn (k : Stack) (a : Access) : Stack :=
  let (st,g,m,w) := k.begun a
  if st = .pending then
    let (st,(g,m),t,w) := k.ended a
    {conn := t, message := m, world := w,
     server := match k.served a with
       | none => k.server
       | some (_,server) => server,
     history := ⟨a,true,st,g⟩ :: k.history}
  else {k with message := m, world := w, history := ⟨a,false,st,g⟩ :: k.history}

-- The stream is reliable and carries what the server sends, no poll comes after the deadline, and
-- the polls go on until the operation is over.
def Honest (k : Stack) (a : Access) : Prop :=
  (k.begun a).1 = .pending →
    a.script.calm = true ∧
    Tag.exchanger.Timely a.polls ((k.begun a).2.1,(k.begun a).2.2.1) k.conn (k.begun a).2.2.2 ∧
    (k.ended a).1 ≠ .pending ∧
    arriving a.script.recvs = ((k.served a).map Prod.fst).getD []

instance (k : Stack) (a : Access) : Decidable (k.Honest a) :=
  inferInstanceAs (Decidable (_ → _ ∧ _ ∧ _ ∧ _))

-- Nothing is under way, and the server holds values that can be read back.
structure Settled (k : Stack) : Prop where
  live : k.conn.live
  idle : k.message.inFlight = false
  bounded : k.server.Bounded

end Stack

def Access.key (a : Access) : Name := some (decodeAscii a.name)

namespace Done

def wrote (d : Done) : Bool := d.taken && d.access.kind = .write && d.status = .ok

def effect (d : Done) : Option (Name × TagValue) :=
  if d.wrote then some (d.access.key,d.access.tag.dataType,d.access.value) else none

-- The tag holds a value, cut to what its buffer holds.
def Holds (d : Done) (v : TagValue) : Prop :=
  d.status = .ok ∧ d.tag.dataType = v.1 ∧
    d.tag.dataLen = min v.2.length Tag.kMaxDataSize ∧
    d.tag.data.bytes.take d.tag.dataLen = v.2.take Tag.kMaxDataSize

end Done

namespace Stack

open SyntheticServer

def replied (k : Stack) (a : Access) : List UInt8 × SyntheticServer :=
  match a.kind with
  | .read => (k.server.handleReadTag (appendSymbolic a.name),k.server)
  | .write => k.server.handleWriteTag (appendSymbolic a.name) a.request.rest

theorem replied_eq (k : Stack) (a : Access) : k.server.handleCipRequest a.sessionHandle
    a.request.service a.request.path a.request.rest = some (k.replied a) := by
  simp only [replied,Access.request]
  cases a.kind with
  | read => exact handleCipRequest_read _ _ _ _
  | write => exact handleCipRequest_write _ _ _ _

theorem replied_length {k : Stack} (h : k.server.Bounded) (a : Access) :
    4 ≤ (k.replied a).1.length ∧ (k.replied a).1.length ≤ ExplicitMessage.kMaxCipData := by
  rw [replied]
  cases a.kind with
  | read =>
    have := handleReadTag_length h (appendSymbolic a.name)
    simp only [kMaxValue,ExplicitMessage.kMaxCipData] at this ⊢
    omega
  | write =>
    have := k.server.handleWriteTag_length (appendSymbolic a.name) a.request.rest
    simp only [ExplicitMessage.kMaxCipData]
    omega

theorem begun_taken {k : Stack} {a : Access} (htaken : (k.begun a).1 = .pending) :
    ∃ deadline, k.begun a = (.pending,a.flying,
        k.message.issued (a.request.frame a.sessionHandle k.message.context) deadline,
        (World.millis {k.world with script := a.script}).2) ∧
      a.name.length ≤ kMaxSymbolicName ∧
      (a.kind = .write → ∃ len, a.tag.writeLength a.elementCount = some len) := by
  have h := a.start_begun k.message k.conn {k.world with script := a.script}
  simp only [begun] at htaken ⊢
  generalize a.start k.message k.conn {k.world with script := a.script} = r at h htaken
  cases h with
  | @taken deadline hname hvalue => exact ⟨deadline,rfl,hname,hvalue⟩
  | refused hst _ => exact absurd htaken hst

theorem begun_refused {k : Stack} (hk : k.Settled) {a : Access}
    (hrefused : (k.begun a).1 ≠ .pending) : ∃ st, st ≠ .pending ∧
      k.begun a = (st,a.tag,k.message,{k.world with script := a.script}) ∧ ¬ a.sound := by
  have h := a.start_begun k.message k.conn {k.world with script := a.script}
  simp only [begun] at hrefused ⊢
  generalize a.start k.message k.conn {k.world with script := a.script} = r at h hrefused
  cases h with
  | taken => exact absurd rfl hrefused
  | refused hst hsound =>
    exact ⟨_,hst,rfl,hsound hk.idle (by simp [TcpConnection.connected,hk.live.2])⟩

theorem ended_eq {k : Stack} (hk : k.Settled) {a : Access} (hhonest : k.Honest a)
    (htaken : (k.begun a).1 = .pending) :
    ∃ (r : Reply) (m : ExplicitMessage) (w : World), r.cip = (k.replied a).1 ∧
      m.inFlight = false ∧ m.resultCode = r.status ∧ m.dataBytes = r.data ∧
      m.dataLen = r.data.length ∧
      k.ended a = ((a.flying.settle m).1,((a.flying.settle m).2,m),k.conn,w) ∧
      k.served a = some (r.bytes,(k.replied a).2) := by
  obtain ⟨hcalm,htimely,hover,harrives⟩ := hhonest htaken
  obtain ⟨deadline,hbegun,_⟩ := begun_taken htaken
  obtain ⟨hcip,hsmall⟩ := replied_length hk.bounded a
  let m₀ := k.message.issued (a.request.frame a.sessionHandle k.message.context) deadline
  let w₀ := (World.millis {k.world with script := a.script}).2
  have hended : k.ended a = Tag.exchanger.polls a.polls (a.flying,m₀) k.conn w₀ := by
    simp only [ended,hbegun]
    rfl
  replace htimely : Tag.exchanger.Timely a.polls (a.flying,m₀) k.conn w₀ := by
    rw [hbegun] at htimely
    exact htimely
  rw [hended] at hover
  simp only [served,hended] at harrives
  obtain ⟨r,m,w,hr,hidle,hcode,hdata,hlen,hrun,hserved⟩ := Tag.carrier.exchange_answered
    (x := (a.flying,m₀)) (m := k.message) (w := w₀) a.flying_inFlight rfl a.request_plain
    a.request_fits (k.replied_eq a) hcip hsmall hk.live hcalm htimely hover harrives
  refine ⟨r,m,w,hr,hidle,hcode,hdata,hlen,hended.trans hrun,?_⟩
  rw [served,hended]
  exact hserved

end Stack

namespace Tag

theorem settle_refused (g : Tag) {m : ExplicitMessage} (h : m.resultCode ≠ 0) :
    (g.settle m).1 = .error := by
  simp only [settle]
  rw [if_pos h]

theorem settle_accepted (g : Tag) {m : ExplicitMessage} (h : m.resultCode = 0) :
    (g.settle m).1 = .ok := by
  simp only [settle]
  rw [if_neg (not_not.mpr h)]

theorem settle_value {g : Tag} {m : ExplicitMessage} {type : UInt8} {v : List UInt8}
    (hg : g.state = .reading) (hcode : m.resultCode = 0)
    (hdata : m.dataBytes = putU16 type.toUInt16 ++ v) (hlen : m.dataLen = m.dataBytes.length) :
    (g.settle m).2.dataType = type ∧ (g.settle m).2.dataLen = min v.length kMaxDataSize ∧
      (g.settle m).2.data.bytes.take (g.settle m).2.dataLen = v.take kMaxDataSize := by
  have htwo : g.state = .reading ∧ 2 ≤ m.dataLen := by
    rw [hlen,hdata]
    exact ⟨hg,by simp⟩
  have hdrop : m.dataBytes.drop 2 = v := by
    rw [hdata]
    rfl
  simp only [settle]
  rw [if_neg (not_not.mpr hcode)]
  simp only [if_pos htwo,receive,hdrop,List.length_take]
  refine ⟨?_,Nat.min_comm _ _,?_⟩
  · rw [hdata,getU16_putU16]
    exact UInt8.toUInt8_toUInt16 type
  · simp only [Buffer.write,store,List.take_zero,List.nil_append]
    exact List.take_left' (by rw [List.length_take])

end Tag

namespace Stack

open SyntheticServer

theorem read_ends {k : Stack} {a : Access} (hkind : a.kind = .read)
    (hname : a.name.length ≤ kMaxSymbolicName) {r : Reply} {m : ExplicitMessage}
    (hcip : r.cip = (k.replied a).1) (hcode : m.resultCode = r.status)
    (hdata : m.dataBytes = r.data) (hlen : m.dataLen = r.data.length) :
    match k.server.memory a.key with
    | some v => Done.Holds ⟨a,true,(a.flying.settle m).1,(a.flying.settle m).2⟩ v
    | none => (a.flying.settle m).1 = .error := by
  have hget : k.server.memory a.key =
      Dict.get (parseSymbolicPath (appendSymbolic a.name)) k.server.tags := by
    rw [parseSymbolicPath_append hname]
    rfl
  have hreplied : (k.replied a).1 = k.server.handleReadTag (appendSymbolic a.name) := by
    rw [replied,hkind]
  have hreading : a.flying.state = .reading := by rw [Access.flying,hkind]
  cases hheld : k.server.memory a.key with
  | none =>
    rw [hget] at hheld
    rw [hreplied,handleReadTag_missing hheld] at hcip
    exact Tag.settle_refused _ (by rw [hcode,Reply.status,hcip]; decide)
  | some v =>
    rw [hget] at hheld
    rw [hreplied,handleReadTag_found hheld] at hcip
    have hzero : m.resultCode = 0 := by rw [hcode,Reply.status,hcip]; rfl
    have hrest : r.data = putU16 v.1.toUInt16 ++ v.2 := by
      rw [Reply.data_plain (by rw [hcip]; rfl),hcip]
      rfl
    obtain ⟨htype,hsize,hbytes⟩ := Tag.settle_value hreading hzero (hdata.trans hrest)
      (hlen.trans (congrArg List.length hdata.symm))
    exact ⟨Tag.settle_accepted _ hzero,htype,hsize,hbytes⟩

theorem write_ends {k : Stack} {a : Access} (hkind : a.kind = .write)
    (hname : a.name.length ≤ kMaxSymbolicName) {r : Reply} {m : ExplicitMessage}
    (hcip : r.cip = (k.replied a).1) (hcode : m.resultCode = r.status) :
    (a.flying.settle m).1 = .ok ∧ (k.replied a).2.memory =
      Function.update k.server.memory a.key (some (a.tag.dataType,a.value)) := by
  have hrest : a.request.rest = putU16 a.elementCount.toUInt16 ++
      (putU16 a.tag.dataType.toUInt16 ++ a.value) := by
    simp only [Access.request,hkind,List.append_assoc]
  have hreplied : k.replied a =
      k.server.handleWriteTag (appendSymbolic a.name) a.request.rest := by
    rw [replied,hkind]
  have htype : (getU16 (a.request.rest.drop 2)).toUInt8 = a.tag.dataType := by
    rw [hrest,List.drop_left' (putU16_length _),getU16_putU16]
    exact UInt8.toUInt8_toUInt16 _
  have hvalue : a.request.rest.drop 4 = a.value := by
    rw [hrest,← List.append_assoc]
    exact List.drop_left' rfl
  rw [handleWriteTag_stored _ _ (by rw [hrest]; simp; omega),parseSymbolicPath_append hname,htype,
    hvalue] at hreplied
  rw [hreplied] at hcip ⊢
  refine ⟨Tag.settle_accepted _ (by rw [hcode,Reply.status,hcip]; rfl),?_⟩
  exact Dict.memory_set _ _ _

theorem replied_bounded {k : Stack} (h : k.server.Bounded) (a : Access) :
    (k.replied a).2.Bounded := by
  rw [replied]
  cases hkind : a.kind with
  | read => exact h
  | write =>
    refine handleWriteTag_bounded h _ ?_
    have hvalue := a.value_length
    simp only [Access.request,hkind,kMaxValue,Tag.kMaxDataSize] at hvalue ⊢
    simp
    omega

inductive Turned (k : Stack) (a : Access) : Stack → Prop
  | refused {st : Status} {w : World} : ¬ a.sound →
      Turned k a {k with world := w, history := ⟨a,false,st,a.tag⟩ :: k.history}
  | read {m : ExplicitMessage} {w : World} {st : Status} {g : Tag} : a.kind = .read →
      (match k.server.memory a.key with
        | some v => Done.Holds ⟨a,true,st,g⟩ v
        | none => st = .error) → m.inFlight = false →
      Turned k a {k with message := m, world := w, history := ⟨a,true,st,g⟩ :: k.history}
  | write {m : ExplicitMessage} {w : World} {g : Tag} {server : SyntheticServer} {len : Nat} :
      a.kind = .write → a.tag.writeLength a.elementCount = some len → m.inFlight = false →
      server.memory = Function.update k.server.memory a.key (some (a.tag.dataType,a.value)) →
      server.Bounded → Turned k a {k with message := m, world := w, server := server,
                                          history := ⟨a,true,.ok,g⟩ :: k.history}

theorem turn_turned {k : Stack} (hk : k.Settled) {a : Access} (hhonest : k.Honest a) :
    Turned k a (k.turn a) := by
  by_cases htaken : (k.begun a).1 = .pending
  · obtain ⟨deadline,hbegun,hname,hvalue⟩ := begun_taken htaken
    obtain ⟨r,m,w,hcip,hidle,hcode,hdata,hlen,hended,hserved⟩ := ended_eq hk hhonest htaken
    simp only [turn,hbegun,if_true,hended,hserved]
    cases hkind : a.kind with
    | read =>
      have hserver : (k.replied a).2 = k.server := by rw [replied,hkind]
      rw [hserver]
      exact .read hkind (read_ends hkind hname hcip hcode hdata hlen) hidle
    | write =>
      obtain ⟨len,hlen⟩ := hvalue hkind
      obtain ⟨hok,hmemory⟩ := write_ends hkind hname hcip hcode
      rw [hok]
      exact .write hkind hlen hidle hmemory (replied_bounded hk.bounded a)
  · obtain ⟨st,hst,hbegun,hsound⟩ := begun_refused hk htaken
    simp only [turn,hbegun,if_neg hst]
    exact .refused hsound

end Stack

namespace Done

-- A read returns what the map holds, and a write that was accepted ends well.
def Serves (m : Memory Name TagValue) (d : Done) (past : List Done) : Prop :=
  d.taken = true →
    match d.access.kind with
    | .read =>
      match m.after (past.filterMap effect) d.access.key with
      | some v => d.Holds v
      | none => d.status = .error
    | .write => d.status = .ok ∧ ∃ len, d.access.tag.writeLength d.access.elementCount = some len

-- A read returns the value of the last completed write to its name, whatever has since been
-- written to other names of which one holds ASCII alone.
def Recalls (d : Done) (past : List Done) : Prop :=
  d.taken = true → d.access.kind = .read → ∀ later last earlier,
    past = later ++ last :: earlier → last.wrote = true → last.access.name = d.access.name →
    (∀ e ∈ later, e.wrote = true → e.access.name ≠ d.access.name ∧
      (isAscii d.access.name = true ∨ isAscii e.access.name = true)) →
    ∃ len, last.access.tag.writeLength last.access.elementCount = some len ∧ d.status = .ok ∧
      d.tag.dataType = last.access.tag.dataType ∧ d.tag.dataLen = len ∧
      d.tag.data.bytes.take len = last.access.tag.data.bytes.take len

end Done

namespace Stack

structure Serving (m : Memory Name TagValue) (k : Stack) : Prop where
  settled : k.Settled
  memory : k.server.memory = m.after (k.history.filterMap Done.effect)
  serves : Trace.Always (Done.Serves m) k.history
  accepts : Trace.Always (fun d _ => d.access.sound → d.taken = true) k.history

theorem Serving.turn {m : Memory Name TagValue} {k : Stack} (h : Serving m k) {a : Access}
    (hhonest : k.Honest a) : Serving m (k.turn a) := by
  have hturned := turn_turned h.settled hhonest
  generalize k.turn a = k' at hturned
  cases hturned with
  | refused hsound =>
    refine ⟨⟨h.settled.live,h.settled.idle,h.settled.bounded⟩,?_,⟨?_,h.serves⟩,⟨?_,h.accepts⟩⟩
    · exact h.memory
    · intro htaken
      cases htaken
    · intro hs
      exact absurd hs hsound
  | @read _ _ st g hkind hends hidle =>
    have hquiet : Done.effect ⟨a,true,st,g⟩ = none := if_neg (by simp [Done.wrote,hkind])
    refine ⟨⟨h.settled.live,hidle,h.settled.bounded⟩,?_,⟨?_,h.serves⟩,⟨fun _ => rfl,h.accepts⟩⟩
    · rw [List.filterMap_cons_none hquiet]
      exact h.memory
    · intro _
      rw [h.memory] at hends
      simp only [hkind]
      exact hends
  | @write _ _ g _ _ hkind hlen hidle hmemory hbounded =>
    have hwrote : Done.effect ⟨a,true,.ok,g⟩ = some (a.key,a.tag.dataType,a.value) :=
      if_pos (by simp [Done.wrote,hkind])
    refine ⟨⟨h.settled.live,hidle,hbounded⟩,?_,⟨?_,h.serves⟩,⟨fun _ => rfl,h.accepts⟩⟩
    · rw [List.filterMap_cons_some hwrote,Memory.after_cons,← h.memory]
      exact hmemory
    · intro _
      simp only [hkind]
      exact ⟨trivial,_,hlen⟩

end Stack

theorem Access.value_eq {a : Access} {len : Nat}
    (h : a.tag.writeLength a.elementCount = some len) :
    a.value = a.tag.data.bytes.take len ∧ a.value.length = len := by
  have hle := writeLength_le h
  have hvalue : a.value = a.tag.data.bytes.take len := by rw [value,h,Option.getD_some]
  refine ⟨hvalue,?_⟩
  rw [hvalue,List.length_take,a.tag.data.length_eq]
  exact Nat.min_eq_left hle

theorem Access.key_ne {a b : Access} (hne : a.name ≠ b.name)
    (hascii : isAscii b.name = true ∨ isAscii a.name = true) : a.key ≠ b.key := by
  intro hkey
  have hdecode : decodeAscii a.name = decodeAscii b.name := Option.some.inj hkey
  rcases hascii with hb | ha
  · exact hne (SyntheticServer.decodeAscii_injective hb hdecode.symm).symm
  · exact hne (SyntheticServer.decodeAscii_injective ha hdecode)

namespace Done

theorem effect_key {d : Done} {e : Name × TagValue} (h : d.effect = some e) :
    d.wrote = true ∧ e.1 = d.access.key := by
  rw [effect] at h
  split_ifs at h with hwrote
  exact ⟨hwrote,(Option.some.inj h ▸ rfl)⟩

theorem Serves.recalls {m : Memory Name TagValue} {d : Done} {past : List Done}
    (h : Serves m d past) (hpast : Trace.Always (Serves m) past) : Recalls d past := by
  intro htaken hkind later last earlier hsplit hwrote hname hothers
  obtain ⟨htook,hwrite⟩ : last.taken = true ∧ last.access.kind = .write := by
    simp only [wrote,Bool.and_eq_true,decide_eq_true_eq] at hwrote
    exact hwrote.1
  obtain ⟨_,len,hlen⟩ : last.status = .ok ∧
      ∃ len, last.access.tag.writeLength last.access.elementCount = some len := by
    have hlast := (Trace.always_iff _ _).mp hpast last earlier ⟨later,hsplit.symm⟩ htook
    rw [hwrite] at hlast
    exact hlast
  obtain ⟨hvalue,hsize⟩ := Access.value_eq hlen
  have hkey : last.access.key = d.access.key := by rw [Access.key,hname,Access.key]
  have heffect : last.effect = some (d.access.key,last.access.tag.dataType,last.access.value) := by
    rw [effect,if_pos hwrote,hkey]
  have hafter : m.after (past.filterMap effect) d.access.key =
      some (last.access.tag.dataType,last.access.value) := by
    rw [hsplit,List.filterMap_append,List.filterMap_cons_some heffect]
    refine Memory.after_last (fun e he => ?_) m
    obtain ⟨x,hx,heq⟩ := List.mem_filterMap.mp he
    obtain ⟨hxwrote,hxkey⟩ := effect_key heq
    obtain ⟨hne,hascii⟩ := hothers x hx hxwrote
    rw [hxkey]
    exact Access.key_ne hne hascii
  have hholds := h htaken
  simp only [hkind,hafter] at hholds
  obtain ⟨hok,htype,hdata,hbytes⟩ := hholds
  have hle := Access.writeLength_le hlen
  simp only [hsize,Nat.min_eq_left hle] at hdata
  refine ⟨len,hlen,hok,htype,hdata,?_⟩
  rw [hdata] at hbytes
  rw [hbytes,← hvalue]
  exact List.take_of_length_le (by rw [hsize]; exact hle)

end Done

theorem read_after_write {k : Stack} (hk : k.Settled) (hnew : k.history = [])
    {as : List Access} (hhonest : Runs.Guarded Stack.turn Stack.Honest k as) :
    let k' := Runs.run Stack.turn k as
    k'.server.memory = k.server.memory.after (k'.history.filterMap Done.effect) ∧
    Trace.Always (Done.Serves k.server.memory) k'.history ∧
    Trace.Always Done.Recalls k'.history ∧
    Trace.Always (fun d _ => d.access.sound → d.taken = true) k'.history := by
  have hstart : Stack.Serving k.server.memory k := by
    refine ⟨hk,?_,?_,?_⟩ <;> rw [hnew]
    · rfl
    · trivial
    · trivial
  have hserving : Stack.Serving k.server.memory (Runs.run Stack.turn k as) :=
    Runs.invariant_run (fun _ _ h ha => h.turn ha) hstart hhonest
  refine ⟨hserving.memory,hserving.serves,?_,hserving.accepts⟩
  have hserves := hserving.serves
  rw [Trace.always_iff] at hserves ⊢
  intro d past hsuffix
  refine (hserves d past hsuffix).recalls ?_
  exact hserving.serves.suffix ((List.suffix_cons d past).trans hsuffix)

namespace Sample

-- A client that writes two bytes to "B" by way of slot 1 and reads them back directly, over a
-- socket that takes and gives the bytes in pieces.
def atServer : Stack where
  conn := {fd := 3, state := .ok}
  world := {time := 0, script := {}, log := []}

theorem blank_length : (List.replicate Tag.kMaxDataSize (0 : UInt8)).length = Tag.kMaxDataSize :=
  List.length_replicate

def blank : Buffer Tag.kMaxDataSize := ⟨_,blank_length⟩

theorem written_length : 4 ≤ ([0xCD,0,0,0] : List UInt8).length := by decide

def writeB : Access where
  kind := .write
  tag := {data := blank, dataType := DataType.code .int}
  name := [0x42]
  timeoutMs := 1000
  cpuSlot := 1
  sessionHandle := 7
  script := {sends := [.ok 5,.error .ewouldblock,.ok 100],
             recvs := [.ok ((answer 1 [0xCD,0,0,0] written_length (by decide)).bytes.take 30),
               .error .eagain,.ok ((answer 1 [0xCD,0,0,0] written_length (by decide)).bytes.drop 30)]}
  polls := 3

def readB : Access where
  kind := .read
  tag := {data := blank}
  name := [0x42]
  timeoutMs := 1000
  sessionHandle := 7
  script := {sends := [.ok 100],
             recvs := [.ok (answer 2 [0xCC,0,0,0,0xC3,0,0,0] (by decide) (by decide)).bytes]}
  polls := 1

theorem readB_recalls :
    Trace.Always Done.Recalls (Runs.run Stack.turn atServer [writeB,readB]).history ∧
      (Runs.run Stack.turn atServer [writeB,readB]).history.map Done.taken = [true,true] :=
  ⟨(read_after_write (k := atServer) ⟨⟨by decide,rfl⟩,rfl,SyntheticServer.init_bounded⟩ rfl
    (by decide +kernel)).2.2.1,by decide +kernel⟩

end Sample

end ControlLogix
