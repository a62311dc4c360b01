import ControlLogix.Cip.ExplicitMessage
import Mathlib.Tactic.SplitIfs

namespace ControlLogix

structure Buffer (size : Nat) where
  bytes : List UInt8
  length_eq : bytes.length = size

theorem store_length {out : List UInt8} {off : Nat} {bs : List UInt8}
    (h : off + bs.length ≤ out.length) : (store out off bs).length = out.length := by
  simp [store]; omega

def Buffer.write {size : Nat} (b : Buffer size) (off : Nat) (bs : List UInt8)
    (h : off + bs.length ≤ size) : Buffer size where
  bytes := store b.bytes off bs
  length_eq := by rw [store_length (by rw [b.length_eq]; exact h),b.length_eq]

inductive Tag.State where
  | idle | reading | writing | done | failed
  deriving DecidableEq, Repr

def Tag.kMaxDataSize : Nat := 256

structure Tag where
  state : Tag.State := .idle
  data : Buffer Tag.kMaxDataSize
  dataLen : Nat := 0
  dataType : UInt8 := 0
  resultCode : UInt8 := 0

namespace Tag

def inFlight (g : Tag) : Bool := g.state = .reading ∨ g.state = .writing

def startRead (g : Tag) (m : ExplicitMessage) (t : TcpConnection) (sessionHandle : UInt32)
    (name : List UInt8) (elementCount timeoutMs : UInt32) (cpuSlot : UInt8) (w : World) :
    Status × Tag × ExplicitMessage × World :=
  let path := appendSymbolic name
  let count := putU16 elementCount.toUInt16
  let (st,m,w) :=
    if cpuSlot = kNoRoute then
      m.send t sessionHandle (TagService.code .read) path count timeoutMs w
    else
      m.sendRouted t sessionHandle cpuSlot (TagService.code .read) path count timeoutMs w
  if st ≠ .pending then (st,g,m,w)
  else (.pending,{g with dataLen := 0, resultCode := 0, state := .reading},m,w)

def writeLength (g : Tag) (elementCount : UInt32) : Option Nat :=
  if g.dataType = DataType.code .string then
    let strLen := (getU32 g.data.bytes).toNat
    if kMaxDataSize - 4 < strLen then none else some (4 + strLen)
  else
    let elemSize := dataTypeElementSize (DataType.cast g.dataType)
    if elemSize = 0 ∨ kMaxDataSize / elemSize < elementCount.toNat then none
    else some (elementCount.toNat * elemSize)

def startWrite (g : Tag) (m : ExplicitMessage) (t : TcpConnection) (sessionHandle : UInt32)
    (name : List UInt8) (elementCount timeoutMs : UInt32) (cpuSlot : UInt8) (w : World) :
    Status × Tag × ExplicitMessage × World :=
  match g.writeLength elementCount with
  | none => (.invalidArg,g,m,w)
  | some dataLen =>
    let path := appendSymbolic name
    let wdata := putU16 elementCount.toUInt16 ++ putU16 g.dataType.toUInt16 ++
      g.data.bytes.take dataLen
    let (st,m,w) :=
      if cpuSlot = kNoRoute then
        m.send t sessionHandle (TagService.code .write) path wdata timeoutMs w
      else
        m.sendRouted t sessionHandle cpuSlot (TagService.code .write) path wdata timeoutMs w
    if st ≠ .pending then (st,g,m,w) else (.pending,{g with state := .writing},m,w)

def read (g : Tag) (m : ExplicitMessage) (t : TcpConnection) (sessionHandle : UInt32)
    (name : Option (List UInt8)) (elementCount timeoutMs : UInt32) (cpuSlot : UInt8) (w : World) :
    Status × Tag × ExplicitMessage × World :=
  match name with
  | none => (.invalidArg,g,m,w)
  | some name =>
    if kMaxSymbolicName < name.length then (.invalidArg,g,m,w)
    else if g.state = .reading ∨ g.state = .writing then (.busy,g,m,w)
    else g.startRead m t sessionHandle name elementCount timeoutMs cpuSlot w

def write (g : Tag) (m : ExplicitMessage) (t : TcpConnection) (sessionHandle : UInt32)
    (name : Option (List UInt8)) (elementCount timeoutMs : UInt32) (cpuSlot : UInt8) (w : World) :
    Status × Tag × ExplicitMessage × World :=
  match name with
  | none => (.invalidArg,g,m,w)
  | some name =>
    if kMaxSymbolicName < name.length then (.invalidArg,g,m,w)
    else if g.dataType = 0 then (.notReady,g,m,w)
    else if g.state = .reading ∨ g.state = .writing then (.busy,g,m,w)
    else g.startWrite m t sessionHandle name elementCount timeoutMs cpuSlot w

-- memcpy of the reply's value to the front of the buffer, cut to what the buffer holds.
def receive (g : Tag) (reply : List UInt8) : Tag :=
  let value := (reply.drop 2).take kMaxDataSize
  {g with dataType := (getU16 reply).toUInt8, dataLen := value.length,
          data := g.data.write 0 value (by simp [value])}

def status (g : Tag) : Status :=
  match g.state with
  | .reading => .pending
  | .writing => .pending
  | .done => .ok
  | .failed => .error
  | .idle => .notReady

def poll (g : Tag) (m : ExplicitMessage) (t : TcpConnection) (w : World) :
    Status × Tag × ExplicitMessage × TcpConnection × World :=
  if g.state ≠ .reading ∧ g.state ≠ .writing then
    match g.state with
    | .done => (.ok,g,m,t,w)
    | .failed => (.error,g,m,t,w)
    | _ => (.notReady,g,m,t,w)
  else
    let (st,m,t,w) := m.poll t w
    if st = .pending then (.pending,g,m,t,w)
    else if st ≠ .ok then (st,{g with state := .failed},m,t,w)
    else
      let g : Tag := {g with resultCode := m.resultCode}
      if g.resultCode ≠ 0 then (.error,{g with state := .failed},m,t,w)
      else
        let g : Tag := if g.state = .reading ∧ 2 ≤ m.dataLen then g.receive m.dataBytes else g
        (.ok,{g with state := .done},m,t,w)

def abort (g : Tag) (m : ExplicitMessage) : Tag × ExplicitMessage :=
  let m := if g.state = .reading ∨ g.state = .writing then m.abort else m
  ({g with state := .idle, dataLen := 0},m)

def inBounds (off size : Nat) : Bool := size ≤ kMaxDataSize ∧ off ≤ kMaxDataSize - size

def setBytes (g : Tag) (off : Nat) (bs : List UInt8) : Tag :=
  if h : inBounds off bs.length then
    {g with data := g.data.write off bs (by simp [inBounds] at h; omega)}
  else g

def setBool (g : Tag) (off : Nat) (v : Bool) : Tag := g.setBytes off [if v then 1 else 0]

def setInt8 (g : Tag) (off : Nat) (v : Int8) : Tag := g.setBytes off [v.toUInt8]

def setInt16 (g : Tag) (off : Nat) (v : Int16) : Tag := g.setBytes off (putU16 v.toUInt16)

def setInt32 (g : Tag) (off : Nat) (v : Int32) : Tag := g.setBytes off (putU32 v.toUInt32)

def setInt64 (g : Tag) (off : Nat) (v : Int64) : Tag := g.setBytes off (putU64 v.toUInt64)

def setUint8 (g : Tag) (off : Nat) (v : UInt8) : Tag := g.setBytes off [v]

def setUint16 (g : Tag) (off : Nat) (v : UInt16) : Tag := g.setBytes off (putU16 v)

def setUint32 (g : Tag) (off : Nat) (v : UInt32) : Tag := g.setBytes off (putU32 v)

def setUint64 (g : Tag) (off : Nat) (v : UInt64) : Tag := g.setBytes off (putU64 v)

-- Floats are given by their bit patterns, which memcpy copies on a little-endian board.
def setFloat32 (g : Tag) (off : Nat) (bits : UInt32) : Tag := g.setBytes off (putU32 bits)

def setFloat64 (g : Tag) (off : Nat) (bits : UInt64) : Tag := g.setBytes off (putU64 bits)

def setString (g : Tag) (s : Option (List UInt8)) : Tag :=
  match s with
  | none => g
  | some s =>
    let s := s.take (kMaxDataSize - 4)
    {g with data := g.data.write 0 (putU32 (UInt32.ofNat s.length) ++ s)
              (by simp [s,kMaxDataSize]; omega),
            dataLen := 4 + s.length}

def setDataType (g : Tag) (type : UInt8) : Tag := {g with dataType := type}

inductive Setter where
  | bool (off : Nat) (v : Bool)
  | int8 (off : Nat) (v : Int8)
  | int16 (off : Nat) (v : Int16)
  | int32 (off : Nat) (v : Int32)
  | int64 (off : Nat) (v : Int64)
  | uint8 (off : Nat) (v : UInt8)
  | uint16 (off : Nat) (v : UInt16)
  | uint32 (off : Nat) (v : UInt32)
  | uint64 (off : Nat) (v : UInt64)
  | float32 (off : Nat) (bits : UInt32)
  | float64 (off : Nat) (bits : UInt64)
  | string (s : Option (List UInt8))
  | dataType (type : UInt8)

def Setter.types : Setter → Bool
  | .dataType _ => true
  | _ => false

def set (g : Tag) : Setter → Tag
  | .bool off v => g.setBool off v
  | .int8 off v => g.setInt8 off v
  | .int16 off v => g.setInt16 off v
  | .int32 off v => g.setInt32 off v
  | .int64 off v => g.setInt64 off v
  | .uint8 off v => g.setUint8 off v
  | .uint16 off v => g.setUint16 off v
  | .uint32 off v => g.setUint32 off v
  | .uint64 off v => g.setUint64 off v
  | .float32 off bits => g.setFloat32 off bits
  | .float64 off bits => g.setFloat64 off bits
  | .string s => g.setString s
  | .dataType type => g.setDataType type

theorem status_pending (g : Tag) : g.status = .pending ↔ g.inFlight = true := by
  cases h : g.state <;> simp [status,inFlight,h]

theorem setBytes_kept (g : Tag) (off : Nat) (bs : List UInt8) :
    (g.setBytes off bs).state = g.state ∧ (g.setBytes off bs).dataType = g.dataType := by
  simp only [setBytes]
  split <;> exact ⟨rfl,rfl⟩

theorem set_state (g : Tag) (f : Setter) : (g.set f).state = g.state := by
  cases f with
  | string s => cases s <;> rfl
  | dataType type => rfl
  | _ => exact (setBytes_kept g _ _).1

theorem set_dataType (g : Tag) {f : Setter} (hf : f.types = false) :
    (g.set f).dataType = g.dataType := by
  cases f with
  | string s => cases s <;> rfl
  | dataType type => cases hf
  | _ => exact (setBytes_kept g _ _).2

@[simp] theorem set_inFlight (g : Tag) (f : Setter) : (g.set f).inFlight = g.inFlight := by
  rw [inFlight,inFlight,set_state]

inductive Started (g : Tag) (m : ExplicitMessage) (t : TcpConnection) (sessionHandle : UInt32)
    (w : World) : Status × Tag × ExplicitMessage × World → Prop
  | taken {g' : Tag} {service : UInt8} {path data : List UInt8} {deadline : UInt32} {w' : World} :
      g.inFlight = false → m.inFlight = false → t.connected = true → g'.inFlight = true →
      g'.dataType = g.dataType →
      Encapsulated (ExplicitMessage.requestFrame sessionHandle m.context service path data) →
      w'.log = w.log →
      Started g m t sessionHandle w (.pending,g',
        m.issued (ExplicitMessage.requestFrame sessionHandle m.context service path data) deadline,w')
  | refused {st : Status} : st ≠ .pending → (st = .busy → g.inFlight = true ∨ m.inFlight = true) →
      Started g m t sessionHandle w (st,g,m,w)

variable {g : Tag} {m : ExplicitMessage} {t : TcpConnection} {w : World}

theorem startRead_started (hg : g.inFlight = false) (sessionHandle : UInt32) (name : List UInt8)
    (elementCount timeoutMs : UInt32) (cpuSlot : UInt8) :
    Started g m t sessionHandle w
      (g.startRead m t sessionHandle name elementCount timeoutMs cpuSlot w) := by
  have hsent := m.routed_issued t sessionHandle cpuSlot (TagService.code .read)
    (appendSymbolic name) (putU16 elementCount.toUInt16) timeoutMs w
  simp only [startRead]
  generalize (if cpuSlot = kNoRoute then _ else _ : Status × ExplicitMessage × World) = r at hsent ⊢
  cases hsent with
  | taken hm ht hbox hlog => exact .taken hg hm ht rfl rfl hbox hlog
  | refused hst hbusy =>
    simp only [if_pos hst]
    exact .refused hst fun h => Or.inr (hbusy h)

theorem startWrite_started (hg : g.inFlight = false) (sessionHandle : UInt32) (name : List UInt8)
    (elementCount timeoutMs : UInt32) (cpuSlot : UInt8) :
    Started g m t sessionHandle w
      (g.startWrite m t sessionHandle name elementCount timeoutMs cpuSlot w) := by
  simp only [startWrite]
  cases g.writeLength elementCount with
  | none => exact .refused (by simp) (by simp)
  | some dataLen =>
    have hsent := m.routed_issued t sessionHandle cpuSlot (TagService.code .write)
      (appendSymbolic name) (putU16 elementCount.toUInt16 ++ putU16 g.dataType.toUInt16 ++
        g.data.bytes.take dataLen) timeoutMs w
    simp only
    generalize (if cpuSlot = kNoRoute then _ else _ : Status × ExplicitMessage × World) = r
      at hsent ⊢
    cases hsent with
    | taken hm ht hbox hlog => exact .taken hg hm ht rfl rfl hbox hlog
    | refused hst hbusy =>
      simp only [if_pos hst]
      exact .refused hst fun h => Or.inr (hbusy h)

theorem inFlight_iff (g : Tag) : g.inFlight = true ↔ g.state = .reading ∨ g.state = .writing := by
  simp [inFlight]

theorem read_started (sessionHandle : UInt32) (name : Option (List UInt8))
    (elementCount timeoutMs : UInt32) (cpuSlot : UInt8) :
    Started g m t sessionHandle w
      (g.read m t sessionHandle name elementCount timeoutMs cpuSlot w) := by
  cases name with
  | none => exact .refused (by simp) (by simp)
  | some name =>
    simp only [read]
    split_ifs with hname hbusy
    · exact .refused (by simp) (by simp)
    · exact .refused (by simp) fun _ => Or.inl (g.inFlight_iff.mpr hbusy)
    · exact startRead_started (by simpa [inFlight] using hbusy) _ _ _ _ _

theorem write_started (sessionHandle : UInt32) (name : Option (List UInt8))
    (elementCount timeoutMs : UInt32) (cpuSlot : UInt8) :
    Started g m t sessionHandle w
      (g.write m t sessionHandle name elementCount timeoutMs cpuSlot w) := by
  cases name with
  | none => exact .refused (by simp) (by simp)
  | some name =>
    simp only [write]
    split_ifs with hname htype hbusy
    · exact .refused (by simp) (by simp)
    · exact .refused (by simp) (by simp)
    · exact .refused (by simp) fun _ => Or.inl (g.inFlight_iff.mpr hbusy)
    · exact startWrite_started (by simpa [inFlight] using hbusy) _ _ _ _ _

inductive Polled (g : Tag) (m : ExplicitMessage) (t : TcpConnection) (w : World) :
    Status × Tag × ExplicitMessage × TcpConnection × World → Prop
  | waits {m' : ExplicitMessage} {t' : TcpConnection} {w' : World} :
      m.Polled t w .pending m' t' w' → m'.inFlight = true →
      Polled g m t w (.pending,g,m',t',w')
  | fails {st : Status} {m' : ExplicitMessage} {t' : TcpConnection} {w' : World} :
      m.Polled t w st m' t' w' → m'.state = .failed → st ≠ .pending →
      Polled g m t w (st,{g with state := .failed},m',t',w')
  | ends {st : Status} {g' : Tag} {m' : ExplicitMessage} {t' : TcpConnection} {w' : World} :
      m.Polled t w .ok m' t' w' → m'.state = .done →
      (st = .ok ∧ g'.state = .done ∨
        st = .error ∧ g'.state = .failed ∧ g'.dataType = g.dataType) →
      Polled g m t w (st,g',m',t',w')

theorem poll_polled (hg : g.inFlight = true) (hm : m.inFlight = true) :
    Polled g m t w (g.poll m t w) := by
  simp only [poll]
  rw [if_neg (by simpa [inFlight,imp_iff_not_or] using hg)]
  obtain ⟨st,m',t',w',heq,h⟩ := m.poll_polled hm t w
  rw [heq]
  rcases h.ended with ⟨rfl,hm',_⟩ | ⟨rfl,hm',_⟩ | ⟨hst,hm'⟩
  · exact .waits h hm'
  · simp only [reduceCtorEq,if_false,ne_eq,not_true_eq_false]
    by_cases hcode : m'.resultCode = 0
    · rw [if_neg (not_not.mpr hcode)]
      exact .ends h hm' (Or.inl ⟨rfl,rfl⟩)
    · rw [if_pos hcode]
      exact .ends h hm' (Or.inr ⟨rfl,rfl,rfl⟩)
  · have hpend : st ≠ .pending := by rcases hst with rfl | rfl | rfl <;> simp
    have hok : st ≠ .ok := by rcases hst with rfl | rfl | rfl <;> simp
    simp only [if_neg hpend,if_pos hok]
    exact .fails h hm' hpend

theorem poll_msg {st : Status} {m' : ExplicitMessage} {t' : TcpConnection} {w' : World}
    (hg : g.inFlight = true) (h : m.poll t w = (st,m',t',w')) :
    ∃ st' g', g.poll m t w = (st',g',m',t',w') ∧ (st = .pending → g' = g) ∧
      (st = .ok → g'.status = if m'.resultCode = 0 then .ok else .error) := by
  simp only [poll]
  rw [if_neg (by simpa [inFlight,imp_iff_not_or] using hg),h]
  simp only
  by_cases hwait : st = .pending
  · rw [if_pos hwait]
    exact ⟨_,_,rfl,fun _ => rfl,fun hok => (by rw [hwait] at hok; cases hok)⟩
  rw [if_neg hwait]
  by_cases hok : st = .ok
  · rw [if_neg (not_not.mpr hok)]
    by_cases hcode : m'.resultCode = 0
    · rw [if_neg (not_not.mpr hcode),if_pos hcode]
      exact ⟨_,_,rfl,fun h => absurd h hwait,fun _ => rfl⟩
    · rw [if_pos hcode,if_neg hcode]
      exact ⟨_,_,rfl,fun h => absurd h hwait,fun _ => rfl⟩
  · rw [if_pos hok]
    exact ⟨_,_,rfl,fun h => absurd h hwait,fun h => absurd h hok⟩

theorem Polled.paced {st : Status} {g' : Tag} {m' : ExplicitMessage} {t' : TcpConnection}
    {w' : World} (h : Polled g m t w (st,g',m',t',w')) (hm : m'.inFlight = true)
    (hp : m.io.Paced) : m'.io.Paced := by
  cases h with
  | waits hpolled _ =>
    rcases hpolled.ended with ⟨_,_,hkeep⟩ | ⟨hst,_⟩ | ⟨hst,_⟩
    · exact hkeep hp
    · cases hst
    · rcases hst with h | h | h <;> cases h
  | fails _ hstate _ => simp [hstate] at hm
  | ends _ hstate _ => simp [hstate] at hm

theorem poll_still (hg : g.inFlight = false) (m : ExplicitMessage) (t : TcpConnection)
    (w : World) : g.poll m t w = (g.status,g,m,t,w) := by
  cases h : g.state <;> simp_all [poll,status,inFlight]

end Tag

end ControlLogix
