import ControlLogix.Cip.ExplicitMessage
import ControlLogix.Eip.Cpf

namespace ControlLogix

inductive Connection.State where
  | idle | opening | «open» | sending | closing | closed | failed
  deriving DecidableEq, Repr

-- data points into rx_ and is kept as an offset.
structure Connection where
  fwd : ExplicitMessage := {}
  conn : Bool := false
  state : Connection.State := .idle
  otConnId : UInt32 := 0
  toConnId : UInt32 := 0
  sequence : UInt16 := 1
  connSerial : UInt16 := 0
  tagName : List UInt8 := []
  cpuSlot : UInt8 := kNoRoute
  io : Transfer := {}
  replyService : UInt8 := 0
  resultCode : UInt8 := 0
  data : Option Nat := none
  dataLen : Nat := 0
  deadline : UInt32 := 0
  context : UInt64 := 1
  sentContext : UInt64 := 0
  sentSequence : UInt16 := 0
  deriving DecidableEq

-- The two static variables of Connection.cpp, which all connections share.
structure Statics where
  serial : UInt32 := 0
  connSerial : UInt16 := 0
  deriving DecidableEq

-- What esp_random and esp_efuse_mac_get_default answer during one call.
structure Chip where
  random : UInt32 := 0
  mac : Option (List UInt8) := none
  deriving DecidableEq

namespace Connection

def kMaxDataSize : Nat := 508

def kTagNameSize : Nat := 64

def kOriginatorVendorId : UInt16 := 0xF33D

def kOriginatorSerialFallback : UInt32 := 0x11223344

def kForwardOpen : UInt8 := 0x54

def kForwardClose : UInt8 := 0x4E

def originatorSerialNumber (mac : Option (List UInt8)) (g : Statics) : UInt32 × Statics :=
  if g.serial ≠ 0 then (g.serial,g)
  else
    let v := match mac with
      | some mac => getU32 (mac.drop 2)
      | none => 0
    let serial := if v = 0 then kOriginatorSerialFallback else v
    (serial,{g with serial := serial})

-- Pre-increment that skips 0.
def nextSerial (serial : UInt16) : UInt16 :=
  let serial := serial + 1
  if serial = 0 then serial + 1 else serial

def isOpen (c : Connection) : Bool := c.state = .open

def dataBytes (c : Connection) : List UInt8 :=
  match c.data with
  | none => []
  | some p => (c.io.rx.drop p).take c.dataLen

def buildConnectionPath (cpuSlot : UInt8) (tagName : List UInt8) : List UInt8 :=
  (if cpuSlot ≠ kNoRoute then
    appendPortSegment 1 cpuSlot ++ appendClass 2 ++ appendInstance 1 else []) ++
    appendSymbolic tagName

def managerPath : List UInt8 := [0x20,0x06,0x24,0x01]

def connParams : UInt16 := 0x4200 ||| UInt16.ofNat kMaxDataSize

def forwardOpenData (toConnId : UInt32) (connSerial : UInt16) (serial : UInt32)
    (path : List UInt8) : List UInt8 :=
  [0x0A,0x0E] ++ putU32 0 ++ putU32 toConnId ++ putU16 connSerial ++
    putU16 kOriginatorVendorId ++ putU32 serial ++ [0x03,0,0,0] ++ putU32 10000 ++
    putU16 connParams ++ putU32 10000 ++ putU16 connParams ++ [0xA3] ++
    [UInt8.ofNat (path.length / 2)] ++ path

def forwardCloseData (connSerial : UInt16) (serial : UInt32) (path : List UInt8) : List UInt8 :=
  [0x0A,0x0E] ++ putU16 connSerial ++ putU16 kOriginatorVendorId ++ putU32 serial ++
    [UInt8.ofNat (path.length / 2),0] ++ path

def startOpen (c : Connection) (t : TcpConnection) (sessionHandle : UInt32)
    (tagName : List UInt8) (timeoutMs : UInt32) (cpuSlot : UInt8) (chip : Chip) (g : Statics)
    (w : World) : Status × Connection × Statics × World :=
  let connSerial := nextSerial g.connSerial
  let c : Connection := {c with
    toConnId := if chip.random = 0 then 1 else chip.random, otConnId := 0,
    tagName := tagName.take (kTagNameSize - 1), cpuSlot := cpuSlot, connSerial := connSerial}
  let (serial,g) := originatorSerialNumber chip.mac {g with connSerial := connSerial}
  let (st,fwd,w) := c.fwd.send t sessionHandle kForwardOpen managerPath
    (forwardOpenData c.toConnId c.connSerial serial (buildConnectionPath c.cpuSlot c.tagName))
    timeoutMs w
  let c := {c with fwd := fwd}
  if st ≠ .pending then (st,c,g,w) else (.pending,{c with state := .opening},g,w)

def startClose (c : Connection) (t : TcpConnection) (sessionHandle timeoutMs : UInt32)
    (chip : Chip) (g : Statics) (w : World) : Status × Connection × Statics × World :=
  let (serial,g) := originatorSerialNumber chip.mac g
  let (st,fwd,w) := c.fwd.send t sessionHandle kForwardClose managerPath
    (forwardCloseData c.connSerial serial (buildConnectionPath c.cpuSlot c.tagName)) timeoutMs w
  let c := {c with fwd := fwd}
  if st ≠ .pending then (st,c,g,w) else (.pending,{c with state := .closing},g,w)

def connectedFrame (sessionHandle : UInt32) (context : UInt64) (otConnId : UInt32)
    (sequence : UInt16) (service : UInt8) (path data : List UInt8) : List UInt8 :=
  let cipLen := 2 + path.length + data.length
  encodeHeader (List.replicate 24 0)
      {command := Command.code .sendUnitData, length := UInt16.ofNat (22 + cipLen),
       session := sessionHandle, status := 0, context := context, options := 0} ++
    (putU32 0 ++ putU16 0 ++ putU16 2 ++ putU16 0x00A1 ++ putU16 4 ++ putU32 otConnId ++
      putU16 0x00B1 ++ putU16 (UInt16.ofNat (2 + cipLen)) ++ putU16 sequence) ++
    ([service,UInt8.ofNat (path.length / 2)] ++ path ++ data)

def startSend (c : Connection) (sessionHandle : UInt32) (service : UInt8) (path data : List UInt8)
    (timeoutMs : UInt32) (w : World) : Status × Connection × World :=
  if kMaxDataSize < 2 + path.length + data.length ∨ path.length % 2 ≠ 0 then (.invalidArg,c,w)
  else
    let (now,w) := w.millis
    (.pending,
      {c with conn := true,
              io := Transfer.load (connectedFrame sessionHandle c.context c.otConnId c.sequence
                service path data),
              sentContext := c.context, sentSequence := c.sequence, context := c.context + 1,
              sequence := c.sequence + 1, deadline := now + timeoutMs, state := .sending},w)

end Connection

def Connection.open (c : Connection) (t : TcpConnection) (sessionHandle : UInt32)
    (tagName : Option (List UInt8)) (timeoutMs : UInt32) (cpuSlot : UInt8) (chip : Chip)
    (g : Statics) (w : World) : Status × Connection × Statics × World :=
  match tagName with
  | none => (.invalidArg,c,g,w)
  | some tagName =>
    if Connection.kTagNameSize ≤ tagName.length then (.invalidArg,c,g,w)
    else if c.state = .opening ∨ c.state = .sending ∨ c.state = .closing then (.busy,c,g,w)
    else c.startOpen t sessionHandle tagName timeoutMs cpuSlot chip g w

namespace Connection

def send (c : Connection) (sessionHandle : UInt32) (service : UInt8) (path data : List UInt8)
    (timeoutMs : UInt32) (w : World) : Status × Connection × World :=
  if c.state ≠ .open then (.notReady,c,w)
  else c.startSend sessionHandle service path data timeoutMs w

def close (c : Connection) (t : TcpConnection) (sessionHandle timeoutMs : UInt32) (chip : Chip)
    (g : Statics) (w : World) : Status × Connection × Statics × World :=
  if c.state ≠ .open then (.notReady,c,g,w)
  else c.startClose t sessionHandle timeoutMs chip g w

def pollOpening (c : Connection) (t : TcpConnection) (w : World) :
    Status × Connection × TcpConnection × World :=
  let (st,fwd,t,w) := c.fwd.poll t w
  let c := {c with fwd := fwd}
  if st = .pending then (.pending,c,t,w)
  else if st ≠ .ok then (st,{c with state := .failed},t,w)
  else if c.fwd.resultCode ≠ 0 ∨ c.fwd.dataLen < 12 then (.error,{c with state := .failed},t,w)
  else
    let ot := getU32 c.fwd.dataBytes
    let echo := getU32 (c.fwd.dataBytes.drop 4)
    if ot = 0 ∨ echo = 0 then (.error,{c with state := .failed},t,w)
    else if echo ≠ c.toConnId then (.error,{c with state := .failed},t,w)
    else (.ok,{c with otConnId := ot, state := .open},t,w)

-- What the loop over the items keeps: the connection ID and the place of the connected data.
def takeConnected (rx : List UInt8) (a : Option UInt32 × Option (Nat × Nat)) (type : UInt16)
    (p len : Nat) : Option (Option UInt32 × Option (Nat × Nat)) :=
  if type = 0x00A1 then
    if len < 4 then none else some (some (getU32 (rx.drop p)),a.2)
  else if type = 0x00B1 then some (a.1,some (p,len))
  else some a

def connectedItems (rx : List UInt8) : Option (UInt32 × Nat × Nat) :=
  let bodyLen := rx.length - kEncapsulationHeaderSize
  if bodyLen < 8 then none
  else
    let itemCount := (getU16 (rx.drop (kEncapsulationHeaderSize + 6))).toNat
    match walkItems (takeConnected rx) rx itemCount (kEncapsulationHeaderSize + 8) (bodyLen - 8)
        (none,none) with
    | some (some connId,some (p,len)) => if len < 4 then none else some (connId,p,len)
    | _ => none

def parseConnectedResponse (c : Connection) : Status × Connection :=
  let h := decodeHeader c.io.rx
  if h.command ≠ Command.code .sendUnitData ∨ h.status ≠ 0 then (.error,c)
  else if h.context ≠ c.sentContext then (.error,c)
  else
    match connectedItems c.io.rx with
    | none => (.error,c)
    | some (connId,p,len) =>
      if connId ≠ c.toConnId then (.error,c)
      else if getU16 (c.io.rx.drop p) ≠ c.sentSequence then (.error,c)
      else
        let cipLen := len - 2
        if cipLen < 4 then (.error,c)
        else
          (.ok,{c with replyService := c.io.rx.getD (p + 2) 0,
                       resultCode := c.io.rx.getD (p + 4) 0, data := some (p + 6),
                       dataLen := cipLen - 4})

def pollSending (c : Connection) (t : TcpConnection) (w : World) :
    Status × Connection × TcpConnection × World :=
  let (now,w) := w.millis
  if expired now c.deadline then (.timeout,{c with state := .failed},t,w)
  else
    let (st,io,t,w) := c.io.writePending t w
    let c := {c with io := io}
    if st ≠ .ok then (st,if st ≠ .pending then {c with state := .failed} else c,t,w)
    else
      let (st,io,t,w) := c.io.readResponse (22 + kMaxDataSize) t w
      let c := {c with io := io}
      if st = .pending then (.pending,c,t,w)
      else if st ≠ .ok then (st,{c with state := .failed},t,w)
      else
        let (st,c) := c.parseConnectedResponse
        (st,{c with state := if st = .ok then .open else .failed},t,w)

def pollClosing (c : Connection) (t : TcpConnection) (w : World) :
    Status × Connection × TcpConnection × World :=
  let (st,fwd,t,w) := c.fwd.poll t w
  let c := {c with fwd := fwd}
  if st = .pending then (.pending,c,t,w)
  else if st ≠ .ok then (st,{c with state := .failed},t,w)
  else (.ok,{c with state := .closed},t,w)

def poll (c : Connection) (t : TcpConnection) (w : World) :
    Status × Connection × TcpConnection × World :=
  match c.state with
  | .opening => c.pollOpening t w
  | .sending => c.pollSending t w
  | .closing => c.pollClosing t w
  | .open => (.ok,c,t,w)
  | .closed => (.closed,c,t,w)
  | .failed => (.error,c,t,w)
  | .idle => (.notReady,c,t,w)

theorem appendSymbolic_length (name : List UInt8) : (appendSymbolic name).length ≤ 124 := by
  have hcap : (if kMaxSymbolicName < name.length then kMaxSymbolicName else name.length) ≤ 120 := by
    by_cases h : kMaxSymbolicName < name.length
    · rw [if_pos h]
      exact Nat.le_refl _
    · rw [if_neg h]
      exact Nat.not_lt.mp h
  rw [appendSymbolic]
  generalize (if kMaxSymbolicName < name.length then kMaxSymbolicName else name.length) = len at *
  have hpad : (if len % 2 = 1 then [(0 : UInt8)] else []).length ≤ 1 := by split <;> simp
  simp only [List.length_append,List.length_cons,List.length_nil,List.length_take]
  omega

theorem buildConnectionPath_length (cpuSlot : UInt8) (tagName : List UInt8) :
    (buildConnectionPath cpuSlot tagName).length ≤ 130 := by
  have hname := appendSymbolic_length tagName
  simp only [buildConnectionPath]
  split_ifs <;> simp [appendPortSegment,appendClass,appendInstance] <;> omega

theorem originatorSerialNumber_spec (mac : Option (List UInt8)) (g : Statics) :
    ∃ serial, originatorSerialNumber mac g = (serial,{g with serial := serial}) ∧ serial ≠ 0 ∧
      (g.serial ≠ 0 → serial = g.serial) := by
  simp only [originatorSerialNumber]
  by_cases hset : g.serial ≠ 0
  · rw [if_pos hset]
    exact ⟨g.serial,rfl,hset,fun _ => rfl⟩
  · rw [if_neg hset]
    refine ⟨_,rfl,?_,fun h => absurd h hset⟩
    split_ifs with hv
    · decide
    · exact hv

def identity (c : Connection) : UInt32 × UInt32 × UInt16 × List UInt8 × UInt8 :=
  (c.otConnId,c.toConnId,c.connSerial,c.tagName,c.cpuSlot)

def drawn (c : Connection) (tagName : List UInt8) (cpuSlot : UInt8) (chip : Chip) (g : Statics) :
    Connection :=
  {c with toConnId := if chip.random = 0 then 1 else chip.random, otConnId := 0,
          tagName := tagName.take (kTagNameSize - 1), cpuSlot := cpuSlot,
          connSerial := nextSerial g.connSerial}

def openFrame (c : Connection) (sessionHandle : UInt32) (context : UInt64) (serial : UInt32) :
    List UInt8 :=
  ExplicitMessage.requestFrame sessionHandle context kForwardOpen managerPath
    (forwardOpenData c.toConnId c.connSerial serial (buildConnectionPath c.cpuSlot c.tagName))

def closeFrame (c : Connection) (sessionHandle : UInt32) (context : UInt64) (serial : UInt32) :
    List UInt8 :=
  ExplicitMessage.requestFrame sessionHandle context kForwardClose managerPath
    (forwardCloseData c.connSerial serial (buildConnectionPath c.cpuSlot c.tagName))

def busy (c : Connection) : Bool := c.state = .opening ∨ c.state = .sending ∨ c.state = .closing

def opens (c : Connection) (tagName : Option (List UInt8)) : Bool :=
  match tagName with
  | none => false
  | some tagName => tagName.length < kTagNameSize && !c.busy

theorem drawn_toConnId_ne (c : Connection) (tagName : List UInt8) (cpuSlot : UInt8) (chip : Chip)
    (g : Statics) : (c.drawn tagName cpuSlot chip g).toConnId ≠ 0 := by
  simp only [drawn]
  split_ifs with h
  · decide
  · exact h

theorem startOpen_eq {c : Connection} {chip : Chip} {g g' : Statics} {serial : UInt32}
    (h : originatorSerialNumber chip.mac {g with connSerial := nextSerial g.connSerial} =
      (serial,g')) (t : TcpConnection) (sessionHandle : UInt32) (tagName : List UInt8)
    (timeoutMs : UInt32) (cpuSlot : UInt8) (w : World) {d : Connection}
    (hd : c.drawn tagName cpuSlot chip g = d) {st : Status} {fwd : ExplicitMessage} {w' : World}
    (hsend : c.fwd.send t sessionHandle kForwardOpen managerPath (forwardOpenData d.toConnId
      d.connSerial serial (buildConnectionPath d.cpuSlot d.tagName)) timeoutMs w = (st,fwd,w')) :
    c.startOpen t sessionHandle tagName timeoutMs cpuSlot chip g w =
      (st,{d with fwd := fwd, state := if st = .pending then .opening else c.state},g',w') := by
  subst hd
  simp only [drawn] at hsend
  simp only [startOpen,h,hsend]
  by_cases hst : st = .pending
  · rw [if_neg (not_not.mpr hst),hst]
    rfl
  · rw [if_pos hst,if_neg hst]
    rfl

theorem startClose_eq {c : Connection} {chip : Chip} {g g' : Statics} {serial : UInt32}
    (h : originatorSerialNumber chip.mac g = (serial,g')) (t : TcpConnection)
    (sessionHandle timeoutMs : UInt32) (w : World) {st : Status} {fwd : ExplicitMessage}
    {w' : World} (hsend : c.fwd.send t sessionHandle kForwardClose managerPath
      (forwardCloseData c.connSerial serial (buildConnectionPath c.cpuSlot c.tagName))
        timeoutMs w = (st,fwd,w')) :
    c.startClose t sessionHandle timeoutMs chip g w =
      (st,{c with fwd := fwd, state := if st = .pending then .closing else c.state},g',w') := by
  simp only [startClose,h,hsend]
  by_cases hst : st = .pending
  · rw [if_neg (not_not.mpr hst),hst]
    rfl
  · rw [if_pos hst,if_neg hst]

theorem forwardOpenData_length (toConnId : UInt32) (connSerial : UInt16) (serial : UInt32)
    (path : List UInt8) :
    (forwardOpenData toConnId connSerial serial path).length = 36 + path.length := by
  simp [forwardOpenData]
  omega

theorem forwardCloseData_length (connSerial : UInt16) (serial : UInt32) (path : List UInt8) :
    (forwardCloseData connSerial serial path).length = 12 + path.length := by
  simp [forwardCloseData]
  omega

inductive Opened (c : Connection) (t : TcpConnection) (sessionHandle : UInt32)
    (tagName : Option (List UInt8)) (g : Statics) (w : World) :
    Status × Connection × Statics × World → Prop
  | away {st : Status} : st ≠ .pending → c.opens tagName = false →
      Opened c t sessionHandle tagName g w (st,c,g,w)
  | refused {st : Status} {name : List UInt8} {cpuSlot : UInt8} {chip : Chip} {g' : Statics} :
      st ≠ .pending → c.opens tagName = true → c.fwd.inFlight = true ∨ t.connected = false →
      (g.serial ≠ 0 → g'.serial = g.serial) →
      Opened c t sessionHandle tagName g w (st,c.drawn name cpuSlot chip g,g',w)
  | sent {name : List UInt8} {cpuSlot : UInt8} {chip : Chip} {g' : Statics}
      {serial deadline : UInt32} {w' : World} : c.opens tagName = true → c.fwd.inFlight = false →
      t.connected = true → tagName = some name → g'.serial = serial → serial ≠ 0 →
      w'.log = w.log → Opened c t sessionHandle tagName g w (.pending,
        {c.drawn name cpuSlot chip g with
          fwd := c.fwd.issued ((c.drawn name cpuSlot chip g).openFrame sessionHandle c.fwd.context
            serial) deadline, state := .opening},g',w')

theorem open_opened (c : Connection) (t : TcpConnection) (sessionHandle : UInt32)
    (tagName : Option (List UInt8)) (timeoutMs : UInt32) (cpuSlot : UInt8) (chip : Chip)
    (g : Statics) (w : World) : Opened c t sessionHandle tagName g w
      (c.open t sessionHandle tagName timeoutMs cpuSlot chip g w) := by
  cases tagName with
  | none => exact .away (by simp) rfl
  | some name =>
    simp only [Connection.open]
    by_cases hlong : kTagNameSize ≤ name.length
    · rw [if_pos hlong]
      exact .away (by simp) (by simp [opens]; omega)
    rw [if_neg hlong]
    by_cases hbusy : c.state = .opening ∨ c.state = .sending ∨ c.state = .closing
    · rw [if_pos hbusy]
      exact .away (by simp) (by simp [opens,busy,hbusy])
    rw [if_neg hbusy]
    have hopens : c.opens (some name) = true := by simp [opens,busy,hbusy]; omega
    obtain ⟨serial,hserial,hne,hsame⟩ :=
      originatorSerialNumber_spec chip.mac {g with connSerial := nextSerial g.connSerial}
    generalize hd : c.drawn name cpuSlot chip g = d
    have hsize : 2 + managerPath.length + (forwardOpenData d.toConnId d.connSerial serial
        (buildConnectionPath d.cpuSlot d.tagName)).length ≤ ExplicitMessage.kMaxCipData := by
      have hpath := buildConnectionPath_length d.cpuSlot d.tagName
      rw [forwardOpenData_length]
      simp only [managerPath,ExplicitMessage.kMaxCipData,List.length_cons,List.length_nil]
      omega
    rcases ExplicitMessage.send_fits c.fwd t sessionHandle kForwardOpen hsize rfl timeoutMs w with
      ⟨deadline,w',hfree,hconn,hlog,heq⟩ | ⟨st,hst,hwhy,heq⟩
    · have hframe : ExplicitMessage.requestFrame sessionHandle c.fwd.context kForwardOpen
          managerPath (forwardOpenData d.toConnId d.connSerial serial
            (buildConnectionPath d.cpuSlot d.tagName)) =
          d.openFrame sessionHandle c.fwd.context serial := rfl
      rw [startOpen_eq hserial t sessionHandle name timeoutMs cpuSlot w hd heq,if_pos rfl,hframe]
      subst hd
      exact .sent hopens hfree hconn rfl rfl hne hlog
    · rw [startOpen_eq hserial t sessionHandle name timeoutMs cpuSlot w hd heq,if_neg hst]
      subst hd
      exact .refused hst hopens hwhy hsame

inductive Closed (c : Connection) (t : TcpConnection) (sessionHandle : UInt32) (g : Statics)
    (w : World) : Status × Connection × Statics × World → Prop
  | refused {st : Status} {g' : Statics} : st ≠ .pending →
      (g.serial ≠ 0 → g'.serial = g.serial) → Closed c t sessionHandle g w (st,c,g',w)
  | sent {g' : Statics} {serial deadline : UInt32} {w' : World} : c.state = .open →
      g'.serial = serial → (g.serial ≠ 0 → serial = g.serial) → w'.log = w.log →
      Closed c t sessionHandle g w (.pending,
        {c with fwd := c.fwd.issued (c.closeFrame sessionHandle c.fwd.context serial) deadline,
                state := .closing},g',w')

theorem close_closed (c : Connection) (t : TcpConnection) (sessionHandle timeoutMs : UInt32)
    (chip : Chip) (g : Statics) (w : World) : Closed c t sessionHandle g w
      (c.close t sessionHandle timeoutMs chip g w) := by
  simp only [close]
  by_cases hopen : c.state = .open
  · rw [if_neg (not_not.mpr hopen)]
    obtain ⟨serial,hserial,hne,hsame⟩ := originatorSerialNumber_spec chip.mac g
    have hsize : 2 + managerPath.length + (forwardCloseData c.connSerial serial
        (buildConnectionPath c.cpuSlot c.tagName)).length ≤ ExplicitMessage.kMaxCipData := by
      have hpath := buildConnectionPath_length c.cpuSlot c.tagName
      rw [forwardCloseData_length]
      simp only [managerPath,ExplicitMessage.kMaxCipData,List.length_cons,List.length_nil]
      omega
    rcases ExplicitMessage.send_fits c.fwd t sessionHandle kForwardClose hsize rfl timeoutMs w with
      ⟨deadline,w',_,_,hlog,heq⟩ | ⟨st,hst,_,heq⟩
    · have hframe : ExplicitMessage.requestFrame sessionHandle c.fwd.context kForwardClose
          managerPath (forwardCloseData c.connSerial serial
            (buildConnectionPath c.cpuSlot c.tagName)) =
          c.closeFrame sessionHandle c.fwd.context serial := rfl
      rw [startClose_eq hserial t sessionHandle timeoutMs w heq,if_pos rfl,hframe]
      exact .sent hopen rfl hsame hlog
    · rw [startClose_eq hserial t sessionHandle timeoutMs w heq,if_neg hst]
      exact .refused hst hsame
  · rw [if_pos hopen]
    exact .refused (by simp) fun _ => rfl

def loaded (c : Connection) (frame : List UInt8) (deadline : UInt32) : Connection :=
  {c with conn := true, io := Transfer.load frame, sentContext := c.context,
          sentSequence := c.sequence, context := c.context + 1, sequence := c.sequence + 1,
          deadline := deadline, state := .sending}

theorem send_cases (c : Connection) (sessionHandle : UInt32) (service : UInt8)
    (path data : List UInt8) (timeoutMs : UInt32) (w : World) :
    (∃ st, st ≠ .pending ∧ c.send sessionHandle service path data timeoutMs w = (st,c,w)) ∨
    ∃ deadline w', c.state = .open ∧ 2 + path.length + data.length ≤ kMaxDataSize ∧
      path.length % 2 = 0 ∧ w'.log = w.log ∧ c.send sessionHandle service path data timeoutMs w =
        (.pending,c.loaded (connectedFrame sessionHandle c.context c.otConnId c.sequence service
          path data) deadline,w') := by
  simp only [send]
  by_cases hopen : c.state = .open
  · rw [if_neg (not_not.mpr hopen)]
    simp only [startSend]
    by_cases hbad : kMaxDataSize < 2 + path.length + data.length ∨ path.length % 2 ≠ 0
    · exact Or.inl ⟨.invalidArg,by simp,if_pos hbad⟩
    · rw [if_neg hbad]
      rw [not_or,not_lt,not_not] at hbad
      exact Or.inr ⟨_,w.millis.2,hopen,hbad.1,hbad.2,rfl,rfl⟩
  · exact Or.inl ⟨.notReady,by simp,if_pos hopen⟩

theorem parseConnectedResponse_cases (c : Connection) :
    (∃ c' p len, c.parseConnectedResponse = (.ok,c') ∧
      c' = {c with replyService := c'.replyService, resultCode := c'.resultCode, data := c'.data,
                   dataLen := c'.dataLen} ∧
      (decodeHeader c.io.rx).command = Command.code .sendUnitData ∧
      (decodeHeader c.io.rx).status = 0 ∧ (decodeHeader c.io.rx).context = c.sentContext ∧
      connectedItems c.io.rx = some (c.toConnId,p,len) ∧
      getU16 (c.io.rx.drop p) = c.sentSequence) ∨
    c.parseConnectedResponse = (.error,c) := by
  simp only [parseConnectedResponse]
  by_cases hhead : (decodeHeader c.io.rx).command ≠ Command.code .sendUnitData ∨
      (decodeHeader c.io.rx).status ≠ 0
  · exact Or.inr (if_pos hhead)
  rw [if_neg hhead]
  rw [not_or,not_not,not_not] at hhead
  by_cases hcontext : (decodeHeader c.io.rx).context ≠ c.sentContext
  · exact Or.inr (if_pos hcontext)
  rw [if_neg hcontext]
  rw [not_not] at hcontext
  rcases hitems : connectedItems c.io.rx with _ | ⟨connId,p,len⟩
  · exact Or.inr rfl
  simp only
  by_cases hid : connId ≠ c.toConnId
  · exact Or.inr (if_pos hid)
  rw [if_neg hid]
  rw [not_not] at hid
  by_cases hseq : getU16 (c.io.rx.drop p) ≠ c.sentSequence
  · exact Or.inr (if_pos hseq)
  rw [if_neg hseq]
  rw [not_not] at hseq
  by_cases hlen : len - 2 < 4
  · exact Or.inr (if_pos hlen)
  · rw [if_neg hlen]
    exact Or.inl ⟨_,p,len,rfl,rfl,hhead.1,hhead.2,hcontext,by rw [hid],hseq⟩

structure Exchanged (c : Connection) (t : TcpConnection) (w : World) (st : Status)
    (c' : Connection) (t' : TcpConnection) (w' : World) : Prop where
  io : Transfer.Moved c.io t w c'.io t' w'
  kept : c' = {c with io := c'.io, state := c'.state, replyService := c'.replyService,
                      resultCode := c'.resultCode, data := c'.data, dataLen := c'.dataLen}
  ended : st = .pending ∧ c'.state = .sending ∧ (c.io.Paced → c'.io.Paced) ∨
    (st = .ok ∧ c'.state = .open ∧ (c.io.Paced → Encapsulated c'.io.rx) ∧
      (decodeHeader c'.io.rx).command = Command.code .sendUnitData ∧
      (decodeHeader c'.io.rx).status = 0 ∧ (decodeHeader c'.io.rx).context = c.sentContext ∧
      ∃ p len, connectedItems c'.io.rx = some (c.toConnId,p,len) ∧
        getU16 (c'.io.rx.drop p) = c.sentSequence) ∨
    st ≠ .pending ∧ st ≠ .ok ∧ c'.state = .failed

theorem pollSending_exchanged {c : Connection} (hc : c.state = .sending) (t : TcpConnection)
    (w : World) : ∃ st c' t' w', c.pollSending t w = (st,c',t',w') ∧
      Exchanged c t w st c' t' w' := by
  simp only [pollSending]
  by_cases hlate : expired w.millis.1 c.deadline
  · rw [if_pos hlate]
    exact ⟨_,_,_,_,rfl,(Transfer.Moved.refl c.io t w.millis.2).of_millis,rfl,
      Or.inr (Or.inr ⟨by simp,by simp,rfl⟩)⟩
  rw [if_neg hlate]
  rcases c.io.turn (22 + kMaxDataSize) t w.millis.2 with
    ⟨st,x,t',w',hwrite,hst,_,hmoved,hx⟩ |
    ⟨y,u,v,st,x,t',w',hwrite,hread,_,hmoved,_,hpaced,hall⟩
  · simp only [hwrite,if_pos hst]
    by_cases hwait : st = .pending
    · rw [if_neg (not_not.mpr hwait)]
      exact ⟨_,_,_,_,rfl,hmoved.of_millis,rfl,
        Or.inl ⟨hwait,hc,fun hp => by simp only; rw [hx]; exact hp⟩⟩
    · rw [if_pos hwait]
      exact ⟨_,_,_,_,rfl,hmoved.of_millis,rfl,Or.inr (Or.inr ⟨hwait,hst,rfl⟩)⟩
  simp only [hwrite,hread]
  rw [if_neg (by simp)]
  by_cases hwait : st = .pending
  · rw [if_pos hwait]
    exact ⟨_,_,_,_,rfl,hmoved.of_millis,rfl,
      Or.inl ⟨rfl,hc,fun hp => hpaced hp (by simp [hwait])⟩⟩
  rw [if_neg hwait]
  by_cases hok : st = .ok
  · rw [if_neg (not_not.mpr hok)]
    subst hok
    rcases parseConnectedResponse_cases {c with io := x} with
      ⟨c',p,len,heq,hkept,hcommand,hstatus,hcontext,hitems,hseq⟩ | heq
    · rw [heq]
      have hio : c'.io = x := by rw [hkept]
      refine ⟨_,_,_,_,rfl,?_,?_,Or.inr (Or.inl ⟨rfl,rfl,?_,?_⟩)⟩
      · simp only [hio]
        exact hmoved.of_millis
      · simp only
        rw [hkept]
      · intro hp
        have hp' := hpaced hp (by simp)
        have hexp := hp'.2.2 (hp'.header (hall rfl))
        have hfit := hp'.1
        have hend := hall rfl
        simp only [hio]
        rw [Encapsulated]
        omega
      · simp only [hio]
        exact ⟨hcommand,hstatus,hcontext,p,len,hitems,hseq⟩
    · rw [heq]
      exact ⟨_,_,_,_,rfl,hmoved.of_millis,rfl,Or.inr (Or.inr ⟨by simp,by simp,rfl⟩)⟩
  · rw [if_pos hok]
    exact ⟨_,_,_,_,rfl,hmoved.of_millis,rfl,Or.inr (Or.inr ⟨hwait,hok,rfl⟩)⟩

theorem pollOpening_cases {c : Connection} {t t' : TcpConnection} {w w' : World} {st : Status}
    {fwd : ExplicitMessage} (h : c.fwd.poll t w = (st,fwd,t',w')) :
    (st = .pending ∧ c.pollOpening t w = (.pending,{c with fwd := fwd},t',w')) ∨
    (st ≠ .pending ∧ ∃ st', st' ≠ .pending ∧ st' ≠ .ok ∧
      c.pollOpening t w = (st',{c with fwd := fwd, state := .failed},t',w')) ∨
    st = .ok ∧ fwd.resultCode = 0 ∧ 12 ≤ fwd.dataLen ∧ getU32 fwd.dataBytes ≠ 0 ∧
      getU32 (fwd.dataBytes.drop 4) = c.toConnId ∧ c.toConnId ≠ 0 ∧ c.pollOpening t w =
        (.ok,{c with fwd := fwd, otConnId := getU32 fwd.dataBytes, state := .open},t',w') := by
  simp only [pollOpening,h]
  by_cases hwait : st = .pending
  · exact Or.inl ⟨hwait,if_pos hwait⟩
  rw [if_neg hwait]
  by_cases hok : st = .ok
  · rw [if_neg (not_not.mpr hok)]
    by_cases hcode : fwd.resultCode ≠ 0 ∨ fwd.dataLen < 12
    · exact Or.inr (Or.inl ⟨hwait,.error,by simp,by simp,if_pos hcode⟩)
    rw [if_neg hcode]
    by_cases hzero : getU32 fwd.dataBytes = 0 ∨ getU32 (fwd.dataBytes.drop 4) = 0
    · exact Or.inr (Or.inl ⟨hwait,.error,by simp,by simp,if_pos hzero⟩)
    rw [if_neg hzero]
    by_cases hecho : getU32 (fwd.dataBytes.drop 4) ≠ c.toConnId
    · exact Or.inr (Or.inl ⟨hwait,.error,by simp,by simp,if_pos hecho⟩)
    rw [if_neg hecho]
    rw [not_or,not_not,not_lt] at hcode
    rw [not_or] at hzero
    rw [not_not] at hecho
    exact Or.inr (Or.inr ⟨hok,hcode.1,hcode.2,hzero.1,hecho,hecho ▸ hzero.2,rfl⟩)
  · exact Or.inr (Or.inl ⟨hwait,st,hwait,hok,if_pos hok⟩)

theorem pollClosing_cases {c : Connection} {t t' : TcpConnection} {w w' : World} {st : Status}
    {fwd : ExplicitMessage} (h : c.fwd.poll t w = (st,fwd,t',w')) :
    c.pollClosing t w = (st,{c with fwd := fwd, state := if st = .pending then c.state
      else if st = .ok then .closed else .failed},t',w') := by
  simp only [pollClosing,h]
  by_cases hwait : st = .pending
  · rw [if_pos hwait,if_pos hwait,hwait]
  rw [if_neg hwait,if_neg hwait]
  by_cases hok : st = .ok
  · rw [if_neg (not_not.mpr hok),if_pos hok,hok]
  · rw [if_pos hok,if_neg hok]

end Connection

end ControlLogix
