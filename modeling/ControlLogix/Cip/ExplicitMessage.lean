import ControlLogix.Cip.Cip
import ControlLogix.Eip.Exchange

namespace ControlLogix

inductive ExplicitMessage.State where
  | idle | sending | receiving | done | failed
  deriving DecidableEq, Repr

-- addStatus and data point into rx_ and are kept as offsets.
structure ExplicitMessage where
  conn : Bool := false
  state : ExplicitMessage.State := .idle
  deadline : UInt32 := 0
  context : UInt64 := 1
  sentContext : UInt64 := 0
  io : Transfer := {}
  replyService : UInt8 := 0
  resultCode : UInt8 := 0
  addStatusWords : UInt8 := 0
  addStatus : Option Nat := none
  data : Option Nat := none
  dataLen : Nat := 0
  deriving DecidableEq

namespace ExplicitMessage

def kMaxCipData : Nat := 512

def kRoutedOverhead : Nat := 15

def inFlight (m : ExplicitMessage) : Bool := m.state = .sending ∨ m.state = .receiving

def dataBytes (m : ExplicitMessage) : List UInt8 :=
  match m.data with
  | none => []
  | some p => (m.io.rx.drop p).take m.dataLen

def abort (m : ExplicitMessage) : ExplicitMessage := {m with conn := false, state := .idle}

def requestFrame (sessionHandle : UInt32) (context : UInt64) (service : UInt8)
    (path data : List UInt8) : List UInt8 :=
  let cipLen := 2 + path.length + data.length
  encodeHeader (List.replicate 24 0)
      {command := Command.code .sendRRData, length := UInt16.ofNat (16 + cipLen),
       session := sessionHandle, status := 0, context := context, options := 0} ++
    (putU32 0 ++ putU16 10 ++ putU16 2 ++ putU16 0x0000 ++ putU16 0 ++ putU16 0x00B2 ++
      putU16 (UInt16.ofNat cipLen)) ++
    ([service,UInt8.ofNat (path.length / 2)] ++ path ++ data)

def startSend (m : ExplicitMessage) (sessionHandle : UInt32) (service : UInt8)
    (path data : List UInt8) (timeoutMs : UInt32) (w : World) :
    Status × ExplicitMessage × World :=
  let (now,w) := w.millis
  (.pending,
    {m with conn := true, io := Transfer.load (requestFrame sessionHandle m.context service path data),
            sentContext := m.context, context := m.context + 1, deadline := now + timeoutMs,
            state := .sending},w)

def send (m : ExplicitMessage) (t : TcpConnection) (sessionHandle : UInt32) (service : UInt8)
    (path data : List UInt8) (timeoutMs : UInt32) (w : World) :
    Status × ExplicitMessage × World :=
  if m.state = .sending ∨ m.state = .receiving then (.busy,m,w)
  else if !t.connected then (.notReady,m,w)
  else if kMaxCipData < 2 + path.length + data.length ∨ path.length % 2 ≠ 0 then (.invalidArg,m,w)
  else m.startSend sessionHandle service path data timeoutMs w

def unconnectedSend (slot service : UInt8) (path data : List UInt8) : List UInt8 :=
  let embeddedLen := 2 + path.length + data.length
  [0x0A,0x05] ++ putU16 (UInt16.ofNat embeddedLen) ++
    [service,UInt8.ofNat (path.length / 2)] ++ path ++ data ++
    (if embeddedLen % 2 = 1 then [0x00] else []) ++ appendBackplaneRoute slot

def sendRouted (m : ExplicitMessage) (t : TcpConnection) (sessionHandle : UInt32)
    (slot service : UInt8) (path data : List UInt8) (timeoutMs : UInt32) (w : World) :
    Status × ExplicitMessage × World :=
  if m.state = .sending ∨ m.state = .receiving then (.busy,m,w)
  else if !t.connected then (.notReady,m,w)
  else if 16 < slot then (.invalidArg,m,w)
  else if kMaxCipData < 2 + path.length + data.length ∨ path.length % 2 ≠ 0 then (.invalidArg,m,w)
  else
    m.startSend sessionHandle kUnconnectedSend [0x20,kConnectionManagerClass,0x24,0x01]
      (unconnectedSend slot service path data) timeoutMs w

-- The CPF items from offset p, remaining bytes long: the place of the last 0x00B2 item, or
-- nothing when an item does not fit.
def scanItems (rx : List UInt8) :
    Nat → Nat → Nat → Option (Nat × Nat) → Option (Option (Nat × Nat))
  | 0, _, _, found => some found
  | count+1, p, remaining, found =>
    if remaining < 4 then none
    else
      let type := getU16 (rx.drop p)
      let len := (getU16 (rx.drop (p + 2))).toNat
      if remaining - 4 < len then none
      else scanItems rx count (p + 4 + len) (remaining - 4 - len)
        (if type = 0x00B2 then some (p + 4,len) else found)

def locate (rx : List UInt8) : Option (Nat × Nat) :=
  let bodyLen := rx.length - kEncapsulationHeaderSize
  if bodyLen < 8 then none
  else
    let itemCount := (getU16 (rx.drop (kEncapsulationHeaderSize + 6))).toNat
    match scanItems rx itemCount (kEncapsulationHeaderSize + 8) (bodyLen - 8) none with
    | some (some (p,len)) => if len < 4 then none else some (p,len)
    | _ => none

def parseResponse (m : ExplicitMessage) : Status × ExplicitMessage :=
  let h := decodeHeader m.io.rx
  if h.command ≠ Command.code .sendRRData ∨ h.status ≠ 0 then (.error,m)
  else if h.context ≠ m.sentContext then (.error,m)
  else
    match locate m.io.rx with
    | none => (.error,m)
    | some (p,cipLen) =>
      let words := m.io.rx.getD (p + 3) 0
      let addBytes := words.toNat * 2
      let (words,addBytes) :=
        if cipLen - 4 < addBytes then (UInt8.ofNat ((cipLen - 4) / 2),cipLen - 4)
        else (words,addBytes)
      (.ok,
        {m with replyService := m.io.rx.getD p 0, resultCode := m.io.rx.getD (p + 2) 0,
                addStatusWords := words, addStatus := some (p + 4),
                data := some (p + 4 + addBytes), dataLen := cipLen - 4 - addBytes})

def poll (m : ExplicitMessage) (t : TcpConnection) (w : World) :
    Status × ExplicitMessage × TcpConnection × World :=
  match m.state with
  | .done => (.ok,m,t,w)
  | .failed => (.error,m,t,w)
  | .idle => (.notReady,m,t,w)
  | _ =>
    let (now,w) := w.millis
    if expired now m.deadline then (.timeout,{m with state := .failed},t,w)
    else
      let (st,io,t,w) := m.io.writePending t w
      let m := {m with io := io}
      if st ≠ .ok then (st,if st ≠ .pending then {m with state := .failed} else m,t,w)
      else
        let m := {m with state := .receiving}
        let (st,io,t,w) := m.io.readResponse (16 + kMaxCipData + kRoutedOverhead) t w
        let m := {m with io := io}
        if st = .pending then (.pending,m,t,w)
        else if st ≠ .ok then (st,{m with state := .failed},t,w)
        else
          let (st,m) := m.parseResponse
          (st,{m with state := if st = .ok then .done else .failed},t,w)

@[simp] theorem inFlight_iff (m : ExplicitMessage) :
    m.inFlight = true ↔ m.state = .sending ∨ m.state = .receiving := by
  simp [inFlight]

def unsent (m : ExplicitMessage) : Bool := m.inFlight && m.io.txSent < m.io.tx.length

theorem unsent_iff {m : ExplicitMessage} :
    m.unsent = true ↔ m.inFlight = true ∧ m.io.txSent < m.io.tx.length := by
  simp [unsent]

theorem requestFrame_eq (sessionHandle : UInt32) (context : UInt64) (service : UInt8)
    (path data : List UInt8) :
    ∃ body, body.length = 16 + (2 + path.length + data.length) ∧
      requestFrame sessionHandle context service path data =
        headerBytes {command := Command.code .sendRRData,
                     length := UInt16.ofNat (16 + (2 + path.length + data.length)),
                     session := sessionHandle, status := 0, context := context, options := 0} ++
          body := by
  simp only [requestFrame,encodeHeader_blank,List.append_assoc]
  refine ⟨_,?_,rfl⟩
  simp
  omega

theorem requestFrame_drop (sessionHandle : UInt32) (context : UInt64) (service : UInt8)
    (path data : List UInt8) :
    (requestFrame sessionHandle context service path data).drop (42 + path.length) = data := by
  simp only [requestFrame,encodeHeader_blank]
  rw [← List.append_assoc]
  refine List.drop_left' ?_
  simp only [List.length_append,headerBytes_length,putU32_length,putU16_length,List.length_cons,
    List.length_nil]
  omega

theorem requestFrame_encapsulated (sessionHandle : UInt32) (context : UInt64) (service : UInt8)
    {path data : List UInt8} (hcip : 2 + path.length + data.length ≤ kMaxCipData + kRoutedOverhead) :
    Encapsulated (requestFrame sessionHandle context service path data) := by
  obtain ⟨body,hbody,heq⟩ := requestFrame_eq sessionHandle context service path data
  rw [heq]
  refine encapsulated_headerBytes ?_
  simp only [kMaxCipData,kRoutedOverhead] at hcip
  rw [hbody,UInt16.toNat_ofNat']
  omega

theorem unconnectedSend_length (slot service : UInt8) (path data : List UInt8) :
    (unconnectedSend slot service path data).length ≤ 2 + path.length + data.length + 9 := by
  simp only [unconnectedSend,appendBackplaneRoute]
  split <;> simp <;> omega

def frameContext (frame : List UInt8) : UInt64 := (decodeHeader frame).context

theorem frameContext_requestFrame (sessionHandle : UInt32) (context : UInt64) (service : UInt8)
    (path data : List UInt8) :
    frameContext (requestFrame sessionHandle context service path data) = context := by
  obtain ⟨body,_,heq⟩ := requestFrame_eq sessionHandle context service path data
  rw [heq,frameContext,decodeHeader_headerBytes]

def issued (m : ExplicitMessage) (frame : List UInt8) (deadline : UInt32) : ExplicitMessage :=
  {m with conn := true, io := Transfer.load frame, sentContext := m.context,
          context := m.context + 1, deadline := deadline, state := .sending}

inductive Issued (m : ExplicitMessage) (t : TcpConnection) (sessionHandle : UInt32) (w : World) :
    Status × ExplicitMessage × World → Prop
  | taken {service : UInt8} {path data : List UInt8} {deadline : UInt32} {w' : World} :
      m.inFlight = false → t.connected = true →
      Encapsulated (requestFrame sessionHandle m.context service path data) → w'.log = w.log →
      Issued m t sessionHandle w
        (.pending,m.issued (requestFrame sessionHandle m.context service path data) deadline,w')
  | refused {st : Status} : st ≠ .pending → (st = .busy → m.inFlight = true) →
      Issued m t sessionHandle w (st,m,w)

theorem send_issued (m : ExplicitMessage) (t : TcpConnection) (sessionHandle : UInt32)
    (service : UInt8) (path data : List UInt8) (timeoutMs : UInt32) (w : World) :
    Issued m t sessionHandle w (m.send t sessionHandle service path data timeoutMs w) := by
  simp only [send]
  split_ifs with hbusy hconn hlen
  · exact .refused (by simp) (by simp [inFlight,hbusy])
  · exact .refused (by simp) (by simp)
  · exact .refused (by simp) (by simp)
  · exact .taken (by simp [inFlight,hbusy]) (by simpa using hconn)
      (requestFrame_encapsulated _ _ _ (by rw [not_or] at hlen; omega)) rfl

theorem sendRouted_issued (m : ExplicitMessage) (t : TcpConnection) (sessionHandle : UInt32)
    (slot service : UInt8) (path data : List UInt8) (timeoutMs : UInt32) (w : World) :
    Issued m t sessionHandle w
      (m.sendRouted t sessionHandle slot service path data timeoutMs w) := by
  simp only [sendRouted]
  split_ifs with hbusy hconn hslot hlen
  · exact .refused (by simp) (by simp [inFlight,hbusy])
  · exact .refused (by simp) (by simp)
  · exact .refused (by simp) (by simp)
  · exact .refused (by simp) (by simp)
  · have hwrapped := unconnectedSend_length slot service path data
    refine .taken (by simp [inFlight,hbusy]) (by simpa using hconn)
      (requestFrame_encapsulated _ _ _ ?_) rfl
    simp only [kMaxCipData,kRoutedOverhead,not_or,List.length_cons,List.length_nil] at hlen ⊢
    omega

theorem send_fits (m : ExplicitMessage) (t : TcpConnection) (sessionHandle : UInt32)
    (service : UInt8) {path data : List UInt8} (hsize : 2 + path.length + data.length ≤ kMaxCipData)
    (heven : path.length % 2 = 0) (timeoutMs : UInt32) (w : World) :
    (∃ deadline w', m.inFlight = false ∧ t.connected = true ∧ w'.log = w.log ∧
      m.send t sessionHandle service path data timeoutMs w =
        (.pending,m.issued (requestFrame sessionHandle m.context service path data) deadline,w')) ∨
    ∃ st, st ≠ .pending ∧ (m.inFlight = true ∨ t.connected = false) ∧
      m.send t sessionHandle service path data timeoutMs w = (st,m,w) := by
  simp only [send]
  by_cases hbusy : m.state = .sending ∨ m.state = .receiving
  · exact Or.inr ⟨.busy,by simp,Or.inl (by simpa using hbusy),if_pos hbusy⟩
  rw [if_neg hbusy]
  cases hconn : t.connected with
  | false => exact Or.inr ⟨.notReady,by simp,Or.inr rfl,rfl⟩
  | true =>
    rw [if_neg (by simp),if_neg (by omega)]
    exact Or.inl ⟨_,w.millis.2,by simpa [inFlight] using hbusy,rfl,rfl,rfl⟩

theorem routed_issued (m : ExplicitMessage) (t : TcpConnection) (sessionHandle : UInt32)
    (cpuSlot service : UInt8) (path data : List UInt8) (timeoutMs : UInt32) (w : World) :
    Issued m t sessionHandle w
      (if cpuSlot = kNoRoute then m.send t sessionHandle service path data timeoutMs w
       else m.sendRouted t sessionHandle cpuSlot service path data timeoutMs w) := by
  split
  · exact m.send_issued t sessionHandle service path data timeoutMs w
  · exact m.sendRouted_issued t sessionHandle cpuSlot service path data timeoutMs w

theorem parseResponse_cases (m : ExplicitMessage) :
    (∃ m', m.parseResponse = (.ok,m') ∧ m'.io = m.io ∧ m'.sentContext = m.sentContext ∧
      m'.context = m.context ∧ m'.deadline = m.deadline ∧
        (decodeHeader m.io.rx).context = m.sentContext) ∨
    m.parseResponse = (.error,m) := by
  simp only [parseResponse]
  split_ifs with hhead hcontext
  · exact Or.inr rfl
  · exact Or.inr rfl
  · rw [not_not] at hcontext
    cases locate m.io.rx with
    | none => exact Or.inr rfl
    | some place => exact Or.inl ⟨_,rfl,rfl,rfl,rfl,rfl,hcontext⟩

theorem parseResponse_io (m : ExplicitMessage) : m.parseResponse.2.io = m.io := by
  rcases m.parseResponse_cases with ⟨m',heq,hio,_⟩ | heq
  · rw [heq]
    exact hio
  · rw [heq]

structure Polled (m : ExplicitMessage) (t : TcpConnection) (w : World) (st : Status)
    (m' : ExplicitMessage) (t' : TcpConnection) (w' : World) : Prop where
  io : Transfer.Moved m.io t w m'.io t' w'
  sentContext : m'.sentContext = m.sentContext
  context : m'.context = m.context
  deadline : m'.deadline = m.deadline
  ended : st = .pending ∧ m'.inFlight = true ∧ (m.io.Paced → m'.io.Paced) ∨
    st = .ok ∧ m'.state = .done ∧ (decodeHeader m'.io.rx).context = m.sentContext ∨
    (st = .closed ∨ st = .error ∨ st = .timeout) ∧ m'.state = .failed

theorem poll_polled {m : ExplicitMessage} (hm : m.inFlight = true) (t : TcpConnection)
    (w : World) : ∃ st m' t' w', m.poll t w = (st,m',t',w') ∧ Polled m t w st m' t' w' := by
  unfold poll
  split
  · next h => simp [h] at hm
  · next h => simp [h] at hm
  · next h => simp [h] at hm
  by_cases hlate : expired w.millis.1 m.deadline
  · simp only [if_pos hlate]
    exact ⟨_,_,_,_,rfl,(Transfer.Moved.refl m.io t w.millis.2).of_millis,rfl,rfl,rfl,
      Or.inr (Or.inr ⟨Or.inr (Or.inr rfl),rfl⟩)⟩
  simp only [if_neg hlate]
  rcases m.io.turn (16 + kMaxCipData + kRoutedOverhead) t w.millis.2 with
    ⟨st,x,t',w',hwrite,hst,hkind,hmoved,hx⟩ |
    ⟨y,u,v,st,x,t',w',hwrite,hread,hkind,hmoved,_,hpaced,_⟩
  · simp only [hwrite,if_pos hst]
    by_cases hwait : st = .pending
    · subst hwait
      rw [if_neg (by simp)]
      exact ⟨_,_,_,_,rfl,hmoved.of_millis,rfl,rfl,rfl,
        Or.inl ⟨rfl,hm,fun hp => by rw [hx]; exact hp⟩⟩
    · rw [if_pos hwait]
      refine ⟨_,_,_,_,rfl,hmoved.of_millis,rfl,rfl,rfl,Or.inr (Or.inr ⟨?_,rfl⟩)⟩
      rcases hkind with h | h | h
      · exact absurd h hwait
      · exact Or.inl h
      · exact Or.inr (Or.inl h)
  simp only [hwrite,hread]
  rw [if_neg (by simp)]
  rcases hkind with rfl | rfl | rfl | rfl
  · exact ⟨_,_,_,_,rfl,hmoved.of_millis,rfl,rfl,rfl,
      Or.inl ⟨rfl,rfl,fun hp => hpaced hp (by simp)⟩⟩
  · rw [if_neg (by simp),if_neg (by simp)]
    rcases parseResponse_cases {m with state := .receiving, io := x} with
      ⟨m',heq,hio,hsent,hctx,hdl,hhead⟩ | heq
    · rw [heq]
      refine ⟨_,_,_,_,rfl,?_,hsent,hctx,hdl,Or.inr (Or.inl ⟨rfl,rfl,?_⟩)⟩
      · simp only [hio]
        exact hmoved.of_millis
      · simp only [hio]
        exact hhead
    · rw [heq]
      exact ⟨_,_,_,_,rfl,hmoved.of_millis,rfl,rfl,rfl,
        Or.inr (Or.inr ⟨Or.inr (Or.inl rfl),rfl⟩)⟩
  · exact ⟨_,_,_,_,rfl,hmoved.of_millis,rfl,rfl,rfl,Or.inr (Or.inr ⟨Or.inl rfl,rfl⟩)⟩
  · exact ⟨_,_,_,_,rfl,hmoved.of_millis,rfl,rfl,rfl,
      Or.inr (Or.inr ⟨Or.inr (Or.inl rfl),rfl⟩)⟩

theorem parseResponse_ok {m m' : ExplicitMessage} (h : m.parseResponse = (.ok,m')) :
    (decodeHeader m.io.rx).command = Command.code .sendRRData ∧
      (decodeHeader m.io.rx).status = 0 ∧ (decodeHeader m.io.rx).context = m.sentContext := by
  simp only [parseResponse] at h
  split_ifs at h with hhead hcontext
  · cases h
  · cases h
  · rw [not_or,not_not,not_not] at hhead
    exact ⟨hhead.1,hhead.2,not_not.mp hcontext⟩

def readReply (rx : List UInt8) : ExplicitMessage :=
  (parseResponse {io := {rx := rx}, sentContext := (decodeHeader rx).context}).2

theorem parseResponse_readReply {m m' : ExplicitMessage} (h : m.parseResponse = (.ok,m')) :
    m'.resultCode = (readReply m.io.rx).resultCode ∧ m'.dataLen = (readReply m.io.rx).dataLen ∧
      m'.dataBytes = (readReply m.io.rx).dataBytes := by
  have hio := m.parseResponse_io
  rw [h] at hio
  obtain ⟨hcommand,hstatus,hcontext⟩ := parseResponse_ok h
  simp only [parseResponse] at h
  rw [if_neg (by simp [hcommand,hstatus]),if_neg (not_not.mpr hcontext)] at h
  simp only [readReply,parseResponse]
  rw [if_neg (by simp [hcommand,hstatus]),if_neg (by simp)]
  cases hplace : locate m.io.rx with
  | none => simp [hplace] at h
  | some place =>
    rw [hplace] at h
    simp only [Prod.mk.injEq,true_and] at h
    subst h
    exact ⟨rfl,rfl,rfl⟩

theorem poll_parsed {m m' : ExplicitMessage} {t t' : TcpConnection} {w w' : World}
    (hm : m.inFlight = true) (h : m.poll t w = (.ok,m',t',w')) :
    ∃ m₀ m₁ : ExplicitMessage, m₀.parseResponse = (.ok,m₁) ∧ m' = {m₁ with state := .done} ∧
      m₀.sentContext = m.sentContext ∧ (m.io.Paced → Encapsulated m₀.io.rx) := by
  unfold poll at h
  split at h
  · next hs => simp [hs] at hm
  · next hs => simp [hs] at hm
  · next hs => simp [hs] at hm
  by_cases hlate : expired w.millis.1 m.deadline = true
  · simp only [if_pos hlate] at h
    cases h
  simp only [if_neg hlate] at h
  rcases m.io.turn (16 + kMaxCipData + kRoutedOverhead) t w.millis.2 with
    ⟨st,x,u,v,hwrite,hst,_,_,_⟩ | ⟨y,u,v,st,x,u',v',hwrite,hread,_,_,_,hpaced,hall⟩
  · simp only [hwrite,if_pos hst] at h
    exact absurd (Prod.mk.inj h).1 hst
  · simp only [hwrite,hread] at h
    rw [if_neg (by simp)] at h
    by_cases hwait : st = .pending
    · rw [if_pos hwait] at h
      cases h
    rw [if_neg hwait] at h
    by_cases hok : st = .ok
    · rw [if_neg (not_not.mpr hok)] at h
      subst hok
      generalize hparse : ({m with state := .receiving, io := x} : ExplicitMessage).parseResponse = r
        at h
      obtain ⟨st,m₁⟩ := r
      simp only [Prod.mk.injEq] at h
      obtain ⟨rfl,rfl,_,_⟩ := h
      refine ⟨_,m₁,hparse,rfl,rfl,fun hp => ?_⟩
      have hp' := hpaced hp (by simp)
      have hexp := hp'.2.2 (hp'.header (hall rfl))
      have hfit := hp'.1
      have hend := hall rfl
      rw [Encapsulated]
      simp only
      omega
    · rw [if_pos hok] at h
      exact absurd (Prod.mk.inj h).1 hok

theorem poll_taken {m m' : ExplicitMessage} {t t' : TcpConnection} {w w' : World}
    (hm : m.inFlight = true) (hp : m.io.Paced) (h : m.poll t w = (.ok,m',t',w')) :
    Encapsulated m'.io.rx ∧ (decodeHeader m'.io.rx).command = Command.code .sendRRData ∧
      (decodeHeader m'.io.rx).status = 0 ∧ (decodeHeader m'.io.rx).context = m.sentContext := by
  obtain ⟨m₀,m₁,hparse,rfl,hsent,hbox⟩ := poll_parsed hm h
  have hio := m₀.parseResponse_io
  rw [hparse] at hio
  simp only at hio ⊢
  rw [hio,← hsent]
  exact ⟨hbox hp,parseResponse_ok hparse⟩

theorem poll_readReply {m m' : ExplicitMessage} {t t' : TcpConnection} {w w' : World}
    (hm : m.inFlight = true) (h : m.poll t w = (.ok,m',t',w')) :
    m'.resultCode = (readReply m'.io.rx).resultCode ∧
      m'.dataLen = (readReply m'.io.rx).dataLen ∧
      m'.dataBytes = (readReply m'.io.rx).dataBytes := by
  obtain ⟨m₀,m₁,hparse,rfl,_,_⟩ := poll_parsed hm h
  have hio := m₀.parseResponse_io
  rw [hparse] at hio
  simp only at hio
  have hread := parseResponse_readReply hparse
  rw [← hio] at hread
  exact hread

end ExplicitMessage

end ControlLogix
