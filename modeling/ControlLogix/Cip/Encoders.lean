import ControlLogix.Cip.ConnectionRun

namespace ControlLogix

-- A frame that fits its buffer: the header announces the bytes behind it, and the item at off
-- announces its payload, which ends the frame.
structure Measured (cap off : Nat) (type : UInt16) (frame payload : List UInt8) : Prop where
  fits : frame.length ≤ cap
  body : (decodeHeader frame).length.toNat = frame.length - kEncapsulationHeaderSize
  item : ∃ length : UInt16, frame.drop off = putU16 type ++ (putU16 length ++ payload) ∧
    length.toNat = payload.length

def PathSized (service : UInt8) (path data cip : List UInt8) : Prop :=
  ∃ words : UInt8, cip = service :: words :: (path ++ data) ∧ words.toNat * 2 = path.length

-- An Unconnected Send around a CIP request, padded to whole words, with the route behind it.
def Wrapped (slot service : UInt8) (path data wrapper : List UInt8) : Prop :=
  ∃ (length : UInt16) (cip pad : List UInt8) (words : UInt8) (route : List UInt8),
    wrapper = 0x0A :: 0x05 :: (putU16 length ++ (cip ++ (pad ++ (words :: 0 :: route)))) ∧
      length.toNat = cip.length ∧ PathSized service path data cip ∧
        pad.length = cip.length % 2 ∧ route = [1,slot] ∧ words.toNat * 2 = route.length

theorem measured {h : EncapsulationHeader} {cap off : Nat} {type length : UInt16}
    {pre payload : List UInt8} (hoff : kEncapsulationHeaderSize + pre.length = off)
    (hlength : length.toNat = payload.length)
    (hbody : h.length.toNat = pre.length + (4 + payload.length))
    (hfits : off + (4 + payload.length) ≤ cap) :
    Measured cap off type
      (headerBytes h ++ (pre ++ (putU16 type ++ (putU16 length ++ payload)))) payload := by
  have hlen : (headerBytes h ++ (pre ++ (putU16 type ++ (putU16 length ++ payload)))).length =
      kEncapsulationHeaderSize + (pre.length + (4 + payload.length)) := by
    simp [kEncapsulationHeaderSize]
    omega
  refine ⟨by omega,?_,length,?_,hlength⟩
  · rw [decodeHeader_headerBytes,hlen,hbody]
    omega
  · rw [← List.append_assoc]
    exact List.drop_left' (by rw [List.length_append,headerBytes_length]; exact hoff)

theorem pathSized {service : UInt8} {path data : List UInt8} (hsize : path.length ≤ 510)
    (heven : path.length % 2 = 0) :
    PathSized service path data ([service,UInt8.ofNat (path.length / 2)] ++ path ++ data) := by
  refine ⟨UInt8.ofNat (path.length / 2),rfl,?_⟩
  rw [UInt8.toNat_ofNat']
  omega

theorem cip_length (service words : UInt8) (path data : List UInt8) :
    ([service,words] ++ path ++ data).length = 2 + path.length + data.length := by
  simp
  omega

namespace ExplicitMessage

-- sizeof(tx_), and the wrapper of sendRouted.
def kTxSize : Nat := kEncapsulationHeaderSize + 16 + kMaxCipData + kRoutedOverhead

def kWrapperSize : Nat := kRoutedOverhead + kMaxCipData

theorem requestFrame_measured (sessionHandle : UInt32) (context : UInt64) (service : UInt8)
    {path data : List UInt8} (hfit : 2 + path.length + data.length ≤ kMaxCipData + kRoutedOverhead) :
    Measured kTxSize 36 0x00B2 (requestFrame sessionHandle context service path data)
      ([service,UInt8.ofNat (path.length / 2)] ++ path ++ data) := by
  simp only [kMaxCipData,kRoutedOverhead] at hfit
  have hcip := cip_length service (UInt8.ofNat (path.length / 2)) path data
  have hframe : requestFrame sessionHandle context service path data =
      headerBytes {command := Command.code .sendRRData,
                   length := UInt16.ofNat (16 + (2 + path.length + data.length)),
                   session := sessionHandle, status := 0, context := context, options := 0} ++
        ((putU32 0 ++ putU16 10 ++ putU16 2 ++ putU16 0x0000 ++ putU16 0) ++ (putU16 0x00B2 ++
          (putU16 (UInt16.ofNat (2 + path.length + data.length)) ++
            ([service,UInt8.ofNat (path.length / 2)] ++ path ++ data)))) := by
    simp only [requestFrame,encodeHeader_blank,List.append_assoc]
  rw [hframe]
  refine measured rfl ?_ ?_ ?_
  · rw [hcip,UInt16.toNat_ofNat']
    omega
  · rw [hcip,UInt16.toNat_ofNat']
    simp
    omega
  · rw [hcip,kTxSize,kMaxCipData,kRoutedOverhead,kEncapsulationHeaderSize]
    omega

theorem send_measured {m : ExplicitMessage} {t : TcpConnection} {sessionHandle : UInt32}
    {service : UInt8} {path data : List UInt8} {timeoutMs : UInt32} {w : World}
    (h : (m.send t sessionHandle service path data timeoutMs w).1 = .pending) :
    ∃ cip, Measured kTxSize 36 0x00B2
        (m.send t sessionHandle service path data timeoutMs w).2.1.io.tx cip ∧
      PathSized service path data cip := by
  simp only [send] at h ⊢
  split_ifs at h ⊢ with hbusy hconn hlen
  simp only [not_or,Nat.not_lt,not_not,kMaxCipData] at hlen
  refine ⟨_,requestFrame_measured sessionHandle m.context service ?_,pathSized (by omega) hlen.2⟩
  simp only [kMaxCipData,kRoutedOverhead]
  omega

theorem unconnectedSend_wrapped (slot service : UInt8) {path data : List UInt8}
    (hsize : 2 + path.length + data.length ≤ kMaxCipData) (heven : path.length % 2 = 0) :
    Wrapped slot service path data (unconnectedSend slot service path data) ∧
      (unconnectedSend slot service path data).length ≤ kWrapperSize := by
  simp only [kMaxCipData] at hsize
  have hcip := cip_length service (UInt8.ofNat (path.length / 2)) path data
  constructor
  · refine ⟨UInt16.ofNat (2 + path.length + data.length),_,
      if (2 + path.length + data.length) % 2 = 1 then [0x00] else [],1,[1,slot],?_,?_,
      pathSized (by omega) heven,?_,rfl,rfl⟩
    · simp only [unconnectedSend,List.append_assoc,List.cons_append,List.nil_append]
      rfl
    · rw [UInt16.toNat_ofNat',hcip]
      omega
    · rw [hcip]
      split <;> simp <;> omega
  · have hlen := unconnectedSend_length slot service path data
    simp only [kWrapperSize,kRoutedOverhead,kMaxCipData]
    omega

theorem sendRouted_measured {m : ExplicitMessage} {t : TcpConnection} {sessionHandle : UInt32}
    {slot service : UInt8} {path data : List UInt8} {timeoutMs : UInt32} {w : World}
    (h : (m.sendRouted t sessionHandle slot service path data timeoutMs w).1 = .pending) :
    ∃ wrapper cip, wrapper.length ≤ kWrapperSize ∧ Wrapped slot service path data wrapper ∧
      PathSized kUnconnectedSend [0x20,kConnectionManagerClass,0x24,0x01] wrapper cip ∧
        Measured kTxSize 36 0x00B2
          (m.sendRouted t sessionHandle slot service path data timeoutMs w).2.1.io.tx cip := by
  simp only [sendRouted] at h ⊢
  split_ifs at h ⊢ with hbusy hconn hslot hlen
  rw [not_or,Nat.not_lt,not_not] at hlen
  obtain ⟨hwrapped,hfit⟩ := unconnectedSend_wrapped slot service hlen.1 hlen.2
  refine ⟨_,_,hfit,hwrapped,?_,requestFrame_measured sessionHandle m.context kUnconnectedSend ?_⟩
  · exact pathSized (by simp) rfl
  · have hwhole := unconnectedSend_length slot service path data
    simp only [kMaxCipData,kRoutedOverhead,List.length_cons,List.length_nil] at hlen ⊢
    omega

end ExplicitMessage

theorem appendSymbolic_eq {name : List UInt8} (hname : name.length ≤ kMaxSymbolicName) :
    appendSymbolic name = kSegmentSymbolic :: UInt8.ofNat name.length ::
      (name ++ if name.length % 2 = 1 then [0] else []) := by
  rw [appendSymbolic,if_neg (Nat.not_lt.mpr hname),List.take_length]
  rfl

theorem appendSymbolic_size {name : List UInt8} (hname : name.length ≤ kMaxSymbolicName) :
    (appendSymbolic name).length = 2 + name.length + name.length % 2 := by
  rw [appendSymbolic_eq hname]
  split <;> simp <;> omega

namespace Connection

-- sizeof(tx_), and of the data startOpen and startClose put together.
def kTxSize : Nat := kEncapsulationHeaderSize + 22 + kMaxDataSize

def kDataSize : Nat := 128

theorem buildConnectionPath_size (cpuSlot : UInt8) {tagName : List UInt8}
    (hname : tagName.length < kTagNameSize) :
    (buildConnectionPath cpuSlot tagName).length ≤ 72 ∧
      (buildConnectionPath cpuSlot tagName).length % 2 = 0 := by
  simp only [kTagNameSize] at hname
  have hsymbol : (appendSymbolic tagName).length = 2 + tagName.length + tagName.length % 2 :=
    appendSymbolic_size (by simp only [kMaxSymbolicName]; omega)
  simp only [buildConnectionPath]
  split <;>
  · simp only [List.length_append,hsymbol,appendPortSegment,appendClass,appendInstance,
      List.length_cons,List.length_nil]
    omega

def Managed (service : UInt8) (reserved path frame : List UInt8) : Prop :=
  ∃ pre words data cip, data = pre ++ (words :: (reserved ++ path)) ∧
    words.toNat * 2 = path.length ∧ data.length ≤ kDataSize ∧
      PathSized service managerPath data cip ∧
        Measured ExplicitMessage.kTxSize 36 0x00B2 frame cip

theorem managed {service : UInt8} {reserved path data : List UInt8} (m : ExplicitMessage)
    (sessionHandle deadline : UInt32)
    (hdata : ∃ pre, data = pre ++ (UInt8.ofNat (path.length / 2) :: (reserved ++ path)))
    (hpath : path.length ≤ 72 ∧ path.length % 2 = 0) (hsize : data.length ≤ kDataSize) :
    Managed service reserved path (m.issued (ExplicitMessage.requestFrame sessionHandle m.context
      service managerPath data) deadline).io.tx := by
  obtain ⟨pre,hdata⟩ := hdata
  refine ⟨pre,_,data,_,hdata,?_,hsize,pathSized (by decide) (by decide),
    ExplicitMessage.requestFrame_measured sessionHandle m.context service ?_⟩
  · rw [UInt8.toNat_ofNat']
    omega
  · simp only [kDataSize,managerPath,List.length_cons,List.length_nil,ExplicitMessage.kMaxCipData,
      ExplicitMessage.kRoutedOverhead] at hsize ⊢
    omega

theorem forwardOpenData_ends (toConnId : UInt32) (connSerial : UInt16) (serial : UInt32)
    (path : List UInt8) : ∃ pre, forwardOpenData toConnId connSerial serial path =
      pre ++ (UInt8.ofNat (path.length / 2) :: ([] ++ path)) := by
  rw [forwardOpenData,List.append_assoc]
  exact ⟨_,rfl⟩

theorem forwardCloseData_ends (connSerial : UInt16) (serial : UInt32) (path : List UInt8) :
    ∃ pre, forwardCloseData connSerial serial path =
      pre ++ (UInt8.ofNat (path.length / 2) :: ([0] ++ path)) := by
  rw [forwardCloseData,List.append_assoc]
  exact ⟨_,rfl⟩

theorem drawn_path (c : Connection) {tagName : List UInt8} (hname : tagName.length < kTagNameSize)
    (cpuSlot : UInt8) (chip : Chip) (g : Statics) :
    buildConnectionPath (c.drawn tagName cpuSlot chip g).cpuSlot
      (c.drawn tagName cpuSlot chip g).tagName = buildConnectionPath cpuSlot tagName := by
  have htake : tagName.take (kTagNameSize - 1) = tagName :=
    List.take_of_length_le (by simp only [kTagNameSize] at *; omega)
  simp only [drawn,htake]

theorem open_sent {c : Connection} {t : TcpConnection} {sessionHandle : UInt32}
    {tagName : List UInt8} {timeoutMs : UInt32} {cpuSlot : UInt8} {chip : Chip} {g : Statics}
    {w : World}
    (h : (c.open t sessionHandle (some tagName) timeoutMs cpuSlot chip g w).1 = .pending) :
    tagName.length < kTagNameSize ∧ ∃ serial deadline,
      (c.open t sessionHandle (some tagName) timeoutMs cpuSlot chip g w).2.1.fwd =
        c.fwd.issued ((c.drawn tagName cpuSlot chip g).openFrame sessionHandle c.fwd.context serial)
          deadline := by
  simp only [Connection.open] at h ⊢
  by_cases hlong : kTagNameSize ≤ tagName.length
  · rw [if_pos hlong] at h
    cases h
  rw [if_neg hlong] at h ⊢
  by_cases hbusy : c.state = .opening ∨ c.state = .sending ∨ c.state = .closing
  · rw [if_pos hbusy] at h
    cases h
  rw [if_neg hbusy] at h ⊢
  obtain ⟨serial,hserial,_⟩ :=
    originatorSerialNumber_spec chip.mac {g with connSerial := nextSerial g.connSerial}
  generalize hd : c.drawn tagName cpuSlot chip g = d
  have hfits : 2 + managerPath.length + (forwardOpenData d.toConnId d.connSerial serial
      (buildConnectionPath d.cpuSlot d.tagName)).length ≤ ExplicitMessage.kMaxCipData := by
    have hpath := buildConnectionPath_length d.cpuSlot d.tagName
    rw [forwardOpenData_length]
    simp only [managerPath,ExplicitMessage.kMaxCipData,List.length_cons,List.length_nil]
    omega
  rcases ExplicitMessage.send_fits c.fwd t sessionHandle kForwardOpen hfits rfl timeoutMs w with
    ⟨deadline,w',_,_,_,heq⟩ | ⟨st,hst,_,heq⟩
  · rw [startOpen_eq hserial t sessionHandle tagName timeoutMs cpuSlot w hd heq]
    exact ⟨Nat.not_le.mp hlong,serial,deadline,rfl⟩
  · rw [startOpen_eq hserial t sessionHandle tagName timeoutMs cpuSlot w hd heq] at h
    exact absurd h hst

theorem open_measured {c : Connection} {t : TcpConnection} {sessionHandle : UInt32}
    {tagName : List UInt8} {timeoutMs : UInt32} {cpuSlot : UInt8} {chip : Chip} {g : Statics}
    {w : World}
    (h : (c.open t sessionHandle (some tagName) timeoutMs cpuSlot chip g w).1 = .pending) :
    tagName.length < kTagNameSize ∧ Managed kForwardOpen [] (buildConnectionPath cpuSlot tagName)
      (c.open t sessionHandle (some tagName) timeoutMs cpuSlot chip g w).2.1.fwd.io.tx := by
  obtain ⟨hname,serial,deadline,hfwd⟩ := open_sent h
  have hpath := buildConnectionPath_size cpuSlot hname
  rw [hfwd,openFrame,c.drawn_path hname]
  refine ⟨hname,managed c.fwd sessionHandle deadline (forwardOpenData_ends _ _ _ _) hpath ?_⟩
  rw [forwardOpenData_length,kDataSize]
  omega

theorem drawn_tagName (c : Connection) (tagName : List UInt8) (cpuSlot : UInt8) (chip : Chip)
    (g : Statics) : (c.drawn tagName cpuSlot chip g).tagName.length < kTagNameSize := by
  simp only [drawn,List.length_take,kTagNameSize]
  omega

theorem poll_tagName (c : Connection) (t : TcpConnection) (w : World) :
    (c.poll t w).2.1.tagName = c.tagName := by
  simp only [poll]
  cases hs : c.state with
  | opening =>
    rcases hpoll : c.fwd.poll t w with ⟨st,fwd,t',w'⟩
    rcases pollOpening_cases hpoll with ⟨_,heq⟩ | ⟨_,st',_,_,heq⟩ | ⟨_,_,_,_,_,_,heq⟩ <;>
    · simp only [heq]
  | sending =>
    obtain ⟨st,c',t',w',heq,h⟩ := pollSending_exchanged hs t w
    simp only [heq]
    rw [h.kept]
  | closing =>
    rcases hpoll : c.fwd.poll t w with ⟨st,fwd,t',w'⟩
    simp only [pollClosing_cases hpoll]
  | _ => rfl

theorem turn_named {s : Run} (h : s.client.tagName.length < kTagNameSize) (l : Call) :
    (s.step l).client.tagName.length < kTagNameSize := by
  simp only [Run.step,Run.turn]
  cases l.op with
  | «open» sessionHandle tagName timeoutMs cpuSlot =>
    have hopened := s.client.open_opened l.conn sessionHandle tagName timeoutMs cpuSlot l.chip
      s.statics {s.world with script := l.script}
    simp only
    generalize s.client.open l.conn sessionHandle tagName timeoutMs cpuSlot l.chip s.statics
      {s.world with script := l.script} = r at hopened ⊢
    cases hopened with
    | away => exact h
    | @refused st name cpuSlot chip g' => exact s.client.drawn_tagName name cpuSlot chip s.statics
    | @sent name cpuSlot chip g' => exact s.client.drawn_tagName name cpuSlot chip s.statics
  | send sessionHandle service path data timeoutMs =>
    rcases s.client.send_cases sessionHandle service path data timeoutMs
      {s.world with script := l.script} with ⟨st,_,heq⟩ | ⟨deadline,w',_,_,_,_,heq⟩ <;>
    · simp only [heq]
      exact h
  | close sessionHandle timeoutMs =>
    have hclosed := s.client.close_closed l.conn sessionHandle timeoutMs l.chip s.statics
      {s.world with script := l.script}
    simp only
    generalize s.client.close l.conn sessionHandle timeoutMs l.chip s.statics
      {s.world with script := l.script} = r at hclosed ⊢
    cases hclosed <;> exact h
  | poll =>
    have hkept := s.client.poll_tagName l.conn {s.world with script := l.script}
    simp only
    rw [hkept]
    exact h
  | opensElsewhere => exact h
  | closesElsewhere => exact h

theorem named_after (time : Nat) (ls : List Call) :
    (Run.after time ls).client.tagName.length < kTagNameSize := by
  have hinit : (Run.init time).client.tagName.length < kTagNameSize := Nat.zero_lt_succ 63
  exact Runs.invariant_always (fun s l h => @turn_named s h l) hinit ls

theorem close_measured {c : Connection} {t : TcpConnection} {sessionHandle timeoutMs : UInt32}
    {chip : Chip} {g : Statics} {w : World} (hname : c.tagName.length < kTagNameSize)
    (h : (c.close t sessionHandle timeoutMs chip g w).1 = .pending) :
    Managed kForwardClose [0] (buildConnectionPath c.cpuSlot c.tagName)
      (c.close t sessionHandle timeoutMs chip g w).2.1.fwd.io.tx := by
  have hclosed := c.close_closed t sessionHandle timeoutMs chip g w
  have hpath := buildConnectionPath_size c.cpuSlot hname
  generalize c.close t sessionHandle timeoutMs chip g w = r at h hclosed ⊢
  cases hclosed with
  | refused hnot _ => exact absurd h hnot
  | @sent _ serial deadline _ _ _ _ _ =>
    refine managed c.fwd sessionHandle deadline (forwardCloseData_ends _ _ _) hpath ?_
    rw [forwardCloseData_length,kDataSize]
    omega

theorem send_measured {c : Connection} {sessionHandle : UInt32} {service : UInt8}
    {path data : List UInt8} {timeoutMs : UInt32} {w : World}
    (h : (c.send sessionHandle service path data timeoutMs w).1 = .pending) :
    ∃ sequence cip, PathSized service path data cip ∧
      Measured kTxSize 40 0x00B1 (c.send sessionHandle service path data timeoutMs w).2.1.io.tx
        (putU16 sequence ++ cip) := by
  rcases c.send_cases sessionHandle service path data timeoutMs w with ⟨st,hst,heq⟩ |
    ⟨deadline,w',_,hfit,heven,_,heq⟩
  · rw [heq] at h
    exact absurd h hst
  · rw [heq]
    simp only [kMaxDataSize] at hfit
    have hpayload : (putU16 c.sequence ++ ([service,UInt8.ofNat (path.length / 2)] ++ path ++
        data)).length = 2 + (2 + path.length + data.length) := by
      rw [List.length_append,cip_length,putU16_length]
    have hframe : (c.loaded (connectedFrame sessionHandle c.context c.otConnId c.sequence service
        path data) deadline).io.tx =
        headerBytes {command := Command.code .sendUnitData,
                     length := UInt16.ofNat (22 + (2 + path.length + data.length)),
                     session := sessionHandle, status := 0, context := c.context, options := 0} ++
          ((putU32 0 ++ putU16 0 ++ putU16 2 ++ putU16 0x00A1 ++ putU16 4 ++ putU32 c.otConnId) ++
            (putU16 0x00B1 ++ (putU16 (UInt16.ofNat (2 + (2 + path.length + data.length))) ++
              (putU16 c.sequence ++ ([service,UInt8.ofNat (path.length / 2)] ++ path ++
                data))))) := by
      simp only [loaded,Transfer.load,connectedFrame,encodeHeader_blank,List.append_assoc]
    refine ⟨c.sequence,_,pathSized (by omega) heven,?_⟩
    rw [hframe]
    refine measured rfl ?_ ?_ ?_
    · rw [hpayload,UInt16.toNat_ofNat']
      omega
    · rw [hpayload,UInt16.toNat_ofNat']
      simp
      omega
    · rw [hpayload,kTxSize,kMaxDataSize,kEncapsulationHeaderSize]
      omega

end Connection

end ControlLogix
