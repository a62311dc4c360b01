import ControlLogix.Library.Runs
import ControlLogix.Server.Connected

namespace ControlLogix

open SyntheticServer (Name TagValue Request)

def Connection.settle (c : Connection) : Status × Connection :=
  if c.state = .opening then
    if c.fwd.resultCode ≠ 0 ∨ c.fwd.dataLen < 12 then (.error,{c with state := .failed})
    else
      let ot := getU32 c.fwd.dataBytes
      let echo := getU32 (c.fwd.dataBytes.drop 4)
      if ot = 0 ∨ echo = 0 then (.error,{c with state := .failed})
      else if echo ≠ c.toConnId then (.error,{c with state := .failed})
      else (.ok,{c with otConnId := ot, state := .open})
  else (.ok,{c with state := .closed})

theorem Connection.poll_settle {c : Connection} (hc : c.state = .opening ∨ c.state = .closing)
    (t : TcpConnection) (w : World) : c.poll t w =
      (let (st,fwd,t,w) := c.fwd.poll t w
       let c := {c with fwd := fwd}
       if st = .pending then (.pending,c,t,w)
       else if st = .ok then (c.settle.1,c.settle.2,t,w)
       else (st,{c with state := .failed},t,w)) := by
  rcases hc with hc | hc
  · simp only [poll,hc,pollOpening,settle]
    by_cases hwait : (c.fwd.poll t w).1 = .pending
    · rw [if_pos hwait,if_pos hwait]
    by_cases hok : (c.fwd.poll t w).1 = .ok
    · rw [if_neg hwait,if_neg hwait,if_pos hok,if_neg (not_not.mpr hok)]
      split_ifs <;> rfl
    · rw [if_neg hwait,if_neg hwait,if_neg hok,if_pos hok]
  · simp only [poll,hc,pollClosing,settle]
    by_cases hwait : (c.fwd.poll t w).1 = .pending
    · rw [if_pos hwait,if_pos hwait]
    by_cases hok : (c.fwd.poll t w).1 = .ok
    · rw [if_neg hwait,if_neg hwait,if_pos hok,if_neg (not_not.mpr hok)]
      rfl
    · rw [if_neg hwait,if_neg hwait,if_neg hok,if_pos hok]

def Connection.handshake : Carrier Connection ExplicitMessage.exchanger where
  get c := c.fwd
  set c m := {c with fwd := m}
  carries c := c.state = .opening ∨ c.state = .closing
  win := Connection.settle
  lose c := {c with state := .failed}
  poll := Connection.poll
  get_set _ _ := rfl
  set_set _ _ _ := rfl
  carries_set _ _ := rfl
  get_win c := by
    simp only [settle]
    split_ifs <;> rfl
  get_lose _ := rfl
  win_ne c := by
    simp only [settle]
    split_ifs <;> simp
  poll_eq c t w hc _ := poll_settle (of_decide_eq_true hc) t w

inductive Visit.Op where
  | «open» (tagName : Option (List UInt8)) (cpuSlot : UInt8) (chip : Chip)
  | send (service : UInt8) (path data : List UInt8)
  | close (chip : Chip)

-- A call on the connection, with what the network answers until what it began is over.
structure Visit where
  op : Visit.Op
  timeoutMs : UInt32
  script : Script
  polls : Nat

structure Visited where
  visit : Visit
  taken : Bool
  status : Status
  link : Connection
  server : SyntheticServer

-- One connection in one session with the server, and the calls so far, newest first.
structure Circuit where
  tcp : TcpConnection
  session : UInt32
  link : Connection := {}
  statics : Statics := {}
  server : SyntheticServer := SyntheticServer.init
  world : World
  history : List Visited := []

def Visit.Op.machine : Visit.Op → Exchanger Connection
  | .open _ _ _ => Connection.handshake.exchanger
  | .send _ _ _ => Connection.exchanger
  | .close _ => Connection.handshake.exchanger

namespace Circuit

def begun (k : Circuit) (v : Visit) : Status × Connection × Statics × World :=
  let w := {k.world with script := v.script}
  match v.op with
  | .open tagName cpuSlot chip =>
    k.link.open k.tcp k.session tagName v.timeoutMs cpuSlot chip k.statics w
  | .send service path data =>
    let (st,c,w) := k.link.send k.session service path data v.timeoutMs w
    (st,c,k.statics,w)
  | .close chip => k.link.close k.tcp k.session v.timeoutMs chip k.statics w

def ended (k : Circuit) (v : Visit) : Status × Connection × TcpConnection × World :=
  let (_,c,_,w) := k.begun v
  v.op.machine.polls v.polls c k.tcp w

def served (k : Circuit) (v : Visit) : Option (List UInt8 × SyntheticServer) :=
  k.server.handleConnection (sentBetween (k.begun v).2.2.2.log (k.ended v).2.2.2.log)

def turn (k : Circuit) (v : Visit) : Circuit :=
  let (st,c,g,w) := k.begun v
  if st = .pending then
    let (st,c,t,w) := k.ended v
    let server := match k.served v with
      | none => k.server
      | some (_,server) => server
    {k with tcp := t, link := c, statics := g, server := server, world := w,
            history := ⟨v,true,st,c,server⟩ :: k.history}
  else {k with link := c, statics := g, world := w, history := ⟨v,false,st,c,k.server⟩ :: k.history}

-- The stream is reliable and carries what the server sends, no poll comes after the deadline, and
-- the polls go on until the exchange is over.
def Honest (k : Circuit) (v : Visit) : Prop :=
  let (st,c,_,w) := k.begun v
  st = .pending →
    w.script.calm = true ∧ v.op.machine.Timely v.polls c k.tcp w ∧ (k.ended v).1 ≠ .pending ∧
    arriving w.script.recvs = ((k.served v).map Prod.fst).getD []

instance (k : Circuit) (v : Visit) : Decidable (k.Honest v) :=
  inferInstanceAs (Decidable (_ → _ ∧ _ ∧ _ ∧ _))

-- Nothing is under way, the server holds values that can be read back, and it has recorded the IDs
-- of an open connection.
structure Settled (k : Circuit) : Prop where
  live : k.tcp.live
  idle : k.link.busy = false
  still : k.link.fwd.inFlight = false
  bounded : k.server.Bounded
  agreed : k.link.state = .open →
    Dict.get k.session k.server.connections = some (k.link.otConnId,k.link.toConnId)

end Circuit

namespace Connection

def openRequest (d : Connection) (serial : UInt32) : Request where
  service := kForwardOpen
  path := managerPath
  rest := forwardOpenData d.toConnId d.connSerial serial (buildConnectionPath d.cpuSlot d.tagName)

def closeRequest (c : Connection) (serial : UInt32) : Request where
  service := kForwardClose
  path := managerPath
  rest := forwardCloseData c.connSerial serial (buildConnectionPath c.cpuSlot c.tagName)

theorem openFrame_eq (d : Connection) (sessionHandle : UInt32) (context : UInt64)
    (serial : UInt32) : d.openFrame sessionHandle context serial =
      (d.openRequest serial).frame sessionHandle context :=
  SyntheticServer.frame_direct _ _ _ _ _

theorem closeFrame_eq (c : Connection) (sessionHandle : UInt32) (context : UInt64)
    (serial : UInt32) : c.closeFrame sessionHandle context serial =
      (c.closeRequest serial).frame sessionHandle context :=
  SyntheticServer.frame_direct _ _ _ _ _

theorem openRequest_fits (d : Connection) (serial : UInt32) :
    (d.openRequest serial).plain ∧ (d.openRequest serial).fits := by
  have hpath := buildConnectionPath_length d.cpuSlot d.tagName
  refine ⟨fun _ => ⟨(show (0x54 : UInt8) ≠ 0x52 by decide),?_⟩,?_,?_⟩
  · simp [openRequest,managerPath]
    omega
  · simp [openRequest,managerPath,forwardOpenData_length,ExplicitMessage.kMaxCipData]
    omega
  · simp [openRequest,managerPath]

theorem closeRequest_fits (c : Connection) (serial : UInt32) :
    (c.closeRequest serial).plain ∧ (c.closeRequest serial).fits := by
  have hpath := buildConnectionPath_length c.cpuSlot c.tagName
  refine ⟨fun _ => ⟨(show (0x4E : UInt8) ≠ 0x52 by decide),?_⟩,?_,?_⟩
  · simp [closeRequest,managerPath]
    omega
  · simp [closeRequest,managerPath,forwardCloseData_length,ExplicitMessage.kMaxCipData]
    omega
  · simp [closeRequest,managerPath]

end Connection

namespace SyntheticServer

-- The O->T ID the server hands out.
def serverOt : UInt32 := 0x10203040

def openReply (clientTo : UInt32) : List UInt8 :=
  [forwardOpen ||| 0x80,0,0,0] ++ putU32 serverOt ++ putU32 clientTo ++ putU16 1 ++ putU16 0x0001

theorem handleCipRequest_forwardOpen (s : SyntheticServer) (session : UInt32) (path : List UInt8)
    {rest : List UInt8} (hlen : 10 ≤ rest.length) :
    s.handleCipRequest session forwardOpen path rest =
      some (openReply (getU32 (rest.drop 6)),
        {s with connections :=
          Dict.set session (serverOt,getU32 (rest.drop 6)) s.connections}) :=
  if_pos hlen

theorem handleCipRequest_open (s : SyntheticServer) (session : UInt32) (d : Connection)
    (serial : UInt32) : s.handleCipRequest session (d.openRequest serial).service
      (d.openRequest serial).path (d.openRequest serial).rest = some (openReply d.toConnId,
        {s with connections := Dict.set session (serverOt,d.toConnId) s.connections}) := by
  have hto : getU32 ((d.openRequest serial).rest.drop 6) = d.toConnId := by
    simp only [Connection.openRequest,Connection.forwardOpenData,List.append_assoc]
    exact getU32_putU32 _ _
  have hlen : 10 ≤ (d.openRequest serial).rest.length := by
    simp only [Connection.openRequest,Connection.forwardOpenData_length]
    omega
  rw [← hto]
  exact s.handleCipRequest_forwardOpen session _ hlen

theorem handleCipRequest_close (s : SyntheticServer) (session : UInt32) (c : Connection)
    (serial : UInt32) : s.handleCipRequest session (c.closeRequest serial).service
      (c.closeRequest serial).path (c.closeRequest serial).rest =
        some ([forwardClose ||| 0x80,0,0,0],s) := rfl

end SyntheticServer

namespace Connection

theorem settle_opened {c : Connection} (hc : c.state = .opening) (hto : c.toConnId ≠ 0) {p : Reply}
    (hp : p.cip = SyntheticServer.openReply c.toConnId) (hcode : c.fwd.resultCode = p.status)
    (hdata : c.fwd.dataBytes = p.data) (hlen : c.fwd.dataLen = p.data.length) :
    c.settle = (.ok,{c with otConnId := SyntheticServer.serverOt, state := .open}) := by
  have hzero : c.fwd.resultCode = 0 := by rw [hcode,Reply.status,hp]; rfl
  have hrest : p.data = putU32 SyntheticServer.serverOt ++ (putU32 c.toConnId ++
      (putU16 1 ++ putU16 0x0001)) := by
    rw [Reply.data_plain (by rw [hp]; rfl),hp]
    rfl
  have hot : getU32 c.fwd.dataBytes = SyntheticServer.serverOt := by
    rw [hdata,hrest,getU32_putU32]
  have hecho : getU32 (c.fwd.dataBytes.drop 4) = c.toConnId := by
    rw [hdata,hrest,List.drop_left' (putU32_length _),getU32_putU32]
  have htwelve : c.fwd.dataLen = 12 := by rw [hlen,hrest]; rfl
  rw [settle,if_pos hc,if_neg (by rw [hzero,htwelve]; decide)]
  simp only [hot,hecho]
  rw [if_neg (by rw [not_or]; exact ⟨by decide,hto⟩),if_neg (not_not.mpr rfl)]

theorem settle_closed {c : Connection} (hc : c.state = .closing) :
    c.settle = (.ok,{c with state := .closed}) := by
  rw [settle,if_neg (by rw [hc]; decide)]

end Connection

-- An open() a resting connection has to accept: the tag name has at most 63 bytes.
def Visit.sound (v : Visit) : Prop :=
  match v.op with
  | .open (some tagName) _ _ => tagName.length < Connection.kTagNameSize
  | _ => False

namespace Visited

def effect (d : Visited) : Option (Name × TagValue) :=
  match d.visit.op with
  | .send service path data =>
    if d.taken = true ∧ d.status = .ok ∧ service = SyntheticServer.writeTag ∧ 4 ≤ data.length then
      some (SyntheticServer.parseSymbolicPath path,(getU16 (data.drop 2)).toUInt8,data.drop 4)
    else none
  | _ => none

def Recorded (session : UInt32) (d : Visited) : Prop :=
  d.link.state = .open →
    Dict.get session d.server.connections = some (d.link.otConnId,d.link.toConnId)

-- Every exchange ends well: an open() with the connection open, a send() with the server's reply to
-- its service, and for Read Tag with what the map holds.
def Agrees (m : Memory Name TagValue) (d : Visited) (past : List Visited) : Prop :=
  d.taken = true → d.status = .ok ∧
    match d.visit.op with
    | .open _ _ _ => d.link.state = .open
    | .send service path _ => d.link.state = .open ∧ d.link.replyService = service ||| 0x80 ∧
        (service = SyntheticServer.readTag →
          ∀ v, m.after (past.filterMap effect) (SyntheticServer.parseSymbolicPath path) = some v →
            d.link.resultCode = 0 ∧ d.link.dataLen = d.link.dataBytes.length ∧
              d.link.dataBytes = putU16 v.1.toUInt16 ++ v.2)
    | .close _ => d.link.state = .closed

def StaysOpen (d : Visited) (past : List Visited) : Prop :=
  ∀ last earlier, past = last :: earlier → last.link.state = .open →
    (d.taken = true → ∀ chip, d.visit.op ≠ .close chip) → d.link.state = .open

end Visited

namespace Circuit

inductive Turned (k : Circuit) (v : Visit) : Circuit → Prop
  | refused {st : Status} {g : Statics} {w : World} : ¬ v.sound →
      Turned k v {k with statics := g, world := w,
                         history := ⟨v,false,st,k.link,k.server⟩ :: k.history}
  | opened {tagName : Option (List UInt8)} {cpuSlot : UInt8} {chip : Chip} {c : Connection}
      {g : Statics} {w : World} {connections : Dict UInt32 SyntheticServer.ConnIds} :
      v.op = .open tagName cpuSlot chip → c.state = .open → c.fwd.inFlight = false →
      Dict.get k.session connections = some (c.otConnId,c.toConnId) →
      Turned k v {k with link := c, statics := g, world := w,
                         server := {k.server with connections := connections},
                         history := ⟨v,true,.ok,c,{k.server with connections := connections}⟩ ::
                           k.history}
  | sent {service : UInt8} {path data : List UInt8} {c : Connection} {w : World} :
      v.op = .send service path data → k.link.state = .open →
      2 + path.length + data.length ≤ Connection.kMaxDataSize → c.state = .open →
      c.fwd = k.link.fwd → c.otConnId = k.link.otConnId → c.toConnId = k.link.toConnId →
      (let r := k.server.handleUnitRequest {service := service, path := path, rest := data}
       c.replyService = r.1.getD 0 0 ∧ c.resultCode = r.1.getD 2 0 ∧ c.dataBytes = r.1.drop 4 ∧
         c.dataLen = r.1.length - 4) →
      Turned k v {k with link := c, world := w,
                         server := (k.server.handleUnitRequest
                           {service := service, path := path, rest := data}).2,
                         history := ⟨v,true,.ok,c,(k.server.handleUnitRequest
                           {service := service, path := path, rest := data}).2⟩ :: k.history}
  | closed {chip : Chip} {c : Connection} {g : Statics} {w : World} : v.op = .close chip →
      c.state = .closed → c.fwd.inFlight = false →
      Turned k v {k with link := c, statics := g, world := w,
                         history := ⟨v,true,.ok,c,k.server⟩ :: k.history}

theorem turn_handshake {k : Circuit} (hk : k.Settled) {v : Visit} (hhonest : k.Honest v)
    (hmachine : v.op.machine = Connection.handshake.exchanger) {x : Connection} {g : Statics}
    {w : World} (hbegun : k.begun v = (.pending,x,g,w))
    (hx : x.state = .opening ∨ x.state = .closing) {r : Request} {deadline : UInt32}
    (hfwd : x.fwd = k.link.fwd.issued (r.frame k.session k.link.fwd.context) deadline)
    (hr : r.plain ∧ r.fits) {cip : List UInt8} {server : SyntheticServer}
    (hserve : k.server.handleCipRequest k.session r.service r.path r.rest = some (cip,server))
    (hcip : 4 ≤ cip.length) (hsmall : cip.length ≤ ExplicitMessage.kMaxCipData) :
    ∃ (p : Reply) (m : ExplicitMessage) (w' : World), p.cip = cip ∧ m.inFlight = false ∧
      m.resultCode = p.status ∧ m.dataBytes = p.data ∧ m.dataLen = p.data.length ∧
      k.turn v = {k with link := {x with fwd := m}.settle.2, statics := g, server := server,
                         world := w', history := ⟨v,true,{x with fwd := m}.settle.1,
                           {x with fwd := m}.settle.2,server⟩ :: k.history} := by
  simp only [Honest,hbegun,served,ended,hmachine] at hhonest
  obtain ⟨hcalm,htimely,hover,harrives⟩ := hhonest trivial
  obtain ⟨p,m,w',hp,hidle,hcode,hdata,hlen,hrun,hserved⟩ := Connection.handshake.exchange_answered
    (x := x) (m := k.link.fwd) (decide_eq_true hx) hfwd hr.1 hr.2 hserve hcip hsmall hk.live hcalm
    htimely hover harrives
  refine ⟨p,m,w',hp,hidle,hcode,hdata,hlen,?_⟩
  simp only [turn,hbegun,ended,served,hmachine,if_true]
  rw [hserved,hrun]
  rfl

theorem turn_open {k : Circuit} (hk : k.Settled) {v : Visit} (hhonest : k.Honest v)
    {tagName : Option (List UInt8)} {cpuSlot : UInt8} {chip : Chip}
    (hop : v.op = .open tagName cpuSlot chip) : Turned k v (k.turn v) := by
  have hopened := k.link.open_opened k.tcp k.session tagName v.timeoutMs cpuSlot chip k.statics
    {k.world with script := v.script}
  have hbegun : k.begun v = k.link.open k.tcp k.session tagName v.timeoutMs cpuSlot chip k.statics
      {k.world with script := v.script} := by
    simp only [begun,hop]
  rw [← hbegun] at hopened
  generalize hr : k.begun v = r at hopened
  cases hopened with
  | away hst hopens =>
    simp only [turn,hr,if_neg hst]
    refine .refused fun hsound => ?_
    rw [Visit.sound,hop] at hsound
    cases tagName with
    | none => exact hsound
    | some tagName => simp [Connection.opens,hk.idle,hsound] at hopens
  | refused _ _ hdead _ =>
    rcases hdead with hfly | hdown
    · rw [hk.still] at hfly
      cases hfly
    · simp [TcpConnection.connected,hk.live.2] at hdown
  | @sent name slot chip' g serial deadline w _ _ _ _ _ _ _ =>
    let d := k.link.drawn name slot chip' k.statics
    obtain ⟨p,m,w',hp,hidle,hcode,hdata,hlen,hturn⟩ := turn_handshake hk hhonest
      (by rw [hop]; rfl) hr (Or.inl rfl) (r := d.openRequest serial)
      (by simp only; rw [Connection.openFrame_eq]) (d.openRequest_fits serial)
      (SyntheticServer.handleCipRequest_open _ _ _ _) (by simp [SyntheticServer.openReply])
      (by simp [SyntheticServer.openReply,ExplicitMessage.kMaxCipData])
    have hsettle := Connection.settle_opened (c := {d with fwd := m, state := .opening}) rfl
      (k.link.drawn_toConnId_ne name slot chip' k.statics) hp hcode hdata hlen
    rw [hturn,hsettle]
    exact .opened hop rfl hidle (Dict.get_set_self _ _ _)

theorem turn_close {k : Circuit} (hk : k.Settled) {v : Visit} (hhonest : k.Honest v) {chip : Chip}
    (hop : v.op = .close chip) : Turned k v (k.turn v) := by
  have hclosed := k.link.close_closed k.tcp k.session v.timeoutMs chip k.statics
    {k.world with script := v.script}
  have hbegun : k.begun v = k.link.close k.tcp k.session v.timeoutMs chip k.statics
      {k.world with script := v.script} := by
    simp only [begun,hop]
  rw [← hbegun] at hclosed
  generalize hr : k.begun v = r at hclosed
  cases hclosed with
  | refused hst _ =>
    simp only [turn,hr,if_neg hst]
    exact .refused (by rw [Visit.sound,hop]; exact id)
  | @sent g serial deadline w _ _ _ _ =>
    obtain ⟨p,m,w',_,hidle,_,_,_,hturn⟩ := turn_handshake hk hhonest
      (by rw [hop]; rfl) hr (Or.inr rfl) (r := k.link.closeRequest serial)
      (by simp only; rw [Connection.closeFrame_eq]) (k.link.closeRequest_fits serial)
      (SyntheticServer.handleCipRequest_close _ _ _ _) (by simp)
      (by simp [ExplicitMessage.kMaxCipData])
    rw [hturn,Connection.settle_closed rfl]
    exact .closed hop rfl hidle

theorem parsed_kept {c c' : Connection} (h : c.parseConnectedResponse = (.ok,c')) :
    c'.fwd = c.fwd ∧ c'.otConnId = c.otConnId ∧ c'.toConnId = c.toConnId := by
  rcases c.parseConnectedResponse_cases with ⟨d,_,_,heq,hkept,_⟩ | heq
  · rw [heq] at h
    cases h
    rw [hkept]
    exact ⟨rfl,rfl,rfl⟩
  · rw [heq] at h
    cases h

theorem turn_send {k : Circuit} (hk : k.Settled) {v : Visit} (hhonest : k.Honest v)
    {service : UInt8} {path data : List UInt8} (hop : v.op = .send service path data) :
    Turned k v (k.turn v) := by
  rcases k.link.send_cases k.session service path data v.timeoutMs
    {k.world with script := v.script} with ⟨st,hst,heq⟩ | ⟨deadline,w,hopen,hfits,heven,hlog,heq⟩
  · have hbegun : k.begun v = (st,k.link,k.statics,{k.world with script := v.script}) := by
      simp only [begun,hop,heq]
    simp only [turn,hbegun,if_neg hst]
    exact .refused (by rw [Visit.sound,hop]; exact id)
  let frame := Connection.connectedFrame k.session k.link.context k.link.otConnId k.link.sequence
    service path data
  let x := k.link.loaded frame deadline
  let r : Request := {service := service, path := path, rest := data}
  let q := SyntheticServer.connectedAnswer k.session k.link.context k.link.toConnId k.link.sequence
    (k.server.handleUnitRequest r).1 (SyntheticServer.handleUnitRequest_length hk.bounded r).1
    (SyntheticServer.handleUnitRequest_length hk.bounded r).2
  have hbegun : k.begun v = (.pending,x,k.statics,w) := by
    simp only [begun,hop,heq]
    rfl
  simp only [Honest,hbegun,served,ended,hop,Visit.Op.machine] at hhonest
  obtain ⟨hcalm,htimely,hover,harrives⟩ := hhonest trivial
  have hbusy : Connection.exchanger.busy x = true := rfl
  have hload : Connection.exchanger.io x = Transfer.load frame := rfl
  obtain ⟨y,hall,htraffic⟩ := Exchanger.polls_sent hbusy hload hk.live hcalm htimely hover
  have hserved : k.server.handleConnection (sentBetween w.log
      (Connection.exchanger.polls v.polls x k.tcp w).2.2.2.log) =
        some (q.bytes,(k.server.handleUnitRequest r).2) := by
    rw [htraffic.sentBetween hall]
    exact SyntheticServer.handleConnection_connected hk.bounded (hk.agreed hopen) k.link.context
      k.link.sequence hfits heven
  rw [hserved] at harrives
  replace harrives : arriving w.script.recvs = q.bytes := harrives
  have hcap : Exchanger.announced q.bytes ≤ Connection.exchanger.cap := by
    rw [Exchanger.announced,q.decodeHeader_bytes,q.header_length,q.body_length]
    exact q.fits
  obtain ⟨w',hrun,_⟩ := Exchanger.polls_packet hbusy hload hk.live hcalm htimely harrives
    q.encapsulated hcap hover
  have hid : q.connId = k.link.toConnId := by
    have := getU32_putU32 k.link.toConnId []
    rwa [List.append_nil] at this
  obtain ⟨c,hparse,_,hservice,hcode,hdata,hlen⟩ := Connection.parseConnectedResponse_reply
    (c := {x with io := Exchanger.loaded frame q.bytes q.bytes.length}) List.take_length rfl hid rfl
  obtain ⟨hfwd,hot,hto⟩ := parsed_kept hparse
  have hfinish : Connection.exchanger.finish x
      (Exchanger.loaded frame q.bytes q.bytes.length) = (.ok,{c with state := .open}) := by
    simp only [Connection.exchanger,hparse]
    rfl
  have hturn : k.turn v =
      {k with link := {c with state := .open}, world := w',
              server := (k.server.handleUnitRequest r).2,
              history := ⟨v,true,.ok,{c with state := .open},(k.server.handleUnitRequest r).2⟩ ::
                k.history} := by
    simp only [turn,hbegun,ended,served,hop,Visit.Op.machine,if_true]
    rw [hserved,hrun,hfinish]
  rw [hturn]
  exact .sent hop hopen hfits rfl hfwd hot hto ⟨hservice,hcode,hdata,hlen⟩

theorem turn_turned {k : Circuit} (hk : k.Settled) {v : Visit} (hhonest : k.Honest v) :
    Turned k v (k.turn v) := by
  cases hop : v.op with
  | «open» tagName cpuSlot chip => exact turn_open hk hhonest hop
  | send service path data => exact turn_send hk hhonest hop
  | close chip => exact turn_close hk hhonest hop

structure Serving (m : Memory Name TagValue) (session : UInt32) (k : Circuit) : Prop where
  settled : k.Settled
  session_eq : k.session = session
  memory : k.server.memory = m.after (k.history.filterMap Visited.effect)
  last : ∀ d past, k.history = d :: past → d.link = k.link
  recorded : Trace.Always (fun d _ => d.Recorded session) k.history
  agrees : Trace.Always (Visited.Agrees m) k.history
  stays : Trace.Always Visited.StaysOpen k.history
  accepts : Trace.Always (fun d _ => d.visit.sound → d.taken = true) k.history

theorem Serving.push {m : Memory Name TagValue} {session : UInt32} {k k' : Circuit} {d : Visited}
    (h : Serving m session k) (hk : k'.Settled) (hsession : k'.session = k.session)
    (hhistory : k'.history = d :: k.history) (hlink : d.link = k'.link)
    (hserver : d.server = k'.server)
    (hmemory : k'.server.memory = m.after ((d :: k.history).filterMap Visited.effect))
    (hagrees : Visited.Agrees m d k.history) (hstays : Visited.StaysOpen d k.history)
    (haccepts : d.visit.sound → d.taken = true) : Serving m session k' where
  settled := hk
  session_eq := hsession.trans h.session_eq
  memory := by rw [hhistory,hmemory]
  last := by
    intro d' past heq
    rw [hhistory] at heq
    cases heq
    exact hlink
  recorded := by
    rw [hhistory]
    refine ⟨fun hopen => ?_,h.recorded⟩
    rw [hlink] at hopen
    rw [hlink,hserver,← h.session_eq,← hsession]
    exact hk.agreed hopen
  agrees := by rw [hhistory]; exact ⟨hagrees,h.agrees⟩
  stays := by rw [hhistory]; exact ⟨hstays,h.stays⟩
  accepts := by rw [hhistory]; exact ⟨haccepts,h.accepts⟩

theorem Serving.unwritten {m : Memory Name TagValue} {session : UInt32} {k : Circuit}
    (h : Serving m session k) {d : Visited} (hquiet : d.effect = none) :
    k.server.memory = m.after ((d :: k.history).filterMap Visited.effect) := by
  rw [List.filterMap_cons_none hquiet]
  exact h.memory

theorem Serving.sent_memory {m : Memory Name TagValue} {session : UInt32} {k : Circuit}
    (h : Serving m session k) {v : Visit} {service : UInt8} {path data : List UInt8}
    (hop : v.op = .send service path data) (c : Connection) {server : SyntheticServer}
    (hserver : server = (k.server.handleUnitRequest
      {service := service, path := path, rest := data}).2) :
    server.memory =
      m.after ((⟨v,true,.ok,c,server⟩ :: k.history).filterMap Visited.effect) := by
  have heffect : Visited.effect ⟨v,true,.ok,c,server⟩ =
      if service = SyntheticServer.writeTag ∧ 4 ≤ data.length then
        some (SyntheticServer.parseSymbolicPath path,(getU16 (data.drop 2)).toUInt8,data.drop 4)
      else none := by
    simp only [Visited.effect,hop,true_and]
  have hstored := k.server.handleUnitRequest_memory
    {service := service, path := path, rest := data}
  rw [← hserver] at hstored
  by_cases hwrote : service = SyntheticServer.writeTag ∧ 4 ≤ data.length
  · rw [if_pos hwrote] at heffect hstored
    rw [List.filterMap_cons_some heffect,Memory.after_cons,← h.memory]
    exact hstored
  · rw [if_neg hwrote] at heffect hstored
    rw [List.filterMap_cons_none heffect,← h.memory]
    exact hstored

theorem Serving.turn {m : Memory Name TagValue} {session : UInt32} {k : Circuit}
    (h : Serving m session k) {v : Visit} (hhonest : k.Honest v) :
    Serving m session (k.turn v) := by
  have hturned := turn_turned h.settled hhonest
  have hk := h.settled
  generalize k.turn v = k' at hturned
  cases hturned with
  | @refused st g w hsound =>
    have hquiet : Visited.effect ⟨v,false,st,k.link,k.server⟩ = none := by
      simp only [Visited.effect]
      split
      · exact if_neg fun hwrote => by cases hwrote.1
      · rfl
    refine h.push ⟨hk.live,hk.idle,hk.still,hk.bounded,hk.agreed⟩ rfl rfl rfl rfl
      (h.unwritten hquiet) (fun htaken => (by cases htaken)) ?_ fun hs => absurd hs hsound
    intro last earlier hpast hopen _
    rw [h.last last earlier hpast] at hopen
    exact hopen
  | @opened tagName cpuSlot chip c g w connections hop hopen hidle hids =>
    have hquiet : Visited.effect ⟨v,true,.ok,c,{k.server with connections := connections}⟩ =
        none := by
      simp only [Visited.effect,hop]
    refine h.push ⟨hk.live,by simp [Connection.busy,hopen],hidle,hk.bounded,fun _ => hids⟩ rfl rfl
      rfl rfl (h.unwritten hquiet) (fun _ => ⟨rfl,?_⟩) (fun _ _ _ _ _ => hopen) fun _ => rfl
    simp only [hop]
    exact hopen
  | @sent service path data c w hop hopen hfits hopen' hfwd hot hto hreply =>
    let r : Request := {service := service, path := path, rest := data}
    have hids : Dict.get k.session (k.server.handleUnitRequest r).2.connections =
        some (c.otConnId,c.toConnId) := by
      rw [SyntheticServer.handleUnitRequest_connections,hot,hto]
      exact hk.agreed hopen
    refine h.push ⟨hk.live,by simp [Connection.busy,hopen'],by rw [hfwd]; exact hk.still,
      SyntheticServer.handleUnitRequest_bounded hk.bounded hfits,fun _ => hids⟩ rfl rfl rfl rfl
      (h.sent_memory hop c rfl) (fun _ => ⟨rfl,?_⟩) (fun _ _ _ _ _ => hopen') fun _ => rfl
    obtain ⟨hservice,hcode,hdata,hlen⟩ := hreply
    simp only [hop]
    refine ⟨hopen',?_,fun hread value hvalue => ?_⟩
    · rw [hservice]
      exact k.server.handleUnitRequest_service r
    · rw [← h.memory] at hvalue
      have hcip := SyntheticServer.handleUnitRequest_read (r := r) hread hvalue
      rw [hcode,hlen,hdata,hcip]
      exact ⟨rfl,by simp,rfl⟩
  | @closed chip c g w hop hclosed hidle =>
    have hquiet : Visited.effect ⟨v,true,.ok,c,k.server⟩ = none := by
      simp only [Visited.effect,hop]
    have hshut : c.state ≠ .open := by
      rw [hclosed]
      decide
    refine h.push ⟨hk.live,by simp [Connection.busy,hclosed],hidle,hk.bounded,
      fun h => absurd h hshut⟩ rfl rfl rfl rfl (h.unwritten hquiet) (fun _ => ⟨rfl,?_⟩)
      (fun _ _ _ _ hkeeps => absurd hop (hkeeps rfl chip)) fun _ => rfl
    simp only [hop]
    exact hclosed

end Circuit

theorem connected_exchange_agrees {k : Circuit} (hk : k.Settled) (hnew : k.history = [])
    {vs : List Visit} (hhonest : Runs.Guarded Circuit.turn Circuit.Honest k vs) :
    let k' := Runs.run Circuit.turn k vs
    Trace.Always (fun d _ => d.visit.sound → d.taken = true) k'.history ∧
    Trace.Always (fun d _ => d.Recorded k.session) k'.history ∧
    Trace.Always (Visited.Agrees k.server.memory) k'.history ∧
    Trace.Always Visited.StaysOpen k'.history := by
  have hstart : Circuit.Serving k.server.memory k.session k := by
    refine ⟨hk,rfl,?_,?_,?_,?_,?_,?_⟩ <;> rw [hnew]
    · rfl
    · intro d past h
      cases h
    all_goals trivial
  have hserving : Circuit.Serving k.server.memory k.session (Runs.run Circuit.turn k vs) :=
    Runs.invariant_run (fun _ _ h hv => h.turn hv) hstart hhonest
  exact ⟨hserving.accepts,hserving.recorded,hserving.agrees,hserving.stays⟩

namespace Sample

open SyntheticServer

def toServer : Circuit where
  tcp := {fd := 3, state := .ok}
  session := 7
  link := {sequence := 0xFFFF}
  world := {time := 0, script := {}, log := []}

def openA : Visit where
  op := .open (some [0x41]) 2 {random := 9}
  timeoutMs := 1000
  script := {sends := [.ok 5,.error .ewouldblock,.ok 200],
             recvs := [.ok ((answer 1 (openReply 9) (by decide) (by decide)).bytes.take 30),
               .error .eagain,.ok ((answer 1 (openReply 9) (by decide) (by decide)).bytes.drop 30)]}
  polls := 3

def sendWrite : Visit where
  op := .send writeTag (appendSymbolic [0x41]) [1,0,0xC3,0,5,6]
  timeoutMs := 1000
  script := {sends := [.ok 200],
             recvs := [.ok (connectedAnswer 7 1 9 0xFFFF [0xCD,0,0,0] (by decide)
               (by decide)).bytes]}
  polls := 1

def sendReadA : Visit where
  op := .send readTag (appendSymbolic [0x41]) [1,0]
  timeoutMs := 1000
  script := {sends := [.ok 200],
             recvs := [.ok (connectedAnswer 7 2 9 0 [0xCC,0,0,0,0xC3,0,5,6] (by decide)
               (by decide)).bytes]}
  polls := 1

theorem sendReadA_agrees :
    Trace.Always (Visited.Agrees init.memory)
        (Runs.run Circuit.turn toServer [openA,sendWrite,sendReadA]).history ∧
      (Runs.run Circuit.turn toServer [openA,sendWrite,sendReadA]).history.map Visited.taken =
        [true,true,true] :=
  ⟨(connected_exchange_agrees (k := toServer) ⟨⟨by decide,rfl⟩,rfl,rfl,init_bounded,
    fun h => by cases h⟩ rfl (by decide +kernel)).2.2.1,by decide +kernel⟩

end Sample

end ControlLogix
