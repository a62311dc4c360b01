import ControlLogix.Cip.ConnectedReply
import ControlLogix.Eip.Exchanger
import ControlLogix.Eip.Session

namespace ControlLogix

def Session.exchanger : Exchanger Session where
  cap := Session.kMaxBodySize
  io := fun s => s.io
  busy := Session.exchanging
  deadline := fun s => s.deadline
  poll := Session.poll
  resume := fun s x => {s with io := x}
  finish := fun s x =>
    if s.state = .registering then
      let h := decodeHeader x.rx
      if h.command ≠ Command.code .registerSession ∨ h.status ≠ 0 ∨ h.length < 4 then
        (.error,{s with io := x, state := .failed})
      else if h.session = 0 then (.error,{s with io := x, handle := 0, state := .failed})
      else (.ok,{s with io := x, handle := h.session, state := .registered})
    else (.ok,{s with io := x, state := .closed})
  fail := fun s x => {s with io := x, state := .failed}
  io_resume := fun _ _ => rfl
  io_finish := by
    intro s x
    split_ifs
    · simp only
      split_ifs <;> rfl
    · rfl
  io_fail := fun _ _ => rfl
  busy_resume := fun _ _ h => h
  deadline_resume := fun _ _ => rfl
  finish_resume := fun _ _ _ => rfl
  fail_resume := fun _ _ _ => rfl
  finish_ne := by
    intro s x
    split_ifs
    · simp only
      split_ifs <;> simp
    · simp
  poll_write := by
    intro s t w x t' w' hbusy hdl hwrite _
    simp only [Session.exchanging,decide_eq_true_eq] at hbusy
    rcases hbusy with hs | hs <;>
    · simp only [Session.poll,hs,Session.pollRegistering,Session.pollUnregistering,hdl,hwrite]
      rfl
  poll_read := by
    intro s t w x u v st y t' w' hbusy hdl hwrite hread _
    simp only [Session.exchanging,decide_eq_true_eq] at hbusy
    rcases hbusy with hs | hs
    · simp only [Session.poll,hs,Session.pollRegistering,hdl,hwrite,hread]
      by_cases hwait : st = .pending
      · simp [hwait]
      by_cases hok : st = .ok
      · subst hok
        by_cases hbad : (decodeHeader y.rx).command ≠ Command.code .registerSession ∨
            (decodeHeader y.rx).status ≠ 0 ∨ (decodeHeader y.rx).length < 4
        · simp [if_pos hbad]
        · by_cases hzero : (decodeHeader y.rx).session = 0
          · simp [if_neg hbad,hzero]
          · simp [if_neg hbad,hzero]
      · simp [hwait,hok]
    · simp only [Session.poll,hs,Session.pollUnregistering,hdl,hwrite,hread]
      by_cases hwait : st = .pending
      · simp [hwait]
      by_cases hok : st = .ok
      · simp [hok]
      · simp [hwait,hok]

def ExplicitMessage.exchanger : Exchanger ExplicitMessage where
  cap := 16 + ExplicitMessage.kMaxCipData + ExplicitMessage.kRoutedOverhead
  io := fun m => m.io
  busy := ExplicitMessage.inFlight
  deadline := fun m => m.deadline
  poll := ExplicitMessage.poll
  resume := fun m x =>
    {m with io := x, state := if x.txSent < x.tx.length then m.state else .receiving}
  finish := fun m x =>
    let r := ({m with io := x, state := .receiving} : ExplicitMessage).parseResponse
    (r.1,{r.2 with state := if r.1 = .ok then .done else .failed})
  fail := fun m x => {m with io := x, state := .failed}
  io_resume := fun _ _ => rfl
  io_finish := fun m x => ExplicitMessage.parseResponse_io {m with io := x, state := .receiving}
  io_fail := fun _ _ => rfl
  busy_resume := by
    intro m x hm
    simp only [ExplicitMessage.inFlight_iff] at hm ⊢
    split_ifs
    · exact hm
    · exact Or.inr rfl
  deadline_resume := fun _ _ => rfl
  finish_resume := fun _ _ _ => rfl
  fail_resume := fun _ _ _ => rfl
  finish_ne := by
    intro m x
    rcases ExplicitMessage.parseResponse_cases {m with io := x, state := .receiving} with
      ⟨m',heq,_⟩ | heq <;> simp [heq]
  poll_write := by
    intro m t w x t' w' hbusy hdl hwrite hmore
    simp only [ExplicitMessage.inFlight_iff] at hbusy
    rcases hbusy with hs | hs <;> simp [ExplicitMessage.poll,hs,hdl,hwrite,hmore]
  poll_read := by
    intro m t w x u v st y t' w' hbusy hdl hwrite hread hall
    have hsent : ¬ y.txSent < y.tx.length := Nat.not_lt.mpr hall
    simp only [ExplicitMessage.inFlight_iff] at hbusy
    have hpoll : m.poll t w = (let r := ({m with io := y, state := .receiving} : ExplicitMessage)
        if st = .pending then (.pending,r,t',w')
        else if st ≠ .ok then (st,{r with state := .failed},t',w')
        else (r.parseResponse.1,
          {r.parseResponse.2 with state := if r.parseResponse.1 = .ok then .done else .failed},
          t',w')) := by
      rcases hbusy with hs | hs <;>
      · simp only [ExplicitMessage.poll,hs,hdl,hwrite,hread]
        rfl
    rw [hpoll]
    by_cases hwait : st = .pending
    · simp [hwait,hsent]
    by_cases hok : st = .ok
    · simp [hok]
    · simp [hwait,hok]

def Connection.exchanger : Exchanger Connection where
  cap := 22 + Connection.kMaxDataSize
  io := fun c => c.io
  busy := fun c => c.state = .sending
  deadline := fun c => c.deadline
  poll := Connection.poll
  resume := fun c x => {c with io := x}
  finish := fun c x =>
    let r := ({c with io := x} : Connection).parseConnectedResponse
    (r.1,{r.2 with state := if r.1 = .ok then .open else .failed})
  fail := fun c x => {c with io := x, state := .failed}
  io_resume := fun _ _ => rfl
  io_finish := by
    intro c x
    rcases Connection.parseConnectedResponse_cases {c with io := x} with
      ⟨c',p,len,heq,hkept,_⟩ | heq
    · simp only [heq]
      rw [hkept]
    · simp only [heq]
  io_fail := fun _ _ => rfl
  busy_resume := fun _ _ h => h
  deadline_resume := fun _ _ => rfl
  finish_resume := fun _ _ _ => rfl
  fail_resume := fun _ _ _ => rfl
  finish_ne := by
    intro c x
    rcases Connection.parseConnectedResponse_cases {c with io := x} with
      ⟨c',p,len,heq,_⟩ | heq <;> simp [heq]
  poll_write := by
    intro c t w x t' w' hbusy hdl hwrite _
    simp only [decide_eq_true_eq] at hbusy
    simp [Connection.poll,hbusy,Connection.pollSending,hdl,hwrite]
  poll_read := by
    intro c t w x u v st y t' w' hbusy hdl hwrite hread _
    simp only [decide_eq_true_eq] at hbusy
    simp only [Connection.poll,hbusy,Connection.pollSending,hdl,hwrite,hread]
    by_cases hwait : st = .pending
    · simp [hwait]
    by_cases hok : st = .ok
    · simp [hok]
    · simp [hwait,hok]

namespace ExplicitMessage

theorem locate_within {rx : List UInt8} {p len : Nat} (h : locate rx = some (p,len)) :
    p + len ≤ rx.length ∧ 4 ≤ len := by
  simp only [locate,scanItems_eq] at h
  by_cases hbody : rx.length - kEncapsulationHeaderSize < 8
  · rw [if_pos hbody] at h
    cases h
  rw [if_neg hbody] at h
  split at h
  · next q l hwalk =>
    split_ifs at h with hlen
    simp only [Option.some.injEq,Prod.mk.injEq] at h
    obtain ⟨rfl,rfl⟩ := h
    have hin := walkItems_within (P := fun found => ∀ p len, found = some (p,len) →
      p + len ≤ rx.length) ?_ ?_ ?_ hwalk
    · exact ⟨hin _ _ rfl,by omega⟩
    · intro found type p len b hfound hle hkeep p' len' hb
      simp only [keepData,Option.some.injEq] at hkeep
      subst hkeep
      split_ifs at hb
      · simp only [Option.some.injEq,Prod.mk.injEq] at hb
        omega
      · exact hfound _ _ hb
    · omega
    · intro p len hnone
      cases hnone
  · cases h

theorem data_within {m m' : ExplicitMessage} (h : m.parseResponse = (.ok,m')) :
    ∃ p, m'.data = some p ∧ p + m'.dataLen ≤ m.io.rx.length := by
  obtain ⟨hcommand,hstatus,hcontext⟩ := parseResponse_ok h
  simp only [parseResponse] at h
  rw [if_neg (by simp [hcommand,hstatus]),if_neg (not_not.mpr hcontext)] at h
  rcases hplace : locate m.io.rx with _ | ⟨p,len⟩
  · simp [hplace] at h
  · obtain ⟨hin,hlen⟩ := locate_within hplace
    rw [hplace] at h
    simp only [Prod.mk.injEq,true_and] at h
    subst h
    refine ⟨_,rfl,?_⟩
    simp only
    split_ifs <;> simp only <;> omega

theorem requestFrame_length (sessionHandle : UInt32) (context : UInt64) (service : UInt8)
    (path data : List UInt8) : (requestFrame sessionHandle context service path data).length =
      kEncapsulationHeaderSize + 16 + (2 + path.length + data.length) := by
  obtain ⟨body,hbody,heq⟩ := requestFrame_eq sessionHandle context service path data
  rw [heq,List.length_append,headerBytes_length,hbody]
  exact (Nat.add_assoc _ _ _).symm

theorem startSend_started (m : ExplicitMessage) (sessionHandle : UInt32) (service : UInt8)
    {path data : List UInt8} (timeoutMs : UInt32) (w : World)
    (hfit : 2 + path.length + data.length ≤ kMaxCipData + kRoutedOverhead) :
    exchanger.Started (m.startSend sessionHandle service path data timeoutMs w).2.1 := by
  refine ⟨rfl,_,rfl,?_⟩
  rw [requestFrame_length]
  simp only [exchanger]
  omega

theorem send_started (m : ExplicitMessage) (t : TcpConnection) (sessionHandle : UInt32)
    (service : UInt8) (path data : List UInt8) (timeoutMs : UInt32) (w : World)
    (h : (m.send t sessionHandle service path data timeoutMs w).1 = .pending) :
    exchanger.Started (m.send t sessionHandle service path data timeoutMs w).2.1 := by
  simp only [send] at h ⊢
  split_ifs at h ⊢ with hbusy hconn hlen
  exact m.startSend_started sessionHandle service timeoutMs w (by omega)

theorem sendRouted_started (m : ExplicitMessage) (t : TcpConnection) (sessionHandle : UInt32)
    (slot service : UInt8) (path data : List UInt8) (timeoutMs : UInt32) (w : World)
    (h : (m.sendRouted t sessionHandle slot service path data timeoutMs w).1 = .pending) :
    exchanger.Started (m.sendRouted t sessionHandle slot service path data timeoutMs w).2.1 := by
  simp only [sendRouted] at h ⊢
  split_ifs at h ⊢ with hbusy hconn hslot hlen
  have hwrapped := unconnectedSend_length slot service path data
  refine m.startSend_started sessionHandle kUnconnectedSend timeoutMs w ?_
  simp only [kMaxCipData,kRoutedOverhead,List.length_cons,List.length_nil] at hlen ⊢
  omega

end ExplicitMessage

namespace Session

theorem open_started (s : Session) (t : TcpConnection) (timeoutMs : UInt32) (w : World)
    (h : (s.open t timeoutMs w).1 = .pending) : exchanger.Started (s.open t timeoutMs w).2.1 := by
  rcases s.open_cases t timeoutMs w with ⟨deadline,w',heq,_⟩ | ⟨st,hst,heq,_⟩
  · rw [heq]
    refine ⟨rfl,registerFrame s.context,rfl,?_⟩
    rw [registerFrame_eq]
    simp [exchanger,kEncapsulationHeaderSize,kMaxBodySize]
  · rw [heq] at h
    exact absurd h hst

theorem close_started (s : Session) (h : s.close.1 = .pending) : exchanger.Started s.close.2 := by
  simp only [close] at h ⊢
  split_ifs at h ⊢
  refine ⟨rfl,unregisterFrame s.handle s.context,rfl,?_⟩
  rw [unregisterFrame_eq]
  simp [exchanger,kEncapsulationHeaderSize]

end Session

namespace Connection

theorem send_started (c : Connection) (sessionHandle : UInt32) (service : UInt8)
    (path data : List UInt8) (timeoutMs : UInt32) (w : World)
    (h : (c.send sessionHandle service path data timeoutMs w).1 = .pending) :
    exchanger.Started (c.send sessionHandle service path data timeoutMs w).2.1 := by
  rcases c.send_cases sessionHandle service path data timeoutMs w with ⟨st,hst,heq⟩ |
    ⟨deadline,w',_,hfit,_,_,heq⟩
  · rw [heq] at h
    exact absurd h hst
  · rw [heq]
    refine ⟨rfl,_,rfl,?_⟩
    simp only [connectedFrame,encodeHeader_blank,exchanger,kEncapsulationHeaderSize,
      List.length_append,headerBytes_length,putU32_length,putU16_length,List.length_cons,
      List.length_nil]
    omega

theorem connectedItems_within {rx : List UInt8} {connId : UInt32} {p len : Nat}
    (h : connectedItems rx = some (connId,p,len)) : p + len ≤ rx.length := by
  simp only [connectedItems] at h
  by_cases hbody : rx.length - kEncapsulationHeaderSize < 8
  · rw [if_pos hbody] at h
    cases h
  rw [if_neg hbody] at h
  split at h
  · next id q l hwalk =>
    split_ifs at h with hlen
    simp only [Option.some.injEq,Prod.mk.injEq] at h
    obtain ⟨rfl,rfl,rfl⟩ := h
    refine walkItems_within (P := fun a : Option UInt32 × Option (Nat × Nat) => ∀ p len,
      a.2 = some (p,len) → p + len ≤ rx.length) ?_ ?_ ?_ hwalk _ _ rfl
    · intro a type p len b ha hle hkeep p' len' hb
      simp only [takeConnected] at hkeep
      split_ifs at hkeep
      · cases hkeep
        exact ha _ _ hb
      · cases hkeep
        simp only [Option.some.injEq,Prod.mk.injEq] at hb
        omega
      · cases hkeep
        exact ha _ _ hb
    · omega
    · intro p len hnone
      cases hnone
  · cases h

theorem data_within {c c' : Connection} (h : c.parseConnectedResponse = (.ok,c')) :
    ∃ p, c'.data = some p ∧ p + c'.dataLen ≤ c.io.rx.length := by
  simp only [parseConnectedResponse] at h
  split_ifs at h with hhead hcontext
  · cases h
  · cases h
  · rcases hitems : connectedItems c.io.rx with _ | ⟨connId,p,len⟩
    · simp [hitems] at h
    · have hin := connectedItems_within hitems
      rw [hitems] at h
      simp only at h
      split_ifs at h with hid hseq hlen
      · cases h
      · cases h
      · cases h
      · simp only [Prod.mk.injEq,true_and] at h
        subst h
        exact ⟨_,rfl,by simp only; omega⟩

end Connection

theorem exchange_under_short_io :
    Session.exchanger.Faithful ∧ ExplicitMessage.exchanger.Faithful ∧
    Connection.exchanger.Faithful ∧
    (∀ (s : Session) t timeoutMs w, (s.open t timeoutMs w).1 = .pending →
      Session.exchanger.Started (s.open t timeoutMs w).2.1) ∧
    (∀ s : Session, s.close.1 = .pending → Session.exchanger.Started s.close.2) ∧
    (∀ (m : ExplicitMessage) t sessionHandle service path data timeoutMs w,
      (m.send t sessionHandle service path data timeoutMs w).1 = .pending →
      ExplicitMessage.exchanger.Started
        (m.send t sessionHandle service path data timeoutMs w).2.1) ∧
    (∀ (m : ExplicitMessage) t sessionHandle slot service path data timeoutMs w,
      (m.sendRouted t sessionHandle slot service path data timeoutMs w).1 = .pending →
      ExplicitMessage.exchanger.Started
        (m.sendRouted t sessionHandle slot service path data timeoutMs w).2.1) ∧
    (∀ (c : Connection) sessionHandle service path data timeoutMs w,
      (c.send sessionHandle service path data timeoutMs w).1 = .pending →
      Connection.exchanger.Started (c.send sessionHandle service path data timeoutMs w).2.1) ∧
    (∀ m m' : ExplicitMessage, m.parseResponse = (.ok,m') →
      ∃ p, m'.data = some p ∧ p + m'.dataLen ≤ m.io.rx.length) ∧
    (∀ c c' : Connection, c.parseConnectedResponse = (.ok,c') →
      ∃ p, c'.data = some p ∧ p + c'.dataLen ≤ c.io.rx.length) ∧
    ∀ (x : Transfer) (t : TcpConnection) (w : World) (fuel cap : Nat),
      (x.tx.length - x.txSent < fuel → Transfer.writeLoop fuel x t w = x.writePending t w) ∧
      (x.rxExpected - x.rx.length + cap < fuel →
        Transfer.readLoop cap fuel x t w = x.readResponse cap t w) := by
  refine ⟨Session.exchanger.faithful,ExplicitMessage.exchanger.faithful,
    Connection.exchanger.faithful,Session.open_started,Session.close_started,
    ExplicitMessage.send_started,ExplicitMessage.sendRouted_started,Connection.send_started,
    fun _ _ => ExplicitMessage.data_within,fun _ _ => Connection.data_within,?_⟩
  intro x t w fuel cap
  have hle := x.unread_le cap
  exact ⟨fun hfuel => Transfer.writeLoop_fuel hfuel (Nat.lt_succ_self _),
    fun hfuel => Transfer.readLoop_fuel (by omega) (by omega)⟩

namespace Sample

def inPieces : World where
  time := 0
  script :=
    {sends := [.ok 5,.error .ewouldblock,.ok 100],
     recvs := [.ok ((refusalReply [0xCC,0,0x04,0] (by decide)).bytes.take 7),.error .eagain,
       .ok ((refusalReply [0xCC,0,0x04,0] (by decide)).bytes.drop 7 ++ [1,2,3])]}
  log := []

def asked₁ : ExplicitMessage :=
  (({} : ExplicitMessage).send {fd := 3, state := .ok} 7 0x4C [0x91,1,0x41,0] [1,0] 1000
    inPieces).2.1

theorem message_in_pieces : ∃ m' w',
    ExplicitMessage.exchanger.polls 3 asked₁ {fd := 3, state := .ok} inPieces =
      (.ok,m',{fd := 3, state := .ok},w') ∧
    ExplicitMessage.exchanger.Ended asked₁ asked₁.io.tx (arriving inPieces.script.recvs)
      {fd := 3, state := .ok} [] .ok m' w' := by
  have hok : (ExplicitMessage.exchanger.polls 3 asked₁ {fd := 3, state := .ok} inPieces).1 = .ok := by
    decide +kernel
  obtain ⟨st,m',w',hrun,⟨hst,_⟩ | ⟨_,hend⟩⟩ := exchange_under_short_io.2.1 asked₁ asked₁.io.tx
    {fd := 3, state := .ok} inPieces 3 (by decide +kernel) (by decide +kernel)
    ⟨by decide,rfl⟩ (by decide +kernel) (by decide +kernel)
  · rw [hrun,hst] at hok
    cases hok
  · rw [hrun] at hok
    simp only at hok
    subst hok
    exact ⟨m',w',hrun,hend⟩

end Sample

end ControlLogix
