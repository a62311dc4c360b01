import ControlLogix.Eip.Exchange

namespace ControlLogix

inductive Session.State where
  | idle | registering | registered | unregistering | closed | failed
  deriving DecidableEq, Repr

structure Session where
  conn : Bool := false
  state : Session.State := .idle
  handle : UInt32 := 0
  deadline : UInt32 := 0
  context : UInt64 := 1
  io : Transfer := {}
  deriving DecidableEq

namespace Session

def kMaxBodySize : Nat := 512

def registered (s : Session) : Bool := s.state = .registered

def registerFrame (context : UInt64) : List UInt8 :=
  encodeHeader (List.replicate 24 0)
      {command := Command.code .registerSession, length := 4, session := 0, status := 0,
       context := context, options := 0} ++
    putU16 1 ++ putU16 0

def unregisterFrame (handle : UInt32) (context : UInt64) : List UInt8 :=
  encodeHeader (List.replicate 24 0)
    {command := Command.code .unregisterSession, length := 0, session := handle, status := 0,
     context := context, options := 0}

def abort (s : Session) : Session :=
  {s with conn := false, state := .closed, handle := 0, io := {}}

def startRegister (s : Session) : Status × Session :=
  (.pending,{s with io := Transfer.load (registerFrame s.context), state := .registering})

def startUnregister (s : Session) : Status × Session :=
  (.pending,{s with io := Transfer.load (unregisterFrame s.handle s.context),
                    state := .unregistering})

end Session

def Session.open (s : Session) (t : TcpConnection) (timeoutMs : UInt32) (w : World) :
    Status × Session × World :=
  if s.state = .registering ∨ s.state = .registered then (.busy,s,w)
  else if !t.connected then (.notReady,s,w)
  else
    let (now,w) := w.millis
    let (st,s) := Session.startRegister {s with conn := true, deadline := now + timeoutMs}
    (st,s,w)

namespace Session

def close (s : Session) : Status × Session :=
  if s.state = .registered then s.startUnregister
  else if s.state = .registering ∨ s.state = .unregistering then (.busy,s)
  else (.ok,s.abort)

def pollRegistering (s : Session) (t : TcpConnection) (w : World) :
    Status × Session × TcpConnection × World :=
  let (now,w) := w.millis
  if expired now s.deadline then (.timeout,{s with state := .failed},t,w)
  else
    let (st,io,t,w) := s.io.writePending t w
    let s := {s with io := io}
    if st ≠ .ok then (st,s,t,w)
    else
      let (st,io,t,w) := s.io.readResponse kMaxBodySize t w
      let s := {s with io := io}
      if st = .pending then (.pending,s,t,w)
      else if st ≠ .ok then (st,{s with state := .failed},t,w)
      else
        let h := decodeHeader s.io.rx
        if h.command ≠ Command.code .registerSession ∨ h.status ≠ 0 ∨ h.length < 4 then
          (.error,{s with state := .failed},t,w)
        else
          let s : Session := {s with handle := h.session}
          if s.handle = 0 then (.error,{s with state := .failed},t,w)
          else (.ok,{s with state := .registered},t,w)

def pollUnregistering (s : Session) (t : TcpConnection) (w : World) :
    Status × Session × TcpConnection × World :=
  let (now,w) := w.millis
  if expired now s.deadline then (.timeout,{s with state := .failed},t,w)
  else
    let (st,io,t,w) := s.io.writePending t w
    let s := {s with io := io}
    if st ≠ .ok then (st,s,t,w)
    else
      let (st,io,t,w) := s.io.readResponse kMaxBodySize t w
      let s := {s with io := io}
      if st = .pending then (.pending,s,t,w)
      else if st ≠ .ok then (st,{s with state := .failed},t,w)
      else (.ok,{s with state := .closed},t,w)

def poll (s : Session) (t : TcpConnection) (w : World) :
    Status × Session × TcpConnection × World :=
  match s.state with
  | .registering => s.pollRegistering t w
  | .unregistering => s.pollUnregistering t w
  | .registered => (.ok,s,t,w)
  | .closed => (.closed,s,t,w)
  | .failed => (.error,s,t,w)
  | .idle => (.notReady,s,t,w)

theorem registerFrame_eq (context : UInt64) :
    registerFrame context =
      headerBytes {command := Command.code .registerSession, length := 4, session := 0,
                   status := 0, context := context, options := 0} ++ (putU16 1 ++ putU16 0) := by
  rw [registerFrame,encodeHeader_blank,List.append_assoc]

theorem unregisterFrame_eq (handle : UInt32) (context : UInt64) :
    unregisterFrame handle context =
      headerBytes {command := Command.code .unregisterSession, length := 0, session := handle,
                   status := 0, context := context, options := 0} ++ [] := by
  rw [unregisterFrame,encodeHeader_blank,List.append_nil]

theorem registerFrame_encapsulated (context : UInt64) : Encapsulated (registerFrame context) := by
  rw [registerFrame_eq]
  exact encapsulated_headerBytes rfl

theorem unregisterFrame_encapsulated (handle : UInt32) (context : UInt64) :
    Encapsulated (unregisterFrame handle context) := by
  rw [unregisterFrame_eq]
  exact encapsulated_headerBytes rfl

structure Polled (s : Session) (t : TcpConnection) (w : World) (st : Status) (s' : Session)
    (t' : TcpConnection) (w' : World) : Prop where
  io : Transfer.Moved s.io t w s'.io t' w'
  deadline : s'.deadline = s.deadline
  context : s'.context = s.context
  sent : st = .ok → s.io.tx.length ≤ s'.io.txSent
  ended : s'.state = s.state ∧ s'.handle = s.handle ∧ st ≠ .ok ∧ (s.io.Paced → s'.io.Paced) ∨
    s'.state = .failed ∧ st ≠ .ok ∧ st ≠ .pending ∨
    s.state = .registering ∧ s'.state = .registered ∧ st = .ok ∧ s'.handle ≠ 0 ∧
      s'.handle = (decodeHeader s'.io.rx).session ∧
        (decodeHeader s'.io.rx).command = Command.code .registerSession ∧
          (s.io.Paced → kEncapsulationHeaderSize ≤ s'.io.rx.length) ∨
    s.state = .unregistering ∧ s'.state = .closed ∧ st = .ok ∧ s'.handle = s.handle

namespace Polled

variable {s : Session} {t t' : TcpConnection} {w w' : World} {st : Status} {x : Transfer}

theorem late (s : Session) (t : TcpConnection) (w : World) :
    Polled s t w .timeout {s with state := .failed} t w.millis.2 :=
  ⟨(Transfer.Moved.refl s.io t w.millis.2).of_millis,rfl,rfl,fun h => (by cases h),
    Or.inr (Or.inl ⟨rfl,by simp,by simp⟩)⟩

theorem unsent (hmoved : Transfer.Moved s.io t w.millis.2 x t' w') (hst : st ≠ .ok)
    (hx : x = {s.io with txSent := x.txSent}) : Polled s t w st {s with io := x} t' w' :=
  ⟨hmoved.of_millis,rfl,rfl,fun h => absurd h hst,
    Or.inl ⟨rfl,rfl,hst,fun hp => by rw [hx]; exact hp⟩⟩

theorem waits (hmoved : Transfer.Moved s.io t w.millis.2 x t' w')
    (hsent : s.io.tx.length ≤ x.txSent) (hpaced : s.io.Paced → x.Paced) :
    Polled s t w .pending {s with io := x} t' w' :=
  ⟨hmoved.of_millis,rfl,rfl,fun _ => hsent,Or.inl ⟨rfl,rfl,by simp,hpaced⟩⟩

theorem fails (hmoved : Transfer.Moved s.io t w.millis.2 x t' w')
    (hsent : s.io.tx.length ≤ x.txSent) (hok : st ≠ .ok) (hwait : st ≠ .pending)
    (handle : UInt32) :
    Polled s t w st {s with io := x, handle := handle, state := .failed} t' w' :=
  ⟨hmoved.of_millis,rfl,rfl,fun _ => hsent,Or.inr (Or.inl ⟨rfl,hok,hwait⟩)⟩

end Polled

theorem pollRegistering_polled {s : Session} (hs : s.state = .registering) (t : TcpConnection)
    (w : World) : ∃ st s' t' w', s.pollRegistering t w = (st,s',t',w') ∧
      Polled s t w st s' t' w' := by
  simp only [pollRegistering]
  by_cases hlate : expired w.millis.1 s.deadline
  · rw [if_pos hlate]
    exact ⟨_,_,_,_,rfl,.late s t w⟩
  rw [if_neg hlate]
  rcases s.io.turn kMaxBodySize t w.millis.2 with ⟨st,x,t',w',hwrite,hst,_,hmoved,hx⟩ |
    ⟨y,u,v,st,x,t',w',hwrite,hread,_,hmoved,hsent,hpaced,hall⟩
  · simp only [hwrite,if_pos hst]
    exact ⟨_,_,_,_,rfl,.unsent hmoved hst hx⟩
  simp only [hwrite,hread]
  rw [if_neg (by simp)]
  by_cases hwait : st = .pending
  · subst hwait
    exact ⟨_,_,_,_,rfl,.waits hmoved hsent fun hp => hpaced hp (by simp)⟩
  rw [if_neg hwait]
  by_cases hok : st = .ok
  · subst hok
    rw [if_neg (by simp)]
    have hlen (hp : s.io.Paced) : kEncapsulationHeaderSize ≤ x.rx.length :=
      (hpaced hp (by simp)).header (hall rfl)
    split_ifs with hbad hzero
    · exact ⟨_,_,_,_,rfl,.fails hmoved hsent (by simp) (by simp) _⟩
    · exact ⟨_,_,_,_,rfl,.fails hmoved hsent (by simp) (by simp) _⟩
    · exact ⟨_,_,_,_,rfl,hmoved.of_millis,rfl,rfl,fun _ => hsent,
        Or.inr (Or.inr (Or.inl ⟨hs,rfl,rfl,hzero,rfl,not_not.mp (not_or.mp hbad).1,hlen⟩))⟩
  · rw [if_pos hok]
    exact ⟨_,_,_,_,rfl,.fails hmoved hsent hok hwait _⟩

theorem pollUnregistering_polled {s : Session} (hs : s.state = .unregistering)
    (t : TcpConnection) (w : World) : ∃ st s' t' w', s.pollUnregistering t w = (st,s',t',w') ∧
      Polled s t w st s' t' w' := by
  simp only [pollUnregistering]
  by_cases hlate : expired w.millis.1 s.deadline
  · rw [if_pos hlate]
    exact ⟨_,_,_,_,rfl,.late s t w⟩
  rw [if_neg hlate]
  rcases s.io.turn kMaxBodySize t w.millis.2 with ⟨st,x,t',w',hwrite,hst,_,hmoved,hx⟩ |
    ⟨y,u,v,st,x,t',w',hwrite,hread,_,hmoved,hsent,hpaced,_⟩
  · simp only [hwrite,if_pos hst]
    exact ⟨_,_,_,_,rfl,.unsent hmoved hst hx⟩
  simp only [hwrite,hread]
  rw [if_neg (by simp)]
  split_ifs with hwait hbad
  · subst hwait
    exact ⟨_,_,_,_,rfl,.waits hmoved hsent fun hp => hpaced hp (by simp)⟩
  · exact ⟨_,_,_,_,rfl,.fails hmoved hsent hbad hwait _⟩
  · exact ⟨_,_,_,_,rfl,hmoved.of_millis,rfl,rfl,fun _ => hsent,
      Or.inr (Or.inr (Or.inr ⟨hs,rfl,rfl,rfl⟩))⟩

def exchanging (s : Session) : Bool := s.state = .registering ∨ s.state = .unregistering

theorem poll_polled {s : Session} (hs : s.exchanging = true) (t : TcpConnection) (w : World) :
    ∃ st s' t' w', s.poll t w = (st,s',t',w') ∧ Polled s t w st s' t' w' := by
  simp only [exchanging,decide_eq_true_eq] at hs
  simp only [poll]
  rcases hs with hs | hs
  · rw [hs]
    exact pollRegistering_polled hs t w
  · rw [hs]
    exact pollUnregistering_polled hs t w

theorem poll_still {s : Session} (hs : s.exchanging = false) (t : TcpConnection) (w : World) :
    ∃ st, s.poll t w = (st,s,t,w) ∧ st ≠ .pending ∧ (st = .ok ↔ s.state = .registered) ∧
      (st = .closed ↔ s.state = .closed) := by
  simp only [poll]
  cases hst : s.state with
  | registering => simp [exchanging,hst] at hs
  | unregistering => simp [exchanging,hst] at hs
  | registered => exact ⟨_,rfl,by simp⟩
  | closed => exact ⟨_,rfl,by simp⟩
  | failed => exact ⟨_,rfl,by simp⟩
  | idle => exact ⟨_,rfl,by simp⟩

theorem poll_spoke (s : Session) (t : TcpConnection) (w : World) :
    World.Spoke w (s.poll t w).2.2.2 := by
  cases hs : s.exchanging with
  | true =>
    obtain ⟨st,s',t',w',heq,h⟩ := poll_polled hs t w
    rw [heq]
    exact h.io.spoke
  | false =>
    obtain ⟨st,heq,_⟩ := poll_still hs t w
    rw [heq]
    exact World.Spoke.refl w

theorem open_cases (s : Session) (t : TcpConnection) (timeoutMs : UInt32) (w : World) :
    (∃ deadline w', s.open t timeoutMs w = (.pending,(startRegister
        {s with conn := true, deadline := deadline}).2,w') ∧ w'.log = w.log ∧
        s.state ≠ .registering ∧ s.state ≠ .registered ∧ t.connected = true) ∨
    ∃ st, st ≠ .pending ∧ s.open t timeoutMs w = (st,s,w) ∧
      (st = .busy ∧ (s.state = .registering ∨ s.state = .registered) ∨ t.connected = false) := by
  simp only [Session.open]
  by_cases hbusy : s.state = .registering ∨ s.state = .registered
  · exact Or.inr ⟨.busy,by simp,by rw [if_pos hbusy],Or.inl ⟨rfl,hbusy⟩⟩
  rw [if_neg hbusy]
  rw [not_or] at hbusy
  cases hconn : t.connected with
  | false => exact Or.inr ⟨.notReady,by simp,by simp,Or.inr rfl⟩
  | true => exact Or.inl ⟨_,_,rfl,rfl,hbusy.1,hbusy.2,rfl⟩

end Session

end ControlLogix
