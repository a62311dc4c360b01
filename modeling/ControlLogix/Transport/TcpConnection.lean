import ControlLogix.Transport.World
import Mathlib.Tactic.SplitIfs

namespace ControlLogix

structure TcpConnection where
  fd : Int := -1
  remoteIp : UInt32 := 0
  remotePort : UInt16 := 0
  deadline : UInt32 := 0
  state : Status := .closed
  deriving DecidableEq

namespace TcpConnection

def connected (t : TcpConnection) : Bool := t.state = .ok

def close (t : TcpConnection) (w : World) : TcpConnection × World :=
  ({},if 0 ≤ t.fd then w.lwipClose t.fd else w)

def connect (t : TcpConnection) (ip : UInt32) (port : UInt16) (timeoutMs : UInt32) (w : World) :
    Status × TcpConnection × World :=
  let (t,w) := if 0 ≤ t.fd then t.close w else (t,w)
  if ip = 0 ∨ port = 0 then (.invalidArg,t,w)
  else
    let (fd,w) := w.lwipSocket
    if fd < 0 then (.error,t,w)
    else
      let (flags,w) := w.lwipFcntl
      if flags < 0 then (.error,t,w.lwipClose fd)
      else
        let (rc,w) := w.lwipFcntl
        if rc < 0 then (.error,t,w.lwipClose fd)
        else
          let (rc,w) := w.lwipConnect
          if rc ≠ .ok () ∧ rc ≠ .error .einprogress then (.error,t,w.lwipClose fd)
          else
            let w := w.note (.connect fd)
            let (now,w) := w.millis
            (.pending,
              {fd := fd, remoteIp := ip, remotePort := port, deadline := now + timeoutMs,
               state := .pending},w)

def poll (t : TcpConnection) (w : World) : Status × TcpConnection × World :=
  if t.fd < 0 then (.closed,t,w)
  else if t.state = .ok then (.ok,t,w)
  else
    let (rc,w) := w.lwipSelect
    if rc < 0 then (.error,t.close w)
    else if rc = 0 then
      let (now,w) := w.millis
      if expired now t.deadline then (.timeout,t.close w) else (.pending,t,w)
    else
      match w.lwipGetsockopt with
      | (.error _,w) => (.error,t.close w)
      | (.ok err,w) => if err = 0 then (.ok,{t with state := .ok},w) else (.error,t.close w)

-- A positive count is the bytes read, [] is the 0 of "no data yet", an error is the negative
-- Status.
def read (t : TcpConnection) (length : Nat) (w : World) :
    Except Status (List UInt8) × TcpConnection × World :=
  if t.fd < 0 ∨ t.state ≠ .ok then (.error .closed,t,w)
  else if length = 0 then (.error .invalidArg,t,w)
  else
    match w.lwipRecv t.fd length with
    | (.ok [],w) => (.error .closed,{t with state := .closed},w)
    | (.ok got,w) => (.ok got,t,w)
    | (.error e,w) => if e = .ewouldblock ∨ e = .eagain then (.ok [],t,w) else (.error .error,t,w)

def write (t : TcpConnection) (buffer : List UInt8) (off length : Nat) (w : World) :
    Except Status Nat × TcpConnection × World :=
  if t.fd < 0 ∨ t.state ≠ .ok then (.error .closed,t,w)
  else if length = 0 then (.error .invalidArg,t,w)
  else
    match w.lwipSend t.fd buffer off length with
    | (.ok n,w) => (.ok n,t,w)
    | (.error e,w) =>
      if e = .ewouldblock ∨ e = .eagain then (.ok 0,t,w)
      else if e = .epipe ∨ e = .econnreset then (.error .closed,{t with state := .closed},w)
      else (.error .error,t,w)

theorem close_hushed (t : TcpConnection) (w : World) : World.Hushed w (t.close w).2 := by
  simp only [close]
  split
  · exact World.lwipClose_hushed t.fd w
  · exact World.Hushed.refl w

-- What connect() leaves of the connection before it: nothing if there was a socket.
def dropped (t : TcpConnection) : TcpConnection := if 0 ≤ t.fd then {} else t

theorem connect_cases (t : TcpConnection) (ip : UInt32) (port : UInt16) (timeoutMs : UInt32)
    (w : World) :
    (∃ fd deadline mid w', 0 ≤ fd ∧ World.Hushed w mid ∧ w'.log = .connect fd :: mid.log ∧
      t.connect ip port timeoutMs w =
        (.pending,{fd := fd, remoteIp := ip, remotePort := port, deadline := deadline,
                   state := .pending},w')) ∨
    ∃ st w', st ≠ .pending ∧ World.Hushed w w' ∧
      t.connect ip port timeoutMs w = (st,t.dropped,w') := by
  have hdrop : ∃ w0, World.Hushed w w0 ∧
      (if 0 ≤ t.fd then t.close w else (t,w)) = (t.dropped,w0) := by
    by_cases h : 0 ≤ t.fd
    · exact ⟨_,t.close_hushed w,by simp [h,dropped,close]⟩
    · exact ⟨w,World.Hushed.refl w,by simp [h,dropped]⟩
  obtain ⟨w0,h0,heq⟩ := hdrop
  have hsocket := h0.trans (World.lwipSocket_hushed w0)
  have hflags := hsocket.trans (World.lwipFcntl_hushed _)
  have hmode := hflags.trans (World.lwipFcntl_hushed _)
  have hasked := hmode.trans (World.lwipConnect_hushed _)
  simp only [connect,heq]
  by_cases hadr : ip = 0 ∨ port = 0
  · exact Or.inr ⟨.invalidArg,w0,by simp,h0,by rw [if_pos hadr]⟩
  rw [if_neg hadr]
  by_cases hfd : w0.lwipSocket.1 < 0
  · exact Or.inr ⟨.error,_,by simp,hsocket,by rw [if_pos hfd]⟩
  rw [if_neg hfd]
  by_cases hget : w0.lwipSocket.2.lwipFcntl.1 < 0
  · exact Or.inr ⟨.error,_,by simp,hflags.trans (World.lwipClose_hushed _ _),by rw [if_pos hget]⟩
  rw [if_neg hget]
  by_cases hset : w0.lwipSocket.2.lwipFcntl.2.lwipFcntl.1 < 0
  · exact Or.inr ⟨.error,_,by simp,hmode.trans (World.lwipClose_hushed _ _),by rw [if_pos hset]⟩
  rw [if_neg hset]
  split
  · exact Or.inr ⟨.error,_,by simp,hasked.trans (World.lwipClose_hushed _ _),rfl⟩
  · exact Or.inl ⟨_,_,_,_,by omega,hasked,rfl,rfl⟩

theorem poll_cases (t : TcpConnection) (w : World) : ∃ st t' w', t.poll w = (st,t',w') ∧
    World.Hushed w w' ∧
      (t' = t ∧ (st = .closed ∧ t.fd < 0 ∨ st = .ok ∧ t.state = .ok ∨ st = .pending) ∨
        t' = {t with state := .ok} ∧ st = .ok ∧ 0 ≤ t.fd ∨
          t' = {} ∧ (st = .error ∨ st = .timeout)) := by
  have hselect := World.lwipSelect_hushed w
  have hopt := hselect.trans (World.lwipGetsockopt_hushed _)
  simp only [poll]
  by_cases hfd : t.fd < 0
  · exact ⟨_,_,_,by rw [if_pos hfd],World.Hushed.refl w,Or.inl ⟨rfl,Or.inl ⟨rfl,hfd⟩⟩⟩
  rw [if_neg hfd]
  by_cases hst : t.state = .ok
  · exact ⟨_,_,_,by rw [if_pos hst],World.Hushed.refl w,Or.inl ⟨rfl,Or.inr (Or.inl ⟨rfl,hst⟩)⟩⟩
  rw [if_neg hst]
  split_ifs with hneg hzero hlate
  · exact ⟨_,_,_,rfl,hselect.trans (close_hushed t _),Or.inr (Or.inr ⟨rfl,Or.inl rfl⟩)⟩
  · exact ⟨_,_,_,rfl,(hselect.trans (World.millis_hushed _)).trans (close_hushed t _),
      Or.inr (Or.inr ⟨rfl,Or.inr rfl⟩)⟩
  · exact ⟨_,_,_,rfl,hselect.trans (World.millis_hushed _),Or.inl ⟨rfl,Or.inr (Or.inr rfl)⟩⟩
  · rcases hopt' : w.lwipSelect.2.lwipGetsockopt with ⟨answer,w'⟩
    rw [hopt'] at hopt
    cases answer with
    | error e => exact ⟨_,_,_,rfl,hopt.trans (close_hushed t _),Or.inr (Or.inr ⟨rfl,Or.inl rfl⟩)⟩
    | ok err =>
      by_cases herr : err = 0
      · exact ⟨_,_,_,if_pos herr,hopt,Or.inr (Or.inl ⟨rfl,rfl,by omega⟩)⟩
      · exact ⟨_,_,_,if_neg herr,hopt.trans (close_hushed t _),Or.inr (Or.inr ⟨rfl,Or.inl rfl⟩)⟩

def live (t : TcpConnection) : Prop := 0 ≤ t.fd ∧ t.state = .ok

theorem read_cases (t : TcpConnection) {length : Nat} (hlen : 0 < length) (w : World) :
    (∃ w', t.read length w = (.ok [],t,w') ∧ w'.log = w.log) ∨
    (∃ got w', got ≠ [] ∧ got.length ≤ length ∧ t.live ∧ t.read length w = (.ok got,t,w') ∧
      w'.log = .recv t.fd got :: w.log) ∨
    (∃ w', t.live ∧ t.read length w = (.error .closed,{t with state := .closed},w') ∧
      w'.log = .recv t.fd [] :: w.log) ∨
    ∃ st w', (st = .closed ∨ st = .error) ∧ t.read length w = (.error st,t,w') ∧
      w'.log = w.log := by
  simp only [read]
  by_cases hdead : t.fd < 0 ∨ t.state ≠ .ok
  · exact Or.inr (Or.inr (Or.inr ⟨.closed,w,Or.inl rfl,by rw [if_pos hdead],rfl⟩))
  rw [if_neg hdead,if_neg (by omega)]
  have hlive : t.live := by
    rw [not_or,not_not] at hdead
    exact ⟨by omega,hdead.2⟩
  rcases hscript : w.script.recvs.headD (.error .ewouldblock) with e | bs
  · simp only [World.lwipRecv,hscript]
    by_cases hwait : e = .ewouldblock ∨ e = .eagain
    · exact Or.inl ⟨_,if_pos hwait,by rfl⟩
    · exact Or.inr (Or.inr (Or.inr ⟨.error,_,Or.inr rfl,if_neg hwait,by rfl⟩))
  · simp only [World.lwipRecv,hscript]
    rcases hgot : bs.take length with _ | ⟨b,got⟩
    · exact Or.inr (Or.inr (Or.inl ⟨_,hlive,rfl,rfl⟩))
    · have hle : (b :: got).length ≤ length := by rw [← hgot]; exact List.length_take_le _ _
      exact Or.inr (Or.inl ⟨b :: got,_,by simp,hle,hlive,rfl,rfl⟩)

theorem write_cases (t : TcpConnection) (buffer : List UInt8) (off : Nat) {length : Nat}
    (hlen : 0 < length) (w : World) :
    (∃ w', t.write buffer off length w = (.ok 0,t,w') ∧ w'.log = w.log) ∨
    (∃ n w', 0 < n ∧ n ≤ length ∧ t.live ∧ t.write buffer off length w = (.ok n,t,w') ∧
      w'.log = .send t.fd ⟨buffer,off,n⟩ :: w.log) ∨
    ∃ st t' w', (st = .closed ∨ st = .error) ∧
      (t' = t ∨ t.live ∧ t' = {t with state := .closed}) ∧
        t.write buffer off length w = (.error st,t',w') ∧ w'.log = w.log := by
  simp only [write]
  by_cases hdead : t.fd < 0 ∨ t.state ≠ .ok
  · exact Or.inr (Or.inr ⟨.closed,t,w,Or.inl rfl,Or.inl rfl,by rw [if_pos hdead],rfl⟩)
  rw [if_neg hdead,if_neg (by omega)]
  have hlive : t.live := by
    rw [not_or,not_not] at hdead
    exact ⟨by omega,hdead.2⟩
  rcases hscript : w.script.sends.headD (.error .ewouldblock) with e | n
  · simp only [World.lwipSend,hscript]
    by_cases hwait : e = .ewouldblock ∨ e = .eagain
    · exact Or.inl ⟨_,if_pos hwait,by rfl⟩
    rw [if_neg hwait]
    by_cases hgone : e = .epipe ∨ e = .econnreset
    · exact Or.inr (Or.inr ⟨.closed,_,_,Or.inl rfl,Or.inr ⟨hlive,rfl⟩,if_pos hgone,by rfl⟩)
    · exact Or.inr (Or.inr ⟨.error,t,_,Or.inr rfl,Or.inl rfl,if_neg hgone,by rfl⟩)
  · simp only [World.lwipSend,hscript]
    rcases Nat.eq_zero_or_pos (min n length) with hzero | hpos
    · exact Or.inl ⟨_,by rw [hzero],by simp⟩
    · exact Or.inr (Or.inl ⟨min n length,_,hpos,Nat.min_le_right _ _,hlive,rfl,
        by rw [if_neg (by omega)]; rfl⟩)

end TcpConnection

end ControlLogix
