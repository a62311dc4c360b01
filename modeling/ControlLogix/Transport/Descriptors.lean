import ControlLogix.Library.Custody
import ControlLogix.Transport.Closing

namespace ControlLogix

open Custody

-- The lwIP calls with the descriptor each is given.
structure Lwip where
  world : World
  uses : List (Use Int)

namespace Lwip

def millis (b : Lwip) : UInt32 × Lwip :=
  let (now,w) := b.world.millis
  (now,{b with world := w})

def note (b : Lwip) (e : Event) : Lwip := {b with world := b.world.note e}

def socket (b : Lwip) : Int × Lwip :=
  let (fd,w) := b.world.lwipSocket
  (fd,{world := w, uses := (if fd < 0 then .refused else .acquired fd) :: b.uses})

def fcntl (fd : Int) (b : Lwip) : Int × Lwip :=
  let (rc,w) := b.world.lwipFcntl
  (rc,{world := w, uses := .used fd :: b.uses})

def connect (fd : Int) (b : Lwip) : Except Errno Unit × Lwip :=
  let (rc,w) := b.world.lwipConnect
  (rc,{world := w, uses := .used fd :: b.uses})

def select (fd : Int) (b : Lwip) : Int × Lwip :=
  let (rc,w) := b.world.lwipSelect
  (rc,{world := w, uses := .used fd :: b.uses})

def getsockopt (fd : Int) (b : Lwip) : Except Errno Int × Lwip :=
  let (rc,w) := b.world.lwipGetsockopt
  (rc,{world := w, uses := .used fd :: b.uses})

def recv (fd : Int) (length : Nat) (b : Lwip) : Except Errno (List UInt8) × Lwip :=
  let (rc,w) := b.world.lwipRecv fd length
  (rc,{world := w, uses := .used fd :: b.uses})

def send (fd : Int) (buffer : List UInt8) (off length : Nat) (b : Lwip) :
    Except Errno Nat × Lwip :=
  let (rc,w) := b.world.lwipSend fd buffer off length
  (rc,{world := w, uses := .used fd :: b.uses})

def close (fd : Int) (b : Lwip) : Lwip :=
  {world := b.world.lwipClose fd, uses := .released fd :: b.uses}

def forget {A : Type} (r : A × TcpConnection × Lwip) : A × TcpConnection × World :=
  (r.1,r.2.1,r.2.2.world)

def Holding (o : Option Int) (b : Lwip) : Prop := Orderly b.uses ∧ held b.uses = o

variable {o : Option Int} {fd : Int} {b : Lwip}

theorem Holding.asked (h : Holding none b) :
    Holding (if b.socket.1 < 0 then none else some b.socket.1) b.socket.2 := by
  by_cases hfd : b.socket.1 < 0
  · have huses : b.socket.2.uses = .refused :: b.uses := congrArg (· :: b.uses) (if_pos hfd)
    rw [if_pos hfd,Holding,huses]
    exact ⟨⟨h.2,h.1⟩,h.2⟩
  · have huses : b.socket.2.uses = .acquired b.socket.1 :: b.uses :=
      congrArg (· :: b.uses) (if_neg hfd)
    rw [if_neg hfd,Holding,huses]
    exact ⟨⟨h.2,h.1⟩,rfl⟩

theorem Holding.used (h : Holding (some fd) b) (w : World) :
    Holding (some fd) {world := w, uses := .used fd :: b.uses} := ⟨⟨h.2,h.1⟩,h.2⟩

theorem Holding.closed (h : Holding (some fd) b) : Holding none (b.close fd) := ⟨⟨h.2,h.1⟩,rfl⟩

end Lwip

namespace TcpConnection

open Lwip

def closeOn (t : TcpConnection) (b : Lwip) : TcpConnection × Lwip :=
  ({},if 0 ≤ t.fd then b.close t.fd else b)

def connectOn (t : TcpConnection) (ip : UInt32) (port : UInt16) (timeoutMs : UInt32) (b : Lwip) :
    Status × TcpConnection × Lwip :=
  let (t,b) := if 0 ≤ t.fd then t.closeOn b else (t,b)
  if ip = 0 ∨ port = 0 then (.invalidArg,t,b)
  else
    let (fd,b) := b.socket
    if fd < 0 then (.error,t,b)
    else
      let (flags,b) := b.fcntl fd
      if flags < 0 then (.error,t,b.close fd)
      else
        let (rc,b) := b.fcntl fd
        if rc < 0 then (.error,t,b.close fd)
        else
          let (rc,b) := b.connect fd
          if rc ≠ .ok () ∧ rc ≠ .error .einprogress then (.error,t,b.close fd)
          else
            let b := b.note (.connect fd)
            let (now,b) := b.millis
            (.pending,
              {fd := fd, remoteIp := ip, remotePort := port, deadline := now + timeoutMs,
               state := .pending},b)

def pollOn (t : TcpConnection) (b : Lwip) : Status × TcpConnection × Lwip :=
  if t.fd < 0 then (.closed,t,b)
  else if t.state = .ok then (.ok,t,b)
  else
    let (rc,b) := b.select t.fd
    if rc < 0 then (.error,t.closeOn b)
    else if rc = 0 then
      let (now,b) := b.millis
      if expired now t.deadline then (.timeout,t.closeOn b) else (.pending,t,b)
    else
      match b.getsockopt t.fd with
      | (.error _,b) => (.error,t.closeOn b)
      | (.ok err,b) => if err = 0 then (.ok,{t with state := .ok},b) else (.error,t.closeOn b)

def readOn (t : TcpConnection) (length : Nat) (b : Lwip) :
    Except Status (List UInt8) × TcpConnection × Lwip :=
  if t.fd < 0 ∨ t.state ≠ .ok then (.error .closed,t,b)
  else if length = 0 then (.error .invalidArg,t,b)
  else
    match b.recv t.fd length with
    | (.ok [],b) => (.error .closed,{t with state := .closed},b)
    | (.ok got,b) => (.ok got,t,b)
    | (.error e,b) => if e = .ewouldblock ∨ e = .eagain then (.ok [],t,b) else (.error .error,t,b)

def writeOn (t : TcpConnection) (buffer : List UInt8) (off length : Nat) (b : Lwip) :
    Except Status Nat × TcpConnection × Lwip :=
  if t.fd < 0 ∨ t.state ≠ .ok then (.error .closed,t,b)
  else if length = 0 then (.error .invalidArg,t,b)
  else
    match b.send t.fd buffer off length with
    | (.ok n,b) => (.ok n,t,b)
    | (.error e,b) =>
      if e = .ewouldblock ∨ e = .eagain then (.ok 0,t,b)
      else if e = .epipe ∨ e = .econnreset then (.error .closed,{t with state := .closed},b)
      else (.error .error,t,b)

theorem closeOn_world (t : TcpConnection) (b : Lwip) :
    ((t.closeOn b).1,(t.closeOn b).2.world) = t.close b.world := by
  simp only [closeOn,close]
  split <;> rfl

theorem connectOn_forget (t : TcpConnection) (ip : UInt32) (port : UInt16) (timeoutMs : UInt32)
    (b : Lwip) :
    forget (t.connectOn ip port timeoutMs b) = t.connect ip port timeoutMs b.world := by
  have hdrop : (if 0 ≤ t.fd then t.close b.world else (t,b.world)) =
      ((if 0 ≤ t.fd then t.closeOn b else (t,b)).1,
        (if 0 ≤ t.fd then t.closeOn b else (t,b)).2.world) := by
    split
    · exact (t.closeOn_world b).symm
    · rfl
  simp only [connectOn,connect,hdrop]
  generalize (if 0 ≤ t.fd then t.closeOn b else (t,b)) = r
  simp only [Lwip.socket,Lwip.fcntl,Lwip.connect,Lwip.millis,Lwip.note,Lwip.close]
  split_ifs <;> rfl

theorem pollOn_forget (t : TcpConnection) (b : Lwip) :
    forget (t.pollOn b) = t.poll b.world := by
  simp only [pollOn,poll]
  by_cases hfd : t.fd < 0
  · rw [if_pos hfd,if_pos hfd]
    rfl
  rw [if_neg hfd,if_neg hfd]
  by_cases hok : t.state = .ok
  · rw [if_pos hok,if_pos hok]
    rfl
  rw [if_neg hok,if_neg hok]
  by_cases hneg : b.world.lwipSelect.1 < 0
  · rw [if_pos (show (b.select t.fd).1 < 0 from hneg),if_pos hneg]
    exact congrArg (Prod.mk Status.error) (t.closeOn_world _)
  rw [if_neg (show ¬ (b.select t.fd).1 < 0 from hneg),if_neg hneg]
  by_cases hzero : b.world.lwipSelect.1 = 0
  · rw [if_pos (show (b.select t.fd).1 = 0 from hzero),if_pos hzero]
    by_cases hlate : expired b.world.lwipSelect.2.millis.1 t.deadline = true
    · rw [if_pos (show expired (b.select t.fd).2.millis.1 t.deadline = true from hlate),
        if_pos hlate]
      exact congrArg (Prod.mk Status.timeout) (t.closeOn_world _)
    · rw [if_neg (show ¬ expired (b.select t.fd).2.millis.1 t.deadline = true from hlate),
        if_neg hlate]
      rfl
  rw [if_neg (show ¬ (b.select t.fd).1 = 0 from hzero),if_neg hzero]
  simp only [Lwip.select,Lwip.getsockopt]
  rcases b.world.lwipSelect.2.lwipGetsockopt with ⟨_ | err,w⟩
  · exact congrArg (Prod.mk Status.error) (t.closeOn_world _)
  · by_cases herr : err = 0
    · simp only [if_pos herr]
      rfl
    · simp only [if_neg herr]
      exact congrArg (Prod.mk Status.error) (t.closeOn_world _)

theorem readOn_forget (t : TcpConnection) (length : Nat) (b : Lwip) :
    forget (t.readOn length b) = t.read length b.world := by
  simp only [readOn,read,Lwip.recv]
  split_ifs
  · rfl
  · rfl
  · rcases b.world.lwipRecv t.fd length with ⟨e | got,w⟩
    · simp only
      split <;> rfl
    · cases got <;> rfl

theorem writeOn_forget (t : TcpConnection) (buffer : List UInt8) (off length : Nat) (b : Lwip) :
    forget (t.writeOn buffer off length b) = t.write buffer off length b.world := by
  simp only [writeOn,write,Lwip.send]
  split_ifs
  · rfl
  · rfl
  · rcases b.world.lwipSend t.fd buffer off length with ⟨e | got,w⟩
    · simp only
      split_ifs <;> rfl
    · rfl

def callOn (t : TcpConnection) (b : Lwip) : Call → Answer × TcpConnection × Lwip
  | .connect ip port timeoutMs =>
    let (st,t,b) := t.connectOn ip port timeoutMs b
    (.connect st,t,b)
  | .poll =>
    let (st,t,b) := t.pollOn b
    (.poll st,t,b)
  | .read length =>
    let (r,t,b) := t.readOn length b
    (.read r,t,b)
  | .write buffer off length =>
    let (r,t,b) := t.writeOn buffer off length b
    (.write r,t,b)
  | .close => (.close,t.closeOn b)

def stepOn (s : TcpConnection × Lwip) (l : Heard Call) : TcpConnection × Lwip :=
  (s.1.callOn {s.2 with world := s.2.world.hear l.script} l.call).2

def afterOn (time : Nat) (ls : List (Heard Call)) : TcpConnection × Lwip :=
  Runs.run stepOn ({},{world := {time := time, script := {}, log := []}, uses := []}) ls

theorem callOn_forget (t : TcpConnection) (b : Lwip) (call : Call) :
    forget (t.callOn b call) = t.call b.world call := by
  cases call with
  | connect ip port timeoutMs =>
    simp only [callOn,TcpConnection.call,← connectOn_forget]
    rfl
  | poll =>
    simp only [callOn,TcpConnection.call,← pollOn_forget]
    rfl
  | read length =>
    simp only [callOn,TcpConnection.call,← readOn_forget]
    rfl
  | write buffer off length =>
    simp only [callOn,TcpConnection.call,← writeOn_forget]
    rfl
  | close => exact congrArg (Prod.mk Answer.close) (t.closeOn_world b)

theorem stepOn_forget (s : TcpConnection × Lwip) (l : Heard Call) :
    ((stepOn s l).1,(stepOn s l).2.world) = step (s.1,s.2.world) l := by
  have h := s.1.callOn_forget {s.2 with world := s.2.world.hear l.script} l.call
  exact congrArg Prod.snd h

theorem runOn_forget (s : TcpConnection × Lwip) (ls : List (Heard Call)) :
    ((Runs.run stepOn s ls).1,(Runs.run stepOn s ls).2.world) =
      Runs.run step (s.1,s.2.world) ls := by
  induction ls generalizing s with
  | nil => rfl
  | cons l ls ih => rw [Runs.run_cons,Runs.run_cons,ih,stepOn_forget]

def socket (t : TcpConnection) : Option Int := if 0 ≤ t.fd then some t.fd else none

-- Between calls the socket in fd_ is the one that is held, and an established connection has one.
def Owned (s : TcpConnection × Lwip) : Prop :=
  Holding s.1.socket s.2 ∧ (s.1.state = .ok → 0 ≤ s.1.fd)

variable {t : TcpConnection} {b : Lwip}

theorem socket_some (h : 0 ≤ t.fd) : t.socket = some t.fd := if_pos h

theorem socket_none (h : t.fd < 0) : t.socket = none := if_neg (by omega)

theorem owned_close (h : Holding t.socket b) : Owned (t.closeOn b) := by
  refine ⟨?_,fun hok => (by cases hok)⟩
  simp only [closeOn]
  by_cases hfd : 0 ≤ t.fd
  · rw [if_pos hfd]
    rw [socket_some hfd] at h
    exact h.closed
  · rw [if_neg hfd]
    rw [socket_none (by omega)] at h
    exact h

theorem owned_connect (h : Owned (t,b)) (ip : UInt32) (port : UInt16) (timeoutMs : UInt32) :
    Owned (t.connectOn ip port timeoutMs b).2 := by
  have hdrop : Owned (if 0 ≤ t.fd then t.closeOn b else (t,b)) ∧
      (if 0 ≤ t.fd then t.closeOn b else (t,b)).1.socket = none := by
    by_cases hfd : 0 ≤ t.fd
    · rw [if_pos hfd]
      exact ⟨owned_close h.1,rfl⟩
    · rw [if_neg hfd]
      exact ⟨h,socket_none (Int.not_le.mp hfd)⟩
  simp only [connectOn]
  generalize (if 0 ≤ t.fd then t.closeOn b else (t,b)) = r at hdrop ⊢
  obtain ⟨t,b⟩ := r
  obtain ⟨hown,hnone⟩ := hdrop
  -- On every exit that gives up, the socket obtained here is closed and fd_ is as it was.
  have hgive {fd : Int} {b' : Lwip} (hb : Holding (some fd) b') : Owned (t,b'.close fd) := by
    refine ⟨?_,hown.2⟩
    simp only [hnone]
    exact hb.closed
  have hempty : Holding none b := by
    rw [← hnone]
    exact hown.1
  simp only
  split_ifs with hadr hfd hget hset hrc
  · exact hown
  · refine ⟨?_,hown.2⟩
    have hasked := hempty.asked
    rw [if_pos hfd] at hasked
    simpa only [hnone] using hasked
  all_goals
    have hasked := hempty.asked
    rw [if_neg hfd] at hasked
    have hgot := hasked.used b.socket.2.world.lwipFcntl.2
  · exact hgive hgot
  all_goals have hmode := hgot.used (b.socket.2.fcntl b.socket.1).2.world.lwipFcntl.2
  · exact hgive hmode
  all_goals
    have hdone := hmode.used
      ((b.socket.2.fcntl b.socket.1).2.fcntl b.socket.1).2.world.lwipConnect.2
  · exact hgive hdone
  · refine ⟨?_,fun hok => (by cases hok)⟩
    rw [socket_some (by simpa using hfd)]
    exact hdone

theorem Owned.used (h : Owned (t,b)) (hfd : 0 ≤ t.fd) (w : World) :
    Owned (t,{world := w, uses := .used t.fd :: b.uses}) := by
  have hheld := h.1
  simp only [socket_some hfd] at hheld
  refine ⟨?_,h.2⟩
  simp only [socket_some hfd]
  exact hheld.used w

theorem owned_poll (h : Owned (t,b)) : Owned (t.pollOn b).2 := by
  simp only [pollOn]
  by_cases hdead : t.fd < 0
  · rw [if_pos hdead]
    exact h
  rw [if_neg hdead]
  have hfd : 0 ≤ t.fd := by omega
  have hselect := h.used hfd b.world.lwipSelect.2
  have hopt := hselect.used hfd b.world.lwipSelect.2.lwipGetsockopt.2
  split_ifs with hok hneg hzero hlate
  · exact h
  · exact owned_close hselect.1
  · exact owned_close hselect.1
  · exact hselect
  · simp only [Lwip.getsockopt]
    rcases (b.select t.fd).2.world.lwipGetsockopt.1 with _ | err
    · exact owned_close hopt.1
    · by_cases herr : err = 0
      · simp only [if_pos herr]
        exact ⟨hopt.1,fun _ => hfd⟩
      · simp only [if_neg herr]
        exact owned_close hopt.1

theorem owned_read (h : Owned (t,b)) (length : Nat) : Owned (t.readOn length b).2 := by
  simp only [readOn]
  by_cases hdead : t.fd < 0 ∨ t.state ≠ .ok
  · rw [if_pos hdead]
    exact h
  rw [if_neg hdead]
  have hused := h.used (by omega) (b.world.lwipRecv t.fd length).2
  split_ifs with hlen
  · exact h
  simp only [Lwip.recv]
  rcases (b.world.lwipRecv t.fd length).1 with e | _ | ⟨c,got⟩
  · simp only
    split
    · exact hused
    · exact hused
  · exact ⟨hused.1,fun hok => (by cases hok)⟩
  · exact hused

theorem owned_write (h : Owned (t,b)) (buffer : List UInt8) (off length : Nat) :
    Owned (t.writeOn buffer off length b).2 := by
  simp only [writeOn]
  by_cases hdead : t.fd < 0 ∨ t.state ≠ .ok
  · rw [if_pos hdead]
    exact h
  rw [if_neg hdead]
  have hused := h.used (by omega) (b.world.lwipSend t.fd buffer off length).2
  split_ifs with hlen
  · exact h
  simp only [Lwip.send]
  rcases (b.world.lwipSend t.fd buffer off length).1 with e | k
  · simp only
    split_ifs
    · exact hused
    · exact ⟨hused.1,fun hok => (by cases hok)⟩
    · exact hused
  · exact hused

theorem owned_step {s : TcpConnection × Lwip} (h : Owned s) (l : Heard Call) :
    Owned (stepOn s l) := by
  obtain ⟨call,script⟩ := l
  have hheard : Owned (s.1,{s.2 with world := s.2.world.hear script}) := h
  cases call with
  | connect ip port timeoutMs => exact owned_connect hheard ip port timeoutMs
  | poll => exact owned_poll hheard
  | read length => exact owned_read hheard length
  | write buffer off length => exact owned_write hheard buffer off length
  | close => exact owned_close hheard.1

theorem owned_start (time : Nat) :
    Owned ({},{world := {time := time, script := {}, log := []}, uses := []}) :=
  ⟨⟨trivial,rfl⟩,fun hok => (by cases hok)⟩

theorem owned_after (time : Nat) (ls : List (Heard Call)) : Owned (afterOn time ls) :=
  @Runs.invariant_always _ _ stepOn Owned (fun _ l h => owned_step h l) _ (owned_start time) ls

-- The destructor is close().
theorem descriptors_are_kept (time : Nat) (ls : List (Heard Call)) :
    let s := afterOn time ls
    (s.1,s.2.world) = after time ls ∧ Orderly s.2.uses ∧ held s.2.uses = s.1.socket ∧
      (s.1.connected = true → held s.2.uses = some s.1.fd) ∧
        ∃ stays : List (Stay Int), (s.1.closeOn s.2).2.uses = stays.flatMap Stay.log := by
  intro s
  obtain ⟨hholding,hfd⟩ := owned_after time ls
  refine ⟨runOn_forget _ ls,hholding.1,hholding.2,?_,?_⟩
  · intro hconn
    rw [hholding.2]
    exact socket_some (hfd (by simpa [connected] using hconn))
  · have hclosed := owned_close hholding
    exact settled_iff.mp hclosed.1

end TcpConnection

end ControlLogix
