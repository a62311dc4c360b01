import ControlLogix.Eip.Session
import ControlLogix.Tag
import ControlLogix.Transport.Client

namespace ControlLogix

namespace World

def under (w : World) (past : List Event) : World := {w with log := w.log ++ past}

variable (w : World) (past : List Event)

@[simp] theorem millis_under :
    (w.under past).millis = (w.millis.1,w.millis.2.under past) := rfl

@[simp] theorem lwipSocket_under :
    (w.under past).lwipSocket = (w.lwipSocket.1,w.lwipSocket.2.under past) := by
  by_cases hfd : w.script.sockets.headD (-1) < 0
  · simp only [lwipSocket,under,hfd,if_true]
  · simp only [lwipSocket,under,hfd,if_false]
    rfl

@[simp] theorem lwipFcntl_under :
    (w.under past).lwipFcntl = (w.lwipFcntl.1,w.lwipFcntl.2.under past) := by
  simp only [lwipFcntl,under]

@[simp] theorem lwipConnect_under :
    (w.under past).lwipConnect = (w.lwipConnect.1,w.lwipConnect.2.under past) := by
  simp only [lwipConnect,under]

@[simp] theorem lwipSelect_under :
    (w.under past).lwipSelect = (w.lwipSelect.1,w.lwipSelect.2.under past) := rfl

@[simp] theorem lwipGetsockopt_under :
    (w.under past).lwipGetsockopt = (w.lwipGetsockopt.1,w.lwipGetsockopt.2.under past) := rfl

@[simp] theorem lwipSend_under (fd : Int) (buffer : List UInt8) (off length : Nat) :
    (w.under past).lwipSend fd buffer off length =
      ((w.lwipSend fd buffer off length).1,(w.lwipSend fd buffer off length).2.under past) := by
  simp only [lwipSend,under]
  cases w.script.sends.headD (.error .ewouldblock) with
  | error e => rfl
  | ok n =>
    by_cases hnone : min n length = 0
    · simp [hnone]
    · simp [hnone,note]

@[simp] theorem lwipRecv_under (fd : Int) (length : Nat) :
    (w.under past).lwipRecv fd length =
      ((w.lwipRecv fd length).1,(w.lwipRecv fd length).2.under past) := by
  simp only [lwipRecv,under]
  cases w.script.recvs.headD (.error .ewouldblock) <;> rfl

@[simp] theorem ethBegin_under :
    (w.under past).ethBegin = (w.ethBegin.1,w.ethBegin.2.under past) := rfl

@[simp] theorem ethConfig_under :
    (w.under past).ethConfig = (w.ethConfig.1,w.ethConfig.2.under past) := rfl

@[simp] theorem ethLink_under :
    (w.under past).ethLink = (w.ethLink.1,w.ethLink.2.under past) := rfl

end World

namespace TcpConnection

variable (t : TcpConnection) (w : World) (past : List Event)

@[simp] theorem close_under :
    t.close (w.under past) = ((t.close w).1,(t.close w).2.under past) := by
  simp only [close]
  split <;> rfl

@[simp] theorem connect_under (ip : UInt32) (port : UInt16) (timeoutMs : UInt32) :
    t.connect ip port timeoutMs (w.under past) =
      ((t.connect ip port timeoutMs w).1,(t.connect ip port timeoutMs w).2.1,
        (t.connect ip port timeoutMs w).2.2.under past) := by
  have hdrop : (if 0 ≤ t.fd then t.close (w.under past) else (t,w.under past)) =
      ((if 0 ≤ t.fd then t.close w else (t,w)).1,
        (if 0 ≤ t.fd then t.close w else (t,w)).2.under past) := by
    split
    · exact t.close_under w past
    · rfl
  simp only [connect,hdrop]
  generalize (if 0 ≤ t.fd then t.close w else (t,w)) = r
  obtain ⟨t',w'⟩ := r
  simp only [World.lwipSocket_under,World.lwipFcntl_under,World.lwipConnect_under]
  split_ifs <;> rfl

@[simp] theorem poll_under :
    t.poll (w.under past) = ((t.poll w).1,(t.poll w).2.1,(t.poll w).2.2.under past) := by
  simp only [poll]
  rw [World.lwipSelect_under]
  by_cases hfd : t.fd < 0
  · rw [if_pos hfd,if_pos hfd]
  rw [if_neg hfd,if_neg hfd]
  by_cases hst : t.state = .ok
  · rw [if_pos hst,if_pos hst]
  rw [if_neg hst,if_neg hst]
  generalize w.lwipSelect = r
  obtain ⟨rc,w'⟩ := r
  simp only
  by_cases hneg : rc < 0
  · rw [if_pos hneg,if_pos hneg,close_under]
  rw [if_neg hneg,if_neg hneg]
  by_cases hzero : rc = 0
  · rw [if_pos hzero,if_pos hzero]
    rw [World.millis_under]
    by_cases hlate : expired w'.millis.1 t.deadline = true
    · rw [if_pos hlate,if_pos hlate,close_under]
    · rw [if_neg hlate,if_neg hlate]
  rw [if_neg hzero,if_neg hzero,World.lwipGetsockopt_under]
  rcases w'.lwipGetsockopt with ⟨e | err,v⟩
  · simp only [close_under]
  · by_cases herr : err = 0
    · simp only [herr,if_true]
    · simp only [herr,if_false,close_under]

@[simp] theorem read_under (length : Nat) : t.read length (w.under past) =
    ((t.read length w).1,(t.read length w).2.1,(t.read length w).2.2.under past) := by
  simp only [read,World.lwipRecv_under]
  split_ifs
  · rfl
  · rfl
  · rcases w.lwipRecv t.fd length with ⟨e | got,w'⟩
    · simp only
      split_ifs <;> rfl
    · cases got <;> rfl

@[simp] theorem write_under (buffer : List UInt8) (off length : Nat) :
    t.write buffer off length (w.under past) =
      ((t.write buffer off length w).1,(t.write buffer off length w).2.1,
        (t.write buffer off length w).2.2.under past) := by
  simp only [write,World.lwipSend_under]
  split_ifs
  · rfl
  · rfl
  · rcases w.lwipSend t.fd buffer off length with ⟨e | k,w'⟩
    · simp only
      split_ifs <;> rfl
    · rfl

end TcpConnection

namespace Transfer

variable (past : List Event)

theorem writeLoop_under (fuel : Nat) (x : Transfer) (t : TcpConnection) (w : World) :
    writeLoop fuel x t (w.under past) =
      ((writeLoop fuel x t w).1,(writeLoop fuel x t w).2.1,(writeLoop fuel x t w).2.2.1,
        (writeLoop fuel x t w).2.2.2.under past) := by
  induction fuel generalizing x t w with
  | zero => rfl
  | succ fuel ih =>
    simp only [writeLoop,TcpConnection.write_under]
    split_ifs
    · rcases t.write x.tx x.txSent (x.tx.length - x.txSent) w with ⟨e | k,t',w'⟩
      · rfl
      · cases k with
        | zero => rfl
        | succ k => exact ih _ _ _
    · rfl

@[simp] theorem writePending_under (x : Transfer) (t : TcpConnection) (w : World) :
    x.writePending t (w.under past) =
      ((x.writePending t w).1,(x.writePending t w).2.1,(x.writePending t w).2.2.1,
        (x.writePending t w).2.2.2.under past) :=
  writeLoop_under past _ x t w

theorem readLoop_under (cap fuel : Nat) (x : Transfer) (t : TcpConnection) (w : World) :
    readLoop cap fuel x t (w.under past) =
      ((readLoop cap fuel x t w).1,(readLoop cap fuel x t w).2.1,(readLoop cap fuel x t w).2.2.1,
        (readLoop cap fuel x t w).2.2.2.under past) := by
  induction fuel generalizing x t w with
  | zero => rfl
  | succ fuel ih =>
    simp only [readLoop,TcpConnection.read_under]
    split_ifs
    · rcases t.read (x.rxExpected - x.rx.length) w with ⟨e | got,t',w'⟩
      · rfl
      · cases got with
        | nil => rfl
        | cons b bs =>
          simp only
          split_ifs
          · rfl
          · exact ih _ _ _
          · exact ih _ _ _
    · rfl

@[simp] theorem readResponse_under (cap : Nat) (x : Transfer) (t : TcpConnection) (w : World) :
    x.readResponse cap t (w.under past) =
      ((x.readResponse cap t w).1,(x.readResponse cap t w).2.1,(x.readResponse cap t w).2.2.1,
        (x.readResponse cap t w).2.2.2.under past) :=
  readLoop_under past cap _ x t w

end Transfer

namespace Session

variable (s : Session) (t : TcpConnection) (w : World) (past : List Event)

@[simp] theorem open_under (timeoutMs : UInt32) : s.open t timeoutMs (w.under past) =
    ((s.open t timeoutMs w).1,(s.open t timeoutMs w).2.1,
      (s.open t timeoutMs w).2.2.under past) := by
  simp only [Session.open]
  split_ifs <;> rfl

theorem pollRegistering_under : s.pollRegistering t (w.under past) =
    ((s.pollRegistering t w).1,(s.pollRegistering t w).2.1,(s.pollRegistering t w).2.2.1,
      (s.pollRegistering t w).2.2.2.under past) := by
  simp only [pollRegistering]
  rw [World.millis_under]
  generalize w.millis = r
  obtain ⟨now,w'⟩ := r
  by_cases hlate : expired now s.deadline = true
  · rw [if_pos hlate,if_pos hlate]
  rw [if_neg hlate,if_neg hlate,Transfer.writePending_under]
  generalize s.io.writePending t w' = r
  obtain ⟨st,x,t',w''⟩ := r
  by_cases hst : st ≠ .ok
  · rw [if_pos hst,if_pos hst]
  rw [if_neg hst,if_neg hst,Transfer.readResponse_under]
  split_ifs <;> rfl

theorem pollUnregistering_under : s.pollUnregistering t (w.under past) =
    ((s.pollUnregistering t w).1,(s.pollUnregistering t w).2.1,
      (s.pollUnregistering t w).2.2.1,(s.pollUnregistering t w).2.2.2.under past) := by
  simp only [pollUnregistering]
  rw [World.millis_under]
  generalize w.millis = r
  obtain ⟨now,w'⟩ := r
  by_cases hlate : expired now s.deadline = true
  · rw [if_pos hlate,if_pos hlate]
  rw [if_neg hlate,if_neg hlate,Transfer.writePending_under]
  generalize s.io.writePending t w' = r
  obtain ⟨st,x,t',w''⟩ := r
  by_cases hst : st ≠ .ok
  · rw [if_pos hst,if_pos hst]
  rw [if_neg hst,if_neg hst,Transfer.readResponse_under]
  split_ifs <;> rfl

@[simp] theorem poll_under : s.poll t (w.under past) =
    ((s.poll t w).1,(s.poll t w).2.1,(s.poll t w).2.2.1,(s.poll t w).2.2.2.under past) := by
  simp only [poll]
  cases s.state with
  | registering => exact s.pollRegistering_under t w past
  | unregistering => exact s.pollUnregistering_under t w past
  | idle | registered | closed | failed => rfl

end Session

@[simp] theorem ExplicitMessage.poll_under (m : ExplicitMessage) (t : TcpConnection) (w : World)
    (past : List Event) : m.poll t (w.under past) =
      ((m.poll t w).1,(m.poll t w).2.1,(m.poll t w).2.2.1,(m.poll t w).2.2.2.under past) := by
  simp only [poll]
  cases m.state with
  | idle | done | failed => rfl
  | sending | receiving =>
    simp only
    rw [World.millis_under]
    generalize w.millis = r
    obtain ⟨now,w'⟩ := r
    by_cases hlate : expired now m.deadline = true
    · rw [if_pos hlate,if_pos hlate]
    rw [if_neg hlate,if_neg hlate,Transfer.writePending_under]
    generalize m.io.writePending t w' = r
    obtain ⟨st,x,t',w''⟩ := r
    by_cases hst : st ≠ .ok
    · rw [if_pos hst,if_pos hst]
    rw [if_neg hst,if_neg hst,Transfer.readResponse_under]
    split_ifs <;> rfl

@[simp] theorem Tag.poll_under (g : Tag) (m : ExplicitMessage) (t : TcpConnection) (w : World)
    (past : List Event) : g.poll m t (w.under past) =
      ((g.poll m t w).1,(g.poll m t w).2.1,(g.poll m t w).2.2.1,(g.poll m t w).2.2.2.1,
        (g.poll m t w).2.2.2.2.under past) := by
  simp only [poll]
  by_cases hg : g.state ≠ .reading ∧ g.state ≠ .writing
  · rw [if_pos hg,if_pos hg]
    cases g.state <;> rfl
  rw [if_neg hg,if_neg hg,ExplicitMessage.poll_under]
  split_ifs <;> rfl

namespace Client

variable (c : Client) (w : World) (past : List Event)

@[simp] theorem begin_under : c.begin (w.under past) =
    ((c.begin w).1,(c.begin w).2.1,(c.begin w).2.2.under past) := by
  have hend : (if c.started = true then (w.under past).ethEnd else w.under past) =
      (if c.started = true then w.ethEnd else w).under past := by
    split <;> rfl
  simp only [begin,hend]
  generalize (if c.started = true then w.ethEnd else w) = w'
  rw [World.ethBegin_under]
  generalize w'.ethBegin = r
  obtain ⟨up,w''⟩ := r
  simp only
  rw [World.ethConfig_under]
  split_ifs <;> rfl

@[simp] theorem poll_under : c.poll (w.under past) =
    ((c.poll w).1,(c.poll w).2.1,(c.poll w).2.2.under past) := by
  simp only [poll]
  rw [World.ethLink_under]
  generalize w.ethLink = r
  obtain ⟨up,w'⟩ := r
  simp only
  rw [World.ethLink_under]
  split_ifs <;> rfl

end Client

end ControlLogix
