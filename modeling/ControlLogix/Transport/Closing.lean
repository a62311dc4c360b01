import ControlLogix.Library.Runs
import ControlLogix.Transport.TcpConnection

namespace ControlLogix

namespace TcpConnection

inductive Call where
  | connect (ip : UInt32) (port : UInt16) (timeoutMs : UInt32)
  | poll
  | read (length : Nat)
  | write (buffer : List UInt8) (off length : Nat)
  | close

inductive Answer where
  | connect (st : Status)
  | poll (st : Status)
  | read (r : Except Status (List UInt8))
  | write (r : Except Status Nat)
  | close
  deriving DecidableEq

def call (t : TcpConnection) (w : World) : Call → Answer × TcpConnection × World
  | .connect ip port timeoutMs =>
    let (st,t,w) := t.connect ip port timeoutMs w
    (.connect st,t,w)
  | .poll =>
    let (st,t,w) := t.poll w
    (.poll st,t,w)
  | .read length =>
    let (r,t,w) := t.read length w
    (.read r,t,w)
  | .write buffer off length =>
    let (r,t,w) := t.write buffer off length w
    (.write r,t,w)
  | .close => (.close,t.close w)

def Call.dials : Call → Bool
  | .connect _ _ _ => true
  | _ => false

def answer (s : TcpConnection × World) (l : Heard Call) : Answer :=
  (s.1.call (s.2.hear l.script) l.call).1

def step (s : TcpConnection × World) (l : Heard Call) : TcpConnection × World :=
  (s.1.call (s.2.hear l.script) l.call).2

def after (time : Nat) (ls : List (Heard Call)) : TcpConnection × World :=
  Runs.run step ({},{time := time, script := {}, log := []}) ls

-- A read() or write() on an established connection finds that the peer closed or reset it.
def drops (s : TcpConnection × World) (l : Heard Call) : Bool :=
  0 ≤ s.1.fd && s.1.connected &&
    (answer s l = .read (.error .closed) || answer s l = .write (.error .closed))

-- A poll() that still has the socket finds it writable and without a pending error.
def revives (s : TcpConnection × World) (l : Heard Call) : Bool :=
  match l.call with
  | .poll => 0 ≤ s.1.fd && 0 < l.script.selects.headD 0 &&
      l.script.sockopts.headD (.ok 0) = .ok 0
  | _ => false

def Sticky (s : TcpConnection × World) (ls : List (Heard Call)) : Prop :=
  Runs.Guarded step (fun s l => s.1.connected = false ∧ answer s l ≠ .poll .ok) s ls ∧
    (Runs.run step s ls).1.connected = false

instance (s : TcpConnection × World) (ls : List (Heard Call)) : Decidable (Sticky s ls) :=
  inferInstanceAs (Decidable (_ ∧ _))

variable {s : TcpConnection × World} {l : Heard Call}

theorem drops_closed (h : drops s l = true) : (step s l).1.state = .closed := by
  obtain ⟨call,script⟩ := l
  obtain ⟨⟨hfd,hok⟩,hanswer⟩ : ((0 ≤ s.1.fd ∧ s.1.state = .ok) ∧
      (answer s ⟨call,script⟩ = .read (.error .closed) ∨
        answer s ⟨call,script⟩ = .write (.error .closed))) := by
    simpa [drops,connected] using h
  have hlive : ¬ (s.1.fd < 0 ∨ s.1.state ≠ .ok) := by
    rw [not_or,not_not]
    exact ⟨by omega,hok⟩
  cases call with
  | read length =>
    simp only [answer,step,TcpConnection.call,TcpConnection.read,if_neg hlive] at hanswer ⊢
    by_cases hlen : length = 0
    · simp [hlen] at hanswer
    rw [if_neg hlen] at hanswer ⊢
    generalize (s.2.hear script).lwipRecv s.1.fd length = r at hanswer ⊢
    obtain ⟨_ | got,w⟩ := r
    · simp only at hanswer
      split at hanswer <;> simp at hanswer
    · cases got with
      | nil => rfl
      | cons b got => simp at hanswer
  | write buffer off length =>
    simp only [answer,step,TcpConnection.call,TcpConnection.write,if_neg hlive] at hanswer ⊢
    by_cases hlen : length = 0
    · simp [hlen] at hanswer
    rw [if_neg hlen] at hanswer ⊢
    generalize (s.2.hear script).lwipSend s.1.fd buffer off length = r at hanswer ⊢
    obtain ⟨e | k,w⟩ := r
    · simp only at hanswer ⊢
      split at hanswer
      · simp at hanswer
      split at hanswer
      · next hwait hgone => rw [if_neg hwait,if_pos hgone]
      · simp at hanswer
    · simp at hanswer
  | _ => simp [answer,TcpConnection.call] at hanswer

theorem closed_step (h : s.1.state = .closed) (hcall : l.call.dials = false)
    (hpoll : revives s l = false) : (step s l).1.state = .closed ∧ answer s l ≠ .poll .ok := by
  obtain ⟨call,script⟩ := l
  have hdead : s.1.fd < 0 ∨ s.1.state ≠ .ok := Or.inr (by simp [h])
  cases call with
  | connect ip port timeoutMs => cases hcall
  | read length =>
    simp only [step,answer,TcpConnection.call,TcpConnection.read,if_pos hdead]
    exact ⟨h,by simp⟩
  | write buffer off length =>
    simp only [step,answer,TcpConnection.call,TcpConnection.write,if_pos hdead]
    exact ⟨h,by simp⟩
  | close => exact ⟨rfl,by simp [answer,TcpConnection.call]⟩
  | poll =>
    have hok : s.1.state ≠ .ok := by simp [h]
    simp only [step,answer,TcpConnection.call,TcpConnection.poll,if_neg hok]
    by_cases hfd : s.1.fd < 0
    · rw [if_pos hfd]
      exact ⟨h,by simp⟩
    rw [if_neg hfd]
    by_cases hneg : (s.2.hear script).lwipSelect.1 < 0
    · rw [if_pos hneg]
      exact ⟨rfl,by simp⟩
    rw [if_neg hneg]
    by_cases hzero : (s.2.hear script).lwipSelect.1 = 0
    · rw [if_pos hzero]
      split
      · exact ⟨rfl,by simp⟩
      · exact ⟨h,by simp⟩
    rw [if_neg hzero]
    have hpending : script.sockopts.headD (.ok 0) ≠ .ok 0 := by
      intro hclear
      have hselect : 0 < script.selects.headD 0 := by
        have h1 : ¬ script.selects.headD 0 < 0 := hneg
        have h2 : ¬ script.selects.headD 0 = 0 := hzero
        omega
      simp [revives,-List.headD_eq_head?_getD,hclear,hselect] at hpoll
      omega
    have hopt : (s.2.hear script).lwipSelect.2.lwipGetsockopt.1 ≠ .ok 0 := hpending
    generalize (s.2.hear script).lwipSelect.2.lwipGetsockopt = r at hopt ⊢
    obtain ⟨e | err,w⟩ := r
    · exact ⟨rfl,by simp⟩
    · have herr : err ≠ 0 := fun heq => hopt (by rw [heq])
      simp only [if_neg herr]
      exact ⟨rfl,by simp⟩

theorem revived (h : s.1.state = .closed) (hpoll : revives s l = true) :
    answer s l = .poll .ok := by
  obtain ⟨call,script⟩ := l
  cases call with
  | poll =>
    obtain ⟨⟨hfd,hselect⟩,hclear⟩ : (0 ≤ s.1.fd ∧ 0 < script.selects.headD 0) ∧
        script.sockopts.headD (.ok 0) = .ok 0 := by
      simpa only [revives,Bool.and_eq_true,decide_eq_true_eq] using hpoll
    have hok : s.1.state ≠ .ok := by simp [h]
    have hopt : (s.2.hear script).lwipSelect.2.lwipGetsockopt.1 = .ok 0 := hclear
    have hready : (s.2.hear script).lwipSelect.1 = script.selects.headD 0 := rfl
    simp only [answer,TcpConnection.call,TcpConnection.poll]
    rw [if_neg (by omega),if_neg hok,hready,if_neg (by omega),if_neg (by omega)]
    generalize (s.2.hear script).lwipSelect.2.lwipGetsockopt = r at hopt ⊢
    obtain ⟨answer,w⟩ := r
    obtain rfl : answer = .ok 0 := hopt
    rfl
  | _ => cases hpoll

theorem sticky_iff (h : s.1.state = .closed) {ls : List (Heard Call)}
    (hcalls : ∀ l ∈ ls, l.call.dials = false) :
    Sticky s ls ↔ Runs.Guarded step (fun s l => revives s l = false) s ls := by
  induction ls generalizing s with
  | nil => simp [Sticky,connected,h]
  | cons l ls ih =>
    obtain ⟨hcall,hrest⟩ := List.forall_mem_cons.mp hcalls
    have hdown : s.1.connected = false := by simp [connected,h]
    simp only [Sticky,Runs.Guarded,Runs.run_cons]
    cases hpoll : revives s l with
    | true => simp [revived h hpoll]
    | false =>
      obtain ⟨hclosed,hanswer⟩ := closed_step h hcall hpoll
      rw [← ih hclosed hrest]
      simp [Sticky,hdown,hanswer]

-- The peer closes or resets the connection in the call l, made after the calls ls; until the next
-- connect() come the calls ms.
theorem closed_is_sticky_iff (time : Nat) (ls : List (Heard Call)) (l : Heard Call)
    (ms : List (Heard Call)) (hlost : drops (after time ls) l = true)
    (hcalls : ∀ m ∈ ms, m.call.dials = false) :
    Sticky (step (after time ls) l) ms ↔
      Runs.Guarded step (fun s m => revives s m = false) (step (after time ls) l) ms :=
  sticky_iff (drops_closed hlost) hcalls

end TcpConnection

namespace Sample

def dialed : List (Heard TcpConnection.Call) :=
  [{call := .connect 1 44818 5000, script := {sockets := [3]}},
   {call := .poll, script := {selects := [1]}}]

def peerClosed : Heard TcpConnection.Call :=
  {call := .read 24, script := {recvs := [.ok []]}}

def writable : Heard TcpConnection.Call := {call := .poll, script := {selects := [1]}}

theorem closed_is_sticky_quiet :
    TcpConnection.Sticky (TcpConnection.step (TcpConnection.after 0 dialed) peerClosed)
      [{call := .poll},{call := .close},writable] :=
  (TcpConnection.closed_is_sticky_iff 0 dialed peerClosed _ (by decide +kernel)
    (by decide +kernel)).mpr (by decide +kernel)

theorem half_closed_reconnects :
    let s := TcpConnection.step (TcpConnection.after 0 dialed) peerClosed
    TcpConnection.drops (TcpConnection.after 0 dialed) peerClosed = true ∧
      TcpConnection.answer s writable = .poll .ok ∧
        (TcpConnection.step s writable).1.connected = true ∧
          ¬ TcpConnection.Sticky s [writable] := by
  decide +kernel

end Sample

end ControlLogix
