import ControlLogix.Sketch.LanIdentity
import ControlLogix.Sketch.LanProgress
import ControlLogix.Transport.Descriptors
import ControlLogix.Transport.Ethernet

namespace ControlLogix

-- The sockets that are open, the one opened last in front; nothing, once one is closed that is not
-- open.
def openFds : List Event → Option (List Int)
  | [] => some []
  | .socket fd :: log => (openFds log).map (fd :: ·)
  | .close fd :: log =>
    (openFds log).bind fun fds => if fd ∈ fds then some (fds.erase fd) else none
  | _ :: log => openFds log

theorem openFds_close {fd : Int} {fds : List Int} {log : List Event}
    (h : openFds log = some (fd :: fds)) : openFds (.close fd :: log) = some fds := by
  simp [openFds,h]

theorem openFds_socket {fd : Int} {fds : List Int} {log : List Event}
    (h : openFds log = some fds) : openFds (.socket fd :: log) = some (fd :: fds) := by
  simp [openFds,h]

theorem World.lwipSocket_opened {w : World} (h : ¬ w.lwipSocket.1 < 0) :
    w.lwipSocket.2.log = .socket w.lwipSocket.1 :: w.log := by
  simp only [lwipSocket] at h ⊢
  rw [if_neg h]
  rfl

theorem World.lwipSocket_none {w : World} (h : w.lwipSocket.1 < 0) :
    w.lwipSocket.2.log = w.log := by
  simp only [lwipSocket] at h ⊢
  rw [if_pos h]

theorem Sent.openFds_eq {fd : Int} {tx : List UInt8} {a b : Nat} {log log' : List Event}
    (h : Sent fd tx a log b log') : openFds log' = openFds log := by
  induction h with
  | refl => rfl
  | step _ _ _ ih => exact ih

theorem Got.openFds_eq {fd : Int} {rx rx' : List UInt8} {log log' : List Event}
    (h : Got fd rx log rx' log') : openFds log' = openFds log := by
  induction h with
  | refl => rfl
  | step _ _ ih => exact ih

namespace TcpConnection

def Holds (before : List Int) (t : TcpConnection) (w : World) : Prop :=
  openFds w.log = some (t.socket.toList ++ before)

section

variable {before : List Int} {t t' : TcpConnection} {w w' : World}

theorem Holds.of_log (h : Holds before t w) (hfd : t'.fd = t.fd) (hlog : w'.log = w.log) :
    Holds before t' w' := by
  rw [Holds,hlog,socket,hfd]
  exact h

theorem Holds.moved {x x' : Transfer} (h : Holds before t w)
    (hmoved : Transfer.Moved x t w x' t' w') : Holds before t' w' := by
  obtain ⟨mid,hsent,hgot,_⟩ := hmoved.traffic
  rw [Holds,hgot.openFds_eq,hsent.openFds_eq,socket,hmoved.kept.fd_eq]
  exact h

theorem Holds.close (h : Holds before t w) : Holds before {} (t.close w).2 := by
  rw [Holds] at h ⊢
  simp only [TcpConnection.close]
  by_cases hfd : 0 ≤ t.fd
  · rw [socket_some hfd] at h
    rw [if_pos hfd]
    exact openFds_close h
  · rw [socket_none (by omega)] at h
    rw [if_neg hfd,h]
    rfl

theorem Holds.tried (h : Holds before t w) {fd : Int}
    (hlog : w'.log = .close fd :: .socket fd :: w.log) :
    Holds before t w' := by
  rw [Holds,hlog]
  exact openFds_close (openFds_socket h)

theorem Holds.connect (h : Holds before t w) {ip : UInt32} {port : UInt16} {timeoutMs : UInt32}
    {st : Status} (hconnect : t.connect ip port timeoutMs w = (st,t',w')) :
    Holds before t' w' := by
  have hdrop : Holds before (if 0 ≤ t.fd then t.close w else (t,w)).1
      (if 0 ≤ t.fd then t.close w else (t,w)).2 ∧
        (if 0 ≤ t.fd then t.close w else (t,w)).1.socket = none := by
    by_cases hfd : 0 ≤ t.fd
    · rw [if_pos hfd]
      exact ⟨h.close,rfl⟩
    · rw [if_neg hfd]
      exact ⟨h,socket_none (Int.not_le.mp hfd)⟩
  simp only [TcpConnection.connect] at hconnect
  generalize (if 0 ≤ t.fd then t.close w else (t,w)) = r at hdrop hconnect
  obtain ⟨u,v⟩ := r
  obtain ⟨hheld,hnone⟩ := hdrop
  simp only at hheld hnone hconnect
  have hgive {w' : World} {fd : Int}
      (hlog : w'.log = .close fd :: .socket fd :: v.log) : Holds before u w' := hheld.tried hlog
  split_ifs at hconnect with hadr hfd hget hset hrc
  · cases hconnect
    exact hheld
  · cases hconnect
    exact hheld.of_log rfl (World.lwipSocket_none hfd)
  · cases hconnect
    exact hgive (congrArg (Event.close _ :: ·) (World.lwipSocket_opened hfd))
  · cases hconnect
    exact hgive (congrArg (Event.close _ :: ·) (World.lwipSocket_opened hfd))
  · cases hconnect
    exact hgive (congrArg (Event.close _ :: ·) (World.lwipSocket_opened hfd))
  · cases hconnect
    have hfirst : socket {t with fd := v.lwipSocket.1} = some v.lwipSocket.1 :=
      socket_some (by simpa using hfd)
    rw [Holds,hnone] at hheld
    have hlog := @openFds_socket v.lwipSocket.1 _ _ hheld
    rw [← World.lwipSocket_opened hfd] at hlog
    refine hlog.trans ?_
    exact congrArg (fun o => some (o.toList ++ before)) hfirst.symm

theorem Holds.poll (h : Holds before t w) {st : Status} (hpoll : t.poll w = (st,t',w')) :
    Holds before t' w' := by
  have hselect : Holds before t w.lwipSelect.2 := h.of_log rfl rfl
  simp only [TcpConnection.poll] at hpoll
  split_ifs at hpoll with hdead hok hneg hzero hlate
  · cases hpoll
    exact h
  · cases hpoll
    exact h
  · cases hpoll
    exact hselect.close
  · cases hpoll
    have hlooked : Holds before t w.lwipSelect.2.millis.2 := hselect.of_log rfl rfl
    exact hlooked.close
  · cases hpoll
    exact hselect.of_log rfl rfl
  · have hopt : Holds before t w.lwipSelect.2.lwipGetsockopt.2 := hselect.of_log rfl rfl
    rcases hanswer : w.lwipSelect.2.lwipGetsockopt with ⟨_ | err,v⟩
    · rw [hanswer] at hpoll hopt
      cases hpoll
      exact hopt.close
    · rw [hanswer] at hpoll hopt
      simp only at hpoll
      split_ifs at hpoll
      · cases hpoll
        exact hopt.of_log rfl rfl
      · cases hpoll
        exact hopt.close

end

end TcpConnection

open TcpConnection

section

variable {before : List Int} {t t' : TcpConnection} {w w' : World} {st : Status}

theorem Session.poll_holds {s s' : Session} (h : Holds before t w)
    (hpoll : s.poll t w = (st,s',t',w')) : Holds before t' w' := by
  cases hex : s.exchanging with
  | false =>
    obtain ⟨_,heq,_⟩ := poll_still hex t w
    rw [hpoll] at heq
    cases heq
    exact h
  | true =>
    obtain ⟨_,_,_,_,heq,hpolled⟩ := poll_polled hex t w
    rw [hpoll] at heq
    cases heq
    exact h.moved hpolled.io

theorem Session.open_holds {s s' : Session} {timeoutMs : UInt32} (h : Holds before t w)
    (hopen : s.open t timeoutMs w = (st,s',w')) : Holds before t w' := by
  rcases s.open_cases t timeoutMs w with ⟨_,_,heq,hlog,_⟩ | ⟨_,_,heq,_⟩
  · rw [hopen] at heq
    cases heq
    exact h.of_log rfl hlog
  · rw [hopen] at heq
    cases heq
    exact h

theorem ExplicitMessage.poll_holds {m m' : ExplicitMessage} (h : Holds before t w)
    (hpoll : m.poll t w = (st,m',t',w')) : Holds before t' w' := by
  cases hm : m.inFlight with
  | false =>
    have heq : (m.poll t w).2.2 = (t,w) := by
      cases hs : m.state <;> simp_all [poll,inFlight]
    rw [hpoll] at heq
    cases heq
    exact h
  | true =>
    obtain ⟨_,_,_,_,heq,hpolled⟩ := poll_polled hm t w
    rw [hpoll] at heq
    cases heq
    exact h.moved hpolled.io

theorem ExplicitMessage.sendRouted_holds {m m' : ExplicitMessage} {sessionHandle : UInt32}
    {slot service : UInt8} {path data : List UInt8} {timeoutMs : UInt32} (h : Holds before t w)
    (hsend : m.sendRouted t sessionHandle slot service path data timeoutMs w = (st,m',w')) :
    Holds before t w' := by
  have hissued := m.sendRouted_issued t sessionHandle slot service path data timeoutMs w
  rw [hsend] at hissued
  cases hissued with
  | taken _ _ _ hlog => exact h.of_log rfl hlog
  | refused _ _ => exact h

end

namespace Client

theorem polled_log {c c' : Client} {w w' : World} {st : Status} (h : c.poll w = (st,c',w')) :
    w'.log = w.log := by
  have hlog := c.poll_log w
  rwa [h] at hlog

theorem begin_openFds (c : Client) (w : World) : openFds (c.begin w).2.2.log = openFds w.log := by
  simp only [begin]
  split_ifs <;> rfl

end Client

namespace LanInventory

theorem queryListIdentityState_holds {before : List Int} {t : TcpConnection} {udp : Udp}
    {w w' : World} {st : UInt8} {sent : List (List UInt8)} (h : Holds before t w)
    (hquery : queryListIdentityState udp w = (st,sent,w')) : Holds before t w' := by
  simp only [queryListIdentityState] at hquery
  split_ifs at hquery with hfd hbound
  · cases hquery
    exact h.of_log rfl (World.lwipSocket_none hfd)
  all_goals
    cases hquery
    exact h.tried (congrArg (Event.close _ :: ·) (World.lwipSocket_opened hfd))

theorem holds_loop {before : List Int} {s : LanInventory} {w : World} (turn : Turn)
    (h : Holds before s.tcp w) : Holds before (s.loop turn w).1.tcp (s.loop turn w).2 := by
  have hturned := s.loop_turned turn w
  generalize s.loop turn w = r at hturned
  cases hturned with
  | ethWaits _ hpoll _ _ => exact h.of_log rfl (Client.polled_log hpoll)
  | ethFails _ hpoll => exact h.of_log rfl (Client.polled_log hpoll)
  | begins _ hpoll _ =>
    exact h.of_log rfl ((World.millis_log _).trans (Client.polled_log hpoll))
  | ends _ _ => exact h
  | passes _ _ _ => exact h
  | probes _ _ _ hconnect => exact (h.connect hconnect).of_log rfl rfl
  | dials _ hpoll => exact h.poll hpoll
  | refused _ hpoll _ _ => exact (h.poll hpoll).close
  | connects _ hpoll hopen => exact (Session.open_holds (h.poll hpoll) hopen).of_log rfl rfl
  | registers _ hpoll _ _ _ => exact Session.poll_holds h hpoll
  | registered _ hpoll => exact (Session.poll_holds h hpoll).of_log rfl rfl
  | unregistered _ hpoll _ => exact (Session.poll_holds h hpoll).close
  | asks _ _ hsend => exact ExplicitMessage.sendRouted_holds h hsend
  | waits _ _ hpoll _ _ _ _ => exact ExplicitMessage.poll_holds h hpoll
  | unanswered _ _ hpoll _ => exact (ExplicitMessage.poll_holds h hpoll).close
  | answered _ _ hpoll _ => exact ExplicitMessage.poll_holds h hpoll
  | reports _ _ hpoll _ hquery _ =>
    have hasked := queryListIdentityState_holds (ExplicitMessage.poll_holds h hpoll) hquery
    exact hasked.of_log rfl rfl
  | closes _ hpoll _ _ _ _ => exact Session.poll_holds h hpoll
  | closed _ hpoll _ => exact (Session.poll_holds h hpoll).close
  | abandoned _ hpoll _ => exact (Session.poll_holds h hpoll).close
  | idles _ => exact h

theorem holds_after {before : List Int} {w : World} (h : openFds w.log = some before)
    (gateway : IPAddress) (turns : List Turn) :
    Holds before (Run.after gateway w turns).sketch.tcp (Run.after gateway w turns).world := by
  refine @Runs.invariant_always _ _ Run.step (fun r => Holds before r.sketch.tcp r.world)
    (fun r turn hr => holds_loop (w := r.world.hear turn.script) turn hr) _ ?_ turns
  exact (({} : Client).begin_openFds w).trans h

end LanInventory

open LanInventory

theorem sockets_are_closed (gateway : IPAddress) (w : World) (turns : List Turn)
    {before : List Int} (h : openFds w.log = some before) :
    let r := LanInventory.Run.after gateway w turns
    openFds r.world.log = some (r.sketch.tcp.socket.toList ++ before) ∧
      (r.sketch.phase = .scan ∨ r.sketch.phase = .done → openFds r.world.log = some before) := by
  intro r
  have hholds : openFds r.world.log = some (r.sketch.tcp.socket.toList ++ before) :=
    holds_after h gateway turns
  refine ⟨hholds,fun hs => ?_⟩
  have hrests := ordered_rests (ordered_after gateway w turns) hs
  rw [hholds,hrests.tcp]
  rfl

namespace Sample

def deviceLeft : List LanInventory.Turn :=
  deviceTurns ++ [lanTurn {sends := [.ok 24], recvs := [.ok unregisterReply]}]

theorem lan_sockets_are_closed :
    openFds (LanInventory.Run.after ⟨10,0,0,254⟩ lanBoard deviceTurns).world.log = some [3] ∧
      openFds (LanInventory.Run.after ⟨10,0,0,254⟩ lanBoard deviceLeft).world.log = some [] := by
  have hheld : (LanInventory.Run.after ⟨10,0,0,254⟩ lanBoard deviceTurns).sketch.tcp.socket =
      some 3 := by
    decide +kernel
  have hscan : (LanInventory.Run.after ⟨10,0,0,254⟩ lanBoard deviceLeft).sketch.phase = .scan := by
    decide +kernel
  have hopen := (sockets_are_closed ⟨10,0,0,254⟩ lanBoard deviceTurns rfl).1
  rw [hheld] at hopen
  exact ⟨hopen,(sockets_are_closed ⟨10,0,0,254⟩ lanBoard deviceLeft rfl).2 (Or.inl hscan)⟩

end Sample

end ControlLogix
