import ControlLogix.Machine.Transitions
import ControlLogix.Machine.Waits
import ControlLogix.Machine.Wedge
import ControlLogix.Machine.Wire

namespace ControlLogix

-- The clock moves on before it is looked at, and not far while one call lasts.
def Brisk (script : Script) : Prop := 0 < script.ticks.headD 0 ∧ script.ticks.sum < 2 ^ 30

theorem World.millis_sum (w : World) :
    w.millis.2.time + w.millis.2.script.ticks.sum = w.time + w.script.ticks.sum := by
  simp only [millis]
  cases w.script.ticks with
  | nil => rfl
  | cons tick ticks => simp [Nat.add_assoc]

theorem Brisk.ticking {script : Script} (h : Brisk script) : Ticking script := by
  refine ⟨h.1,?_⟩
  have hhead : script.ticks.headD 0 ≤ script.ticks.sum := by
    cases script.ticks with
    | nil => exact Nat.le_refl 0
    | cons tick ticks => simp
  have hsum := h.2
  omega

theorem room_left {w v : World} (htick : Brisk w.script) {deadline : UInt32}
    (hlate : expired w.millis.1 deadline ≠ true) (hle : w.millis.2.time ≤ v.time)
    (hsum : v.time ≤ w.time + w.script.ticks.sum) :
    Clock.room deadline v.time < Clock.room deadline w.time := by
  rw [Ne,expired_iff] at hlate
  have hfirst : w.millis.2.time = w.time + w.script.ticks.headD 0 := rfl
  obtain ⟨hpos,hless⟩ := htick
  have hroom := @Clock.room_lt deadline w.time _ (v.time - w.millis.2.time) hpos (by omega) hlate
  rwa [show w.time + w.script.ticks.headD 0 + (v.time - w.millis.2.time) = v.time by omega] at hroom

theorem Tag.poll_pending {g g' : Tag} (hg : g.state = .reading ∨ g.state = .writing)
    {m m' : ExplicitMessage} {t t' : TcpConnection} {w w' : World}
    (h : g.poll m t w = (.pending,g',m',t',w')) : m.poll t w = (.pending,m',t',w') := by
  rcases hpoll : m.poll t w with ⟨st,m₁,t₁,w₁⟩
  simp only [poll,hpoll] at h
  rw [if_neg (by rw [not_and_or,not_not,not_not]; exact hg)] at h
  split_ifs at h with hwait
  · cases h
    rw [hwait]
  · simp only [Prod.mk.injEq] at h
    exact absurd h.1 hwait
  all_goals cases h

namespace PlcClient

variable {n : Nat} {c : PlcClient n} {w : World}

-- What the client has still to wait for, in looks at the clock: none if it waits for nothing.
def waiting (c : PlcClient n) (time : Nat) : Nat :=
  match c.state with
  | .connecting => 2 * span + Clock.room c.deadline time
  | .registering => span + Clock.room c.deadline time
  | .ready => if c.anyTagBusy then Clock.left c.msg.deadline time + 1 else 0
  | .disconnecting =>
    if c.session.state = .failed then 0 else Clock.left c.session.deadline time + 1
  | _ => 0

theorem waiting_bounded (c : PlcClient n) (time : Nat) : c.waiting time < 3 * span := by
  have hroom := Clock.room_bounded c.deadline time
  have hmsg := Clock.left_bounded c.msg.deadline time
  have hsession := Clock.left_bounded c.session.deadline time
  simp only [waiting,span]
  cases c.state <;> simp only <;> (try split_ifs) <;> omega

def Nears (c : PlcClient n) (w : World) (r : Poll × PlcClient n × World) : Prop :=
  r.1 ≠ .scans ∧ r.2.1.state ≠ .ethernet ∧ r.2.1.waiting r.2.2.time < c.waiting w.time

theorem pollConnecting_nears (h : Phases c) (hs : c.state = .connecting) (htick : Brisk w.script) :
    Nears c w (c.pollConnecting w) := by
  simp only [pollConnecting]
  by_cases hlate : expired w.millis.1 c.deadline = true
  · rw [if_pos hlate]
    refine ⟨by simp,by simp,?_⟩
    simp only [waiting,hs,span]
    omega
  rw [if_neg hlate]
  rcases hpoll : c.tcp.poll w.millis.2 with ⟨st,t,v⟩
  rcases c.session.open t (c.deadline - v.millis.1) v.millis.2 with ⟨openSt,session,v'⟩
  simp only
  split_ifs with hok hopen hbad
  · refine ⟨by simp,by simp,?_⟩
    simp only [waiting,hs,span]
    omega
  · refine ⟨by simp,by simp,?_⟩
    have hroom := Clock.room_bounded c.deadline v'.time
    simp only [waiting,hs,span]
    omega
  · refine ⟨by simp,by simp,?_⟩
    simp only [waiting,hs,span]
    omega
  · have hpend : st = .pending := by
      obtain ⟨hfd,hwait⟩ := h.connecting hs
      obtain ⟨_,_,_,heq,_,hkind⟩ := c.tcp.poll_cases w.millis.2
      rw [hpoll] at heq
      cases heq
      rcases hkind with ⟨_,⟨_,hneg⟩ | ⟨hc,_⟩ | hc⟩ | ⟨_,hc,_⟩ | ⟨_,hc⟩
      · omega
      · exact absurd hc hok
      · exact hc
      · exact absurd hc hok
      · exact absurd hc.symm hbad
    subst hpend
    obtain ⟨rfl,rfl,_⟩ := TcpConnection.poll_pending hpoll
    refine ⟨by simp,by simp [hs],?_⟩
    have hfirst := w.millis_sum
    have hsecond := w.millis.2.lwipSelect.2.millis_sum
    have hsame : w.millis.2.lwipSelect.2.time = w.millis.2.time ∧
        w.millis.2.lwipSelect.2.script.ticks = w.millis.2.script.ticks := ⟨rfl,rfl⟩
    have hle : w.millis.2.time ≤ w.millis.2.lwipSelect.2.millis.2.time := Nat.le_add_right _ _
    have hroom := room_left (v := w.millis.2.lwipSelect.2.millis.2) htick hlate hle
      (by rw [hsame.1,hsame.2] at hsecond; omega)
    simp only [waiting,hs]
    omega

theorem pollRegistering_nears (h : Phases c) (hs : c.state = .registering)
    (htick : Brisk w.script) : Nears c w (c.pollRegistering w) := by
  simp only [pollRegistering]
  by_cases hlate : expired w.millis.1 c.deadline = true
  · rw [if_pos hlate]
    refine ⟨by simp,by simp,?_⟩
    simp only [waiting,hs,span]
    omega
  rw [if_neg hlate]
  rcases hpoll : c.session.poll c.tcp w.millis.2 with ⟨st,session,t,v⟩
  simp only
  split_ifs with hok hbad
  · refine ⟨?_,by simp,?_⟩
    · simp only [notify]
      split_ifs <;> simp
    · have hleft := Clock.left_bounded c.msg.deadline v.time
      simp only [waiting,hs,span]
      split_ifs <;> omega
  · refine ⟨by simp,by simp,?_⟩
    simp only [waiting,hs,span]
    omega
  · have hreg : c.session.state = .registering := by
      refine (h.registering hs).resolve_right fun hfailed => ?_
      simp only [Session.poll,hfailed] at hpoll
      cases hpoll
      exact hbad (Or.inr rfl)
    have hexch : c.session.exchanging = true := by simp [Session.exchanging,hreg]
    have htime := (Session.poll_waits hexch hpoll).2
    refine ⟨by simp,by simp [hs],?_⟩
    have hfirst := w.millis_sum
    have hsecond := w.millis.2.millis_sum
    have hle : w.millis.2.time ≤ w.millis.2.millis.2.time := Nat.le_add_right _ _
    have hroom := room_left (v := v) htick hlate (by omega) (by omega)
    simp only [waiting,hs]
    omega

theorem pollDisconnecting_nears (h : Phases c) (hs : c.state = .disconnecting)
    (hlong : c.session.state ≠ .failed) (htick : Brisk w.script) :
    Nears c w (c.pollDisconnecting w) := by
  have hun := (h.disconnecting hs).resolve_right hlong
  have hexch : c.session.exchanging = true := by simp [Session.exchanging,hun]
  simp only [pollDisconnecting]
  rcases hpoll : c.session.poll c.tcp w with ⟨st,session,t,v⟩
  simp only
  split_ifs with hover
  · refine ⟨?_,by simp,?_⟩
    · simp only [notify]
      split_ifs <;> simp
    · simp only [waiting,hs,if_neg hlong]
      omega
  · rw [not_or] at hover
    refine ⟨by simp,by simp [hs],?_⟩
    obtain ⟨_,hleaving,hdeadline⟩ := Session.poll_leaving (Or.inr hun) hpoll
    simp only [waiting,hs,if_neg hlong]
    split_ifs with hfailed
    · omega
    · have hlate : st ≠ .timeout := by
        rintro rfl
        have hpast := (Session.poll_timeout_iff hexch c.tcp w).mp (by rw [hpoll])
        simp only [Session.poll,hun,Session.pollUnregistering,hpast,if_true] at hpoll
        cases hpoll
        exact hfailed rfl
      have hleft := Session.poll_left hexch hpoll htick.ticking hlate
      rw [hdeadline]
      omega

def ahead (c : PlcClient n) (k : Nat) : Prop :=
  ∃ i : Fin n, c.inUse i = true ∧ c.busy i = true ∧ k ≤ i

instance (c : PlcClient n) (k : Nat) : Decidable (c.ahead k) :=
  inferInstanceAs (Decidable (∃ i : Fin n, c.inUse i = true ∧ c.busy i = true ∧ k ≤ i))

theorem ahead_zero (c : PlcClient n) : c.ahead 0 ↔ c.anyTagBusy = true := by
  rw [anyTagBusy_iff]
  constructor
  · rintro ⟨i,huse,hi,_⟩
    exact ⟨i,huse,hi⟩
  · rintro ⟨i,huse,hi⟩
    exact ⟨i,huse,hi,Nat.zero_le _⟩

theorem ahead_succ {k : Nat} {h : k < n} (hpass : c.inUse ⟨k,h⟩ = false ∨ c.busy ⟨k,h⟩ = false) :
    c.ahead (k + 1) ↔ c.ahead k := by
  constructor
  · rintro ⟨i,huse,hi,hk⟩
    exact ⟨i,huse,hi,by omega⟩
  · rintro ⟨i,huse,hi,hk⟩
    refine ⟨i,huse,hi,Nat.lt_of_le_of_ne hk fun hki => ?_⟩
    obtain rfl : i = ⟨k,h⟩ := Fin.ext hki.symm
    rcases hpass with hpass | hpass
    · rw [hpass] at huse
      cases huse
    · rw [hpass] at hi
      cases hi

theorem poll_nears (h : Phases c) (hup : c.state ≠ .ethernet) (hs : c.state ≠ .ready)
    (hlong : c.waiting w.time ≠ 0) (htick : Brisk w.script) : Nears c w (c.poll w) := by
  simp only [poll]
  cases hst : c.state with
  | ethernet => exact absurd hst hup
  | connecting => exact pollConnecting_nears h hst htick
  | registering => exact pollRegistering_nears h hst htick
  | ready => exact absurd hst hs
  | disconnecting =>
    refine pollDisconnecting_nears h hst (fun hfailed => ?_) htick
    simp [waiting,hst,hfailed] at hlong
  | failed => simp [waiting,hst] at hlong
  | idle => simp [waiting,hst] at hlong

theorem poll_quiet (hup : c.state ≠ .ethernet) (hs : c.state ≠ .ready)
    (hquiet : c.waiting w.time = 0) : ∃ st, c.poll w = (.returns st,c,w) := by
  cases hst : c.state with
  | ethernet => exact absurd hst hup
  | connecting => simp [waiting,hst,span] at hquiet
  | registering => simp [waiting,hst,span] at hquiet
  | ready => exact absurd hst hs
  | disconnecting =>
    refine ⟨_,poll_stuck hst ?_ w⟩
    by_contra hlong
    simp [waiting,hst,hlong] at hquiet
  | failed => exact ⟨.error,by simp [poll,hst]⟩
  | idle => exact ⟨.notReady,by simp [poll,hst]⟩

theorem visit_still {i : Fin n} (hi : c.busy i = false) (w : World) :
    ∃ called, c.visit i w = ((c.tags i).status,called,
      {c with tagPrevStatus := Function.update c.tagPrevStatus i (c.tags i).status},w) := by
  have hstill := Tag.poll_still (g := c.tags i) hi c.msg c.tcp w
  simp only [visit,hstill,Function.update_eq_self]
  exact ⟨_,rfl⟩

theorem status_not_closed (g : Tag) : g.status ≠ .closed := by
  simp only [Tag.status]
  split <;> simp

theorem anyTagBusy_over {c' : PlcClient n} {log : List Event} (h : Exclusive c log) {i : Fin n}
    (hi : c.busy i = true) {g : Tag} (hg : g.inFlight = false)
    (htags : c'.tags = Function.update c.tags i g) : c'.anyTagBusy = false := by
  rw [Bool.eq_false_iff,Ne,anyTagBusy_iff]
  rintro ⟨j,_,hj⟩
  have hlease := h.1.drop hi c.msg.io.tx
  cases hlease with
  | free hnone _ =>
    have hfree := hnone j
    rw [← hg,← busy_update htags] at hfree
    exact absurd hj (by rw [← busy,hfree,hg]; simp)

theorem visit_nears {log : List Event} (h : Exclusive c log) {i : Fin n} (huse : c.inUse i = true)
    (hi : c.busy i = true) (hs : c.state = .ready) (htick : Ticking w.script) {st : Status}
    {called : Bool} {c' : PlcClient n} {v : World} (hvisit : c.visit i w = (st,called,c',v)) :
    c'.state = .ready ∧ (st = .closed → c'.anyTagBusy = false) ∧
      c'.waiting v.time < c.waiting w.time := by
  have hmsg := h.msg_inFlight hi
  have hbusy : c.anyTagBusy = true := (anyTagBusy_iff c).mpr ⟨i,huse,hi⟩
  rcases hpoll : (c.tags i).poll c.msg c.tcp w with ⟨got,g,m,t,w'⟩
  have hpolled := Tag.poll_polled (g := c.tags i) (t := c.tcp) (w := w) hi hmsg
  rw [hpoll] at hpolled
  simp only [visit,hpoll,Prod.mk.injEq] at hvisit
  obtain ⟨rfl,_,hc,rfl⟩ := hvisit
  have htags : c'.tags = Function.update c.tags i g := by rw [← hc]
  have hmsg' : c'.msg = m := by rw [← hc]
  have hs' : c'.state = .ready := by
    rw [← hc]
    exact hs
  have hover (hg : g.inFlight = false) :
      c'.anyTagBusy = false ∧ c'.waiting w'.time < c.waiting w.time := by
    have hnone := anyTagBusy_over h hi hg htags
    refine ⟨hnone,?_⟩
    simp only [waiting,hs,hs',hnone,hbusy,Bool.false_eq_true,if_false,if_true]
    omega
  cases hpolled with
  | waits _ _ =>
    refine ⟨hs',fun hclosed => (by cases hclosed),?_⟩
    have hwait := Tag.poll_pending ((Tag.inFlight_iff _).mp hi) hpoll
    have hleft := ExplicitMessage.poll_left hmsg hwait htick (by simp)
    have hdeadline := (ExplicitMessage.poll_flight hmsg hwait).1
    simp only [waiting,hs,hs',hbusy,hmsg',hdeadline,if_true]
    split_ifs <;> omega
  | fails _ _ _ => exact ⟨hs',fun _ => (hover rfl).1,(hover rfl).2⟩
  | ends _ _ hst =>
    have hg : g.inFlight = false := by
      rcases hst with ⟨_,hst⟩ | ⟨_,hst,_⟩ <;> simp [Tag.inFlight,hst]
    exact ⟨hs',fun _ => (hover hg).1,(hover hg).2⟩

end PlcClient

namespace Config

variable {n : Nat}

-- A sketch that does nothing but poll: its callbacks return at once.
def turnAct (s : Config n) : Act :=
  match s.stack with
  | [] => .call .poll
  | .scan _ _ :: _ => .advance
  | _ :: _ => .ret

def turn (s : Config n) (script : Script) : Config n :=
  s.step {act := s.turnAct, script := script}

inductive Turned (s : Config n) (script : Script) : Config n → Prop
  | polled : s.stack = [] → s.client.state ≠ .ready →
      Turned s script (enter (s.client.poll (s.world.hear script)) [])
  | scans : s.stack = [] → s.client.state = .ready →
      Turned s script {s.hear script with stack := [.scan 0 false]}
  | skipped {k : Nat} {d : Bool} (h : k < n) : s.stack = [.scan k d] →
      s.client.inUse ⟨k,h⟩ = false →
      Turned s script {s.hear script with stack := [.scan (k + 1) d]}
  | visited {k : Nat} {d : Bool} (h : k < n) : s.stack = [.scan k d] →
      s.client.inUse ⟨k,h⟩ = true → Turned s script ((s.hear script).visit ⟨k,h⟩ d [])
  | finished {k : Nat} {d : Bool} : s.stack = [.scan k d] → n ≤ k →
      Turned s script (enter (s.client.finish d (s.world.hear script)) [])
  | told {k : Nat} {d : Bool} : s.stack = [.tagCallback k d] →
      Turned s script {s.hear script with stack := [.scan k d]}
  | returned : s.stack = [.stateCallback] → Turned s script {s.hear script with stack := []}

structure Calm (s : Config n) : Prop where
  reachable : s.Reachable
  awake : s.client.state ≠ .ethernet
  frames : s.stack = [] ∨ s.stack = [.stateCallback] ∨ s.client.state = .ready ∧
    ∃ k d, k ≤ n ∧ (s.stack = [.scan k d] ∨ s.stack = [.tagCallback k d]) ∧
      (d = true → s.client.anyTagBusy = false)

theorem turn_turned {s : Config n} (h : Calm s) (script : Script) :
    Turned s script (s.turn script) := by
  rcases h.frames with hstack | hstack | ⟨_,k,d,hk,hstack | hstack,_⟩
  · have hturn : s.turn script = enter (s.client.poll (s.world.hear script)) [] := by
      simp [turn,turnAct,hstack,step,act,scanning,call,hear,World.hear]
    rw [hturn]
    by_cases hs : s.client.state = .ready
    · have hpoll : s.client.poll (s.world.hear script) =
          (.scans,s.client,s.world.hear script) := by
        simp only [PlcClient.poll,hs]
      rw [hpoll]
      exact .scans hstack hs
    · exact .polled hstack hs
  · have hturn : s.turn script = {s.hear script with stack := []} := by
      simp [turn,turnAct,hstack,step,act,ret,hear]
    rw [hturn]
    exact .returned hstack
  · by_cases hlt : k < n
    · by_cases huse : s.client.inUse ⟨k,hlt⟩ = true
      · have hturn : s.turn script = (s.hear script).visit ⟨k,hlt⟩ d [] := by
          simp [turn,turnAct,hstack,step,act,advance,hear,hlt,huse]
        rw [hturn]
        exact .visited hlt hstack huse
      · have hturn : s.turn script = {s.hear script with stack := [.scan (k + 1) d]} := by
          simp [turn,turnAct,hstack,step,act,advance,hear,hlt,huse]
        rw [hturn]
        exact .skipped hlt hstack (Bool.eq_false_iff.mpr huse)
    · have hturn : s.turn script = enter (s.client.finish d (s.world.hear script)) [] := by
        simp [turn,turnAct,hstack,step,act,advance,hear,hlt,World.hear]
      rw [hturn]
      exact .finished hstack (Nat.not_lt.mp hlt)
  · have hturn : s.turn script = {s.hear script with stack := [.scan k d]} := by
      simp [turn,turnAct,hstack,step,act,ret,hear]
    rw [hturn]
    exact .told hstack

theorem Reachable.turn {s : Config n} (h : s.Reachable) (script : Script) :
    (s.turn script).Reachable := by
  obtain ⟨memory,time,ls,rfl⟩ := h
  refine ⟨memory,time,ls ++ [{act := (after memory time ls).turnAct, script := script}],?_⟩
  exact (Runs.run_append step (init memory time) ls [_]).symm

theorem Reachable.exclusive {s : Config n} (h : s.Reachable) :
    s.client.Exclusive s.world.log := by
  obtain ⟨memory,time,ls,rfl⟩ := h
  exact exclusive_after memory time ls

theorem Reachable.phases {s : Config n} (h : s.Reachable) : Phases s.client := by
  obtain ⟨memory,time,ls,rfl⟩ := h
  exact phases_after memory time ls

def waiting (s : Config n) : Nat := s.client.waiting s.world.time

theorem enter_over {p : Poll × PlcClient n × World} (h : p.1 ≠ .scans) :
    ((enter p []).stack = [] ∨ (enter p []).stack = [.stateCallback]) ∧
      (enter p []).waiting = p.2.1.waiting p.2.2.time := by
  obtain ⟨out,c,w⟩ := p
  cases out with
  | returns st => exact ⟨Or.inl rfl,rfl⟩
  | calls arg st => exact ⟨Or.inr rfl,rfl⟩
  | scans => exact absurd rfl h

theorem visit_over {s : Config n} {i : Fin n} {st : Status} {called : Bool} {c : PlcClient n}
    {w : World} (h : s.client.visit i s.world = (st,called,c,w)) (d : Bool) :
    (s.visit i d []).client = c ∧ (s.visit i d []).waiting = c.waiting w.time ∧
      ((s.visit i d []).stack = [.scan (i + 1) (d || st = .closed)] ∨
        (s.visit i d []).stack = [.tagCallback (i + 1) (d || st = .closed)]) := by
  simp only [visit,h]
  cases called
  · refine ⟨rfl,?_,Or.inl rfl⟩
    simp only [waiting,Bool.false_eq_true,if_false]
    split_ifs <;> rfl
  · refine ⟨rfl,?_,Or.inr rfl⟩
    simp only [waiting,if_true]
    split_ifs <;> rfl

def pace (s : Config n) : Nat :=
  match s.stack with
  | .scan k _ :: _ => 2 * (n - k) + 2 + if s.client.ahead k then 0 else 2 * n + 3
  | .tagCallback k _ :: _ => 2 * (n - k) + 3 + if s.client.ahead k then 0 else 2 * n + 3
  | .stateCallback :: _ => 2 * n + 4
  | [] => 2 * n + 3

def turnsLeft (s : Config n) : Nat := s.waiting * (4 * n + 10) + s.pace

theorem turnsLeft_nears {s s' : Config n} (hless : s'.waiting < s.waiting)
    (hpace : s'.pace ≤ 4 * n + 9) : s'.turnsLeft < s.turnsLeft := by
  have hmul := Nat.mul_le_mul_right (4 * n + 10) (Nat.succ_le_of_lt hless)
  rw [Nat.succ_mul] at hmul
  simp only [turnsLeft]
  omega

theorem turnsLeft_moves {s s' : Config n} (hsame : s'.waiting = s.waiting)
    (hpace : s'.pace < s.pace) : s'.turnsLeft < s.turnsLeft := by
  simp only [turnsLeft,hsame]
  omega

theorem pace_bounded (s : Config n) : s.pace ≤ 4 * n + 9 := by
  simp only [pace]
  split
  · split_ifs <;> omega
  · split_ifs <;> omega
  · omega
  · omega

def Rested (s : Config n) : Prop := s.stack = [] ∧ s.waiting = 0

theorem waiting_ready {s : Config n} (hs : s.client.state = .ready) :
    s.waiting = if s.client.anyTagBusy then Clock.left s.client.msg.deadline s.world.time + 1
      else 0 := by
  simp only [waiting,PlcClient.waiting,hs]

theorem Calm.loop {s : Config n} (h : Calm s) {k : Nat} {d : Bool}
    (hstack : s.stack = [.scan k d] ∨ s.stack = [.tagCallback k d]) :
    s.client.state = .ready ∧ k ≤ n ∧ (d = true → s.client.anyTagBusy = false) := by
  rcases h.frames with hnone | hone | ⟨hs,j,e,hj,hframe,hlost⟩
  · rw [hnone] at hstack
    simp at hstack
  · rw [hone] at hstack
    simp at hstack
  · have hsame : j = k ∧ e = d := by
      rcases hframe with hframe | hframe <;> rcases hstack with hstack | hstack <;>
        simp_all
    obtain ⟨rfl,rfl⟩ := hsame
    exact ⟨hs,hj,hlost⟩

section

variable {s : Config n} {script : Script} {k : Nat} {d : Bool}

theorem calm_polled (h : Calm s) (htick : Brisk script) (hstack : s.stack = [])
    (hs : s.client.state ≠ .ready)
    (hreach : (enter (s.client.poll (s.world.hear script)) []).Reachable) :
    Calm (enter (s.client.poll (s.world.hear script)) []) ∧ (¬ s.Rested →
      (enter (s.client.poll (s.world.hear script)) []).turnsLeft < s.turnsLeft) := by
  have hheard : s.client.waiting (s.world.hear script).time = s.waiting := rfl
  by_cases hquiet : s.waiting = 0
  · obtain ⟨st,hpoll⟩ := PlcClient.poll_quiet (w := s.world.hear script) h.awake hs hquiet
    rw [hpoll] at hreach ⊢
    exact ⟨⟨hreach,h.awake,Or.inl rfl⟩,fun hgo => absurd ⟨hstack,hquiet⟩ hgo⟩
  · obtain ⟨hscans,hup,hless⟩ := PlcClient.poll_nears (w := s.world.hear script)
      h.reachable.phases h.awake hs hquiet htick
    obtain ⟨hframes,hwait⟩ := enter_over hscans
    refine ⟨⟨hreach,by rw [enter_client]; exact hup,?_⟩,
      fun _ => turnsLeft_nears ?_ (pace_bounded _)⟩
    · rcases hframes with hframes | hframes
      · exact Or.inl hframes
      · exact Or.inr (Or.inl hframes)
    · rw [hwait]
      exact hless

theorem calm_visited_busy (h : Calm s) (htick : Brisk script) (hstack : s.stack = [.scan k d])
    (hlt : k < n) (huse : s.client.inUse ⟨k,hlt⟩ = true) (hbusy : s.client.busy ⟨k,hlt⟩ = true)
    (hreach : ((s.hear script).visit ⟨k,hlt⟩ d []).Reachable) :
    Calm ((s.hear script).visit ⟨k,hlt⟩ d []) ∧
      ((s.hear script).visit ⟨k,hlt⟩ d []).turnsLeft < s.turnsLeft := by
  obtain ⟨hs,_,hlost⟩ := h.loop (Or.inl hstack)
  rcases hvisit : s.client.visit ⟨k,hlt⟩ (s.world.hear script) with ⟨st,called,c,w⟩
  obtain ⟨hclient,hwait,hframe⟩ := visit_over (s := s.hear script) hvisit d
  obtain ⟨hs',hclosed,hless⟩ := PlcClient.visit_nears h.reachable.exclusive huse hbusy hs
    htick.ticking hvisit
  refine ⟨⟨hreach,by rw [hclient,hs']; simp,Or.inr (Or.inr ⟨by rw [hclient,hs'],k + 1,
    d || st = .closed,hlt,hframe,fun hd => ?_⟩)⟩,turnsLeft_nears ?_ (pace_bounded _)⟩
  · rw [hclient]
    rcases (Bool.or_eq_true_iff.mp hd) with hd | hd
    · have hnone := hlost hd
      rw [Bool.eq_false_iff,Ne,PlcClient.anyTagBusy_iff] at hnone
      exact absurd ⟨_,huse,hbusy⟩ hnone
    · exact hclosed (of_decide_eq_true hd)
  · rw [hwait]
    exact hless

theorem calm_visited_still (h : Calm s) (hstack : s.stack = [.scan k d]) (hlt : k < n)
    (hstill : s.client.busy ⟨k,hlt⟩ = false)
    (hreach : ((s.hear script).visit ⟨k,hlt⟩ d []).Reachable) :
    Calm ((s.hear script).visit ⟨k,hlt⟩ d []) ∧
      ((s.hear script).visit ⟨k,hlt⟩ d []).turnsLeft < s.turnsLeft := by
  obtain ⟨hs,_,hlost⟩ := h.loop (Or.inl hstack)
  obtain ⟨called,hvisit⟩ := PlcClient.visit_still hstill (s.world.hear script)
  obtain ⟨hclient,hwait,hframe⟩ := visit_over (s := s.hear script) hvisit d
  have hopen : (d || decide ((s.client.tags ⟨k,hlt⟩).status = .closed)) = d := by
    simp [PlcClient.status_not_closed]
  rw [hopen] at hframe
  refine ⟨⟨hreach,by rw [hclient]; exact h.awake,Or.inr (Or.inr ⟨by rw [hclient]; exact hs,
    k + 1,d,hlt,hframe,by rw [hclient]; exact hlost⟩)⟩,turnsLeft_moves hwait ?_⟩
  have hahead : ((s.hear script).visit ⟨k,hlt⟩ d []).client.ahead (k + 1) ↔
      s.client.ahead k := by
    rw [hclient]
    exact PlcClient.ahead_succ (h := hlt) (Or.inr hstill)
  simp only [pace,hstack]
  rcases hframe with hframe | hframe
  · simp only [hframe,hahead]
    omega
  · simp only [hframe,hahead]
    omega

theorem calm_finished (h : Calm s) (hstack : s.stack = [.scan k d]) (hend : n ≤ k)
    (hreach : (enter (s.client.finish d (s.world.hear script)) []).Reachable) :
    Calm (enter (s.client.finish d (s.world.hear script)) []) ∧
      (enter (s.client.finish d (s.world.hear script)) []).turnsLeft < s.turnsLeft := by
  obtain ⟨hs,_,hlost⟩ := h.loop (Or.inl hstack)
  have hpassed : ¬ s.client.ahead k := by
    rintro ⟨i,_,_,hk⟩
    exact absurd i.isLt (Nat.not_lt.mpr (hend.trans hk))
  cases d with
  | false =>
    refine ⟨⟨hreach,h.awake,Or.inl rfl⟩,turnsLeft_moves rfl ?_⟩
    simp only [pace,hstack,if_neg hpassed,PlcClient.finish,Bool.false_eq_true,if_false,enter]
    omega
  | true =>
    obtain ⟨hframes,hwait⟩ := enter_over (s.client.finish_scans true (s.world.hear script))
    refine ⟨⟨hreach,by rw [enter_client]; simp [PlcClient.finish],?_⟩,turnsLeft_moves ?_ ?_⟩
    · rcases hframes with hframes | hframes
      · exact Or.inl hframes
      · exact Or.inr (Or.inl hframes)
    · rw [hwait,waiting_ready hs,hlost rfl]
      simp [PlcClient.finish,PlcClient.waiting]
    · simp only [pace,hstack,if_neg hpassed]
      rcases hframes with hframes | hframes
      · simp only [hframes]
        omega
      · simp only [hframes]
        omega

end

theorem calm_turn {s : Config n} (h : Calm s) {script : Script} (htick : Brisk script) :
    Calm (s.turn script) ∧ (¬ s.Rested → (s.turn script).turnsLeft < s.turnsLeft) := by
  have hreach := h.reachable.turn script
  have hturned := turn_turned h script
  generalize s.turn script = s' at hturned hreach
  cases hturned with
  | polled hstack hs => exact calm_polled h htick hstack hs hreach
  | scans hstack hs =>
    refine ⟨⟨hreach,h.awake,Or.inr (Or.inr ⟨hs,0,false,Nat.zero_le n,Or.inl rfl,by simp⟩)⟩,
      fun hgo => turnsLeft_moves rfl ?_⟩
    have hbusy : s.client.anyTagBusy = true := by
      by_contra hnone
      exact hgo ⟨hstack,by rw [waiting_ready hs,if_neg hnone]⟩
    have hahead : s.client.ahead 0 := s.client.ahead_zero.mpr hbusy
    simp only [pace,hstack,hear,if_pos hahead]
    omega
  | @skipped k d hlt hstack huse =>
    obtain ⟨hs,_,hlost⟩ := h.loop (Or.inl hstack)
    refine ⟨⟨hreach,h.awake,Or.inr (Or.inr ⟨hs,k + 1,d,hlt,Or.inl rfl,hlost⟩)⟩,
      fun _ => turnsLeft_moves rfl ?_⟩
    simp only [pace,hstack,hear,PlcClient.ahead_succ (h := hlt) (Or.inl huse)]
    omega
  | @visited k d hlt hstack huse =>
    cases hbusy : s.client.busy ⟨k,hlt⟩ with
    | true =>
      obtain ⟨hcalm,hless⟩ := calm_visited_busy h htick hstack hlt huse hbusy hreach
      exact ⟨hcalm,fun _ => hless⟩
    | false =>
      obtain ⟨hcalm,hless⟩ := calm_visited_still h hstack hlt hbusy hreach
      exact ⟨hcalm,fun _ => hless⟩
  | finished hstack hend =>
    obtain ⟨hcalm,hless⟩ := calm_finished h hstack hend hreach
    exact ⟨hcalm,fun _ => hless⟩
  | @told k d hstack =>
    obtain ⟨hs,hk,hlost⟩ := h.loop (Or.inr hstack)
    refine ⟨⟨hreach,h.awake,Or.inr (Or.inr ⟨hs,k,d,hk,Or.inl rfl,hlost⟩)⟩,
      fun _ => turnsLeft_moves rfl ?_⟩
    simp only [pace,hstack,hear]
    omega
  | returned hstack =>
    refine ⟨⟨hreach,h.awake,Or.inl rfl⟩,fun _ => turnsLeft_moves rfl ?_⟩
    simp only [pace,hstack]
    omega

theorem quiet_turn {s : Config n} (h : Calm s) (hquiet : s.waiting = 0) (script : Script) :
    (s.turn script).waiting = 0 := by
  have hturned := turn_turned h script
  generalize s.turn script = s' at hturned
  cases hturned with
  | polled _ hs =>
    obtain ⟨st,hpoll⟩ := PlcClient.poll_quiet (w := s.world.hear script) h.awake hs hquiet
    rw [hpoll]
    exact hquiet
  | scans _ _ => exact hquiet
  | skipped _ _ _ => exact hquiet
  | @visited k d hlt hstack huse =>
    obtain ⟨hs,_,_⟩ := h.loop (Or.inl hstack)
    have hidle : s.client.busy ⟨k,hlt⟩ = false := by
      by_contra hbusy
      rw [Bool.not_eq_false] at hbusy
      rw [waiting_ready hs,if_pos ((PlcClient.anyTagBusy_iff _).mpr ⟨_,huse,hbusy⟩)] at hquiet
      cases hquiet
    obtain ⟨_,heq⟩ := PlcClient.visit_still hidle (s.world.hear script)
    rw [(visit_over (s := s.hear script) heq d).2.1]
    exact hquiet
  | @finished _ d _ _ =>
    cases d with
    | false => exact hquiet
    | true =>
      rw [(enter_over (s.client.finish_scans true (s.world.hear script))).2]
      simp [PlcClient.finish,PlcClient.waiting]
  | told _ => exact hquiet
  | returned _ => exact hquiet

def Answering (s : Config n) : Prop :=
  s.client.state = .ready ∨ s.client.state = .idle ∧ s.client.anyTagBusy = false

theorem answering_turn {s : Config n} (h : Calm s) (hanswers : Answering s) {script : Script}
    (htick : Brisk script) : Answering (s.turn script) := by
  have hturned := turn_turned h script
  generalize s.turn script = s' at hturned
  cases hturned with
  | polled _ hs =>
    obtain ⟨hidle,hnone⟩ := hanswers.resolve_left hs
    have hpoll : s.client.poll (s.world.hear script) =
        (.returns .notReady,s.client,s.world.hear script) := by
      simp [PlcClient.poll,hidle]
    rw [hpoll]
    exact Or.inr ⟨hidle,hnone⟩
  | scans _ _ => exact hanswers
  | skipped _ _ _ => exact hanswers
  | @visited k d hlt hstack huse =>
    obtain ⟨hs,_,_⟩ := h.loop (Or.inl hstack)
    rcases hvisit : s.client.visit ⟨k,hlt⟩ (s.world.hear script) with ⟨st,called,c,w⟩
    refine Or.inl ?_
    rw [(visit_over (s := s.hear script) hvisit d).1]
    by_cases hbusy : s.client.busy ⟨k,hlt⟩ = true
    · exact (PlcClient.visit_nears h.reachable.exclusive huse hbusy hs htick.ticking hvisit).1
    · rw [Bool.not_eq_true] at hbusy
      obtain ⟨_,heq⟩ := PlcClient.visit_still hbusy (s.world.hear script)
      rw [hvisit] at heq
      cases heq
      exact hs
  | @finished k d hstack _ =>
    obtain ⟨hs,_,hlost⟩ := h.loop (Or.inl hstack)
    cases d with
    | false => exact Or.inl hs
    | true =>
      refine Or.inr ?_
      rw [enter_client]
      exact ⟨rfl,hlost rfl⟩
  | told _ => exact hanswers
  | returned _ => exact hanswers

-- What the client settles to: a connection or none, and one trap, a farewell that has failed.
def Waitless (s : Config n) : Prop :=
  match s.client.state with
  | .idle | .failed => True
  | .ready => ∀ handle, s.client.tagStatus handle ≠ .pending
  | .disconnecting => s.client.session.state = .failed
  | .ethernet | .connecting | .registering => False

theorem none_pending {c : PlcClient n} (h : c.anyTagBusy = false) (handle : Int) :
    c.tagStatus handle ≠ .pending := by
  intro hpend
  rw [Bool.eq_false_iff,Ne,PlcClient.anyTagBusy_iff] at h
  simp only [PlcClient.tagStatus] at hpend
  split at hpend
  · cases hpend
  · next i hvalid =>
    exact h ⟨i,(PlcClient.validHandle_eq_some.mp hvalid).2,(Tag.status_pending _).mp hpend⟩

theorem waitless_of_rested {s : Config n} (h : Calm s) (hquiet : s.waiting = 0) : Waitless s := by
  have hup := h.awake
  simp only [Waitless]
  simp only [waiting,PlcClient.waiting] at hquiet
  cases hs : s.client.state with
  | idle => trivial
  | failed => trivial
  | ethernet => exact absurd hs hup
  | connecting => simp [hs,span] at hquiet
  | registering => simp [hs,span] at hquiet
  | ready =>
    refine none_pending ?_
    by_contra hbusy
    simp [hs,hbusy] at hquiet
  | disconnecting =>
    by_contra hlong
    simp [hs,hlong] at hquiet

theorem calm_run {s : Config n} (h : Calm s) {scripts : List Script}
    (htick : ∀ script ∈ scripts, Brisk script) :
    Calm (Runs.run turn s scripts) ∧ (s.waiting = 0 → (Runs.run turn s scripts).waiting = 0) ∧
      (Answering s → Answering (Runs.run turn s scripts)) := by
  have hguard : Runs.Guarded turn (fun _ script => Brisk script) s scripts :=
    Runs.guarded_all htick s
  have hcalm := @Runs.invariant_run _ _ (turn (n := n)) (fun _ script => Brisk script) Calm
    (fun s script h hbrisk => (calm_turn h hbrisk).1) s scripts h hguard
  refine ⟨hcalm,fun hquiet => ?_,fun hanswers => ?_⟩
  · exact (@Runs.invariant_run _ _ (turn (n := n)) (fun _ script => Brisk script)
      (fun s => Calm s ∧ s.waiting = 0)
      (fun s script h hbrisk => ⟨(calm_turn h.1 hbrisk).1,quiet_turn h.1 h.2 script⟩) s scripts
      ⟨h,hquiet⟩ hguard).2
  · exact (@Runs.invariant_run _ _ (turn (n := n)) (fun _ script => Brisk script)
      (fun s => Calm s ∧ Answering s)
      (fun s script h hbrisk => ⟨(calm_turn h.1 hbrisk).1,answering_turn h.1 h.2 hbrisk⟩)
      s scripts ⟨h,hanswers⟩ hguard).2

theorem turnsLeft_bounded (s : Config n) : s.turnsLeft < 3 * span * (4 * n + 10) := by
  have hpace := s.pace_bounded
  have hmul := Nat.mul_le_mul_right (4 * n + 10)
    (Nat.succ_le_of_lt (s.client.waiting_bounded s.world.time))
  rw [Nat.succ_mul] at hmul
  simp only [turnsLeft,waiting]
  omega

end Config

open Config in
theorem client_settles {n : Nat} {s : Config n} (hs : s.Reachable) (hstack : s.stack = [])
    (hup : s.client.state ≠ .ethernet) {scripts : List Script}
    (htick : ∀ script ∈ scripts, Brisk script) (hlen : 3 * span * (4 * n + 10) ≤ scripts.length) :
    ∃ pre post, scripts = pre ++ post ∧ (Runs.run turn s pre).stack = [] ∧
      ∀ mid, mid <+: post → Waitless (Runs.run turn s (pre ++ mid)) ∧ (s.client.state = .ready →
        ∀ handle, (Runs.run turn s (pre ++ mid)).client.tagStatus handle ≠ .pending) := by
  have hcalm : Calm s := ⟨hs,hup,Or.inl hstack⟩
  have hguard : Runs.Guarded turn (fun _ script => Brisk script) s scripts :=
    Runs.guarded_all htick s
  obtain ⟨pre,post,rfl,hrested⟩ := @Runs.reaches _ _ (turn (n := n)) (fun _ script => Brisk script)
    Calm Rested turnsLeft
    (fun s script h hbrisk hgo => ⟨(calm_turn h hbrisk).1,(calm_turn h hbrisk).2 hgo⟩) s scripts
    hcalm hguard (Nat.lt_of_lt_of_le s.turnsLeft_bounded hlen)
  obtain ⟨hcalm',_,hanswers⟩ := calm_run hcalm fun script h => htick script
    (List.mem_append_left post h)
  refine ⟨pre,post,rfl,hrested.1,fun mid hmid => ?_⟩
  have htick' : ∀ script ∈ mid, Brisk script := fun script h =>
    htick script (List.mem_append_right pre (hmid.subset h))
  obtain ⟨hcalm'',hquiet,hanswers'⟩ := calm_run hcalm' htick'
  rw [Runs.run_append]
  have hquiet' := hquiet hrested.2
  refine ⟨waitless_of_rested hcalm'' hquiet',fun hready => ?_⟩
  rcases hanswers' (hanswers (Or.inl hready)) with hs' | ⟨_,hnone⟩
  · have hsettled := waitless_of_rested hcalm'' hquiet'
    simpa only [Waitless,hs'] using hsettled
  · exact none_pending hnone

namespace Sample

theorem reading_settles : ∃ pre, (Runs.run Config.turn (after reading) pre).stack = [] ∧
    Config.Waitless (Runs.run Config.turn (after reading) pre) ∧
      ∀ handle, (Runs.run Config.turn (after reading) pre).client.tagStatus handle ≠ .pending := by
  have hready : (after reading).client.state = .ready := by decide +kernel
  obtain ⟨pre,post,_,hstack,hall⟩ := client_settles (s := after reading) ⟨_,_,_,rfl⟩
    (by decide +kernel) (by rw [hready]; decide)
    (fun script hscript => (by
      rw [List.eq_of_mem_replicate hscript]
      exact ⟨by decide,by decide⟩ : Brisk script))
    (Nat.le_of_eq (@List.length_replicate _ _ ({ticks := [1]} : Script)).symm)
  obtain ⟨hsettled,hnone⟩ := hall [] List.nil_prefix
  rw [List.append_nil] at hsettled hnone
  exact ⟨pre,hstack,hsettled,hnone hready⟩

end Sample

end ControlLogix
