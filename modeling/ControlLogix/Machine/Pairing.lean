import ControlLogix.Machine.Leaving
import ControlLogix.Machine.Transitions

namespace ControlLogix

def told : List Event → List Status
  | [] => []
  | .stateCallback st :: log => told log ++ [st]
  | _ :: log => told log

def inTurn (i : Nat) : Status := if i % 2 = 0 then .ok else .closed

def Alternates (sts : List Status) : Prop := sts = (List.range sts.length).map inTurn

instance (sts : List Status) : Decidable (Alternates sts) :=
  inferInstanceAs (Decidable (sts = (List.range sts.length).map inTurn))

theorem Alternates.snoc {sts : List Status} (h : Alternates sts) {st : Status}
    (hst : st = inTurn sts.length) : Alternates (sts ++ [st]) := by
  unfold Alternates at h ⊢
  rw [List.length_append,List.length_singleton,List.range_succ,List.map_append,← h,hst]
  rfl

theorem Alternates.getLast {sts : List Status} (h : Alternates sts) :
    sts.getLast? = some .ok ↔ sts.length % 2 = 1 := by
  rw [h,List.getLast?_map,List.length_map,List.length_range]
  cases sts.length with
  | zero => simp
  | succ k =>
    simp only [List.range_succ,List.getLast?_append,List.getLast?_singleton,Option.some_or,
      Option.map_some,Option.some.injEq,inTurn]
    split <;> simp <;> omega

def PlcClient.State.announced : PlcClient.State → Bool
  | .ready => true
  | .disconnecting => true
  | _ => false

theorem announced_iff {st : PlcClient.State} :
    st.announced = true ↔ st = .ready ∨ st = .disconnecting := by
  cases st <;> simp [PlcClient.State.announced]

def PlcClient.State.turn (st : PlcClient.State) : Status := if st.announced then .closed else .ok

theorem told_spoke {w w' : World} (h : World.Spoke w w') : told w'.log = told w.log :=
  h.reading fun e he es => by cases e <;> simp_all [Event.board,told]

namespace Config

variable {n : Nat}

-- A state callback is set wherever the client may come to invoke it.
def listened (s : Config n) (l : Label) : Bool :=
  match l.act with
  | .call .poll => s.client.stateCallback
  | .advance => s.client.stateCallback
  | _ => true

-- A connection that was announced is given up without a word, or a poll() that found a tag Closed
-- comes to its end when the connection has ended already.
def skips (s : Config n) (l : Label) : Bool :=
  match l.act with
  | .call .begin => !s.scanning && s.client.state.announced
  | .call (.connect _ _ _) => !s.scanning && s.client.state.announced
  | .call .disconnect => !s.scanning && s.client.state = .disconnecting
  | .advance =>
    match s.stack with
    | .scan next disconnected :: _ =>
      disconnected && n ≤ next && !s.client.state.announced
    | _ => false
  | _ => false

inductive Telling (s s' : Config n) : Prop
  | silent : told s'.world.log = told s.world.log →
      s'.client.state.announced = s.client.state.announced → Telling s s'
  | tells : told s'.world.log = told s.world.log ++ [s.client.state.turn] →
      s'.client.state.announced = !s.client.state.announced → Telling s s'

theorem visitMarks_told (i : Nat) (st : Status) (m : ExplicitMessage) (inFlight called : Bool)
    (log : List Event) : told (visitMarks i st m inFlight called ++ log) = told log := by
  rw [visitMarks]
  split_ifs <;> rfl

theorem move_silent {s s' : Config n} {op : Op} (h : TagMove s (.call op) s.world s')
    (hbegin : op ≠ .begin) (hconn : ∀ ip port timeoutMs, op ≠ .connect ip port timeoutMs)
    (hdis : op ≠ .disconnect) (hpoll : op ≠ .poll) : Telling s s' := by
  cases h with
  | quiet _ _ hmove =>
    cases hmove with
    | still hstate _ _ _ hlog => exact .silent (by rw [hlog]) (by rw [hstate])
    | begun ha _ _ => exact absurd (Act.call.inj ha) hbegin
    | connected ip port timeoutMs ha _ _ => exact absurd (Act.call.inj ha) (hconn _ _ _)
    | disconnected ha _ _ => exact absurd (Act.call.inj ha) hdis
    | polled _ ha _ _ _ => exact absurd (Act.call.inj ha) hpoll
    | finished _ ha _ _ _ => cases ha
  | created i _ _ _ _ _ _ hc hlog =>
    obtain ⟨_,_,hc⟩ := hc
    exact .silent (by rw [hlog]; rfl) (by rw [hc])
  | destroyed i _ _ _ _ hc hlog => exact .silent (by rw [hlog]) (by rw [hc])
  | started i _ _ _ _ _ _ _ _ _ _ _ _ _ _ _ _ hc hlog =>
    exact .silent (by rw [hlog]; rfl) (by rw [hc])
  | typed i _ _ hc hlog =>
    refine .silent ?_ (by rw [hc])
    rw [hlog]
    split <;> rfl
  | aborted i _ hc hlog =>
    refine .silent ?_ (by rw [hc])
    rw [hlog]
    split <;> rfl
  | visited _ _ _ _ _ _ _ _ ha => cases ha

theorem poll_tells {c : PlcClient n} (hset : c.stateCallback = true) (w : World) :
    enterMarks (c.poll w).1 = [] ∧ (c.poll w).2.1.state.announced = c.state.announced ∨
      enterMarks (c.poll w).1 = [.stateCallback c.state.turn] ∧
        (c.poll w).2.1.state.announced = !c.state.announced := by
  have hnotify (arg st : Status) : enterMarks (c.notify arg st) = [.stateCallback arg] := by
    rw [enterMarks_notify,if_pos hset]
  simp only [PlcClient.poll]
  cases hs : c.state with
  | ethernet =>
    simp only [PlcClient.pollEthernet]
    split_ifs <;> exact Or.inl ⟨rfl,by simp [hs,PlcClient.State.announced]⟩
  | connecting =>
    simp only [PlcClient.pollConnecting]
    split_ifs <;> exact Or.inl ⟨rfl,by simp [hs,PlcClient.State.announced]⟩
  | registering =>
    simp only [PlcClient.pollRegistering]
    split_ifs
    · exact Or.inl ⟨rfl,rfl⟩
    · exact Or.inr ⟨hnotify .ok .ok,rfl⟩
    · exact Or.inl ⟨rfl,rfl⟩
    · exact Or.inl ⟨rfl,by simp [hs,PlcClient.State.announced]⟩
  | disconnecting =>
    simp only [PlcClient.pollDisconnecting]
    split_ifs
    · exact Or.inr ⟨hnotify .closed .ok,rfl⟩
    · exact Or.inl ⟨rfl,by simp [hs,PlcClient.State.announced]⟩
  | ready => exact Or.inl ⟨rfl,by simp [hs]⟩
  | failed => exact Or.inl ⟨rfl,by simp [hs]⟩
  | idle => exact Or.inl ⟨rfl,by simp [hs]⟩

theorem poll_telling {s : Config n} (hset : s.client.stateCallback = true) :
    Telling s (s.call .poll) := by
  have hspoke := told_spoke (s.client.poll_kept s.world).2
  rcases poll_tells hset s.world with ⟨hmarks,hstate⟩ | ⟨hmarks,hstate⟩
  · refine .silent ?_ (by rw [call,enter_client,hstate])
    rw [call,enter_log,hmarks]
    exact hspoke
  · refine .tells ?_ (by rw [call,enter_client,hstate])
    rw [call,enter_log,hmarks]
    simp only [List.singleton_append,told,hspoke]

theorem finish_telling {s : Config n} (hset : s.client.stateCallback = true)
    {disconnected : Bool} (h : disconnected = true → s.client.state.announced = true)
    (stack : List Frame) : Telling s (enter (s.client.finish disconnected s.world) stack) := by
  cases disconnected with
  | false => exact .silent rfl rfl
  | true =>
    have hspoke := told_spoke (s.client.finish_kept true s.world).2
    have hmarks : enterMarks (s.client.finish true s.world).1 = [.stateCallback .closed] := by
      simp only [PlcClient.finish,if_true]
      rw [enterMarks_notify,if_pos hset]
    refine .tells ?_ ?_
    · rw [enter_log,hmarks,PlcClient.State.turn,if_pos (h rfl)]
      simp only [List.singleton_append,told,hspoke]
    · rw [enter_client,h rfl]
      rfl

theorem disconnect_telling {s : Config n} (h : s.client.state ≠ .disconnecting) :
    Telling s (s.call .disconnect) := by
  have hspoke := told_spoke (s.client.disconnect_kept s.world).2
  refine .silent hspoke ?_
  simp only [call,PlcClient.disconnect]
  split
  · next hready =>
    rw [hready]
    rfl
  · cases hs : s.client.state with
    | ready => contradiction
    | disconnecting => contradiction
    | _ => rfl

theorem dials_silent {t tcp : TcpConnection} {st : PlcClient.State} {w w' : World}
    (h : PlcClient.Dials t w tcp st w') : st.announced = false := by
  cases h <;> rfl

theorem call_telling {s : Config n} {op : Op} (hset : s.listened {act := .call op} = true)
    (hscan : s.scanning = false) (hg : s.skips {act := .call op} = false) :
    Telling s (s.call op) := by
  simp only [skips,hscan] at hg
  cases op with
  | begin =>
    have hold : s.client.state.announced = false := by simpa using hg
    refine .silent (told_spoke (s.client.begin_kept s.world).2) ?_
    rw [hold]
    rfl
  | connect ip port timeoutMs =>
    have hspoke := told_spoke (s.client.connect_kept ip port timeoutMs s.world).2
    refine .silent hspoke ?_
    have hold : s.client.state.announced = false := by simpa using hg
    rw [hold,call]
    obtain ⟨st,c',w',heq,⟨_,_,_,hstate,_⟩ | ⟨_,_,_,hdial⟩⟩ :=
      s.client.connect_cases ip port timeoutMs s.world
    · rw [heq]
      simp only [hstate]
      rfl
    · rw [heq]
      exact dials_silent hdial
  | disconnect => exact disconnect_telling (by simpa using hg)
  | poll => exact poll_telling hset
  | _ => exact move_silent (s.call_move _) (by simp) (by simp) (by simp) (by simp)

theorem visit_telling {s : Config n} (hex : s.client.Exclusive s.world.log) (i : Fin n)
    (disconnected : Bool) (stack : List Frame) : Telling s (s.visit i disconnected stack) := by
  rcases hpoll : (s.client.tags i).poll s.client.msg s.client.tcp s.world with ⟨st,g,m,t,w⟩
  refine .silent ?_ (by rw [visit_client disconnected stack hpoll])
  rw [visit_log disconnected stack hpoll,visitMarks_told]
  exact told_spoke (hex.poll_moved hpoll).spoke

theorem advance_telling {s : Config n} (hex : s.client.Exclusive s.world.log)
    (hset : s.client.stateCallback = true) (hg : s.skips {act := .advance} = false) :
    Telling s s.advance := by
  unfold advance
  split
  · next next disconnected stack hstack =>
    split_ifs with hin huse
    · exact visit_telling hex _ _ _
    · exact .silent rfl rfl
    · refine finish_telling hset (fun hd => ?_) stack
      simpa [skips,hstack,hd,Nat.le_of_not_lt hin] using hg
  · exact .silent rfl rfl

theorem telling_step {s : Config n} {l : Label} (hex : s.client.Exclusive s.world.log)
    (hset : s.listened l = true) (hg : s.skips l = false) : Telling s (s.step l) := by
  obtain ⟨a,script⟩ := l
  have hheard : ∀ s', Telling (s.hear script) s' → Telling s s' := fun s' h => by
    cases h with
    | silent htold hstate => exact .silent htold hstate
    | tells htold hstate => exact .tells htold hstate
  apply hheard
  cases a with
  | call op =>
    simp only [step,act]
    split
    · exact .silent rfl rfl
    · next hscan => exact call_telling hset (by simpa using hscan) hg
  | advance => exact advance_telling hex hset hg
  | ret =>
    simp only [step,act,ret]
    split <;> exact .silent rfl rfl

structure Paired (s : Config n) : Prop where
  exclusive : s.client.Exclusive s.world.log
  alternates : Alternates (told s.world.log)
  announced : inTurn (told s.world.log).length = s.client.state.turn

theorem inTurn_turn {st : PlcClient.State} {k : Nat} :
    inTurn k = st.turn ↔ (k % 2 = 1 ↔ st.announced = true) := by
  rcases Nat.mod_two_eq_zero_or_one k with hk | hk
  · cases hst : st.announced <;> simp [inTurn,PlcClient.State.turn,hk,hst]
  · cases hst : st.announced <;> simp [inTurn,PlcClient.State.turn,hk,hst]

theorem turn_not {st st' : PlcClient.State} (h : st'.announced = !st.announced) {k : Nat}
    (hturn : inTurn k = st.turn) : inTurn (k + 1) = st'.turn := by
  rw [inTurn_turn] at hturn ⊢
  rw [h,Bool.not_eq_true',← Bool.not_eq_true,← hturn]
  omega

theorem paired_step {s : Config n} {l : Label} (h : Paired s)
    (hg : s.listened l = true ∧ s.skips l = false) : Paired (s.step l) := by
  have hex := s.exclusive_step l h.exclusive
  cases telling_step h.exclusive hg.1 hg.2 with
  | silent htold hstate =>
    refine ⟨hex,by rw [htold]; exact h.alternates,?_⟩
    rw [htold,h.announced,PlcClient.State.turn,PlcClient.State.turn,hstate]
  | tells htold hstate =>
    refine ⟨hex,?_,?_⟩
    · rw [htold]
      exact h.alternates.snoc h.announced.symm
    · rw [htold,List.length_append,List.length_singleton]
      exact turn_not hstate h.announced

theorem callbacks_pair_up (memory : Fin n → Buffer Tag.kMaxDataSize) (time : Nat)
    (ls : List Label)
    (hrun : Runs.Guarded step (fun s l => s.listened l = true ∧ s.skips l = false)
      (init memory time) ls) :
    let s := after memory time ls
    Alternates (told s.world.log) ∧
      ((told s.world.log).getLast? = some .ok ↔
        s.client.state = .ready ∨ s.client.state = .disconnecting) := by
  have h : Paired (after memory time ls) := Runs.invariant_run (fun _ _ h hg => paired_step h hg)
    (show Paired (init memory time) from ⟨PlcClient.exclusive_init memory time,rfl,rfl⟩) hrun
  refine ⟨h.alternates,?_⟩
  rw [h.alternates.getLast,inTurn_turn.mp h.announced]
  exact announced_iff

end Config

namespace Sample

def announced : List Label := call (.setStateCallback true) :: online ++ [{act := .ret}]

def redial : List Label :=
  [call (.connect 1 44818 5000) {sockets := [4]},call .poll {selects := [1]},
    call .poll {sends := [.ok 28], recvs := [.ok (registerReply 9)]}]

def rejoined : List Label := announced ++ hangUp ++ [{act := .ret}] ++ redial

def replaced : List Label := announced ++ redial

theorem callbacks_pair_up_rejoined :
    told (after rejoined).world.log = [.ok,.closed,.ok] ∧
      Alternates (told (after rejoined).world.log) :=
  ⟨by decide +kernel,(Config.callbacks_pair_up memory 0 rejoined (by decide +kernel)).1⟩

theorem replaced_is_not_closed :
    Runs.Guarded Config.step (fun s l => s.listened l = true) (Config.init memory 0) replaced ∧
      told (after replaced).world.log = [.ok,.ok] ∧
        ¬ Alternates (told (after replaced).world.log) := by
  decide +kernel

end Sample

end ControlLogix
