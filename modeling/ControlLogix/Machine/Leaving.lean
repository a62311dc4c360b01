import ControlLogix.Machine.Exclusive

namespace ControlLogix.Config

variable {n : Nat}

-- The steps that may take the client out of Ready: three calls, and the end of a poll() that
-- found the connection lost.
def leaves (s : Config n) (l : Label) : Bool :=
  match l.act with
  | .call .begin => true
  | .call (.connect _ _ _) => true
  | .call .disconnect => true
  | .advance =>
    match s.stack with
    | .scan next disconnected :: _ => disconnected && n ≤ next
    | _ => false
  | _ => false

theorem started_state {s : Config n} {handle : Int} {r : Status × PlcClient n × World}
    (h : PlcClient.Started s.client handle s.world r) (stack : List Frame) :
    (started handle r stack).client.state = s.client.state := by
  cases h <;> rfl

theorem call_ready {s : Config n} (op : Op) (hs : s.client.state = .ready)
    (hop : op ≠ .begin) (hconn : ∀ ip port timeoutMs, op ≠ .connect ip port timeoutMs)
    (hdis : op ≠ .disconnect) : (s.call op).client.state = .ready := by
  cases op with
  | begin => exact absurd rfl hop
  | connect ip port timeoutMs => exact absurd rfl (hconn ip port timeoutMs)
  | disconnect => exact absurd rfl hdis
  | poll =>
    simp only [call,PlcClient.poll,hs]
    exact hs
  | createTag name elementCount =>
    simp only [call,createTag]
    rcases s.client.createTag_cases name elementCount with ⟨h,_,heq⟩ | ⟨i,_,_,_,_,heq⟩
    · rw [heq]
      exact hs
    · rw [heq]
      exact hs
  | destroyTag handle =>
    simp only [call,PlcClient.destroyTag]
    split <;> exact hs
  | read handle timeoutMs => exact (started_state (s.client.read_started _ _ _) _).trans hs
  | write handle timeoutMs => exact (started_state (s.client.write_started _ _ _) _).trans hs
  | abortTag handle =>
    simp only [call,abortTag,PlcClient.abortTag]
    split <;> exact hs
  | setTag handle f =>
    simp only [call,setTag,PlcClient.setTag]
    split <;> exact hs
  | setCpuSlot slot => exact hs
  | setTagCallback set => exact hs
  | setStateCallback set => exact hs

theorem visit_state (s : Config n) (i : Fin n) (disconnected : Bool) (stack : List Frame) :
    (s.visit i disconnected stack).client.state = s.client.state := by
  have hkeep : (s.client.visit i s.world).2.2.1.state = s.client.state := rfl
  rcases hvisit : s.client.visit i s.world with ⟨st,called,c,w⟩
  rw [hvisit] at hkeep
  simp only [visit,hvisit]
  cases called <;> exact hkeep

theorem step_ready {s : Config n} {l : Label} (hs : s.client.state = .ready)
    (hl : s.leaves l = false) : (s.step l).client.state = .ready := by
  obtain ⟨a,script⟩ := l
  have hheard : (s.hear script).client.state = .ready := hs
  cases a with
  | call op =>
    simp only [step,act]
    split
    · exact hs
    · exact call_ready op hheard (by rintro rfl; simp [leaves] at hl)
        (by rintro ip port timeoutMs rfl; simp [leaves] at hl) (by rintro rfl; simp [leaves] at hl)
  | advance =>
    simp only [step,act,advance]
    split
    · next next disconnected stack hstack =>
      split_ifs with hin huse
      · exact (visit_state _ _ _ _).trans hs
      · exact hs
      · have hstay : disconnected = false := by
          have hs' : s.stack = .scan next disconnected :: stack := hstack
          simpa [leaves,hs',not_lt.mp hin] using hl
        rw [enter_client,hstay]
        exact hs
    · exact hs
  | ret =>
    simp only [step,act,ret]
    split <;> exact hs

theorem flight_begins {s : Config n} {l : Label} (hex : s.client.Exclusive s.world.log)
    (hm : s.client.msg.inFlight = false) (hm' : (s.step l).client.msg.inFlight = true) :
    (s.step l).client.state = .ready := by
  cases s.step_move l with
  | quiet hk _ _ => simp [hk.msg,hm] at hm'
  | created i _ _ _ _ _ _ hc _ =>
    obtain ⟨_,_,hc⟩ := hc
    simp [hc,hm] at hm'
  | destroyed i _ _ _ _ hc _ => simp [hc,hm] at hm'
  | started i g _ _ _ _ _ _ _ hready _ _ _ _ _ _ _ hc _ =>
    rw [hc]
    exact hready
  | typed i f _ hc _ => simp [hc,hm] at hm'
  | aborted i _ hc _ =>
    rw [hc] at hm'
    simp only [Tag.abort] at hm'
    split at hm'
    · cases hm'
    · simp [hm] at hm'
  | visited i _ _ st g m t w' _ _ _ hpoll hc _ =>
    rcases hex.poll_cases hpoll with ⟨_,hfly,_⟩ | ⟨_,_,_,rfl,_,_⟩
    · simp [hm] at hfly
    · simp [hc,hm] at hm'

def Settled (s : Config n) : Prop :=
  s.client.Exclusive s.world.log ∧ (s.client.state ≠ .ready → s.client.msg.inFlight = false)

theorem settled_step {s : Config n} {l : Label} (h : Settled s)
    (hg : (s.leaves l && s.client.msg.inFlight) = false) : Settled (s.step l) := by
  refine ⟨s.exclusive_step l h.1,fun hs' => ?_⟩
  by_contra hfly
  rw [Bool.not_eq_false] at hfly
  cases hm : s.client.msg.inFlight with
  | false => exact hs' (flight_begins h.1 hm hfly)
  | true =>
    have hs : s.client.state = .ready := by
      by_contra hne
      simp [h.2 hne] at hm
    exact hs' (step_ready hs (by simpa [hm] using hg))

theorem settled_after (memory : Fin n → Buffer Tag.kMaxDataSize) (time : Nat) {ls : List Label}
    (hrun : Runs.Guarded step (fun s l => (s.leaves l && s.client.msg.inFlight) = false)
      (init memory time) ls) : Settled (after memory time ls) :=
  Runs.invariant_run (fun _ _ h hg => settled_step h hg)
    (show Settled (init memory time) from ⟨PlcClient.exclusive_init memory time,fun _ => rfl⟩) hrun

theorem operations_end_with_connection (memory : Fin n → Buffer Tag.kMaxDataSize) (time : Nat)
    (ls : List Label)
    (hrun : Runs.Guarded step (fun s l => (s.leaves l && s.client.msg.inFlight) = false)
      (init memory time) ls) :
    let s := after memory time ls
    s.client.state ≠ .ready →
      s.client.msg.inFlight = false ∧ ∀ handle, s.client.tagStatus handle ≠ .pending := by
  intro s hs
  obtain ⟨hex,hidle⟩ := settled_after memory time hrun
  refine ⟨hidle hs,fun handle hpend => ?_⟩
  simp only [PlcClient.tagStatus] at hpend
  split at hpend
  · cases hpend
  · have hm := hex.msg_inFlight ((Tag.status_pending _).mp hpend)
    simp [hidle hs] at hm

end ControlLogix.Config

namespace ControlLogix.Sample

def hangUp : List Label :=
  [call .disconnect,call .poll {sends := [.ok 24], recvs := [.ok unregisterReply]}]

def quitReading : List Label :=
  online ++ [call (.createTag tagA 1),call (.read 0 1000)] ++ hangUp

def quitDone : List Label :=
  online ++ [call (.createTag tagA 1),call (.read 0 1000)] ++
    sweep {sends := [.ok 48], recvs := [.ok (dataReply 1 dint)]} ++ hangUp

theorem operations_end_quitDone :
    let s := after quitDone
    s.client.state = .idle ∧ .ended 0 .ok true (dataReply 1 dint) ∈ s.world.log ∧
      s.client.msg.inFlight = false ∧ ∀ handle, s.client.tagStatus handle ≠ .pending :=
  have hidle : (after quitDone).client.state = .idle := by decide +kernel
  ⟨hidle,by decide +kernel,Config.operations_end_with_connection memory 0 quitDone
    (by decide +kernel) (show (after quitDone).client.state ≠ .ready by rw [hidle]; decide)⟩

theorem disconnect_leaves_tag_pending :
    let s := after quitReading
    s.client.state = .idle ∧ s.client.tcp.fd = -1 ∧ s.client.msg.inFlight = true ∧
      s.client.tagStatus 0 = .pending ∧
        ∀ w, s.client.poll w = (.returns .notReady,s.client,w) := by
  have hidle : (after quitReading).client.state = .idle := by decide +kernel
  refine ⟨hidle,by decide +kernel,by decide +kernel,by decide +kernel,fun w => ?_⟩
  simp [PlcClient.poll,hidle]

end ControlLogix.Sample
