import ControlLogix.Sketch.LanSteps

namespace ControlLogix

namespace LanInventory

open IPAddress

-- Behind one address and up to another, without the gateway's and the board's own.
def targets (gateway own : IPAddress) (low high : Nat) : List Nat :=
  (List.range' (low + 1) (high - low)).filter fun n => n ≠ gateway.number ∧ n ≠ own.number

-- The first address that is not a host's. A subnet of a single address has none behind it, and
-- the sweep goes on to the end of all addresses.
def sweepEnd (network broadcast : IPAddress) : Nat :=
  if network.number < broadcast.number then broadcast.number else 4294967296

theorem targets_self (gateway own : IPAddress) (low : Nat) : targets gateway own low low = [] := by
  simp [targets]

theorem targets_succ {gateway own : IPAddress} {low high : Nat} (h : low ≤ high) :
    targets gateway own low (high + 1) = targets gateway own low high ++
      [high + 1].filter fun n => n ≠ gateway.number ∧ n ≠ own.number := by
  have hcount : high + 1 - low = high - low + 1 := by omega
  have hlast : low + 1 + (high - low) = high + 1 := by omega
  rw [targets,targets,hcount,List.range'_1_concat,hlast,List.filter_append]

theorem mem_targets {gateway own : IPAddress} {low high n : Nat} :
    n ∈ targets gateway own low high ↔
      low < n ∧ n ≤ high ∧ n ≠ gateway.number ∧ n ≠ own.number := by
  simp only [targets,List.mem_filter,List.mem_range'_1,decide_eq_true_eq]
  omega

theorem next_number {s : LanInventory} (hgo : ¬ s.stopsAt s.currentIp.nextHost) :
    s.currentIp.nextHost.2.number = s.currentIp.number + 1 := by
  rw [stopsAt,not_or] at hgo
  rcases s.currentIp.nextHost_number with ⟨_,hnext⟩ | ⟨hstop,_⟩
  · exact hnext
  · exact absurd hstop hgo.1

-- The sweep on its way: what has been probed is what lies between the network address and the
-- current one.
structure Sweeps (own mask : IPAddress) (s : LanInventory) : Prop where
  network : s.network = own.network mask
  broadcast : s.broadcast = own.broadcast mask
  low : s.network.number ≤ s.currentIp.number
  high : s.currentIp.number < sweepEnd s.network s.broadcast
  probed : s.probed.map number = targets s.gateway own s.network.number s.currentIp.number

def Swept (own mask : IPAddress) (s : LanInventory) : Prop :=
  match s.phase with
  | .waitEthernet => s.probed = []
  | .done => s.probed = [] ∧ s.eth.failed = true ∨ s.probed.map number =
      targets s.gateway own (own.network mask).number
        (sweepEnd (own.network mask) (own.broadcast mask) - 1)
  | _ => Sweeps own mask s

section

variable {own mask : IPAddress} {s : LanInventory}

theorem Sweeps.next (h : Sweeps own mask s) (hgo : ¬ s.stopsAt s.currentIp.nextHost) :
    s.currentIp.nextHost.2.number = s.currentIp.number + 1 ∧
      s.currentIp.number + 1 < sweepEnd s.network s.broadcast := by
  have hlow := h.low
  have hhigh := h.high
  have hnext := next_number hgo
  have hlt := s.currentIp.nextHost.2.number_lt
  have hne : s.currentIp.nextHost.2.number ≠ s.broadcast.number :=
    fun hsame => hgo (Or.inr (number_injective hsame))
  refine ⟨hnext,?_⟩
  rw [sweepEnd] at hhigh ⊢
  split_ifs at hhigh ⊢ <;> omega

theorem Sweeps.last (h : Sweeps own mask s) (hstop : s.stopsAt s.currentIp.nextHost) :
    s.currentIp.number = sweepEnd s.network s.broadcast - 1 := by
  have hlow := h.low
  have hhigh := h.high
  have hbroadcast := s.broadcast.number_lt
  rcases s.currentIp.nextHost_number with ⟨hmore,hnext⟩ | ⟨_,hend⟩
  · have hsame := hstop.resolve_left (by simp [hmore])
    rw [hsame] at hnext
    rw [sweepEnd] at hhigh ⊢
    split_ifs at hhigh ⊢ <;> omega
  · rw [sweepEnd] at hhigh ⊢
    split_ifs at hhigh ⊢ <;> omega

theorem Sweeps.same (h : Sweeps own mask s) {s' : LanInventory} (hgateway : s'.gateway = s.gateway)
    (hnetwork : s'.network = s.network) (hbroadcast : s'.broadcast = s.broadcast)
    (hcurrent : s'.currentIp = s.currentIp) (hprobed : s'.probed = s.probed) :
    Sweeps own mask s' := by
  obtain ⟨h₁,h₂,h₃,h₄,h₅⟩ := h
  refine ⟨?_,?_,?_,?_,?_⟩ <;> simp only [hgateway,hnetwork,hbroadcast,hcurrent,hprobed] <;> assumption

theorem Sweeps.passes (h : Sweeps own mask s) (hgo : ¬ s.stopsAt s.currentIp.nextHost)
    (hskip : s.currentIp.nextHost.2 = s.gateway ∨ s.currentIp.nextHost.2 = own) :
    Sweeps own mask {s with currentIp := s.currentIp.nextHost.2} := by
  obtain ⟨hnext,hless⟩ := h.next hgo
  have hlow := h.low
  have hout : ¬ (s.currentIp.number + 1 ≠ s.gateway.number ∧
      s.currentIp.number + 1 ≠ own.number) := by
    rw [← hnext,not_and_or,not_not,not_not]
    exact hskip.imp (congrArg number) (congrArg number)
  refine ⟨h.network,h.broadcast,?_,?_,?_⟩
  · simp only [hnext]
    omega
  · simp only [hnext]
    exact hless
  · simp only [hnext]
    rw [targets_succ hlow,List.filter_singleton,decide_eq_false hout,h.probed]
    exact (List.append_nil _).symm

theorem Sweeps.probes (h : Sweeps own mask s) (hgo : ¬ s.stopsAt s.currentIp.nextHost)
    (hskip : ¬ (s.currentIp.nextHost.2 = s.gateway ∨ s.currentIp.nextHost.2 = own)) :
    Sweeps own mask {s with currentIp := s.currentIp.nextHost.2,
                            probed := s.probed ++ [s.currentIp.nextHost.2]} := by
  obtain ⟨hnext,hless⟩ := h.next hgo
  have hlow := h.low
  have hin : s.currentIp.number + 1 ≠ s.gateway.number ∧
      s.currentIp.number + 1 ≠ own.number := by
    rw [not_or] at hskip
    rw [← hnext]
    exact ⟨fun heq => hskip.1 (number_injective heq),fun heq => hskip.2 (number_injective heq)⟩
  refine ⟨h.network,h.broadcast,?_,?_,?_⟩
  · simp only [hnext]
    omega
  · simp only [hnext]
    exact hless
  · simp only [hnext,List.map_append,List.map_cons,List.map_nil]
    rw [targets_succ hlow,List.filter_singleton,decide_eq_true hin,h.probed]
    rfl

theorem eth_failed {c c' : Client} {w w' : World} (h : c.poll w = (.error,c',w')) :
    c'.failed = true := by
  simp only [Client.poll] at h
  split_ifs at h with hfailed
  · cases h
    exact hfailed
  all_goals cases h

theorem swept_sweeps (hs : s.phase ≠ .waitEthernet) (hdone : s.phase ≠ .done) :
    Swept own mask s ↔ Sweeps own mask s := by
  rw [Swept]
  split
  · next h => exact absurd h hs
  · next h => exact absurd h hdone
  · exact Iff.rfl

theorem swept_loop {turn : Turn} (hsteady : turn.localIP = own ∧ turn.subnetMask = mask)
    (h : Swept own mask s) (w : World) : Swept own mask (s.loop turn w).1 := by
  obtain ⟨hown,hmask⟩ := hsteady
  have hsweeps (hs : s.phase ≠ .waitEthernet) (hdone : s.phase ≠ .done) : Sweeps own mask s :=
    (swept_sweeps hs hdone).mp h
  have kept {s' : LanInventory} (hs : s.phase ≠ .waitEthernet ∧ s.phase ≠ .done)
      (hs' : s'.phase ≠ .waitEthernet ∧ s'.phase ≠ .done) (hsame : s'.gateway = s.gateway ∧
        s'.network = s.network ∧ s'.broadcast = s.broadcast ∧ s'.currentIp = s.currentIp ∧
          s'.probed = s.probed) : Swept own mask s' :=
    (swept_sweeps hs'.1 hs'.2).mpr ((hsweeps hs.1 hs.2).same hsame.1 hsame.2.1 hsame.2.2.1
      hsame.2.2.2.1 hsame.2.2.2.2)
  have hturned := s.loop_turned turn w
  generalize s.loop turn w = r at hturned
  cases hturned with
  | ethWaits hs _ _ _ =>
    simp only [Swept,hs] at h ⊢
    exact h
  | ethFails hs hpoll =>
    simp only [Swept,hs] at h ⊢
    exact Or.inl ⟨h,eth_failed hpoll⟩
  | begins hs _ _ =>
    simp only [Swept,hs] at h
    simp only [Swept,hown,hmask]
    have hle := own.network_le mask
    have hlt := (own.network mask).number_lt
    refine ⟨rfl,rfl,Nat.le_refl _,?_,?_⟩
    · rw [sweepEnd]
      split_ifs <;> omega
    · rw [h,targets_self]
      rfl
  | ends hs hstop =>
    have hsw := hsweeps (by simp [hs]) (by simp [hs])
    simp only [Swept]
    refine Or.inr ?_
    rw [hsw.probed,hsw.last hstop,hsw.network,hsw.broadcast]
  | passes hs hgo hskip =>
    rw [skips,hown] at hskip
    exact (swept_sweeps (by simp [hs]) (by simp [hs])).mpr
      ((hsweeps (by simp [hs]) (by simp [hs])).passes hgo hskip)
  | probes hs hgo hskip _ =>
    rw [skips,hown] at hskip
    exact ((hsweeps (by simp [hs]) (by simp [hs])).probes hgo hskip).same rfl rfl rfl rfl rfl
  | dials hs _ => exact kept (by simp [hs]) (by simp [hs]) ⟨rfl,rfl,rfl,rfl,rfl⟩
  | refused hs _ _ _ => exact kept (by simp [hs]) (by simp) ⟨rfl,rfl,rfl,rfl,rfl⟩
  | connects hs _ _ => exact kept (by simp [hs]) (by simp) ⟨rfl,rfl,rfl,rfl,rfl⟩
  | registers hs _ _ _ _ => exact kept (by simp [hs]) (by simp [hs]) ⟨rfl,rfl,rfl,rfl,rfl⟩
  | registered hs _ => exact kept (by simp [hs]) (by simp) ⟨rfl,rfl,rfl,rfl,rfl⟩
  | unregistered hs _ _ => exact kept (by simp [hs]) (by simp) ⟨rfl,rfl,rfl,rfl,rfl⟩
  | asks hs _ _ => exact kept (by simp [hs]) (by simp [hs]) ⟨rfl,rfl,rfl,rfl,rfl⟩
  | waits hs _ _ _ _ _ _ => exact kept (by simp [hs]) (by simp [hs]) ⟨rfl,rfl,rfl,rfl,rfl⟩
  | unanswered hs _ _ _ => exact kept (by simp [hs]) (by simp) ⟨rfl,rfl,rfl,rfl,rfl⟩
  | answered hs _ _ _ => exact kept (by simp [hs]) (by simp [hs]) ⟨rfl,rfl,rfl,rfl,rfl⟩
  | reports hs _ _ _ _ _ => exact kept (by simp [hs]) (by simp) ⟨rfl,rfl,rfl,rfl,rfl⟩
  | closes hs _ _ _ _ _ => exact kept (by simp [hs]) (by simp [hs]) ⟨rfl,rfl,rfl,rfl,rfl⟩
  | closed hs _ _ => exact kept (by simp [hs]) (by simp) ⟨rfl,rfl,rfl,rfl,rfl⟩
  | abandoned hs _ _ => exact kept (by simp [hs]) (by simp) ⟨rfl,rfl,rfl,rfl,rfl⟩
  | idles hs => exact h

end

-- The devices printed are among the hosts probed, in their order, and each of them is counted when
-- its session is over.
structure Told (s : LanInventory) : Prop where
  found : s.found + (if s.phase = .close then 1 else 0) = s.reports.length
  order : List.Sublist (s.reports.map Report.ip) s.probed
  current : s.phase = .connect ∨ s.phase = .register ∨ s.phase = .query →
    ∃ prev, s.probed = prev ++ [s.currentIp] ∧ List.Sublist (s.reports.map Report.ip) prev

theorem told_loop {s : LanInventory} (h : Told s) (turn : Turn) (w : World) :
    Told (s.loop turn w).1 := by
  obtain ⟨hfound,horder,hcurrent⟩ := h
  have hturned := s.loop_turned turn w
  generalize s.loop turn w = r at hturned
  -- Between two hosts, or with the session of one being closed, there is no current one.
  have rests {s' : LanInventory} (hs : s.phase ≠ .close) (hs' : s'.phase ≠ .close)
      (hnone : ¬(s'.phase = .connect ∨ s'.phase = .register ∨ s'.phase = .query))
      (hsame : s'.found = s.found ∧ s'.reports = s.reports ∧ s'.probed = s.probed) : Told s' := by
    obtain ⟨h₁,h₂,h₃⟩ := hsame
    rw [if_neg hs] at hfound
    exact ⟨by rw [if_neg hs',h₁,h₂]; exact hfound,by rw [h₂,h₃]; exact horder,
      fun hc => absurd hc hnone⟩
  have goes {s' : LanInventory} (hs : s.phase = .connect ∨ s.phase = .register ∨ s.phase = .query)
      (hs' : s'.phase ≠ .close) (hsame : s'.found = s.found ∧ s'.reports = s.reports ∧
        s'.probed = s.probed ∧ s'.currentIp = s.currentIp) : Told s' := by
    obtain ⟨h₁,h₂,h₃,h₄⟩ := hsame
    have hopen : s.phase ≠ .close := by rcases hs with hs | hs | hs <;> simp [hs]
    rw [if_neg hopen] at hfound
    exact ⟨by rw [if_neg hs',h₁,h₂]; exact hfound,by rw [h₂,h₃]; exact horder,
      fun _ => by rw [h₂,h₃,h₄]; exact hcurrent hs⟩
  cases hturned with
  | ethWaits hs _ _ _ => exact rests (by simp [hs]) (by simp [hs]) (by simp [hs]) ⟨rfl,rfl,rfl⟩
  | ethFails hs _ => exact rests (by simp [hs]) (by simp) (by simp) ⟨rfl,rfl,rfl⟩
  | begins hs _ _ => exact rests (by simp [hs]) (by simp) (by simp) ⟨rfl,rfl,rfl⟩
  | ends hs _ => exact rests (by simp [hs]) (by simp) (by simp) ⟨rfl,rfl,rfl⟩
  | passes hs _ _ => exact rests (by simp [hs]) (by simp [hs]) (by simp [hs]) ⟨rfl,rfl,rfl⟩
  | probes hs _ _ _ =>
    rw [if_neg (by simp [hs])] at hfound
    exact ⟨by simpa using hfound,horder.trans (List.sublist_append_left _ _),
      fun _ => ⟨s.probed,rfl,horder⟩⟩
  | dials hs _ => exact goes (by simp [hs]) (by simp [hs]) ⟨rfl,rfl,rfl,rfl⟩
  | refused hs _ _ _ => exact rests (by simp [hs]) (by simp) (by simp) ⟨rfl,rfl,rfl⟩
  | connects hs _ _ => exact goes (by simp [hs]) (by simp) ⟨rfl,rfl,rfl,rfl⟩
  | registers hs _ _ _ _ => exact goes (by simp [hs]) (by simp [hs]) ⟨rfl,rfl,rfl,rfl⟩
  | registered hs _ => exact goes (by simp [hs]) (by simp) ⟨rfl,rfl,rfl,rfl⟩
  | unregistered hs _ _ => exact rests (by simp [hs]) (by simp) (by simp) ⟨rfl,rfl,rfl⟩
  | asks hs _ _ => exact goes (by simp [hs]) (by simp [hs]) ⟨rfl,rfl,rfl,rfl⟩
  | waits hs _ _ _ _ _ _ => exact goes (by simp [hs]) (by simp [hs]) ⟨rfl,rfl,rfl,rfl⟩
  | unanswered hs _ _ _ => exact rests (by simp [hs]) (by simp) (by simp) ⟨rfl,rfl,rfl⟩
  | answered hs _ _ _ => exact goes (by simp [hs]) (by simp [hs]) ⟨rfl,rfl,rfl,rfl⟩
  | reports hs _ _ _ _ _ =>
    obtain ⟨prev,hprobed,hprev⟩ := hcurrent (by simp [hs])
    rw [if_neg (by simp [hs])] at hfound
    refine ⟨by simpa using hfound,?_,fun hc => absurd hc (by simp)⟩
    simp only [List.map_append,List.map_cons,List.map_nil,hprobed]
    exact hprev.append (List.Sublist.refl _)
  | closes hs _ _ _ _ _ => exact ⟨by simpa [hs] using hfound,horder,fun hc => by simp [hs] at hc⟩
  | closed hs _ _ => exact ⟨by simpa [hs] using hfound,horder,fun hc => by simp at hc⟩
  | abandoned hs _ _ => exact ⟨by simpa [hs] using hfound,horder,fun hc => by simp at hc⟩
  | idles hs => exact ⟨hfound,horder,hcurrent⟩

structure Ascends (s : LanInventory) : Prop where
  none : s.phase = .waitEthernet → s.probed = []
  order : (s.probed.map number).Pairwise (· < ·)
  bound : s.phase ≠ .done → ∀ n ∈ s.probed.map number, n ≤ s.currentIp.number

theorem Ascends.same {s s' : LanInventory} (h : Ascends s)
    (hwait : s'.phase = .waitEthernet → s.phase = .waitEthernet)
    (hdone : s.phase = .done → s'.phase = .done) (hcurrent : s'.currentIp = s.currentIp)
    (hprobed : s'.probed = s.probed) : Ascends s' := by
  obtain ⟨hnone,horder,hbound⟩ := h
  rw [← hprobed] at hnone horder hbound
  rw [← hcurrent] at hbound
  exact ⟨fun hs => hnone (hwait hs),horder,fun hs => hbound fun hs' => hs (hdone hs')⟩

theorem ascends_loop {s : LanInventory} (h : Ascends s) (turn : Turn) (w : World) :
    Ascends (s.loop turn w).1 := by
  have hturned := s.loop_turned turn w
  generalize s.loop turn w = r at hturned
  cases hturned with
  | begins hs _ _ =>
    have hnone := h.none hs
    exact ⟨fun _ => hnone,h.order,fun _ => by simp [hnone]⟩
  | ends hs _ => exact ⟨fun hc => (by cases hc),h.order,fun hc => absurd rfl hc⟩
  | passes hs hgo _ =>
    have hbound := h.bound (by simp [hs])
    refine ⟨fun hc => absurd (hs.symm.trans hc) (by decide),h.order,fun _ n hn => ?_⟩
    have hle := hbound n hn
    simp only [next_number hgo]
    omega
  | probes hs hgo _ _ =>
    have hbound := h.bound (by simp [hs])
    have hnext := next_number hgo
    refine ⟨fun hc => (by cases hc),?_,fun _ n hn => ?_⟩
    · rw [List.map_append,List.pairwise_append]
      refine ⟨h.order,List.pairwise_singleton _ _,fun n hn m hm => ?_⟩
      have hle := hbound n hn
      rw [List.map_singleton,List.mem_singleton] at hm
      omega
    · rw [List.map_append,List.mem_append,List.map_singleton,List.mem_singleton] at hn
      rcases hn with hn | rfl
      · have hle := hbound n hn
        simp only [hnext]
        omega
      · exact Nat.le_refl _
  -- No other turn moves on to another address.
  | idles hs => exact h
  | ethWaits hs _ _ _ => exact h.same (by simp [hs]) (by simp [hs]) rfl rfl
  | ethFails hs _ => exact h.same (by simp) (by simp) rfl rfl
  | dials hs _ => exact h.same (by simp [hs]) (by simp [hs]) rfl rfl
  | refused hs _ _ _ => exact h.same (by simp) (by simp [hs]) rfl rfl
  | connects hs _ _ => exact h.same (by simp) (by simp [hs]) rfl rfl
  | registers hs _ _ _ _ => exact h.same (by simp [hs]) (by simp [hs]) rfl rfl
  | registered hs _ => exact h.same (by simp) (by simp [hs]) rfl rfl
  | unregistered hs _ _ => exact h.same (by simp) (by simp [hs]) rfl rfl
  | asks hs _ _ => exact h.same (by simp [hs]) (by simp [hs]) rfl rfl
  | waits hs _ _ _ _ _ _ => exact h.same (by simp [hs]) (by simp [hs]) rfl rfl
  | unanswered hs _ _ _ => exact h.same (by simp) (by simp [hs]) rfl rfl
  | answered hs _ _ _ => exact h.same (by simp [hs]) (by simp [hs]) rfl rfl
  | reports hs _ _ _ _ _ => exact h.same (by simp) (by simp [hs]) rfl rfl
  | closes hs _ _ _ _ _ => exact h.same (by simp [hs]) (by simp [hs]) rfl rfl
  | closed hs _ _ => exact h.same (by simp) (by simp [hs]) rfl rfl
  | abandoned hs _ _ => exact h.same (by simp) (by simp [hs]) rfl rfl

-- The address of the board and its mask do not change while the sketch runs.
def Steady (own mask : IPAddress) (turns : List Turn) : Prop :=
  ∀ turn ∈ turns, turn.localIP = own ∧ turn.subnetMask = mask

theorem gateway_loop (s : LanInventory) (turn : Turn) (w : World) :
    (s.loop turn w).1.gateway = s.gateway := by
  have hturned := s.loop_turned turn w
  generalize s.loop turn w = r at hturned
  cases hturned <;> rfl

theorem gateway_after (gateway : IPAddress) (w : World) (turns : List Turn) :
    (Run.after gateway w turns).sketch.gateway = gateway :=
  @Runs.invariant_always _ _ Run.step (fun r => r.sketch.gateway = gateway)
    (fun r turn h => (r.sketch.gateway_loop turn _).trans h) _ rfl turns

theorem begin_failed {c c' : Client} {w w' : World} (h : c.begin w = (.error,c',w')) :
    c'.failed = true := by
  simp only [Client.begin] at h
  generalize (if c.started = true then w.ethEnd else w) = mid at h
  split_ifs at h
  · cases h
    rfl
  · cases h
    rfl
  · cases h

theorem setup_started (gateway : IPAddress) (w : World) :
    let s := (setup gateway w).1
    s.probed = [] ∧ s.reports = [] ∧ s.found = 0 ∧
      (s.phase = .waitEthernet ∨ s.phase = .done ∧ s.eth.failed = true) := by
  intro s
  rcases hbegin : ({} : Client).begin w with ⟨st,eth,w'⟩
  have hs : s = {gateway := gateway, eth := eth,
                 phase := if st = .error then .done else .waitEthernet,
                 phaseStarted := w'.millis.1} := by
    simp only [s,setup,hbegin]
  refine ⟨by rw [hs],by rw [hs],by rw [hs],?_⟩
  by_cases herr : st = .error
  · subst herr
    exact Or.inr ⟨by rw [hs]; rfl,by rw [hs]; exact begin_failed hbegin⟩
  · rw [hs]
    exact Or.inl (if_neg herr)

theorem told_after (gateway : IPAddress) (w : World) (turns : List Turn) :
    Told (Run.after gateway w turns).sketch := by
  obtain ⟨hprobed,hreports,hfound,hphase⟩ := setup_started gateway w
  refine @Runs.invariant_always _ _ Run.step (fun r => Told r.sketch)
    (fun r turn h => told_loop h turn (r.world.hear turn.script)) _ ⟨?_,?_,?_⟩ turns
  · rcases hphase with hs | ⟨hs,_⟩ <;> simp [Run.init,hs,hreports,hfound]
  · simp [Run.init,hreports]
  · rcases hphase with hs | ⟨hs,_⟩ <;> simp [Run.init,hs]

theorem ascends_after (gateway : IPAddress) (w : World) (turns : List Turn) :
    Ascends (Run.after gateway w turns).sketch := by
  obtain ⟨hprobed,_⟩ := setup_started gateway w
  refine @Runs.invariant_always _ _ Run.step (fun r => Ascends r.sketch)
    (fun r turn h => ascends_loop h turn (r.world.hear turn.script)) _ ⟨?_,?_,?_⟩ turns
  all_goals simp [Run.init,hprobed]

theorem swept_after {own mask : IPAddress} {turns : List Turn} (h : Steady own mask turns)
    (gateway : IPAddress) (w : World) : Swept own mask (Run.after gateway w turns).sketch := by
  obtain ⟨hprobed,_,_,hphase⟩ := setup_started gateway w
  have hinit : Swept own mask (Run.init gateway w).sketch := by
    rcases hphase with hs | ⟨hs,hfailed⟩
    · simpa [Swept,Run.init,hs] using hprobed
    · simp only [Swept,Run.init,hs]
      exact Or.inl ⟨hprobed,hfailed⟩
  refine @Runs.invariant_run _ _ Run.step (fun _ turn => turn.localIP = own ∧
    turn.subnetMask = mask) (fun r => Swept own mask r.sketch)
    (fun r turn hr hturn => swept_loop hturn hr (r.world.hear turn.script)) _ turns hinit ?_
  exact Runs.guarded_all h _

theorem probed_after {own mask : IPAddress} {turns : List Turn} (h : Steady own mask turns)
    (gateway : IPAddress) (w : World) :
    let s := (Run.after gateway w turns).sketch
    ∃ high < sweepEnd (own.network mask) (own.broadcast mask), s.probed.map number =
        targets gateway own (own.network mask).number high ∧
      (s.phase = .done → s.eth.failed = false →
        high + 1 = sweepEnd (own.network mask) (own.broadcast mask)) := by
  intro s
  have hle := own.network_le mask
  have hlt := (own.network mask).number_lt
  have hstart : (own.network mask).number < sweepEnd (own.network mask) (own.broadcast mask) := by
    rw [sweepEnd]
    split_ifs <;> omega
  have hgateway := gateway_after gateway w turns
  have hswept := swept_after h gateway w
  have hnone (hprobed : s.probed = []) : s.probed.map number =
      targets gateway own (own.network mask).number (own.network mask).number := by
    rw [hprobed,targets_self]
    rfl
  by_cases hwait : s.phase = .waitEthernet
  · simp only [Swept,show (Run.after gateway w turns).sketch.phase = .waitEthernet from hwait]
      at hswept
    exact ⟨_,hstart,hnone hswept,fun hs => by rw [hwait] at hs; cases hs⟩
  by_cases hdone : s.phase = .done
  · simp only [Swept,show (Run.after gateway w turns).sketch.phase = .done from hdone] at hswept
    rcases hswept with ⟨hprobed,hfailed⟩ | hall
    · exact ⟨_,hstart,hnone hprobed,fun _ hup => by simp [s,hfailed] at hup⟩
    · rw [hgateway] at hall
      exact ⟨_,by omega,hall,fun _ _ => by omega⟩
  · have hsw := (swept_sweeps hwait hdone).mp hswept
    have hprobed := hsw.probed
    have hhigh := hsw.high
    rw [hgateway,hsw.network] at hprobed
    rw [hsw.network,hsw.broadcast] at hhigh
    exact ⟨_,hhigh,hprobed,fun hs => absurd hs hdone⟩

end LanInventory

open LanInventory IPAddress

theorem scan_covers_the_subnet (gateway own mask : IPAddress) (w : World) (turns : List Turn)
    (hsteady : Steady own mask turns) :
    let s := (LanInventory.Run.after gateway w turns).sketch
    ∃ high < sweepEnd (own.network mask) (own.broadcast mask),
      s.probed.map number = targets gateway own (own.network mask).number high ∧
      (s.phase = .done → s.eth.failed = false →
        high + 1 = sweepEnd (own.network mask) (own.broadcast mask) ∧
        ∀ k, 0 < k → mask.Leading k → ∀ ip, ip ∈ s.probed ↔
          ip.network mask = own.network mask ∧ ip ≠ own.network mask ∧ ip ≠ own.broadcast mask ∧
            ip ≠ gateway ∧ ip ≠ own) := by
  intro s
  obtain ⟨high,hhigh,hprobed,hdone⟩ := probed_after hsteady gateway w
  refine ⟨high,hhigh,hprobed,fun hs hup => ⟨hdone hs hup,fun k hk hmask ip => ?_⟩⟩
  have hend := hdone hs hup
  have hsize : 2 ≤ 2 ^ k := by
    calc 2 = 2 ^ 1 := rfl
      _ ≤ 2 ^ k := Nat.pow_le_pow_right (by omega) hk
  have hless : (own.network mask).number < (own.broadcast mask).number := by
    rw [hmask.network_number,hmask.broadcast_number]
    omega
  rw [sweepEnd,if_pos hless] at hend
  have hmem : ip ∈ s.probed ↔ ip.number ∈ s.probed.map number := by
    rw [List.mem_map]
    constructor
    · intro hip
      exact ⟨ip,hip,rfl⟩
    · rintro ⟨other,hother,hsame⟩
      rwa [← number_injective hsame]
  rw [hmem,hprobed,mem_targets,hmask.subnet_iff]
  simp only [ne_iff_number]
  omega

namespace Sample

def lanBoard : World := {time := 0, script := {}, log := []}

-- 10.0.0.0/30, where the board is the second of two hosts.
def lanTurn (script : Script) : Turn :=
  {script := script, localIP := ⟨10,0,0,2⟩, subnetMask := ⟨255,255,255,252⟩}

-- No socket is obtained for the other host, and its turn ends there.
def lanTurns : List Turn :=
  lanTurn {ethLinks := [true,true]} :: List.replicate 4 (lanTurn {})

theorem lan_steady : Steady ⟨10,0,0,2⟩ ⟨255,255,255,252⟩ lanTurns := by
  rw [Steady]
  decide

theorem lan_is_covered :
    let s := (LanInventory.Run.after ⟨10,0,0,254⟩ lanBoard lanTurns).sketch
    (s.phase = .done ∧ s.eth.failed = false) ∧ s.probed = [⟨10,0,0,1⟩] ∧
      ∃ high, s.probed.map number = targets ⟨10,0,0,254⟩ ⟨10,0,0,2⟩
        ((⟨10,0,0,2⟩ : IPAddress).network ⟨255,255,255,252⟩).number high := by
  obtain ⟨high,_,hprobed,_⟩ := scan_covers_the_subnet ⟨10,0,0,254⟩ ⟨10,0,0,2⟩
    ⟨255,255,255,252⟩ lanBoard lanTurns lan_steady
  exact ⟨by decide +kernel,by decide +kernel,high,hprobed⟩

end Sample

theorem devices_are_told_once (gateway : IPAddress) (w : World) (turns : List Turn) :
    let s := (LanInventory.Run.after gateway w turns).sketch
    List.Sublist (s.reports.map Report.ip) s.probed ∧
      (s.reports.map fun r => r.ip.number).Pairwise (· < ·) ∧
      s.found + (if s.phase = .close then 1 else 0) = s.reports.length := by
  intro s
  have htold := told_after gateway w turns
  refine ⟨htold.order,?_,htold.found⟩
  have hsub := htold.order.map number
  rw [List.map_map] at hsub
  exact (ascends_after gateway w turns).order.sublist hsub

end ControlLogix
