import ControlLogix.Machine.Exclusive

namespace ControlLogix

structure Phases {n : Nat} (c : PlcClient n) : Prop where
  connecting : c.state = .connecting → 0 ≤ c.tcp.fd ∧ c.tcp.state = .pending
  registering : c.state = .registering →
    c.session.state = .registering ∨ c.session.state = .failed
  ready : c.state = .ready → c.session.state = .registered
  disconnecting : c.state = .disconnecting →
    c.session.state = .unregistering ∨ c.session.state = .failed

namespace Phases

variable {n : Nat} {c c' : PlcClient n} {w w' : World}

theorem same (h : Phases c) (hstate : c'.state = c.state) (hsession : c'.session = c.session)
    (htcp : c'.tcp = c.tcp) : Phases c' :=
  ⟨by rw [hstate,htcp]; exact h.connecting,by rw [hstate,hsession]; exact h.registering,
    by rw [hstate,hsession]; exact h.ready,by rw [hstate,hsession]; exact h.disconnecting⟩

theorem registers (h : Phases c) (hs : c.state = .registering)
    (hexch : c.session.exchanging = true) : c.session.state = .registering := by
  refine (h.registering hs).resolve_right fun hfailed => ?_
  simp [Session.exchanging,hfailed] at hexch

theorem unregisters (h : Phases c) (hs : c.state = .disconnecting)
    (hexch : c.session.exchanging = true) : c.session.state = .unregistering := by
  refine (h.disconnecting hs).resolve_right fun hfailed => ?_
  simp [Session.exchanging,hfailed] at hexch

theorem outside (h : c'.state = .idle ∨ c'.state = .ethernet ∨ c'.state = .failed) :
    Phases c' := by
  constructor <;> intro hs <;> simp [hs] at h

theorem of_registering (hs : c'.state = .registering)
    (h : c'.session.state = .registering ∨ c'.session.state = .failed) : Phases c' := by
  refine ⟨?_,fun _ => h,?_,?_⟩ <;> intro hne <;> simp [hs] at hne

theorem of_ready (hs : c'.state = .ready) (h : c'.session.state = .registered) : Phases c' := by
  refine ⟨?_,?_,fun _ => h,?_⟩ <;> intro hne <;> simp [hs] at hne

theorem of_disconnecting (hs : c'.state = .disconnecting)
    (h : c'.session.state = .unregistering ∨ c'.session.state = .failed) : Phases c' := by
  refine ⟨?_,?_,?_,fun _ => h⟩ <;> intro hne <;> simp [hs] at hne

theorem dials {t : TcpConnection} (h : PlcClient.Dials t w c'.tcp c'.state w') : Phases c' := by
  generalize htcp : c'.tcp = tcp at h
  generalize hstate : c'.state = state at h
  cases h with
  | dialed hfd htfd htst _ _ =>
    refine ⟨fun _ => ⟨by rw [htcp,htfd]; exact hfd,by rw [htcp]; exact htst⟩,?_,?_,?_⟩
    all_goals
      intro hs
      simp [hs] at hstate
  | refused _ => exact outside (Or.inr (Or.inr hstate))

theorem connect (ip : UInt32) (port : UInt16) (timeoutMs : UInt32) (w : World) :
    Phases (c.connect ip port timeoutMs w).2.1 := by
  obtain ⟨st,c',w',heq,⟨_,_,_,hstate,_⟩ | ⟨_,_,_,hdial⟩⟩ := c.connect_cases ip port timeoutMs w
  · rw [heq]
    exact outside (Or.inr (Or.inl hstate))
  · rw [heq]
    exact dials hdial

theorem disconnect (h : Phases c) (w : World) : Phases (c.disconnect w).2.1 := by
  simp only [PlcClient.disconnect]
  split
  · next hready =>
    have hclose : c.session.close.2.state = .unregistering := by
      simp [Session.close,h.ready hready,Session.startUnregister]
    exact of_disconnecting rfl (Or.inl hclose)
  · exact outside (Or.inl rfl)

theorem pollRegistering (h : Phases c) (hs : c.state = .registering) (w : World) :
    Phases (c.pollRegistering w).2.1 := by
  obtain ⟨out,c',w',heq,_,⟨_,_,_,hstate,_⟩ | ⟨_,st,hpoll,hstate⟩⟩ := c.pollRegistering_cases w
  · rw [heq]
    exact outside (Or.inr (Or.inr hstate))
  rw [heq]
  simp only
  rcases h.registering hs with hreg | hfail
  · have hexch : c.session.exchanging = true := by simp [Session.exchanging,hreg]
    obtain ⟨st',s',t',v,hpoll',hpolled⟩ := Session.poll_polled hexch c.tcp w.millis.2
    obtain ⟨rfl,rfl,rfl,rfl⟩ : st = st' ∧ c'.session = s' ∧ c'.tcp = t' ∧ w' = v := by
      rw [hpoll'] at hpoll
      simpa [eq_comm] using hpoll
    rcases hpolled.ended with ⟨hkeep,_,hok,_⟩ | ⟨hfail,hok,_⟩ | ⟨_,hregd,rfl,_⟩ | ⟨hun,_⟩
    · rw [if_neg hok] at hstate
      split at hstate
      · exact outside (Or.inr (Or.inr hstate))
      · rw [hs] at hstate
        exact of_registering hstate (Or.inl (hkeep.trans hreg))
    · rw [if_neg hok] at hstate
      split at hstate
      · exact outside (Or.inr (Or.inr hstate))
      · rw [hs] at hstate
        exact of_registering hstate (Or.inr hfail)
    · rw [if_pos rfl] at hstate
      exact of_ready hstate hregd
    · rw [hreg] at hun
      cases hun
  · have herr : c.session.poll c.tcp w.millis.2 = (.error,c.session,c.tcp,w.millis.2) := by
      simp [Session.poll,hfail]
    rw [herr] at hpoll
    obtain ⟨rfl,_⟩ := Prod.mk.inj hpoll
    exact outside (Or.inr (Or.inr (by simpa using hstate)))

theorem pollDisconnecting (h : Phases c) (hs : c.state = .disconnecting) (w : World) :
    Phases (c.pollDisconnecting w).2.1 := by
  obtain ⟨out,c',w',st,t,v,heq,_,hpoll,⟨_,_,_,hstate,_⟩ | ⟨hover,_,_,hstate,_⟩⟩ :=
    c.pollDisconnecting_cases w
  · rw [heq]
    exact outside (Or.inl hstate)
  rw [heq]
  refine of_disconnecting (hstate.trans hs) ?_
  rcases h.disconnecting hs with hun | hfail
  · have hexch : c.session.exchanging = true := by simp [Session.exchanging,hun]
    obtain ⟨st',s',t',v',hpoll',hpolled⟩ := Session.poll_polled hexch c.tcp w
    obtain ⟨rfl,rfl,_,_⟩ : st = st' ∧ c'.session = s' ∧ t = t' ∧ v = v' := by
      rw [hpoll'] at hpoll
      simpa [eq_comm] using hpoll
    rcases hpolled.ended with ⟨hkeep,_⟩ | ⟨hfail,_⟩ | ⟨hreg,_⟩ | ⟨_,_,hok,_⟩
    · exact Or.inl (hkeep.trans hun)
    · exact Or.inr hfail
    · rw [hun] at hreg
      cases hreg
    · exact absurd (Or.inl hok) hover
  · have herr : c.session.poll c.tcp w = (.error,c.session,c.tcp,w) := by
      simp [Session.poll,hfail]
    rw [herr] at hpoll
    obtain ⟨_,hsession,_⟩ := by simpa using hpoll
    rw [← hsession]
    exact Or.inr hfail

theorem poll (h : Phases c) (w : World) : Phases (c.poll w).2.1 := by
  simp only [PlcClient.poll]
  cases hs : c.state with
  | ethernet =>
    obtain ⟨out,c',w',heq,_,⟨_,_,hstate,_⟩ | ⟨_,_,_,hdial⟩⟩ := c.pollEthernet_cases w
    · simp only [heq]
      rw [hs] at hstate
      exact outside (Or.inr hstate)
    · simp only [heq]
      exact dials hdial
  | connecting =>
    obtain ⟨out,c',w',heq,_,_,⟨hsession,⟨htcp,hstate | hstate⟩ | ⟨_,hstate⟩⟩ |
      ⟨deadline,hsession,_,_,_,hstate⟩⟩ := c.pollConnecting_cases w
    · simp only [heq]
      exact h.same hstate hsession htcp
    · simp only [heq]
      exact outside (Or.inr (Or.inr hstate))
    · simp only [heq]
      exact outside (Or.inr (Or.inr hstate))
    · simp only [heq]
      exact of_registering hstate (Or.inl (by rw [hsession]; rfl))
  | registering => exact h.pollRegistering hs w
  | disconnecting => exact h.pollDisconnecting hs w
  | ready => exact h
  | failed => exact h
  | idle => exact h

end Phases

namespace Config

variable {n : Nat}

theorem phases_step {s : Config n} {l : Label} (hex : s.client.Exclusive s.world.log)
    (h : Phases s.client) : Phases (s.step l).client := by
  cases s.step_move l with
  | quiet _ _ hconn =>
    cases hconn with
    | still hstate hsession htcp _ _ => exact h.same hstate hsession htcp
    | begun _ hc _ =>
      rw [hc]
      exact Phases.outside (Or.inr (Or.inl rfl))
    | connected ip port timeoutMs _ hc _ =>
      rw [hc]
      exact Phases.connect ip port timeoutMs _
    | disconnected _ hc _ =>
      rw [hc]
      exact h.disconnect _
    | polled _ _ hc _ _ =>
      rw [hc]
      exact h.poll _
    | finished _ _ hc _ _ =>
      rw [hc]
      exact Phases.outside (Or.inl rfl)
  | created i _ _ _ _ _ _ hc _ =>
    obtain ⟨_,_,hc⟩ := hc
    rw [hc]
    exact h.same rfl rfl rfl
  | destroyed i _ _ _ _ hc _ =>
    rw [hc]
    exact h.same rfl rfl rfl
  | started i _ _ _ _ _ _ _ _ _ _ _ _ _ _ _ _ hc _ =>
    rw [hc]
    exact h.same rfl rfl rfl
  | typed i _ _ hc _ =>
    rw [hc]
    exact h.same rfl rfl rfl
  | aborted i _ hc _ =>
    rw [hc]
    exact h.same rfl rfl rfl
  | visited i _ _ st g m t w' _ _ _ hpoll hc _ =>
    rw [hc]
    refine ⟨fun hs => ?_,h.registering,h.ready,h.disconnecting⟩
    -- A socket that is still connecting is neither read nor written.
    have hpend := h.connecting hs
    have hstill := (hex.poll_moved hpoll).still fun hlive => by simp [hlive.2] at hpend
    rw [hstill.2.1]
    exact hpend

theorem phases_after (memory : Fin n → Buffer Tag.kMaxDataSize) (time : Nat) (ls : List Label) :
    Phases (after memory time ls).client := by
  have hrun : (after memory time ls).client.Exclusive (after memory time ls).world.log ∧
      Phases (after memory time ls).client :=
    @Runs.invariant_always _ _ step
      (fun s : Config n => s.client.Exclusive s.world.log ∧ Phases s.client)
      (fun s l h => ⟨s.exclusive_step l h.1,phases_step h.1 h.2⟩)
      _ ⟨PlcClient.exclusive_init memory time,Phases.outside (Or.inl rfl)⟩ ls
  exact hrun.2

end Config

end ControlLogix
