import ControlLogix.Sketch.LanScan
import ControlLogix.Machine.Waits

namespace ControlLogix

namespace LanInventory

structure Rests (s : LanInventory) : Prop where
  tcp : s.tcp = {}
  session : s.session.free
  msg : s.msg.inFlight = false

def Ordered (s : LanInventory) : Prop :=
  match s.phase with
  | .waitEthernet | .scan | .done => s.Rests
  | .connect => s.session.free ∧ s.msg.inFlight = false
  | .register => s.msg.inFlight = false ∧ (s.session.state = .failed ∨ s.session.hopeful s.tcp)
  | .query => s.tcp.connected = true ∧ s.session.state = .registered ∧
      s.queryIndex < kIdentityAttrCount ∧ s.msg.inFlight = s.stepStarted
  | .close => s.msg.inFlight = false ∧ s.session.leaving

theorem query_taken {m : ExplicitMessage} {t : TcpConnection} (hm : m.inFlight = false)
    (ht : t.connected = true) (sessionHandle : UInt32) (attr : UInt8) (w : World) :
    ∃ m' w', m.sendRouted t sessionHandle 0 (Service.code .getAttributeSingle)
        (appendClass 1 ++ appendInstance 1 ++ appendAttribute attr) [] MESSAGE_TIMEOUT_MS w =
      (.pending,m',w') ∧ m'.inFlight = true ∧ w'.time = w.millis.2.time := by
  have hfree : ¬(m.state = .sending ∨ m.state = .receiving) := by
    rw [← ExplicitMessage.inFlight_iff,hm]
    simp
  simp only [ExplicitMessage.sendRouted]
  rw [if_neg hfree,if_neg (by simp [ht]),if_neg (by decide),
    if_neg (by simp [appendClass,appendInstance,appendAttribute,ExplicitMessage.kMaxCipData])]
  exact ⟨_,_,rfl,rfl,rfl⟩

theorem ordered_loop {s : LanInventory} (h : Ordered s) (turn : Turn) (w : World) :
    Ordered (s.loop turn w).1 := by
  have hturned := s.loop_turned turn w
  generalize s.loop turn w = r at hturned
  -- Each phase tells what is held in it.
  simp only [Ordered] at h ⊢
  cases hturned with
  | ethWaits hs _ _ _ =>
    simp only [hs] at h ⊢
    exact ⟨h.tcp,h.session,h.msg⟩
  | ethFails hs _ =>
    simp only [hs] at h
    exact ⟨h.tcp,h.session,h.msg⟩
  | begins hs _ _ =>
    simp only [hs] at h
    exact ⟨h.tcp,h.session,h.msg⟩
  | ends hs _ =>
    simp only [hs] at h
    exact ⟨h.tcp,h.session,h.msg⟩
  | passes hs _ _ =>
    simp only [hs] at h ⊢
    exact ⟨h.tcp,h.session,h.msg⟩
  | probes hs _ _ _ =>
    simp only [hs] at h
    exact ⟨h.session,h.msg⟩
  | dials hs _ =>
    simp only [hs] at h ⊢
    exact h
  | refused hs _ _ _ =>
    simp only [hs] at h
    exact ⟨rfl,h.1,h.2⟩
  | connects hs hpoll hopen =>
    simp only [hs] at h
    exact ⟨h.2,Or.inr (Session.open_hopeful h.1 (TcpConnection.poll_connected hpoll) hopen)⟩
  | registers hs hpoll hok hlate herr =>
    simp only [hs] at h ⊢
    exact ⟨h.1,(Session.poll_enrolling h.2 hpoll hok hlate herr).2.2⟩
  | registered hs hpoll =>
    simp only [hs] at h
    obtain ⟨hup,hreg⟩ := Session.poll_registered h.2 hpoll
    exact ⟨hup,hreg,Nat.succ_pos 7,h.1⟩
  | unregistered hs _ _ =>
    simp only [hs] at h
    exact ⟨rfl,Session.abort_free _,h.1⟩
  | asks hs hstep hsend =>
    simp only [hs] at h ⊢
    obtain ⟨hup,hreg,hindex,hidle⟩ := h
    obtain ⟨_,_,heq,hflight,_⟩ := query_taken (hidle.trans hstep) hup s.session.handle
      (kIdentityAttrs.getD s.queryIndex 0) w
    rw [hsend] at heq
    cases heq
    exact ⟨hup,hreg,hindex,by simp [hflight]⟩
  | waits hs hstep hpoll hok hlate herr hclosed =>
    simp only [hs] at h ⊢
    obtain ⟨hup,hreg,hindex,hflight⟩ := h
    rcases (ExplicitMessage.poll_flight (hflight.trans hstep) hpoll).2 with
      ⟨_,hgoes,rfl⟩ | ⟨hst,_⟩ | ⟨hst | hst | hst,_⟩
    · exact ⟨hup,hreg,hindex,hgoes.trans hstep.symm⟩
    · exact absurd hst hok
    · exact absurd hst hclosed
    · exact absurd hst herr
    · exact absurd hst hlate
  | unanswered hs hstep hpoll hend =>
    simp only [hs] at h
    refine ⟨rfl,Session.abort_free _,ExplicitMessage.flight_ends (h.2.2.2.trans hstep) hpoll ?_⟩
    rintro rfl
    simp at hend
  | answered hs hstep hpoll hmore =>
    simp only [hs] at h ⊢
    obtain ⟨hup,hreg,_,hflight⟩ := h
    obtain ⟨hidle,rfl⟩ := ExplicitMessage.flight_taken (hflight.trans hstep) hpoll
    exact ⟨hup,hreg,hmore,hidle⟩
  | reports hs hstep hpoll _ _ _ =>
    simp only [hs] at h
    obtain ⟨_,hreg,_,hflight⟩ := h
    exact ⟨(ExplicitMessage.flight_taken (hflight.trans hstep) hpoll).1,
      Or.inr (by simp [Session.close,hreg,Session.startUnregister])⟩
  | closes hs hpoll hok _ _ _ =>
    simp only [hs] at h ⊢
    exact ⟨h.1,(Session.poll_leaving h.2 hpoll).2.1 hok⟩
  | closed hs hpoll _ =>
    simp only [hs] at h
    exact ⟨rfl,(Session.poll_leaving h.2 hpoll).1,h.1⟩
  | abandoned hs _ _ =>
    simp only [hs] at h
    exact ⟨rfl,Session.abort_free _,h.1⟩
  | idles hs => exact h

theorem ordered_rests {s : LanInventory} (h : Ordered s) (hs : s.phase = .scan ∨ s.phase = .done) :
    s.Rests := by
  rw [Ordered] at h
  rcases hs with hs | hs
  · simpa only [hs] using h
  · simpa only [hs] using h

-- The turns that the current host may take yet, were each of its waits to last as long as the clock
-- needs to come round.
def stage (s : LanInventory) (time : Nat) : Nat :=
  match s.phase with
  | .connect => 21 * span + Clock.left s.tcp.deadline time
  | .register => 20 * span +
      (if s.session.state = .failed then 0 else Clock.left s.session.deadline time + 1)
  | .query =>
    if s.stepStarted then
      2 * (kIdentityAttrCount - s.queryIndex) * span + span + Clock.left s.msg.deadline time
    else 2 * (kIdentityAttrCount - s.queryIndex) * span + 2 * span
  | .close =>
    if s.session.state = .failed then 1 else Clock.left s.session.deadline time + 2
  | _ => 0

def turnsLeft (r : Run) : Nat :=
  if r.sketch.phase = .done then 0
  else (2 ^ 32 - r.sketch.currentIp.number) * (22 * span) + r.sketch.stage r.world.time

theorem stage_lt (s : LanInventory) (time : Nat) : s.stage time < 22 * span := by
  have htcp := Clock.left_bounded s.tcp.deadline time
  have hsession := Clock.left_bounded s.session.deadline time
  have hmsg := Clock.left_bounded s.msg.deadline time
  have hindex : kIdentityAttrCount - s.queryIndex ≤ 8 := Nat.sub_le 8 s.queryIndex
  simp only [stage,span]
  cases s.phase <;> simp only <;> (try split_ifs) <;> omega

theorem turnsLeft_lt (r : Run) :
    turnsLeft r < (2 ^ 32 - r.sketch.currentIp.number + 1) * (22 * span) := by
  have hstage := r.sketch.stage_lt r.world.time
  simp only [turnsLeft,span] at hstage ⊢
  split_ifs <;> omega

theorem turnsLeft_stays {s s' : LanInventory} {w w' : World} (hs : s.phase ≠ .done)
    (hip : s'.currentIp = s.currentIp) (hless : s'.stage w'.time < s.stage w.time) :
    turnsLeft ⟨s',w'⟩ < turnsLeft ⟨s,w⟩ := by
  simp only [turnsLeft,if_neg hs,hip]
  split_ifs
  · omega
  · exact Nat.add_lt_add_left hless _

theorem turnsLeft_moves {s s' : LanInventory} {w w' : World} (hs : s.phase ≠ .done)
    (hip : s'.currentIp.number = s.currentIp.number + 1) :
    turnsLeft ⟨s',w'⟩ < turnsLeft ⟨s,w⟩ := by
  have hstage := s'.stage_lt w'.time
  have hlt := s'.currentIp.number_lt
  simp only [turnsLeft,if_neg hs]
  simp only [span] at hstage ⊢
  split_ifs <;> omega

section

variable {s : LanInventory} {w w' : World} {st : Status}

theorem stage_registers {session : Session} {tcp : TcpConnection} (hs : s.phase = .register)
    (h : s.session.state = .failed ∨ s.session.hopeful s.tcp) (htick : Ticking w.script)
    (hpoll : s.session.poll s.tcp w = (st,session,tcp,w')) (hok : st ≠ .ok) (hlate : st ≠ .timeout)
    (herr : st ≠ .error) :
    ({s with session := session, tcp := tcp} : LanInventory).stage w'.time < s.stage w.time := by
  obtain ⟨hgoes,hdeadline,_⟩ := Session.poll_enrolling h hpoll hok hlate herr
  have hleft := Session.poll_left hgoes.exchanging hpoll htick hlate
  simp only [stage,hs,hgoes.1,hdeadline,reduceCtorEq,if_false]
  split_ifs <;> omega

theorem stage_asks {msg : ExplicitMessage} (hs : s.phase = .query) (hup : s.tcp.connected = true)
    (hidle : s.msg.inFlight = false) (hstep : s.stepStarted = false)
    (hsend : s.msg.sendRouted s.tcp s.session.handle 0 (Service.code .getAttributeSingle)
      (appendClass 1 ++ appendInstance 1 ++ appendAttribute (kIdentityAttrs.getD s.queryIndex 0)) []
      MESSAGE_TIMEOUT_MS w = (st,msg,w')) :
    ({s with msg := msg, stepStarted := st = .pending} : LanInventory).stage w'.time <
      s.stage w.time := by
  obtain ⟨_,_,heq,_⟩ := query_taken hidle hup s.session.handle
    (kIdentityAttrs.getD s.queryIndex 0) w
  rw [hsend] at heq
  cases heq
  have hleft := Clock.left_bounded msg.deadline w'.time
  simp only [stage,hs,hstep,span,decide_true,if_true,Bool.false_eq_true,if_false]
  omega

theorem stage_waits {msg : ExplicitMessage} {tcp : TcpConnection} (hs : s.phase = .query)
    (hstep : s.stepStarted = true) (hflight : s.msg.inFlight = true) (htick : Ticking w.script)
    (hpoll : s.msg.poll s.tcp w = (st,msg,tcp,w')) (hlate : st ≠ .timeout) :
    ({s with msg := msg, tcp := tcp} : LanInventory).stage w'.time < s.stage w.time := by
  have hleft := ExplicitMessage.poll_left hflight hpoll htick hlate
  have hdeadline := (ExplicitMessage.poll_flight hflight hpoll).1
  simp only [stage,hs,hstep,hdeadline,if_true]
  omega

theorem stage_closes {session : Session} {tcp : TcpConnection} (hs : s.phase = .close)
    (h : s.session.leaving) (htick : Ticking w.script)
    (hpoll : s.session.poll s.tcp w = (st,session,tcp,w')) (hlate : st ≠ .timeout)
    (herr : st ≠ .error) :
    ({s with session := session, tcp := tcp} : LanInventory).stage w'.time < s.stage w.time := by
  have hun := Session.poll_farewell h hpoll herr
  have hleft := Session.poll_left (by simp [Session.exchanging,hun]) hpoll htick hlate
  have hdeadline := (Session.poll_leaving h hpoll).2.2
  simp only [stage,hs,hun,hdeadline,reduceCtorEq,if_false]
  split_ifs <;> omega

theorem stage_scan {s' : LanInventory} (hs' : s'.phase = .scan) (time : Nat)
    (hs : s.phase = .connect ∨ s.phase = .register ∨ s.phase = .query ∨ s.phase = .close) :
    s'.stage time < s.stage w.time := by
  have hcount : kIdentityAttrCount = 8 := rfl
  rcases hs with hs | hs | hs | hs <;> simp only [stage,hs,hs',span,hcount] <;>
    (try split_ifs) <;> omega

end

theorem turnsLeft_loop {s : LanInventory} (h : Ordered s) (hup : s.phase ≠ .waitEthernet)
    (hgo : s.phase ≠ .done) (turn : Turn) {w : World} (htick : Ticking w.script) :
    (s.loop turn w).1.phase ≠ .waitEthernet ∧
      turnsLeft ⟨(s.loop turn w).1,(s.loop turn w).2⟩ < turnsLeft ⟨s,w⟩ := by
  have hturned := s.loop_turned turn w
  generalize s.loop turn w = r at hturned
  simp only [Ordered] at h
  cases hturned with
  | ethWaits hs _ _ _ => exact absurd hs hup
  | ethFails hs _ => exact absurd hs hup
  | begins hs _ _ => exact absurd hs hup
  | ends hs _ =>
    refine ⟨by simp,?_⟩
    have hlt := s.currentIp.number_lt
    simp only [turnsLeft,if_true,if_neg hgo,span]
    omega
  | passes hs hmore _ => exact ⟨by simp [hs],turnsLeft_moves hgo (next_number hmore)⟩
  | probes _ hmore _ _ => exact ⟨by simp,turnsLeft_moves hgo (next_number hmore)⟩
  | dials hs hpoll =>
    obtain ⟨rfl,hless⟩ := TcpConnection.poll_left hpoll htick
    refine ⟨by simp [hs],turnsLeft_stays hgo rfl ?_⟩
    simp only [stage,hs]
    omega
  | refused hs _ _ _ => exact ⟨by simp,turnsLeft_stays hgo rfl (stage_scan rfl _ (by simp [hs]))⟩
  | @connects st tcp session w₁ w' hs hpoll hopen =>
    refine ⟨by simp,turnsLeft_stays hgo rfl ?_⟩
    have hleft := Clock.left_bounded session.deadline w'.millis.2.time
    simp only [stage,hs,span]
    split_ifs <;> omega
  | registers hs hpoll hok hlate herr =>
    simp only [hs] at h
    exact ⟨by simp [hs],turnsLeft_stays hgo rfl
      (stage_registers hs h.2 htick hpoll hok hlate herr)⟩
  | registered hs hpoll =>
    refine ⟨by simp,turnsLeft_stays hgo rfl ?_⟩
    have hcount : kIdentityAttrCount = 8 := rfl
    simp only [stage,hs,span,Bool.false_eq_true,if_false,hcount]
    omega
  | unregistered hs _ _ =>
    exact ⟨by simp,turnsLeft_stays hgo rfl (stage_scan rfl _ (by simp [hs]))⟩
  | asks hs hstep hsend =>
    simp only [hs] at h
    exact ⟨by simp [hs],turnsLeft_stays hgo rfl
      (stage_asks hs h.1 (h.2.2.2.trans hstep) hstep hsend)⟩
  | waits hs hstep hpoll _ hlate _ _ =>
    simp only [hs] at h
    exact ⟨by simp [hs],turnsLeft_stays hgo rfl
      (stage_waits hs hstep (h.2.2.2.trans hstep) htick hpoll hlate)⟩
  | unanswered hs _ _ _ =>
    exact ⟨by simp,turnsLeft_stays hgo rfl (stage_scan rfl _ (by simp [hs]))⟩
  | answered hs hstep hpoll hmore =>
    refine ⟨by simp [hs],turnsLeft_stays hgo rfl ?_⟩
    simp only [stage,hs,hstep,span,if_true,Bool.false_eq_true,if_false]
    omega
  | @reports msg tcp w₁ w' _ _ _ hs hstep hpoll _ _ _ =>
    refine ⟨by simp,turnsLeft_stays hgo rfl ?_⟩
    have hleft := Clock.left_bounded s.session.close.2.deadline w'.millis.2.time
    simp only [stage,hs,hstep,span,if_true]
    split_ifs <;> omega
  | closes hs hpoll _ _ hlate herr =>
    simp only [hs] at h
    exact ⟨by simp [hs],turnsLeft_stays hgo rfl (stage_closes hs h.2 htick hpoll hlate herr)⟩
  | closed hs _ _ => exact ⟨by simp,turnsLeft_stays hgo rfl (stage_scan rfl _ (by simp [hs]))⟩
  | abandoned hs _ _ => exact ⟨by simp,turnsLeft_stays hgo rfl (stage_scan rfl _ (by simp [hs]))⟩
  | idles hs => exact absurd hs hgo

theorem ordered_after (gateway : IPAddress) (w : World) (turns : List Turn) :
    Ordered (Run.after gateway w turns).sketch := by
  refine @Runs.invariant_always _ _ Run.step (fun r => Ordered r.sketch)
    (fun r turn h => ordered_loop h turn (r.world.hear turn.script)) _ ?_ turns
  have hrests : Rests (Run.init gateway w).sketch := ⟨rfl,by simp [Session.free,Run.init,setup],rfl⟩
  obtain ⟨_,_,_,hs | ⟨hs,_⟩⟩ := setup_started gateway w
  · simpa only [Ordered,Run.init,hs] using hrests
  · simpa only [Ordered,Run.init,hs] using hrests

theorem after_append (gateway : IPAddress) (w : World) (xs ys : List Turn) :
    Run.after gateway w (xs ++ ys) = Runs.run Run.step (Run.after gateway w xs) ys :=
  Runs.run_append _ _ xs ys

theorem done_run {r : Run} (h : r.sketch.phase = .done) (turns : List Turn) :
    (Runs.run Run.step r turns).sketch.phase = .done :=
  @Runs.invariant_always _ _ Run.step (fun r => r.sketch.phase = .done)
    (fun r turn hr => by simp [Run.step,loop,hr]) _ h turns

theorem run_ends {r : Run} (h : Ordered r.sketch) (hup : r.sketch.phase ≠ .waitEthernet)
    {turns : List Turn} (htick : ∀ turn ∈ turns, Ticking turn.script)
    (hlen : turnsLeft r < turns.length) : (Runs.run Run.step r turns).sketch.phase = .done := by
  have hguard : Runs.Guarded Run.step (fun _ turn => Ticking turn.script) r turns :=
    Runs.guarded_all htick r
  obtain ⟨pre,post,rfl,hdone⟩ := @Runs.reaches _ _ Run.step (fun _ turn => Ticking turn.script)
    (fun r => Ordered r.sketch ∧ r.sketch.phase ≠ .waitEthernet)
    (fun r => r.sketch.phase = .done) turnsLeft
    (fun r turn hr hturn hgo => by
      obtain ⟨hphase,hless⟩ := turnsLeft_loop (w := r.world.hear turn.script) hr.1 hr.2 hgo
        turn hturn
      exact ⟨⟨ordered_loop hr.1 turn (r.world.hear turn.script),hphase⟩,hless⟩)
    r turns ⟨h,hup⟩ hguard hlen
  rw [Runs.run_append]
  exact done_run hdone post

end LanInventory

open LanInventory

theorem scan_comes_to_its_end (gateway : IPAddress) (w : World) (turns rest : List Turn)
    (hup : (LanInventory.Run.after gateway w turns).sketch.phase ≠ .waitEthernet)
    (htick : ∀ turn ∈ rest, Ticking turn.script)
    (hlen : (2 ^ 32 - (LanInventory.Run.after gateway w turns).sketch.currentIp.number + 1) *
      (22 * span) ≤ rest.length) :
    (LanInventory.Run.after gateway w (turns ++ rest)).sketch.phase = .done := by
  rw [after_append]
  exact run_ends (ordered_after gateway w turns) hup htick
    (Nat.lt_of_lt_of_le (turnsLeft_lt _) hlen)

theorem Sample.lan_comes_to_its_end :
    let r := LanInventory.Run.after ⟨10,0,0,254⟩ Sample.lanBoard (Sample.lanTurns.take 1)
    let rest := List.replicate ((2 ^ 32 - r.sketch.currentIp.number + 1) * (22 * span))
      (Sample.lanTurn {ticks := [1]})
    r.sketch.phase = .scan ∧ (LanInventory.Run.after ⟨10,0,0,254⟩ Sample.lanBoard
      (Sample.lanTurns.take 1 ++ rest)).sketch.phase = .done := by
  intro r rest
  have hscan : r.sketch.phase = .scan := by decide +kernel
  refine ⟨hscan,scan_comes_to_its_end _ _ _ _ ?_ (fun turn hturn => ?_) ?_⟩
  · intro hwait
    exact absurd (hscan.symm.trans hwait) (by decide)
  · rw [List.eq_of_mem_replicate hturn]
    exact ⟨by decide,by decide⟩
  · exact Nat.le_of_eq List.length_replicate.symm

end ControlLogix
