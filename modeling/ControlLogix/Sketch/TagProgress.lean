import ControlLogix.Sketch.TagListing

namespace ControlLogix

namespace ListTags

open Paging

def unread (s : ListTags) : Nat := s.inventory.tags.length - s.valueCursor

-- The turns that the sketch may take yet: one wait for each request that is left, and one turn to
-- start it.
def turnsLeft (catalog : List Record) (s : ListTags) (time : Nat) : Nat :=
  match s.phase with
  | .connect =>
    (2 * catalog.length + 407) * span + Clock.left s.conn.deadline time
  | .openSession => (2 * catalog.length + 406) * span +
      if s.session.state = .failed then 0 else Clock.left s.session.deadline time + 1
  | .enumerate =>
    let symbols := (left Record.key s.nextInstance.toNat catalog).length
    if s.enumerating then (2 * symbols + 404) * span + Clock.left s.msg.deadline time
    else (2 * symbols + 405) * span
  | .readValues =>
    if s.enumerating then (2 * s.unread + 1) * span + Clock.left s.msg.deadline time
    else (2 * s.unread + 2) * span
  | _ => 0

theorem seek_le (rest : List TagEntry) (cursor : Nat) : cursor ≤ seek rest cursor := by
  obtain ⟨_,_,_,hseek,_⟩ := seek_spec rest cursor
  rw [hseek]
  exact Nat.le_add_right _ _

theorem cursor_le (s : ListTags) : s.valueCursor ≤ s.cursor := seek_le _ _

theorem cursor_lt {s : ListTags} {tag : TagEntry} (h : s.inventory.tags[s.cursor]? = some tag) :
    s.cursor < s.inventory.tags.length := (List.getElem?_eq_some_iff.mp h).1

section

variable {catalog : List Record} {s s' : ListTags} {w w' : World}

theorem left_done (hs' : s'.phase = .done) (hup : s.phase ≠ .waitEthernet) (hgo : s.phase ≠ .done)
    (time : Nat) : turnsLeft catalog s' time < turnsLeft catalog s w.time := by
  simp only [turnsLeft,hs',span]
  cases hs : s.phase with
  | waitEthernet => exact absurd hs hup
  | done => exact absurd hs hgo
  | _ =>
    simp only
    (try split_ifs) <;> omega

theorem left_registers {st : Status} {session : Session} {conn : TcpConnection}
    (hs : s.phase = .openSession) (h : s.session.state = .failed ∨ s.session.hopeful s.conn)
    (htick : Ticking w.script) (hpoll : s.session.poll s.conn w = (st,session,conn,w'))
    (hok : st ≠ .ok) (hlate : st ≠ .timeout) (herr : st ≠ .error) :
    turnsLeft catalog {s with session := session, conn := conn} w'.time <
      turnsLeft catalog s w.time := by
  obtain ⟨hgoes,hdeadline,_⟩ := Session.poll_enrolling h hpoll hok hlate herr
  have hleft := Session.poll_left hgoes.exchanging hpoll htick hlate
  simp only [turnsLeft,hs,hgoes.1,hdeadline,reduceCtorEq,if_false]
  split_ifs <;> omega

theorem left_answered {msg : ExplicitMessage} {conn : TcpConnection}
    (hall : Ascending Record.key catalog) (hlists : Listed catalog s) (hs : s.phase = .enumerate)
    (hgoes : s.enumerating = true)
    (hpage : Page catalog s.nextInstance msg.resultCode msg.dataBytes)
    (hbatch : ({s with msg := msg, conn := conn}).finishBatch = some s')
    (hroom : s'.inventory.tags.length ≤ kMaxTags) (before after : Nat) :
    (s'.phase = .enumerate ∨ s'.phase = .readValues) ∧
      turnsLeft catalog s' after < turnsLeft catalog s before := by
  have hmost : kMaxTags = 200 := rfl
  simp only [Listed,hs] at hlists
  obtain ⟨taken,htaken,hlisted⟩ := hlists
  obtain ⟨_,heq,hend⟩ := finishBatch_page (s := {s with msg := msg, conn := conn}) hall htaken
    hlisted hpage
  rw [hbatch] at heq
  cases heq
  rcases hend with rfl | ⟨page,start,_,hless,rfl⟩
  · refine ⟨Or.inr rfl,?_⟩
    simp only at hroom
    simp only [turnsLeft,unread,hs,hgoes,span,if_true,Bool.false_eq_true,if_false]
    omega
  · refine ⟨Or.inl hs,?_⟩
    simp only at hless
    simp only [turnsLeft,hs,hgoes,span,if_true,Bool.false_eq_true,if_false]
    omega

theorem left_waits {msg : ExplicitMessage} {conn : TcpConnection} (hs : s.phase = .enumerate)
    (hgoes : s.enumerating = true) (hflight : s.msg.inFlight = true) (htick : Ticking w.script)
    (hpoll : s.msg.poll s.conn w = (.pending,msg,conn,w')) :
    turnsLeft catalog {s with msg := msg, conn := conn} w'.time < turnsLeft catalog s w.time := by
  have hleft := ExplicitMessage.poll_left hflight hpoll htick (by simp)
  have hdeadline := (ExplicitMessage.poll_flight hflight hpoll).1
  simp only [turnsLeft,hs,hgoes,hdeadline,if_true]
  omega

theorem left_readWaits {tag : TagEntry} {msg : ExplicitMessage} {conn : TcpConnection}
    (hs : s.phase = .readValues) (htag : s.inventory.tags[s.cursor]? = some tag)
    (hgoes : s.enumerating = true) (hflight : s.msg.inFlight = true) (htick : Ticking w.script)
    (hpoll : s.msg.poll s.conn w = (.pending,msg,conn,w')) :
    turnsLeft catalog {s with valueCursor := s.cursor, msg := msg, conn := conn} w'.time <
      turnsLeft catalog s w.time := by
  have hpast := s.cursor_le
  have hmore := cursor_lt htag
  have hleft := ExplicitMessage.poll_left hflight hpoll htick (by simp)
  have hdeadline := (ExplicitMessage.poll_flight hflight hpoll).1
  simp only [turnsLeft,unread,hs,hgoes,hdeadline,span,if_true]
  omega

end

theorem turnsLeft_loop {catalog : List Record} (hall : Ascending Record.key catalog)
    {s s' : ListTags} {w w' : World} (hkept : Kept s) (hlists : Listed catalog s)
    (hpage : s.phase = .enumerate → s.enumerating = true → ∀ msg conn w',
      s.msg.poll s.conn w = (.ok,msg,conn,w') →
        Page catalog s.nextInstance msg.resultCode msg.dataBytes)
    (hup : s.phase ≠ .waitEthernet) (hdialed : s.phase = .connect → 0 ≤ s.conn.fd)
    (hgo : s.phase ≠ .done) (htick : Ticking w.script) (hloop : s.loop w = some (s',w')) :
    s'.phase ≠ .waitEthernet ∧ (s'.phase = .connect → 0 ≤ s'.conn.fd) ∧
      turnsLeft catalog s' w'.time < turnsLeft catalog s w.time := by
  have hroom : s'.inventory.tags.length ≤ kMaxTags := (kept_loop hkept hloop).sound.1
  have hmost : kMaxTags = 200 := rfl
  have hturned := s.loop_turned w
  rw [hloop] at hturned
  have hheld := hkept.held
  have hpast := s.cursor_le
  simp only [Ordered] at hheld
  cases hturned with
  | ethWaits hs _ => exact absurd hs hup
  | ethRestarts hs _ _ => exact absurd hs hup
  | dials hs _ _ => exact absurd hs hup
  | connecting hs hpoll hst =>
    rcases hst with rfl | rfl
    · obtain ⟨rfl,hless⟩ := TcpConnection.poll_left hpoll htick
      refine ⟨hup,hdialed,?_⟩
      simp only [turnsLeft,hs]
      omega
    · exact absurd (TcpConnection.poll_closed hpoll) (not_lt.mpr (hdialed hs))
  | unconnected _ _ _ => exact ⟨by simp,by simp,left_done rfl hup hgo _⟩
  | @connects st session conn w₁ _ hs hpoll hopen =>
    refine ⟨by simp,by simp,?_⟩
    have hleft := Clock.left_bounded session.deadline w'.time
    simp only [turnsLeft,hs,span]
    split_ifs <;> omega
  | registers hs hpoll hok hlate herr =>
    simp only [hs] at hheld
    exact ⟨by simp [hs],by simp [hs],left_registers hs hheld.2 htick hpoll hok hlate herr⟩
  | registered hs hpoll =>
    refine ⟨by simp,by simp,?_⟩
    have hfirst : left Record.key (0 : UInt32).toNat catalog = catalog :=
      left_all fun r _ => Nat.zero_le _
    simp only [turnsLeft,hs,span,hfirst,Bool.false_eq_true,if_false]
    omega
  | unregistered _ _ _ => exact ⟨by simp,by simp,left_done rfl hup hgo _⟩
  | @asks msg _ hs hidle hstart =>
    refine ⟨by simp [hs],by simp [hs],?_⟩
    have hleft := Clock.left_bounded msg.deadline w'.time
    simp only [turnsLeft,hs,hidle,span,if_true,Bool.false_eq_true,if_false]
    omega
  | refused _ _ _ _ => exact ⟨by simp,by simp,left_done rfl hup hgo _⟩
  | waits hs hgoes hpoll =>
    simp only [hs] at hheld
    exact ⟨by simp [hs],by simp [hs],left_waits hs hgoes (hheld.2.trans hgoes) htick hpoll⟩
  | unanswered _ _ _ _ _ => exact ⟨by simp,by simp,left_done rfl hup hgo _⟩
  | answered hs hgoes hpoll hbatch =>
    obtain ⟨hphase,hless⟩ := left_answered hall hlists hs hgoes
      (hpage hs hgoes _ _ _ hpoll) hbatch hroom w.time w'.time
    rcases hphase with hphase | hphase
    · exact ⟨by simp [hphase],by simp [hphase],hless⟩
    · exact ⟨by simp [hphase],by simp [hphase],hless⟩
  | ends _ _ => exact ⟨by simp,by simp,left_done rfl hup hgo _⟩
  | @reads tag msg _ hs htag hidle _ =>
    have hmore := cursor_lt htag
    have hleft := Clock.left_bounded msg.deadline w'.time
    refine ⟨by simp [hs],by simp [hs],?_⟩
    simp only [turnsLeft,unread,hs,hidle,span,if_true,Bool.false_eq_true,if_false]
    omega
  | skips hs htag hidle _ _ =>
    have hmore := cursor_lt htag
    refine ⟨by simp [hs],by simp [hs],?_⟩
    simp only [turnsLeft,unread,hs,hidle,span,Bool.false_eq_true,if_false]
    omega
  | readWaits hs htag hgoes hpoll =>
    simp only [hs] at hheld
    exact ⟨by simp [hs],by simp [hs],
      left_readWaits hs htag hgoes (hheld.1.trans hgoes) htick hpoll⟩
  | told hs htag hgoes _ _ _ =>
    have hmore := cursor_lt htag
    refine ⟨by simp [hs],by simp [hs],?_⟩
    simp only [turnsLeft,unread,hs,hgoes,span,if_true,Bool.false_eq_true,if_false]
    omega
  | closes hs => exact absurd hs hgo

theorem turnsLeft_lt (catalog : List Record) {s : ListTags} (h : s.inventory.tags.length ≤ kMaxTags)
    (time : Nat) : turnsLeft catalog s time < (2 * catalog.length + 408) * span := by
  have hconn := Clock.left_bounded s.conn.deadline time
  have hsession := Clock.left_bounded s.session.deadline time
  have hmsg := Clock.left_bounded s.msg.deadline time
  have hsymbols : (left Record.key s.nextInstance.toNat catalog).length ≤ catalog.length :=
    List.length_filter_le _ _
  have hmost : kMaxTags = 200 := rfl
  simp only [turnsLeft,unread,span]
  cases s.phase <;> simp only <;> (try split_ifs) <;> omega

theorem reading_loop {s s' : ListTags} {w w' : World} (h : s.phase = .readValues ∨ s.phase = .done)
    (hloop : s.loop w = some (s',w')) : s'.phase = .readValues ∨ s'.phase = .done := by
  have hturned := s.loop_turned w
  rw [hloop] at hturned
  cases hturned with
  | ends _ _ => exact Or.inr rfl
  | reads hs _ _ _ => exact Or.inl hs
  | skips hs _ _ _ _ => exact Or.inl hs
  | readWaits hs _ _ _ => exact Or.inl hs
  | told hs _ _ _ _ _ => exact Or.inl hs
  | closes hs => exact Or.inr hs
  | _ => simp_all

theorem done_run {o : Option Run} (h : ∃ r, o = some r ∧ r.sketch.phase = .done)
    (turns : List Script) : ∃ r, Runs.run Run.step o turns = some r ∧ r.sketch.phase = .done := by
  refine @Runs.invariant_always _ _ Run.step (fun o => ∃ r, o = some r ∧ r.sketch.phase = .done)
    ?_ _ h turns
  rintro _ script ⟨r,rfl,hs⟩
  exact ⟨_,by rw [Run.step,Option.bind_some,loop,hs]; rfl,by simp [done,hs]⟩

theorem undialed_run {o : Option Run}
    (h : ∃ r, o = some r ∧ r.sketch.phase = .connect ∧ r.sketch.conn.fd < 0)
    (turns : List Script) : ∃ r, Runs.run Run.step o turns = some r ∧
      r.sketch.phase = .connect ∧ r.sketch.conn.fd < 0 := by
  refine @Runs.invariant_always _ _ Run.step
    (fun o => ∃ r, o = some r ∧ r.sketch.phase = .connect ∧ r.sketch.conn.fd < 0) ?_ _ h turns
  rintro _ script ⟨r,rfl,hs,hfd⟩
  have hpoll (w : World) : r.sketch.conn.poll w = (.closed,r.sketch.conn,w) := by
    rw [TcpConnection.poll,if_pos hfd]
  refine ⟨{r with world := r.world.hear script},?_,hs,hfd⟩
  rw [Run.step,Option.bind_some,loop,hs]
  simp [connect,hpoll]

def Ending (catalog : List Record) (o : Option Run) : Prop :=
  ∃ r, o = some r ∧ Kept r.sketch ∧ Listed catalog r.sketch ∧ r.sketch.phase ≠ .waitEthernet ∧
    (r.sketch.phase = .connect → 0 ≤ r.sketch.conn.fd)

theorem run_ends {catalog : List Record} (hall : Ascending Record.key catalog) {o : Option Run}
    (h : Ending catalog o) {turns : List Script}
    (hhonest : Runs.Guarded Run.step (Honest catalog) o turns)
    (htick : ∀ script ∈ turns, Ticking script)
    (hlen : (2 * catalog.length + 408) * span ≤ turns.length) :
    ∃ r, Runs.run Run.step o turns = some r ∧ r.sketch.phase = .done := by
  have hguard : Runs.Guarded Run.step (fun o script => Honest catalog o script ∧ Ticking script) o
      turns := by
    rw [Runs.guarded_iff] at hhonest ⊢
    intro pre script post hsplit
    exact ⟨hhonest pre script post hsplit,htick script (by rw [hsplit]; simp)⟩
  obtain ⟨pre,post,rfl,hdone⟩ := @Runs.reaches _ _ Run.step
    (fun o script => Honest catalog o script ∧ Ticking script) (Ending catalog)
    (fun o => ∃ r, o = some r ∧ r.sketch.phase = .done)
    (fun o => o.elim 0 fun r => turnsLeft catalog r.sketch r.world.time)
    (by
      rintro _ script ⟨r,rfl,hkept,hlists,hup,hdialed⟩ ⟨hpage,hticking⟩ hgo
      obtain ⟨s',w',hloop,hlists'⟩ := lists_loop hall (w := r.world.hear script) hlists
        (hpage r rfl)
      obtain ⟨hup',hdialed',hless⟩ := turnsLeft_loop hall hkept hlists (hpage r rfl) hup hdialed
        (fun hs => hgo ⟨r,rfl,hs⟩) hticking hloop
      have hstep : Run.step (some r) script = some ⟨s',w'⟩ := by
        rw [Run.step,Option.bind_some,hloop]
        rfl
      rw [hstep]
      exact ⟨⟨_,rfl,kept_loop hkept hloop,hlists',hup',hdialed'⟩,hless⟩)
    o turns h hguard (by
      obtain ⟨r,rfl,hkept,_⟩ := h
      exact Nat.lt_of_lt_of_le (turnsLeft_lt catalog hkept.sound.1 _) hlen)
  rw [Runs.run_append]
  exact done_run hdone post

end ListTags

open ListTags Paging

namespace Sample

theorem honest_reading (catalog : List Record) {o : Option ListTags.Run}
    (h : ∀ r, o = some r → r.sketch.phase = .readValues ∨ r.sketch.phase = .done)
    (turns : List Script) : Runs.Guarded ListTags.Run.step (Honest catalog) o turns := by
  rw [Runs.guarded_iff]
  intro pre script _ _ r hrun hs
  have hreading := @Runs.invariant_always _ _ ListTags.Run.step
    (fun o => ∀ r, o = some r → r.sketch.phase = .readValues ∨ r.sketch.phase = .done)
    (by
      intro o script ho r hstep
      obtain ⟨r₀,rfl,hstep⟩ := Option.bind_eq_some_iff.mp hstep
      obtain ⟨⟨s',w'⟩,hloop,rfl⟩ := Option.map_eq_some_iff.mp hstep
      exact reading_loop (ho r₀ rfl) hloop)
    _ h pre r hrun
  rw [hs] at hreading
  rcases hreading with hc | hc <;> cases hc

end Sample

end ControlLogix
