import ControlLogix.Library.Runs
import ControlLogix.Sketch.TagWalk
import ControlLogix.Machine.Waits

namespace ControlLogix

namespace ListTags

-- Where the cursor stands once it has passed the tags that cannot be read.
def cursor (s : ListTags) : Nat := seek (s.inventory.tags.drop s.valueCursor) s.valueCursor

inductive Turned (s : ListTags) (w : World) : Option (ListTags × World) → Prop
  | ethWaits {st : Status} {eth : Client} {w' : World} : s.phase = .waitEthernet →
      s.eth.poll w = (st,eth,w') → Turned s w (some ({s with eth := eth},w'))
  | ethRestarts {st : Status} {eth eth' : Client} {w₁ w' : World} : s.phase = .waitEthernet →
      s.eth.poll w = (.error,eth,w₁) → eth.begin w₁ = (st,eth',w') →
      Turned s w (some ({s with eth := eth'},w'))
  | dials {st : Status} {eth : Client} {conn : TcpConnection} {w₁ w' : World} :
      s.phase = .waitEthernet → s.eth.poll w = (.ok,eth,w₁) →
      s.conn.connect TARGET_IP.word TARGET_PORT CONNECT_TIMEOUT_MS w₁ = (st,conn,w') →
      Turned s w (some ({s with eth := eth, conn := conn, phase := .connect},w'))
  | connecting {st : Status} {conn : TcpConnection} {w' : World} : s.phase = .connect →
      s.conn.poll w = (st,conn,w') → st = .pending ∨ st = .closed →
      Turned s w (some ({s with conn := conn},w'))
  | unconnected {st : Status} {conn : TcpConnection} {w' : World} : s.phase = .connect →
      s.conn.poll w = (st,conn,w') → st = .timeout ∨ st = .error →
      Turned s w (some ({s with conn := conn, phase := .done},w'))
  | connects {st : Status} {session : Session} {conn : TcpConnection} {w₁ w' : World} :
      s.phase = .connect → s.conn.poll w = (.ok,conn,w₁) →
      s.session.open conn SESSION_TIMEOUT_MS w₁ = (st,session,w') →
      Turned s w (some ({s with conn := conn, session := session, phase := .openSession},w'))
  | registers {st : Status} {session : Session} {conn : TcpConnection} {w' : World} :
      s.phase = .openSession → s.session.poll s.conn w = (st,session,conn,w') → st ≠ .ok →
      st ≠ .timeout → st ≠ .error →
      Turned s w (some ({s with session := session, conn := conn},w'))
  | registered {session : Session} {conn : TcpConnection} {w' : World} :
      s.phase = .openSession → s.session.poll s.conn w = (.ok,session,conn,w') →
      Turned s w (some ({s with session := session, conn := conn, nextInstance := 0,
                                inventory := {s.inventory with tags := []},
                                enumerating := false, phase := .enumerate},w'))
  | unregistered {st : Status} {session : Session} {conn : TcpConnection} {w' : World} :
      s.phase = .openSession → s.session.poll s.conn w = (st,session,conn,w') →
      st = .timeout ∨ st = .error →
      Turned s w (some ({s with session := session, conn := conn, phase := .done},w'))
  | asks {msg : ExplicitMessage} {w' : World} : s.phase = .enumerate → s.enumerating = false →
      startEnumerate s.msg s.conn s.session.handle s.nextInstance w = (.pending,msg,w') →
      Turned s w (some ({s with msg := msg, enumerating := true},w'))
  | refused {st : Status} {msg : ExplicitMessage} {w' : World} : s.phase = .enumerate →
      s.enumerating = false → st ≠ .pending →
      startEnumerate s.msg s.conn s.session.handle s.nextInstance w = (st,msg,w') →
      Turned s w (some ({s with msg := msg, phase := .done},w'))
  | waits {msg : ExplicitMessage} {conn : TcpConnection} {w' : World} : s.phase = .enumerate →
      s.enumerating = true → s.msg.poll s.conn w = (.pending,msg,conn,w') →
      Turned s w (some ({s with msg := msg, conn := conn},w'))
  | unanswered {st : Status} {msg : ExplicitMessage} {conn : TcpConnection} {w' : World} :
      s.phase = .enumerate → s.enumerating = true → s.msg.poll s.conn w = (st,msg,conn,w') →
      st ≠ .pending → st ≠ .ok →
      Turned s w (some ({s with msg := msg, conn := conn, phase := .done},w'))
  | answered {msg : ExplicitMessage} {conn : TcpConnection} {s' : ListTags} {w' : World} :
      s.phase = .enumerate → s.enumerating = true → s.msg.poll s.conn w = (.ok,msg,conn,w') →
      ({s with msg := msg, conn := conn}).finishBatch = some s' → Turned s w (some (s',w'))
  | loses {msg : ExplicitMessage} {conn : TcpConnection} {w' : World} :
      s.phase = .enumerate → s.enumerating = true → s.msg.poll s.conn w = (.ok,msg,conn,w') →
      ({s with msg := msg, conn := conn}).finishBatch = none → Turned s w none
  | ends : s.phase = .readValues → s.inventory.tags[s.cursor]? = none →
      Turned s w (some ({s with valueCursor := s.cursor, session := s.session.close.2,
                                phase := .done},w))
  | reads {tag : TagEntry} {msg : ExplicitMessage} {w' : World} : s.phase = .readValues →
      s.inventory.tags[s.cursor]? = some tag → s.enumerating = false →
      startReadTag s.msg s.conn s.session.handle tag.name w = (.pending,msg,w') →
      Turned s w (some ({s with valueCursor := s.cursor, msg := msg, enumerating := true},w'))
  | skips {tag : TagEntry} {st : Status} {msg : ExplicitMessage} {w' : World} :
      s.phase = .readValues → s.inventory.tags[s.cursor]? = some tag → s.enumerating = false →
      st ≠ .pending → startReadTag s.msg s.conn s.session.handle tag.name w = (st,msg,w') →
      Turned s w (some ({s with valueCursor := s.cursor + 1, msg := msg},w'))
  | readWaits {tag : TagEntry} {msg : ExplicitMessage} {conn : TcpConnection} {w' : World} :
      s.phase = .readValues → s.inventory.tags[s.cursor]? = some tag → s.enumerating = true →
      s.msg.poll s.conn w = (.pending,msg,conn,w') →
      Turned s w (some ({s with valueCursor := s.cursor, msg := msg, conn := conn},w'))
  | told {tag : TagEntry} {st : Status} {msg : ExplicitMessage} {conn : TcpConnection} {line : Line}
      {w' : World} : s.phase = .readValues → s.inventory.tags[s.cursor]? = some tag →
      s.enumerating = true → s.msg.poll s.conn w = (st,msg,conn,w') → st ≠ .pending →
      line = (if st = .ok ∧ msg.resultCode = 0 then .value tag (printValue msg.dataBytes)
        else .failed tag st msg.resultCode) →
      Turned s w (some ({s with valueCursor := s.cursor + 1, msg := msg, conn := conn,
                                values := s.values ++ [line], enumerating := false},w'))
  | closes : s.phase = .done →
      Turned s w (some ({s with session := s.session.abort, conn := {}},(s.conn.close w).2))

theorem waitEthernet_turned {s : ListTags} (h : s.phase = .waitEthernet) (w : World) :
    Turned s w (some (s.waitEthernet w)) := by
  simp only [waitEthernet]
  rcases hpoll : s.eth.poll w with ⟨st,eth,w'⟩
  simp only
  split_ifs with hok herr
  · subst hok
    exact .dials h hpoll rfl
  · subst herr
    exact .ethRestarts h hpoll rfl
  · exact .ethWaits h hpoll

theorem connect_turned {s : ListTags} (h : s.phase = .connect) (w : World) :
    Turned s w (some (s.connect w)) := by
  obtain ⟨st,conn,w',hpoll,_,hkind⟩ := s.conn.poll_cases w
  simp only [connect,hpoll]
  split_ifs with hok hend
  · subst hok
    exact .connects h hpoll rfl
  · exact .unconnected h hpoll hend
  · rw [not_or] at hend
    refine .connecting h hpoll ?_
    rcases hkind with ⟨_,⟨hc,_⟩ | ⟨hc,_⟩ | hc⟩ | ⟨_,hc,_⟩ | ⟨_,hc | hc⟩
    · exact Or.inr hc
    · exact absurd hc hok
    · exact Or.inl hc
    · exact absurd hc hok
    · exact absurd hc hend.2
    · exact absurd hc hend.1

theorem openSession_turned {s : ListTags} (h : s.phase = .openSession) (w : World) :
    Turned s w (some (s.openSession w)) := by
  simp only [openSession]
  rcases hpoll : s.session.poll s.conn w with ⟨st,session,conn,w'⟩
  simp only
  split_ifs with hok hend
  · subst hok
    exact .registered h hpoll
  · exact .unregistered h hpoll hend
  · rw [not_or] at hend
    exact .registers h hpoll hok hend.1 hend.2

theorem enumerateTags_turned {s : ListTags} (h : s.phase = .enumerate) (w : World) :
    Turned s w (s.enumerateTags w) := by
  rw [enumerateTags]
  by_cases hgoes : s.enumerating = true
  · rw [if_neg (by simp [hgoes])]
    rcases hpoll : s.msg.poll s.conn w with ⟨st,msg,conn,w'⟩
    simp only
    split_ifs with hwait hbad
    · subst hwait
      exact .waits h hgoes hpoll
    · exact .unanswered h hgoes hpoll hwait hbad
    · rw [not_not] at hbad
      subst hbad
      cases hbatch : finishBatch {s with msg := msg, conn := conn} with
      | none => exact .loses h hgoes hpoll hbatch
      | some s' => exact .answered h hgoes hpoll hbatch
  · rw [Bool.not_eq_true] at hgoes
    rw [if_pos (by simp [hgoes])]
    rcases hstart : startEnumerate s.msg s.conn s.session.handle s.nextInstance w with ⟨st,msg,w'⟩
    simp only
    split_ifs with hst
    · subst hst
      exact .asks h hgoes hstart
    · exact .refused h hgoes hst hstart

theorem readValues_turned {s : ListTags} (h : s.phase = .readValues) (w : World) :
    Turned s w (some (s.readValues w)) := by
  cases htag : s.inventory.tags[s.cursor]? with
  | none =>
    have hnone := htag
    rw [cursor] at hnone
    simp only [readValues,hnone]
    exact .ends h htag
  | some tag =>
    have hsome := htag
    rw [cursor] at hsome
    simp only [readValues,hsome]
    by_cases hgoes : s.enumerating = true
    · rw [if_neg (by simp [hgoes])]
      rcases hpoll : s.msg.poll s.conn w with ⟨st,msg,conn,w'⟩
      simp only
      split_ifs with hwait hok
      · subst hwait
        exact .readWaits h htag hgoes hpoll
      · exact .told h htag hgoes hpoll hwait (if_pos hok).symm
      · exact .told h htag hgoes hpoll hwait (if_neg hok).symm
    · rw [Bool.not_eq_true] at hgoes
      rw [if_pos (by simp [hgoes])]
      rcases hstart : startReadTag s.msg s.conn s.session.handle tag.name w with ⟨st,msg,w'⟩
      simp only
      split_ifs with hst
      · subst hst
        exact .reads h htag hgoes hstart
      · exact .skips h htag hgoes hst hstart

theorem loop_turned (s : ListTags) (w : World) : Turned s w (s.loop w) := by
  rw [loop]
  cases h : s.phase with
  | waitEthernet => exact waitEthernet_turned h w
  | connect => exact connect_turned h w
  | openSession => exact openSession_turned h w
  | enumerate => exact enumerateTags_turned h w
  | readValues => exact readValues_turned h w
  | done => exact .closes h

end ListTags

end ControlLogix
