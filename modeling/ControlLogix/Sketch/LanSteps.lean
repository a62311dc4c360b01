import ControlLogix.Library.Runs
import ControlLogix.Sketch.LanInventory

namespace ControlLogix

namespace LanInventory

def stopsAt (s : LanInventory) (next : Bool × IPAddress) : Prop :=
  next.1 = false ∨ next.2 = s.broadcast

def skips (s : LanInventory) (turn : Turn) (ip : IPAddress) : Prop :=
  ip = s.gateway ∨ ip = turn.localIP

-- What one turn of the loop can do: the phase it is done in, the answer that decides, and all that
-- is left of the globals.
inductive Turned (s : LanInventory) (turn : Turn) (w : World) : LanInventory × World → Prop
  | ethWaits {st : Status} {eth : Client} {w' : World} : s.phase = .waitEthernet →
      s.eth.poll w = (st,eth,w') → st ≠ .ok → st ≠ .error → Turned s turn w ({s with eth := eth},w')
  | ethFails {eth : Client} {w' : World} : s.phase = .waitEthernet →
      s.eth.poll w = (.error,eth,w') → Turned s turn w ({s with eth := eth, phase := .done},w')
  | begins {eth : Client} {w' : World} {now : UInt32} : s.phase = .waitEthernet →
      s.eth.poll w = (.ok,eth,w') → now = w'.millis.1 → Turned s turn w
        ({s with eth := eth, network := turn.localIP.network turn.subnetMask,
                 broadcast := turn.localIP.broadcast turn.subnetMask,
                 currentIp := turn.localIP.network turn.subnetMask, phase := .scan,
                 phaseStarted := now},w'.millis.2)
  | ends : s.phase = .scan → s.stopsAt s.currentIp.nextHost →
      Turned s turn w ({s with currentIp := s.currentIp.nextHost.2, phase := .done},w)
  | passes : s.phase = .scan → ¬ s.stopsAt s.currentIp.nextHost →
      s.skips turn s.currentIp.nextHost.2 →
      Turned s turn w ({s with currentIp := s.currentIp.nextHost.2},w)
  | probes {st : Status} {tcp : TcpConnection} {w' : World} : s.phase = .scan →
      ¬ s.stopsAt s.currentIp.nextHost → ¬ s.skips turn s.currentIp.nextHost.2 →
      s.tcp.connect s.currentIp.nextHost.2.word EIP_PORT SCAN_TIMEOUT_MS w = (st,tcp,w') →
      Turned s turn w
        ({s with currentIp := s.currentIp.nextHost.2, tcp := tcp,
                 probed := s.probed ++ [s.currentIp.nextHost.2], phase := .connect,
                 phaseStarted := w'.millis.1},w'.millis.2)
  | dials {tcp : TcpConnection} {w' : World} : s.phase = .connect →
      s.tcp.poll w = (.pending,tcp,w') → Turned s turn w ({s with tcp := tcp},w')
  | refused {st : Status} {tcp : TcpConnection} {w' : World} : s.phase = .connect →
      s.tcp.poll w = (st,tcp,w') → st ≠ .ok → st ≠ .pending →
      Turned s turn w ({s with tcp := {}, phase := .scan},(tcp.close w').2)
  | connects {st : Status} {tcp : TcpConnection} {session : Session} {w₁ w' : World} :
      s.phase = .connect → s.tcp.poll w = (.ok,tcp,w₁) →
      s.session.open tcp SESSION_TIMEOUT_MS w₁ = (st,session,w') → Turned s turn w
        ({s with tcp := tcp, session := session, phase := .register,
                 phaseStarted := w'.millis.1},w'.millis.2)
  | registers {st : Status} {session : Session} {tcp : TcpConnection} {w' : World} :
      s.phase = .register → s.session.poll s.tcp w = (st,session,tcp,w') → st ≠ .ok →
      st ≠ .timeout → st ≠ .error → Turned s turn w ({s with session := session, tcp := tcp},w')
  | registered {session : Session} {tcp : TcpConnection} {w' : World} : s.phase = .register →
      s.session.poll s.tcp w = (.ok,session,tcp,w') → Turned s turn w
        ({s with session := session, tcp := tcp, id := {}, queryIndex := 0, stepStarted := false,
                 phase := .query, phaseStarted := w'.millis.1},w'.millis.2)
  | unregistered {st : Status} {session : Session} {tcp : TcpConnection} {w' : World} :
      s.phase = .register → s.session.poll s.tcp w = (st,session,tcp,w') →
      st = .timeout ∨ st = .error → Turned s turn w
        ({s with session := session.abort, tcp := {}, phase := .scan},(tcp.close w').2)
  | asks {st : Status} {msg : ExplicitMessage} {w' : World} : s.phase = .query →
      s.stepStarted = false → s.msg.sendRouted s.tcp s.session.handle 0
        (Service.code .getAttributeSingle) (appendClass 1 ++ appendInstance 1 ++
          appendAttribute (kIdentityAttrs.getD s.queryIndex 0)) [] MESSAGE_TIMEOUT_MS w =
        (st,msg,w') → Turned s turn w ({s with msg := msg, stepStarted := st = .pending},w')
  | waits {st : Status} {msg : ExplicitMessage} {tcp : TcpConnection} {w' : World} :
      s.phase = .query → s.stepStarted = true → s.msg.poll s.tcp w = (st,msg,tcp,w') →
      st ≠ .ok → st ≠ .timeout → st ≠ .error → st ≠ .closed →
      Turned s turn w ({s with msg := msg, tcp := tcp},w')
  | unanswered {st : Status} {msg : ExplicitMessage} {tcp : TcpConnection} {w' : World} :
      s.phase = .query → s.stepStarted = true → s.msg.poll s.tcp w = (st,msg,tcp,w') →
      st = .timeout ∨ st = .error ∨ st = .closed → Turned s turn w
        ({s with msg := msg, session := s.session.abort, tcp := {}, phase := .scan},
         (tcp.close w').2)
  | answered {msg : ExplicitMessage} {tcp : TcpConnection} {w' : World} : s.phase = .query →
      s.stepStarted = true → s.msg.poll s.tcp w = (.ok,msg,tcp,w') →
      s.queryIndex + 1 < kIdentityAttrCount → Turned s turn w
        ({s with msg := msg, tcp := tcp, id := ({s with msg := msg}).finishField,
                 queryIndex := s.queryIndex + 1, stepStarted := false},w')
  | reports {msg : ExplicitMessage} {tcp : TcpConnection} {w₁ w' : World} {st : UInt8}
      {sent : List (List UInt8)} {id : Identity} : s.phase = .query → s.stepStarted = true →
      s.msg.poll s.tcp w = (.ok,msg,tcp,w₁) → kIdentityAttrCount ≤ s.queryIndex + 1 →
      queryListIdentityState turn.udp w₁ = (st,sent,w') →
      id = (if st ≠ 0xFF then {({s with msg := msg}).finishField with state := st}
        else ({s with msg := msg}).finishField) → Turned s turn w
        ({s with msg := msg, tcp := tcp, id := id, queryIndex := s.queryIndex + 1,
                 stepStarted := false, asked := s.asked ++ sent.map fun req => (s.currentIp,req),
                 reports := s.reports ++ [printDevice s.currentIp id],
                 session := s.session.close.2, phase := .close,
                 phaseStarted := w'.millis.1},w'.millis.2)
  | closes {st : Status} {session : Session} {tcp : TcpConnection} {w' : World} :
      s.phase = .close → s.session.poll s.tcp w = (st,session,tcp,w') → st ≠ .ok → st ≠ .closed →
      st ≠ .timeout → st ≠ .error → Turned s turn w ({s with session := session, tcp := tcp},w')
  | closed {st : Status} {session : Session} {tcp : TcpConnection} {w' : World} :
      s.phase = .close → s.session.poll s.tcp w = (st,session,tcp,w') → st = .ok ∨ st = .closed →
      Turned s turn w
        ({s with session := session, tcp := {}, found := s.found + 1, phase := .scan},
         (tcp.close w').2)
  | abandoned {st : Status} {session : Session} {tcp : TcpConnection} {w' : World} :
      s.phase = .close → s.session.poll s.tcp w = (st,session,tcp,w') →
      st = .timeout ∨ st = .error → Turned s turn w
        ({s with session := session.abort, tcp := {}, found := s.found + 1, phase := .scan},
         (tcp.close w').2)
  | idles : s.phase = .done → Turned s turn w (s,w)

theorem waitEthernet_turned {s : LanInventory} (h : s.phase = .waitEthernet) (turn : Turn)
    (w : World) : Turned s turn w (s.waitEthernet turn w) := by
  simp only [waitEthernet]
  rcases hpoll : s.eth.poll w with ⟨st,eth,w'⟩
  simp only
  split_ifs with hok herr
  · subst hok
    exact .begins h hpoll rfl
  · subst herr
    exact .ethFails h hpoll
  · exact .ethWaits h hpoll hok herr

theorem scan_turned {s : LanInventory} (h : s.phase = .scan) (turn : Turn) (w : World) :
    Turned s turn w (s.scan turn w) := by
  simp only [scan]
  by_cases hstop : s.stopsAt s.currentIp.nextHost
  · rw [if_pos (by simpa [stopsAt] using hstop)]
    exact .ends h hstop
  rw [if_neg (by simpa [stopsAt] using hstop)]
  by_cases hskip : s.skips turn s.currentIp.nextHost.2
  · rw [if_pos (by simpa [skips] using hskip)]
    exact .passes h hstop hskip
  rw [if_neg (by simpa [skips] using hskip)]
  rcases hconnect : s.tcp.connect s.currentIp.nextHost.2.word EIP_PORT SCAN_TIMEOUT_MS w with
    ⟨st,tcp,w'⟩
  exact .probes h hstop hskip hconnect

theorem connect_turned {s : LanInventory} (h : s.phase = .connect) (turn : Turn) (w : World) :
    Turned s turn w (s.connect w) := by
  obtain ⟨st,tcp,w',hpoll,_,hkind⟩ := s.tcp.poll_cases w
  simp only [connect,hpoll]
  by_cases hok : st = .ok
  · subst hok
    rw [if_pos rfl]
    rcases hopen : s.session.open tcp SESSION_TIMEOUT_MS w' with ⟨st,session,w₁⟩
    exact .connects h hpoll hopen
  rw [if_neg hok]
  by_cases hwait : st = .pending
  · subst hwait
    exact .dials h hpoll
  have hend : st = .timeout ∨ st = .error ∨ st = .closed := by
    rcases hkind with ⟨_,⟨hc,_⟩ | ⟨hc,_⟩ | hc⟩ | ⟨_,hc,_⟩ | ⟨_,hc | hc⟩
    · exact Or.inr (Or.inr hc)
    · exact absurd hc hok
    · exact absurd hc hwait
    · exact absurd hc hok
    · exact Or.inr (Or.inl hc)
    · exact Or.inl hc
  rw [if_pos hend]
  exact .refused h hpoll hok hwait

theorem register_turned {s : LanInventory} (h : s.phase = .register) (turn : Turn) (w : World) :
    Turned s turn w (s.register w) := by
  simp only [register]
  rcases hpoll : s.session.poll s.tcp w with ⟨st,session,tcp,w'⟩
  simp only
  split_ifs with hok hend
  · subst hok
    exact .registered h hpoll
  · exact .unregistered h hpoll hend
  · rw [not_or] at hend
    exact .registers h hpoll hok hend.1 hend.2

theorem query_turned {s : LanInventory} (h : s.phase = .query) (turn : Turn) (w : World) :
    Turned s turn w (s.query turn w) := by
  rw [query]
  by_cases hstep : s.stepStarted = true
  · rw [if_neg (by simp [hstep])]
    rcases hpoll : s.msg.poll s.tcp w with ⟨st,msg,tcp,w'⟩
    simp only
    by_cases hok : st = .ok
    · subst hok
      rw [if_pos rfl,finishQuery]
      by_cases hlast : kIdentityAttrCount ≤ s.queryIndex + 1
      · exact (if_pos hlast).symm ▸ .reports h hstep hpoll hlast rfl rfl
      · exact (if_neg hlast).symm ▸ .answered h hstep hpoll (Nat.not_le.mp hlast)
    rw [if_neg hok]
    split_ifs with hend
    · exact .unanswered h hstep hpoll hend
    · rw [not_or,not_or] at hend
      exact .waits h hstep hpoll hok hend.1 hend.2.1 hend.2.2
  · rw [Bool.not_eq_true] at hstep
    rw [if_pos (by simp [hstep]),startQuery]
    exact .asks h hstep rfl

theorem close_turned {s : LanInventory} (h : s.phase = .close) (turn : Turn) (w : World) :
    Turned s turn w (s.close w) := by
  simp only [close]
  rcases hpoll : s.session.poll s.tcp w with ⟨st,session,tcp,w'⟩
  simp only
  split_ifs with hok hend
  · exact .closed h hpoll hok
  · exact .abandoned h hpoll hend
  · rw [not_or] at hok hend
    exact .closes h hpoll hok.1 hok.2 hend.1 hend.2

theorem loop_turned (s : LanInventory) (turn : Turn) (w : World) :
    Turned s turn w (s.loop turn w) := by
  rw [loop]
  cases h : s.phase with
  | waitEthernet => exact waitEthernet_turned h turn w
  | scan => exact scan_turned h turn w
  | connect => exact connect_turned h turn w
  | register => exact register_turned h turn w
  | query => exact query_turned h turn w
  | close => exact close_turned h turn w
  | done => exact .idles h

end LanInventory

end ControlLogix
