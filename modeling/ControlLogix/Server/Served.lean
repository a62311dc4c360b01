import ControlLogix.Server.Answers

namespace ControlLogix

def ExplicitMessage.carrier : Carrier ExplicitMessage ExplicitMessage.exchanger where
  get m := m
  set _ m := m
  carries _ := true
  win m := (.ok,m)
  lose m := m
  poll m t w := m.poll t w
  get_set _ _ := rfl
  set_set _ _ _ := rfl
  carries_set _ _ := rfl
  get_win _ := rfl
  get_lose _ := rfl
  win_ne _ := by simp
  poll_eq m t w _ _ := by
    have hpoll : ExplicitMessage.exchanger.poll m t w = m.poll t w := rfl
    rw [hpoll]
    rcases m.poll t w with ⟨st,m',t',w'⟩
    simp only
    split_ifs with hwait hok
    · rw [hwait]
    · rw [hok]
    · rfl

namespace SyntheticServer

def polled (n : Nat) (m : ExplicitMessage) (t : TcpConnection) (w : World) :
    Status × ExplicitMessage × TcpConnection × World :=
  ExplicitMessage.carrier.exchanger.polls n m t w

-- A message on its way to the server over a socket that does not fail, polled in time until its
-- exchange is over, while the stream brings what the server sends.
structure Served (s : SyntheticServer) (n : Nat) (m : ExplicitMessage) (t : TcpConnection)
    (w : World) : Prop where
  live : t.live
  calm : w.script.calm = true
  timely : ExplicitMessage.carrier.exchanger.Timely n m t w
  finished : (polled n m t w).1 ≠ .pending
  arrives : arriving w.script.recvs =
    ((s.handleConnection (sentBetween w.log (polled n m t w).2.2.2.log)).map Prod.fst).getD []

theorem Served.answered {s s' : SyntheticServer} {r : Request} {m : ExplicitMessage}
    {t : TcpConnection} {sessionHandle timeoutMs : UInt32} {w : World} {cip : List UInt8} {n : Nat}
    (hplain : r.plain) (hsend : (r.send m t sessionHandle timeoutMs w).1 = .pending)
    (hserve : s.handleCipRequest sessionHandle r.service r.path r.rest = some (cip,s'))
    (hcip : 4 ≤ cip.length) (hextra : cip.getD 3 0 = 0)
    (hsmall : cip.length ≤ ExplicitMessage.kMaxCipData)
    (h : s.Served n (r.send m t sessionHandle timeoutMs w).2.1 t
      (r.send m t sessionHandle timeoutMs w).2.2) :
    ∃ m' w', polled n (r.send m t sessionHandle timeoutMs w).2.1 t
        (r.send m t sessionHandle timeoutMs w).2.2 = (.ok,m',t,w') ∧
      m'.inFlight = false ∧ m'.resultCode = cip.getD 2 0 ∧ m'.dataBytes = cip.drop 4 := by
  rcases r.send_cases m t sessionHandle timeoutMs w with ⟨deadline,heq,hfits⟩ | ⟨st,hst,heq⟩
  · rw [heq] at h ⊢
    obtain ⟨p,m',w',rfl,hidle,hcode,hdata,_,hrun,_⟩ := ExplicitMessage.carrier.exchange_answered
      (x := m.issued (r.frame sessionHandle m.context) deadline) rfl rfl hplain hfits hserve hcip
      hsmall h.live h.calm h.timely h.finished h.arrives
    exact ⟨m',w',hrun,hidle,hcode,hdata.trans (Reply.data_plain hextra)⟩
  · rw [heq] at hsend
    exact absurd hsend hst

end SyntheticServer

end ControlLogix
