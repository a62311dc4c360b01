import ControlLogix.Cip.ShortIo

namespace ControlLogix

def intake (n : Nat) : List (Except Errno Nat) → Status
  | [] => if n = 0 then .ok else .pending
  | answer :: rest =>
    if n = 0 then .ok
    else
      match answer with
      | .ok k => if k = 0 then .pending else intake (n - k) rest
      | .error e =>
        if e = .ewouldblock ∨ e = .eagain then .pending
        else if e = .epipe ∨ e = .econnreset then .closed
        else .error

theorem intake_zero (sends : List (Except Errno Nat)) : intake 0 sends = .ok := by
  cases sends <;> rfl

theorem intake_cases (n : Nat) (sends : List (Except Errno Nat)) : intake n sends = .ok ∨
    intake n sends = .pending ∨ intake n sends = .closed ∨ intake n sends = .error := by
  induction sends generalizing n with
  | nil =>
    rw [intake]
    split <;> simp
  | cons answer rest ih =>
    cases answer with
    | error e =>
      rw [intake]
      split_ifs <;> simp
    | ok k =>
      rw [intake]
      split_ifs
      · exact Or.inl rfl
      · exact Or.inr (Or.inl rfl)
      · exact ih _

namespace Transfer

theorem write_answer {t : TcpConnection} (hlive : t.live) (buffer : List UInt8) (off : Nat)
    {n : Nat} (hn : n ≠ 0) (w : World) : ∃ t' w', w'.script.sends = w.script.sends.tail ∧
      w'.script.recvs = w.script.recvs ∧
      match w.script.sends.headD (.error .ewouldblock) with
      | .ok k => t' = t ∧ t.write buffer off n w = (.ok (min k n),t',w')
      | .error e => (e.waits = true → t' = t) ∧ t.write buffer off n w =
          ((if e = .ewouldblock ∨ e = .eagain then .ok 0
            else if e = .epipe ∨ e = .econnreset then .error .closed
            else .error .error),t',w') := by
  simp only [TcpConnection.write]
  rw [if_neg (by simp [hlive.1,hlive.2]),if_neg hn]
  simp only [World.lwipSend]
  cases w.script.sends.headD (.error .ewouldblock) with
  | ok k =>
    refine ⟨t,_,?_,?_,rfl,rfl⟩
    · split <;> rfl
    · split <;> rfl
  | error e =>
    simp only
    split_ifs with hwait hgone
    · exact ⟨t,{w with script.sends := w.script.sends.tail},rfl,rfl,fun _ => rfl,rfl⟩
    · exact ⟨{t with state := .closed},{w with script.sends := w.script.sends.tail},rfl,rfl,
        fun h => absurd (of_decide_eq_true h) hwait,rfl⟩
    · exact ⟨t,{w with script.sends := w.script.sends.tail},rfl,rfl,fun _ => rfl,rfl⟩

theorem intake_next {n : Nat} (hn : n ≠ 0) (sends : List (Except Errno Nat)) :
    intake n sends = match sends.headD (.error .ewouldblock) with
      | .ok k => if k = 0 then .pending else intake (n - k) sends.tail
      | .error e => if e = .ewouldblock ∨ e = .eagain then .pending
          else if e = .epipe ∨ e = .econnreset then .closed
          else .error := by
  cases sends with
  | nil =>
    rw [intake,if_neg hn]
    rfl
  | cons answer rest =>
    cases answer with
    | ok k => rw [intake,if_neg hn]; rfl
    | error e => rw [intake,if_neg hn]; rfl

theorem writeLoop_intake {fuel : Nat} {x : Transfer} {t : TcpConnection} {w : World}
    (hfuel : x.tx.length - x.txSent < fuel) (hlive : t.live) :
    (writeLoop fuel x t w).1 = intake (x.tx.length - x.txSent) w.script.sends := by
  induction fuel generalizing x w with
  | zero => omega
  | succ fuel ih =>
    rw [writeLoop]
    by_cases hmore : x.txSent < x.tx.length
    · have hn : x.tx.length - x.txSent ≠ 0 := by omega
      obtain ⟨t',w',hsends,_,hwrite⟩ := write_answer hlive x.tx x.txSent hn w
      rw [if_pos hmore,intake_next hn]
      cases hanswer : w.script.sends.headD (.error .ewouldblock) with
      | ok k =>
        simp only [hanswer] at hwrite ⊢
        obtain ⟨rfl,hwrite⟩ := hwrite
        rw [hwrite]
        by_cases hk : k = 0
        · rw [if_pos hk,hk,Nat.zero_min]
          rfl
        · obtain ⟨j,hj⟩ := Nat.exists_eq_succ_of_ne_zero
            (show min k (x.tx.length - x.txSent) ≠ 0 by omega)
          have hrest : x.tx.length - (x.txSent + (j + 1)) = x.tx.length - x.txSent - k := by omega
          rw [if_neg hk,hj,← hsends,← hrest]
          exact ih (x := {x with txSent := x.txSent + (j + 1)}) (by simp only; omega)
      | error e =>
        simp only [hanswer] at hwrite ⊢
        rw [hwrite.2]
        split_ifs <;> rfl
    · rw [if_neg hmore,Nat.sub_eq_zero_of_le (by omega),intake_zero]

-- The socket is gone, or fails while the rest of the request is written.
def Refused (x : Transfer) (t : TcpConnection) (sends : List (Except Errno Nat)) : Prop :=
  x.txSent < x.tx.length ∧ (¬ t.live ∨ intake (x.tx.length - x.txSent) sends = .closed ∨
    intake (x.tx.length - x.txSent) sends = .error)

theorem writePending_refused (x : Transfer) (t : TcpConnection) (w : World) :
    x.Refused t w.script.sends ↔
      (x.writePending t w).1 ≠ .pending ∧ (x.writePending t w).1 ≠ .ok := by
  rw [Refused,writePending]
  by_cases hlive : t.live
  · rw [writeLoop_intake (Nat.lt_succ_self _) hlive,or_iff_right (not_not.mpr hlive)]
    by_cases hmore : x.txSent < x.tx.length
    · rw [and_iff_right hmore]
      rcases intake_cases (x.tx.length - x.txSent) w.script.sends with h | h | h | h <;> simp [h]
    · rw [Nat.sub_eq_zero_of_le (by omega),intake_zero]
      simp
  · have hdead : t.fd < 0 ∨ t.state ≠ .ok := by
      rw [TcpConnection.live,not_and_or,not_le] at hlive
      exact hlive
    rw [writeLoop]
    by_cases hmore : x.txSent < x.tx.length
    · rw [if_pos hmore,TcpConnection.write,if_pos hdead]
      simp [hmore,hlive]
    · rw [if_neg hmore]
      simp [hmore]

end Transfer

namespace Session

def taken (s : Session) (st : Status) (x : Transfer) : Status × Session :=
  if st = .pending then (.pending,exchanger.resume s x)
  else if st = .ok then exchanger.finish s x
  else (st,exchanger.fail s x)

inductive Turned (s : Session) (t : TcpConnection) (w : World) :
    Status × Session × TcpConnection × World → Prop
  | late : expired w.millis.1 s.deadline = true →
      Turned s t w (.timeout,{s with state := .failed},t,w.millis.2)
  | unsent {st : Status} {x : Transfer} {u : TcpConnection} {v : World} :
      expired w.millis.1 s.deadline = false →
      s.io.writePending t w.millis.2 = (st,x,u,v) → st ≠ .ok →
      Turned s t w (st,exchanger.resume s x,u,v)
  | read {x y : Transfer} {u t' : TcpConnection} {v w' : World} {st : Status} :
      expired w.millis.1 s.deadline = false → s.io.writePending t w.millis.2 = (.ok,x,u,v) →
      x.readResponse kMaxBodySize u v = (st,y,t',w') →
      Turned s t w ((s.taken st y).1,(s.taken st y).2,t',w')

theorem poll_late {s : Session} (hs : s.exchanging = true) {w : World}
    (hdl : expired w.millis.1 s.deadline = true) (t : TcpConnection) :
    s.poll t w = (.timeout,{s with state := .failed},t,w.millis.2) := by
  have hstate : s.state = .registering ∨ s.state = .unregistering := by
    simpa [exchanging] using hs
  rcases hstate with h | h <;> simp [poll,h,pollRegistering,pollUnregistering,hdl]

theorem poll_turned {s : Session} (hs : s.exchanging = true) (t : TcpConnection) (w : World) :
    Turned s t w (s.poll t w) := by
  have hstate : s.state = .registering ∨ s.state = .unregistering := by
    simpa [exchanging] using hs
  cases hdl : expired w.millis.1 s.deadline with
  | true =>
    rw [poll_late hs hdl]
    exact .late hdl
  | false =>
    rcases hwrite : s.io.writePending t w.millis.2 with ⟨st,x,u,v⟩
    by_cases hok : st = .ok
    · subst hok
      rcases hread : x.readResponse kMaxBodySize u v with ⟨st,y,t',w'⟩
      have hsent : y.tx.length ≤ y.txSent := by
        have hw := Transfer.Wrote.of_write hwrite
        have hr := Transfer.Read.of_read hread
        rw [hr.tx_eq,hw.cursor]
        exact hw.all_sent hr
      have hpoll : s.poll t w = ((s.taken st y).1,(s.taken st y).2,t',w') := by
        have h := exchanger.poll_read s t w x u v st y t' w' hs hdl hwrite hread hsent
        rw [taken]
        split_ifs at h ⊢ <;> exact h
      rw [hpoll]
      exact .read hdl hwrite hread
    · have hpoll : s.poll t w = (st,exchanger.resume s x,u,v) := by
        rcases hstate with h | h <;>
          simp [poll,h,pollRegistering,pollUnregistering,hdl,hwrite,hok,exchanger]
      rw [hpoll]
      exact .unsent hdl hwrite hok

end Session

end ControlLogix
