import ControlLogix.Eip.Steady

namespace ControlLogix

def delivered : List (Except Errno (List UInt8)) → List UInt8
  | .ok (b :: bs) :: rest => b :: bs ++ delivered rest
  | _ => []

def halt : List (Except Errno (List UInt8)) → Except Errno (List UInt8)
  | .ok (_ :: _) :: rest => halt rest
  | answer :: _ => answer
  | [] => .error .ewouldblock

theorem delivered_split (b : UInt8) (bs : List UInt8) (rest : List (Except Errno (List UInt8)))
    (k : Nat) :
    let left := if bs.drop k = [] then rest else .ok (bs.drop k) :: rest
    delivered (.ok (b :: bs) :: rest) = b :: bs.take k ++ delivered left ∧
      halt (.ok (b :: bs) :: rest) = halt left := by
  intro left
  have hparts := List.take_append_drop k bs
  cases hleft : bs.drop k with
  | nil =>
    rw [hleft,List.append_nil] at hparts
    simp only [left,hleft,if_true,hparts]
    exact ⟨rfl,rfl⟩
  | cons c cs =>
    rw [hleft] at hparts
    simp only [left,hleft,reduceCtorEq,if_false,delivered,halt,List.cons_append,and_true]
    conv_lhs => rw [← hparts]
    simp

theorem TcpConnection.read_answer {t : TcpConnection} (hlive : t.live) {length : Nat}
    (hlen : 0 < length) (w : World) :
    ∃ got t' w', t.read length w = (got,t',w') ∧
      ((∃ b bs, got = .ok (b :: bs) ∧ (b :: bs).length ≤ length ∧ t' = t ∧
          delivered w.script.recvs = b :: bs ++ delivered w'.script.recvs ∧
          halt w.script.recvs = halt w'.script.recvs) ∨
        delivered w.script.recvs = [] ∧
          (got = .error .closed ∧ halt w.script.recvs = .ok [] ∨
            (got = .ok [] ∨ got = .error .error) ∧ halt w.script.recvs ≠ .ok [])) := by
  simp only [read]
  rw [if_neg (by simp [hlive.1,hlive.2]),if_neg (by omega)]
  simp only [World.lwipRecv]
  rcases hscript : w.script.recvs with _ | ⟨e | bs,rest⟩
  · exact ⟨_,_,_,rfl,Or.inr ⟨rfl,Or.inr ⟨Or.inl rfl,by simp [halt]⟩⟩⟩
  · simp only [List.headD_cons,List.tail_cons]
    by_cases hwait : e = .ewouldblock ∨ e = .eagain
    · rw [if_pos hwait]
      exact ⟨_,_,_,rfl,Or.inr ⟨rfl,Or.inr ⟨Or.inl rfl,by simp [halt]⟩⟩⟩
    · rw [if_neg hwait]
      exact ⟨_,_,_,rfl,Or.inr ⟨rfl,Or.inr ⟨Or.inr rfl,by simp [halt]⟩⟩⟩
  cases bs with
  | nil =>
    simp only [List.headD_cons,List.tail_cons,List.take_nil,List.drop_nil,if_true]
    exact ⟨_,_,_,rfl,Or.inr ⟨rfl,Or.inl ⟨rfl,rfl⟩⟩⟩
  | cons b bs =>
    obtain ⟨k,rfl⟩ := Nat.exists_eq_succ_of_ne_zero (Nat.pos_iff_ne_zero.mp hlen)
    simp only [List.headD_cons,List.tail_cons,List.take_succ_cons,List.drop_succ_cons]
    obtain ⟨hbytes,hhalt⟩ := delivered_split b bs rest k
    exact ⟨_,_,_,rfl,Or.inl ⟨b,bs.take k,rfl,by simp,rfl,hbytes,hhalt⟩⟩

namespace Transfer

def Lacks (cap : Nat) (x : Transfer) (bs : List UInt8) : Prop :=
  bs.length < x.rxExpected ∨ x.rx.length < kEncapsulationHeaderSize ∧
    (decodeHeader bs).length.toNat ≤ cap ∧
      bs.length < kEncapsulationHeaderSize + (decodeHeader bs).length.toNat

-- The peer closes before the reply is whole.
def Shut (cap : Nat) (x : Transfer) (recvs : List (Except Errno (List UInt8))) : Prop :=
  halt recvs = .ok [] ∧ x.Lacks cap (x.rx ++ delivered recvs)

instance (cap : Nat) (x : Transfer) (bs : List UInt8) : Decidable (x.Lacks cap bs) :=
  inferInstanceAs (Decidable (_ ∨ _))

instance (cap : Nat) (x : Transfer) (recvs : List (Except Errno (List UInt8))) :
    Decidable (x.Shut cap recvs) := inferInstanceAs (Decidable (_ ∧ _))

theorem lacks_header {cap : Nat} {x : Transfer} (hp : x.Paced)
    (hshort : x.rx.length < kEncapsulationHeaderSize) {rx : List UInt8}
    (hhead : rx.length = kEncapsulationHeaderSize)
    (hcap : (decodeHeader rx).length.toNat ≤ cap) (more : List UInt8) :
    x.Lacks cap (rx ++ more) ↔
      Lacks cap {x with
        rx := rx,
        rxExpected := kEncapsulationHeaderSize + (decodeHeader rx).length.toNat} (rx ++ more) := by
  have hexp := hp.2.1 hshort
  have hlen : (rx ++ more).length = kEncapsulationHeaderSize + more.length := by
    rw [List.length_append,hhead]
  simp only [Lacks,decodeHeader_append rx more hhead.ge]
  omega

theorem lacks_chunk {cap : Nat} {x : Transfer} (hp : x.Paced) {got : List UInt8}
    (hle : got.length ≤ x.rxExpected - x.rx.length)
    (hhead : (x.rx ++ got).length ≠ kEncapsulationHeaderSize) (bs : List UInt8) :
    x.Lacks cap bs ↔ Lacks cap {x with rx := x.rx ++ got} bs := by
  have hsame : x.rx.length < kEncapsulationHeaderSize ↔
      (x.rx ++ got).length < kEncapsulationHeaderSize := by
    rw [List.length_append] at hhead ⊢
    refine ⟨fun hshort => ?_,fun h => by omega⟩
    have hexp := hp.2.1 hshort
    omega
  simp only [Lacks,hsame]

theorem lacks_whole {cap : Nat} {x : Transfer} (hp : x.Paced) (hall : x.rxExpected ≤ x.rx.length)
    (more : List UInt8) : ¬ x.Lacks cap (x.rx ++ more) := by
  rintro (h | ⟨hshort,_⟩)
  · rw [List.length_append] at h
    omega
  · have := hp.2.1 hshort
    omega

theorem readLoop_shut {cap fuel : Nat} {x : Transfer} {t : TcpConnection} {w : World}
    (hfuel : x.rxExpected - x.rx.length + (if x.rx.length < kEncapsulationHeaderSize then cap
      else 0) < fuel) (hp : x.Paced) (hlive : t.live) :
    (readLoop cap fuel x t w).1 = .closed ↔ x.Shut cap w.script.recvs := by
  induction fuel generalizing x w with
  | zero => omega
  | succ fuel ih =>
    rw [readLoop,Shut]
    by_cases hmore : x.rx.length < x.rxExpected
    · rw [if_pos hmore]
      obtain ⟨got,t',w',heq,⟨b,bs,rfl,hle,rfl,hbytes,hhalt⟩ | ⟨hnone,hend⟩⟩ :=
        TcpConnection.read_answer hlive (Nat.sub_pos_of_lt hmore) w
      · rw [heq,hhalt,hbytes,← List.append_assoc]
        simp only
        by_cases hhead : (x.rx ++ b :: bs).length = kEncapsulationHeaderSize
        · have hshort : x.rx.length < kEncapsulationHeaderSize := by
            rw [List.length_append,List.length_cons] at hhead
            omega
          rw [if_pos hhead]
          by_cases hcap : cap < (decodeHeader (x.rx ++ b :: bs)).length.toNat
          · rw [if_pos hcap]
            refine ⟨fun h => (by cases h),?_⟩
            rintro ⟨-,hlong | ⟨-,hsmall,-⟩⟩
            · have hexp := hp.2.1 hshort
              rw [List.length_append,hhead] at hlong
              omega
            · rw [decodeHeader_append _ _ hhead.ge] at hsmall
              omega
          · rw [if_neg hcap,lacks_header hp hshort hhead (Nat.not_lt.mp hcap)]
            rw [if_pos hshort] at hfuel
            exact ih (by simp only [hhead,Nat.lt_irrefl,if_false]; omega) (paced_header hhead)
        · rw [if_neg hhead,lacks_chunk hp hle hhead]
          have hfewer := Nat.lt_of_lt_of_le (hp.push_less (List.cons_ne_nil b bs) hle hhead)
            (Nat.lt_succ_iff.mp hfuel)
          exact ih (x := {x with rx := x.rx ++ b :: bs}) hfewer (hp.push hle hhead)
      · have hlacks : x.Lacks cap (x.rx ++ delivered w.script.recvs) := by
          rw [hnone,List.append_nil]
          exact Or.inl hmore
        rw [heq,and_iff_left hlacks]
        rcases hend with ⟨rfl,hhalt⟩ | ⟨rfl | rfl,hhalt⟩
        · exact iff_of_true rfl hhalt
        · exact iff_of_false (by simp) hhalt
        · exact iff_of_false (by simp) hhalt
    · rw [if_neg hmore]
      exact iff_of_false (by simp) fun h => lacks_whole hp (Nat.not_lt.mp hmore) _ h.2

theorem writeLoop_over {fuel : Nat} {x : Transfer} {t : TcpConnection} {w : World} (hlive : t.live)
    (h : (writeLoop fuel x t w).1 = .ok) :
    ∃ k w', writeLoop fuel x t w = (.ok,{x with txSent := k},t,w') ∧
      w'.script.recvs = w.script.recvs := by
  induction fuel generalizing x w with
  | zero => cases h
  | succ fuel ih =>
    rw [writeLoop] at h ⊢
    by_cases hmore : x.txSent < x.tx.length
    · obtain ⟨t',w',_,hrecvs,hwrite⟩ := write_answer hlive x.tx x.txSent
        (show x.tx.length - x.txSent ≠ 0 by omega) w
      rw [if_pos hmore] at h ⊢
      cases hanswer : w.script.sends.headD (.error .ewouldblock) with
      | ok k =>
        simp only [hanswer] at hwrite
        obtain ⟨rfl,hwrite⟩ := hwrite
        rw [hwrite] at h ⊢
        cases hsome : min k (x.tx.length - x.txSent) with
        | zero =>
          rw [hsome] at h
          cases h
        | succ j =>
          rw [hsome] at h
          obtain ⟨i,w'',hrun,hrecvs'⟩ := ih (x := {x with txSent := x.txSent + (j + 1)}) h
          exact ⟨i,w'',hrun,hrecvs'.trans hrecvs⟩
      | error e =>
        simp only [hanswer] at hwrite
        rw [hwrite.2] at h
        split_ifs at h
    · rw [if_neg hmore]
      exact ⟨_,_,rfl,rfl⟩

-- The connection is lost: it was before, the send says so, or the peer closes.
def HungUp (cap : Nat) (x : Transfer) (t : TcpConnection) (script : Script) : Prop :=
  ¬ t.live ∧ (x.txSent < x.tx.length ∨ x.rx.length < x.rxExpected) ∨
    t.live ∧ (intake (x.tx.length - x.txSent) script.sends = .closed ∨
      intake (x.tx.length - x.txSent) script.sends = .ok ∧ x.Shut cap script.recvs)

theorem dead_iff {t : TcpConnection} : ¬ t.live ↔ t.fd < 0 ∨ t.state ≠ .ok := by
  rw [TcpConnection.live,not_and_or,not_le]

theorem hungUp_iff {cap : Nat} {x : Transfer} (hp : x.Paced) (t : TcpConnection) (w : World) :
    x.HungUp cap t w.script ↔ (x.writePending t w).1 = .closed ∨
      ∃ y u v, x.writePending t w = (.ok,y,u,v) ∧ (y.readResponse cap u v).1 = .closed := by
  by_cases hlive : t.live
  · have hst := writeLoop_intake (x := x) (w := w) (Nat.lt_succ_self _) hlive
    have hwrite : (x.writePending t w).1 = intake (x.tx.length - x.txSent) w.script.sends := hst
    simp only [HungUp,hlive,not_true_eq_false,false_and,true_and,false_or,← hwrite]
    refine or_congr_right ⟨?_,?_⟩
    · rintro ⟨hok,hshut⟩
      obtain ⟨k,v,heq,hrecvs⟩ := writeLoop_over hlive hok
      refine ⟨_,_,_,heq,(readLoop_shut (by split_ifs <;> omega) ?_ hlive).mpr ?_⟩
      · exact hp
      · rw [hrecvs]
        exact hshut
    · rintro ⟨y,u,v,heq,hclosed⟩
      have hok : (x.writePending t w).1 = .ok := by rw [heq]
      obtain ⟨k,v',heq',hrecvs⟩ := writeLoop_over hlive hok
      cases heq.symm.trans heq'
      refine ⟨hok,?_⟩
      have hshut := (readLoop_shut (x := {x with txSent := k}) (by split_ifs <;> omega)
        hp hlive).mp hclosed
      rw [hrecvs] at hshut
      exact hshut
  · have hdead := dead_iff.mp hlive
    simp only [HungUp,hlive,not_false_eq_true,true_and,false_and,or_false]
    rw [writePending,writeLoop]
    by_cases hmore : x.txSent < x.tx.length
    · rw [if_pos hmore,TcpConnection.write,if_pos hdead]
      simp [hmore]
    · rw [if_neg hmore]
      constructor
      · rintro (h | h)
        · exact absurd h hmore
        · refine Or.inr ⟨_,_,_,rfl,?_⟩
          rw [readResponse,readLoop,if_pos h,TcpConnection.read,if_pos hdead]
      · rintro (h | ⟨y,u,v,heq,hclosed⟩)
        · cases h
        · cases heq
          refine Or.inr ?_
          by_contra hall
          rw [readResponse,readLoop,if_neg hall] at hclosed
          cases hclosed

end Transfer

end ControlLogix
