import ControlLogix.Eip.Intake

namespace ControlLogix

def shut (answers : List (Except Errno (List UInt8))) : Bool :=
  answers.all fun answer => match answer with
    | .ok [] => true
    | _ => false

-- No read fails, and once the peer has closed nothing more comes.
def steadily : List (Except Errno (List UInt8)) → Bool
  | [] => true
  | .error e :: rest => e.waits && steadily rest
  | .ok [] :: rest => shut rest
  | .ok (_ :: _) :: rest => steadily rest

-- The socket reports no error during the call; the peer may close it.
def Script.steady (s : Script) : Bool := s.sends.all carries && steadily s.recvs

theorem Script.steady_iff {s : Script} :
    s.steady = true ↔ s.sends.all carries = true ∧ steadily s.recvs = true := by
  simp only [steady,Bool.and_eq_true]

theorem steadily_shut {answers : List (Except Errno (List UInt8))} (h : shut answers = true) :
    steadily answers = true ∧ arriving answers = [] := by
  induction answers with
  | nil => exact ⟨rfl,rfl⟩
  | cons answer rest ih =>
    rw [shut,List.all_cons,Bool.and_eq_true] at h
    match answer,h.1 with
    | .ok [],_ => exact ⟨h.2,(ih h.2).2⟩

theorem readable_front (answers : List (Except Errno (List UInt8))) :
    readable answers <+: arriving answers := by
  induction answers with
  | nil => exact List.prefix_rfl
  | cons answer rest ih =>
    cases answer with
    | error e => exact List.nil_prefix
    | ok bs => exact (List.prefix_append_right_inj bs).mpr ih

theorem TcpConnection.read_steady {t : TcpConnection} (hlive : t.live) {length : Nat}
    (hlen : 0 < length) {w : World} (hsteady : w.script.steady = true) :
    ∃ got t' w', t.read length w = (got,t',w') ∧ w'.script.steady = true ∧
      ((got = .ok [] ∧ t' = t ∧ readable w.script.recvs = [] ∧
          arriving w.script.recvs = arriving w'.script.recvs) ∨
        (∃ b bs, got = .ok (b :: bs) ∧ (b :: bs).length ≤ length ∧ t' = t ∧
          readable w.script.recvs = b :: bs ++ readable w'.script.recvs ∧
          arriving w.script.recvs = b :: bs ++ arriving w'.script.recvs) ∨
        (got = .error .closed ∧ arriving w.script.recvs = [] ∧
          arriving w'.script.recvs = [])) := by
  obtain ⟨hsends,hrecvs⟩ := Script.steady_iff.mp hsteady
  simp only [read]
  rw [if_neg (by simp [hlive.1,hlive.2]),if_neg (by omega)]
  simp only [World.lwipRecv]
  rcases hscript : w.script.recvs with _ | ⟨e | bs,rest⟩
  · exact ⟨_,_,_,rfl,Script.steady_iff.mpr ⟨hsends,rfl⟩,Or.inl ⟨rfl,rfl,rfl,rfl⟩⟩
  · rw [hscript,steadily,Bool.and_eq_true] at hrecvs
    have hwait : e = .ewouldblock ∨ e = .eagain := of_decide_eq_true hrecvs.1
    simp only [List.headD_cons,List.tail_cons,if_pos hwait]
    exact ⟨_,_,_,rfl,Script.steady_iff.mpr ⟨hsends,hrecvs.2⟩,Or.inl ⟨rfl,rfl,rfl,rfl⟩⟩
  cases bs with
  | nil =>
    rw [hscript,steadily] at hrecvs
    simp only [List.headD_cons,List.tail_cons,List.take_nil,List.drop_nil,if_true]
    obtain ⟨hrest,hnone⟩ := steadily_shut hrecvs
    exact ⟨_,_,_,rfl,Script.steady_iff.mpr ⟨hsends,hrest⟩,Or.inr (Or.inr ⟨rfl,hnone,hnone⟩)⟩
  | cons b bs =>
    rw [hscript,steadily] at hrecvs
    obtain ⟨length,rfl⟩ := Nat.exists_eq_succ_of_ne_zero (Nat.pos_iff_ne_zero.mp hlen)
    simp only [List.headD_cons,List.tail_cons,List.take_succ_cons]
    refine ⟨_,_,_,rfl,Script.steady_iff.mpr ⟨hsends,?_⟩,Or.inr (Or.inl ⟨b,bs.take length,rfl,
      by simp,rfl,readable_split (b :: bs) rest (length + 1),
      arriving_split (b :: bs) rest (length + 1)⟩)⟩
    simp only [World.note]
    cases (b :: bs).drop (length + 1) with
    | nil => exact hrecvs
    | cons c cs => exact hrecvs

namespace Transfer

theorem writeLoop_steady (fuel : Nat) {x : Transfer} {t : TcpConnection} {w : World}
    (hlive : t.live) (hsteady : w.script.steady = true) :
    ∃ st k w', writeLoop fuel x t w = (st,{x with txSent := k},t,w') ∧
      w'.script.steady = true ∧ w'.script.recvs = w.script.recvs ∧ (st = .pending ∨ st = .ok) := by
  induction fuel generalizing x w with
  | zero => exact ⟨_,_,_,rfl,hsteady,rfl,Or.inl rfl⟩
  | succ fuel ih =>
    rw [writeLoop]
    by_cases hmore : x.txSent < x.tx.length
    · obtain ⟨t',w',hsends,hrecvs,hwrite⟩ := write_answer hlive x.tx x.txSent
        (show x.tx.length - x.txSent ≠ 0 by omega) w
      obtain ⟨hcarries,hrest⟩ := Script.steady_iff.mp hsteady
      have hsteady' : w'.script.steady = true := by
        rw [Script.steady_iff,hsends,hrecvs]
        refine ⟨List.all_eq_true.mpr fun a ha => ?_,hrest⟩
        exact List.all_eq_true.mp hcarries a (List.mem_of_mem_tail ha)
      rw [if_pos hmore]
      cases hanswer : w.script.sends.headD (.error .ewouldblock) with
      | ok k =>
        simp only [hanswer] at hwrite
        obtain ⟨rfl,hwrite⟩ := hwrite
        rw [hwrite]
        cases min k (x.tx.length - x.txSent) with
        | zero => exact ⟨_,_,_,rfl,hsteady',hrecvs,Or.inl rfl⟩
        | succ j =>
          obtain ⟨st,i,w'',hrun,hsteady'',hrecvs',hst⟩ :=
            ih (x := {x with txSent := x.txSent + (j + 1)}) hsteady'
          exact ⟨st,i,w'',hrun,hsteady'',hrecvs'.trans hrecvs,hst⟩
      | error e =>
        have hwait : e.waits = true := by
          cases hlist : w.script.sends with
          | nil =>
            rw [hlist] at hanswer
            cases hanswer
            rfl
          | cons answer rest =>
            rw [hlist] at hanswer hcarries
            cases hanswer
            exact (Bool.and_eq_true_iff.mp hcarries).1
        simp only [hanswer] at hwrite
        rw [hwrite.2,if_pos (of_decide_eq_true hwait),hwrite.1 hwait]
        exact ⟨_,_,_,rfl,hsteady',hrecvs,Or.inl rfl⟩
    · rw [if_neg hmore]
      exact ⟨_,_,_,rfl,hsteady,rfl,Or.inr rfl⟩

inductive Fetched (cap : Nat) (x : Transfer) (t : TcpConnection) (w : World) :
    Status → Transfer → TcpConnection → Prop
  | dry {y : Transfer} : y.rx = x.rx ++ readable w.script.recvs → y.rx.length < y.rxExpected →
      Fetched cap x t w .pending y t
  | full {y : Transfer} : y.rxExpected ≤ y.rx.length →
      y.rx <+: x.rx ++ readable w.script.recvs → Fetched cap x t w .ok y t
  | flooded {y : Transfer} : y.rx.length = kEncapsulationHeaderSize →
      cap < (decodeHeader y.rx).length.toNat → Fetched cap x t w .error y t
  | closed {y : Transfer} {t' : TcpConnection} : y.rx = x.rx ++ arriving w.script.recvs →
      y.rx.length < y.rxExpected → Fetched cap x t w .closed y t'

theorem Fetched.step {cap : Nat} {x x' y : Transfer} {t t' : TcpConnection} {w w' : World}
    {st : Status} {got : List UInt8} (h : Fetched cap x' t w' st y t') (hx : x'.rx = x.rx ++ got)
    (hread : readable w.script.recvs = got ++ readable w'.script.recvs)
    (hstream : arriving w.script.recvs = got ++ arriving w'.script.recvs) :
    Fetched cap x t w st y t' := by
  cases h with
  | dry hrx hmore => exact .dry (by rw [hrx,hx,hread,List.append_assoc]) hmore
  | full hall hfront => exact .full hall (by rwa [hread,← List.append_assoc,← hx])
  | flooded hlen hlong => exact .flooded hlen hlong
  | closed hrx hmore => exact .closed (by rw [hrx,hx,hstream,List.append_assoc]) hmore

theorem readLoop_steady {cap fuel : Nat} {x : Transfer} {t : TcpConnection} {w : World}
    (hfuel : x.rxExpected - x.rx.length + (if x.rx.length < kEncapsulationHeaderSize then cap
      else 0) < fuel) (hp : x.Paced) (hlive : t.live) (hsteady : w.script.steady = true) :
    ∃ st y t' w', readLoop cap fuel x t w = (st,y,t',w') ∧ Fetched cap x t w st y t' ∧
      w'.script.steady = true ∧
      x.rx ++ arriving w.script.recvs = y.rx ++ arriving w'.script.recvs ∧
      (x.rxExpected ≤ kEncapsulationHeaderSize + cap →
        y.rxExpected ≤ kEncapsulationHeaderSize + cap) := by
  induction fuel generalizing x w with
  | zero => omega
  | succ fuel ih =>
    rw [readLoop]
    by_cases hmore : x.rx.length < x.rxExpected
    · rw [if_pos hmore]
      obtain ⟨got,t',w',heq,hsteady',⟨rfl,rfl,hnone,hstream⟩ |
        ⟨b,bs,rfl,hle,rfl,hread,hstream⟩ | ⟨rfl,hend,hend'⟩⟩ :=
        TcpConnection.read_steady hlive (Nat.sub_pos_of_lt hmore) hsteady
      · rw [heq]
        exact ⟨_,_,_,w',rfl,.dry (by rw [hnone,List.append_nil]) hmore,hsteady',
          by rw [hstream],id⟩
      · rw [heq]
        simp only
        by_cases hhead : (x.rx ++ b :: bs).length = kEncapsulationHeaderSize
        · rw [if_pos hhead]
          by_cases hcap : cap < (decodeHeader (x.rx ++ b :: bs)).length.toNat
          · rw [if_pos hcap]
            exact ⟨_,_,_,w',rfl,.flooded hhead hcap,hsteady',
              by rw [hstream,List.append_assoc],id⟩
          · rw [if_neg hcap]
            have hshort : x.rx.length < kEncapsulationHeaderSize := by
              rw [List.length_append,List.length_cons] at hhead
              omega
            rw [if_pos hshort] at hfuel
            obtain ⟨st,y,t'',w'',hrun,hfetched,hsteady'',hrest,hcapped⟩ :=
              ih (by simp only [hhead,Nat.lt_irrefl,if_false]; omega) (paced_header hhead) hsteady'
            refine ⟨st,y,t'',w'',hrun,hfetched.step rfl hread hstream,hsteady'',?_,fun _ => ?_⟩
            · rw [← hrest,hstream,List.append_assoc]
            · exact hcapped (Nat.add_le_add_left (Nat.not_lt.mp hcap) _)
        · rw [if_neg hhead]
          have hfewer := Nat.lt_of_lt_of_le (hp.push_less (List.cons_ne_nil b bs) hle hhead)
            (Nat.lt_succ_iff.mp hfuel)
          obtain ⟨st,y,t'',w'',hrun,hfetched,hsteady'',hrest,hcapped⟩ :=
            ih (x := {x with rx := x.rx ++ b :: bs}) hfewer (hp.push hle hhead) hsteady'
          refine ⟨st,y,t'',w'',hrun,hfetched.step rfl hread hstream,hsteady'',?_,hcapped⟩
          rw [← hrest,hstream,List.append_assoc]
      · rw [heq]
        exact ⟨_,_,_,w',rfl,.closed (by rw [hend,List.append_nil]) hmore,hsteady',
          by rw [hend,hend'],id⟩
    · rw [if_neg hmore]
      exact ⟨_,_,_,w,rfl,.full (by omega) (List.prefix_append _ _),hsteady,rfl,id⟩

theorem readResponse_steady (cap : Nat) {x : Transfer} {t : TcpConnection} {w : World}
    (hp : x.Paced) (hlive : t.live) (hsteady : w.script.steady = true) :
    ∃ st y t' w', x.readResponse cap t w = (st,y,t',w') ∧ Fetched cap x t w st y t' ∧
      w'.script.steady = true ∧
      x.rx ++ arriving w.script.recvs = y.rx ++ arriving w'.script.recvs ∧
      (x.rxExpected ≤ kEncapsulationHeaderSize + cap →
        y.rxExpected ≤ kEncapsulationHeaderSize + cap) :=
  readLoop_steady (by split_ifs <;> omega) hp hlive hsteady

end Transfer

end ControlLogix
