import ControlLogix.Eip.Exchange

namespace ControlLogix

def Errno.waits (e : Errno) : Bool := e = .ewouldblock ∨ e = .eagain

def carries : Except Errno Nat → Bool
  | .ok _ => true
  | .error e => e.waits

def delivers : Except Errno (List UInt8) → Bool
  | .ok bs => bs ≠ []
  | .error e => e.waits

-- The socket does not fail during the call, and the peer does not close it.
def Script.calm (s : Script) : Bool := s.sends.all carries && s.recvs.all delivers

-- The bytes that can be read before the socket would block.
def readable : List (Except Errno (List UInt8)) → List UInt8
  | .ok bs :: rest => bs ++ readable rest
  | _ => []

def arriving : List (Except Errno (List UInt8)) → List UInt8
  | [] => []
  | .ok bs :: rest => bs ++ arriving rest
  | .error _ :: rest => arriving rest

theorem readable_split (bs : List UInt8) (rest : List (Except Errno (List UInt8))) (n : Nat) :
    readable (.ok bs :: rest) = bs.take n ++
      readable (if bs.drop n = [] then rest else .ok (bs.drop n) :: rest) := by
  conv_lhs => rw [readable,← List.take_append_drop n bs]
  split_ifs with hall
  · rw [hall,List.append_nil]
  · rw [readable,List.append_assoc]

theorem arriving_split (bs : List UInt8) (rest : List (Except Errno (List UInt8))) (n : Nat) :
    arriving (.ok bs :: rest) = bs.take n ++
      arriving (if bs.drop n = [] then rest else .ok (bs.drop n) :: rest) := by
  conv_lhs => rw [arriving,← List.take_append_drop n bs]
  split_ifs with hall
  · rw [hall,List.append_nil]
  · rw [arriving,List.append_assoc]

def Spent {A : Type*} (answers left : List A) : Prop := left = [] ∨ left.length < answers.length

theorem spent_tail {A : Type*} (answers : List A) : Spent answers answers.tail := by
  cases answers with
  | nil => exact Or.inl rfl
  | cons a rest => exact Or.inr (Nat.lt_succ_self _)

theorem Spent.after {A : Type*} {answers left less : List A} (h : Spent left less)
    (hle : left.length ≤ answers.length) : Spent answers less := by
  rcases h with h | h
  · exact Or.inl h
  · exact Or.inr (Nat.lt_of_lt_of_le h hle)

theorem Script.calm_iff {s : Script} :
    s.calm = true ↔ s.sends.all carries = true ∧ s.recvs.all delivers = true := by
  simp only [calm,Bool.and_eq_true]

namespace World

variable {w : World}

theorem lwipSend_calm (hcalm : w.script.calm = true) (fd : Int) (buffer : List UInt8)
    (off length : Nat) :
    ∃ answer w', w.lwipSend fd buffer off length = (answer,w') ∧ w'.script.calm = true ∧
      w'.script.recvs = w.script.recvs ∧ w'.script.sends = w.script.sends.tail ∧
        ((∃ e : Errno, e.waits = true ∧ answer = .error e) ∨
          ∃ k ≤ length, answer = .ok k ∧ w.script.sends ≠ []) := by
  obtain ⟨hsends,hrecvs⟩ := Script.calm_iff.mp hcalm
  refine ⟨_,_,rfl,?_⟩
  simp only
  rcases hscript : w.script.sends with _ | ⟨answer,rest⟩
  · exact ⟨Script.calm_iff.mpr ⟨rfl,hrecvs⟩,rfl,rfl,Or.inl ⟨.ewouldblock,rfl,rfl⟩⟩
  rw [hscript,List.all_cons,Bool.and_eq_true] at hsends
  have hrest : Script.calm {w.script with sends := rest} = true :=
    Script.calm_iff.mpr ⟨hsends.2,hrecvs⟩
  cases answer with
  | error e => exact ⟨hrest,rfl,rfl,Or.inl ⟨e,hsends.1,rfl⟩⟩
  | ok k =>
    refine ⟨?_,?_,?_,Or.inr ⟨min k length,Nat.min_le_right _ _,rfl,by simp⟩⟩
    · simp only [List.headD_cons]
      split <;> exact hrest
    · simp only [List.headD_cons]
      split <;> rfl
    · simp only [List.headD_cons]
      split <;> rfl

theorem lwipRecv_calm (hcalm : w.script.calm = true) (fd : Int) {length : Nat}
    (hlen : 0 < length) :
    ∃ answer w', w.lwipRecv fd length = (answer,w') ∧ w'.script.calm = true ∧
      w'.script.sends = w.script.sends ∧
      ((∃ e : Errno, e.waits = true ∧ answer = .error e ∧ readable w.script.recvs = [] ∧
        arriving w.script.recvs = arriving w'.script.recvs ∧
          Spent w.script.recvs w'.script.recvs) ∨
        ∃ got, got ≠ [] ∧ got.length ≤ length ∧ answer = .ok got ∧
          readable w.script.recvs = got ++ readable w'.script.recvs ∧
          arriving w.script.recvs = got ++ arriving w'.script.recvs ∧
          w'.script.recvs.length ≤ w.script.recvs.length) := by
  obtain ⟨hsends,hrecvs⟩ := Script.calm_iff.mp hcalm
  refine ⟨_,_,rfl,?_⟩
  simp only
  rcases hscript : w.script.recvs with _ | ⟨answer,rest⟩
  · exact ⟨Script.calm_iff.mpr ⟨hsends,rfl⟩,rfl,
      Or.inl ⟨.ewouldblock,rfl,rfl,rfl,rfl,Or.inl rfl⟩⟩
  rw [hscript,List.all_cons,Bool.and_eq_true] at hrecvs
  cases answer with
  | error e =>
    exact ⟨Script.calm_iff.mpr ⟨hsends,hrecvs.2⟩,rfl,
      Or.inl ⟨e,hrecvs.1,rfl,rfl,rfl,Or.inr (Nat.lt_succ_self _)⟩⟩
  | ok bs =>
    have hne : bs ≠ [] := by simpa [delivers] using hrecvs.1
    refine ⟨Script.calm_iff.mpr ⟨hsends,?_⟩,rfl,Or.inr ⟨bs.take length,?_,
      List.length_take_le _ _,rfl,readable_split bs rest length,arriving_split bs rest length,?_⟩⟩
    · simp only [List.headD_cons,List.tail_cons,note]
      split_ifs with hall
      · exact hrecvs.2
      · rw [List.all_cons,hrecvs.2,Bool.and_true]
        simpa [delivers] using hall
    · simp only [ne_eq,List.take_eq_nil_iff,not_or]
      exact ⟨by omega,hne⟩
    · simp only [List.headD_cons,List.tail_cons,note]
      split_ifs
      · exact Nat.le_succ _
      · exact Nat.le_refl _

end World

namespace TcpConnection

variable {t : TcpConnection} {w : World}

theorem write_calm (hlive : t.live) {length : Nat} (hlen : 0 < length)
    (hcalm : w.script.calm = true) (buffer : List UInt8) (off : Nat) :
    ∃ k w', t.write buffer off length w = (.ok k,t,w') ∧ k ≤ length ∧ w'.script.calm = true ∧
      w'.script.recvs = w.script.recvs ∧ w'.script.sends = w.script.sends.tail ∧
        (0 < k → w.script.sends ≠ []) := by
  simp only [write]
  rw [if_neg (by simp [hlive.1,hlive.2]),if_neg (by omega)]
  obtain ⟨answer,w',heq,hcalm',hrecvs,hsends,⟨e,hwait,rfl⟩ | ⟨k,hle,rfl,hsome⟩⟩ :=
    World.lwipSend_calm hcalm t.fd buffer off length
  · rw [heq]
    exact ⟨0,w',if_pos (by simpa [Errno.waits] using hwait),Nat.zero_le _,hcalm',hrecvs,hsends,
      fun h => absurd h (Nat.lt_irrefl 0)⟩
  · rw [heq]
    exact ⟨k,w',rfl,hle,hcalm',hrecvs,hsends,fun _ => hsome⟩

theorem read_calm (hlive : t.live) {length : Nat} (hlen : 0 < length)
    (hcalm : w.script.calm = true) :
    ∃ got w', t.read length w = (.ok got,t,w') ∧ got.length ≤ length ∧ w'.script.calm = true ∧
      w'.script.sends = w.script.sends ∧ arriving w.script.recvs = got ++ arriving w'.script.recvs ∧
      (got = [] ∧ readable w.script.recvs = [] ∧ Spent w.script.recvs w'.script.recvs ∨
        got ≠ [] ∧ readable w.script.recvs = got ++ readable w'.script.recvs ∧
          w'.script.recvs.length ≤ w.script.recvs.length) := by
  simp only [read]
  rw [if_neg (by simp [hlive.1,hlive.2]),if_neg (by omega)]
  obtain ⟨answer,w',heq,hcalm',hsends,⟨e,hwait,rfl,hnone,hstream,hspent⟩ |
    ⟨got,hne,hle,rfl,hread,hstream,hless⟩⟩ := World.lwipRecv_calm hcalm t.fd hlen
  · rw [heq]
    exact ⟨[],w',if_pos (by simpa [Errno.waits] using hwait),Nat.zero_le _,hcalm',hsends,hstream,
      Or.inl ⟨rfl,hnone,hspent⟩⟩
  · obtain ⟨b,got,rfl⟩ := List.exists_cons_of_ne_nil hne
    rw [heq]
    exact ⟨b :: got,w',rfl,hle,hcalm',hsends,hstream,Or.inr ⟨hne,hread,hless⟩⟩

end TcpConnection

namespace Transfer

theorem writeLoop_calm {fuel : Nat} {x : Transfer} {t : TcpConnection} {w : World}
    (hfuel : x.tx.length - x.txSent < fuel) (hlive : t.live) (hcalm : w.script.calm = true) :
    ∃ st k w', writeLoop fuel x t w = (st,{x with txSent := k},t,w') ∧ w'.script.calm = true ∧
      w'.script.recvs = w.script.recvs ∧ w'.script.sends.length ≤ w.script.sends.length ∧
        (st = .pending ∧ k < x.tx.length ∧ Spent w.script.sends w'.script.sends ∨
          st = .ok ∧ x.tx.length ≤ k ∧ (x.txSent < x.tx.length → w.script.sends ≠ [])) := by
  induction fuel generalizing x w with
  | zero => omega
  | succ fuel ih =>
    rw [writeLoop]
    by_cases hmore : x.txSent < x.tx.length
    · rw [if_pos hmore]
      obtain ⟨k,w',heq,hle,hcalm',hrecvs,hsends,hsome⟩ :=
        TcpConnection.write_calm hlive (Nat.sub_pos_of_lt hmore) hcalm x.tx x.txSent
      have hless : w'.script.sends.length ≤ w.script.sends.length := by simp [hsends]
      rw [heq]
      cases k with
      | zero =>
        exact ⟨.pending,x.txSent,w',rfl,hcalm',hrecvs,hless,
          Or.inl ⟨rfl,hmore,hsends ▸ spent_tail _⟩⟩
      | succ k =>
        obtain ⟨st,j,w'',hrun,hcalm'',hrecvs',hless',hend⟩ :=
          ih (x := {x with txSent := x.txSent + (k + 1)}) (by simp only; omega) hcalm'
        refine ⟨st,j,w'',hrun,hcalm'',hrecvs'.trans hrecvs,hless'.trans hless,?_⟩
        rcases hend with ⟨hst,hj,hspent⟩ | ⟨hst,hall,_⟩
        · exact Or.inl ⟨hst,hj,hspent.after hless⟩
        · exact Or.inr ⟨hst,hall,fun _ => hsome (Nat.succ_pos k)⟩
    · rw [if_neg hmore]
      exact ⟨.ok,x.txSent,w,rfl,hcalm,rfl,Nat.le_refl _,
        Or.inr ⟨rfl,by omega,fun h => absurd h hmore⟩⟩

inductive Drained (cap : Nat) (x : Transfer) (w : World) : Status → Transfer → Prop
  | dry {x' : Transfer} : x'.rx = x.rx ++ readable w.script.recvs →
      x'.rx.length < x'.rxExpected → Drained cap x w .pending x'
  | full {x' : Transfer} : x'.rxExpected ≤ x'.rx.length → Drained cap x w .ok x'
  | flooded {x' : Transfer} : x'.rx.length = kEncapsulationHeaderSize →
      x'.rxExpected = kEncapsulationHeaderSize → cap < (decodeHeader x'.rx).length.toNat →
      Drained cap x w .error x'

theorem Drained.step {cap : Nat} {x y x' : Transfer} {w w' : World} {st : Status}
    {got : List UInt8} (h : Drained cap y w' st x') (hy : y.rx = x.rx ++ got)
    (hread : readable w.script.recvs = got ++ readable w'.script.recvs) : Drained cap x w st x' := by
  cases h with
  | dry hrx hmore => exact .dry (by rw [hrx,hy,hread,List.append_assoc]) hmore
  | full hall => exact .full hall
  | flooded hlen hexp hcap => exact .flooded hlen hexp hcap

structure Absorbed (cap : Nat) (x : Transfer) (w : World) (st : Status) (x' : Transfer)
    (w' : World) : Prop where
  calm : w'.script.calm = true
  sends : w'.script.sends = w.script.sends
  stream : x.rx ++ arriving w.script.recvs = x'.rx ++ arriving w'.script.recvs
  less : w'.script.recvs.length ≤ w.script.recvs.length
  spent : st = .pending → Spent w.script.recvs w'.script.recvs
  capped : x.rxExpected ≤ kEncapsulationHeaderSize + cap →
    x'.rxExpected ≤ kEncapsulationHeaderSize + cap

theorem Absorbed.step {cap : Nat} {x y x' : Transfer} {w v w' : World} {st : Status}
    {got : List UInt8} (h : Absorbed cap y v st x' w') (hy : y.rx = x.rx ++ got)
    (hstream : arriving w.script.recvs = got ++ arriving v.script.recvs)
    (hsends : v.script.sends = w.script.sends)
    (hless : v.script.recvs.length ≤ w.script.recvs.length)
    (hcapped : x.rxExpected ≤ kEncapsulationHeaderSize + cap →
      y.rxExpected ≤ kEncapsulationHeaderSize + cap) : Absorbed cap x w st x' w' := by
  refine ⟨h.calm,h.sends.trans hsends,?_,h.less.trans hless,fun hst => (h.spent hst).after hless,
    fun hx => h.capped (hcapped hx)⟩
  rw [← h.stream,hstream,hy,List.append_assoc]

theorem Paced.push_less {cap : Nat} {x : Transfer} (hp : x.Paced) {got : List UInt8}
    (hne : got ≠ []) (hle : got.length ≤ x.rxExpected - x.rx.length)
    (hhead : (x.rx ++ got).length ≠ kEncapsulationHeaderSize) :
    x.rxExpected - (x.rx ++ got).length +
        (if (x.rx ++ got).length < kEncapsulationHeaderSize then cap else 0) <
      x.rxExpected - x.rx.length +
        (if x.rx.length < kEncapsulationHeaderSize then cap else 0) := by
  have hsome := List.length_pos_iff.mpr hne
  have hlen : (x.rx ++ got).length = x.rx.length + got.length := List.length_append
  rcases Nat.lt_or_ge x.rx.length kEncapsulationHeaderSize with hshort | hlong
  · have hexp := hp.2.1 hshort
    rw [if_pos hshort,if_pos (by omega)]
    omega
  · rw [if_neg (by omega),if_neg (by omega)]
    omega

theorem readLoop_calm {cap fuel : Nat} {x : Transfer} {t : TcpConnection} {w : World}
    (hfuel : x.rxExpected - x.rx.length + (if x.rx.length < kEncapsulationHeaderSize then cap
      else 0) < fuel) (hp : x.Paced) (hlive : t.live) (hcalm : w.script.calm = true) :
    ∃ st x' w', readLoop cap fuel x t w = (st,x',t,w') ∧ Drained cap x w st x' ∧
      Absorbed cap x w st x' w' := by
  induction fuel generalizing x w with
  | zero => omega
  | succ fuel ih =>
    rw [readLoop]
    by_cases hmore : x.rx.length < x.rxExpected
    · rw [if_pos hmore]
      obtain ⟨got,w',heq,hle,hcalm',hsends,hstream,⟨rfl,hnone,hspent⟩ | ⟨hne,hread,hless⟩⟩ :=
        TcpConnection.read_calm hlive (Nat.sub_pos_of_lt hmore) hcalm
      · rw [heq]
        have hfewer : w'.script.recvs.length ≤ w.script.recvs.length := by
          rcases hspent with hs | hs
          · simp [hs]
          · exact hs.le
        exact ⟨.pending,x,w',rfl,.dry (by rw [hnone,List.append_nil]) hmore,hcalm',hsends,
          by rw [hstream,List.nil_append],hfewer,fun _ => hspent,id⟩
      · obtain ⟨b,got,rfl⟩ := List.exists_cons_of_ne_nil hne
        rw [heq]
        have hlen : (x.rx ++ b :: got).length = x.rx.length + (got.length + 1) := by simp
        have hfit : got.length + 1 ≤ x.rxExpected - x.rx.length := hle
        simp only
        by_cases hhead : (x.rx ++ b :: got).length = kEncapsulationHeaderSize
        · rw [if_pos hhead]
          have hshort : x.rx.length < kEncapsulationHeaderSize := by omega
          by_cases hcap : cap < (decodeHeader (x.rx ++ b :: got)).length.toNat
          · rw [if_pos hcap]
            exact ⟨.error,_,w',rfl,.flooded hhead (hp.2.1 hshort) hcap,hcalm',hsends,
              by rw [hstream,List.append_assoc],hless,fun hst => (by cases hst),id⟩
          · rw [if_neg hcap]
            rw [if_pos hshort] at hfuel
            obtain ⟨st,x',w'',hrun,hdrained,habsorbed⟩ :=
              ih (by simp only [hhead,Nat.lt_irrefl,if_false]; omega) (paced_header hhead) hcalm'
            exact ⟨st,x',w'',hrun,hdrained.step rfl hread,habsorbed.step rfl hstream hsends hless
              fun _ => Nat.add_le_add_left (Nat.not_lt.mp hcap) _⟩
        · rw [if_neg hhead]
          have hfewer := Nat.lt_of_lt_of_le (hp.push_less hne hle hhead) (Nat.lt_succ_iff.mp hfuel)
          obtain ⟨st,x',w'',hrun,hdrained,habsorbed⟩ :=
            ih (x := {x with rx := x.rx ++ b :: got}) hfewer (hp.push hle hhead) hcalm'
          exact ⟨st,x',w'',hrun,hdrained.step rfl hread,habsorbed.step rfl hstream hsends hless
            id⟩
    · rw [if_neg hmore]
      exact ⟨.ok,x,w,rfl,.full (by omega),hcalm,rfl,rfl,Nat.le_refl _,
        fun hst => (by cases hst),id⟩

theorem readResponse_calm (cap : Nat) {x : Transfer} {t : TcpConnection} {w : World}
    (hp : x.Paced) (hlive : t.live) (hcalm : w.script.calm = true) :
    ∃ st x' w', x.readResponse cap t w = (st,x',t,w') ∧ Drained cap x w st x' ∧
      Absorbed cap x w st x' w' :=
  readLoop_calm (by split_ifs <;> omega) hp hlive hcalm

end Transfer

end ControlLogix
