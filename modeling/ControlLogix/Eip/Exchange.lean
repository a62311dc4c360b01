import ControlLogix.Eip.Transfer

namespace ControlLogix

-- The log once pieces of tx have been written one after the other, from a to b.
inductive Sent (fd : Int) (tx : List UInt8) (a : Nat) (log : List Event) : Nat → List Event → Prop
  | refl : Sent fd tx a log a log
  | step {b n : Nat} {log' : List Event} : Sent fd tx a log b log' → 0 < n → b + n ≤ tx.length →
      Sent fd tx a log (b + n) (.send fd ⟨tx,b,n⟩ :: log')

-- The log once bytes have been read one chunk after the other onto rx.
inductive Got (fd : Int) (rx : List UInt8) (log : List Event) : List UInt8 → List Event → Prop
  | refl : Got fd rx log rx log
  | step {rx' log'} (got : List UInt8) : Got fd rx log rx' log' →
      Got fd rx log (rx' ++ got) (.recv fd got :: log')

theorem Sent.trans {fd : Int} {tx : List UInt8} {a b c : Nat} {l m k : List Event}
    (hab : Sent fd tx a l b m) (hbc : Sent fd tx b m c k) : Sent fd tx a l c k := by
  induction hbc with
  | refl => exact hab
  | step _ hn hle ih => exact ih.step hn hle

theorem Sent.le {fd : Int} {tx : List UInt8} {a b : Nat} {l m : List Event}
    (h : Sent fd tx a l b m) : a ≤ b ∧ (b ≤ tx.length ∨ b = a) := by
  induction h with
  | refl => exact ⟨Nat.le_refl _,Or.inr rfl⟩
  | step _ hn hle ih => exact ⟨by omega,Or.inl hle⟩

theorem Sent.board {fd : Int} {tx : List UInt8} {a b : Nat} {l m : List Event}
    (h : Sent fd tx a l b m) : Trace.Grows (fun e => e.board = true) l m := by
  induction h with
  | refl => exact Trace.Grows.refl _ _
  | step _ _ _ ih => exact ih.trans (Trace.Grows.cons (K := fun e : Event => e.board = true) rfl _)

theorem Got.trans {fd : Int} {a b c : List UInt8} {l m k : List Event} (hab : Got fd a l b m)
    (hbc : Got fd b m c k) : Got fd a l c k := by
  induction hbc with
  | refl => exact hab
  | step got _ ih => exact ih.step got

theorem Got.board {fd : Int} {a b : List UInt8} {l m : List Event} (h : Got fd a l b m) :
    Trace.Grows (fun e => e.board = true) l m := by
  induction h with
  | refl => exact Trace.Grows.refl _ _
  | step _ _ ih => exact ih.trans (Trace.Grows.cons (K := fun e : Event => e.board = true) rfl _)

namespace TcpConnection

def Kept (t t' : TcpConnection) : Prop := t' = t ∨ t' = {t with state := .closed}

theorem Kept.refl (t : TcpConnection) : t.Kept t := Or.inl rfl

theorem Kept.trans {a b c : TcpConnection} (hab : a.Kept b) (hbc : b.Kept c) : a.Kept c := by
  rcases hab with rfl | rfl
  · exact hbc
  · rcases hbc with rfl | rfl
    · exact Or.inr rfl
    · exact Or.inr rfl

theorem Kept.fd_eq {t t' : TcpConnection} (h : t.Kept t') : t'.fd = t.fd := by
  rcases h with rfl | rfl <;> rfl

theorem Kept.live {t t' : TcpConnection} (h : t.Kept t') (hlive : t'.live) : t.live := by
  rcases h with rfl | rfl
  · exact hlive
  · exact absurd hlive.2 (by simp)

end TcpConnection

namespace Transfer

-- The bytes read never pass the length the header announces.
def Paced (x : Transfer) : Prop :=
  x.rx.length ≤ x.rxExpected ∧ (x.rx.length < kEncapsulationHeaderSize →
    x.rxExpected = kEncapsulationHeaderSize) ∧
    (kEncapsulationHeaderSize ≤ x.rx.length →
      x.rxExpected = kEncapsulationHeaderSize + (decodeHeader x.rx).length.toNat)

theorem load_paced (frame : List UInt8) : (load frame).Paced :=
  ⟨Nat.zero_le _,fun _ => rfl,fun h => absurd h (by simp [load,kEncapsulationHeaderSize])⟩

structure Wrote (x : Transfer) (t : TcpConnection) (w : World) (st : Status) (x' : Transfer)
    (t' : TcpConnection) (w' : World) : Prop where
  cursor : x' = {x with txSent := x'.txSent}
  sent : Sent t.fd x.tx x.txSent w.log x'.txSent w'.log
  kept : t.Kept t'
  talks : t.live ∨ x' = x ∧ t' = t ∧ w'.log = w.log
  status : st = .pending ∨ st = .ok ∧ x.tx.length ≤ x'.txSent ∨ st = .closed ∨ st = .error

theorem writeLoop_wrote (fuel : Nat) (x : Transfer) (t : TcpConnection) (w : World) :
    ∃ st x' t' w', writeLoop fuel x t w = (st,x',t',w') ∧ Wrote x t w st x' t' w' := by
  induction fuel generalizing x t w with
  | zero =>
    exact ⟨_,_,_,_,rfl,rfl,Sent.refl,.refl t,Or.inr ⟨rfl,rfl,rfl⟩,Or.inl rfl⟩
  | succ fuel ih =>
    rw [writeLoop]
    by_cases hmore : x.txSent < x.tx.length
    · rw [if_pos hmore]
      rcases t.write_cases x.tx x.txSent (Nat.sub_pos_of_lt hmore) w with
        ⟨w',heq,hlog⟩ | ⟨k,w',hpos,hle,hlive,heq,hlog⟩ | ⟨st,t',w',hst,ht,heq,hlog⟩
      · rw [heq]
        exact ⟨_,_,_,_,rfl,rfl,by rw [hlog]; exact Sent.refl,.refl t,Or.inr ⟨rfl,rfl,hlog⟩,Or.inl rfl⟩
      · obtain ⟨m,rfl⟩ := Nat.exists_eq_add_of_lt hpos
        rw [heq]
        obtain ⟨st,x',t',w2,hrun,hw⟩ := ih {x with txSent := x.txSent + (0 + m + 1)} t w'
        have hfirst : Sent t.fd x.tx x.txSent w.log (x.txSent + (0 + m + 1)) w'.log := by
          rw [hlog]
          exact Sent.refl.step hpos (by omega)
        exact ⟨st,x',t',w2,hrun,hw.cursor,hfirst.trans hw.sent,hw.kept,Or.inl hlive,hw.status⟩
      · rw [heq]
        rcases ht with rfl | ⟨hlive,rfl⟩
        · exact ⟨_,_,_,_,rfl,rfl,by rw [hlog]; exact Sent.refl,.refl _,Or.inr ⟨rfl,rfl,hlog⟩,
            Or.inr (Or.inr hst)⟩
        · exact ⟨_,_,_,_,rfl,rfl,by rw [hlog]; exact Sent.refl,Or.inr rfl,Or.inl hlive,
            Or.inr (Or.inr hst)⟩
    · rw [if_neg hmore]
      exact ⟨_,_,_,_,rfl,rfl,Sent.refl,.refl t,Or.inr ⟨rfl,rfl,rfl⟩,Or.inr (Or.inl ⟨rfl,by omega⟩)⟩

structure Read (cap : Nat) (x : Transfer) (t : TcpConnection) (w : World) (st : Status)
    (x' : Transfer) (t' : TcpConnection) (w' : World) : Prop where
  tx_eq : x'.tx = x.tx
  sent_eq : x'.txSent = x.txSent
  got : Got t.fd x.rx w.log x'.rx w'.log
  kept : t.Kept t'
  talks : t.live ∨ x' = x ∧ t' = t ∧ w'.log = w.log
  paced : x.Paced → st ≠ .error → x'.Paced
  status : st = .pending ∨ st = .ok ∧ x'.rxExpected ≤ x'.rx.length ∨ st = .closed ∨ st = .error

theorem Paced.push {x : Transfer} (h : x.Paced) {got : List UInt8}
    (hle : got.length ≤ x.rxExpected - x.rx.length)
    (hne : (x.rx ++ got).length ≠ kEncapsulationHeaderSize) :
    Paced {x with rx := x.rx ++ got} := by
  obtain ⟨hfit,hshort,hlong⟩ := h
  simp only [List.length_append] at hne
  by_cases hhead : x.rx.length < kEncapsulationHeaderSize
  · have hexp := hshort hhead
    refine ⟨by simp; omega,fun _ => hexp,fun hge => ?_⟩
    simp only [List.length_append] at hge
    omega
  · have hexp := hlong (by omega)
    refine ⟨by simp; omega,fun hlt => ?_,fun _ => ?_⟩
    · simp only [List.length_append] at hlt
      omega
    · rw [hexp,decodeHeader_append _ _ (by simpa [kEncapsulationHeaderSize] using hhead)]

theorem paced_header {x : Transfer} {rx : List UInt8}
    (hlen : rx.length = kEncapsulationHeaderSize) :
    Paced {x with rx := rx,
                  rxExpected := kEncapsulationHeaderSize + (decodeHeader rx).length.toNat} :=
  ⟨by simp [hlen],fun h => absurd hlen (by simp only at h; omega),fun _ => rfl⟩

theorem readLoop_read (cap fuel : Nat) (x : Transfer) (t : TcpConnection) (w : World) :
    ∃ st x' t' w', readLoop cap fuel x t w = (st,x',t',w') ∧ Read cap x t w st x' t' w' := by
  induction fuel generalizing x t w with
  | zero =>
    exact ⟨_,_,_,_,rfl,rfl,rfl,Got.refl,.refl t,Or.inr ⟨rfl,rfl,rfl⟩,fun h _ => h,Or.inl rfl⟩
  | succ fuel ih =>
    rw [readLoop]
    by_cases hmore : x.rx.length < x.rxExpected
    · rw [if_pos hmore]
      rcases t.read_cases (Nat.sub_pos_of_lt hmore) w with ⟨w',heq,hlog⟩ |
        ⟨got,w',hne,hle,hlive,heq,hlog⟩ | ⟨w',hlive,heq,hlog⟩ | ⟨st,w',hst,heq,hlog⟩
      · rw [heq]
        exact ⟨_,_,_,_,rfl,rfl,rfl,by rw [hlog]; exact Got.refl,.refl t,Or.inr ⟨rfl,rfl,hlog⟩,
          fun h _ => h,Or.inl rfl⟩
      · obtain ⟨b,got,rfl⟩ := List.exists_cons_of_ne_nil hne
        rw [heq]
        have hfirst : Got t.fd x.rx w.log (x.rx ++ b :: got) w'.log := by
          rw [hlog]
          exact Got.refl.step _
        simp only
        by_cases hhead : (x.rx ++ b :: got).length = kEncapsulationHeaderSize
        · rw [if_pos hhead]
          by_cases hcap : cap < (decodeHeader (x.rx ++ b :: got)).length.toNat
          · rw [if_pos hcap]
            exact ⟨_,_,_,_,rfl,rfl,rfl,hfirst,.refl t,Or.inl hlive,fun _ h => absurd rfl h,
              Or.inr (Or.inr (Or.inr rfl))⟩
          · rw [if_neg hcap]
            obtain ⟨st,x',t',w2,hrun,hr⟩ := ih _ t w'
            exact ⟨st,x',t',w2,hrun,hr.tx_eq,hr.sent_eq,hfirst.trans hr.got,hr.kept,Or.inl hlive,
              fun _ => hr.paced (paced_header hhead),hr.status⟩
        · rw [if_neg hhead]
          obtain ⟨st,x',t',w2,hrun,hr⟩ := ih {x with rx := x.rx ++ b :: got} t w'
          exact ⟨st,x',t',w2,hrun,hr.tx_eq,hr.sent_eq,hfirst.trans hr.got,hr.kept,Or.inl hlive,
            fun h => hr.paced (h.push hle hhead),hr.status⟩
      · rw [heq]
        refine ⟨_,_,_,_,rfl,rfl,rfl,?_,Or.inr rfl,Or.inl hlive,fun h _ => h,
          Or.inr (Or.inr (Or.inl rfl))⟩
        have hnone : Got t.fd x.rx w.log x.rx w.log := Got.refl
        rw [hlog]
        simpa using hnone.step []
      · rw [heq]
        exact ⟨_,_,_,_,rfl,rfl,rfl,by rw [hlog]; exact Got.refl,.refl t,Or.inr ⟨rfl,rfl,hlog⟩,
          fun h _ => h,Or.inr (Or.inr hst)⟩
    · rw [if_neg hmore]
      exact ⟨_,_,_,_,rfl,rfl,rfl,Got.refl,.refl t,Or.inr ⟨rfl,rfl,rfl⟩,fun h _ => h,
        Or.inr (Or.inl ⟨rfl,by omega⟩)⟩

theorem writePending_wrote (x : Transfer) (t : TcpConnection) (w : World) :
    ∃ st x' t' w', x.writePending t w = (st,x',t',w') ∧ Wrote x t w st x' t' w' :=
  writeLoop_wrote _ x t w

theorem readResponse_read (cap : Nat) (x : Transfer) (t : TcpConnection) (w : World) :
    ∃ st x' t' w', x.readResponse cap t w = (st,x',t',w') ∧ Read cap x t w st x' t' w' :=
  readLoop_read cap _ x t w

theorem Wrote.of_write {x x' : Transfer} {t t' : TcpConnection} {w w' : World} {st : Status}
    (h : x.writePending t w = (st,x',t',w')) : Wrote x t w st x' t' w' := by
  obtain ⟨_,_,_,_,heq,hw⟩ := x.writePending_wrote t w
  rw [h] at heq
  cases heq
  exact hw

theorem Read.of_read {cap : Nat} {x x' : Transfer} {t t' : TcpConnection} {w w' : World}
    {st : Status} (h : x.readResponse cap t w = (st,x',t',w')) : Read cap x t w st x' t' w' := by
  obtain ⟨_,_,_,_,heq,hr⟩ := readResponse_read cap x t w
  rw [h] at heq
  cases heq
  exact hr

structure Moved (x : Transfer) (t : TcpConnection) (w : World) (x' : Transfer)
    (t' : TcpConnection) (w' : World) : Prop where
  tx_eq : x'.tx = x.tx
  kept : t.Kept t'
  talks : t.live ∨ x' = x ∧ t' = t ∧ w'.log = w.log
  traffic : ∃ mid, Sent t.fd x.tx x.txSent w.log x'.txSent mid ∧ Got t.fd x.rx mid x'.rx w'.log ∧
    (x'.rx = x.rx ∧ mid = w'.log ∨ x.tx.length ≤ x'.txSent)

variable {x x' x'' : Transfer} {t t' t'' : TcpConnection} {w w' w'' : World} {st : Status}
  {cap : Nat}

theorem Moved.refl (x : Transfer) (t : TcpConnection) (w : World) : Moved x t w x t w :=
  ⟨rfl,.refl t,Or.inr ⟨rfl,rfl,rfl⟩,w.log,Sent.refl,Got.refl,Or.inl ⟨rfl,rfl⟩⟩

theorem Wrote.moved (h : Wrote x t w st x' t' w') : Moved x t w x' t' w' := by
  have hrx : x'.rx = x.rx := by rw [h.cursor]
  have htx : x'.tx = x.tx := by rw [h.cursor]
  exact ⟨htx,h.kept,h.talks,w'.log,h.sent,by rw [hrx]; exact Got.refl,Or.inl ⟨hrx,rfl⟩⟩

theorem Wrote.all_sent (h : Wrote x t w .ok x' t' w') (hr : Read cap x' t' w' st x'' t'' w'') :
    x.tx.length ≤ x''.txSent := by
  rw [hr.sent_eq]
  simpa using h.status

theorem Wrote.read (h : Wrote x t w .ok x' t' w') (hr : Read cap x' t' w' st x'' t'' w'') :
    Moved x t w x'' t'' w'' := by
  have hrx : x'.rx = x.rx := by rw [h.cursor]
  have htx : x'.tx = x.tx := by rw [h.cursor]
  refine ⟨hr.tx_eq.trans htx,h.kept.trans hr.kept,?_,w'.log,?_,?_,Or.inr ?_⟩
  · rcases hr.talks with hlive | ⟨hx,ht,hlog⟩
    · exact Or.inl (h.kept.live hlive)
    · rcases h.talks with hlive | ⟨hx',ht',hlog'⟩
      · exact Or.inl hlive
      · exact Or.inr ⟨hx.trans hx',ht.trans ht',hlog.trans hlog'⟩
  · rw [hr.sent_eq]
    exact h.sent
  · have hgot := hr.got
    rwa [hrx,h.kept.fd_eq] at hgot
  · exact h.all_sent hr

theorem Moved.spoke (h : Moved x t w x' t' w') : World.Spoke w w' := by
  obtain ⟨mid,hsent,hgot,_⟩ := h.traffic
  exact hsent.board.trans hgot.board

theorem Moved.still (h : Moved x t w x' t' w') (hdead : ¬ t.live) :
    x' = x ∧ t' = t ∧ w'.log = w.log := h.talks.resolve_left hdead

theorem Moved.of_millis (h : Moved x t w.millis.2 x' t' w') : Moved x t w x' t' w' :=
  ⟨h.tx_eq,h.kept,h.talks,h.traffic⟩

theorem Paced.header (h : x.Paced) (hall : x.rxExpected ≤ x.rx.length) :
    kEncapsulationHeaderSize ≤ x.rx.length := by
  by_contra hshort
  have := h.2.1 (by omega)
  omega

theorem turn (cap : Nat) (x : Transfer) (t : TcpConnection) (w : World) :
    (∃ st x' t' w', x.writePending t w = (st,x',t',w') ∧ st ≠ .ok ∧
      (st = .pending ∨ st = .closed ∨ st = .error) ∧ Moved x t w x' t' w' ∧
        x' = {x with txSent := x'.txSent}) ∨
    ∃ y u v st x' t' w', x.writePending t w = (.ok,y,u,v) ∧
      y.readResponse cap u v = (st,x',t',w') ∧
        (st = .pending ∨ st = .ok ∨ st = .closed ∨ st = .error) ∧ Moved x t w x' t' w' ∧
          x.tx.length ≤ x'.txSent ∧ (x.Paced → st ≠ .error → x'.Paced) ∧
            (st = .ok → x'.rxExpected ≤ x'.rx.length) := by
  obtain ⟨st,y,u,v,hwrite,hw⟩ := x.writePending_wrote t w
  by_cases hst : st = .ok
  · subst hst
    obtain ⟨st,x',t',w',hread,hr⟩ := y.readResponse_read cap u v
    refine Or.inr ⟨y,u,v,st,x',t',w',hwrite,hread,?_,hw.read hr,?_,?_,?_⟩
    · rcases hr.status with h | ⟨h,_⟩ | h
      · exact Or.inl h
      · exact Or.inr (Or.inl h)
      · exact Or.inr (Or.inr h)
    · exact hw.all_sent hr
    · intro hp
      exact hr.paced (by rw [hw.cursor]; exact hp)
    · rintro rfl
      simpa using hr.status
  · refine Or.inl ⟨st,y,u,v,hwrite,hst,?_,hw.moved,hw.cursor⟩
    rcases hw.status with h | ⟨h,_⟩ | h
    · exact Or.inl h
    · exact absurd h hst
    · exact Or.inr h

end Transfer

end ControlLogix
