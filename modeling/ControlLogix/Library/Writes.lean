import Mathlib.Data.List.Basic

-- A byte stream written piecewise out of whole frames, the pieces kept newest first.
namespace Writes

variable {A : Type*}

structure Chunk (A : Type*) where
  frame : List A
  off : Nat
  size : Nat
  deriving DecidableEq

def Chunk.stop (c : Chunk A) : Nat := c.off + c.size

def Chunk.data (c : Chunk A) : List A := (c.frame.drop c.off).take c.size

def written : List (Chunk A) → List A
  | [] => []
  | c :: cs => written cs ++ c.data

-- The last piece, if there is one, ended the frame it was taken from.
def Settled : List (Chunk A) → Prop
  | [] => True
  | c :: _ => c.stop = c.frame.length

instance Settled.decidable : ∀ cs : List (Chunk A), Decidable (Settled cs)
  | [] => isTrue trivial
  | c :: _ => inferInstanceAs (Decidable (c.stop = c.frame.length))

-- The last piece was taken from f and ended at k.
def Reached (f : List A) (k : Nat) : List (Chunk A) → Prop
  | [] => False
  | c :: _ => c.frame = f ∧ c.stop = k

-- A piece of f that begins at k may follow.
def Aligned (f : List A) (k : Nat) (cs : List (Chunk A)) : Prop :=
  k = 0 ∧ Settled cs ∨ 0 < k ∧ Reached f k cs

instance Reached.decidable [DecidableEq A] (f : List A) (k : Nat) :
    ∀ cs : List (Chunk A), Decidable (Reached f k cs)
  | [] => isFalse id
  | c :: _ => inferInstanceAs (Decidable (c.frame = f ∧ c.stop = k))

instance Aligned.decidable [DecidableEq A] (f : List A) (k : Nat) (cs : List (Chunk A)) :
    Decidable (Aligned f k cs) := inferInstanceAs (Decidable (_ ∨ _))

def Framed : List (Chunk A) → Prop
  | [] => True
  | c :: cs => (0 < c.size ∧ c.stop ≤ c.frame.length ∧ Aligned c.frame c.off cs) ∧ Framed cs

instance Framed.decidable [DecidableEq A] : ∀ cs : List (Chunk A), Decidable (Framed cs)
  | [] => isTrue trivial
  | _ :: cs => @instDecidableAnd _ _ _ (Framed.decidable cs)

@[simp] theorem written_cons (c : Chunk A) (cs : List (Chunk A)) :
    written (c :: cs) = written cs ++ c.data := rfl

def frames : List (Chunk A) → List (List A)
  | [] => []
  | c :: cs => if c.stop = c.frame.length then frames cs ++ [c.frame] else frames cs

def rest : List (Chunk A) → List A
  | [] => []
  | c :: _ => if c.stop = c.frame.length then [] else c.frame.take c.stop

theorem rest_settled {cs : List (Chunk A)} (h : Settled cs) : rest cs = [] := by
  cases cs with
  | nil => rfl
  | cons c cs => exact if_pos h

theorem frames_mem {cs : List (Chunk A)} {f : List A} (h : f ∈ frames cs) :
    ∃ c ∈ cs, c.frame = f := by
  induction cs with
  | nil => simp [frames] at h
  | cons c cs ih =>
    simp only [frames] at h
    split_ifs at h with hc
    · rcases List.mem_append.mp h with hm | hm
      · obtain ⟨d,hd,hf⟩ := ih hm
        exact ⟨d,List.mem_cons_of_mem _ hd,hf⟩
      · exact ⟨c,List.mem_cons_self,(List.mem_singleton.mp hm).symm⟩
    · obtain ⟨d,hd,hf⟩ := ih h
      exact ⟨d,List.mem_cons_of_mem _ hd,hf⟩

theorem Aligned.push {f : List A} {k n : Nat} {cs : List (Chunk A)} (hn : 0 < n) :
    Aligned f (k + n) (⟨f,k,n⟩ :: cs) := Or.inr ⟨by omega,rfl,rfl⟩

theorem Framed.push {f : List A} {k n : Nat} {cs : List (Chunk A)} (h : Framed cs)
    (hk : Aligned f k cs) (hn : 0 < n) (hle : k + n ≤ f.length) : Framed (⟨f,k,n⟩ :: cs) :=
  ⟨⟨hn,hle,hk⟩,h⟩

theorem Framed.settled {f : List A} {k : Nat} {cs : List (Chunk A)} (h : Framed cs)
    (hk : Aligned f k cs) (hall : f.length ≤ k) : Settled cs := by
  rcases hk with ⟨_,hset⟩ | ⟨_,hreach⟩
  · exact hset
  · cases cs with
    | nil => exact hreach.elim
    | cons c cs =>
      obtain ⟨rfl,hstop⟩ := hreach
      exact Nat.le_antisymm h.1.2.1 (hstop ▸ hall)

theorem Aligned.unbegun {f : List A} {k : Nat} {cs : List (Chunk A)} (hk : Aligned f k cs)
    (hmore : k < f.length) (hset : Settled cs) : k = 0 := by
  rcases hk with ⟨h,_⟩ | ⟨_,hreach⟩
  · exact h
  · cases cs with
    | nil => exact hreach.elim
    | cons c cs =>
      obtain ⟨rfl,hstop⟩ := hreach
      exact absurd (hstop.symm.trans hset) (Nat.ne_of_lt hmore)

theorem Framed.written_eq {cs : List (Chunk A)} (h : Framed cs) :
    written cs = (frames cs).flatten ++ rest cs := by
  induction cs with
  | nil => rfl
  | cons c cs ih =>
    obtain ⟨⟨hpos,hle,hcase⟩,hcs⟩ := h
    have htake : c.frame.take c.off ++ c.data = c.frame.take c.stop := List.take_add.symm
    have hdata : written cs ++ c.data = (frames cs).flatten ++ c.frame.take c.stop := by
      rw [ih hcs,← htake]
      rcases hcase with ⟨h0,hset⟩ | ⟨hoff,hreach⟩
      · simp [rest_settled hset,h0]
      · cases cs with
        | nil => exact hreach.elim
        | cons d ds =>
          -- The earlier piece of the same frame stopped before its end.
          have hne : c.off ≠ c.frame.length := by unfold Chunk.stop at hle; omega
          simp only [rest,hreach.1,hreach.2,if_neg hne,List.append_assoc]
    rw [written_cons,hdata]
    by_cases hend : c.stop = c.frame.length
    · simp [frames,rest,hend]
    · simp [frames,rest,hend]

theorem Framed.rest_proper {cs : List (Chunk A)} (h : Framed cs) :
    rest cs = [] ∨ ∃ c ∈ cs, rest cs <+: c.frame ∧ (rest cs).length < c.frame.length := by
  cases cs with
  | nil => exact Or.inl rfl
  | cons c cs =>
    obtain ⟨⟨_,hle,_⟩,_⟩ := h
    by_cases hend : c.stop = c.frame.length
    · exact Or.inl (if_pos hend)
    · refine Or.inr ⟨c,List.mem_cons_self,?_⟩
      rw [show rest (c :: cs) = c.frame.take c.stop from if_neg hend]
      exact ⟨List.take_prefix _ _,by rw [List.length_take]; omega⟩

end Writes
