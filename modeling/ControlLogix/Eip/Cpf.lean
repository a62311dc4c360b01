import ControlLogix.Eip.Encapsulation

namespace ControlLogix

structure CpfItem where
  type : UInt16
  data : List UInt8
  deriving DecidableEq, Repr

def CpfItem.bytes (e : CpfItem) : List UInt8 :=
  putU16 e.type ++ (putU16 (UInt16.ofNat e.data.length) ++ e.data)

def itemBytes (items : List CpfItem) : List UInt8 := (items.map CpfItem.bytes).flatten

-- Interface handle, timeout, item count and items.
def cpfBody (interface : UInt32) (timeout : UInt16) (items : List CpfItem) : List UInt8 :=
  putU32 interface ++ (putU16 timeout ++ (putU16 (UInt16.ofNat items.length) ++ itemBytes items))

variable {A : Type*}

-- The loop over the items every receiver makes: take says what it keeps of an item of some type
-- with its data at some offset, or that it gives up.
def walkItems (take : A → UInt16 → Nat → Nat → Option A) (rx : List UInt8) :
    Nat → Nat → Nat → A → Option A
  | 0, _, _, a => some a
  | count+1, p, remaining, a =>
    if remaining < 4 then none
    else
      let type := getU16 (rx.drop p)
      let len := (getU16 (rx.drop (p + 2))).toNat
      if remaining - 4 < len then none
      else
        match take a type (p + 4) len with
        | none => none
        | some a => walkItems take rx count (p + 4 + len) (remaining - 4 - len) a

def pickItems (take : A → UInt16 → Nat → Nat → Option A) : Nat → List CpfItem → A → Option A
  | _, [], a => some a
  | p, e :: items, a =>
    match take a e.type (p + 4) e.data.length with
    | none => none
    | some a => pickItems take (p + 4 + e.data.length) items a

@[simp] theorem CpfItem.bytes_length (e : CpfItem) : e.bytes.length = 4 + e.data.length := by
  simp [CpfItem.bytes]
  omega

@[simp] theorem itemBytes_nil : itemBytes [] = [] := List.flatMap_nil

@[simp] theorem itemBytes_cons (e : CpfItem) (items : List CpfItem) :
    itemBytes (e :: items) = e.bytes ++ itemBytes items := rfl

@[simp] theorem itemBytes_append (xs ys : List CpfItem) :
    itemBytes (xs ++ ys) = itemBytes xs ++ itemBytes ys := by
  simp [itemBytes]

theorem items_le_bytes (items : List CpfItem) : items.length ≤ (itemBytes items).length := by
  induction items with
  | nil => exact Nat.le_refl _
  | cons e items ih => simp; omega

theorem item_le_bytes {items : List CpfItem} {e : CpfItem} (h : e ∈ items) :
    e.data.length ≤ (itemBytes items).length := by
  induction items with
  | nil => cases h
  | cons d items ih =>
    rw [itemBytes_cons,List.length_append,CpfItem.bytes_length]
    rcases List.mem_cons.mp h with rfl | hm
    · omega
    · have := ih hm
      omega

@[simp] theorem cpfBody_length (interface : UInt32) (timeout : UInt16) (items : List CpfItem) :
    (cpfBody interface timeout items).length = 8 + (itemBytes items).length := by
  simp [cpfBody]
  omega

theorem item_next {rx pre post : List UInt8} {e : CpfItem} {items : List CpfItem}
    (hrx : rx = pre ++ (itemBytes (e :: items) ++ post)) :
    rx = (pre ++ e.bytes) ++ (itemBytes items ++ post) ∧
      rx.drop (pre.length + 4) = e.data ++ (itemBytes items ++ post) := by
  have hsplit : rx = (pre ++ e.bytes) ++ (itemBytes items ++ post) := by
    rw [hrx,itemBytes_cons]
    simp only [List.append_assoc]
  refine ⟨hsplit,?_⟩
  rw [hsplit,List.append_assoc,← List.drop_drop,List.drop_left,CpfItem.bytes]
  rfl

theorem walkItems_items (take : A → UInt16 → Nat → Nat → Option A) (pre post : List UInt8)
    {items : List CpfItem} (hfit : ∀ e ∈ items, e.data.length < 65536) (a : A) :
    walkItems take (pre ++ (itemBytes items ++ post)) items.length pre.length
      ((itemBytes items).length + post.length) a = pickItems take pre.length items a := by
  induction items generalizing pre a with
  | nil => rfl
  | cons e items ih =>
    have htype : getU16 ((pre ++ (itemBytes (e :: items) ++ post)).drop pre.length) = e.type := by
      rw [List.drop_left,itemBytes_cons,CpfItem.bytes]
      simp only [List.append_assoc]
      exact getU16_putU16 _ _
    have hlen : (getU16 ((pre ++ (itemBytes (e :: items) ++ post)).drop (pre.length + 2))).toNat =
        e.data.length := by
      rw [← List.drop_drop,List.drop_left,itemBytes_cons,CpfItem.bytes]
      simp only [List.append_assoc]
      rw [List.drop_left' (putU16_length _),getU16_putU16,UInt16.toNat_ofNat']
      exact Nat.mod_eq_of_lt (hfit e List.mem_cons_self)
    have hsplit : pre ++ (itemBytes (e :: items) ++ post) =
        (pre ++ e.bytes) ++ (itemBytes items ++ post) := (item_next rfl).1
    have hat : pre.length + 4 + e.data.length = (pre ++ e.bytes).length := by simp; omega
    have hroom : (itemBytes (e :: items)).length + post.length - 4 - e.data.length =
        (itemBytes items).length + post.length := by simp; omega
    rw [List.length_cons,walkItems,pickItems]
    simp only [htype,hlen]
    rw [if_neg (by simp; omega),if_neg (by simp; omega)]
    cases take a e.type (pre.length + 4) e.data.length with
    | none => rfl
    | some b =>
      simp only
      rw [hroom,hat,hsplit]
      exact ih (pre ++ e.bytes) (fun d hd => hfit d (List.mem_cons_of_mem _ hd)) b

theorem pickItems_append (take : A → UInt16 → Nat → Nat → Option A) (p : Nat)
    (xs ys : List CpfItem) (a : A) : pickItems take p (xs ++ ys) a =
      (pickItems take p xs a).bind fun b => pickItems take (p + (itemBytes xs).length) ys b := by
  induction xs generalizing p a with
  | nil => rfl
  | cons e xs ih =>
    rw [List.cons_append,pickItems,pickItems]
    cases take a e.type (p + 4) e.data.length with
    | none => rfl
    | some b =>
      simp only [ih]
      rw [itemBytes_cons,List.length_append,CpfItem.bytes_length]
      simp only [← Nat.add_assoc]

theorem pickItems_total (take : A → UInt16 → Nat → Nat → Option A)
    (h : ∀ a type p len, ∃ b, take a type p len = some b) (p : Nat) (items : List CpfItem) (a : A) :
    ∃ b, pickItems take p items a = some b := by
  induction items generalizing p a with
  | nil => exact ⟨a,rfl⟩
  | cons e items ih =>
    obtain ⟨b,hb⟩ := h a e.type (p + 4) e.data.length
    rw [pickItems,hb]
    exact ih _ b

theorem pickItems_quiet {take : A → UInt16 → Nat → Nat → Option A} {items : List CpfItem} {a : A}
    (h : ∀ e ∈ items, ∀ p, take a e.type p e.data.length = some a) (p : Nat) :
    pickItems take p items a = some a := by
  induction items generalizing p with
  | nil => rfl
  | cons e items ih =>
    rw [pickItems,h e List.mem_cons_self]
    exact ih (fun d hd => h d (List.mem_cons_of_mem _ hd)) _

theorem walkItems_within {take : A → UInt16 → Nat → Nat → Option A} {rx : List UInt8}
    {P : A → Prop} (htake : ∀ a type p len b, P a → p + len ≤ rx.length →
      take a type p len = some b → P b) {count p remaining : Nat} {a b : A}
    (hroom : p + remaining ≤ rx.length) (ha : P a)
    (h : walkItems take rx count p remaining a = some b) : P b := by
  induction count generalizing p remaining a with
  | zero =>
    rw [walkItems] at h
    exact Option.some.inj h ▸ ha
  | succ count ih =>
    rw [walkItems] at h
    by_cases hshort : remaining < 4
    · rw [if_pos hshort] at h
      cases h
    rw [if_neg hshort] at h
    simp only at h
    by_cases hlong : remaining - 4 < (getU16 (rx.drop (p + 2))).toNat
    · rw [if_pos hlong] at h
      cases h
    rw [if_neg hlong] at h
    cases hnext : take a (getU16 (rx.drop p)) (p + 4) (getU16 (rx.drop (p + 2))).toNat with
    | none => simp [hnext] at h
    | some c =>
      rw [hnext] at h
      exact ih (by omega) (htake _ _ _ _ _ ha (by omega) hnext) h

end ControlLogix
