import ControlLogix.Eip.Layout
import ControlLogix.Library.Codewords

namespace ControlLogix

-- An item whose length is told by its sixteen bits.
abbrev WholeItem := {e : CpfItem // e.data.length < 65536}

namespace WholeItem

def bytes (e : WholeItem) : List UInt8 := e.1.bytes

def read (bs : List UInt8) : Option (WholeItem × List UInt8) :=
  let len := (getU16 (bs.drop 2)).toNat
  if 4 + len ≤ bs.length then
    some (⟨⟨getU16 bs,(bs.drop 4).take len⟩,
      (List.length_take_le _ _).trans_lt (getU16 (bs.drop 2)).toNat_lt⟩,bs.drop (4 + len))
  else none

theorem bytes_length (e : WholeItem) : e.bytes.length = 4 + e.1.data.length := e.1.bytes_length

theorem len_bytes (e : WholeItem) (rest : List UInt8) :
    (getU16 ((e.bytes ++ rest).drop 2)).toNat = e.1.data.length := by
  rw [bytes,CpfItem.bytes,List.append_assoc,List.drop_left' (putU16_length _),List.append_assoc,
    getU16_putU16,UInt16.toNat_ofNat']
  exact Nat.mod_eq_of_lt e.2

theorem data_bytes (e : WholeItem) (rest : List UInt8) :
    (e.bytes ++ rest).drop 4 = e.1.data ++ rest := by
  simp only [bytes,CpfItem.bytes,List.append_assoc]
  rw [← List.append_assoc]
  exact List.drop_left' rfl

theorem reads : Codewords.Reads bytes read where
  nonempty := by
    intro e h
    have hlen := e.bytes_length
    rw [h,List.length_nil] at hlen
    omega
  read_word := by
    intro e rest
    have htype : getU16 (e.bytes ++ rest) = e.1.type := by
      rw [bytes,CpfItem.bytes,List.append_assoc,getU16_putU16]
    have hdrop : (e.bytes ++ rest).drop (4 + e.1.data.length) = rest :=
      List.drop_left' e.bytes_length
    simp only [read,e.len_bytes,e.data_bytes,htype,hdrop,List.take_left]
    rw [if_pos (by rw [List.length_append,e.bytes_length]; omega)]
  of_read := by
    intro bs e rest h
    simp only [read] at h
    split_ifs at h with hfit
    cases h
    have htake : ((bs.drop 4).take (getU16 (bs.drop 2)).toNat).length =
        (getU16 (bs.drop 2)).toNat := List.length_take_of_le (by rw [List.length_drop]; omega)
    have h4 : bs.drop 4 = (bs.drop 2).drop 2 := by rw [List.drop_drop]
    simp only [bytes,CpfItem.bytes,htake,UInt16.ofNat_toNat]
    rw [putU16_getU16 (by omega),putU16_getU16 (by rw [List.length_drop]; omega),← List.drop_drop,
      List.append_assoc,List.append_assoc,List.take_append_drop,h4,List.take_append_drop,
      List.take_append_drop]

end WholeItem

namespace LanInventory

def kListIdentityItem : UInt16 := 0x000C

-- The loop over the items of the reply, with every read of it looked at.
def identityItems (buf : List UInt8) : Nat → Nat → UInt8 → Option UInt8
  | 0, _, state => some state
  | count+1, off, state =>
    if buf.length < off + 4 then some state
    else
      (peek buf off 2).bind fun type => (peek buf (off + 2) 2).bind fun len =>
        let ilen := (getU16 len).toNat
        let off := off + 4
        if buf.length < off + ilen then some state
        else if getU16 type = kListIdentityItem ∧ 33 ≤ ilen then
          (peek buf (off + 32) 1).bind fun name =>
            let nameLen := (name.getD 0 0).toNat
            if 33 + nameLen < ilen then
              (peek buf (off + 33 + nameLen) 1).bind fun found =>
                identityItems buf count (off + ilen) (found.getD 0 0)
            else identityItems buf count (off + ilen) state
        else identityItems buf count (off + ilen) state

-- What the datagram says of the state: nothing stands for a read outside of it.
def identityReply (buf : List UInt8) : Option UInt8 :=
  if buf.length < 26 then some 0xFF
  else
    (peek buf 0 kEncapsulationHeaderSize).bind fun header =>
      if (decodeHeader header).command = Command.code .listIdentity then
        (peek buf 24 2).bind fun count => identityItems buf (getU16 count).toNat 26 0xFF
      else some 0xFF

-- The state in the data of an Identity item: it stands behind the product name.
def itemState (e : WholeItem) : Option UInt8 :=
  let nameLen := (e.1.data.getD 32 0).toNat
  if e.1.type = kListIdentityItem ∧ 33 ≤ e.1.data.length ∧ 33 + nameLen < e.1.data.length then
    some (e.1.data.getD (33 + nameLen) 0)
  else none

def lastState (items : List WholeItem) (state : UInt8) : UInt8 :=
  items.foldl (fun state e => (itemState e).getD state) state

section

variable {buf pre rest : List UInt8}

theorem peek_at {k n : Nat} (hbuf : buf = pre ++ rest) (h : k + n ≤ rest.length) :
    peek buf (pre.length + k) n = some ((rest.drop k).take n) := by
  rw [peek_eq (by rw [hbuf,List.length_append]; omega),hbuf,← List.drop_drop,List.drop_left]

theorem getD_one (bs : List UInt8) (k : Nat) : ((bs.drop k).take 1).getD 0 0 = bs.getD k 0 := by
  rw [getD_take _ (by omega)]
  simp [List.getD_eq_getElem?_getD]

theorem identityItems_left (hbuf : buf = pre ++ rest) (hnone : ∀ e, ¬ WholeItem.bytes e <+: rest)
    (count : Nat) (state : UInt8) : identityItems buf count pre.length state = some state := by
  have hlen : buf.length = pre.length + rest.length := by rw [hbuf,List.length_append]
  cases count with
  | zero => rfl
  | succ count =>
    rw [identityItems]
    by_cases hhead : buf.length < pre.length + 4
    · rw [if_pos hhead]
    have htype := peek_at (k := 0) (n := 2) hbuf (by omega)
    rw [Nat.add_zero] at htype
    rw [if_neg hhead,htype,peek_at hbuf (by omega),Option.bind_some,Option.bind_some]
    simp only [getU16_take]
    rw [if_pos]
    by_contra hfit
    obtain ⟨found,hread⟩ : ∃ found, WholeItem.read rest = some found :=
      ⟨_,if_pos (show 4 + (getU16 (rest.drop 2)).toNat ≤ rest.length by omega)⟩
    exact hnone _ ⟨_,(WholeItem.reads.of_read hread).symm⟩

theorem identityItems_item {e : WholeItem} (hbuf : buf = pre ++ (e.bytes ++ rest)) (count : Nat)
    (state : UInt8) : identityItems buf (count + 1) pre.length state =
      identityItems buf count (pre ++ e.bytes).length ((itemState e).getD state) := by
  have hbytes := e.bytes_length
  have hlen : buf.length = pre.length + (4 + e.1.data.length + rest.length) := by
    rw [hbuf,List.length_append,List.length_append,hbytes]
  have hall : (e.bytes ++ rest).length = 4 + e.1.data.length + rest.length := by
    rw [List.length_append,hbytes]
  have htype := peek_at (k := 0) (n := 2) hbuf (by omega)
  rw [Nat.add_zero,List.drop_zero] at htype
  have hget (k : Nat) (hk : k < e.1.data.length) :
      (e.bytes ++ rest).getD (4 + k) 0 = e.1.data.getD k 0 := by
    have hdrop := congrArg (fun bs => bs.getD k 0) (e.data_bytes rest)
    simp only [List.getD_eq_getElem?_getD,List.getElem?_drop] at hdrop ⊢
    rw [hdrop,List.getElem?_append_left hk]
  have hkind : getU16 (e.bytes ++ rest) = e.1.type := by
    rw [WholeItem.bytes,CpfItem.bytes,List.append_assoc,getU16_putU16]
  have hnext : pre.length + 4 + e.1.data.length = (pre ++ e.bytes).length := by
    rw [List.length_append,hbytes]
    omega
  rw [identityItems,if_neg (by omega),htype,peek_at hbuf (by omega),Option.bind_some,
    Option.bind_some]
  simp only [getU16_take,e.len_bytes,hkind]
  rw [if_neg (by omega),hnext,itemState]
  by_cases hitem : e.1.type = kListIdentityItem ∧ 33 ≤ e.1.data.length
  · rw [if_pos hitem,Nat.add_assoc,peek_at hbuf (by omega),Option.bind_some]
    simp only [getD_one,hget 32 (by omega)]
    by_cases hname : 33 + (e.1.data.getD 32 0).toNat < e.1.data.length
    · rw [if_pos hname,if_pos ⟨hitem.1,hitem.2,hname⟩,Nat.add_assoc,Nat.add_assoc,
        peek_at hbuf (by omega),Option.bind_some,getD_one,hget _ hname,Option.getD_some]
    · rw [if_neg hname,if_neg (by tauto),Option.getD_none]
  · rw [if_neg hitem,if_neg (by tauto),Option.getD_none]

theorem identityItems_items {items : List WholeItem}
    (hbuf : buf = pre ++ (items.flatMap WholeItem.bytes ++ rest))
    (hnone : ∀ e, ¬ WholeItem.bytes e <+: rest) (count : Nat) (state : UInt8) :
    identityItems buf count pre.length state = some (lastState (items.take count) state) := by
  induction items generalizing pre count state with
  | nil =>
    rw [List.take_nil]
    exact identityItems_left hbuf hnone count state
  | cons e items ih =>
    cases count with
    | zero => rfl
    | succ count =>
      rw [List.flatMap_cons,List.append_assoc] at hbuf
      rw [identityItems_item hbuf,List.take_succ_cons]
      rw [← List.append_assoc] at hbuf
      exact ih hbuf count ((itemState e).getD state)

end

-- A datagram that is taken for a reply to ListIdentity, and the number of items it announces.
def IsReply (buf : List UInt8) : Prop :=
  26 ≤ buf.length ∧ (decodeHeader buf).command = Command.code .listIdentity

def announcedItems (buf : List UInt8) : Nat := (getU16 (buf.drop 24)).toNat

theorem decodeHeader_take {buf : List UInt8} (h : kEncapsulationHeaderSize ≤ buf.length) :
    decodeHeader (buf.take kEncapsulationHeaderSize) = decodeHeader buf := by
  conv_rhs => rw [← List.take_append_drop kEncapsulationHeaderSize buf]
  exact (decodeHeader_append _ _ (List.length_take_of_le h).ge).symm

end LanInventory

open LanInventory

end ControlLogix
