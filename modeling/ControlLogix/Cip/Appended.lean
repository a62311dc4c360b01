import ControlLogix.Cip.Paths

namespace ControlLogix

-- The segments of a path as this library appends them and its server reads them, the pad byte of a
-- 16- or 32-bit instance number behind the number. In CIP's own padded layout it stands in front of
-- the number, and these two segments say something else there.
inductive AppendedSegment where
  | plain (s : Segment)
  | instanceId16 (id : UInt16)
  | instanceId32 (id : UInt32)
  | attributeId (id : UInt8)
  deriving DecidableEq, Repr

namespace AppendedSegment

def bytes : AppendedSegment → List UInt8
  | .plain s => s.bytes
  | .instanceId16 id => 0x25 :: (putU16 id ++ [0])
  | .instanceId32 id => 0x26 :: (putU32 id ++ [0])
  | .attributeId id => [0x30,id]

def readNumber (size : Nat) (make : List UInt8 → AppendedSegment) (bs : List UInt8) :
    Option (AppendedSegment × List UInt8) :=
  if size < bs.length ∧ bs.getD size 0 = 0 then some (make bs,bs.drop (size + 1)) else none

def read : List UInt8 → Option (AppendedSegment × List UInt8)
  | [] => none
  | a :: rest =>
    if a = 0x25 then readNumber 2 (fun bs => .instanceId16 (getU16 bs)) rest
    else if a = 0x26 then readNumber 4 (fun bs => .instanceId32 (getU32 bs)) rest
    else if a = 0x30 then
      if rest = [] then none else some (.attributeId (rest.getD 0 0),rest.tail)
    else (Segment.read (a :: rest)).map fun found => (.plain found.1,found.2)

theorem plain_front (s : Segment) : ∃ a rest, s.bytes = a :: rest ∧ a ≠ 0x25 ∧ a ≠ 0x26 ∧
    a ≠ 0x30 := by
  have hport : ∀ p : Fin 16, UInt8.ofNat p ≠ 0x25 ∧ UInt8.ofNat p ≠ 0x26 ∧ UInt8.ofNat p ≠ 0x30 := by
    decide
  cases s with
  | port p link => exact ⟨_,_,rfl,hport p⟩
  | classId id => exact ⟨_,_,rfl,by decide⟩
  | instanceId id => exact ⟨_,_,rfl,by decide⟩
  | symbol name => exact ⟨_,_,rfl,by decide⟩

theorem readNumber_number {size : Nat} {make : List UInt8 → AppendedSegment} {num : List UInt8}
    (hnum : num.length = size) (rest : List UInt8) :
    readNumber size make (num ++ [0] ++ rest) = some (make (num ++ [0] ++ rest),rest) := by
  have hget : (num ++ [0] ++ rest).getD size 0 = 0 := by
    rw [List.getD_eq_getElem?_getD,List.append_assoc,List.getElem?_append_right hnum.le,hnum,
      Nat.sub_self]
    rfl
  have hdrop : (num ++ [0] ++ rest).drop (size + 1) = rest := List.drop_left' (by simp [hnum])
  rw [readNumber,if_pos ⟨by simp [hnum],hget⟩,hdrop]

theorem readNumber_sound {size : Nat} {make : List UInt8 → AppendedSegment} {bs rest : List UInt8}
    {s : AppendedSegment} (h : readNumber size make bs = some (s,rest)) :
    s = make bs ∧ bs = bs.take size ++ [0] ++ rest ∧ size < bs.length := by
  rw [readNumber] at h
  split_ifs at h with hfit
  obtain ⟨hlen,hpad⟩ := hfit
  cases h
  refine ⟨rfl,?_,hlen⟩
  have hzero : bs[size] = 0 := by
    rwa [List.getD_eq_getElem?_getD,List.getElem?_eq_getElem hlen] at hpad
  conv_lhs => rw [← List.take_append_drop size bs]
  rw [List.drop_eq_getElem_cons hlen,hzero,List.append_assoc]
  rfl

theorem reads : Codewords.Reads bytes read where
  nonempty := by
    intro s
    cases s with
    | plain s => exact Segment.reads.nonempty s
    | instanceId16 id => exact List.cons_ne_nil _ _
    | instanceId32 id => exact List.cons_ne_nil _ _
    | attributeId id => exact List.cons_ne_nil _ _
  read_word := by
    intro s rest
    cases s with
    | plain s =>
      have hread := Segment.reads.read_word s rest
      obtain ⟨a,tail,hbytes,h25,h26,h30⟩ := plain_front s
      rw [hbytes,List.cons_append] at hread
      simp only [bytes,hbytes,List.cons_append,read]
      rw [if_neg h25,if_neg h26,if_neg h30,hread]
      rfl
    | instanceId16 id =>
      have hnum := @readNumber_number 2 (fun bs => .instanceId16 (getU16 bs)) _ (putU16_length id) rest
      simp only [bytes,List.cons_append,read]
      rw [if_pos trivial,hnum,List.append_assoc,getU16_putU16]
    | instanceId32 id =>
      have hnum := @readNumber_number 4 (fun bs => .instanceId32 (getU32 bs)) _ (putU32_length id) rest
      simp only [bytes,List.cons_append,read]
      rw [if_neg (by decide),if_pos trivial,hnum,List.append_assoc,getU32_putU32]
    | attributeId id => rfl
  of_read := by
    intro bs s rest h
    cases bs with
    | nil => cases h
    | cons a bs =>
      rw [read] at h
      split_ifs at h with h25 h26 h30 hnil
      · obtain ⟨rfl,hbs,hlen⟩ := readNumber_sound h
        rw [h25,bytes,putU16_getU16 hlen.le,List.cons_append,← hbs]
      · obtain ⟨rfl,hbs,hlen⟩ := readNumber_sound h
        rw [h26,bytes,putU32_getU32 hlen.le,List.cons_append,← hbs]
      · cases bs with
        | nil => exact absurd rfl hnil
        | cons b bs =>
          cases h
          rw [h30]
          rfl
      · obtain ⟨⟨s,rest⟩,hread,hfound⟩ := Option.map_eq_some_iff.mp h
        cases hfound
        exact Segment.reads.of_read hread

end AppendedSegment

def parseAppendedPath (path : List UInt8) : Option (List AppendedSegment) :=
  Codewords.decode AppendedSegment.read path

theorem parseAppendedPath_iff {path : List UInt8} {segments : List AppendedSegment} :
    parseAppendedPath path = some segments ↔ path = segments.flatMap AppendedSegment.bytes :=
  AppendedSegment.reads.decode_iff

end ControlLogix
