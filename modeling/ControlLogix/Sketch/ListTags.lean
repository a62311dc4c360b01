import ControlLogix.Eip.Layout
import ControlLogix.Library.Codewords
import ControlLogix.Tag.Strings

namespace ControlLogix

namespace ListTags

def kMaxTags : Nat := 200

structure TagEntry where
  name : List UInt8
  symbolType : UInt16
  deriving DecidableEq, Repr

-- The table of the tags, and the numbered lines that are printed.
structure Inventory where
  tags : List TagEntry := []
  printed : List (Nat × TagEntry) := []
  deriving DecidableEq, Repr

-- What is done with a record; both copies of the name end at its first zero.
def Inventory.enter (v : Inventory) (name : List UInt8) (symbolType : UInt16) : Inventory :=
  let tmp : TagEntry := {name := Tag.cString name, symbolType := symbolType}
  let tags := if v.tags.length < kMaxTags then v.tags ++ [tmp] else v.tags
  {tags := tags, printed := v.printed ++ [(tags.length,tmp)]}

structure Batch where
  p : UInt32 := 0
  last : UInt32 := 0
  inventory : Inventory := {}
  deriving DecidableEq, Repr

-- The body of the loop, with every read of the reply looked at: whether the loop goes on.
def record (d : List UInt8) (b : Batch) : Option (Bool × Batch) :=
  let n := UInt32.ofNat d.length
  (peek d b.p.toNat 4).bind fun word =>
    let instanceId := getU32 word
    let p := b.p + 4
    if n < p + 4 then some (false,{b with p := p})
    else
      (peek d p.toNat 4).bind fun word =>
        let nameLen := getU32 word
        let p := p + 4
        if n < p + nameLen then some (false,{b with p := p})
        else
          let c := if nameLen < 45 then nameLen else 45
          (peek d p.toNat c.toNat).bind fun name =>
            let p := p + nameLen
            if n < p + 2 then some (false,{b with p := p})
            else
              (peek d p.toNat 2).map fun word =>
                (true,{p := p + 2, last := instanceId,
                       inventory := b.inventory.enter name (getU16 word)})

-- The loop, for so many rounds at most: none where it reads outside d or is not over by then.
def enumerate : Nat → List UInt8 → Batch → Option Batch
  | rounds, d, b =>
    if UInt32.ofNat d.length < b.p + 4 then some b
    else
      match rounds with
      | 0 => none
      | rounds+1 =>
        (record d b).bind fun next =>
          if next.1 then enumerate rounds d next.2 else some next.2

structure Record where
  instanceId : UInt32
  name : List UInt8
  symbolType : UInt16
  fits : name.length < 4294967296

namespace Record

def bytes (r : Record) : List UInt8 :=
  putU32 r.instanceId ++ (putU32 (UInt32.ofNat r.name.length) ++
    (r.name ++ putU16 r.symbolType))

-- A record as the sketch keeps it: of a long name the first 45 bytes.
def enter (v : Inventory) (r : Record) : Inventory := v.enter (r.name.take 45) r.symbolType

theorem bytes_length (r : Record) : r.bytes.length = 10 + r.name.length := by
  simp only [bytes,List.length_append,putU32_length,putU16_length]
  omega

theorem nameLen_toNat (r : Record) : (UInt32.ofNat r.name.length).toNat = r.name.length := by
  rw [UInt32.toNat_ofNat']
  exact Nat.mod_eq_of_lt r.fits

theorem instantaneous : Codewords.Instantaneous bytes where
  nonempty r h := by
    have := r.bytes_length
    rw [h,List.length_nil] at this
    omega
  split := by
    rintro ⟨i,name,type,hfit⟩ ⟨j,other,code,hother⟩ x y h
    simp only [bytes,List.append_assoc] at h
    have hid := congrArg getU32 h
    rw [getU32_putU32,getU32_putU32] at hid
    subst hid
    rw [List.append_cancel_left_eq] at h
    have hlen := congrArg UInt32.toNat (congrArg getU32 h)
    rw [getU32_putU32,getU32_putU32,UInt32.toNat_ofNat',UInt32.toNat_ofNat',
      Nat.mod_eq_of_lt hfit,Nat.mod_eq_of_lt hother] at hlen
    rw [hlen,List.append_cancel_left_eq] at h
    obtain ⟨rfl,htail⟩ := List.append_inj h hlen
    have htype := congrArg getU16 htail
    rw [getU16_putU16,getU16_putU16] at htype
    subst htype
    rfl

theorem begins {bs : List UInt8} (hlen : 10 + (getU32 (bs.drop 4)).toNat ≤ bs.length) :
    ∃ r, bytes r <+: bs := by
  have hname : ((bs.drop 8).take (getU32 (bs.drop 4)).toNat).length =
      (getU32 (bs.drop 4)).toNat := List.length_take_of_le (by rw [List.length_drop]; omega)
  have h8 : bs.drop 8 = (bs.drop 4).drop 4 := by rw [List.drop_drop]
  refine ⟨⟨getU32 bs,(bs.drop 8).take (getU32 (bs.drop 4)).toNat,
    getU16 (bs.drop (8 + (getU32 (bs.drop 4)).toNat)),?_⟩,?_⟩
  · rw [hname]
    exact (getU32 (bs.drop 4)).toNat_lt
  · simp only [bytes,hname,UInt32.ofNat_toNat]
    rw [putU32_getU32 (by omega),putU32_getU32 (by rw [List.length_drop]; omega),
      putU16_getU16 (by rw [List.length_drop]; omega),← List.drop_drop,← List.take_add,h8,
      ← List.take_add,← List.take_add]
    exact List.take_prefix _ _

end Record

-- The length of the name of a record at p, and where the name ends if nothing wraps.
def nameLen (d : List UInt8) (p : Nat) : Nat := (getU32 (d.drop (p + 4))).toNat

def nameEnd (d : List UInt8) (p : Nat) : Nat := p + 8 + nameLen d p

theorem advanced {p k : UInt32} (h : p.toNat + k.toNat < 4294967296) :
    (p + k).toNat = p.toNat + k.toNat := by
  rw [UInt32.toNat_add]
  exact Nat.mod_eq_of_lt h

theorem wrapped {p k : UInt32} (h : 4294967296 ≤ p.toNat + k.toNat) :
    (p + k).toNat = p.toNat + k.toNat - 4294967296 := by
  have hp := p.toNat_lt
  have hk := k.toNat_lt
  rw [UInt32.toNat_add]
  omega

theorem Inventory.enter_printed (v : Inventory) (name : List UInt8) (symbolType : UInt16) :
    (v.enter name symbolType).printed.length = v.printed.length + 1 := by
  simp [Inventory.enter]

section

variable {d : List UInt8} {b : Batch}

inductive Round (d : List UInt8) (b : Batch) : Option (Bool × Batch) → Prop where
  | left {p : UInt32} : d.length < b.p.toNat + 8 ∨ nameEnd d b.p.toNat < 4294967296 ∧
      d.length < nameEnd d b.p.toNat + 2 → Round d b (some (false,{b with p := p}))
  | whole {p : UInt32} : p.toNat = nameEnd d b.p.toNat + 2 → p.toNat ≤ d.length →
      Round d b (some (true,
        {p := p, last := getU32 (d.drop b.p.toNat),
         inventory := b.inventory.enter
           ((d.drop (b.p.toNat + 8)).take (min (nameLen d b.p.toNat) 45))
           (getU16 (d.drop (nameEnd d b.p.toNat)))}))
  | outside : b.p.toNat + 8 ≤ d.length → 4294967296 ≤ nameEnd d b.p.toNat → Round d b none
  | bogus {b' : Batch} : b.p.toNat + 8 ≤ d.length → 4294967296 ≤ nameEnd d b.p.toNat →
      b'.inventory.printed.length = b.inventory.printed.length + 1 → Round d b (some (true,b'))

theorem record_round (hd : d.length ≤ 527) (hp : b.p.toNat + 4 ≤ d.length) :
    Round d b (record d b) := by
  have hn : (UInt32.ofNat d.length).toNat = d.length := by
    rw [UInt32.toNat_ofNat']
    exact Nat.mod_eq_of_lt (by omega)
  have h4 : (4 : UInt32).toNat = 4 := rfl
  have h2 : (2 : UInt32).toNat = 2 := rfl
  have hp4 : (b.p + 4).toNat = b.p.toNat + 4 := advanced (by omega)
  have hp8 : (b.p + 4 + 4).toNat = b.p.toNat + 8 := (advanced (by omega)).trans (by omega)
  rw [record]
  simp only [UInt32.lt_iff_toNat_lt,hn]
  rw [peek_eq (by omega),Option.bind_some,hp8]
  by_cases hhead : d.length < b.p.toNat + 8
  · rw [if_pos hhead]
    exact .left (Or.inl hhead)
  rw [if_neg hhead,hp4,peek_eq (by omega),Option.bind_some,getU32_take]
  have hlen : (getU32 (d.drop (b.p.toNat + 4))).toNat = nameLen d b.p.toNat := rfl
  have hend : b.p.toNat + 8 + nameLen d b.p.toNat = nameEnd d b.p.toNat := rfl
  generalize getU32 (d.drop (b.p.toNat + 4)) = len at hlen ⊢
  have hc : (if len.toNat < (45 : UInt32).toNat then len else 45).toNat =
      min (nameLen d b.p.toNat) 45 := by
    rw [← hlen]
    by_cases hlong : len.toNat < 45
    · rw [if_pos (show len.toNat < (45 : UInt32).toNat from hlong)]
      omega
    · rw [if_neg (show ¬ len.toNat < (45 : UInt32).toNat from hlong)]
      exact (Nat.min_eq_right (Nat.not_lt.mp hlong)).symm
  simp only [hc]
  by_cases hwrap : nameEnd d b.p.toNat < 4294967296
  · have hq : (b.p + 4 + 4 + len).toNat = nameEnd d b.p.toNat :=
      (advanced (by omega)).trans (by omega)
    rw [hq]
    by_cases hname : d.length < nameEnd d b.p.toNat
    · rw [if_pos hname]
      exact .left (Or.inr ⟨hwrap,by omega⟩)
    rw [if_neg hname,peek_eq (by omega),Option.bind_some]
    have hq2 : (b.p + 4 + 4 + len + 2).toNat = nameEnd d b.p.toNat + 2 :=
      (advanced (by omega)).trans (by omega)
    rw [hq2]
    by_cases htype : d.length < nameEnd d b.p.toNat + 2
    · rw [if_pos htype]
      exact .left (Or.inr ⟨hwrap,htype⟩)
    rw [if_neg htype,peek_eq (by omega),Option.map_some,getU16_take,getU32_take]
    exact .whole hq2 (by omega)
  · have hlt := len.toNat_lt
    have hq : (b.p + 4 + 4 + len).toNat = nameEnd d b.p.toNat - 4294967296 :=
      (wrapped (by omega)).trans (by omega)
    rw [hq,if_neg (by omega)]
    cases hpeek : peek d (b.p.toNat + 8) (min (nameLen d b.p.toNat) 45) with
    | none => exact .outside (by omega) (by omega)
    | some name =>
      -- The 45 bytes of the name are in the reply, so the cursor behind it has room before it.
      have hroom : b.p.toNat + 8 + min (nameLen d b.p.toNat) 45 ≤ d.length := by
        by_contra hout
        rw [peek,if_neg hout] at hpeek
        cases hpeek
      have hq2 : (b.p + 4 + 4 + len + 2).toNat = nameEnd d b.p.toNat - 4294967296 + 2 :=
        (advanced (by omega)).trans (by omega)
      rw [Option.bind_some,hq2,if_neg (by omega),peek_eq (by omega)]
      exact .bogus (by omega) (by omega) (Inventory.enter_printed _ _ _)

theorem record_grows {go : Bool} {b' : Batch} (h : record d b = some (go,b')) :
    b.inventory.printed.length ≤ b'.inventory.printed.length := by
  simp only [record] at h
  obtain ⟨_,_,h⟩ := Option.bind_eq_some_iff.mp h
  split at h
  · cases h
    exact Nat.le_refl _
  obtain ⟨_,_,h⟩ := Option.bind_eq_some_iff.mp h
  split at h
  · cases h
    exact Nat.le_refl _
  obtain ⟨_,_,h⟩ := Option.bind_eq_some_iff.mp h
  split at h
  · cases h
    exact Nat.le_refl _
  · obtain ⟨_,_,h⟩ := Option.map_eq_some_iff.mp h
    cases h
    rw [Inventory.enter_printed]
    exact Nat.le_succ _

theorem enumerate_grows {rounds : Nat} {b' : Batch} (h : enumerate rounds d b = some b') :
    b.inventory.printed.length ≤ b'.inventory.printed.length := by
  induction rounds generalizing b with
  | zero =>
    rw [enumerate] at h
    split_ifs at h
    cases h
    exact Nat.le_refl _
  | succ rounds ih =>
    rw [enumerate] at h
    split_ifs at h
    · cases h
      exact Nat.le_refl _
    obtain ⟨⟨go,mid⟩,hrecord,h⟩ := Option.bind_eq_some_iff.mp h
    cases go with
    | true => exact (record_grows hrecord).trans (ih h)
    | false =>
      cases h
      exact record_grows hrecord

theorem more_iff (hd : d.length ≤ 527) (hp : b.p.toNat ≤ d.length) :
    UInt32.ofNat d.length < b.p + 4 ↔ d.length < b.p.toNat + 4 := by
  have h4 : (4 : UInt32).toNat = 4 := rfl
  rw [UInt32.lt_iff_toNat_lt,advanced (by omega),UInt32.toNat_ofNat',
    Nat.mod_eq_of_lt (by omega)]
  rfl

theorem enumerate_over (hd : d.length ≤ 527) (hp : b.p.toNat ≤ d.length)
    (hover : d.length < b.p.toNat + 4) (rounds : Nat) : enumerate rounds d b = some b := by
  have hstop := (more_iff hd hp).mpr hover
  cases rounds with
  | zero => rw [enumerate,if_pos hstop]
  | succ rounds => rw [enumerate,if_pos hstop]

theorem enumerate_round (hd : d.length ≤ 527) (hmore : b.p.toNat + 4 ≤ d.length) (rounds : Nat) :
    enumerate (rounds + 1) d b = (record d b).bind fun next =>
      if next.1 then enumerate rounds d next.2 else some next.2 := by
  rw [enumerate,if_neg]
  rw [more_iff hd (by omega)]
  omega

end

section

variable {d pre rest : List UInt8} {b : Batch}

theorem nameLen_at (hd : d = pre ++ rest) :
    nameLen d pre.length = (getU32 (rest.drop 4)).toNat := by
  rw [nameLen,hd,← List.drop_drop,List.drop_left]

theorem enumerate_whole (hlen : d.length ≤ 527) {r : Record} (hd : d = pre ++ (r.bytes ++ rest))
    (hp : b.p.toNat = pre.length) (rounds : Nat) :
    ∃ b' : Batch, b'.p.toNat = (pre ++ r.bytes).length ∧
      b'.inventory = r.enter b.inventory ∧ b'.last = r.instanceId ∧
        enumerate (rounds + 1) d b = enumerate rounds d b' := by
  have hbytes := r.bytes_length
  have hall : d.length = pre.length + (10 + r.name.length + rest.length) := by
    rw [hd,List.length_append,List.length_append,hbytes]
  have hdrop : d.drop pre.length = r.bytes ++ rest := by rw [hd,List.drop_left]
  have hname : nameLen d pre.length = r.name.length := by
    rw [nameLen_at hd]
    simp only [Record.bytes,List.append_assoc]
    rw [List.drop_left' (putU32_length _),getU32_putU32,r.nameLen_toNat]
  have hend : nameEnd d pre.length = pre.length + 8 + r.name.length := by rw [nameEnd,hname]
  have hround := record_round hlen (b := b) (by omega)
  rw [enumerate_round hlen (by omega)]
  generalize record d b = result at hround ⊢
  cases hround with
  | left hleft => rw [hp] at hleft; omega
  | outside _ hwrap => rw [hp] at hwrap; omega
  | bogus _ hwrap => rw [hp] at hwrap; omega
  | whole hp' hin =>
    refine ⟨_,?_,?_,?_,rfl⟩
    · rw [hp',hp,hend,List.length_append,hbytes]
      omega
    · have h8 : d.drop (pre.length + 8) = r.name ++ (putU16 r.symbolType ++ rest) := by
        rw [← List.drop_drop,hdrop]
        simp only [Record.bytes,List.append_assoc]
        rw [← List.append_assoc]
        exact List.drop_left' (by simp)
      have hend' : d.drop (pre.length + 8 + r.name.length) = putU16 r.symbolType ++ rest := by
        rw [← List.drop_drop,h8,List.drop_left]
      have htake : (r.name ++ (putU16 r.symbolType ++ rest)).take (min r.name.length 45) =
          r.name.take 45 := by
        rw [List.take_append_of_le_length (Nat.min_le_left _ _),List.take_eq_take_iff]
        omega
      simp only [Record.enter,hp,hname,hend]
      rw [h8,htake,hend',getU16_putU16]
    · simp only [hp,hdrop,Record.bytes,List.append_assoc]
      rw [getU32_putU32]

theorem enumerate_records (hlen : d.length ≤ 527) {rs : List Record}
    (hd : d = pre ++ (rs.flatMap Record.bytes ++ rest)) (hp : b.p.toNat = pre.length)
    (rounds : Nat) :
    ∃ b' : Batch, b'.p.toNat = (pre ++ rs.flatMap Record.bytes).length ∧
      b'.inventory = rs.foldl Record.enter b.inventory ∧
        b'.last = rs.foldl (fun _ r => r.instanceId) b.last ∧
          enumerate (rounds + rs.length) d b = enumerate rounds d b' := by
  induction rs generalizing pre b with
  | nil => exact ⟨b,by simpa using hp,rfl,rfl,rfl⟩
  | cons r rs ih =>
    rw [List.flatMap_cons,List.append_assoc] at hd
    obtain ⟨mid,hmid,hinv,hlast,hfirst⟩ := enumerate_whole hlen hd hp (rounds + rs.length)
    rw [← List.append_assoc] at hd
    obtain ⟨b',hb',hinv',hlast',hrest⟩ := ih hd hmid
    refine ⟨b',?_,?_,?_,hfirst.trans hrest⟩
    · rw [hb',List.flatMap_cons,List.append_assoc]
    · rw [hinv',hinv,List.foldl_cons]
    · rw [hlast',hlast,List.foldl_cons]

theorem enumerate_left (hlen : d.length ≤ 527) (hnone : ∀ r, ¬ Record.bytes r <+: rest)
    (hd : d = pre ++ rest) (hp : b.p.toNat = pre.length)
    (hbound : 8 ≤ rest.length → pre.length + 8 + (getU32 (rest.drop 4)).toNat < 4294967296)
    (rounds : Nat) :
    ∃ b' : Batch, enumerate (rounds + 1) d b = some b' ∧ b'.inventory = b.inventory ∧
      b'.last = b.last := by
  have hall : d.length = pre.length + rest.length := by rw [hd,List.length_append]
  have hend : nameEnd d pre.length = pre.length + 8 + (getU32 (rest.drop 4)).toNat := by
    rw [nameEnd,nameLen_at hd]
  by_cases hmore : b.p.toNat + 4 ≤ d.length
  · have hround := record_round hlen hmore
    rw [enumerate_round hlen hmore]
    generalize record d b = result at hround ⊢
    cases hround with
    | left _ => exact ⟨_,rfl,rfl,rfl⟩
    | outside hhead hwrap =>
      rw [hp] at hhead hwrap
      have := hbound (by omega)
      omega
    | bogus hhead hwrap =>
      rw [hp] at hhead hwrap
      have := hbound (by omega)
      omega
    | whole hp' hin =>
      rw [hp',hp,hend] at hin
      obtain ⟨r,hr⟩ : ∃ r, Record.bytes r <+: rest := Record.begins (by omega)
      exact absurd hr (hnone r)
  · exact ⟨b,enumerate_over hlen (by omega) (by omega) _,rfl,rfl⟩

theorem enumerate_wrapped (hlen : d.length ≤ 527) (hd : d = pre ++ rest)
    (hp : b.p.toNat = pre.length) (hhead : 8 ≤ rest.length)
    (hwrap : 4294967296 ≤ pre.length + 8 + (getU32 (rest.drop 4)).toNat) {rounds : Nat} {b' : Batch}
    (h : enumerate (rounds + 1) d b = some b') :
    b.inventory.printed.length < b'.inventory.printed.length := by
  have hall : d.length = pre.length + rest.length := by rw [hd,List.length_append]
  have hend : nameEnd d pre.length = pre.length + 8 + (getU32 (rest.drop 4)).toNat := by
    rw [nameEnd,nameLen_at hd]
  have hmore : b.p.toNat + 4 ≤ d.length := by omega
  have hround := record_round hlen hmore
  rw [enumerate_round hlen hmore] at h
  generalize record d b = result at hround h
  cases hround with
  | left hleft => rw [hp] at hleft; omega
  | whole hp' hin => rw [hp',hp] at hin; omega
  | outside _ _ => cases h
  | bogus _ _ hmore =>
    have hgrow := enumerate_grows h
    simp only at hgrow
    omega

end

-- The loop ends within n / 10 + 1 rounds, reads nothing outside the reply and has entered the
-- records of the longest run of whole ones at its front.
def Parsed (d : List UInt8) (v : Inventory) : Prop :=
  ∃ rs b, Codewords.Longest Record.bytes rs d ∧
    enumerate (d.length / 10 + 1) d {inventory := v} = some b ∧
      b.inventory = rs.foldl Record.enter v ∧ b.last = rs.foldl (fun _ r => r.instanceId) 0

-- Behind the whole records no length takes the cursor past 2^32.
def Bounded (d : List UInt8) : Prop :=
  ∀ rs rest, Codewords.Longest Record.bytes rs d → d = rs.flatMap Record.bytes ++ rest →
    8 ≤ rest.length →
      (rs.flatMap Record.bytes).length + 8 + (getU32 (rest.drop 4)).toNat < 4294967296

theorem records_length (rs : List Record) : 10 * rs.length ≤ (rs.flatMap Record.bytes).length := by
  induction rs with
  | nil => exact Nat.le_refl _
  | cons r rs ih =>
    have hr := r.bytes_length
    rw [List.flatMap_cons,List.length_append,List.length_cons]
    omega

theorem batch_is_parsed_iff (d : List UInt8) (hlen : d.length ≤ 527) (v : Inventory) :
    Parsed d v ↔ Bounded d := by
  obtain ⟨rs,rest,hd,hnone,hlong⟩ := Codewords.exists_longest Record.instantaneous d
  have hrounds : d.length / 10 + 1 = d.length / 10 - rs.length + 1 + rs.length := by
    have hmany := records_length rs
    have hall : d.length = (rs.flatMap Record.bytes).length + rest.length := by
      rw [← List.length_append,← hd]
    omega
  have hfront : d = [] ++ (rs.flatMap Record.bytes ++ rest) := hd
  obtain ⟨b,hp,hinv,hlast,hrun⟩ := enumerate_records (b := {inventory := v}) hlen hfront rfl
    (d.length / 10 - rs.length + 1)
  rw [List.nil_append] at hp
  constructor
  · rintro ⟨qs,b',hqs,hends,hinv',-⟩ ps tail hps hd' hhead
    obtain rfl := hlong.unique Record.instantaneous hqs
    obtain rfl := hlong.unique Record.instantaneous hps
    rw [hd] at hd'
    obtain rfl := List.append_cancel_left hd'
    by_contra hwrap
    rw [hrounds,hrun] at hends
    have hmore := enumerate_wrapped hlen hd hp hhead (Nat.not_lt.mp hwrap) hends
    rw [hinv',hinv] at hmore
    exact Nat.lt_irrefl _ hmore
  · intro hbound
    obtain ⟨b',hends,hinv',hlast'⟩ := enumerate_left hlen hnone hd hp (hbound rs rest hlong hd)
      (d.length / 10 - rs.length)
    exact ⟨rs,b',hlong,hrounds ▸ hrun.trans hends,hinv'.trans hinv,hlast'.trans hlast⟩

end ListTags

open ListTags

def Sample.oneTag : List UInt8 := putU32 1 ++ (putU32 0 ++ putU16 0x00C4)

theorem Sample.one_tag_is_parsed_iff : Parsed Sample.oneTag {} ↔ Bounded Sample.oneTag :=
  batch_is_parsed_iff Sample.oneTag (by decide) {}

-- Behind it a name whose length leads the cursor from 18 back to 8, and two bytes on to 10.
def Sample.endless : List UInt8 :=
  Sample.oneTag ++ (putU32 2 ++ (putU32 4294967286 ++ List.replicate 45 0))

theorem Sample.endless_is_not_parsed : ¬ Parsed Sample.endless {} := by
  have hgoes : enumerate (Sample.endless.length / 10 + 1) Sample.endless {} = none := by
    decide +kernel
  rintro ⟨rs,b,-,hends,-⟩
  rw [hgoes] at hends
  cases hends

end ControlLogix
