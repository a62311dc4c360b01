import ControlLogix.Tag.Accessors

namespace ControlLogix

open SyntheticServer (answer unconnectedRequest)

theorem ExplicitMessage.poll_reply {m : ExplicitMessage} (hm : m.inFlight = true)
    {t : TcpConnection} {w : World} {r : Reply} (hok : (m.poll t w).1 = .ok)
    (hrx : (m.poll t w).2.1.io.rx = r.bytes) :
    (m.poll t w).2.1.resultCode = r.status ∧ (m.poll t w).2.1.dataBytes = r.data ∧
      (m.poll t w).2.1.dataLen = r.data.length := by
  rcases hpoll : m.poll t w with ⟨st,m',t',w'⟩
  simp only [hpoll] at hok hrx ⊢
  subst hok
  obtain ⟨y,y',hparse,rfl,_,_⟩ := poll_parsed hm hpoll
  have hio : y'.io = y.io := by
    have h := y.parseResponse_io
    rw [hparse] at h
    exact h
  have hyrx : y.io.rx = r.bytes := by
    rw [← hio]
    exact hrx
  have hcontext : r.context = y.sentContext := by
    rcases y.parseResponse_cases with ⟨_,_,_,_,_,_,hsame⟩ | herr
    · rw [hyrx,Reply.decodeHeader_bytes] at hsame
      exact hsame
    · rw [hparse] at herr
      cases herr
  obtain ⟨z,hz,_,_,hcode,hdata,hlen⟩ := parseResponse_reply hyrx hcontext
  rw [hparse,Prod.mk.injEq] at hz
  obtain rfl := hz.2
  exact ⟨hcode,hdata,hlen⟩

namespace Tag

-- The tag holds what the data of a reply says: a type code and all of a value.
def Delivered (g : Tag) (data : List UInt8) : Prop :=
  2 ≤ data.length ∧ g.dataType.toNat = (getU16 data).toNat ∧ g.dataLen = data.length - 2 ∧
    g.data.bytes.take g.dataLen = data.drop 2

def received (g : Tag) (data : List UInt8) : Tag :=
  let g : Tag := {g with resultCode := 0}
  {if 2 ≤ data.length then g.receive data else g with state := .done}

theorem settle_reading {g : Tag} {m : ExplicitMessage} (hg : g.state = .reading)
    (hcode : m.resultCode = 0) (hlen : m.dataLen = m.dataBytes.length) :
    g.settle m = (.ok,g.received m.dataBytes) := by
  have htwo : (g.state = .reading ∧ 2 ≤ m.dataLen) ↔ 2 ≤ m.dataBytes.length := by
    rw [hlen]
    exact and_iff_right hg
  simp only [settle,received,hcode,htwo,ne_eq,not_true_eq_false,if_false]

theorem poll_answered {g : Tag} {m : ExplicitMessage} {t : TcpConnection} {w : World} {r : Reply}
    (hg : g.state = .reading) (hm : m.inFlight = true) (hok : (m.poll t w).1 = .ok)
    (hrx : (m.poll t w).2.1.io.rx = r.bytes) :
    if r.status = 0 then (g.poll m t w).1 = .ok ∧ (g.poll m t w).2.1 = g.received r.data
    else (g.poll m t w).1 = .error := by
  obtain ⟨hcode,hdata,hlen⟩ := ExplicitMessage.poll_reply hm hok hrx
  rw [poll_settle (by rw [inFlight,hg]; rfl)]
  rcases hpoll : m.poll t w with ⟨st,m',t',w'⟩
  simp only [hpoll] at hok hcode hdata hlen
  subst hok
  simp only [reduceCtorEq,if_false,if_true]
  by_cases hstatus : r.status = 0
  · rw [if_pos hstatus,settle_reading hg (hcode.trans hstatus) (by rw [hdata]; exact hlen),hdata]
    exact ⟨rfl,rfl⟩
  · rw [if_neg hstatus]
    exact settle_refused g (by rw [hcode]; exact hstatus)

theorem received_type {g : Tag} {data : List UInt8} (h : 2 ≤ data.length) :
    (g.received data).dataType = (getU16 data).toUInt8 := by
  simp only [received,if_pos h,receive]

theorem received_bytes {g : Tag} {data : List UInt8} (h : 2 ≤ data.length) :
    (g.received data).data.bytes = store g.data.bytes 0 ((data.drop 2).take kMaxDataSize) := by
  simp only [received,if_pos h]
  rfl

theorem received_length {g : Tag} {data : List UInt8} (h : 2 ≤ data.length) :
    (g.received data).dataLen = min kMaxDataSize (data.length - 2) := by
  simp only [received,if_pos h,receive,List.length_take,List.length_drop]

theorem narrow_iff (v : UInt16) : v.toUInt8.toNat = v.toNat ↔ v.toNat < 2 ^ 8 := by
  rw [UInt16.toNat_toUInt8]
  constructor
  · intro h
    omega
  · exact Nat.mod_eq_of_lt

theorem delivered_iff (g : Tag) (data : List UInt8) : (g.received data).Delivered data ↔
    2 ≤ data.length ∧ data.length ≤ 2 + kMaxDataSize ∧ (getU16 data).toNat < 2 ^ 8 := by
  by_cases htwo : 2 ≤ data.length
  · simp only [Delivered,received_type htwo,received_bytes htwo,received_length htwo,narrow_iff,
      htwo,true_and,store,List.take_zero,List.nil_append]
    constructor
    · rintro ⟨htype,hlen,_⟩
      exact ⟨by omega,htype⟩
    · rintro ⟨hfits,htype⟩
      refine ⟨htype,by omega,?_⟩
      have hlen : min kMaxDataSize (data.length - 2) = (data.drop 2).length := by
        rw [List.length_drop]
        omega
      have hwhole : (data.drop 2).take kMaxDataSize = data.drop 2 :=
        List.take_of_length_le (by rw [← hlen]; exact Nat.min_le_left _ _)
      rw [hlen,hwhole]
      exact List.take_left' rfl
  · simp only [Delivered,htwo,false_and]

-- A read that ends well has delivered its value, and one whose reply is short of a type code or
-- too long for the buffer has failed.
def Delivers (g : Tag) (m : ExplicitMessage) (t : TcpConnection) (w : World)
    (data : List UInt8) : Prop :=
  ((g.poll m t w).1 = .ok → (g.poll m t w).2.1.Delivered data) ∧
    (data.length < 2 ∨ 2 + kMaxDataSize < data.length → (g.poll m t w).1.code < 0)

-- The size and the type code of what a read is answered with are not checked.
theorem read_delivers_iff {g : Tag} {m : ExplicitMessage} {t : TcpConnection} {w : World}
    {r : Reply} (hg : g.state = .reading) (hm : m.inFlight = true) (hok : (m.poll t w).1 = .ok)
    (hrx : (m.poll t w).2.1.io.rx = r.bytes) : g.Delivers m t w r.data ↔
      r.status ≠ 0 ∨ 2 ≤ r.data.length ∧ r.data.length ≤ 2 + kMaxDataSize ∧
        (getU16 r.data).toNat < 2 ^ 8 := by
  have hanswer := poll_answered hg hm hok hrx
  rw [Delivers]
  by_cases hstatus : r.status = 0
  · rw [if_pos hstatus] at hanswer
    rw [hanswer.1,hanswer.2,delivered_iff,or_iff_right (not_not.mpr hstatus)]
    constructor
    · intro h
      exact h.1 rfl
    · intro h
      exact ⟨fun _ => h,fun hsize => absurd hsize (by omega)⟩
  · rw [if_neg hstatus] at hanswer
    rw [hanswer]
    exact iff_of_true ⟨(by simp),fun _ => by decide⟩ (Or.inl hstatus)

end Tag

namespace Sample

theorem seven_is_delivered : sevenBegun.2.1.Delivers sevenBegun.2.2.1 {fd := 3, state := .ok}
    sevenBegun.2.2.2 replySeven.data :=
  (Tag.read_delivers_iff (r := replySeven) (by decide +kernel) (by decide +kernel)
    (by decide +kernel) (by decide +kernel)).mpr (Or.inr (by decide +kernel))

def replyNothing : Reply := answer 1 [0xCC,0,0,0] (by decide) (by decide)

def nothingArrives : World :=
  {sevenBegun.2.2.2 with script := {sends := [.ok 100], recvs := [.ok replyNothing.bytes]}}

theorem nothing_is_delivered :
    (sevenBegun.2.1.poll sevenBegun.2.2.1 {fd := 3, state := .ok} nothingArrives).1 = .ok ∧
      replyNothing.data = [] ∧ ¬ sevenBegun.2.1.Delivers sevenBegun.2.2.1
        {fd := 3, state := .ok} nothingArrives replyNothing.data := by
  have hok : (sevenBegun.2.1.poll sevenBegun.2.2.1 {fd := 3, state := .ok} nothingArrives).1 =
      .ok := by
    decide +kernel
  have hdata : replyNothing.data = [] := by decide +kernel
  refine ⟨hok,hdata,fun h => ?_⟩
  have htwo := (h.1 hok).1
  rw [hdata] at htwo
  exact absurd htwo (by decide)

end Sample

namespace Tag

def Setter.stores : Setter → Option (Nat × List UInt8)
  | .bool off v => within off [if v then 1 else 0]
  | .int8 off v => within off [v.toUInt8]
  | .int16 off v => within off (putU16 v.toUInt16)
  | .int32 off v => within off (putU32 v.toUInt32)
  | .int64 off v => within off (putU64 v.toUInt64)
  | .uint8 off v => within off [v]
  | .uint16 off v => within off (putU16 v)
  | .uint32 off v => within off (putU32 v)
  | .uint64 off v => within off (putU64 v)
  | .float32 off bits => within off (putU32 bits)
  | .float64 off bits => within off (putU64 bits)
  | .string none => none
  | .string (some s) => some (0,putU32 (UInt32.ofNat (s.take (kMaxDataSize - 4)).length) ++
      s.take (kMaxDataSize - 4))
  | .dataType _ => none
where
  within (off : Nat) (bs : List UInt8) : Option (Nat × List UInt8) :=
    if inBounds off bs.length then some (off,bs) else none

def Stored (before after : List UInt8) : Option (Nat × List UInt8) → Prop
  | some (off,bs) => off + bs.length ≤ kMaxDataSize ∧ after = store before off bs
  | none => after = before

theorem setBytes_stored (g : Tag) (off : Nat) (bs : List UInt8) :
    Stored g.data.bytes (g.setBytes off bs).data.bytes (Setter.stores.within off bs) := by
  simp only [Setter.stores.within,setBytes]
  by_cases hin : inBounds off bs.length = true
  · rw [if_pos hin]
    simp only [dif_pos hin]
    refine ⟨?_,rfl⟩
    simp [inBounds] at hin
    omega
  · rw [if_neg hin]
    simp only [dif_neg hin]
    rfl

theorem set_stored (g : Tag) (f : Setter) :
    Stored g.data.bytes (g.set f).data.bytes f.stores := by
  cases f with
  | string s =>
    cases s with
    | none => rfl
    | some s =>
      refine ⟨?_,rfl⟩
      simp [kMaxDataSize]
      omega
  | dataType type => rfl
  | _ => exact setBytes_stored g _ _

-- The byte that a setter stores at an offset, and the one that the last of several does.
def Setter.byte (f : Setter) (i : Nat) : Option UInt8 :=
  match f.stores with
  | some (off,bs) => if off ≤ i ∧ i < off + bs.length then some (bs.getD (i - off) 0) else none
  | none => none

def storedBy (fs : List Setter) (i : Nat) : Option UInt8 := fs.reverse.findSome? (·.byte i)

theorem set_byte (g : Tag) (f : Setter) (i : Nat) :
    (g.set f).data.bytes.getD i 0 = (f.byte i).getD (g.data.bytes.getD i 0) := by
  have h := g.set_stored f
  rw [Setter.byte]
  cases hf : f.stores with
  | none =>
    rw [hf] at h
    rw [h]
    rfl
  | some place =>
    rw [hf] at h
    obtain ⟨hroom,hdata⟩ := h
    rw [hdata,store_byte (by rw [g.data.length_eq]; omega)]
    simp only
    split_ifs <;> rfl

theorem storedBy_cons (f : Setter) (fs : List Setter) (i : Nat) :
    storedBy (f :: fs) i = (storedBy fs i).or (f.byte i) := by
  rw [storedBy,List.reverse_cons,List.findSome?_append,storedBy]
  congr 1
  rw [List.findSome?_singleton]

theorem foldl_byte (g : Tag) (fs : List Setter) (i : Nat) :
    (fs.foldl set g).data.bytes.getD i 0 = (storedBy fs i).getD (g.data.bytes.getD i 0) := by
  induction fs generalizing g with
  | nil => rfl
  | cons f fs ih =>
    rw [List.foldl_cons,ih,storedBy_cons,set_byte]
    cases storedBy fs i <;> rfl

theorem foldl_type {fs : List Setter} (hfs : ∀ f ∈ fs, f.types = false) (g : Tag) :
    (fs.foldl set g).dataType = g.dataType := by
  induction fs generalizing g with
  | nil => rfl
  | cons f fs ih =>
    rw [List.foldl_cons,ih (fun e he => hfs e (List.mem_cons_of_mem _ he))]
    exact set_dataType g (hfs f (List.mem_cons_self ..))

theorem poll_taken {g : Tag} {m : ExplicitMessage} {t : TcpConnection} {w : World}
    (hg : g.state = .reading) (h : (g.poll m t w).1 = .ok) : (m.poll t w).1 = .ok := by
  rw [poll_settle (by rw [inFlight,hg]; rfl)] at h
  rcases hpoll : m.poll t w with ⟨st,m',t',w'⟩
  simp only [hpoll] at h ⊢
  split_ifs at h with hwait hok
  · exact hok
  · exact h

theorem poll_received {g : Tag} {m : ExplicitMessage} {t : TcpConnection} {w : World} {r : Reply}
    (hg : g.state = .reading) (hm : m.inFlight = true) (hok : (g.poll m t w).1 = .ok)
    (hrx : (m.poll t w).2.1.io.rx = r.bytes) : (g.poll m t w).2.1 = g.received r.data := by
  have hanswer := poll_answered hg hm (poll_taken hg hok) hrx
  by_cases hstatus : r.status = 0
  · rw [if_pos hstatus] at hanswer
    exact hanswer.2
  · rw [if_neg hstatus,hok] at hanswer
    cases hanswer

theorem received_byte {g : Tag} {data : List UInt8} (htwo : 2 ≤ data.length) {i : Nat}
    (hsize : i < kMaxDataSize) (hi : i + 2 < data.length) :
    (g.received data).data.bytes.getD i 0 = data.getD (i + 2) 0 := by
  rw [received_bytes htwo,store_byte (Nat.zero_le _),if_pos ⟨Nat.zero_le _,by
    rw [List.length_take,List.length_drop]; omega⟩,Nat.sub_zero]
  simp only [List.getD_eq_getElem?_getD]
  rw [List.getElem?_take_of_lt hsize,List.getElem?_drop,Nat.add_comm]

end Tag

namespace Access

open Tag (storedBy)

-- A write carries the type code of the reply, and a value of which each byte was last stored by
-- a setter or else came with the reply.
def Faithful (data : List UInt8) (fs : List Tag.Setter) (frame : List UInt8) : Prop :=
  ∃ q value, unconnectedRequest (frame.drop kEncapsulationHeaderSize) = some q ∧
    q.service = 0x4D ∧ 2 ≤ data.length ∧ q.rest.drop 2 = data.take 2 ++ value ∧
    ∀ i, i < value.length →
      match storedBy fs i with
      | some b => value.getD i 0 = b
      | none => i + 2 < data.length ∧ value.getD i 0 = data.getD (i + 2) 0

-- What the reply and the setters supply for a write.
def Supplied (a : Access) (data : List UInt8) (fs : List Tag.Setter) : Prop :=
  2 ≤ data.length ∧ (getU16 data).toNat < 2 ^ 8 ∧
    ∀ i, i < a.asked → storedBy fs i = none → i + 2 < data.length

theorem payload_write {a : Access} (h : a.kind = .write) :
    a.request.rest.drop 2 = putU16 a.tag.dataType.toUInt16 ++ a.value := by
  rw [request_rest,List.drop_left' (putU16_length _),payload,h]

theorem wide_iff {data : List UInt8} (h : 2 ≤ data.length) :
    putU16 (getU16 data).toUInt8.toUInt16 = data.take 2 ↔ (getU16 data).toNat < 2 ^ 8 := by
  rw [← putU16_getU16 h]
  constructor
  · intro hsame
    have hcode := congrArg getU16 hsame
    rw [← List.append_nil (putU16 _),getU16_putU16,← List.append_nil (putU16 (getU16 data)),
      getU16_putU16] at hcode
    rw [← hcode,UInt8.toNat_toUInt16]
    exact UInt8.toNat_lt _
  · intro hsmall
    congr 1
    apply UInt16.toNat_inj.mp
    rw [UInt8.toNat_toUInt16]
    exact (Tag.narrow_iff _).mpr hsmall

end Access

-- The length of a write is worked out anew, and the type code has lost its high byte.
theorem write_is_faithful_iff {g : Tag} {m m₂ : ExplicitMessage} {t t₂ : TcpConnection}
    {w w₂ : World} {r : Reply} {fs : List Tag.Setter} {a : Access} (hg : g.state = .reading)
    (hm : m.inFlight = true) (hok : (g.poll m t w).1 = .ok)
    (hrx : (m.poll t w).2.1.io.rx = r.bytes) (hfs : ∀ f ∈ fs, f.types = false)
    (hkind : a.kind = .write) (htag : a.tag = fs.foldl Tag.set (g.poll m t w).2.1)
    (htaken : (a.start m₂ t₂ w₂).1 = .pending) :
    Access.Faithful r.data fs (a.start m₂ t₂ w₂).2.2.1.io.tx ↔ a.Supplied r.data fs := by
  rw [Tag.poll_received hg hm hok hrx] at htag
  obtain ⟨_,hvalue,hdecoded⟩ := Access.start_decoded htaken
  obtain ⟨len,hlen,hsize,hfront⟩ := hvalue hkind
  have hpayload := Access.payload_write hkind
  have htype (htwo : 2 ≤ r.data.length) : a.tag.dataType = (getU16 r.data).toUInt8 := by
    rw [htag,Tag.foldl_type hfs,Tag.received_type htwo]
  have hbyte (i : Nat) (hi : i < a.value.length) : a.value.getD i 0 =
      (Tag.storedBy fs i).getD ((g.received r.data).data.bytes.getD i 0) := by
    rw [← Tag.foldl_byte,← htag,List.prefix_iff_eq_take.mp hfront]
    simp only [List.getD_eq_getElem?_getD]
    rw [List.getElem?_take_of_lt hi]
  constructor
  · rintro ⟨q,value,hq,_,htwo,hrest,hall⟩
    rw [hdecoded,Option.some.injEq] at hq
    rw [← hq,hpayload,htype htwo] at hrest
    obtain ⟨hcode,hsame⟩ := List.append_inj hrest (by simp [htwo])
    refine ⟨htwo,(Access.wide_iff htwo).mp hcode,fun i hi hnone => ?_⟩
    have hi := hall i (by rw [← hsame,hsize]; exact hi)
    rw [hnone] at hi
    exact hi.1
  · rintro ⟨htwo,hsmall,hall⟩
    refine ⟨a.request,a.value,hdecoded,?_,htwo,?_,fun i hi => ?_⟩
    · simp only [Access.request,hkind]
      rfl
    · rw [hpayload,htype htwo,(Access.wide_iff htwo).mpr hsmall]
    · have hsame := hbyte i hi
      cases hstored : Tag.storedBy fs i with
      | some b =>
        rw [hstored] at hsame
        exact hsame
      | none =>
        have hin := hall i (hsize ▸ hi) hstored
        rw [hstored,Option.getD_none,
          Tag.received_byte htwo (hi.trans_le a.value_length) hin] at hsame
        exact ⟨hin,hsame⟩

namespace Sample

-- The value that was read is written back with its second byte changed.
def changeSeven : Access where
  kind := .write
  tag := [Tag.Setter.uint8 1 5].foldl Tag.set seven.2.1
  name := [0x41]
  timeoutMs := 1000
  sessionHandle := 7
  script := {}
  polls := 0

theorem changeSeven_is_faithful : Access.Faithful replySeven.data [.uint8 1 5]
    (changeSeven.start seven.2.2.1 seven.2.2.2.1 seven.2.2.2.2).2.2.1.io.tx :=
  (write_is_faithful_iff (g := sevenBegun.2.1) (m := sevenBegun.2.2.1)
    (t := {fd := 3, state := .ok}) (w := sevenBegun.2.2.2) (r := replySeven) (a := changeSeven)
    (by decide +kernel) (by decide +kernel) (by decide +kernel) (by decide +kernel) (by decide) rfl
    rfl (by decide +kernel)).mpr ⟨by decide +kernel,by decide +kernel,by decide +kernel⟩

-- One DINT was read, and two are written.
def writeTwo : Access := {changeSeven with tag := seven.2.1, elementCount := 2}

def writtenTwo : Status × Tag × ExplicitMessage × World :=
  writeTwo.start seven.2.2.1 seven.2.2.2.1 seven.2.2.2.2

theorem writtenTwo_decoded :
    (unconnectedRequest (writtenTwo.2.2.1.io.tx.drop kEncapsulationHeaderSize)).map
      (·.rest.drop 2) = some [0xC4,0,7,0,0,0,0,0,0,0] := by
  decide +kernel

theorem unread_bytes_are_written : seven.1 = .ok ∧ writtenTwo.1 = .pending ∧
    ¬ Access.Faithful replySeven.data [] writtenTwo.2.2.1.io.tx := by
  refine ⟨by decide +kernel,by decide +kernel,?_⟩
  rintro ⟨q,value,hq,_,_,hrest,hall⟩
  have hsent := writtenTwo_decoded
  rw [hq,Option.map_some,Option.some.injEq,hrest] at hsent
  have hdata : replySeven.data = [0xC4,0,7,0,0,0] := by decide +kernel
  have hlen : value.length = 8 := by
    have := congrArg List.length hsent
    simpa [hdata] using this
  exact absurd (hall 4 (by omega)).1 (by rw [hdata]; decide)

end Sample

end ControlLogix
