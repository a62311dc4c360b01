import ControlLogix.Cip.ShortIo
import ControlLogix.Eip.Layout

namespace ControlLogix

def ReplyHead (rx : List UInt8) (command : Command) (context : UInt64) : Prop :=
  (decodeHeader rx).command = command.code ∧ (decodeHeader rx).status = 0 ∧
    (decodeHeader rx).context = context

namespace ExplicitMessage

-- The frame holds a reply, and cip is what its last unconnected-data item holds.
def Accepts (m : ExplicitMessage) (cip : List UInt8) : Prop :=
  ReplyHead m.io.rx .sendRRData m.sentContext ∧
    ∃ items, FrameItems m.io.rx items ∧ lastItem 0x00B2 items = some cip ∧ 4 ≤ cip.length

theorem pickItems_unconnected (rx pre post : List UInt8) {items : List CpfItem}
    (hrx : rx = pre ++ (itemBytes items ++ post)) (a : Option (Nat × Nat)) :
    ∃ b, pickItems keepData pre.length items a = some b ∧
      match lastItem 0x00B2 items with
      | none => b = a
      | some d => ∃ p rest, b = some (p,d.length) ∧ rx.drop p = d ++ rest := by
  induction items generalizing pre a with
  | nil => exact ⟨a,rfl,rfl⟩
  | cons e items ih =>
    obtain ⟨hsplit,hdrop⟩ := item_next hrx
    obtain ⟨b,hpick,hdata⟩ := ih (pre ++ e.bytes) hsplit
      (if e.type = 0x00B2 then some (pre.length + 4,e.data.length) else a)
    rw [List.length_append,CpfItem.bytes_length,← Nat.add_assoc] at hpick
    refine ⟨b,hpick,?_⟩
    rw [lastItem]
    cases hlast : lastItem 0x00B2 items with
    | some d =>
      rw [hlast] at hdata
      exact hdata
    | none =>
      rw [hlast] at hdata
      by_cases htype : e.type = 0x00B2
      · rw [if_pos htype] at hdata ⊢
        exact ⟨pre.length + 4,_,hdata,hdrop⟩
      · rw [if_neg htype] at hdata ⊢
        exact hdata

theorem locate_frame {rx : List UInt8} {items : List CpfItem} (h : FrameItems rx items) :
    match lastItem 0x00B2 items with
    | none => locate rx = none
    | some cip => if cip.length < 4 then locate rx = none
        else ∃ p rest, locate rx = some (p,cip.length) ∧ rx.drop p = cip ++ rest := by
  obtain ⟨post,hsplit,hlen⟩ := h.split
  obtain ⟨b,hpick,hdata⟩ := pickItems_unconnected rx _ post hsplit none
  rw [hlen] at hpick
  have hwalk := (walkItems_frame h.1).mpr ⟨items,h,hpick⟩
  have hlocate : locate rx = b.bind fun place => if place.2 < 4 then none else some place := by
    simp only [locate,scanItems_eq]
    rw [if_neg (Nat.not_lt.mpr h.1),hwalk]
    cases b <;> rfl
  rw [hlocate]
  cases hlast : lastItem 0x00B2 items with
  | none =>
    rw [hlast] at hdata
    rw [hdata]
    rfl
  | some cip =>
    rw [hlast] at hdata
    obtain ⟨p,rest,hb,hdrop⟩ := hdata
    rw [hb,Option.bind_some]
    simp only
    by_cases hshort : cip.length < 4
    · rw [if_pos hshort,if_pos hshort]
    · rw [if_neg hshort,if_neg hshort]
      exact ⟨p,rest,rfl,hdrop⟩

theorem locate_some {rx : List UInt8} {place : Nat × Nat} (h : locate rx = some place) :
    ∃ items cip, FrameItems rx items ∧ lastItem 0x00B2 items = some cip ∧ 4 ≤ cip.length := by
  have hframe : ∃ items, FrameItems rx items := by
    simp only [locate,scanItems_eq] at h
    split_ifs at h with hshort
    rw [Nat.not_lt] at hshort
    split at h
    · next hwalk =>
      obtain ⟨items,hitems,_⟩ := (walkItems_frame hshort).mp hwalk
      exact ⟨items,hitems⟩
    · cases h
  obtain ⟨items,hitems⟩ := hframe
  have hfound := locate_frame hitems
  cases hlast : lastItem 0x00B2 items with
  | none =>
    rw [hlast,h] at hfound
    cases hfound
  | some cip =>
    rw [hlast] at hfound
    by_cases hshort : cip.length < 4
    · simp only [if_pos hshort] at hfound
      rw [h] at hfound
      cases hfound
    · exact ⟨items,cip,hitems,hlast,Nat.not_lt.mp hshort⟩

-- What the accessors give after a reply: its slices, as many words of additional status as there
-- are bytes for.
structure Exposes (m : ExplicitMessage) (cip : List UInt8) : Prop where
  service : m.replyService = cip.getD 0 0
  code : m.resultCode = cip.getD 2 0
  words : m.addStatusWords.toNat = min (cip.getD 3 0).toNat ((cip.length - 4) / 2)
  status : ∃ p, m.addStatus = some p ∧
    (m.io.rx.drop p).take (2 * m.addStatusWords.toNat) =
      (cip.drop 4).take (2 * m.addStatusWords.toNat)
  data : m.dataBytes = cip.drop (4 + min (2 * (cip.getD 3 0).toNat) (cip.length - 4))
  dataLen : m.dataLen = m.dataBytes.length
  inside : 4 + 2 * m.addStatusWords.toNat + m.dataLen ≤ cip.length

theorem clamped (words : UInt8) (len : Nat) :
    ∃ words' extra, (if len < words.toNat * 2 then (UInt8.ofNat (len / 2),len)
        else (words,words.toNat * 2)) = (words',extra) ∧
      words'.toNat = min words.toNat (len / 2) ∧ extra = min (2 * words.toNat) len := by
  have hbyte := words.toNat_lt
  by_cases hlong : len < words.toNat * 2
  · refine ⟨_,_,if_pos hlong,?_,by omega⟩
    rw [UInt8.toNat_ofNat']
    omega
  · exact ⟨_,_,if_neg hlong,by omega,by omega⟩

theorem parseResponse_exposes {m : ExplicitMessage} {p : Nat} {cip rest : List UInt8}
    (hhead : ReplyHead m.io.rx .sendRRData m.sentContext)
    (hplace : locate m.io.rx = some (p,cip.length)) (hdrop : m.io.rx.drop p = cip ++ rest)
    (hfour : 4 ≤ cip.length) :
    ∃ m', m.parseResponse = (.ok,m') ∧ m'.Exposes cip := by
  have hget (k : Nat) (hk : k < 4) : m.io.rx.getD (p + k) 0 = cip.getD k 0 := by
    have h := congrArg (fun l => l.getD k 0) hdrop
    simp only [List.getD_eq_getElem?_getD,List.getElem?_drop] at h ⊢
    rw [h,List.getElem?_append_left (by omega)]
  have hslice (k n : Nat) (h : k + n ≤ cip.length) :
      (m.io.rx.drop (p + k)).take n = (cip.drop k).take n := by
    rw [← List.drop_drop,hdrop,List.drop_append_of_le_length (by omega),
      List.take_append_of_le_length (by rw [List.length_drop]; omega)]
  have h0 := hget 0 (by omega)
  rw [Nat.add_zero] at h0
  obtain ⟨words,extra,hpair,hwords,hextra⟩ := clamped (cip.getD 3 0) (cip.length - 4)
  simp only [parseResponse]
  rw [if_neg (by rw [hhead.1,hhead.2.1]; simp),if_neg (not_not.mpr hhead.2.2),hplace]
  simp only [h0,hget 2 (by omega),hget 3 (by omega),hpair]
  have hdata : (m.io.rx.drop (p + 4 + extra)).take (cip.length - 4 - extra) =
      cip.drop (4 + extra) := by
    rw [Nat.add_assoc,hslice _ _ (by omega)]
    exact List.take_of_length_le (by rw [List.length_drop]; omega)
  refine ⟨_,rfl,rfl,rfl,hwords,⟨_,rfl,hslice 4 (2 * words.toNat) (by omega)⟩,?_,?_,?_⟩
  · rw [← hextra]
    exact hdata
  · simp only [dataBytes,hdata,List.length_drop]
    omega
  · simp only
    omega

theorem Accepts.parsed {m : ExplicitMessage} {cip : List UInt8} (h : m.Accepts cip) :
    ∃ m', m.parseResponse = (.ok,m') ∧ m'.Exposes cip := by
  obtain ⟨hhead,items,hitems,hlast,hfour⟩ := h
  have hfound := locate_frame hitems
  simp only [hlast,if_neg (Nat.not_lt.mpr hfour)] at hfound
  obtain ⟨p,rest,hplace,hdrop⟩ := hfound
  exact parseResponse_exposes hhead hplace hdrop hfour

theorem accepts_of_ok {m : ExplicitMessage} (h : m.parseResponse.1 = .ok) :
    ∃ cip, m.Accepts cip := by
  simp only [parseResponse] at h
  split_ifs at h with hhead hcontext
  rw [not_or,not_not,not_not] at hhead
  rw [not_not] at hcontext
  cases hplace : locate m.io.rx with
  | none =>
    rw [hplace] at h
    cases h
  | some place =>
    obtain ⟨items,cip,hitems,hlast,hfour⟩ := locate_some hplace
    exact ⟨cip,⟨hhead.1,hhead.2,hcontext⟩,items,hitems,hlast,hfour⟩

def peekLocate (rx : List UInt8) : Option (Option (Nat × Nat)) :=
  let bodyLen := rx.length - kEncapsulationHeaderSize
  if bodyLen < 8 then some none
  else
    (peek rx (kEncapsulationHeaderSize + 6) 2).bind fun itemCount =>
      (peekItems (fun found type p len => some (keepData found type p len)) rx
          (getU16 itemCount).toNat (kEncapsulationHeaderSize + 8) (bodyLen - 8) none).map fun found =>
        match found with
        | some (some (p,len)) => if len < 4 then none else some (p,len)
        | _ => none

def peekResponse (m : ExplicitMessage) : Option (Status × ExplicitMessage) :=
  (peek m.io.rx 0 kEncapsulationHeaderSize).bind fun head =>
    let h := decodeHeader head
    if h.command ≠ Command.code .sendRRData ∨ h.status ≠ 0 then some (.error,m)
    else if h.context ≠ m.sentContext then some (.error,m)
    else
      (peekLocate m.io.rx).bind fun place =>
        match place with
        | none => some (.error,m)
        | some (p,cipLen) =>
          (peek m.io.rx p 1).bind fun service => (peek m.io.rx (p + 2) 1).bind fun code =>
            (peek m.io.rx (p + 3) 1).bind fun words =>
              let words := words.getD 0 0
              let addBytes := words.toNat * 2
              let (words,addBytes) :=
                if cipLen - 4 < addBytes then (UInt8.ofNat ((cipLen - 4) / 2),cipLen - 4)
                else (words,addBytes)
              some (.ok,
                {m with replyService := service.getD 0 0, resultCode := code.getD 0 0,
                        addStatusWords := words, addStatus := some (p + 4),
                        data := some (p + 4 + addBytes), dataLen := cipLen - 4 - addBytes})

theorem peekLocate_eq (rx : List UInt8) : peekLocate rx = some (locate rx) := by
  simp only [peekLocate,locate,scanItems_eq]
  by_cases hshort : rx.length - kEncapsulationHeaderSize < 8
  · rw [if_pos hshort,if_pos hshort]
  rw [if_neg hshort,if_neg hshort,peek_eq (by omega),Option.bind_some,getU16_take,
    peekItems_eq (fun _ _ _ _ _ => rfl) (by omega)]
  rfl

theorem peekResponse_eq {m : ExplicitMessage} (h : kEncapsulationHeaderSize ≤ m.io.rx.length) :
    m.peekResponse = some m.parseResponse := by
  have hhead : decodeHeader (m.io.rx.take kEncapsulationHeaderSize) = decodeHeader m.io.rx :=
    (decodeHeader_front (List.take_prefix _ _) (List.length_take_of_le h).ge).symm
  rw [peekResponse,peek_eq (by omega),Option.bind_some,List.drop_zero]
  simp only [hhead,parseResponse]
  by_cases hcommand : (decodeHeader m.io.rx).command ≠ Command.code .sendRRData ∨
      (decodeHeader m.io.rx).status ≠ 0
  · rw [if_pos hcommand,if_pos hcommand]
  rw [if_neg hcommand,if_neg hcommand]
  by_cases hcontext : (decodeHeader m.io.rx).context ≠ m.sentContext
  · rw [if_pos hcontext,if_pos hcontext]
  rw [if_neg hcontext,if_neg hcontext]
  rw [peekLocate_eq,Option.bind_some]
  cases hplace : locate m.io.rx with
  | none => rfl
  | some place =>
    obtain ⟨p,len⟩ := place
    obtain ⟨hin,hfour⟩ := locate_within hplace
    have hone (k : Nat) : ((m.io.rx.drop (p + k)).take 1).getD 0 0 = m.io.rx.getD (p + k) 0 := by
      rw [getD_take _ (by omega)]
      simp only [List.getD_eq_getElem?_getD,List.getElem?_drop,Nat.add_zero]
    have h0 := hone 0
    rw [Nat.add_zero] at h0
    simp only
    rw [peek_eq (by omega),peek_eq (by omega),peek_eq (by omega)]
    simp only [Option.bind_some,h0,hone]

theorem parseResponse_accepts_iff (m : ExplicitMessage)
    (h : kEncapsulationHeaderSize ≤ m.io.rx.length) :
    (m.parseResponse.1 = .ok ↔ ∃ cip, m.Accepts cip) ∧
      (∀ cip, m.Accepts cip → m.parseResponse.2.Exposes cip) ∧
      (m.parseResponse.1 ≠ .ok → m.parseResponse = (.error,m)) ∧
      m.peekResponse = some m.parseResponse := by
  refine ⟨⟨accepts_of_ok,?_⟩,?_,?_,peekResponse_eq h⟩
  · rintro ⟨cip,hcip⟩
    obtain ⟨m',hparse,_⟩ := hcip.parsed
    rw [hparse]
  · intro cip hcip
    obtain ⟨m',hparse,hexposes⟩ := hcip.parsed
    rw [hparse]
    exact hexposes
  · intro hnot
    rcases m.parseResponse_cases with ⟨m',heq,_⟩ | heq
    · rw [heq] at hnot
      exact absurd rfl hnot
    · exact heq

end ExplicitMessage

theorem Sample.refusal_is_accepted : ∃ cip,
    (Sample.asking (Sample.refusalReply Sample.refusal (by decide)).bytes).Accepts cip :=
  (ExplicitMessage.parseResponse_accepts_iff
    (Sample.asking (Sample.refusalReply Sample.refusal (by decide)).bytes) (by decide)).1.mp
    (by decide)

namespace Connection

-- The frame holds a reply on the connection: of its address items each holds an ID and the last
-- one the connection's, and its last data item begins with the sequence number that was sent.
def Accepts (c : Connection) (item : List UInt8) : Prop :=
  ReplyHead c.io.rx .sendUnitData c.sentContext ∧
    ∃ items address, FrameItems c.io.rx items ∧
      (∀ e ∈ items, e.type = 0x00A1 → 4 ≤ e.data.length) ∧
      lastItem 0x00A1 items = some address ∧ getU32 address = c.toConnId ∧
      lastItem 0x00B1 items = some item ∧ 6 ≤ item.length ∧ getU16 item = c.sentSequence

theorem pickItems_addressed {rx : List UInt8} {items : List CpfItem} {p : Nat}
    {a b : Option UInt32 × Option (Nat × Nat)}
    (h : pickItems (takeConnected rx) p items a = some b) :
    ∀ e ∈ items, e.type = 0x00A1 → 4 ≤ e.data.length := by
  induction items generalizing p a with
  | nil =>
    intro e he
    cases he
  | cons d items ih =>
    rw [pickItems] at h
    cases htake : takeConnected rx a d.type (p + 4) d.data.length with
    | none =>
      rw [htake] at h
      cases h
    | some next =>
      rw [htake] at h
      intro e he htype
      rcases List.mem_cons.mp he with rfl | htail
      · rw [takeConnected,if_pos htype] at htake
        split_ifs at htake with hshort
        exact Nat.not_lt.mp hshort
      · exact ih h e htail htype

theorem connectedItems_frame {rx : List UInt8} {items : List CpfItem} (h : FrameItems rx items)
    (haddr : ∀ e ∈ items, e.type = 0x00A1 → 4 ≤ e.data.length) :
    match lastItem 0x00A1 items, lastItem 0x00B1 items with
    | some address, some item => if item.length < 4 then connectedItems rx = none
        else ∃ p rest, connectedItems rx = some (getU32 address,p,item.length) ∧
          rx.drop p = item ++ rest
    | _, _ => connectedItems rx = none := by
  obtain ⟨post,hsplit,hlen⟩ := h.split
  obtain ⟨⟨connId,place⟩,hpick,hid,hdata⟩ := pickItems_connected rx _ post hsplit haddr (none,none)
  rw [hlen] at hpick
  have hwalk := (walkItems_frame h.1).mpr ⟨items,h,hpick⟩
  simp only [connectedItems]
  rw [if_neg (Nat.not_lt.mpr h.1),hwalk]
  simp only [Option.or_none] at hid
  subst hid
  cases hA : lastItem 0x00A1 items with
  | none => rfl
  | some address =>
    cases hB : lastItem 0x00B1 items with
    | none =>
      simp only [hB] at hdata
      rw [hdata]
      rfl
    | some item =>
      simp only [hB] at hdata
      obtain ⟨p,rest,rfl,hdrop⟩ := hdata
      simp only [Option.map_some]
      by_cases hshort : item.length < 4
      · rw [if_pos hshort,if_pos hshort]
      · rw [if_neg hshort,if_neg hshort]
        exact ⟨p,rest,rfl,hdrop⟩

theorem connectedItems_some {rx : List UInt8} {connId : UInt32} {p len : Nat}
    (h : connectedItems rx = some (connId,p,len)) :
    ∃ items address item rest, FrameItems rx items ∧
      (∀ e ∈ items, e.type = 0x00A1 → 4 ≤ e.data.length) ∧
      lastItem 0x00A1 items = some address ∧ connId = getU32 address ∧
      lastItem 0x00B1 items = some item ∧ 4 ≤ item.length ∧ len = item.length ∧
      rx.drop p = item ++ rest := by
  have hframe : ∃ items, FrameItems rx items ∧
      ∀ e ∈ items, e.type = 0x00A1 → 4 ≤ e.data.length := by
    simp only [connectedItems] at h
    split_ifs at h with hshort
    rw [Nat.not_lt] at hshort
    split at h
    · next hwalk =>
      obtain ⟨items,hitems,hpick⟩ := (walkItems_frame hshort).mp hwalk
      exact ⟨items,hitems,pickItems_addressed hpick⟩
    · cases h
  obtain ⟨items,hitems,haddr⟩ := hframe
  have hfound := connectedItems_frame hitems haddr
  rw [h] at hfound
  cases hA : lastItem 0x00A1 items with
  | none =>
    simp only [hA] at hfound
    cases hfound
  | some address =>
    cases hB : lastItem 0x00B1 items with
    | none =>
      simp only [hA,hB] at hfound
      cases hfound
    | some item =>
      simp only [hA,hB] at hfound
      split_ifs at hfound with hshort
      obtain ⟨q,rest,hq,hdrop⟩ := hfound
      rw [Option.some.injEq,Prod.mk.injEq,Prod.mk.injEq] at hq
      obtain ⟨rfl,rfl,rfl⟩ := hq
      exact ⟨items,address,item,rest,hitems,haddr,hA,rfl,hB,Nat.not_lt.mp hshort,rfl,hdrop⟩

structure Exposes (c : Connection) (item : List UInt8) : Prop where
  service : c.replyService = item.getD 2 0
  code : c.resultCode = item.getD 4 0
  data : c.dataBytes = item.drop 6
  dataLen : c.dataLen = c.dataBytes.length

theorem Accepts.parsed {c : Connection} {item : List UInt8} (h : c.Accepts item) :
    ∃ c', c.parseConnectedResponse = (.ok,c') ∧ c'.Exposes item := by
  obtain ⟨hhead,items,address,hitems,haddr,hA,hid,hB,hsix,hseq⟩ := h
  have hfound := connectedItems_frame hitems haddr
  simp only [hA,hB] at hfound
  rw [if_neg (by omega)] at hfound
  obtain ⟨p,rest,hplace,hdrop⟩ := hfound
  have hget (k : Nat) (hk : k < 6) : c.io.rx.getD (p + k) 0 = item.getD k 0 := by
    have h := congrArg (fun l => l.getD k 0) hdrop
    simp only [List.getD_eq_getElem?_getD,List.getElem?_drop] at h ⊢
    rw [h,List.getElem?_append_left (by omega)]
  have hdata : (c.io.rx.drop (p + 6)).take (item.length - 2 - 4) = item.drop 6 := by
    rw [← List.drop_drop,hdrop,List.drop_append_of_le_length hsix,
      List.take_append_of_le_length (by rw [List.length_drop]; omega)]
    exact List.take_of_length_le (by rw [List.length_drop]; omega)
  simp only [parseConnectedResponse]
  rw [if_neg (by rw [hhead.1,hhead.2.1]; simp),if_neg (not_not.mpr hhead.2.2),hplace]
  simp only [hdrop,getU16_front (by omega : 2 ≤ item.length)]
  rw [if_neg (not_not.mpr hid),if_neg (not_not.mpr hseq),if_neg (by omega)]
  refine ⟨_,rfl,hget 2 (by omega),hget 4 (by omega),hdata,?_⟩
  simp only [dataBytes,hdata,List.length_drop]
  omega

theorem accepts_of_ok {c : Connection} (h : c.parseConnectedResponse.1 = .ok) :
    ∃ item, c.Accepts item := by
  simp only [parseConnectedResponse] at h
  split_ifs at h with hhead hcontext
  rw [not_or,not_not,not_not] at hhead
  rw [not_not] at hcontext
  cases hplace : connectedItems c.io.rx with
  | none =>
    rw [hplace] at h
    cases h
  | some found =>
    obtain ⟨connId,p,len⟩ := found
    obtain ⟨items,address,item,rest,hitems,haddr,hA,hid,hB,hfour,rfl,hdrop⟩ :=
      connectedItems_some hplace
    simp only [hplace,hdrop,getU16_front (by omega : 2 ≤ item.length)] at h
    split_ifs at h with hconn hseq hsix
    rw [not_not] at hconn hseq
    exact ⟨item,⟨hhead.1,hhead.2,hcontext⟩,items,address,hitems,haddr,hA,hid ▸ hconn,hB,
      by omega,hseq⟩

def peekConnected (rx : List UInt8) (a : Option UInt32 × Option (Nat × Nat)) (type : UInt16)
    (p len : Nat) : Option (Option (Option UInt32 × Option (Nat × Nat))) :=
  if type = 0x00A1 then
    if len < 4 then some none else (peek rx p 4).map fun connId => some (some (getU32 connId),a.2)
  else if type = 0x00B1 then some (some (a.1,some (p,len)))
  else some (some a)

def peekConnectedItems (rx : List UInt8) : Option (Option (UInt32 × Nat × Nat)) :=
  let bodyLen := rx.length - kEncapsulationHeaderSize
  if bodyLen < 8 then some none
  else
    (peek rx (kEncapsulationHeaderSize + 6) 2).bind fun itemCount =>
      (peekItems (peekConnected rx) rx (getU16 itemCount).toNat (kEncapsulationHeaderSize + 8)
          (bodyLen - 8) (none,none)).map fun found =>
        match found with
        | some (some connId,some (p,len)) => if len < 4 then none else some (connId,p,len)
        | _ => none

def peekConnectedResponse (c : Connection) : Option (Status × Connection) :=
  (peek c.io.rx 0 kEncapsulationHeaderSize).bind fun head =>
    let h := decodeHeader head
    if h.command ≠ Command.code .sendUnitData ∨ h.status ≠ 0 then some (.error,c)
    else if h.context ≠ c.sentContext then some (.error,c)
    else
      (peekConnectedItems c.io.rx).bind fun found =>
        match found with
        | none => some (.error,c)
        | some (connId,p,len) =>
          if connId ≠ c.toConnId then some (.error,c)
          else
            (peek c.io.rx p 2).bind fun seq =>
              if getU16 seq ≠ c.sentSequence then some (.error,c)
              else
                let cipLen := len - 2
                if cipLen < 4 then some (.error,c)
                else
                  (peek c.io.rx (p + 2) 1).bind fun service =>
                    (peek c.io.rx (p + 4) 1).bind fun code =>
                      some (.ok,{c with replyService := service.getD 0 0,
                                        resultCode := code.getD 0 0, data := some (p + 6),
                                        dataLen := cipLen - 4})

theorem peekConnectedItems_eq (rx : List UInt8) :
    peekConnectedItems rx = some (connectedItems rx) := by
  have htake (a : Option UInt32 × Option (Nat × Nat)) (type : UInt16) (p len : Nat)
      (hin : p + len ≤ rx.length) : peekConnected rx a type p len =
        some (takeConnected rx a type p len) := by
    rw [peekConnected,takeConnected]
    by_cases htype : type = 0x00A1
    · rw [if_pos htype,if_pos htype]
      by_cases hshort : len < 4
      · rw [if_pos hshort,if_pos hshort]
      · rw [if_neg hshort,if_neg hshort,peek_eq (by omega),Option.map_some,getU32_take]
    · rw [if_neg htype,if_neg htype]
      split <;> rfl
  simp only [peekConnectedItems,connectedItems]
  by_cases hshort : rx.length - kEncapsulationHeaderSize < 8
  · rw [if_pos hshort,if_pos hshort]
  rw [if_neg hshort,if_neg hshort,peek_eq (by omega),Option.bind_some,getU16_take,
    peekItems_eq htake (by omega)]
  rfl

theorem peekConnectedResponse_eq {c : Connection}
    (h : kEncapsulationHeaderSize ≤ c.io.rx.length) :
    c.peekConnectedResponse = some c.parseConnectedResponse := by
  have hhead : decodeHeader (c.io.rx.take kEncapsulationHeaderSize) = decodeHeader c.io.rx :=
    (decodeHeader_front (List.take_prefix _ _) (List.length_take_of_le h).ge).symm
  rw [peekConnectedResponse,peek_eq (by omega),Option.bind_some,List.drop_zero]
  simp only [hhead,parseConnectedResponse]
  by_cases hcommand : (decodeHeader c.io.rx).command ≠ Command.code .sendUnitData ∨
      (decodeHeader c.io.rx).status ≠ 0
  · rw [if_pos hcommand,if_pos hcommand]
  rw [if_neg hcommand,if_neg hcommand]
  by_cases hcontext : (decodeHeader c.io.rx).context ≠ c.sentContext
  · rw [if_pos hcontext,if_pos hcontext]
  rw [if_neg hcontext,if_neg hcontext]
  rw [peekConnectedItems_eq,Option.bind_some]
  cases hplace : connectedItems c.io.rx with
  | none => rfl
  | some found =>
    obtain ⟨connId,p,len⟩ := found
    obtain ⟨_,_,_,_,_,_,_,_,_,hfour,hlen,_⟩ := connectedItems_some hplace
    have hin := connectedItems_within hplace
    have hone (k : Nat) : ((c.io.rx.drop (p + k)).take 1).getD 0 0 = c.io.rx.getD (p + k) 0 := by
      rw [getD_take _ (by omega)]
      simp only [List.getD_eq_getElem?_getD,List.getElem?_drop,Nat.add_zero]
    simp only
    by_cases hconn : connId = c.toConnId
    · rw [if_neg (not_not.mpr hconn),if_neg (not_not.mpr hconn),peek_eq (by omega)]
      simp only [Option.bind_some,getU16_take]
      split_ifs with hseq hsix
      · rfl
      · rfl
      · rw [peek_eq (by omega),peek_eq (by omega)]
        simp only [Option.bind_some,hone]
    · rw [if_pos hconn,if_pos hconn]

theorem parseConnectedResponse_accepts_iff (c : Connection)
    (h : kEncapsulationHeaderSize ≤ c.io.rx.length) :
    (c.parseConnectedResponse.1 = .ok ↔ ∃ item, c.Accepts item) ∧
      (∀ item, c.Accepts item → c.parseConnectedResponse.2.Exposes item) ∧
      (c.parseConnectedResponse.1 ≠ .ok → c.parseConnectedResponse = (.error,c)) ∧
      c.peekConnectedResponse = some c.parseConnectedResponse := by
  refine ⟨⟨accepts_of_ok,?_⟩,?_,?_,peekConnectedResponse_eq h⟩
  · rintro ⟨item,hitem⟩
    obtain ⟨c',hparse,_⟩ := hitem.parsed
    rw [hparse]
  · intro item hitem
    obtain ⟨c',hparse,hexposes⟩ := hitem.parsed
    rw [hparse]
    exact hexposes
  · intro hnot
    rcases c.parseConnectedResponse_cases with ⟨c',_,_,heq,_⟩ | heq
    · rw [heq] at hnot
      exact absurd rfl hnot
    · exact heq

end Connection

theorem Sample.refusal_is_accepted_connected : ∃ item,
    (Sample.sending (Sample.refusalFrame Sample.refusal (by decide)).bytes).Accepts item :=
  (Connection.parseConnectedResponse_accepts_iff
    (Sample.sending (Sample.refusalFrame Sample.refusal (by decide)).bytes) (by decide)).1.mp
    (by decide)

end ControlLogix
