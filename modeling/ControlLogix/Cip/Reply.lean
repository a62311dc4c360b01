import ControlLogix.Cip.ExplicitMessage
import ControlLogix.Eip.Cpf
import ControlLogix.Eip.Readable

namespace ControlLogix

-- A well-formed SendRRData reply that fits the receive buffer: of the unconnected-data items the
-- last counts, and it holds at least the four bytes of a CIP reply header.
structure Reply where
  session : UInt32 := 0
  context : UInt64
  options : UInt32 := 0
  interface : UInt32 := 0
  timeout : UInt16 := 0
  leading : List CpfItem := []
  cip : List UInt8
  trailing : List CpfItem := []
  cip_length : 4 ≤ cip.length
  trailing_type : ∀ e ∈ trailing, e.type ≠ 0x00B2
  fits : 8 + (itemBytes (leading ++ ⟨0x00B2,cip⟩ :: trailing)).length ≤
    16 + ExplicitMessage.kMaxCipData + ExplicitMessage.kRoutedOverhead

namespace Reply

theorem no_trailing : ∀ e ∈ ([] : List CpfItem), e.type ≠ 0x00B2 := by simp

def items (r : Reply) : List CpfItem := r.leading ++ ⟨0x00B2,r.cip⟩ :: r.trailing

def body (r : Reply) : List UInt8 := cpfBody r.interface r.timeout r.items

def header (r : Reply) : EncapsulationHeader where
  command := Command.code .sendRRData
  length := UInt16.ofNat r.body.length
  session := r.session
  context := r.context
  options := r.options

def bytes (r : Reply) : List UInt8 := headerBytes r.header ++ r.body

def status (r : Reply) : UInt8 := r.cip.getD 2 0

-- The bytes of additional status, as many of the announced ones as are there.
def extra (r : Reply) : Nat := min ((r.cip.getD 3 0).toNat * 2) (r.cip.length - 4)

def data (r : Reply) : List UInt8 := r.cip.drop (4 + r.extra)

def cipOffset (r : Reply) : Nat := kEncapsulationHeaderSize + 8 + (itemBytes r.leading).length + 4

theorem body_length (r : Reply) : r.body.length = 8 + (itemBytes r.items).length :=
  cpfBody_length _ _ _

theorem header_length (r : Reply) : r.header.length.toNat = r.body.length := by
  have hfits := r.fits
  simp only [ExplicitMessage.kMaxCipData,ExplicitMessage.kRoutedOverhead] at hfits
  have hbody : r.body.length ≤ 543 := by rw [r.body_length]; exact hfits
  rw [header,UInt16.toNat_ofNat']
  omega

@[simp] theorem decodeHeader_bytes (r : Reply) : decodeHeader r.bytes = r.header :=
  decodeHeader_headerBytes _ _

theorem bytes_length (r : Reply) : r.bytes.length = kEncapsulationHeaderSize + r.body.length := by
  rw [bytes,List.length_append]
  rfl

theorem encapsulated (r : Reply) : Encapsulated r.bytes :=
  encapsulated_headerBytes r.header_length.symm

theorem small (r : Reply) : (decodeHeader r.bytes).length.toNat ≤
    16 + ExplicitMessage.kMaxCipData + ExplicitMessage.kRoutedOverhead := by
  rw [decodeHeader_bytes,header_length,body_length]
  exact r.fits

end Reply

namespace ExplicitMessage

def keepData (found : Option (Nat × Nat)) (type : UInt16) (p len : Nat) :
    Option (Option (Nat × Nat)) :=
  some (if type = 0x00B2 then some (p,len) else found)

theorem scanItems_eq (rx : List UInt8) (count p remaining : Nat) (found : Option (Nat × Nat)) :
    scanItems rx count p remaining found = walkItems keepData rx count p remaining found := by
  induction count generalizing p remaining found with
  | zero => rfl
  | succ count ih =>
    rw [scanItems,walkItems]
    split_ifs with hroom
    · rfl
    · simp only [keepData]
      split_ifs with hfit htype
      · rfl
      · exact ih _ _ _
      · exact ih _ _ _

theorem scanItems_items (pre : List UInt8) {leading trailing : List CpfItem} {cip : List UInt8}
    (hfit : ∀ e ∈ leading ++ ⟨0x00B2,cip⟩ :: trailing, e.data.length < 65536)
    (hquiet : ∀ e ∈ trailing, e.type ≠ 0x00B2) :
    scanItems (pre ++ itemBytes (leading ++ ⟨0x00B2,cip⟩ :: trailing))
        (leading ++ (⟨0x00B2,cip⟩ :: trailing : List CpfItem)).length pre.length
        (itemBytes (leading ++ ⟨0x00B2,cip⟩ :: trailing)).length none =
      some (some (pre.length + (itemBytes leading).length + 4,cip.length)) := by
  have hwalk := walkItems_items keepData pre [] hfit none
  simp only [List.append_nil,List.length_nil,Nat.add_zero] at hwalk
  obtain ⟨found,hfound⟩ := pickItems_total keepData (fun _ _ _ _ => ⟨_,rfl⟩) pre.length
    leading none
  rw [scanItems_eq,hwalk,pickItems_append,hfound,Option.bind_some,pickItems]
  simp only [keepData,if_true]
  exact pickItems_quiet (fun e he _ => by rw [keepData,if_neg (hquiet e he)]) _

end ExplicitMessage

namespace Reply

open ExplicitMessage

theorem item_fits (r : Reply) {e : CpfItem} (h : e ∈ r.items) : e.data.length < 65536 := by
  have hle := item_le_bytes h
  have hfits := r.fits
  simp only [kMaxCipData,kRoutedOverhead] at hfits
  rw [items] at hle
  omega

theorem locate_bytes (r : Reply) : locate r.bytes = some (r.cipOffset,r.cip.length) := by
  have hcount : (getU16 (r.bytes.drop (kEncapsulationHeaderSize + 6))).toNat = r.items.length := by
    have hdrop : r.bytes.drop (kEncapsulationHeaderSize + 6) =
        putU16 (UInt16.ofNat r.items.length) ++ itemBytes r.items := rfl
    have hle := items_le_bytes r.items
    have hfits := r.fits
    simp only [kMaxCipData,kRoutedOverhead] at hfits
    rw [hdrop,getU16_putU16,UInt16.toNat_ofNat']
    rw [items] at hle ⊢
    omega
  have hpre : r.bytes = (headerBytes r.header ++ (putU32 r.interface ++ (putU16 r.timeout ++
      putU16 (UInt16.ofNat r.items.length)))) ++ itemBytes r.items := by
    simp only [bytes,body,cpfBody,List.append_assoc]
  have hscan := scanItems_items (headerBytes r.header ++ (putU32 r.interface ++
    (putU16 r.timeout ++ putU16 (UInt16.ofNat r.items.length)))) (fun e he => r.item_fits he)
      r.trailing_type
  have hbody : r.bytes.length - kEncapsulationHeaderSize = 8 + (itemBytes r.items).length := by
    rw [r.bytes_length,r.body_length]
    omega
  rw [locate]
  simp only [hbody,hcount]
  rw [if_neg (by omega),Nat.add_sub_cancel_left,hpre]
  simp only [items] at hscan ⊢
  have hcip := r.cip_length
  simp only [List.length_append,headerBytes_length,putU32_length,putU16_length] at hscan ⊢
  simp only [kEncapsulationHeaderSize] at *
  rw [hscan]
  simp only [cipOffset,kEncapsulationHeaderSize]
  rw [if_neg (by omega)]

theorem bytes_split (r : Reply) :
    ∃ pre post, r.bytes = pre ++ (r.cip ++ post) ∧ pre.length = r.cipOffset := by
  refine ⟨headerBytes r.header ++ (putU32 r.interface ++ (putU16 r.timeout ++
    (putU16 (UInt16.ofNat r.items.length) ++ (itemBytes r.leading ++
      (putU16 0x00B2 ++ putU16 (UInt16.ofNat r.cip.length)))))),itemBytes r.trailing,?_,?_⟩
  · simp [bytes,body,cpfBody,items,CpfItem.bytes]
  · simp [cipOffset,kEncapsulationHeaderSize]
    omega

theorem cip_getD (r : Reply) {k : Nat} (hk : k < r.cip.length) :
    r.bytes.getD (r.cipOffset + k) 0 = r.cip.getD k 0 := by
  obtain ⟨pre,post,hsplit,hlen⟩ := r.bytes_split
  simp only [hsplit,← hlen,List.getD_eq_getElem?_getD]
  rw [List.getElem?_append_right (by omega),Nat.add_sub_cancel_left,
    List.getElem?_append_left hk]

theorem over_of_front {r : Reply} {x : Transfer} (hp : x.Paced) (hpre : r.bytes <+: x.rx) :
    x.rxExpected ≤ x.rx.length := by
  have hhead := r.encapsulated.header
  have hle := hpre.length_le
  rw [hp.2.2 (Nat.le_trans hhead hle),decodeHeader_front hpre hhead,← r.encapsulated]
  exact hle

theorem no_flood {r : Reply} {rx bs : List UInt8} (hpre : r.bytes <+: bs) (hread : rx <+: bs)
    (hlen : kEncapsulationHeaderSize ≤ rx.length) :
    (decodeHeader rx).length.toNat ≤ 16 + kMaxCipData + kRoutedOverhead := by
  rw [← decodeHeader_front hread hlen,decodeHeader_front hpre r.encapsulated.header]
  exact r.small

end Reply

namespace ExplicitMessage

theorem parseResponse_reply {m : ExplicitMessage} {r : Reply} (hrx : m.io.rx = r.bytes)
    (hcontext : r.context = m.sentContext) :
    ∃ m', m.parseResponse = (.ok,m') ∧ m'.io = m.io ∧ m'.replyService = r.cip.getD 0 0 ∧
      m'.resultCode = r.status ∧ m'.dataBytes = r.data ∧ m'.dataLen = r.data.length := by
  have hcip := r.cip_length
  have hget (k : Nat) (hk : k < 4) : r.bytes.getD (r.cipOffset + k) 0 = r.cip.getD k 0 :=
    r.cip_getD (by omega)
  simp only [parseResponse,hrx,Reply.decodeHeader_bytes,Reply.locate_bytes]
  rw [if_neg (by simp [Reply.header]),if_neg (by simpa [Reply.header] using hcontext)]
  have hextra : (if r.cip.length - 4 < (r.bytes.getD (r.cipOffset + 3) 0).toNat * 2 then
      (UInt8.ofNat ((r.cip.length - 4) / 2),r.cip.length - 4)
      else (r.bytes.getD (r.cipOffset + 3) 0,(r.bytes.getD (r.cipOffset + 3) 0).toNat * 2)).2 =
        r.extra := by
    rw [hget 3 (by omega),Reply.extra]
    split <;> simp only <;> omega
  refine ⟨_,rfl,rfl,?_,hget 2 (by omega),?_,?_⟩
  · exact hget 0 (by omega)
  · simp only [dataBytes,hrx,hextra]
    obtain ⟨pre,post,hsplit,hlen⟩ := r.bytes_split
    have hle : r.extra ≤ r.cip.length - 4 := Nat.min_le_right _ _
    rw [hsplit,← hlen,Nat.add_assoc,← List.drop_drop,List.drop_left,
      List.drop_append_of_le_length (by omega),
      List.take_append_of_le_length (by rw [List.length_drop]; omega),Reply.data]
    exact List.take_of_length_le (by rw [List.length_drop]; omega)
  · simp only [hextra,Reply.data,List.length_drop]
    omega

inductive Turned (m : ExplicitMessage) (t : TcpConnection) (w : World) :
    Status × ExplicitMessage × TcpConnection × World → Prop
  | waits {m' : ExplicitMessage} {w' : World} : m'.inFlight = true → m'.io.Paced →
      (m.io.tx.length ≤ m'.io.txSent → m'.io.rx = m.io.rx ++ readable w.script.recvs ∧
        m'.io.rx.length < m'.io.rxExpected) → Turned m t w (.pending,m',t,w')
  | flooded {m' : ExplicitMessage} {w' : World} : m'.state = .failed →
      kEncapsulationHeaderSize ≤ m'.io.rx.length →
      16 + kMaxCipData + kRoutedOverhead < (decodeHeader m'.io.rx).length.toNat →
      Turned m t w (.error,m',t,w')
  | read {y m' : ExplicitMessage} {st : Status} {w' : World} : Encapsulated y.io.rx →
      y.sentContext = m.sentContext → y.parseResponse = (st,m') →
      Turned m t w (st,{m' with state := if st = .ok then .done else .failed},t,w')

theorem poll_turned {m : ExplicitMessage} {t : TcpConnection} {w : World} (hm : m.inFlight = true)
    (hp : m.io.Paced) (hlive : t.live) (hcalm : w.script.calm = true)
    (hdl : expired w.millis.1 m.deadline = false) : Turned m t w (m.poll t w) := by
  unfold poll
  split
  · next h => simp [h] at hm
  · next h => simp [h] at hm
  · next h => simp [h] at hm
  obtain ⟨st,k,v,hwrite,hcalm',hrecvs,_,hend⟩ := Transfer.writeLoop_calm (x := m.io)
    (w := w.millis.2) (Nat.lt_succ_self _) hlive hcalm
  have hwrite' : m.io.writePending t w.millis.2 = (st,{m.io with txSent := k},t,v) := hwrite
  simp only [hdl,hwrite']
  rcases hend with ⟨rfl,hmore,_⟩ | ⟨rfl,hall,_⟩
  · exact .waits hm hp fun h => absurd hmore (Nat.not_lt.mpr h)
  have hp' : Transfer.Paced {m.io with txSent := k} := hp
  obtain ⟨st,x,v',hread,hdrained,_⟩ := Transfer.readResponse_calm
    (16 + kMaxCipData + kRoutedOverhead) hp' hlive hcalm'
  simp only [hread]
  have hpaced := (Transfer.Read.of_read hread).paced hp'
  cases hdrained with
  | dry hrx hmore =>
    refine .waits rfl (hpaced (by simp)) fun _ => ⟨?_,hmore⟩
    simp only [hrx,hrecvs]
    rfl
  | full hall =>
    have hp'' := hpaced (by simp)
    have hhead := hp''.header hall
    refine .read (y := {m with state := .receiving, io := x}) ?_ rfl rfl
    have hexp := hp''.2.2 hhead
    have hfit := hp''.1
    simp only [Encapsulated]
    omega
  | flooded hlen _ hcap => exact .flooded rfl hlen.ge hcap

theorem Turned.brings {m m' : ExplicitMessage} {t t' : TcpConnection} {w w' : World} {st : Status}
    (h : m.Turned t w (st,m',t',w')) {r : Reply} {bs : List UInt8} (hpre : r.bytes <+: bs)
    (hread : m'.io.rx <+: bs) (hcontext : r.context = m.sentContext) :
    st = .pending ∨
      (st = .ok ∧ m'.state = .done ∧ m'.io.rx = r.bytes ∧ m'.resultCode = r.status) ∧
        m'.dataBytes = r.data ∧ m'.dataLen = r.data.length := by
  cases h with
  | waits => exact Or.inl rfl
  | flooded _ hlen hcap => exact absurd (Reply.no_flood hpre hread hlen) (by omega)
  | @read y m₀ _ _ hbox hsent hparse =>
    have hio : m₀.io = y.io := by
      have hsame := y.parseResponse_io
      rwa [hparse] at hsame
    have hrx : y.io.rx = r.bytes := by
      refine hbox.unique r.encapsulated ?_ hpre
      rw [← hio]
      exact hread
    obtain ⟨m₁,hparse',_,_,hcode,hdata,hlen⟩ := parseResponse_reply hrx (hcontext.trans hsent.symm)
    obtain ⟨rfl,rfl⟩ : st = .ok ∧ m₀ = m₁ := by
      rw [hparse'] at hparse
      simpa [eq_comm] using hparse
    exact Or.inr ⟨⟨rfl,rfl,(congrArg Transfer.rx hio).trans hrx,hcode⟩,hdata,hlen⟩

theorem Turned.takes {m m' : ExplicitMessage} {t t' : TcpConnection} {w w' : World} {st : Status}
    (h : m.Turned t w (st,m',t',w')) {r : Reply} {bs : List UInt8} (hpre : r.bytes <+: bs)
    (hread : m'.io.rx <+: bs) (hcontext : r.context = m.sentContext) :
    st = .pending ∨
      st = .ok ∧ m'.state = .done ∧ m'.io.rx = r.bytes ∧ m'.resultCode = r.status :=
  (h.brings hpre hread hcontext).imp id And.left

theorem Turned.dry {m m' : ExplicitMessage} {t t' : TcpConnection} {w w' : World}
    (h : m.Turned t w (.pending,m',t',w')) (hsent : m.io.tx.length ≤ m'.io.txSent) :
    m'.io.rx = m.io.rx ++ readable w.script.recvs ∧ ∀ r : Reply, ¬ r.bytes <+: m'.io.rx := by
  cases h with
  | waits _ hpaced hdry =>
    obtain ⟨hrx,hmore⟩ := hdry hsent
    refine ⟨hrx,fun r hfront => ?_⟩
    exact absurd (Reply.over_of_front hpaced hfront) (Nat.not_le.mpr hmore)
  | @read y _ _ _ _ _ hparse =>
    rcases y.parseResponse_cases with ⟨_,heq,_⟩ | heq
    · rw [heq] at hparse
      cases hparse
    · rw [heq] at hparse
      cases hparse

end ExplicitMessage

end ControlLogix
