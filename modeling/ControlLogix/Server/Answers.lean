import ControlLogix.Cip.ShortIo
import ControlLogix.Eip.Carrier
import ControlLogix.Library.Dict
import ControlLogix.Server.Dispatch

namespace ControlLogix

theorem Reply.data_plain {r : Reply} (h : r.cip.getD 3 0 = 0) : r.data = r.cip.drop 4 := by
  rw [data,extra,h]
  simp

namespace SyntheticServer

def isAscii (name : List UInt8) : Bool := name.all fun b => b < 128

theorem ascii_char : ∀ n : Fin 128, (Char.ofNat n).toNat = n := by decide +kernel

theorem decodeAscii_injective {a b : List UInt8} (ha : isAscii a = true)
    (h : decodeAscii a = decodeAscii b) : a = b := by
  induction a generalizing b with
  | nil =>
    cases b with
    | nil => rfl
    | cons y b => cases h
  | cons x a ih =>
    cases b with
    | nil => cases h
    | cons y b =>
      simp only [isAscii,List.all_cons,Bool.and_eq_true,decide_eq_true_eq] at ha
      obtain ⟨hx,ha⟩ := ha
      simp only [decodeAscii,List.map_cons,List.cons.injEq,if_pos hx] at h
      obtain ⟨hchar,htail⟩ := h
      have hx' : x.toNat < 128 := hx
      have hnum := ascii_char ⟨x.toNat,hx'⟩
      rw [hchar] at hnum
      by_cases hy : y < 128
      · have hy' : y.toNat < 128 := hy
        rw [if_pos hy] at hnum
        have hsame := (ascii_char ⟨y.toNat,hy'⟩).symm.trans hnum
        rw [UInt8.toNat_inj.mp hsame.symm,ih ha htail]
      · rw [if_neg hy] at hnum
        have hbig : ('\uFFFD' : Char).toNat = 65533 := rfl
        rw [hbig] at hnum
        simp only at hnum
        omega

theorem parseSymbolicPath_append {name : List UInt8} (h : name.length ≤ kMaxSymbolicName) :
    parseSymbolicPath (appendSymbolic name) = some (decodeAscii name) := by
  have hlen : (UInt8.ofNat name.length).toNat = name.length := by
    simp only [kMaxSymbolicName] at h
    rw [UInt8.toNat_ofNat']
    omega
  simp only [appendSymbolic,if_neg (Nat.not_lt.mpr h),kSegmentSymbolic,List.take_length,
    List.cons_append,List.nil_append]
  rw [parseSymbolicPath,hlen,List.take_left]

theorem appendSymbolic_even (name : List UInt8) : (appendSymbolic name).length % 2 = 0 := by
  have hcap : (if kMaxSymbolicName < name.length then kMaxSymbolicName else name.length) ≤
      name.length := by
    split <;> omega
  rw [appendSymbolic]
  generalize (if kMaxSymbolicName < name.length then kMaxSymbolicName else name.length) = len at *
  simp only [List.length_append,List.length_cons,List.length_nil,List.length_take,
    Nat.min_eq_left hcap]
  split_ifs <;> simp <;> omega

-- The map from names to values that a server stands for.
def memory (s : SyntheticServer) : Memory Name TagValue := Dict.memory s.tags

-- The longest value a connection can read back.
def kMaxValue : Nat := 502

def Bounded (s : SyntheticServer) : Prop := ∀ e ∈ s.tags, e.2.2.length ≤ kMaxValue

theorem init_bounded : Bounded init := by
  intro e he
  have hall : ∀ e ∈ init.tags, e.2.2.length ≤ kMaxValue := by decide +kernel
  exact hall e he

theorem handleReadTag_found {s : SyntheticServer} {path : List UInt8} {v : TagValue}
    (h : Dict.get (parseSymbolicPath path) s.tags = some v) :
    s.handleReadTag path = [readTag ||| 0x80,0,0,0] ++ putU16 v.1.toUInt16 ++ v.2 := by
  rw [handleReadTag,h]

theorem handleReadTag_missing {s : SyntheticServer} {path : List UInt8}
    (h : Dict.get (parseSymbolicPath path) s.tags = none) :
    s.handleReadTag path = [readTag ||| 0x80,0,0x04,0] := by
  rw [handleReadTag,h]

theorem handleReadTag_length {s : SyntheticServer} (h : s.Bounded) (path : List UInt8) :
    4 ≤ (s.handleReadTag path).length ∧ (s.handleReadTag path).length ≤ 6 + kMaxValue := by
  cases hget : Dict.get (parseSymbolicPath path) s.tags with
  | none =>
    rw [handleReadTag_missing hget]
    simp [kMaxValue]
  | some v =>
    have hle : v.2.length ≤ kMaxValue :=
      Dict.get_all (P := fun v : TagValue => v.2.length ≤ kMaxValue) h hget
    rw [handleReadTag_found hget]
    simp
    omega

theorem handleWriteTag_stored (s : SyntheticServer) (path : List UInt8) {rest : List UInt8}
    (h : 4 ≤ rest.length) : s.handleWriteTag path rest = ([writeTag ||| 0x80,0,0,0],
      {s with tags := Dict.set (parseSymbolicPath path)
                ((getU16 (rest.drop 2)).toUInt8,rest.drop 4) s.tags}) := by
  rw [handleWriteTag,if_pos h]

theorem handleWriteTag_length (s : SyntheticServer) (path rest : List UInt8) :
    (s.handleWriteTag path rest).1.length = 4 := by
  rw [handleWriteTag]
  split <;> rfl

theorem handleWriteTag_bounded {s : SyntheticServer} (h : s.Bounded) (path : List UInt8)
    {rest : List UInt8} (hrest : rest.length ≤ 4 + kMaxValue) :
    (s.handleWriteTag path rest).2.Bounded := by
  rw [handleWriteTag]
  split
  · exact Dict.set_all (P := fun v : TagValue => v.2.length ≤ kMaxValue) h (by simp; omega)
  · exact h

theorem handleCipRequest_read (s : SyntheticServer) (session : UInt32) (path rest : List UInt8) :
    s.handleCipRequest session readTag path rest = some (s.handleReadTag path,s) := rfl

theorem handleCipRequest_write (s : SyntheticServer) (session : UInt32) (path rest : List UInt8) :
    s.handleCipRequest session writeTag path rest = some (s.handleWriteTag path rest) := rfl

theorem answer_fits {cip : List UInt8} (hfits : cip.length ≤ ExplicitMessage.kMaxCipData) :
    8 + (itemBytes ([⟨cpfNullAddress,[]⟩] ++ [⟨0x00B2,cip⟩])).length ≤
      16 + ExplicitMessage.kMaxCipData + ExplicitMessage.kRoutedOverhead := by
  simp only [ExplicitMessage.kMaxCipData,ExplicitMessage.kRoutedOverhead] at hfits ⊢
  simp
  omega

def answer (context : UInt64) (cip : List UInt8) (hcip : 4 ≤ cip.length)
    (hfits : cip.length ≤ ExplicitMessage.kMaxCipData) : Reply where
  session := sessionHandle
  context := context
  leading := [⟨cpfNullAddress,[]⟩]
  cip := cip
  cip_length := hcip
  trailing_type := Reply.no_trailing
  fits := answer_fits hfits

theorem unconnectedReply_answer (context : UInt64) {cip : List UInt8} (hcip : 4 ≤ cip.length)
    (hfits : cip.length ≤ ExplicitMessage.kMaxCipData) :
    unconnectedReply context cip = some (answer context cip hcip hfits).bytes := by
  simp only [ExplicitMessage.kMaxCipData] at hfits
  have hbody : putU32 0 ++ putU16 0 ++ putU16 2 ++ putU16 cpfNullAddress ++ putU16 0 ++
      putU16 cpfUnconnectedData ++ putU16 (UInt16.ofNat cip.length) ++ cip =
      (answer context cip hcip hfits).body := by
    simp only [Reply.body,Reply.items,answer,cpfBody,itemBytes_cons,itemBytes_nil,CpfItem.bytes,
      List.cons_append,List.nil_append,List.append_assoc,List.append_nil]
    rfl
  have hlen := (answer context cip hcip hfits).body_length
  have hfit := (answer context cip hcip hfits).fits
  simp only [ExplicitMessage.kMaxCipData,ExplicitMessage.kRoutedOverhead] at hfit
  rw [unconnectedReply,if_neg (by omega),hbody,sendPacket,if_neg ?_]
  · rfl
  · rw [hlen]
    simp only [Reply.items]
    omega

theorem handleConnection_request (s : SyntheticServer) {r : Request} (hplain : r.plain)
    (hfits : r.fits) (session : UInt32) (context : UInt64) {cip : List UInt8}
    {s' : SyntheticServer} (h : s.handleCipRequest session r.service r.path r.rest = some (cip,s'))
    (hcip : 4 ≤ cip.length) (hsmall : cip.length ≤ ExplicitMessage.kMaxCipData) :
    s.handleConnection (r.frame session context) =
      some ((answer context cip hcip hsmall).bytes,s') := by
  have hpacket := s.handleConnection_packet (r.frame_encapsulated hfits session context) []
  rw [List.append_nil,s.handlePacket_frame hplain hfits,h] at hpacket
  simp only [unconnectedReply_answer context hcip hsmall] at hpacket
  rw [hpacket]
  simp [handleConnection,Packets.cut_nil,handlePackets]

end SyntheticServer

open SyntheticServer in
theorem Carrier.exchange_answered {T : Type} (C : Carrier T ExplicitMessage.exchanger) {x : T}
    {m : ExplicitMessage} {r : Request} {session deadline : UInt32} {t : TcpConnection} {w : World}
    {n : Nat} {s s' : SyntheticServer} {cip : List UInt8} (hx : C.carries x = true)
    (hget : C.get x = m.issued (r.frame session m.context) deadline) (hplain : r.plain)
    (hfits : r.fits) (hserve : s.handleCipRequest session r.service r.path r.rest = some (cip,s'))
    (hcip : 4 ≤ cip.length) (hsmall : cip.length ≤ ExplicitMessage.kMaxCipData) (hlive : t.live)
    (hcalm : w.script.calm = true) (htimely : C.exchanger.Timely n x t w)
    (hend : (C.exchanger.polls n x t w).1 ≠ .pending)
    (harrives : arriving w.script.recvs = ((s.handleConnection
      (sentBetween w.log (C.exchanger.polls n x t w).2.2.2.log)).map Prod.fst).getD []) :
    ∃ (p : Reply) (m' : ExplicitMessage) (w' : World), p.cip = cip ∧ m'.inFlight = false ∧
      m'.resultCode = p.status ∧ m'.dataBytes = p.data ∧ m'.dataLen = p.data.length ∧
      C.exchanger.polls n x t w =
        ((C.win (C.set x m')).1,(C.win (C.set x m')).2,t,w') ∧
      s.handleConnection (sentBetween w.log (C.exchanger.polls n x t w).2.2.2.log) =
        some (p.bytes,s') := by
  let frame := r.frame session m.context
  let m₀ := m.issued frame deadline
  let p := answer m.context cip hcip hsmall
  have hbusy : C.exchanger.busy x = true := by
    simp only [Carrier.exchanger,hx,hget]
    rfl
  have hload : C.exchanger.io x = Transfer.load frame := by
    simp only [Carrier.exchanger,hget]
    rfl
  -- The request has left whole, so the server has answered it.
  obtain ⟨y,hall,htraffic⟩ := Exchanger.polls_sent hbusy hload hlive hcalm htimely hend
  have hserved : s.handleConnection (sentBetween w.log (C.exchanger.polls n x t w).2.2.2.log) =
      some (p.bytes,s') := by
    rw [htraffic.sentBetween hall]
    exact s.handleConnection_request hplain hfits session m.context hserve hcip hsmall
  rw [hserved] at harrives
  replace harrives : arriving w.script.recvs = p.bytes := harrives
  obtain ⟨w',hrun,_⟩ := Exchanger.polls_packet hbusy hload hlive hcalm htimely harrives
    p.encapsulated p.small hend
  -- The message takes the answer, and its owner what the message has taken.
  obtain ⟨m',hparse,_,_,hcode,hdata,hlen⟩ := ExplicitMessage.parseResponse_reply (r := p)
    (m := {m₀ with io := Exchanger.loaded frame p.bytes p.bytes.length, state := .receiving})
    List.take_length rfl
  have hmessage : ExplicitMessage.exchanger.finish m₀
      (Exchanger.loaded frame p.bytes p.bytes.length) = (.ok,{m' with state := .done}) := by
    simp only [ExplicitMessage.exchanger,hparse]
    rfl
  have hfinish : C.exchanger.finish x (Exchanger.loaded frame p.bytes p.bytes.length) =
      C.win (C.set x {m' with state := .done}) := by
    simp only [Carrier.exchanger,hget]
    rw [hmessage]
    rfl
  exact ⟨p,{m' with state := .done},w',rfl,rfl,hcode,hdata,hlen,by rw [hrun,hfinish],hserved⟩

end ControlLogix
