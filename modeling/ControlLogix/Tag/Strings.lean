import ControlLogix.Tag.Typed

namespace ControlLogix

open LittleEndian

namespace Tag

-- The characters a STRING has room for, and a C string as a reader of the buffer sees it.
def kMaxStringSize : Nat := kMaxDataSize - 4

def cString (buf : List UInt8) : List UInt8 := buf.takeWhile (· ≠ 0)

-- getString() on arrays that fault outside: the bytes below dataLength() and the caller's buffer.
def getStringBytes (data buf : List UInt8) : Option (Nat × List UInt8) :=
  if data.length < 4 ∨ buf.length = 0 then some (0,buf)
  else
    (fetch data 0 4).bind fun head =>
      let len := value head
      let n := if len < data.length - 4 then len else data.length - 4
      let n := if buf.length - 1 < n then buf.length - 1 else n
      (fetch data 4 n).bind fun chars =>
        (put buf 0 chars).bind fun buf => (put buf n [0]).map fun buf => (n,buf)

theorem setString_bytes (g : Tag) (s : List UInt8) :
    (g.setString (some s)).data.bytes =
      putU32 (UInt32.ofNat (s.take kMaxStringSize).length) ++ s.take kMaxStringSize ++
        g.data.bytes.drop (4 + (s.take kMaxStringSize).length) := by
  simp [setString,Buffer.write,store,kMaxStringSize]

theorem setString_length (g : Tag) (s : List UInt8) :
    (g.setString (some s)).dataLen = 4 + min kMaxStringSize s.length := by
  simp [setString,kMaxStringSize]

theorem setString_type (g : Tag) (s : List UInt8) :
    (g.setString (some s)).dataType = g.dataType := rfl

theorem setString_count (g : Tag) (s : List UInt8) :
    (getU32 (g.setString (some s)).data.bytes).toNat = min kMaxStringSize s.length := by
  have hle : min kMaxStringSize s.length ≤ 252 := Nat.min_le_left _ _
  rw [setString_bytes,List.append_assoc,getU32_putU32,List.length_take,UInt32.toNat_ofNat']
  exact Nat.mod_eq_of_lt (by omega)

theorem store_string (buf chars : List UInt8) :
    store (store buf 0 chars) chars.length [0] = chars ++ 0 :: buf.drop (chars.length + 1) := by
  have hfirst : store buf 0 chars = chars ++ buf.drop chars.length := store_next [] buf chars rfl
  rw [hfirst,store_next _ _ _ rfl,List.drop_drop,List.append_assoc]
  rfl

theorem setString_chars (g : Tag) (s : List UInt8) {n : Nat}
    (hn : n ≤ min kMaxStringSize s.length) :
    ((g.setString (some s)).data.bytes.drop 4).take n = s.take n := by
  have hlen : n ≤ (s.take kMaxStringSize).length := by rwa [List.length_take]
  rw [setString_bytes,List.append_assoc,List.drop_left' (putU32_length _),
    List.take_append_of_le_length hlen,List.take_take,
    Nat.min_eq_left (hn.trans (Nat.min_le_left _ _))]

theorem setString_getString (g : Tag) (s : List UInt8) {buf : List UInt8} (hbuf : buf ≠ []) :
    let n := min (min s.length kMaxStringSize) (buf.length - 1)
    (g.setString (some s)).getString (some buf) =
      (n,some (s.take n ++ 0 :: buf.drop (n + 1))) := by
  intro n
  have hcap : 0 < buf.length := List.length_pos_iff.mpr hbuf
  have hnle : n ≤ min s.length kMaxStringSize := Nat.min_le_left _ _
  have hncap : n ≤ buf.length - 1 := Nat.min_le_right _ _
  rw [Nat.min_comm] at hnle
  have hchars : (s.take n).length = n :=
    List.length_take_of_le (hnle.trans (Nat.min_le_right _ _))
  have hcount : (if buf.length - 1 < min kMaxStringSize s.length then buf.length - 1
      else min kMaxStringSize s.length) = n := by
    simp only [n,Nat.min_comm s.length]
    split
    · omega
    · omega
  have hstore := store_string buf (s.take n)
  rw [hchars] at hstore
  simp only [getString]
  rw [setString_length,setString_count,if_neg (by omega),Nat.add_sub_cancel_left,
    if_neg (Nat.lt_irrefl _),hcount,setString_chars g s hnle,hstore]

theorem cString_getString {s rest : List UInt8} (h : 0 ∉ s) (n : Nat) :
    cString (s.take n ++ 0 :: rest) = s.take n := by
  have hall : ∀ b ∈ s.take n, decide (b ≠ 0) = true := by
    intro b hb
    exact decide_eq_true fun hz => h (hz ▸ List.mem_of_mem_take hb)
  rw [cString,List.takeWhile_append_of_pos hall]
  simp

theorem setString_writeLength {g : Tag} (htype : g.dataType = DataType.code .string)
    (s : List UInt8) (elementCount : UInt32) :
    (g.setString (some s)).writeLength elementCount = some (4 + min kMaxStringSize s.length) := by
  have hle : ¬ kMaxDataSize - 4 < min kMaxStringSize s.length :=
    Nat.not_lt.mpr (Nat.min_le_left _ _)
  rw [writeLength,if_pos ((setString_type g s).trans htype),setString_count]
  simp only [if_neg hle]

theorem setString_payload (g : Tag) (s : List UInt8) :
    (g.setString (some s)).data.bytes.take (4 + min kMaxStringSize s.length) =
      putU32 (UInt32.ofNat (min s.length kMaxStringSize)) ++ s.take kMaxStringSize := by
  rw [setString_bytes]
  have hlen : (putU32 (UInt32.ofNat (s.take kMaxStringSize).length) ++
      s.take kMaxStringSize).length = 4 + min kMaxStringSize s.length := by
    rw [List.length_append,putU32_length,List.length_take]
  rw [← hlen,List.take_left,List.length_take,Nat.min_comm]

def stringRequest (s : List UInt8) (elementCount : UInt32) : List UInt8 :=
  putU16 elementCount.toUInt16 ++ putU16 (DataType.code .string).toUInt16 ++
    (putU32 (UInt32.ofNat (min s.length kMaxStringSize)) ++ s.take kMaxStringSize)

theorem setString_startWrite {g : Tag} (htype : g.dataType = DataType.code .string)
    (s : List UInt8) (m : ExplicitMessage) (t : TcpConnection) (sessionHandle : UInt32)
    (name : List UInt8) (elementCount timeoutMs : UInt32) (cpuSlot : UInt8) (w : World) :
    let g' := g.setString (some s)
    let r := if cpuSlot = kNoRoute then
        m.send t sessionHandle (TagService.code .write) (appendSymbolic name)
          (stringRequest s elementCount) timeoutMs w
      else
        m.sendRouted t sessionHandle cpuSlot (TagService.code .write) (appendSymbolic name)
          (stringRequest s elementCount) timeoutMs w
    g'.startWrite m t sessionHandle name elementCount timeoutMs cpuSlot w =
      if r.1 ≠ .pending then (r.1,g',r.2) else (.pending,{g' with state := .writing},r.2) := by
  intro g' r
  have hpayload : putU16 elementCount.toUInt16 ++ putU16 g'.dataType.toUInt16 ++
      g'.data.bytes.take (4 + min kMaxStringSize s.length) = stringRequest s elementCount := by
    rw [setString_payload g s,stringRequest,setString_type,htype]
  rw [startWrite,setString_writeLength htype]
  simp only [hpayload]
  rfl

theorem range_slice {bs : List UInt8} {off w : Nat} (h : off + w ≤ bs.length) :
    ((List.range w).map fun i => bs.getD (off + i) 0) = (bs.drop off).take w := by
  refine List.ext_getElem (by simp; omega) fun i hi hi' => ?_
  rw [List.length_map,List.length_range] at hi
  simp [List.getD_eq_getElem?_getD,show off + i < bs.length by omega]

theorem getU32_take {bs : List UInt8} {len : Nat} (h4 : 4 ≤ len) (hlen : len ≤ bs.length) :
    value (((bs.take len).drop 0).take 4) = (getU32 bs).toNat := by
  have hfront : ((bs.take len).drop 0).take 4 = bs.take 4 := by
    rw [List.drop_zero,List.take_take,Nat.min_eq_left h4]
  rw [hfront,getU32_toNat]
  match bs, h4.trans hlen with
  | _ :: _ :: _ :: _ :: _, _ => rfl

theorem getString_bounded {g : Tag} (hlen : g.dataLen ≤ kMaxDataSize) (buf : List UInt8) :
    (getStringBytes (g.data.bytes.take g.dataLen) buf).map (fun r => (r.1,some r.2)) =
      some (g.getString (some buf)) := by
  have hroom : g.dataLen ≤ g.data.bytes.length := by rw [g.data.length_eq]; exact hlen
  have hdata : (g.data.bytes.take g.dataLen).length = g.dataLen := List.length_take_of_le hroom
  simp only [getStringBytes,getString,hdata]
  by_cases hshort : g.dataLen < 4 ∨ buf.length = 0
  · rw [if_pos hshort,if_pos hshort]
    rfl
  rw [if_neg hshort,if_neg hshort]
  rw [not_or,Nat.not_lt] at hshort
  obtain ⟨hfour,hcap⟩ := hshort
  rw [fetch_some (by rw [hdata]; omega),range_slice (by rw [hdata]; omega),Option.bind_some,
    getU32_take hfour hroom]
  generalize hcount : (if buf.length - 1 < (if (getU32 g.data.bytes).toNat < g.dataLen - 4 then
    (getU32 g.data.bytes).toNat else g.dataLen - 4) then buf.length - 1
      else if (getU32 g.data.bytes).toNat < g.dataLen - 4 then (getU32 g.data.bytes).toNat
        else g.dataLen - 4) = n
  have hn : n ≤ g.dataLen - 4 ∧ n ≤ buf.length - 1 := by
    rw [← hcount]
    split_ifs <;> omega
  have hchars : ((g.data.bytes.take g.dataLen).drop 4).take n = (g.data.bytes.drop 4).take n := by
    rw [List.drop_take,List.take_take,Nat.min_eq_left hn.1]
  have hsize : ((g.data.bytes.drop 4).take n).length ≤ n := List.length_take_le _ _
  rw [fetch_some (by rw [hdata]; omega),range_slice (by rw [hdata]; omega),Option.bind_some,hchars,
    put_some (by omega),Option.bind_some]
  have hkeep : (store buf 0 ((g.data.bytes.drop 4).take n)).length = buf.length :=
    store_length (by omega)
  rw [put_some (by rw [hkeep,List.length_singleton]; omega)]
  rfl

theorem string_round_trip (g : Tag) (s : List UInt8) :
    let g' := g.setString (some s)
    (∀ buf, buf ≠ [] →
      let n := min (min s.length kMaxStringSize) (buf.length - 1)
      g'.getString (some buf) = (n,some (s.take n ++ 0 :: buf.drop (n + 1))) ∧
        (0 ∉ s → cString (s.take n ++ 0 :: buf.drop (n + 1)) = s.take n)) ∧
    (g.dataType = DataType.code .string → ∀ m t sessionHandle name elementCount timeoutMs cpuSlot w,
      g'.writeLength elementCount = some (4 + min kMaxStringSize s.length) ∧
      let r := if cpuSlot = kNoRoute then
          m.send t sessionHandle (TagService.code .write) (appendSymbolic name)
            (stringRequest s elementCount) timeoutMs w
        else
          m.sendRouted t sessionHandle cpuSlot (TagService.code .write) (appendSymbolic name)
            (stringRequest s elementCount) timeoutMs w
      g'.startWrite m t sessionHandle name elementCount timeoutMs cpuSlot w =
        if r.1 ≠ .pending then (r.1,g',r.2) else (.pending,{g' with state := .writing},r.2)) ∧
    ∀ value g'', Reads g value g'' → ∀ buf,
      (getStringBytes (g''.data.bytes.take g''.dataLen) buf).map (fun r => (r.1,some r.2)) =
        some (g''.getString (some buf)) := by
  intro g'
  refine ⟨fun buf hbuf => ⟨setString_getString g s hbuf,fun hs => cString_getString hs _⟩,
    fun htype m t sessionHandle name elementCount timeoutMs cpuSlot w => ?_,
    fun value g'' hread buf => ?_⟩
  · exact ⟨setString_writeLength htype s elementCount,
      setString_startWrite htype s m t sessionHandle name elementCount timeoutMs cpuSlot w⟩
  · obtain ⟨hvalue,-,hlen,-⟩ := hread.stored
    exact getString_bounded (by rw [hlen]; exact hvalue) buf

end Tag

namespace Sample

open SyntheticServer

-- A STRING comes whose length field says nine, with two characters behind it.
def cutString : List UInt8 := putU32 9 ++ [0x48,0x69]

def replyString : Reply :=
  answer 1 ([0xCC,0,0,0,0xD0,0] ++ cutString) (by decide) (by decide)

def stringBegun : Status × Tag × ExplicitMessage × World :=
  readSeven.tag.read {} {fd := 3, state := .ok} 7 (some [0x41]) 1 1000 kNoRoute
    {idle with script := {sends := [.ok 100], recvs := [.ok replyString.bytes]}}

def stringRead : Status × Tag × ExplicitMessage × TcpConnection × World :=
  stringBegun.2.1.poll stringBegun.2.2.1 {fd := 3, state := .ok} stringBegun.2.2.2

theorem string_reads : Tag.Reads readSeven.tag cutString stringRead.2.1 := by
  refine ⟨{},{fd := 3, state := .ok},7,some [0x41],1,1000,kNoRoute,
    {idle with script := {sends := [.ok 100], recvs := [.ok replyString.bytes]}},
    by decide +kernel,?_⟩
  have hvalue : Tag.supplied stringBegun.2.2.1 {fd := 3, state := .ok} stringBegun.2.2.2 =
      cutString := by
    decide +kernel
  rw [← hvalue]
  exact .polled (by decide +kernel)

theorem cut_string_is_bounded :
    stringRead.2.1.getString (some [1,1,1,1]) = (2,some [0x48,0x69,0,1]) ∧ ∀ buf,
      (Tag.getStringBytes (stringRead.2.1.data.bytes.take stringRead.2.1.dataLen) buf).map
        (fun r => (r.1,some r.2)) = some (stringRead.2.1.getString (some buf)) :=
  ⟨by decide +kernel,(Tag.string_round_trip readSeven.tag []).2.2 cutString _ string_reads⟩

end Sample

end ControlLogix
