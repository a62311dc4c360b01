import ControlLogix.Sketch.TagListing

namespace ControlLogix

namespace SyntheticServer

-- main() takes one connection after the other; nothing stands for its end by an exception.
def main (s : SyntheticServer) : List (List UInt8) → Option SyntheticServer
  | [] => some s
  | stream :: streams => (s.handleConnection stream).bind fun r => r.2.main streams

def names (s : SyntheticServer) : List Name := s.tags.map Prod.fst

def Stores (s s' : SyntheticServer) : Prop :=
  s'.tags = s.tags ∨ ∃ path v, s'.tags = Dict.set (parseSymbolicPath path) v s.tags

theorem handleWriteTag_stores (s : SyntheticServer) (path rest : List UInt8) :
    s.Stores (s.handleWriteTag path rest).2 := by
  rw [handleWriteTag]
  split_ifs
  · exact Or.inr ⟨path,_,rfl⟩
  · exact Or.inl rfl

theorem handleCipRequest_stores {s s' : SyntheticServer} {session : UInt32} {service : UInt8}
    {path rest cip : List UInt8} (h : s.handleCipRequest session service path rest = some (cip,s')) :
    s.Stores s' := by
  rw [handleCipRequest] at h
  split at h
  · obtain ⟨_,_,heq⟩ := Option.map_eq_some_iff.mp h
    cases heq
    exact Or.inl rfl
  · split_ifs at h
    · split at h <;> cases h <;> exact Or.inl rfl
    · cases h
      exact Or.inl rfl
    · cases h
      exact Or.inl rfl
    · rw [← show (s.handleWriteTag path rest).2 = s' from congrArg Prod.snd (Option.some.inj h)]
      exact s.handleWriteTag_stores path rest
    · cases h
      exact Or.inl rfl
    · cases h
      exact Or.inl rfl
    · cases h
      exact Or.inl rfl
    · cases h
      exact Or.inl rfl

theorem handleUnitRequest_stores (s : SyntheticServer) (r : Request) :
    s.Stores (s.handleUnitRequest r).2 := by
  rw [handleUnitRequest]
  split_ifs
  · exact Or.inl rfl
  · exact s.handleWriteTag_stores r.path r.rest
  · exact Or.inl rfl

theorem handlePacket_stores {s s' : SyntheticServer} {packet sent : List UInt8}
    (h : s.handlePacket packet = some (sent,s')) : s.Stores s' := by
  simp only [handlePacket] at h
  split_ifs at h
  · obtain ⟨_,_,heq⟩ := Option.map_eq_some_iff.mp h
    cases heq
    exact Or.inl rfl
  · obtain ⟨_,_,heq⟩ := Option.map_eq_some_iff.mp h
    cases heq
    exact Or.inl rfl
  · rw [handleSendRrData] at h
    cases hr : unconnectedRequest (packet.drop kEncapsulationHeaderSize) with
    | none =>
      rw [hr] at h
      cases h
      exact Or.inl rfl
    | some r =>
      simp only [hr] at h
      cases hserve : s.handleCipRequest (decodeHeader packet).session r.service r.path r.rest with
      | none =>
        rw [hserve] at h
        cases h
      | some reply =>
        simp only [hserve] at h
        obtain ⟨_,_,heq⟩ := Option.map_eq_some_iff.mp h
        cases heq
        exact handleCipRequest_stores hserve
  · simp only [handleSendUnitData] at h
    split_ifs at h
    · cases h
      exact Or.inl rfl
    split at h
    · cases h
    · split_ifs at h
      · cases h
        exact Or.inl rfl
      split at h
      · cases h
        exact Or.inl rfl
      · split_ifs at h
        · cases h
          exact Or.inl rfl
        · obtain ⟨_,_,heq⟩ := Option.map_eq_some_iff.mp h
          cases heq
          exact s.handleUnitRequest_stores _
    · cases h
      exact Or.inl rfl
  · cases h
    exact Or.inl rfl

theorem handlePackets_tags {P : Dict Name TagValue → Prop}
    (hset : ∀ path v tags, P tags → P (Dict.set (parseSymbolicPath path) v tags))
    {packets : List (List UInt8)} {s s' : SyntheticServer} {sent : List UInt8} (hs : P s.tags)
    (h : s.handlePackets packets = some (sent,s')) : P s'.tags := by
  induction packets generalizing s sent with
  | nil =>
    cases h
    exact hs
  | cons packet packets ih =>
    rw [handlePackets] at h
    cases hpacket : s.handlePacket packet with
    | none =>
      rw [hpacket] at h
      cases h
    | some r =>
      obtain ⟨bs,mid⟩ := r
      simp only [hpacket] at h
      obtain ⟨⟨more,last⟩,hrest,heq⟩ := Option.map_eq_some_iff.mp h
      cases heq
      refine ih ?_ hrest
      rcases handlePacket_stores hpacket with hsame | ⟨path,v,hsame⟩
      · rw [hsame]
        exact hs
      · rw [hsame]
        exact hset path v _ hs

theorem main_tags {P : Dict Name TagValue → Prop}
    (hset : ∀ path v tags, P tags → P (Dict.set (parseSymbolicPath path) v tags))
    {streams : List (List UInt8)} {s s' : SyntheticServer} (hs : P s.tags)
    (h : s.main streams = some s') : P s'.tags := by
  induction streams generalizing s with
  | nil =>
    cases h
    exact hs
  | cons stream streams ih =>
    obtain ⟨⟨sent,mid⟩,hstream,h⟩ := Option.bind_eq_some_iff.mp h
    exact ih (handlePackets_tags hset hs hstream) h

def Untold (name : Name) : Prop := name.bind encodeAscii = none

instance (name : Name) : Decidable (Untold name) := inferInstanceAs (Decidable (_ = none))

theorem symbolAttributes_raises (name : Name) (typeCode : UInt8) (attrs : List UInt16) :
    symbolAttributes name typeCode attrs = none ↔ 1 ∈ attrs ∧ Untold name := by
  induction attrs with
  | nil => simp [symbolAttributes]
  | cons attr attrs ih =>
    rw [symbolAttributes]
    by_cases hname : attr = 1
    · subst hname
      cases htold : name.bind encodeAscii with
      | none =>
        have hnone : (name.bind fun name => (encodeAscii name).map fun bs =>
            putU32 (UInt32.ofNat name.length) ++ bs) = none := by
          cases name with
          | none => rfl
          | some name =>
            rw [Option.bind_some] at htold ⊢
            rw [htold]
            rfl
        simp [hnone,Untold,htold]
      | some bs =>
        obtain ⟨chars,rfl,henc⟩ := Option.bind_eq_some_iff.mp htold
        simp [henc,ih,Untold]
    · by_cases htype : attr = 2
      · simp [htype,ih]
      · simp [hname,htype,ih,Ne.symm hname]

-- Such a name stands under an instance from start on, the first of the names being idx.
def UntoldFrom (start idx : Nat) (names : List Name) : Prop :=
  ∃ k name, names[k]? = some name ∧ start ≤ idx + k ∧ Untold name

theorem untoldFrom_cons {start idx : Nat} {name : Name} {names : List Name} :
    UntoldFrom start idx (name :: names) ↔
      start ≤ idx ∧ Untold name ∨ UntoldFrom start (idx + 1) names := by
  constructor
  · rintro ⟨k,found,hfound,hstart,huntold⟩
    cases k with
    | zero =>
      cases hfound
      exact Or.inl ⟨hstart,huntold⟩
    | succ k => exact Or.inr ⟨k,found,hfound,by omega,huntold⟩
  · rintro (⟨hstart,huntold⟩ | ⟨k,found,hfound,hstart,huntold⟩)
    · exact ⟨0,name,rfl,hstart,huntold⟩
    · exact ⟨k + 1,found,hfound,by omega,huntold⟩

theorem UntoldFrom.grows {start idx : Nat} {names names' : List Name}
    (h : UntoldFrom start idx names) (hgrows : names <+: names') : UntoldFrom start idx names' := by
  obtain ⟨k,name,hname,hstart,huntold⟩ := h
  obtain ⟨hk,_⟩ := List.getElem?_eq_some_iff.mp hname
  obtain ⟨more,rfl⟩ := hgrows
  exact ⟨k,name,by rw [List.getElem?_append_left hk]; exact hname,hstart,huntold⟩

theorem symbolRecords_raises (start : Nat) (attrs : List UInt16) (idx : Nat)
    (tags : Dict Name TagValue) : symbolRecords start attrs idx tags = none ↔
      1 ∈ attrs ∧ UntoldFrom start idx (tags.map Prod.fst) := by
  induction tags generalizing idx with
  | nil => simp [symbolRecords,UntoldFrom]
  | cons tag tags ih =>
    obtain ⟨name,typeCode,value⟩ := tag
    rw [symbolRecords,List.map_cons,untoldFrom_cons]
    by_cases hskip : idx < start
    · rw [if_pos hskip,ih]
      have hbelow : ¬ start ≤ idx := Nat.not_le.mpr hskip
      tauto
    · rw [if_neg hskip]
      have hreached := Nat.not_lt.mp hskip
      have hraises := symbolAttributes_raises name typeCode attrs
      cases hattrs : symbolAttributes name typeCode attrs with
      | none =>
        have huntold := hraises.mp hattrs
        simp only [true_iff]
        exact ⟨huntold.1,Or.inl ⟨hreached,huntold.2⟩⟩
      | some record =>
        rw [hattrs] at hraises
        simp only [Option.map_eq_none_iff,ih]
        simp only [reduceCtorEq,false_iff] at hraises
        tauto

theorem enumeration_raises (s : SyntheticServer) (start : Nat) (rest : List UInt8) :
    s.handleGetInstanceAttributeList start rest = none ↔
      requestedAttributes rest = none ∨ ∃ attrs, requestedAttributes rest = some attrs ∧
        1 ∈ attrs ∧ UntoldFrom start 1 s.names := by
  rw [handleGetInstanceAttributeList]
  cases hattrs : requestedAttributes rest with
  | none => simp
  | some attrs => simp [symbolRecords_raises,names]

theorem names_kept {s s' : SyntheticServer} {streams : List (List UInt8)}
    (h : s.main streams = some s') : s.names <+: s'.names := by
  refine @main_tags (fun tags => s.names <+: tags.map Prod.fst) (fun path v tags hnames => ?_)
    streams s s' (List.prefix_refl _) h
  rw [Dict.set_keys]
  split_ifs
  · exact hnames
  · exact hnames.trans (List.prefix_append _ _)

theorem names_nodup {s s' : SyntheticServer} (hs : s.names.Nodup) {streams : List (List UInt8)}
    (h : s.main streams = some s') : s'.names.Nodup := by
  refine @main_tags (fun tags => (tags.map Prod.fst).Nodup) (fun path v tags hnames => ?_)
    streams s s' hs h
  rw [Dict.set_keys]
  split_ifs with hmem
  · exact hnames
  · rw [← List.concat_eq_append]
    exact hnames.concat hmem

-- A path counts the characters of a name in a byte.
def Counted (name : Name) : Prop := ∀ chars ∈ name, chars.length < 256

instance (name : Name) : Decidable (Counted name) := inferInstanceAs (Decidable (∀ _ ∈ name, _))

theorem parseSymbolicPath_counted (path : List UInt8) : Counted (parseSymbolicPath path) := by
  intro chars hchars
  unfold parseSymbolicPath at hchars
  split at hchars
  · next nameLen rest =>
    cases hchars
    have hlen : nameLen.toNat < 256 := nameLen.toNat_lt
    rw [decodeAscii,List.length_map,List.length_take]
    omega
  · cases hchars

theorem names_counted {s s' : SyntheticServer} (hs : ∀ name ∈ s.names, Counted name)
    {streams : List (List UInt8)} (h : s.main streams = some s') :
    ∀ name ∈ s'.names, Counted name := by
  refine @main_tags (fun tags => ∀ name ∈ tags.map Prod.fst, Counted name)
    (fun path v tags hnames name hmem => ?_) streams s s' hs h
  rw [Dict.set_keys] at hmem
  split_ifs at hmem
  · exact hnames name hmem
  · rcases List.mem_append.mp hmem with hold | hnew
    · exact hnames name hold
    · rw [List.mem_singleton.mp hnew]
      exact parseSymbolicPath_counted path

theorem tellable_iff {s : SyntheticServer} (hs : ∀ name ∈ s.names, Counted name) :
    ListTags.Tellable s.tags ↔ ¬ UntoldFrom 0 1 s.names := by
  constructor
  · rintro htold ⟨k,name,hname,_,huntold⟩
    obtain ⟨tag,htag,rfl⟩ := List.mem_map.mp (List.mem_of_getElem? hname)
    obtain ⟨chars,bs,hchars,henc,_⟩ := htold tag htag
    rw [Untold,hchars,Option.bind_some,henc] at huntold
    cases huntold
  · intro hall tag htag
    have hmem : tag.1 ∈ s.names := List.mem_map_of_mem htag
    obtain ⟨bs,henc⟩ : ∃ bs, tag.1.bind encodeAscii = some bs := by
      rw [← Option.ne_none_iff_exists']
      intro huntold
      obtain ⟨k,hk⟩ := List.mem_iff_getElem?.mp hmem
      exact hall ⟨k,tag.1,hk,Nat.zero_le _,huntold⟩
    obtain ⟨chars,hchars,henc⟩ := Option.bind_eq_some_iff.mp henc
    have hlen := hs tag.1 hmem chars hchars
    exact ⟨chars,bs,hchars,henc,by omega⟩

end SyntheticServer

open SyntheticServer

namespace Sample

def badWrite : List UInt8 :=
  ({slot := some 0, service := writeTag, path := appendSymbolic [0x80],
    rest := putU16 1 ++ putU16 0xC1 ++ [1]} : Request).frame 7 1

end Sample

end ControlLogix
