import ControlLogix.Sketch.TagSteps

namespace ControlLogix

namespace ListTags

-- The table has room for its tags, and the path of a tag fits in its buffer of 64 bytes.
def Inventory.Sound (v : Inventory) : Prop :=
  v.tags.length ≤ kMaxTags ∧ ∀ tag ∈ v.tags, tag.name.length ≤ 45 ∧ 0 ∉ tag.name

theorem Inventory.Sound.enter {v : Inventory} (h : v.Sound) {name : List UInt8}
    (hname : name.length ≤ 45) (symbolType : UInt16) : (v.enter name symbolType).Sound := by
  obtain ⟨hroom,hnames⟩ := h
  have hnew : (Tag.cString name).length ≤ 45 ∧ 0 ∉ Tag.cString name := by
    refine ⟨(List.takeWhile_prefix _).length_le.trans hname,fun hzero => ?_⟩
    rw [Tag.cString] at hzero
    exact absurd (List.all_eq_true.mp List.all_takeWhile 0 hzero) (by simp)
  simp only [Inventory.enter,Inventory.Sound]
  split_ifs with hmore
  · refine ⟨by simp only [List.length_append,List.length_cons,List.length_nil]; omega,fun tag htag => ?_⟩
    rcases List.mem_append.mp htag with hold | hlast
    · exact hnames tag hold
    · rw [List.mem_singleton.mp hlast]
      exact hnew
  · exact ⟨hroom,hnames⟩

theorem peek_length_le {d bs : List UInt8} {p n : Nat} (h : peek d p n = some bs) :
    bs.length ≤ n := by
  rw [peek] at h
  split_ifs at h
  cases h
  exact List.length_take_le _ _

theorem path_fits {name : List UInt8} (h : name.length ≤ 45) : (appendSymbolic name).length ≤ 64 := by
  have hpad : (if name.length % 2 = 1 then [(0 : UInt8)] else []).length ≤ 1 := by split <;> simp
  rw [appendSymbolic,if_neg (by simp only [kMaxSymbolicName]; omega)]
  simp only [List.length_append,List.length_cons,List.length_nil,List.take_length]
  omega

theorem record_sound {d : List UInt8} {b b' : Batch} {go : Bool} (hb : b.inventory.Sound)
    (h : record d b = some (go,b')) : b'.inventory.Sound := by
  simp only [record] at h
  obtain ⟨_,_,h⟩ := Option.bind_eq_some_iff.mp h
  split at h
  · cases h
    exact hb
  obtain ⟨word,_,h⟩ := Option.bind_eq_some_iff.mp h
  split at h
  · cases h
    exact hb
  obtain ⟨name,hname,h⟩ := Option.bind_eq_some_iff.mp h
  split at h
  · cases h
    exact hb
  · obtain ⟨_,_,h⟩ := Option.map_eq_some_iff.mp h
    cases h
    refine hb.enter ?_ _
    have hcap : (if getU32 word < 45 then getU32 word else 45).toNat ≤ 45 := by
      by_cases hless : getU32 word < 45
      · rw [if_pos hless]
        exact (UInt32.lt_iff_toNat_lt.mp hless).le
      · rw [if_neg hless]
        exact Nat.le_refl _
    exact (peek_length_le hname).trans hcap

theorem enumerate_sound {d : List UInt8} {rounds : Nat} {b b' : Batch} (hb : b.inventory.Sound)
    (h : enumerate rounds d b = some b') : b'.inventory.Sound := by
  induction rounds generalizing b with
  | zero =>
    rw [enumerate] at h
    split_ifs at h
    cases h
    exact hb
  | succ rounds ih =>
    rw [enumerate] at h
    split_ifs at h
    · cases h
      exact hb
    obtain ⟨⟨go,mid⟩,hrecord,h⟩ := Option.bind_eq_some_iff.mp h
    cases go with
    | true => exact ih (record_sound hb hrecord) h
    | false =>
      cases h
      exact record_sound hb hrecord

theorem seek_spec (rest : List TagEntry) (cursor : Nat) :
    ∃ passed left, rest = passed ++ left ∧ seek rest cursor = cursor + passed.length ∧
      (∀ tag ∈ passed, tag.readable = false) ∧ ∀ tag, left[0]? = some tag → tag.readable = true := by
  induction rest generalizing cursor with
  | nil => exact ⟨[],[],rfl,rfl,by simp,by simp⟩
  | cons tag rest ih =>
    rw [seek]
    by_cases hread : tag.readable = true
    · rw [if_pos hread]
      exact ⟨[],tag :: rest,rfl,rfl,by simp,by simpa using hread⟩
    · rw [if_neg hread]
      obtain ⟨passed,left,rfl,hseek,hpassed,hleft⟩ := ih (cursor + 1)
      refine ⟨tag :: passed,left,rfl,by rw [hseek,List.length_cons]; omega,?_,hleft⟩
      rintro t (_ | ⟨_,ht⟩)
      · simpa using hread
      · exact hpassed t ht

def readables (tags : List TagEntry) (below : Nat) : List TagEntry :=
  (tags.take below).filter TagEntry.readable

theorem readables_cursor (s : ListTags) :
    readables s.inventory.tags s.cursor = readables s.inventory.tags s.valueCursor := by
  obtain ⟨passed,left,hsplit,hseek,hpassed,_⟩ := seek_spec (s.inventory.tags.drop s.valueCursor)
    s.valueCursor
  have htake : s.inventory.tags.take s.cursor =
      s.inventory.tags.take s.valueCursor ++ passed := by
    rw [cursor,hseek,List.take_add,hsplit,List.take_left]
  have hnone : passed.filter TagEntry.readable = [] := by
    rw [List.filter_eq_nil_iff]
    intro tag htag
    simp [hpassed tag htag]
  rw [readables,readables,htake,List.filter_append,hnone,List.append_nil]

theorem readable_cursor {s : ListTags} {tag : TagEntry} (h : s.inventory.tags[s.cursor]? = some tag) :
    tag.readable = true := by
  obtain ⟨passed,left,hsplit,hseek,_,hleft⟩ := seek_spec (s.inventory.tags.drop s.valueCursor)
    s.valueCursor
  refine hleft tag ?_
  rw [cursor,hseek,← List.getElem?_drop,hsplit] at h
  rwa [List.getElem?_append_right (Nat.le_refl _),Nat.sub_self] at h

theorem readables_succ {tags : List TagEntry} {n : Nat} {tag : TagEntry} (h : tags[n]? = some tag)
    (hread : tag.readable = true) : readables tags (n + 1) = readables tags n ++ [tag] := by
  rw [readables,readables,List.take_add_one,h,List.filter_append]
  simp [hread]

def Ordered (s : ListTags) : Prop :=
  match s.phase with
  | .waitEthernet | .connect => s.session.free ∧ s.msg.inFlight = false
  | .openSession => s.msg.inFlight = false ∧ (s.session.state = .failed ∨ s.session.hopeful s.conn)
  | .enumerate => s.conn.connected = true ∧ s.msg.inFlight = s.enumerating
  | .readValues => s.msg.inFlight = s.enumerating ∧ (s.enumerating = true →
      ∃ tag, s.inventory.tags[s.valueCursor]? = some tag ∧ tag.readable = true)
  | .done => True

-- The lines of values are those of the tags that can be read, as far as the cursor has come, and
-- of all of them as long as the connection lasts.
structure Kept (s : ListTags) : Prop where
  sound : s.inventory.Sound
  order : (s.values.map Line.tag).Sublist (readables s.inventory.tags s.valueCursor)
  early : s.phase ≠ .readValues → s.phase ≠ .done → s.values = []
  all : s.phase = .readValues → s.conn.connected = true →
    s.values.map Line.tag = readables s.inventory.tags s.valueCursor
  held : Ordered s

theorem finishBatch_cases {s s' : ListTags} (h : s.finishBatch = some s') :
    ∃ b, enumerate (s.msg.dataBytes.length + 1) s.msg.dataBytes {inventory := s.inventory} = some b ∧
      (s.msg.resultCode = 0x06 ∧ s' = {s with inventory := b.inventory, enumerating := false,
                                              nextInstance := b.last + 1} ∨
        s.msg.resultCode ≠ 0x06 ∧ s' = {s with inventory := b.inventory, enumerating := false,
                                               valueCursor := 0, phase := .readValues}) := by
  rw [finishBatch] at h
  obtain ⟨b,hb,h⟩ := Option.map_eq_some_iff.mp h
  refine ⟨b,hb,?_⟩
  simp only at h
  split_ifs at h with hzero hmore
  · exact Or.inr ⟨by rw [hzero]; decide,h.symm⟩
  · exact Or.inl ⟨hmore,h.symm⟩
  · exact Or.inr ⟨hmore,h.symm⟩

theorem ordered_turned {s s' : ListTags} {w w' : World} (h : Ordered s)
    (hturned : Turned s w (some (s',w'))) : Ordered s' := by
  simp only [Ordered] at h ⊢
  cases hturned with
  | ethWaits hs _ => simpa only [hs] using h
  | ethRestarts hs _ _ => simpa only [hs] using h
  | dials hs _ _ => simpa only [hs] using h
  | connecting hs _ _ => simpa only [hs] using h
  | unconnected _ _ _ => trivial
  | connects hs hpoll hopen =>
    simp only [hs] at h
    exact ⟨h.2,Or.inr (Session.open_hopeful h.1 (TcpConnection.poll_connected hpoll) hopen)⟩
  | registers hs hpoll hok hlate herr =>
    simp only [hs] at h ⊢
    exact ⟨h.1,(Session.poll_enrolling h.2 hpoll hok hlate herr).2.2⟩
  | registered hs hpoll =>
    simp only [hs] at h
    exact ⟨(Session.poll_registered h.2 hpoll).1,h.1⟩
  | unregistered _ _ _ => trivial
  | asks hs _ hstart =>
    simp only [hs] at h ⊢
    exact ⟨h.1,ExplicitMessage.sendRouted_flies hstart⟩
  | refused _ _ _ _ => trivial
  | waits hs hgoes hpoll =>
    simp only [hs] at h ⊢
    obtain ⟨hflight,rfl⟩ := ExplicitMessage.flight_waits (h.2.trans hgoes) hpoll
    exact ⟨h.1,hflight.trans hgoes.symm⟩
  | unanswered _ _ _ _ _ => trivial
  | answered hs hgoes hpoll hbatch =>
    simp only [hs] at h
    obtain ⟨hidle,rfl⟩ := ExplicitMessage.flight_taken (h.2.trans hgoes) hpoll
    obtain ⟨_,_,⟨_,rfl⟩ | ⟨_,rfl⟩⟩ := finishBatch_cases hbatch
    · simp only [hs]
      exact ⟨h.1,hidle⟩
    · exact ⟨hidle,fun hc => absurd hc (by simp)⟩
  | ends _ _ => trivial
  | reads hs htag _ hstart =>
    simp only [hs]
    exact ⟨ExplicitMessage.sendRouted_flies hstart,fun _ => ⟨_,htag,readable_cursor htag⟩⟩
  | skips hs _ hidle hst hstart =>
    simp only [hs] at h ⊢
    rw [ExplicitMessage.sendRouted_stays hstart hst]
    exact ⟨h.1,fun hc => by rw [hidle] at hc; cases hc⟩
  | readWaits hs htag hgoes hpoll =>
    simp only [hs] at h ⊢
    exact ⟨(ExplicitMessage.flight_waits (h.1.trans hgoes) hpoll).1.trans hgoes.symm,
      fun _ => ⟨_,htag,readable_cursor htag⟩⟩
  | told hs _ hgoes hpoll hst _ =>
    simp only [hs] at h ⊢
    exact ⟨ExplicitMessage.flight_ends (h.1.trans hgoes) hpoll hst,fun hc => by cases hc⟩
  | closes hs => simp only [hs]

theorem Kept.listing {s s' : ListTags} (h : Kept s) (hs : s.phase ≠ .readValues)
    (hdone : s.phase ≠ .done) (hphase : s'.phase ≠ .readValues) (hvalues : s'.values = s.values)
    (hsound : s'.inventory.Sound) (hheld : Ordered s') : Kept s' := by
  have hnone : s'.values = [] := hvalues.trans (h.early hs hdone)
  exact ⟨hsound,by rw [hnone]; exact List.nil_sublist _,fun _ _ => hnone,
    fun hc => absurd hc hphase,hheld⟩

theorem Kept.reading {s s' : ListTags} (h : Kept s) (hs : s.phase = .readValues)
    (hphase : s'.phase = s.phase) (hinventory : s'.inventory = s.inventory)
    (hcursor : s'.valueCursor = s.cursor) (hvalues : s'.values = s.values)
    (hup : s'.conn.connected = true → s.conn.connected = true) (hheld : Ordered s') : Kept s' := by
  refine ⟨by rw [hinventory]; exact h.sound,?_,fun hc => absurd (hphase.trans hs) hc,
    fun _ hconn => ?_,hheld⟩
  · rw [hvalues,hinventory,hcursor,readables_cursor]
    exact h.order
  · rw [hvalues,hinventory,hcursor,readables_cursor]
    exact h.all hs (hup hconn)

theorem Kept.skips {s : ListTags} (h : Kept s) (hs : s.phase = .readValues) {tag : TagEntry}
    (htag : s.inventory.tags[s.cursor]? = some tag) (hidle : s.enumerating = false) {st : Status}
    (hst : st ≠ .pending) {msg : ExplicitMessage} {w w' : World}
    (hstart : startReadTag s.msg s.conn s.session.handle tag.name w = (st,msg,w'))
    (hheld : Ordered {s with valueCursor := s.cursor + 1, msg := msg}) :
    Kept {s with valueCursor := s.cursor + 1, msg := msg} := by
  have hmsg := h.held
  simp only [Ordered,hs] at hmsg
  refine ⟨h.sound,?_,fun hc => absurd hs hc,fun _ hup => ?_,hheld⟩
  · simp only [readables_succ htag (readable_cursor htag),readables_cursor]
    exact h.order.trans (List.sublist_append_left _ _)
  -- On a connection that is up the request for the tag would have been taken.
  · have htaken := startReadTag_taken (hmsg.1.trans hidle) hup s.session.handle tag.name w
    rw [hstart] at htaken
    exact absurd htaken hst

theorem Kept.told {s : ListTags} (h : Kept s) (hs : s.phase = .readValues) {tag : TagEntry}
    (htag : s.inventory.tags[s.cursor]? = some tag) {line : Line} (hline : line.tag = tag)
    {msg : ExplicitMessage} {conn : TcpConnection}
    (hup : conn.connected = true → s.conn.connected = true)
    (hheld : Ordered {s with valueCursor := s.cursor + 1, msg := msg, conn := conn,
                             values := s.values ++ [line], enumerating := false}) :
    Kept {s with valueCursor := s.cursor + 1, msg := msg, conn := conn,
                 values := s.values ++ [line], enumerating := false} := by
  refine ⟨h.sound,?_,fun hc => absurd hs hc,fun _ hconn => ?_,hheld⟩
  · simp only [readables_succ htag (readable_cursor htag),readables_cursor,List.map_append]
    exact h.order.append (by simp [hline])
  · simp only [readables_succ htag (readable_cursor htag),readables_cursor,List.map_append,
      List.map_cons,List.map_nil,hline]
    rw [h.all hs (hup hconn)]

theorem kept_loop {s s' : ListTags} {w w' : World} (h : Kept s) (hloop : s.loop w = some (s',w')) :
    Kept s' := by
  have hturned := s.loop_turned w
  rw [hloop] at hturned
  have hheld := ordered_turned h.held hturned
  cases hturned with
  | ethWaits hs _ => exact h.listing (by simp [hs]) (by simp [hs]) (by simp [hs]) rfl h.sound hheld
  | ethRestarts hs _ _ =>
    exact h.listing (by simp [hs]) (by simp [hs]) (by simp [hs]) rfl h.sound hheld
  | dials hs _ _ => exact h.listing (by simp [hs]) (by simp [hs]) (by simp) rfl h.sound hheld
  | connecting hs _ _ =>
    exact h.listing (by simp [hs]) (by simp [hs]) (by simp [hs]) rfl h.sound hheld
  | unconnected hs _ _ =>
    exact h.listing (by simp [hs]) (by simp [hs]) (by simp) rfl h.sound hheld
  | connects hs _ _ => exact h.listing (by simp [hs]) (by simp [hs]) (by simp) rfl h.sound hheld
  | registers hs _ _ _ _ =>
    exact h.listing (by simp [hs]) (by simp [hs]) (by simp [hs]) rfl h.sound hheld
  | registered hs _ =>
    exact h.listing (by simp [hs]) (by simp [hs]) (by simp) rfl ⟨Nat.zero_le _,by simp⟩ hheld
  | unregistered hs _ _ =>
    exact h.listing (by simp [hs]) (by simp [hs]) (by simp) rfl h.sound hheld
  | asks hs _ _ => exact h.listing (by simp [hs]) (by simp [hs]) (by simp [hs]) rfl h.sound hheld
  | refused hs _ _ _ => exact h.listing (by simp [hs]) (by simp [hs]) (by simp) rfl h.sound hheld
  | waits hs _ _ => exact h.listing (by simp [hs]) (by simp [hs]) (by simp [hs]) rfl h.sound hheld
  | unanswered hs _ _ _ _ =>
    exact h.listing (by simp [hs]) (by simp [hs]) (by simp) rfl h.sound hheld
  | answered hs _ _ hbatch =>
    obtain ⟨b,hb,hend⟩ := finishBatch_cases hbatch
    have hsound := enumerate_sound (b := {inventory := s.inventory}) h.sound hb
    rcases hend with ⟨_,rfl⟩ | ⟨_,rfl⟩
    · exact h.listing (by simp [hs]) (by simp [hs]) (by simp [hs]) rfl hsound hheld
    · have hnone := h.early (by simp [hs]) (by simp [hs])
      have hempty : readables b.inventory.tags 0 = [] := rfl
      exact ⟨hsound,by simp [hnone],fun hc => absurd rfl hc,fun _ _ => by simp [hnone,hempty],hheld⟩
  | ends hs _ =>
    exact ⟨h.sound,readables_cursor s ▸ h.order,fun _ hc => absurd rfl hc,
      fun hc => absurd hc (by simp),hheld⟩
  | reads hs _ _ _ => exact h.reading hs rfl rfl rfl rfl id hheld
  | skips hs htag hidle hst hstart => exact h.skips hs htag hidle hst hstart hheld
  | readWaits hs _ _ hpoll =>
    exact h.reading hs rfl rfl rfl rfl (fun hup => ExplicitMessage.poll_connected hpoll hup ▸ hup)
      hheld
  | told hs htag _ hpoll _ hline =>
    refine h.told hs htag ?_ (fun hup => ExplicitMessage.poll_connected hpoll hup ▸ hup) hheld
    rw [hline]
    split_ifs <;> rfl
  | closes hs =>
    exact ⟨h.sound,h.order,fun _ hc => absurd hs hc,fun hc => (by rw [hs] at hc; cases hc),hheld⟩

theorem kept_step {o : Option Run} (h : ∀ r, o = some r → Kept r.sketch) (script : Script) :
    ∀ r, Run.step o script = some r → Kept r.sketch := by
  intro r hstep
  obtain ⟨r₀,rfl,hstep⟩ := Option.bind_eq_some_iff.mp hstep
  obtain ⟨⟨s',w'⟩,hloop,rfl⟩ := Option.map_eq_some_iff.mp hstep
  exact kept_loop (h r₀ rfl) hloop

theorem kept_after {w : World} {turns : List Script} {r : Run} (h : Run.after w turns = some r) :
    Kept r.sketch := by
  refine @Runs.invariant_always _ _ Run.step (fun o => ∀ r, o = some r → Kept r.sketch)
    (fun _ script ho => kept_step ho script) _ ?_ turns r h
  rintro _ ⟨⟩
  exact ⟨⟨Nat.zero_le _,by simp [Run.init,setup]⟩,List.nil_sublist _,fun _ _ => rfl,
    fun hs => (by cases hs),⟨by simp [Session.free,Run.init,setup],rfl⟩⟩

end ListTags

open ListTags

theorem values_are_told_once (w : World) (turns : List Script) (r : ListTags.Run)
    (hrun : ListTags.Run.after w turns = some r) :
    let s := r.sketch
    (s.values.map Line.tag).Sublist (s.inventory.tags.filter TagEntry.readable) ∧
      (s.phase = .readValues → s.conn.connected = true →
        s.values.map Line.tag = (s.inventory.tags.take s.valueCursor).filter TagEntry.readable) ∧
      s.inventory.tags.length ≤ kMaxTags ∧
        ∀ tag ∈ s.inventory.tags, (appendSymbolic tag.name).length ≤ 64 := by
  intro s
  obtain ⟨⟨hroom,hnames⟩,horder,_,hall,_⟩ := kept_after hrun
  exact ⟨horder.trans ((List.take_sublist _ _).filter _),hall,hroom,
    fun tag htag => path_fits (hnames tag htag).1⟩

namespace Sample

open SyntheticServer

-- A server of two tags, and the board while the sketch lists and reads them.
def tagServer : SyntheticServer where
  tags := [(some ['A'],0xC4,putU32 7),(some ['B'],0xD0,putU32 0)]

def tagBoard : World := {time := 0, script := {}, log := []}

def tagTurns : List Script :=
  [{ethLinks := [true,true], sockets := [3]},{selects := [1]},
   {sends := [.ok 100], recvs := [.ok (registerReply 7)]},{},{sends := [.ok 5,.error .ewouldblock]},
   {sends := [.ok 200], recvs := [.ok (dataReply 1 ([0xD5,0,0,0] ++
      (symbols 1 tagServer.tags).flatMap Record.bytes))]},
   {},{sends := [.ok 200], recvs := [.ok (dataReply 2 ([0xCC,0,0,0,0xC4,0] ++ putU32 7))]},
   {},{sends := [.ok 200], recvs := [.ok (dataReply 3 ([0xCC,0,0,0,0xD0,0] ++ putU32 0))]}]

theorem tags_are_read : ∃ r, ListTags.Run.after tagBoard tagTurns = some r ∧
    r.sketch.values.map Line.tag =
      [{name := [0x41], symbolType := 0x00C4},{name := [0x42], symbolType := 0x00D0}] := by
  have hfacts : (ListTags.Run.after tagBoard tagTurns).map (fun r => (r.sketch.phase,
      r.sketch.conn.connected,(r.sketch.inventory.tags.take r.sketch.valueCursor).filter
        TagEntry.readable)) = some (.readValues,true,
      [{name := [0x41], symbolType := 0x00C4},{name := [0x42], symbolType := 0x00D0}]) := by
    decide +kernel
  obtain ⟨r,hrun,hfacts⟩ := Option.map_eq_some_iff.mp hfacts
  simp only [Prod.mk.injEq] at hfacts
  obtain ⟨hphase,hup,htags⟩ := hfacts
  exact ⟨r,hrun,((values_are_told_once tagBoard tagTurns r hrun).2.1 hphase hup).trans htags⟩

end Sample

end ControlLogix
