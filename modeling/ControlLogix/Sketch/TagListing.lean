import ControlLogix.Library.Paging
import ControlLogix.Sketch.TagValues

namespace ControlLogix

namespace ListTags

open Paging

-- A reply to a request for the symbols from an instance on: some of them in their order, and in the
-- status whether there are more.
def Page (catalog : List Record) (startInstance : UInt32) (code : UInt8) (data : List UInt8) :
    Prop :=
  ∃ page rest, left Record.key startInstance.toNat catalog = page ++ rest ∧
    data = page.flatMap Record.bytes ∧ data.length ≤ 527 ∧
      (rest = [] ∧ code = 0x00 ∨ rest ≠ [] ∧ page ≠ [] ∧ code = 0x06)

-- The target answers every request of the enumeration with a page of one catalog.
def Honest (catalog : List Record) (o : Option Run) (script : Script) : Prop :=
  ∀ r, o = some r → r.sketch.phase = .enumerate → r.sketch.enumerating = true →
    ∀ msg conn w', r.sketch.msg.poll r.sketch.conn (r.world.hear script) = (.ok,msg,conn,w') →
      Page catalog r.sketch.nextInstance msg.resultCode msg.dataBytes

def Listed (catalog : List Record) (s : ListTags) : Prop :=
  match s.phase with
  | .waitEthernet | .connect | .openSession => s.inventory = Inventory.of []
  | .enumerate => ∃ taken, catalog = taken ++ left Record.key s.nextInstance.toNat catalog ∧
      s.inventory = Inventory.of (taken.map Record.entry)
  | .readValues => s.inventory = Inventory.of (catalog.map Record.entry)
  | .done => ∃ taken, taken <+: catalog ∧ s.inventory = Inventory.of (taken.map Record.entry)

theorem last_next {catalog page rest : List Record} {startInstance : UInt32}
    (hall : Ascending Record.key catalog)
    (h : left Record.key startInstance.toNat catalog = page ++ rest) (hrest : rest ≠ [])
    (hpage : page ≠ []) :
    (page.foldl (fun _ r => r.instanceId) 0 + 1).toNat = next Record.key startInstance.toNat page := by
  rcases List.eq_nil_or_concat page with rfl | ⟨pre,a,rfl⟩
  · exact absurd rfl hpage
  rw [List.concat_eq_append] at h ⊢
  obtain ⟨b,rest,rfl⟩ := List.exists_cons_of_ne_nil hrest
  have hsorted : Ascending Record.key (pre ++ [a] ++ b :: rest) := by
    rw [← h]
    exact hall.filter _
  have hless : a.instanceId.toNat < b.instanceId.toNat :=
    (List.pairwise_append.mp hsorted).2.2 a (by simp) b (by simp)
  have hb := b.instanceId.toNat_lt
  rw [next_concat,List.foldl_append,List.foldl_cons,List.foldl_nil]
  exact advanced (k := 1) (by simp; omega)

theorem finishBatch_page {catalog taken : List Record} {s : ListTags}
    (hall : Ascending Record.key catalog)
    (htaken : catalog = taken ++ left Record.key s.nextInstance.toNat catalog)
    (hlisted : s.inventory = Inventory.of (taken.map Record.entry))
    (hpage : Page catalog s.nextInstance s.msg.resultCode s.msg.dataBytes) :
    ∃ s', s.finishBatch = some s' ∧
      (s' = {s with inventory := Inventory.of (catalog.map Record.entry), enumerating := false,
                    valueCursor := 0, phase := .readValues} ∨
        ∃ page start, catalog = (taken ++ page) ++ left Record.key start.toNat catalog ∧
          (left Record.key start.toNat catalog).length <
            (left Record.key s.nextInstance.toNat catalog).length ∧
          s' = {s with inventory := Inventory.of ((taken ++ page).map Record.entry),
                       enumerating := false, nextInstance := start}) := by
  obtain ⟨page,rest,hsplit,hdata,hlen,hcode⟩ := hpage
  rw [hdata] at hlen
  obtain ⟨b,hrun,hinv,hlast⟩ := enumerate_told hlen (taken.map Record.entry) (Nat.lt_succ_self _)
  rw [← List.map_append] at hinv
  rw [finishBatch,hdata,hlisted,hrun]
  refine ⟨_,rfl,?_⟩
  rcases hcode with ⟨rfl,hzero⟩ | ⟨hrest,hpage,hmore⟩
  · rw [List.append_nil] at hsplit
    rw [hsplit] at htaken
    refine Or.inl ?_
    simp only [if_pos hzero,hinv,← htaken]
  · have hnext := last_next hall hsplit hrest hpage
    rw [← hlast] at hnext
    refine Or.inr ⟨page,b.last + 1,?_,?_,?_⟩
    · rw [hnext]
      exact fetched_next hall htaken hsplit
    · rw [hnext]
      exact left_shrinks hall hsplit hpage
    · have hne : ¬ s.msg.resultCode = 0x00 := by
        rw [hmore]
        decide
      simp only [if_neg hne,if_pos hmore,hinv]

theorem Listed.same {catalog : List Record} {s s' : ListTags} (h : Listed catalog s)
    (hphase : s'.phase = s.phase) (hnext : s'.nextInstance = s.nextInstance)
    (hinv : s'.inventory = s.inventory) : Listed catalog s' := by
  rw [Listed,hphase,hnext,hinv]
  exact h

theorem lists_loop {catalog : List Record} (hall : Ascending Record.key catalog) {s : ListTags}
    {w : World} (h : Listed catalog s)
    (hpage : s.phase = .enumerate → s.enumerating = true → ∀ msg conn w',
      s.msg.poll s.conn w = (.ok,msg,conn,w') →
        Page catalog s.nextInstance msg.resultCode msg.dataBytes) :
    ∃ s' w', s.loop w = some (s',w') ∧ Listed catalog s' := by
  have hturned := s.loop_turned w
  have hnil : ([] : List Record) <+: catalog := List.nil_prefix
  generalize s.loop w = result at hturned
  cases hturned with
  | ethWaits _ _ => exact ⟨_,_,rfl,h.same rfl rfl rfl⟩
  | ethRestarts _ _ _ => exact ⟨_,_,rfl,h.same rfl rfl rfl⟩
  | dials hs _ _ =>
    simp only [Listed,hs] at h
    exact ⟨_,_,rfl,h⟩
  | connecting _ _ _ => exact ⟨_,_,rfl,h.same rfl rfl rfl⟩
  | unconnected hs _ _ =>
    simp only [Listed,hs] at h
    exact ⟨_,_,rfl,[],hnil,h⟩
  | connects hs _ _ =>
    simp only [Listed,hs] at h
    exact ⟨_,_,rfl,h⟩
  | registers _ _ _ _ _ => exact ⟨_,_,rfl,h.same rfl rfl rfl⟩
  | registered hs _ =>
    simp only [Listed,hs] at h
    have hzero : left Record.key (0 : UInt32).toNat catalog = catalog :=
      left_all fun r _ => Nat.zero_le _
    exact ⟨_,_,rfl,[],by rw [hzero]; rfl,by rw [h]; rfl⟩
  | unregistered hs _ _ =>
    simp only [Listed,hs] at h
    exact ⟨_,_,rfl,[],hnil,h⟩
  | asks _ _ _ => exact ⟨_,_,rfl,h.same rfl rfl rfl⟩
  | refused hs _ _ _ =>
    simp only [Listed,hs] at h
    obtain ⟨taken,htaken,hlisted⟩ := h
    exact ⟨_,_,rfl,taken,⟨_,htaken.symm⟩,hlisted⟩
  | waits _ _ _ => exact ⟨_,_,rfl,h.same rfl rfl rfl⟩
  | unanswered hs _ _ _ _ =>
    simp only [Listed,hs] at h
    obtain ⟨taken,htaken,hlisted⟩ := h
    exact ⟨_,_,rfl,taken,⟨_,htaken.symm⟩,hlisted⟩
  | @answered msg conn _ _ hs hgoes hpoll hbatch =>
    simp only [Listed,hs] at h
    obtain ⟨taken,htaken,hlisted⟩ := h
    obtain ⟨_,heq,hend⟩ := finishBatch_page (s := {s with msg := msg, conn := conn}) hall htaken
      hlisted (hpage hs hgoes _ _ _ hpoll)
    rw [hbatch] at heq
    cases heq
    rcases hend with rfl | ⟨page,start,hnext,_,rfl⟩
    · exact ⟨_,_,rfl,rfl⟩
    · exact ⟨_,_,rfl,by simp only [Listed,hs]; exact ⟨_,hnext,rfl⟩⟩
  | @loses msg conn _ hs hgoes hpoll hbatch =>
    simp only [Listed,hs] at h
    obtain ⟨taken,htaken,hlisted⟩ := h
    obtain ⟨_,heq,_⟩ := finishBatch_page (s := {s with msg := msg, conn := conn}) hall htaken
      hlisted (hpage hs hgoes _ _ _ hpoll)
    rw [hbatch] at heq
    cases heq
  | ends hs _ =>
    simp only [Listed,hs] at h
    exact ⟨_,_,rfl,catalog,List.prefix_refl _,h⟩
  | reads _ _ _ _ => exact ⟨_,_,rfl,h.same rfl rfl rfl⟩
  | skips _ _ _ _ _ => exact ⟨_,_,rfl,h.same rfl rfl rfl⟩
  | readWaits _ _ _ _ => exact ⟨_,_,rfl,h.same rfl rfl rfl⟩
  | told _ _ _ _ _ _ => exact ⟨_,_,rfl,h.same rfl rfl rfl⟩
  | closes _ => exact ⟨_,_,rfl,h.same rfl rfl rfl⟩

theorem lists_run {catalog : List Record} (hall : Ascending Record.key catalog) (w : World)
    {turns : List Script}
    (hhonest : Runs.Guarded Run.step (Honest catalog) (some (Run.init w)) turns) :
    ∃ r, Run.after w turns = some r ∧ Listed catalog r.sketch := by
  refine @Runs.invariant_run _ _ Run.step (Honest catalog)
    (fun o => ∃ r, o = some r ∧ Listed catalog r.sketch) ?_ _ turns ⟨_,rfl,rfl⟩ hhonest
  rintro _ script ⟨r,rfl,hlists⟩ hpage
  obtain ⟨s',w',hloop,hlists'⟩ := lists_loop hall (w := r.world.hear script) hlists (hpage r rfl)
  exact ⟨⟨s',w'⟩,by rw [Run.step,Option.bind_some,hloop]; rfl,hlists'⟩

end ListTags

open ListTags Paging SyntheticServer

-- The server is such a target: its catalog is its table of tags, numbered from one, and a request
-- that is answered brings all of it from the instance asked for, where that fits a reply.
theorem server_tells_pages (s : SyntheticServer) (h : Tellable s.tags)
    (hcount : 1 + s.tags.length ≤ 4294967296) :
    Ascending Record.key (symbols 1 s.tags) ∧
      (symbols 1 s.tags).map Record.entry = s.tags.map entryOf ∧
      ∀ (m : ExplicitMessage) (t : TcpConnection) (sessionHandle startInstance : UInt32) (w : World)
        (n : Nat), (startEnumerate m t sessionHandle startInstance w).1 = .pending →
        ((left Record.key startInstance.toNat (symbols 1 s.tags)).flatMap Record.bytes).length ≤
          508 →
        s.Served n (startEnumerate m t sessionHandle startInstance w).2.1 t
          (startEnumerate m t sessionHandle startInstance w).2.2 →
        ∃ m' w', polled n (startEnumerate m t sessionHandle startInstance w).2.1 t
            (startEnumerate m t sessionHandle startInstance w).2.2 = (.ok,m',t,w') ∧
          m'.resultCode = 0 ∧ m'.dataBytes =
            (left Record.key startInstance.toNat (symbols 1 s.tags)).flatMap Record.bytes ∧
          Page (symbols 1 s.tags) startInstance m'.resultCode m'.dataBytes := by
  obtain ⟨hkeys,hentries⟩ := symbols_told h hcount
  refine ⟨?_,hentries,fun m t sessionHandle startInstance w n hsend hsmall hserved => ?_⟩
  · have hsorted : ((symbols 1 s.tags).map Record.key).Pairwise (· < ·) := by
      rw [hkeys]
      exact List.pairwise_lt_range' ..
    exact List.pairwise_map.mp hsorted
  · have hplain : (enumerateRequest startInstance).plain := fun hslot => by cases hslot
    obtain ⟨m',w',hrun,_,hcode,hdata⟩ := hserved.answered (r := enumerateRequest startInstance)
      hplain hsend (enumerate_served s h hcount sessionHandle startInstance) (by simp) rfl
      (by rw [List.length_append]; exact Nat.add_le_add_left hsmall 4)
    replace hdata : m'.dataBytes =
        (left Record.key startInstance.toNat (symbols 1 s.tags)).flatMap Record.bytes := hdata
    refine ⟨m',w',hrun,hcode,hdata,_,[],(List.append_nil _).symm,hdata,?_,Or.inl ⟨rfl,hcode⟩⟩
    rw [hdata]
    omega

namespace Sample

theorem tagServer_tellable : Tellable tagServer.tags := by
  intro tag htag
  rcases List.mem_cons.mp htag with rfl | htag
  · exact ⟨['A'],[0x41],rfl,by decide,by decide⟩
  · rw [List.mem_singleton.mp htag]
    exact ⟨['B'],[0x42],rfl,by decide,by decide⟩

def tagReply : List UInt8 := [0xD5,0,0,0] ++ (symbols 1 tagServer.tags).flatMap Record.bytes

def tagWorld : World where
  time := 0
  script := {sends := [.ok 5,.error .ewouldblock,.ok 100],
             recvs := [.ok (answer 1 tagReply (by decide +kernel) (by decide +kernel)).bytes]}
  log := []

theorem tags_are_told : ∃ m' w', polled 2 (startEnumerate {} {fd := 3, state := .ok} 7 0 tagWorld).2.1
      {fd := 3, state := .ok} (startEnumerate {} {fd := 3, state := .ok} 7 0 tagWorld).2.2 =
        (.ok,m',{fd := 3, state := .ok},w') ∧
      m'.resultCode = 0 ∧ m'.dataBytes = (left Record.key 0 (symbols 1 tagServer.tags)).flatMap
        Record.bytes ∧ Page (symbols 1 tagServer.tags) 0 m'.resultCode m'.dataBytes :=
  (server_tells_pages tagServer tagServer_tellable (by decide)).2.2 {} {fd := 3, state := .ok} 7 0
    tagWorld 2 rfl (by decide +kernel) ⟨⟨by decide,rfl⟩,by decide +kernel,by decide +kernel,
      by decide +kernel,by decide +kernel⟩

end Sample

theorem enumeration_lists_the_catalog {catalog : List Record} (hall : Ascending Record.key catalog)
    (w : World) (turns : List Script)
    (hhonest : Runs.Guarded ListTags.Run.step (Honest catalog) (some (ListTags.Run.init w)) turns) :
    ∃ r, ListTags.Run.after w turns = some r ∧
      (∃ taken, taken <+: catalog ∧ r.sketch.inventory = Inventory.of (taken.map Record.entry)) ∧
      (r.sketch.phase = .readValues →
        r.sketch.inventory = Inventory.of (catalog.map Record.entry)) := by
  obtain ⟨r,hrun,hlists⟩ := lists_run hall w hhonest
  refine ⟨r,hrun,?_,fun hs => by simpa only [Listed,hs] using hlists⟩
  have hnil : ([] : List Record) <+: catalog := List.nil_prefix
  rw [Listed] at hlists
  cases hs : r.sketch.phase with
  | waitEthernet =>
    simp only [hs] at hlists
    exact ⟨[],hnil,hlists⟩
  | connect =>
    simp only [hs] at hlists
    exact ⟨[],hnil,hlists⟩
  | openSession =>
    simp only [hs] at hlists
    exact ⟨[],hnil,hlists⟩
  | enumerate =>
    simp only [hs] at hlists
    obtain ⟨taken,htaken,hlisted⟩ := hlists
    exact ⟨taken,⟨_,htaken.symm⟩,hlisted⟩
  | readValues => exact ⟨catalog,List.prefix_refl _,by simpa only [hs] using hlists⟩
  | done => simpa only [hs] using hlists

namespace Sample

def Paged (r : ListTags.Run) (reply : Status × ExplicitMessage) : Prop :=
  let symbolsLeft := left Record.key r.sketch.nextInstance.toNat (symbols 1 tagServer.tags)
  r.sketch.phase = Phase.enumerate ∧ r.sketch.enumerating = true ∧ reply.1 = Status.ok →
    reply.2.dataBytes.length ≤ 527 ∧ ∃ k ∈ List.range (symbolsLeft.length + 1),
      reply.2.dataBytes = (symbolsLeft.take k).flatMap Record.bytes ∧
        (symbolsLeft.drop k = [] ∧ reply.2.resultCode = 0x00 ∨
          symbolsLeft.drop k ≠ [] ∧ symbolsLeft.take k ≠ [] ∧ reply.2.resultCode = 0x06)

instance (r : ListTags.Run) (reply : Status × ExplicitMessage) : Decidable (Paged r reply) :=
  inferInstanceAs (Decidable (_ → _ ∧ ∃ k ∈ _, _ ∧ (_ ∨ _)))

def AllPaged (o : Option ListTags.Run) (script : Script) : Prop :=
  ∀ r ∈ o, Paged r ((r.sketch.msg.poll r.sketch.conn (r.world.hear script)).1,
    (r.sketch.msg.poll r.sketch.conn (r.world.hear script)).2.1)

instance (o : Option ListTags.Run) (script : Script) : Decidable (AllPaged o script) :=
  inferInstanceAs (Decidable (∀ r ∈ o, _))

theorem honest_of_paged {o : Option ListTags.Run} {script : Script} (h : AllPaged o script) :
    Honest (symbols 1 tagServer.tags) o script := by
  rintro r rfl hs hgoes msg conn w' hpoll
  have hpaged := h r rfl
  rw [hpoll] at hpaged
  obtain ⟨hlen,k,_,hdata,hcode⟩ := hpaged ⟨hs,hgoes,rfl⟩
  exact ⟨_,_,(List.take_append_drop k _).symm,hdata,hlen,hcode⟩

-- The symbols come one by one, the first as a partial transfer.
def pagedTurns : List Script :=
  [{ethLinks := [true,true], sockets := [3]},{selects := [1]},
   {sends := [.ok 100], recvs := [.ok (registerReply 7)]},{},
   {sends := [.ok 200], recvs := [.ok (dataReply 1 ([0xD5,0,0x06,0] ++
      ((symbols 1 tagServer.tags).take 1).flatMap Record.bytes))]},
   {},{sends := [.ok 200], recvs := [.ok (dataReply 2 ([0xD5,0,0,0] ++
      ((symbols 1 tagServer.tags).drop 1).flatMap Record.bytes))]}]

theorem tags_are_listed : ∃ r, ListTags.Run.after tagBoard pagedTurns = some r ∧
    r.sketch.inventory.tags =
      [{name := [0x41], symbolType := 0x00C4},{name := [0x42], symbolType := 0x00D0}] := by
  have hpaged : Runs.Guarded ListTags.Run.step AllPaged (some (ListTags.Run.init tagBoard))
      pagedTurns := by
    decide +kernel
  have hall : Ascending Record.key (symbols 1 tagServer.tags) := by
    simp only [Ascending]
    decide +kernel
  obtain ⟨r,hrun,_,hread⟩ := enumeration_lists_the_catalog hall tagBoard pagedTurns
    (@Runs.Guarded.mono _ _ ListTags.Run.step _ _ (fun _ _ => honest_of_paged) _ _ hpaged)
  have hphase : (ListTags.Run.after tagBoard pagedTurns).map (fun r => r.sketch.phase) =
      some .readValues := by
    decide +kernel
  rw [hrun] at hphase
  refine ⟨r,hrun,?_⟩
  rw [hread (Option.some.inj hphase)]
  decide +kernel

end Sample

end ControlLogix
