import ControlLogix.Library.Ledger
import ControlLogix.Machine.TagMoves
import ControlLogix.Tag.Requests

namespace ControlLogix

open PlcClient Runs

namespace PlcClient

variable {n : Nat}

-- What the arrays of the pool stand for: under each handle a name and an element count.
def pool (c : PlcClient n) : Memory Int (List UInt8 × UInt32) := fun handle =>
  (c.validHandle handle).map fun i => (c.tagNames i,c.tagElemCount i)

def handles (n : Nat) : List Int := (List.finRange n).map fun i => (i.val : Int)

theorem handles_nodup : (handles n).Nodup :=
  (List.nodup_finRange n).map fun _ _ h => Fin.ext (Int.ofNat.inj h)

theorem handles_length : (handles n).length = n := by
  rw [handles,List.length_map,List.length_finRange]

theorem mem_handles {h : Int} : h ∈ handles n ↔ ∃ i : Fin n, h = i.val := by
  simp [handles,eq_comm]

theorem pool_some {c : PlcClient n} {h : Int} {v : List UInt8 × UInt32} :
    c.pool h = some v ↔
      ∃ i, h = i.val ∧ c.inUse i = true ∧ v = (c.tagNames i,c.tagElemCount i) := by
  simp only [pool,Option.map_eq_some_iff,validHandle_eq_some]
  constructor
  · rintro ⟨i,⟨hi,huse⟩,rfl⟩
    exact ⟨i,hi,huse,rfl⟩
  · rintro ⟨i,hi,huse,rfl⟩
    exact ⟨i,⟨hi,huse⟩,rfl⟩

theorem pool_isSome (c : PlcClient n) (i : Fin n) : (c.pool i.val).isSome = c.inUse i := by
  cases huse : c.inUse i with
  | true => rw [pool_some.mpr ⟨i,rfl,huse,rfl⟩,Option.isSome_some]
  | false =>
    rw [Option.isSome_eq_false_iff,Option.isNone_iff_eq_none,Option.eq_none_iff_forall_ne_some]
    intro v hv
    obtain ⟨j,hj,hused,_⟩ := pool_some.mp hv
    rw [← Fin.ext (Int.ofNat.inj hj),huse] at hused
    cases hused

theorem pool_within {c : PlcClient n} {h : Int} (hh : (c.pool h).isSome = true) :
    h ∈ handles n := by
  obtain ⟨v,hv⟩ := Option.isSome_iff_exists.mp hh
  obtain ⟨i,hi,_⟩ := pool_some.mp hv
  exact mem_handles.mpr ⟨i,hi⟩

theorem tagCount_eq (c : PlcClient n) :
    c.tagCount = (handles n).countP fun h => (c.pool h).isSome := by
  rw [handles,List.countP_map,tagCount]
  refine congrArg (List.countP · _) (funext fun i => ?_)
  exact (c.pool_isSome i).symm

theorem pool_congr {c c' : PlcClient n} (huse : c'.inUse = c.inUse)
    (hnames : c'.tagNames = c.tagNames) (hcounts : c'.tagElemCount = c.tagElemCount) :
    c'.pool = c.pool := by
  funext h
  simp only [pool,validHandle,huse,hnames,hcounts]

theorem findFreeTag_none {c : PlcClient n} (h : c.findFreeTag = none) (i : Fin n) :
    c.inUse i = true := by
  simpa using List.find?_eq_none.mp h i (List.mem_finRange i)

theorem pool_others {c c' : PlcClient n} {i : Fin n} (huse : ∀ j, j ≠ i → c'.inUse j = c.inUse j)
    (hnames : ∀ j, j ≠ i → c'.tagNames j = c.tagNames j)
    (hcounts : ∀ j, j ≠ i → c'.tagElemCount j = c.tagElemCount j) :
    c'.pool = Function.update c.pool (i.val : Int) (c'.pool i.val) := by
  funext h
  by_cases hi : h = i.val
  · rw [hi,Function.update_self]
  · rw [Function.update_of_ne hi]
    refine Option.ext fun v => ?_
    rw [pool_some,pool_some]
    refine exists_congr fun j => and_congr_right fun hj => ?_
    have hji : j ≠ i := by
      rintro rfl
      exact hi hj
    rw [huse j hji,hnames j hji,hcounts j hji]

theorem validName_iff (name : List UInt8) :
    validName (some name) = true ↔ ¬ (name = [] ∨ kMaxTagName ≤ name.length) := by
  simp [validName]

theorem createTag_pool (c : PlcClient n) (name : Option (List UInt8)) (elementCount : UInt32) :
    (∃ h, h < 0 ∧ c.createTag name elementCount = (h,c) ∧
      ¬ (validName name = true ∧ ∃ k ∈ handles n, c.pool k = none)) ∨
    ∃ i : Fin n, validName name = true ∧ c.pool i.val = none ∧
      (c.createTag name elementCount).1 = i.val ∧ (c.createTag name elementCount).2.pool =
        Function.update c.pool (i.val : Int) (some (name.getD [],elementCount)) := by
  cases name with
  | none => exact Or.inl ⟨Status.code .invalidArg,by simp [Status.code],rfl,by simp [validName]⟩
  | some name =>
    by_cases hbad : name = [] ∨ kMaxTagName ≤ name.length
    · refine Or.inl ⟨Status.code .invalidArg,by simp [Status.code],?_,?_⟩
      · simp only [createTag]
        rw [if_pos hbad]
      · rintro ⟨hvalid,-⟩
        exact (validName_iff name).mp hvalid hbad
    · cases hfree : c.findFreeTag with
      | none =>
        refine Or.inl ⟨Status.code .noMemory,by simp [Status.code],?_,?_⟩
        · simp only [createTag,hfree]
          rw [if_neg hbad]
        · rintro ⟨-,k,hk,hnone⟩
          obtain ⟨i,rfl⟩ := mem_handles.mp hk
          have hused := c.pool_isSome i
          rw [hnone,findFreeTag_none hfree i] at hused
          cases hused
      | some i =>
        have hnone : c.pool i.val = none := by
          rw [← Option.isNone_iff_eq_none,← Option.isSome_eq_false_iff,c.pool_isSome]
          exact findFreeTag_some hfree
        have htake : name.take (kMaxTagName - 1) = name := by
          rw [not_or,Nat.not_le] at hbad
          exact List.take_of_length_le (Nat.le_sub_one_of_lt hbad.2)
        refine Or.inr ⟨i,(validName_iff name).mpr hbad,hnone,?_⟩
        simp only [createTag,hfree]
        rw [if_neg hbad,htake]
        refine ⟨rfl,(pool_others ?_ ?_ ?_).trans (congrArg _ ?_)⟩
        · exact fun j hj => Function.update_of_ne hj _ _
        · exact fun j hj => Function.update_of_ne hj _ _
        · exact fun j hj => Function.update_of_ne hj _ _
        · rw [pool_some]
          exact ⟨i,rfl,Function.update_self _ _ _,by simp⟩

theorem destroyTag_pool (c : PlcClient n) (handle : Int) :
    (c.destroyTag handle = (.invalidArg,c) ∧ c.pool handle = none) ∨
    (c.destroyTag handle).1 = .ok ∧
      (c.destroyTag handle).2.pool = Function.update c.pool handle none := by
  simp only [destroyTag]
  cases hvalid : c.validHandle handle with
  | none => exact Or.inl ⟨rfl,by rw [pool,hvalid,Option.map_none]⟩
  | some i =>
    obtain ⟨rfl,huse⟩ := validHandle_eq_some.mp hvalid
    refine Or.inr ⟨rfl,(pool_others ?_ ?_ ?_).trans (congrArg _ ?_)⟩
    · exact fun j hj => Function.update_of_ne hj _ _
    · exact fun _ _ => rfl
    · exact fun _ _ => rfl
    · rw [← Option.isNone_iff_eq_none,← Option.isSome_eq_false_iff,pool_isSome]
      exact Function.update_self _ _ _

structure PoolKept (c c' : PlcClient n) : Prop where
  inUse : c'.inUse = c.inUse
  names : c'.tagNames = c.tagNames
  counts : c'.tagElemCount = c.tagElemCount

theorem connect_poolKept (c : PlcClient n) (ip : UInt32) (port : UInt16) (timeoutMs : UInt32)
    (w : World) : PoolKept c (c.connect ip port timeoutMs w).2.1 := by
  simp only [connect]
  split_ifs <;> exact ⟨rfl,rfl,rfl⟩

theorem disconnect_poolKept (c : PlcClient n) (w : World) : PoolKept c (c.disconnect w).2.1 := by
  simp only [disconnect]
  split_ifs <;> exact ⟨rfl,rfl,rfl⟩

theorem poll_poolKept (c : PlcClient n) (w : World) : PoolKept c (c.poll w).2.1 := by
  simp only [poll]
  split
  · simp only [pollEthernet]
    split_ifs <;> exact ⟨rfl,rfl,rfl⟩
  · simp only [pollConnecting]
    split_ifs <;> exact ⟨rfl,rfl,rfl⟩
  · simp only [pollRegistering]
    split_ifs <;> exact ⟨rfl,rfl,rfl⟩
  · exact ⟨rfl,rfl,rfl⟩
  · simp only [pollDisconnecting]
    split_ifs <;> exact ⟨rfl,rfl,rfl⟩
  · exact ⟨rfl,rfl,rfl⟩
  · exact ⟨rfl,rfl,rfl⟩

theorem finish_poolKept (c : PlcClient n) (disconnected : Bool) (w : World) :
    PoolKept c (c.finish disconnected w).2.1 := by
  cases disconnected <;> exact ⟨rfl,rfl,rfl⟩

def access (c : PlcClient n) (i : Fin n) (kind : Access.Kind) (timeoutMs : UInt32) : Access where
  kind := kind
  tag := c.tags i
  name := c.tagNames i
  elementCount := c.tagElemCount i
  timeoutMs := timeoutMs
  cpuSlot := c.cpuSlot
  sessionHandle := c.session.handle
  script := {}
  polls := 0

variable {c : PlcClient n} {handle : Int} {timeoutMs : UInt32} {w : World}

theorem taken_start {start : Fin n → Status × PlcClient n × World}
    {r : Status × PlcClient n × World} (hr : r = match c.validHandle handle with
      | none => (.invalidArg,c,w)
      | some i =>
        if c.state ≠ .ready then (.notReady,c,w)
        else if c.anyTagBusy then (.busy,c,w)
        else start i) (h : r.1 = .pending) :
    ∃ i : Fin n, handle = i.val ∧ c.inUse i = true ∧ r = start i := by
  rw [hr] at h
  cases hvalid : c.validHandle handle with
  | none => simp [hvalid] at h
  | some i =>
    obtain ⟨hi,huse⟩ := validHandle_eq_some.mp hvalid
    simp only [hvalid] at h hr
    split_ifs at h hr with hready hbusy
    exact ⟨i,hi,huse,hr⟩

theorem read_access (h : (c.read handle timeoutMs w).1 = .pending) :
    ∃ i : Fin n, handle = i.val ∧ c.inUse i = true ∧
      ((c.access i .read timeoutMs).start c.msg c.tcp w).1 = .pending ∧
        (c.read handle timeoutMs w).2.1.msg =
          ((c.access i .read timeoutMs).start c.msg c.tcp w).2.2.1 := by
  obtain ⟨i,hi,huse,heq⟩ := taken_start (r := c.read handle timeoutMs w) rfl h
  rw [heq] at h ⊢
  exact ⟨i,hi,huse,h,rfl⟩

theorem write_access (h : (c.write handle timeoutMs w).1 = .pending) :
    ∃ i : Fin n, handle = i.val ∧ c.inUse i = true ∧
      ((c.access i .write timeoutMs).start c.msg c.tcp w).1 = .pending ∧
        (c.write handle timeoutMs w).2.1.msg =
          ((c.access i .write timeoutMs).start c.msg c.tcp w).2.2.1 := by
  obtain ⟨i,hi,huse,heq⟩ := taken_start (r := c.write handle timeoutMs w) rfl h
  rw [heq] at h ⊢
  exact ⟨i,hi,huse,h,rfl⟩

end PlcClient

namespace Config

variable {n : Nat}

-- The ledger a sketch keeps of what createTag returned and destroyTag took back.
def book (s : Config n) (ledger : List (Int × List UInt8 × UInt32)) (a : Act) :
    List (Int × List UInt8 × UInt32) :=
  if s.scanning then ledger
  else
    match a with
    | .call (.createTag name elementCount) =>
      let h := (s.client.createTag name elementCount).1
      if 0 ≤ h then ledger ++ [(h,name.getD [],elementCount)] else ledger
    | .call (.destroyTag handle) =>
      if (s.client.destroyTag handle).1 = .ok then ledger.filter fun e => e.1 ≠ handle else ledger
    | _ => ledger

def starts (s : Config n) (l : Label) : Option Int :=
  if s.scanning then none else s.begins l.act (s.hear l.script).world

theorem call_poolKept (s : Config n) {op : Op} (hcreate : ∀ name k, op ≠ .createTag name k)
    (hdestroy : ∀ handle, op ≠ .destroyTag handle) : PoolKept s.client (s.call op).client := by
  cases op with
  | begin => exact ⟨rfl,rfl,rfl⟩
  | connect ip port timeoutMs => exact s.client.connect_poolKept ip port timeoutMs s.world
  | disconnect => exact s.client.disconnect_poolKept s.world
  | poll =>
    have hkept := s.client.poll_poolKept s.world
    rwa [← enter_client _ s.stack] at hkept
  | setCpuSlot slot => exact ⟨rfl,rfl,rfl⟩
  | createTag name elementCount => exact absurd rfl (hcreate name elementCount)
  | destroyTag handle => exact absurd rfl (hdestroy handle)
  | read handle timeoutMs =>
    have hstarted := s.client.read_started handle timeoutMs s.world
    simp only [call]
    generalize s.client.read handle timeoutMs s.world = r at hstarted ⊢
    cases hstarted <;> exact ⟨rfl,rfl,rfl⟩
  | write handle timeoutMs =>
    have hstarted := s.client.write_started handle timeoutMs s.world
    simp only [call]
    generalize s.client.write handle timeoutMs s.world = r at hstarted ⊢
    cases hstarted <;> exact ⟨rfl,rfl,rfl⟩
  | abortTag handle =>
    simp only [call,abortTag,PlcClient.abortTag]
    split <;> exact ⟨rfl,rfl,rfl⟩
  | setTag handle f =>
    simp only [call,setTag,PlcClient.setTag]
    split <;> exact ⟨rfl,rfl,rfl⟩
  | setTagCallback set => exact ⟨rfl,rfl,rfl⟩
  | setStateCallback set => exact ⟨rfl,rfl,rfl⟩

theorem advance_poolKept (s : Config n) : PoolKept s.client s.advance.client := by
  unfold advance
  split
  · next next disconnected stack hstack =>
    split_ifs with hin huse
    · rcases hpoll : (s.client.tags ⟨next,hin⟩).poll s.client.msg s.client.tcp s.world with
        ⟨st,g,m,t,w⟩
      rw [visit_client disconnected stack hpoll]
      exact ⟨rfl,rfl,rfl⟩
    · exact ⟨rfl,rfl,rfl⟩
    · rw [enter_client]
      exact s.client.finish_poolKept disconnected s.world
  · exact ⟨rfl,rfl,rfl⟩

theorem ret_client (s : Config n) : s.ret.client = s.client := by
  unfold ret
  split <;> rfl

theorem step_matches {s : Config n} {ledger : List (Int × List UInt8 × UInt32)}
    (h : Ledger.Matches ledger s.client.pool) (l : Label) :
    Ledger.Matches (s.book ledger l.act) (s.step l).client.pool := by
  have hsame {c : PlcClient n} (hkept : PoolKept s.client c) : Ledger.Matches ledger c.pool := by
    rwa [pool_congr hkept.inUse hkept.names hkept.counts]
  obtain ⟨a,script⟩ := l
  by_cases hscan : s.scanning = true
  · simp only [book,if_pos hscan]
    cases a with
    | call op =>
      have hstay : s.step ⟨.call op,script⟩ = s.hear script :=
        if_pos (show (s.hear script).scanning = true from hscan)
      rw [hstay]
      exact h
    | advance => exact hsame (s.hear script).advance_poolKept
    | ret =>
      have hret : (s.step ⟨.ret,script⟩).client = s.client := (s.hear script).ret_client
      rwa [hret]
  simp only [book,if_neg hscan]
  cases a with
  | advance => exact hsame (s.hear script).advance_poolKept
  | ret =>
    have hret : (s.step ⟨.ret,script⟩).client = s.client := (s.hear script).ret_client
    rwa [hret]
  | call op =>
    have hcall : s.step ⟨.call op,script⟩ = (s.hear script).call op :=
      if_neg (show ¬ (s.hear script).scanning = true from hscan)
    rw [hcall]
    have hother (hcreate : ∀ name k, op ≠ .createTag name k)
        (hdestroy : ∀ handle, op ≠ .destroyTag handle) :
        Ledger.Matches ledger ((s.hear script).call op).client.pool :=
      hsame ((s.hear script).call_poolKept hcreate hdestroy)
    cases op with
    | createTag name elementCount =>
      show Ledger.Matches _ (s.client.createTag name elementCount).2.pool
      simp only
      rcases s.client.createTag_pool name elementCount with ⟨h',hneg,heq,_⟩ |
        ⟨i,_,hnone,hi,hpool⟩
      · rw [heq,if_neg (Int.not_le.mpr hneg)]
        exact h
      · rw [hi,if_pos (Int.natCast_nonneg _),hpool]
        exact h.add hnone _
    | destroyTag handle =>
      show Ledger.Matches _ (s.client.destroyTag handle).2.pool
      simp only
      rcases s.client.destroyTag_pool handle with ⟨heq,_⟩ | ⟨hok,hpool⟩
      · rw [heq,if_neg (by simp)]
        exact h
      · rw [if_pos hok,hpool]
        exact h.remove handle
    | _ => exact hother (by simp) (by simp)

theorem starts_access {s : Config n} {l : Label} {handle : Int} (h : s.starts l = some handle) :
    ∃ (i : Fin n) (a : Access) (w : World), handle = i.val ∧ s.client.inUse i = true ∧
      a.name = s.client.tagNames i ∧ a.elementCount = s.client.tagElemCount i ∧
      (a.start s.client.msg s.client.tcp w).1 = .pending ∧
        (s.step l).client.msg = (a.start s.client.msg s.client.tcp w).2.2.1 := by
  simp only [starts] at h
  split_ifs at h with hscan
  obtain ⟨a,script⟩ := l
  have hcall (op : Op) : s.step ⟨.call op,script⟩ = (s.hear script).call op := if_neg hscan
  simp only [begins] at h
  split at h
  · next called timeoutMs =>
    split_ifs at h with hst
    cases h
    obtain ⟨i,hi,huse,hst,hmsg⟩ := read_access hst
    exact ⟨i,_,_,hi,huse,rfl,rfl,hst,by rw [hcall]; exact hmsg⟩
  · next called timeoutMs =>
    split_ifs at h with hst
    cases h
    obtain ⟨i,hi,huse,hst,hmsg⟩ := write_access hst
    exact ⟨i,_,_,hi,huse,rfl,rfl,hst,by rw [hcall]; exact hmsg⟩
  · cases h

end Config

structure Books (n : Nat) where
  config : Config n
  ledger : List (Int × List UInt8 × UInt32) := []

def AsksFor (name : List UInt8) (elementCount : UInt32) (frame : List UInt8) : Prop :=
  ∃ r, SyntheticServer.unconnectedRequest (frame.drop kEncapsulationHeaderSize) = some r ∧
    Symbolic name r.path ∧ 2 ≤ r.rest.length ∧ (getU16 r.rest).toNat = elementCount.toNat

namespace Books

variable {n : Nat}

def init (memory : Fin n → Buffer Tag.kMaxDataSize) (time : Nat) : Books n :=
  {config := Config.init memory time}

def step (b : Books n) (l : Label) : Books n :=
  {config := b.config.step l, ledger := b.config.book b.ledger l.act}

def after (memory : Fin n → Buffer Tag.kMaxDataSize) (time : Nat) (ls : List Label) : Books n :=
  run step (init memory time) ls

structure Faithful (b : Books n) : Prop where
  distinct : (b.ledger.map Prod.fst).Nodup
  below : ∀ e ∈ b.ledger, 0 ≤ e.1 ∧ e.1 < n
  count : b.config.client.tagCount = b.ledger.length
  held : ∀ h v, (h,v) ∈ b.ledger ↔ b.config.client.pool h = some v
  creates : ∀ name k, 0 ≤ (b.config.client.createTag name k).1 ↔
    PlcClient.validName name = true ∧ b.ledger.length < n
  refuses : ∀ name k, (b.config.client.createTag name k).1 < 0 → b.config.createTag name k = b.config

-- A request that the step starts carries what its handle was created with.
def Carries (b : Books n) (l : Label) : Prop :=
  ∀ handle, b.config.starts l = some handle → ∃ v, (handle,v) ∈ b.ledger ∧
    AsksFor v.1 v.2 (b.config.step l).client.msg.io.tx

-- A request is started only through a handle whose count fits into 16 bits.
def Small (b : Books n) (l : Label) : Prop :=
  ∀ handle, b.config.starts l = some handle → ∀ v, (handle,v) ∈ b.ledger → v.2.toNat < 2 ^ 16

def Matched (b : Books n) : Prop := Ledger.Matches b.ledger b.config.client.pool

theorem matched_init (memory : Fin n → Buffer Tag.kMaxDataSize) (time : Nat) :
    (init memory time).Matched := by
  refine Ledger.matches_nil fun h => ?_
  rw [Option.eq_none_iff_forall_ne_some]
  intro v hv
  obtain ⟨_,_,huse,_⟩ := PlcClient.pool_some.mp hv
  cases huse

theorem Matched.step {b : Books n} (h : b.Matched) (l : Label) : (b.step l).Matched :=
  Config.step_matches h l

theorem Matched.faithful {b : Books n} (h : b.Matched) : b.Faithful where
  distinct := h.1
  below := by
    rintro ⟨handle,v⟩ he
    obtain ⟨i,rfl,_⟩ := PlcClient.pool_some.mp ((h.2 _ _).mp he)
    exact ⟨Int.natCast_nonneg _,Int.ofNat_lt.mpr i.isLt⟩
  count := by
    rw [PlcClient.tagCount_eq,h.length_eq PlcClient.handles_nodup fun _ => PlcClient.pool_within]
  held := h.2
  creates name k := by
    have hroom := h.room_iff PlcClient.handles_nodup fun _ => PlcClient.pool_within
    rw [PlcClient.handles_length] at hroom
    rw [hroom]
    rcases b.config.client.createTag_pool name k with ⟨h',hneg,heq,hno⟩ | ⟨i,hname,hnone,hi,_⟩
    · rw [heq]
      exact ⟨fun hpos => absurd hpos (Int.not_le.mpr hneg),fun hyes => absurd hyes hno⟩
    · rw [hi]
      exact ⟨fun _ => ⟨hname,i.val,PlcClient.mem_handles.mpr ⟨i,rfl⟩,hnone⟩,
        fun _ => Int.natCast_nonneg _⟩
  refuses name k hneg := by
    simp only [Config.createTag]
    rw [if_neg (Int.not_le.mpr hneg)]
    rcases b.config.client.createTag_pool name k with ⟨h',_,heq,_⟩ | ⟨i,_,_,hi,_⟩
    · rw [heq]
    · rw [hi] at hneg
      exact absurd (Int.natCast_nonneg _) (Int.not_le.mpr hneg)

theorem Matched.carries_iff {b : Books n} (h : b.Matched) (l : Label) :
    b.Carries l ↔ b.Small l := by
  refine forall_congr' fun handle => forall_congr' fun hstart => ?_
  obtain ⟨i,a,w,rfl,huse,hname,hcount,hst,hmsg⟩ := Config.starts_access hstart
  obtain ⟨hshort,_,hdecoded⟩ := Access.start_decoded hst
  have hwire := a.wire_count
  have hhas (v : List UInt8 × UInt32) : ((i.val : Int),v) ∈ b.ledger ↔
      v = (b.config.client.tagNames i,b.config.client.tagElemCount i) := by
    rw [h.2 _ v,PlcClient.pool_some.mpr ⟨i,rfl,huse,rfl⟩,Option.some.injEq,eq_comm]
  rw [hmsg]
  constructor
  · rintro ⟨v,hv,r,hr,_,_,hsame⟩ v' hv'
    rw [(hhas v').mp hv',← (hhas v).mp hv]
    rw [hdecoded,Option.some.injEq] at hr
    rw [← hr,hwire] at hsame
    omega
  · intro hsmall
    have hfits := hsmall _ ((hhas _).mpr rfl)
    refine ⟨_,(hhas _).mpr rfl,a.request,hdecoded,hname ▸ Access.symbolic_name hshort,?_,?_⟩
    · rw [a.request_rest]
      simp
    · rw [hwire,hcount]
      exact Nat.mod_eq_of_lt hfits

end Books

-- Over every run the pool is a map from handles to names and counts. The names go out as they
-- were given, the counts in 16 bits.
theorem pool_is_a_map_iff {n : Nat} (memory : Fin n → Buffer Tag.kMaxDataSize) (time : Nat)
    (ls : List Label) :
    (Guarded Books.step (fun b l => b.Faithful ∧ b.Carries l) (Books.init memory time) ls ∧
      (Books.after memory time ls).Faithful) ↔
      Guarded Books.step Books.Small (Books.init memory time) ls := by
  have hinit := Books.matched_init memory time
  have hlast : (Books.after memory time ls).Matched :=
    @invariant_always _ _ Books.step Books.Matched (fun _ l h => h.step l) _ hinit ls
  rw [and_iff_left hlast.faithful]
  refine guarded_congr (fun _ l h => h.step l) (fun b l h => ?_) hinit ls
  rw [and_iff_right h.faithful]
  exact h.carries_iff l

namespace Sample

-- A tag created with 65537 elements, on a client that comes online.
def hugeTag : List Label := call (.createTag tagA 65537) :: online

def huge : Books PlcClient.kMaxTags := Books.after memory 0 hugeTag

def readHuge : Label := call (.read 0 1000)

theorem huge_starts : huge.config.starts readHuge = some 0 ∧
    huge.ledger = [(0,[0x41],65537)] := by
  decide +kernel

theorem huge_decoded : SyntheticServer.unconnectedRequest
    ((huge.config.step readHuge).client.msg.io.tx.drop kEncapsulationHeaderSize) =
      some {service := 0x4C, path := [0x91,1,0x41,0], rest := putU16 1} := by
  decide +kernel

theorem huge_is_not_carried : ¬ Guarded Books.step (fun b l => b.Faithful ∧ b.Carries l)
    (Books.init memory 0) (hugeTag ++ [readHuge]) := by
  rw [guarded_append]
  rintro ⟨-,⟨-,hcarries⟩,-⟩
  obtain ⟨v,hv,r,hr,_,_,hsame⟩ := hcarries 0 huge_starts.1
  have hgiven : ((0 : Int),v) ∈ huge.ledger := hv
  rw [huge_starts.2,List.mem_singleton] at hgiven
  cases hgiven
  have hframe := huge_decoded.symm.trans hr
  cases hframe
  exact absurd hsame (by decide)

end Sample

end ControlLogix
