import ControlLogix.Eip.Hangup
import ControlLogix.Machine.Callbacks
import ControlLogix.Machine.Deadlines
import ControlLogix.Machine.Pool
import ControlLogix.Machine.Slots

namespace ControlLogix

open PlcClient Runs

namespace ExplicitMessage

variable {m : ExplicitMessage} {t : TcpConnection} {w : World}

-- The peer or the socket has given the exchange up.
def HungUp (m : ExplicitMessage) (t : TcpConnection) (script : Script) : Prop :=
  m.io.HungUp (16 + kMaxCipData + kRoutedOverhead) t script

theorem poll_closed_iff (hm : m.inFlight = true) (hp : m.io.Paced) (t : TcpConnection) (w : World) :
    (m.poll t w).1 = .closed ↔
      expired w.millis.1 m.deadline = false ∧ m.HungUp t w.script := by
  have hhung : m.HungUp t w.script ↔ (m.io.writePending t w.millis.2).1 = .closed ∨
      ∃ y u v, m.io.writePending t w.millis.2 = (.ok,y,u,v) ∧
        (y.readResponse (16 + kMaxCipData + kRoutedOverhead) u v).1 = .closed :=
    Transfer.hungUp_iff hp t w.millis.2
  rw [hhung,poll_passes hm t w (Or.inr rfl)]
  by_cases hlate : expired w.millis.1 m.deadline = true
  · simp [hlate]
  · simp [hlate]

end ExplicitMessage

namespace Tag

variable {g g' : Tag} {m m' : ExplicitMessage} {t t' : TcpConnection} {w w' : World} {st : Status}

theorem poll_lost (hg : g.inFlight = true) {st : Status} (hst : st = .timeout ∨ st = .closed) :
    (g.poll m t w).1 = st ↔ (m.poll t w).1 = st := by
  have hok : st ≠ .ok ∧ st ≠ .error ∧ st ≠ .pending := by rcases hst with rfl | rfl <;> simp
  simp only [poll]
  rw [if_neg (by simpa [inFlight,imp_iff_not_or] using hg)]
  generalize m.poll t w = r
  obtain ⟨got,m',t',w'⟩ := r
  simp only
  by_cases hwait : got = .pending
  · rw [if_pos hwait,hwait]
  rw [if_neg hwait]
  by_cases hgot : got = .ok
  · rw [if_neg (not_not.mpr hgot)]
    split_ifs
    · simp [hgot,hok.1.symm,hok.2.1.symm]
    · simp [hgot]
    · simp [hgot]
  · rw [if_pos hgot]

theorem poll_kept (hg : g.inFlight = true) (hm : m.inFlight = true)
    (hpoll : g.poll m t w = (st,g',m',t',w')) (hst : st ≠ .pending) :
    g'.inFlight = false ∧ (g'.status = st ↔ st ≠ .timeout ∧ st ≠ .closed) := by
  have hpolled := poll_polled (t := t) (w := w) hg hm
  rw [hpoll] at hpolled
  cases hpolled with
  | waits => exact absurd rfl hst
  | fails hmsg hfailed _ =>
    refine ⟨rfl,?_⟩
    rcases hmsg.ended with ⟨h,_⟩ | ⟨rfl,hdone,_⟩ | ⟨rfl | rfl | rfl,_⟩
    · exact absurd h hst
    · rw [hdone] at hfailed
      cases hfailed
    · simp [status]
    · simp [status]
    · simp [status]
  | ends _ _ hres =>
    rcases hres with ⟨rfl,hstate⟩ | ⟨rfl,hstate,_⟩
    · simp [inFlight,status,hstate]
    · simp [inFlight,status,hstate]

end Tag

namespace Config

variable {n : Nat}

def PacedMsg (s : Config n) : Prop := s.client.msg.inFlight = true → s.client.msg.io.Paced

theorem pacedMsg_step {s : Config n} (l : Label) (h : PacedMsg s)
    (hex : s.client.Exclusive s.world.log) : PacedMsg (s.step l) := by
  intro hfly
  cases s.step_move l with
  | quiet hk _ _ =>
    rw [hk.msg] at hfly ⊢
    exact h hfly
  | created i _ _ _ _ _ _ hc _ =>
    obtain ⟨_,_,hc⟩ := hc
    rw [hc] at hfly ⊢
    exact h hfly
  | destroyed i _ _ _ _ hc _ =>
    rw [hc] at hfly ⊢
    exact h hfly
  | started i g _ _ _ _ _ _ _ _ _ _ _ _ _ _ _ hc _ =>
    rw [hc]
    exact Transfer.load_paced _
  | typed i f _ hc _ =>
    rw [hc] at hfly ⊢
    exact h hfly
  | aborted i _ hc _ =>
    rw [hc] at hfly ⊢
    simp only [Tag.abort] at hfly ⊢
    split_ifs at hfly ⊢
    · exact absurd hfly (by simp [ExplicitMessage.abort,ExplicitMessage.inFlight])
    · exact h hfly
  | visited i _ _ st g m t w' _ _ _ hpoll hc _ =>
    rw [hc] at hfly ⊢
    rcases hex.poll_cases hpoll with ⟨_,hm,hpolled⟩ | ⟨_,_,_,hsame,_⟩
    · exact hpolled.paced hfly (h hm)
    · rw [hsame] at hfly ⊢
      exact h hfly

theorem pacedMsg_after (memory : Fin n → Buffer Tag.kMaxDataSize) (time : Nat) (ls : List Label) :
    PacedMsg (after memory time ls) := by
  have hall := @invariant_always _ _ step
    (fun s => PacedMsg s ∧ s.client.Exclusive s.world.log)
    (fun s l h => ⟨pacedMsg_step l h.1 h.2,s.exclusive_step l h.2⟩) _
    ⟨fun h => (by cases h),exclusive_init memory time⟩ ls
  exact hall.1

-- The step polls the tag of slot i and its operation ends there with st.
def Completes (s : Config n) (l : Label) (i : Fin n) (st : Status) : Prop :=
  s.visiting l = some i ∧ s.client.busy i = true ∧ st ≠ .pending ∧
    ((s.client.tags i).poll s.client.msg s.client.tcp (s.hear l.script).world).1 = st

-- No operation is started on the slot, and its tag is neither aborted nor given up.
def Leaves (i : Fin n) (s : Config n) (l : Label) : Prop :=
  s.starts l ≠ some (i.val : Int) ∧ l.act ≠ .call (.abortTag i.val) ∧
    l.act ≠ .call (.destroyTag i.val)

def Tells (s : Config n) (i : Fin n) (st : Status) : Prop :=
  s.client.tagStatus i.val = st ∧
    ∀ w, ((s.client.tags i).poll s.client.msg s.client.tcp w).1 = st

-- When the tag in flight is polled, its deadline has not passed and its connection is not lost.
def Smooth (s : Config n) (l : Label) : Prop :=
  ∀ i, s.visiting l = some i → s.client.busy i = true →
    expired (s.hear l.script).world.millis.1 s.client.msg.deadline = false ∧
      ¬ s.client.msg.HungUp s.client.tcp l.script

def Rests (i : Fin n) (st : Status) (s : Config n) : Prop :=
  s.client.inUse i = true ∧ (s.client.tags i).inFlight = false ∧ (s.client.tags i).status = st

theorem Rests.tells {s : Config n} {i : Fin n} {st : Status} (h : Rests i st s) :
    s.Tells i st := by
  obtain ⟨huse,hrest,hst⟩ := h
  constructor
  · rw [tagStatus,validHandle_eq_some.mpr ⟨rfl,huse⟩]
    exact hst
  · intro w
    rw [Tag.poll_still hrest]
    exact hst

theorem Rests.slotKept {s s' : Config n} {i : Fin n} {st : Status} (h : Rests i st s)
    (huse : s'.client.inUse i = s.client.inUse i) (htag : s'.client.tags i = s.client.tags i) :
    Rests i st s' := by
  rw [Rests,huse,htag]
  exact h

theorem Rests.tagsKept {s s' : Config n} {i : Fin n} {st : Status} (h : Rests i st s)
    (hk : TagsKept s.client s'.client) : Rests i st s' :=
  h.slotKept (congrFun hk.inUse i) (congrFun hk.tags i)

theorem Rests.setTag {s : Config n} {i : Fin n} {st : Status} (h : Rests i st s) (handle : Int)
    (f : Tag.Setter) : Rests i st (s.setTag handle f) := by
  obtain ⟨huse,hrest,hst⟩ := h
  by_cases hi : handle = i.val
  · have hset : (s.setTag handle f).client = {s.client with
        tags := Function.update s.client.tags i ((s.client.tags i).set f)} := by
      simp only [Config.setTag,PlcClient.setTag,validHandle_eq_some.mpr ⟨hi,huse⟩]
    rw [Rests,hset]
    simp only [Function.update_self]
    refine ⟨huse,by rwa [Tag.set_inFlight],?_⟩
    rw [Tag.status,Tag.set_state]
    exact hst
  · have hkept := setTag_slotKept (c := s.client) (i := i) hi f
    exact Rests.slotKept ⟨huse,hrest,hst⟩ hkept.inUse hkept.tag

theorem Rests.call {s : Config n} {i : Fin n} {st : Status} (h : Rests i st s) {op : Op}
    (hstart : s.begins (.call op) s.world ≠ some (i.val : Int)) (habort : op ≠ .abortTag i.val)
    (hdestroy : op ≠ .destroyTag i.val) : Rests i st (s.call op) := by
  cases op with
  | begin => exact h.tagsKept (s.client.begin_kept s.world).1
  | connect ip port timeoutMs =>
    exact h.tagsKept (s.client.connect_kept ip port timeoutMs s.world).1
  | disconnect => exact h.tagsKept (s.client.disconnect_kept s.world).1
  | poll =>
    refine h.tagsKept ?_
    rw [Config.call,enter_client]
    exact (s.client.poll_kept s.world).1
  | setCpuSlot slot => exact h
  | createTag name elementCount =>
    have hkept := createTag_slotKept h.1 name elementCount
    exact h.slotKept hkept.inUse hkept.tag
  | destroyTag handle =>
    have hother : handle ≠ i.val := fun hi => hdestroy (congrArg Op.destroyTag hi)
    have hkept := destroyTag_slotKept (c := s.client) hother
    exact h.slotKept hkept.inUse hkept.tag
  | read handle timeoutMs =>
    have hkept := (s.client.read_started handle timeoutMs s.world).slotKept (i := i) ?_
    · exact h.slotKept hkept.inUse hkept.tag
    · rintro hst rfl
      exact hstart (if_pos hst)
  | write handle timeoutMs =>
    have hkept := (s.client.write_started handle timeoutMs s.world).slotKept (i := i) ?_
    · exact h.slotKept hkept.inUse hkept.tag
    · rintro hst rfl
      exact hstart (if_pos hst)
  | abortTag handle =>
    have hother : handle ≠ i.val := fun hi => habort (congrArg Op.abortTag hi)
    have hkept := abortTag_slotKept (c := s.client) hother
    exact h.slotKept hkept.inUse hkept.tag
  | setTag handle f => exact h.setTag handle f
  | setTagCallback set => exact h
  | setStateCallback set => exact h

theorem Rests.advance {s : Config n} {i : Fin n} {st : Status} (h : Rests i st s) :
    Rests i st s.advance := by
  unfold Config.advance
  split
  · next next disconnected stack hstack =>
    split_ifs with hin huse
    · rcases hpoll : (s.client.tags ⟨next,hin⟩).poll s.client.msg s.client.tcp s.world with
        ⟨st',g,m,t,w⟩
      have hc := visit_client disconnected stack hpoll
      refine h.slotKept (by rw [hc]) ?_
      rw [hc]
      by_cases hi : i = ⟨next,hin⟩
      · subst hi
        rw [Tag.poll_still h.2.1] at hpoll
        cases hpoll
        exact Function.update_self _ _ _
      · exact Function.update_of_ne hi _ _
    · exact h
    · refine h.tagsKept ?_
      rw [enter_client]
      exact (s.client.finish_kept disconnected s.world).1
  · exact h

theorem Rests.step {s : Config n} {i : Fin n} {st : Status} {l : Label} (h : Rests i st s)
    (hl : Leaves i s l) : Rests i st (s.step l) := by
  obtain ⟨hstart,habort,hdestroy⟩ := hl
  have hheard : Rests i st (s.hear l.script) := h
  obtain ⟨a,script⟩ := l
  cases a with
  | call op =>
    rw [starts] at hstart
    by_cases hscan : s.scanning = true
    · have hstay : s.step ⟨.call op,script⟩ = s.hear script := if_pos hscan
      rwa [hstay]
    · have hcall : s.step ⟨.call op,script⟩ = (s.hear script).call op := if_neg hscan
      rw [if_neg hscan] at hstart
      rw [hcall]
      exact hheard.call hstart (fun hop => habort (congrArg Act.call hop))
        (fun hop => hdestroy (congrArg Act.call hop))
  | advance => exact hheard.advance
  | ret =>
    have hret : (s.step ⟨.ret,script⟩).client = s.client := (s.hear script).ret_client
    exact h.slotKept (by rw [hret]) (by rw [hret])

variable {s : Config n} {l : Label} {i : Fin n} {st : Status}

theorem Completes.kept (h : s.Completes l i st) (hex : s.client.Exclusive s.world.log) :
    (s.step l).client.inUse i = true ∧ ((s.step l).client.tags i).inFlight = false ∧
      (((s.step l).client.tags i).status = st ↔ st ≠ .timeout ∧ st ≠ .closed) ∧
        ∀ st' log, (s.step l).world.log = .tagCallback i st' :: log → st' = st := by
  obtain ⟨hvisit,hbusy,hst,hpoll⟩ := h
  obtain ⟨disconnected,stack,hstack,huse,hstep⟩ := visiting_step hvisit
  rcases hr : (s.client.tags i).poll s.client.msg s.client.tcp (s.hear l.script).world with
    ⟨st',g,m,t,w⟩
  rw [hr] at hpoll
  simp only at hpoll
  subst hpoll
  have hm := hex.msg_inFlight hbusy
  obtain ⟨hrest,hstatus⟩ := Tag.poll_kept hbusy hm hr hst
  have hc := visit_client (s := s.hear l.script) disconnected stack hr
  have hlog := visit_log (s := s.hear l.script) disconnected stack hr
  rw [hstep,hc,hlog]
  simp only [Function.update_self]
  refine ⟨huse,hrest,hstatus,fun st'' log hhead => ?_⟩
  have hfly : ((s.hear l.script).client.tags i).inFlight = true := hbusy
  rw [visitMarks,hfly,if_pos (show true = true ∧ st' ≠ .pending from ⟨rfl,hst⟩)] at hhead
  split_ifs at hhead
  · cases hhead
    rfl
  · cases hhead

theorem Completes.lost_iff (h : s.Completes l i st) (hex : s.client.Exclusive s.world.log)
    (hp : s.PacedMsg) : (st = .timeout ∨ st = .closed) ↔
      ¬ (expired (s.hear l.script).world.millis.1 s.client.msg.deadline = false ∧
        ¬ s.client.msg.HungUp s.client.tcp l.script) := by
  obtain ⟨_,hbusy,_,rfl⟩ := h
  have hm := hex.msg_inFlight hbusy
  rw [Tag.poll_lost hbusy (Or.inl rfl),Tag.poll_lost hbusy (Or.inr rfl),
    ExplicitMessage.poll_timeout_iff hm,ExplicitMessage.poll_closed_iff hm (hp hm)]
  show _ ∨ _ ∧ s.client.msg.HungUp s.client.tcp l.script ↔ _
  cases expired (s.hear l.script).world.millis.1 s.client.msg.deadline with
  | true => simp
  | false => simp

theorem completes_of_lost (hex : s.client.Exclusive s.world.log) (hp : s.PacedMsg)
    (hvisit : s.visiting l = some i) (hbusy : s.client.busy i = true)
    (hlost : ¬ (expired (s.hear l.script).world.millis.1 s.client.msg.deadline = false ∧
      ¬ s.client.msg.HungUp s.client.tcp l.script)) :
    ∃ st, (st = .timeout ∨ st = .closed) ∧ s.Completes l i st := by
  have hm := hex.msg_inFlight hbusy
  have htimeout := ExplicitMessage.poll_timeout_iff hm s.client.tcp (s.hear l.script).world
  have hclosed := ExplicitMessage.poll_closed_iff hm (hp hm) s.client.tcp (s.hear l.script).world
  by_cases hlate : expired (s.hear l.script).world.millis.1 s.client.msg.deadline = true
  · refine ⟨.timeout,Or.inl rfl,hvisit,hbusy,by simp,?_⟩
    rw [Tag.poll_lost hbusy (Or.inl rfl)]
    exact htimeout.mpr hlate
  · rw [Bool.not_eq_true] at hlate
    refine ⟨.closed,Or.inr rfl,hvisit,hbusy,by simp,?_⟩
    rw [Tag.poll_lost hbusy (Or.inr rfl)]
    exact hclosed.mpr ⟨hlate,by_contra fun hnot => hlost ⟨hlate,hnot⟩⟩

end Config

-- The status a poll ends an operation with is what the callback is told, and what tagStatus and
-- later polls report until the tag is used again, aborted or given up.
def OneStatus {n : Nat} (memory : Fin n → Buffer Tag.kMaxDataSize) (time : Nat)
    (ls : List Label) : Prop :=
  ∀ pre l mid post i st, ls = pre ++ l :: (mid ++ post) →
    (Config.after memory time pre).Completes l i st →
      Guarded Config.step (Config.Leaves i) (Config.after memory time (pre ++ [l])) mid →
        (Config.after memory time (pre ++ l :: mid)).Tells i st ∧
          ∀ st' log, (Config.after memory time (pre ++ [l])).world.log =
            .tagCallback i st' :: log → st' = st

theorem one_status_iff {n : Nat} (memory : Fin n → Buffer Tag.kMaxDataSize) (time : Nat)
    (ls : List Label) : OneStatus memory time ls ↔
      Guarded Config.step Config.Smooth (Config.init memory time) ls := by
  have hex (pre : List Label) := Config.exclusive_after memory time pre
  have hpaced (pre : List Label) := Config.pacedMsg_after memory time pre
  have hnext (pre : List Label) (l : Label) : Config.after memory time (pre ++ [l]) =
      (Config.after memory time pre).step l := run_append _ _ _ _
  rw [guarded_iff]
  constructor
  · intro hone pre l post hls i hvisit hbusy
    by_contra hlost
    obtain ⟨st,hst,hends⟩ := Config.completes_of_lost (hex pre) (hpaced pre) hvisit hbusy hlost
    have htells := (hone pre l [] post i st hls hends trivial).1
    obtain ⟨huse,_,hstatus,_⟩ := hends.kept (hex pre)
    rw [hnext] at htells
    have hkept : (((Config.after memory time pre).step l).client.tags i).status = st := by
      rw [← htells.1,PlcClient.tagStatus,PlcClient.validHandle_eq_some.mpr ⟨rfl,huse⟩]
    rcases hst with rfl | rfl
    · exact (hstatus.mp hkept).1 rfl
    · exact (hstatus.mp hkept).2 rfl
  · intro hsmooth pre l mid post i st hls hends hleaves
    have hcalm := hsmooth pre l (mid ++ post) hls i hends.1 hends.2.1
    have hgood : ¬ (st = .timeout ∨ st = .closed) :=
      fun h => (hends.lost_iff (hex pre) (hpaced pre)).mp h hcalm
    rw [not_or] at hgood
    obtain ⟨huse,hrest,hstatus,hcall⟩ := hends.kept (hex pre)
    rw [hnext] at hleaves ⊢
    have hstart : Config.Rests i st ((Config.after memory time pre).step l) :=
      ⟨huse,hrest,hstatus.mpr hgood⟩
    have hlater : Config.Rests i st (Config.after memory time (pre ++ l :: mid)) := by
      have hsplit : Config.after memory time (pre ++ l :: mid) =
          run Config.step ((Config.after memory time pre).step l) mid := run_append _ _ _ _
      rw [hsplit]
      exact invariant_run (fun _ _ h hl => h.step hl) hstart hleaves
    exact ⟨hlater.tells,hcall⟩

namespace Sample

def unanswered : List Label := watched ++ sweep {sends := [.ok 48]} ++ [call .poll]

def latePoll : Label := {act := .advance, script := {ticks := [1000]}}

def firstSlot : Fin PlcClient.kMaxTags := ⟨0,by decide⟩

theorem unanswered_times_out : (after unanswered).Completes latePoll firstSlot .timeout := by
  show _ ∧ _ ∧ _ ∧ _
  decide +kernel

theorem timeout_is_told_as_error : ¬ OneStatus memory 0 (unanswered ++ [latePoll]) := by
  intro hone
  have hend := hone unanswered latePoll [] [] firstSlot .timeout rfl unanswered_times_out trivial
  have herror : (after (unanswered ++ [latePoll])).client.tagStatus 0 = .error := by decide +kernel
  exact absurd (herror.symm.trans hend.1.1) (by decide)

end Sample

end ControlLogix
