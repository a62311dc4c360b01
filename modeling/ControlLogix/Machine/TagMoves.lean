import ControlLogix.Machine
import ControlLogix.PlcClient.Moves

namespace ControlLogix

open PlcClient

def Event.quiet : Event → Bool
  | .stateCallback _ => true
  | e => e.board

-- The marks a visit of slot i leaves, newest first.
def visitMarks (i : Nat) (st : Status) (m : ExplicitMessage) (inFlight called : Bool) :
    List Event :=
  (if called then [.tagCallback i st] else []) ++
    (if inFlight ∧ st ≠ .pending then [.ended i st (m.state = .done) m.io.rx] else [])

namespace Config

variable {n : Nat}

def begins (s : Config n) (a : Act) (heard : World) : Option Int :=
  match a with
  | .call (.read handle timeoutMs) =>
    if (s.client.read handle timeoutMs heard).1 = .pending then some handle else none
  | .call (.write handle timeoutMs) =>
    if (s.client.write handle timeoutMs heard).1 = .pending then some handle else none
  | _ => none

inductive ConnMove (c : PlcClient n) (a : Act) (heard : World) (c' : PlcClient n)
    (log' : List Event) : Prop
  | still : c'.state = c.state → c'.session = c.session → c'.tcp = c.tcp →
      c'.wantConnect = c.wantConnect → log' = heard.log → ConnMove c a heard c' log'
  | begun : a = .call .begin → c' = (c.begin heard).2.1 → log' = (c.begin heard).2.2.log →
      ConnMove c a heard c' log'
  | connected (ip : UInt32) (port : UInt16) (timeoutMs : UInt32) :
      a = .call (.connect ip port timeoutMs) → c' = (c.connect ip port timeoutMs heard).2.1 →
      log' = (c.connect ip port timeoutMs heard).2.2.log → ConnMove c a heard c' log'
  | disconnected : a = .call .disconnect → c' = (c.disconnect heard).2.1 →
      log' = (c.disconnect heard).2.2.log → ConnMove c a heard c' log'
  | polled (marks : List Event) : a = .call .poll → c' = (c.poll heard).2.1 →
      (∀ e ∈ marks, ∃ arg, e = .stateCallback arg) → log' = marks ++ (c.poll heard).2.2.log →
      ConnMove c a heard c' log'
  | finished (marks : List Event) : a = .advance → c' = (c.finish true heard).2.1 →
      (∀ e ∈ marks, ∃ arg, e = .stateCallback arg) →
      log' = marks ++ (c.finish true heard).2.2.log → ConnMove c a heard c' log'

inductive TagMove (s : Config n) (a : Act) (heard : World) (s' : Config n) : Prop
  | quiet : TagsKept s.client s'.client →
      Trace.Grows (fun e => e.quiet = true) s.world.log s'.world.log →
      ConnMove s.client a heard s'.client s'.world.log → TagMove s a heard s'
  | created (i : Fin n) (name : Option (List UInt8)) (elementCount : UInt32) :
      a = .call (.createTag name elementCount) → s.client.findFreeTag = some i →
      validName name = true → s.client.inUse i = false →
      (∃ text, text.length < kMaxTagName ∧ s'.client = {s.client with
        tagNames := Function.update s.client.tagNames i text,
        tagElemCount := Function.update s.client.tagElemCount i elementCount,
        tagPrevStatus := Function.update s.client.tagPrevStatus i .notReady,
        inUse := Function.update s.client.inUse i true}) →
      s'.world.log = .created i :: s.world.log → TagMove s a heard s'
  | destroyed (i : Fin n) (handle : Int) : a = .call (.destroyTag handle) →
      s.client.validHandle handle = some i → s.client.inUse i = true →
      s'.client = {s.client with inUse := Function.update s.client.inUse i false} →
      s'.world.log = s.world.log → TagMove s a heard s'
  | started (i : Fin n) (g : Tag) (service : UInt8) (path data : List UInt8)
      (deadline : UInt32) (frame : List UInt8) : s.begins a heard = some (i.val : Int) →
      s.client.inUse i = true →
      s.client.state = .ready → s.client.anyTagBusy = false →
      (s.client.tags i).inFlight = false → s.client.msg.inFlight = false →
      s.client.tcp.connected = true → g.inFlight = true →
      g.dataType = (s.client.tags i).dataType →
      frame = ExplicitMessage.requestFrame s.client.session.handle s.client.msg.context service
        path data ∧ Encapsulated frame →
      s'.client = {s.client with tags := Function.update s.client.tags i g,
                                 msg := s.client.msg.issued frame deadline} →
      s'.world.log = .started i frame :: s.world.log → TagMove s a heard s'
  | typed (i : Fin n) (f : Tag.Setter) : s.client.inUse i = true →
      s'.client = {s.client with tags := Function.update s.client.tags i ((s.client.tags i).set f)} →
      s'.world.log = (if f.types then [.typed i] else []) ++ s.world.log → TagMove s a heard s'
  | aborted (i : Fin n) : s.client.inUse i = true →
      s'.client = {s.client with
        tags := Function.update s.client.tags i ((s.client.tags i).abort s.client.msg).1,
        msg := ((s.client.tags i).abort s.client.msg).2,
        tagPrevStatus := Function.update s.client.tagPrevStatus i .notReady} →
      s'.world.log = (if (s.client.tags i).inFlight then [.aborted i] else []) ++ s.world.log →
      TagMove s a heard s'
  | visited (i : Fin n) (disconnected : Bool) (stack : List Frame) (st : Status) (g : Tag)
      (m : ExplicitMessage) (t : TcpConnection) (w' : World) : a = .advance →
      s.stack = .scan i disconnected :: stack → s.client.inUse i = true →
      (s.client.tags i).poll s.client.msg s.client.tcp heard = (st,g,m,t,w') →
      s'.client = {s.client with tags := Function.update s.client.tags i g, msg := m, tcp := t,
                                 tagPrevStatus := Function.update s.client.tagPrevStatus i st} →
      s'.world.log = visitMarks i st m (s.client.tags i).inFlight
        (s.client.tagPrevStatus i = .pending ∧ st ≠ .pending ∧ s.client.tagCallback) ++ w'.log →
      TagMove s a heard s'

theorem grows_quiet {w w' : World} (h : World.Spoke w w') :
    Trace.Grows (fun e => e.quiet = true) w.log w'.log :=
  h.mono fun e he => by cases e <;> simp_all [Event.quiet,Event.board]

theorem quiet_of_kept {s s' : Config n} {a : Act} {heard : World}
    (h : TagsKept s.client s'.client ∧ World.Spoke s.world s'.world)
    (hconn : ConnMove s.client a heard s'.client s'.world.log) : TagMove s a heard s' :=
  .quiet h.1 (grows_quiet h.2) hconn

theorem quiet_refl (s : Config n) (a : Act) : TagMove s a s.world s :=
  quiet_of_kept ⟨.refl _,World.Spoke.refl _⟩ (.still rfl rfl rfl rfl rfl)

-- The mark that entering with a callback to invoke leaves.
def enterMarks : Poll → List Event
  | .calls arg _ => [.stateCallback arg]
  | _ => []

theorem enterMarks_mem {p : Poll} {e : Event} (h : e ∈ enterMarks p) :
    ∃ arg, e = .stateCallback arg := by
  cases p <;> simp_all [enterMarks]

theorem enter_client (p : Poll × PlcClient n × World) (stack : List Frame) :
    (enter p stack).client = p.2.1 := by
  obtain ⟨out,c,w⟩ := p
  cases out <;> rfl

theorem enter_log (p : Poll × PlcClient n × World) (stack : List Frame) :
    (enter p stack).world.log = enterMarks p.1 ++ p.2.2.log := by
  obtain ⟨out,c,w⟩ := p
  cases out <;> rfl

theorem enter_move {s : Config n} {a : Act} {heard : World} {p : Poll × PlcClient n × World}
    {stack : List Frame} (h : TagsKept s.client p.2.1 ∧ World.Spoke s.world p.2.2)
    (hconn : ConnMove s.client a heard p.2.1 (enterMarks p.1 ++ p.2.2.log)) :
    TagMove s a heard (enter p stack) := by
  refine .quiet (by rw [enter_client]; exact h.1) ?_ (by rw [enter_client,enter_log]; exact hconn)
  rw [enter_log]
  refine (grows_quiet h.2).trans ⟨enterMarks p.1,rfl,fun e he => ?_⟩
  obtain ⟨arg,rfl⟩ := enterMarks_mem he
  rfl

theorem started_move {s : Config n} {a : Act} {handle : Int} {r : Status × PlcClient n × World}
    (ha : r.1 = .pending → s.begins a s.world = some handle)
    (h : PlcClient.Started s.client handle s.world r)
    (stack : List Frame) : TagMove s a s.world (started handle r stack) := by
  cases h with
  | @taken i g service path data deadline w' hvalid hready hfree hg hm ht hfly htype hbox hlog =>
    obtain ⟨rfl,huse⟩ := validHandle_eq_some.mp hvalid
    exact .started i g service path data deadline _ (ha rfl) huse hready hfree hg hm ht hfly htype
        ⟨rfl,hbox⟩ rfl
      (by simp [started,hlog,ExplicitMessage.issued,Transfer.load])
  | @refused st hst _ =>
    have hlog : (started handle (st,s.client,s.world) stack).world.log = s.world.log := by
      simp [started,hst]
    exact .quiet (.refl _) (by rw [hlog]; exact Trace.Grows.refl _ _)
      (.still rfl rfl rfl rfl hlog)

theorem createTag_move (s : Config n) (name : Option (List UInt8)) (elementCount : UInt32) :
    TagMove s (.call (.createTag name elementCount)) s.world (s.createTag name elementCount) := by
  simp only [createTag]
  rcases s.client.createTag_cases name elementCount with ⟨h,hneg,heq⟩ |
    ⟨i,text,hfree,hname,htext,heq⟩
  · simp only [heq,if_neg (not_le.mpr hneg)]
    exact s.quiet_refl _
  · simp only [heq]
    exact .created i name elementCount rfl hfree hname (findFreeTag_some hfree) ⟨text,htext,rfl⟩
      (by simp)

theorem setTag_move (s : Config n) (a : Act) (handle : Int) (f : Tag.Setter) :
    TagMove s a s.world (s.setTag handle f) := by
  simp only [setTag,PlcClient.setTag]
  cases hvalid : s.client.validHandle handle with
  | none => exact s.quiet_refl _
  | some i =>
    refine .typed i f (validHandle_eq_some.mp hvalid).2 rfl ?_
    simp only
    split <;> rfl

theorem abortTag_move (s : Config n) (a : Act) (handle : Int) :
    TagMove s a s.world (s.abortTag handle) := by
  simp only [abortTag,PlcClient.abortTag]
  cases hvalid : s.client.validHandle handle with
  | none => exact s.quiet_refl _
  | some i =>
    refine .aborted i (validHandle_eq_some.mp hvalid).2 rfl ?_
    simp only
    split <;> rfl

theorem destroyTag_move (s : Config n) (handle : Int) :
    TagMove s (.call (.destroyTag handle)) s.world
      {s with client := (s.client.destroyTag handle).2} := by
  simp only [PlcClient.destroyTag]
  cases hvalid : s.client.validHandle handle with
  | none => exact s.quiet_refl _
  | some i => exact .destroyed i handle rfl hvalid (validHandle_eq_some.mp hvalid).2 rfl rfl

theorem call_move (s : Config n) (op : Op) : TagMove s (.call op) s.world (s.call op) := by
  cases op with
  | begin => exact quiet_of_kept (s.client.begin_kept s.world) (.begun rfl rfl rfl)
  | connect ip port timeoutMs =>
    exact quiet_of_kept (s.client.connect_kept ip port timeoutMs _)
      (.connected ip port timeoutMs rfl rfl rfl)
  | disconnect =>
    exact quiet_of_kept (s.client.disconnect_kept s.world) (.disconnected rfl rfl rfl)
  | poll =>
    exact enter_move (s.client.poll_kept s.world)
      (.polled _ rfl rfl (fun _ he => enterMarks_mem he) rfl)
  | setCpuSlot slot =>
    exact quiet_of_kept ⟨⟨rfl,rfl,rfl,rfl,rfl⟩,World.Spoke.refl _⟩ (.still rfl rfl rfl rfl rfl)
  | createTag name elementCount => exact s.createTag_move name elementCount
  | destroyTag handle => exact s.destroyTag_move handle
  | read handle timeoutMs =>
    exact started_move (fun h => by exact if_pos h) (s.client.read_started handle timeoutMs _) _
  | write handle timeoutMs =>
    exact started_move (fun h => by exact if_pos h) (s.client.write_started handle timeoutMs _) _
  | abortTag handle => exact s.abortTag_move _ handle
  | setTag handle f => exact s.setTag_move _ handle f
  | setTagCallback set =>
    exact quiet_of_kept ⟨⟨rfl,rfl,rfl,rfl,rfl⟩,World.Spoke.refl _⟩ (.still rfl rfl rfl rfl rfl)
  | setStateCallback set =>
    exact quiet_of_kept ⟨⟨rfl,rfl,rfl,rfl,rfl⟩,World.Spoke.refl _⟩ (.still rfl rfl rfl rfl rfl)

theorem visit_client {s : Config n} {i : Fin n} (disconnected : Bool) (stack : List Frame)
    {st : Status} {g : Tag} {m : ExplicitMessage} {t : TcpConnection} {w : World}
    (hpoll : (s.client.tags i).poll s.client.msg s.client.tcp s.world = (st,g,m,t,w)) :
    (s.visit i disconnected stack).client = {s.client with
      tags := Function.update s.client.tags i g, msg := m, tcp := t,
      tagPrevStatus := Function.update s.client.tagPrevStatus i st} := by
  simp only [visit,PlcClient.visit,hpoll]
  split <;> rfl

theorem visit_log {s : Config n} {i : Fin n} (disconnected : Bool) (stack : List Frame)
    {st : Status} {g : Tag} {m : ExplicitMessage} {t : TcpConnection} {w : World}
    (hpoll : (s.client.tags i).poll s.client.msg s.client.tcp s.world = (st,g,m,t,w)) :
    (s.visit i disconnected stack).world.log = visitMarks i st m (s.client.tags i).inFlight
      (s.client.tagPrevStatus i = .pending ∧ st ≠ .pending ∧ s.client.tagCallback) ++ w.log := by
  simp only [visit,PlcClient.visit,hpoll,visitMarks]
  split_ifs <;> simp

theorem visit_move (s : Config n) {i : Fin n} (huse : s.client.inUse i = true)
    {disconnected : Bool} {stack : List Frame} (hstack : s.stack = .scan i disconnected :: stack) :
    TagMove s .advance s.world (s.visit i disconnected stack) := by
  rcases hpoll : (s.client.tags i).poll s.client.msg s.client.tcp s.world with ⟨st,g,m,t,w⟩
  exact .visited i disconnected stack st g m t w rfl hstack huse hpoll 
    (visit_client disconnected stack hpoll) (visit_log disconnected stack hpoll)

theorem advance_move (s : Config n) : TagMove s .advance s.world s.advance := by
  unfold advance
  split
  · next next disconnected stack hstack =>
    split_ifs with hin huse
    · exact s.visit_move huse hstack
    · exact quiet_of_kept ⟨.refl _,World.Spoke.refl _⟩ (.still rfl rfl rfl rfl rfl)
    · refine enter_move (s.client.finish_kept _ s.world) ?_
      cases disconnected with
      | false => exact .still rfl rfl rfl rfl rfl
      | true => exact .finished _ rfl rfl (fun _ he => enterMarks_mem he) rfl
  · exact s.quiet_refl _

theorem ret_move (s : Config n) : TagMove s .ret s.world s.ret := by
  unfold ret
  split
  · exact quiet_of_kept ⟨.refl _,World.Spoke.refl _⟩ (.still rfl rfl rfl rfl rfl)
  · exact quiet_of_kept ⟨.refl _,World.Spoke.refl _⟩ (.still rfl rfl rfl rfl rfl)
  · exact s.quiet_refl _

theorem act_move (s : Config n) (a : Act) : TagMove s a s.world (s.act a) := by
  cases a with
  | call op =>
    simp only [act]
    split
    · exact s.quiet_refl _
    · exact s.call_move op
  | advance => exact s.advance_move
  | ret => exact s.ret_move

theorem step_move (s : Config n) (l : Label) :
    TagMove s l.act (s.hear l.script).world (s.step l) := by
  cases (s.hear l.script).act_move l.act with
  | quiet hk hlog hconn => exact .quiet hk hlog hconn
  | created i name k ha hfree hname huse hc hlog =>
    exact .created i name k ha hfree hname huse hc hlog
  | destroyed i handle ha hvalid huse hc hlog => exact .destroyed i handle ha hvalid huse hc hlog
  | started i g service path data deadline frame ha huse hready hbusy hg hm ht hfly htype hframe
      hc hlog =>
    exact .started i g service path data deadline frame ha huse hready hbusy hg hm ht hfly htype
      hframe hc hlog
  | typed i f huse hc hlog => exact .typed i f huse hc hlog
  | aborted i huse hc hlog => exact .aborted i huse hc hlog
  | visited i disconnected stack st g m t w ha hstack huse hpoll hc hlog =>
    exact .visited i disconnected stack st g m t w ha hstack huse hpoll hc hlog

end Config

end ControlLogix
