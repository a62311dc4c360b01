import ControlLogix.PlcClient

namespace ControlLogix.PlcClient

variable {n : Nat}

theorem validHandle_eq_some {c : PlcClient n} {handle : Int} {i : Fin n} :
    c.validHandle handle = some i ↔ handle = i.val ∧ c.inUse i = true := by
  simp only [validHandle]
  constructor
  · intro h
    split_ifs at h with hrange huse
    · obtain rfl := Option.some.inj h
      exact ⟨by simp; omega,huse⟩
  · rintro ⟨rfl,huse⟩
    have hrange : (0 : Int) ≤ i.val ∧ (i.val : Int) < n := ⟨by omega,by omega⟩
    rw [dif_pos hrange]
    simp [huse]

theorem findFreeTag_some {c : PlcClient n} {i : Fin n} (h : c.findFreeTag = some i) :
    c.inUse i = false := by
  simpa using List.find?_some h

def validName : Option (List UInt8) → Bool
  | none => false
  | some name => name ≠ [] && name.length < kMaxTagName

theorem createTag_cases (c : PlcClient n) (name : Option (List UInt8)) (elementCount : UInt32) :
    (∃ h, h < 0 ∧ c.createTag name elementCount = (h,c)) ∨
    ∃ i text, c.findFreeTag = some i ∧ validName name = true ∧ text.length < kMaxTagName ∧
      c.createTag name elementCount = ((i.val : Int),
        {c with tagNames := Function.update c.tagNames i text,
                tagElemCount := Function.update c.tagElemCount i elementCount,
                tagPrevStatus := Function.update c.tagPrevStatus i .notReady,
                inUse := Function.update c.inUse i true}) := by
  simp only [createTag]
  cases name with
  | none => exact Or.inl ⟨_,by simp [Status.code],rfl⟩
  | some name =>
    simp only
    split_ifs with hname
    · exact Or.inl ⟨_,by simp [Status.code],rfl⟩
    · cases hfree : c.findFreeTag with
      | none => exact Or.inl ⟨_,by simp [Status.code],rfl⟩
      | some i => exact Or.inr ⟨i,_,rfl,by simpa [validName] using hname,by simp [kMaxTagName],rfl⟩

theorem anyTagBusy_iff (c : PlcClient n) :
    c.anyTagBusy = true ↔ ∃ i, c.inUse i = true ∧ (c.tags i).inFlight = true := by
  simp [anyTagBusy,Tag.status_pending]

structure TagsKept (c c' : PlcClient n) : Prop where
  tags : c'.tags = c.tags
  inUse : c'.inUse = c.inUse
  prev : c'.tagPrevStatus = c.tagPrevStatus
  msg : c'.msg = c.msg
  names : c'.tagNames = c.tagNames

theorem TagsKept.refl (c : PlcClient n) : TagsKept c c := ⟨rfl,rfl,rfl,rfl,rfl⟩

theorem begin_kept (c : PlcClient n) (w : World) :
    TagsKept c (c.begin w).2.1 ∧ World.Spoke w (c.begin w).2.2 :=
  ⟨⟨rfl,rfl,rfl,rfl,rfl⟩,(c.eth.begin_hushed w).spoke⟩

theorem connect_spoke (t : TcpConnection) (ip : UInt32) (port : UInt16) (timeoutMs : UInt32)
    (w : World) : World.Spoke w (t.connect ip port timeoutMs w).2.2 := by
  rcases t.connect_cases ip port timeoutMs w with
    ⟨fd,deadline,mid,w',_,hmid,hlog,heq⟩ | ⟨st,w',_,hw,heq⟩
  · rw [heq]
    have hgrow :=
      Trace.Grows.cons (K := fun e : Event => e.board = true) (e := .connect fd) rfl mid.log
    rw [← hlog] at hgrow
    exact hmid.spoke.trans hgrow
  · rw [heq]
    exact hw.spoke

theorem connect_kept (c : PlcClient n) (ip : UInt32) (port : UInt16) (timeoutMs : UInt32)
    (w : World) : TagsKept c (c.connect ip port timeoutMs w).2.1 ∧
      World.Spoke w (c.connect ip port timeoutMs w).2.2 := by
  have hclose := (c.tcp.close_hushed w).spoke.trans (World.millis_hushed _).spoke
  simp only [connect]
  split_ifs
  · exact ⟨⟨rfl,rfl,rfl,rfl,rfl⟩,hclose.trans (connect_spoke _ _ _ _ _)⟩
  · exact ⟨⟨rfl,rfl,rfl,rfl,rfl⟩,hclose.trans (connect_spoke _ _ _ _ _)⟩
  · exact ⟨⟨rfl,rfl,rfl,rfl,rfl⟩,World.Spoke.refl w⟩

theorem disconnect_kept (c : PlcClient n) (w : World) :
    TagsKept c (c.disconnect w).2.1 ∧ World.Spoke w (c.disconnect w).2.2 := by
  simp only [disconnect]
  split
  · exact ⟨⟨rfl,rfl,rfl,rfl,rfl⟩,World.Spoke.refl w⟩
  · exact ⟨⟨rfl,rfl,rfl,rfl,rfl⟩,(c.tcp.close_hushed w).spoke⟩

theorem pollEthernet_kept (c : PlcClient n) (w : World) :
    TagsKept c (c.pollEthernet w).2.1 ∧ World.Spoke w (c.pollEthernet w).2.2 := by
  have hpoll := (c.eth.poll_hushed w).spoke
  have hclock := hpoll.trans (World.millis_hushed _).spoke
  simp only [pollEthernet]
  split_ifs
  · exact ⟨⟨rfl,rfl,rfl,rfl,rfl⟩,hclock.trans (connect_spoke _ _ _ _ _)⟩
  · exact ⟨⟨rfl,rfl,rfl,rfl,rfl⟩,hclock.trans (connect_spoke _ _ _ _ _)⟩
  all_goals exact ⟨⟨rfl,rfl,rfl,rfl,rfl⟩,hpoll⟩

theorem open_spoke (s : Session) (t : TcpConnection) (timeoutMs : UInt32) (w : World) :
    World.Spoke w (s.open t timeoutMs w).2.2 := by
  rcases s.open_cases t timeoutMs w with ⟨deadline,w',heq,hlog,_⟩ | ⟨st,_,heq,_⟩
  · rw [heq]
    exact World.spoke_of_log hlog
  · rw [heq]
    exact World.Spoke.refl w

theorem tcpPoll_spoke (t : TcpConnection) (w : World) : World.Spoke w (t.poll w).2.2 := by
  obtain ⟨st,t',w',heq,hw,_⟩ := t.poll_cases w
  rw [heq]
  exact hw.spoke

theorem pollConnecting_kept (c : PlcClient n) (w : World) :
    TagsKept c (c.pollConnecting w).2.1 ∧ World.Spoke w (c.pollConnecting w).2.2 := by
  have hpoll := (World.millis_hushed w).spoke.trans (tcpPoll_spoke c.tcp w.millis.2)
  have hopen (s : Session) (t : TcpConnection) (timeoutMs : UInt32) :=
    (hpoll.trans (World.millis_hushed _).spoke).trans (open_spoke s t timeoutMs _)
  simp only [pollConnecting]
  split_ifs
  · exact ⟨⟨rfl,rfl,rfl,rfl,rfl⟩,(World.millis_hushed w).spoke⟩
  · exact ⟨⟨rfl,rfl,rfl,rfl,rfl⟩,hopen _ _ _⟩
  · exact ⟨⟨rfl,rfl,rfl,rfl,rfl⟩,hopen _ _ _⟩
  all_goals exact ⟨⟨rfl,rfl,rfl,rfl,rfl⟩,hpoll⟩

theorem pollRegistering_kept (c : PlcClient n) (w : World) :
    TagsKept c (c.pollRegistering w).2.1 ∧ World.Spoke w (c.pollRegistering w).2.2 := by
  have hpoll := (World.millis_hushed w).spoke.trans (c.session.poll_spoke c.tcp w.millis.2)
  simp only [pollRegistering]
  split_ifs
  · exact ⟨⟨rfl,rfl,rfl,rfl,rfl⟩,(World.millis_hushed w).spoke⟩
  all_goals exact ⟨⟨rfl,rfl,rfl,rfl,rfl⟩,hpoll⟩

theorem pollDisconnecting_kept (c : PlcClient n) (w : World) :
    TagsKept c (c.pollDisconnecting w).2.1 ∧ World.Spoke w (c.pollDisconnecting w).2.2 := by
  have hpoll := c.session.poll_spoke c.tcp w
  simp only [pollDisconnecting]
  split_ifs
  · exact ⟨⟨rfl,rfl,rfl,rfl,rfl⟩,hpoll.trans (TcpConnection.close_hushed _ _).spoke⟩
  · exact ⟨⟨rfl,rfl,rfl,rfl,rfl⟩,hpoll⟩

theorem poll_kept (c : PlcClient n) (w : World) :
    TagsKept c (c.poll w).2.1 ∧ World.Spoke w (c.poll w).2.2 := by
  simp only [poll]
  cases c.state with
  | ethernet => exact c.pollEthernet_kept w
  | connecting => exact c.pollConnecting_kept w
  | registering => exact c.pollRegistering_kept w
  | disconnecting => exact c.pollDisconnecting_kept w
  | _ => exact ⟨.refl c,World.Spoke.refl w⟩

theorem finish_kept (c : PlcClient n) (disconnected : Bool) (w : World) :
    TagsKept c (c.finish disconnected w).2.1 ∧ World.Spoke w (c.finish disconnected w).2.2 := by
  simp only [finish]
  split
  · exact ⟨⟨rfl,rfl,rfl,rfl,rfl⟩,(c.tcp.close_hushed w).spoke⟩
  · exact ⟨.refl c,World.Spoke.refl w⟩

inductive Dials (t : TcpConnection) (w : World) : TcpConnection → State → World → Prop
  | dialed {fd : Int} {tcp : TcpConnection} {mid w' : World} : 0 ≤ fd → tcp.fd = fd →
      tcp.state = .pending → World.Hushed w mid → w'.log = .connect fd :: mid.log →
      Dials t w tcp .connecting w'
  | refused {w' : World} : World.Hushed w w' → Dials t w t.dropped .failed w'

theorem connect_dials (t : TcpConnection) (ip : UInt32) (port : UInt16) (timeoutMs : UInt32)
    {w v : World} (hw : World.Hushed w v) :
    Dials t w (t.connect ip port timeoutMs v).2.1
      (if (t.connect ip port timeoutMs v).1 = .pending then .connecting else .failed)
        (t.connect ip port timeoutMs v).2.2 := by
  rcases t.connect_cases ip port timeoutMs v with
    ⟨fd,deadline,mid,w',hfd,hmid,hlog,heq⟩ | ⟨st,w',hst,hmid,heq⟩
  · rw [heq]
    exact .dialed hfd rfl rfl (hw.trans hmid) hlog
  · rw [heq,if_neg hst]
    exact .refused (hw.trans hmid)

theorem connect_cases (c : PlcClient n) (ip : UInt32) (port : UInt16) (timeoutMs : UInt32)
    (w : World) : ∃ st c' w', c.connect ip port timeoutMs w = (st,c',w') ∧
      (c.eth.ready = false ∧ c'.session = c.session ∧ c'.tcp = c.tcp ∧ c'.state = .ethernet ∧
        w' = w ∨
      c.eth.ready = true ∧ c'.session = c.session.abort ∧ c'.wantConnect = false ∧
        Dials {} w c'.tcp c'.state w') := by
  simp only [connect]
  cases hready : c.eth.ready with
  | false => exact ⟨_,_,_,rfl,Or.inl ⟨rfl,rfl,rfl,rfl,rfl⟩⟩
  | true =>
    have hdial := connect_dials (c.tcp.close w).1 ip port timeoutMs
      ((c.tcp.close_hushed w).trans (World.millis_hushed _))
    by_cases hst : ((c.tcp.close w).1.connect ip port timeoutMs (c.tcp.close w).2.millis.2).1 =
        .pending
    · rw [if_pos hst] at hdial
      rw [if_pos rfl,if_neg (not_not_intro hst)]
      exact ⟨_,_,_,rfl,Or.inr ⟨rfl,rfl,rfl,hdial⟩⟩
    · rw [if_neg hst] at hdial
      rw [if_pos rfl,if_pos hst]
      exact ⟨_,_,_,rfl,Or.inr ⟨rfl,rfl,rfl,hdial⟩⟩

theorem pollEthernet_cases (c : PlcClient n) (w : World) :
    ∃ out c' w', c.pollEthernet w = (out,c',w') ∧ c'.session = c.session ∧
      (c'.tcp = c.tcp ∧ c'.wantConnect = c.wantConnect ∧
        (c'.state = c.state ∨ c'.state = .failed) ∧ World.Hushed w w' ∨
      c.wantConnect = true ∧ (c.eth.poll w).1 = .ok ∧ c'.wantConnect = false ∧
        Dials c.tcp w c'.tcp c'.state w') := by
  have hpoll := c.eth.poll_hushed w
  have hdial := connect_dials c.tcp c.remoteIp c.remotePort c.connectTimeoutMs
    (hpoll.trans (World.millis_hushed _))
  simp only [pollEthernet]
  by_cases hok : (c.eth.poll w).1 = .ok
  · rw [if_pos hok]
    by_cases hwant : c.wantConnect = true
    · rw [if_pos hwant]
      by_cases hst : (c.tcp.connect c.remoteIp c.remotePort c.connectTimeoutMs
          (c.eth.poll w).2.2.millis.2).1 = .pending
      · rw [if_pos hst] at hdial
        rw [if_neg (not_not_intro hst)]
        exact ⟨_,_,_,rfl,rfl,Or.inr ⟨hwant,hok,rfl,hdial⟩⟩
      · rw [if_neg hst] at hdial
        rw [if_pos hst]
        exact ⟨_,_,_,rfl,rfl,Or.inr ⟨hwant,hok,rfl,hdial⟩⟩
    · rw [if_neg hwant]
      exact ⟨_,_,_,rfl,rfl,Or.inl ⟨rfl,rfl,Or.inl rfl,hpoll⟩⟩
  · rw [if_neg hok]
    split
    · exact ⟨_,_,_,rfl,rfl,Or.inl ⟨rfl,rfl,Or.inr rfl,hpoll⟩⟩
    · exact ⟨_,_,_,rfl,rfl,Or.inl ⟨rfl,rfl,Or.inl rfl,hpoll⟩⟩

theorem pollConnecting_cases (c : PlcClient n) (w : World) :
    ∃ out c' w', c.pollConnecting w = (out,c',w') ∧ c'.wantConnect = c.wantConnect ∧
      World.Hushed w w' ∧
      (c'.session = c.session ∧ (c'.tcp = c.tcp ∧ (c'.state = c.state ∨ c'.state = .failed) ∨
        (c'.tcp = {} ∨ c'.tcp = {c.tcp with state := .ok}) ∧ c'.state = .failed) ∨
      ∃ deadline, c'.session = (Session.startRegister
          {c.session with conn := true, deadline := deadline}).2 ∧
        c.session.state ≠ .registering ∧ c.session.state ≠ .registered ∧
          c'.tcp = {c.tcp with state := .ok} ∧ c'.state = .registering) := by
  simp only [pollConnecting]
  by_cases hlate : expired w.millis.1 c.deadline
  · rw [if_pos hlate]
    exact ⟨_,_,_,rfl,rfl,World.millis_hushed w,Or.inl ⟨rfl,Or.inl ⟨rfl,Or.inr rfl⟩⟩⟩
  rw [if_neg hlate]
  obtain ⟨st,t,v,hpoll,hv,hkind⟩ := c.tcp.poll_cases w.millis.2
  have hhush := (World.millis_hushed w).trans hv
  rw [hpoll]
  by_cases hok : st = .ok
  · subst hok
    have ht : t = {c.tcp with state := .ok} := by
      rcases hkind with ⟨rfl,⟨h,_⟩ | ⟨_,hs⟩ | h⟩ | ⟨rfl,_⟩ | ⟨_,h | h⟩
      · cases h
      · rw [← hs]
      · cases h
      · rfl
      · cases h
      · cases h
    simp only [if_true]
    rcases c.session.open_cases t (c.deadline - v.millis.1) v.millis.2 with
      ⟨deadline,w',heq,hlog,hreg,hregd,_⟩ | ⟨ost,host,heq,_⟩
    · rw [heq]
      exact ⟨_,_,_,rfl,rfl,(hhush.trans (World.millis_hushed v)).trans (World.hushed_of_log hlog),
        Or.inr ⟨deadline,rfl,hreg,hregd,ht,rfl⟩⟩
    · rw [heq]
      simp only [if_pos host]
      exact ⟨_,_,_,rfl,rfl,hhush.trans (World.millis_hushed v),
        Or.inl ⟨rfl,Or.inr ⟨Or.inr ht,rfl⟩⟩⟩
  · simp only [if_neg hok]
    by_cases hbad : st = .timeout ∨ st = .error
    · rw [if_pos hbad]
      refine ⟨_,_,_,rfl,rfl,hhush,Or.inl ⟨rfl,?_⟩⟩
      rcases hkind with ⟨rfl,_⟩ | ⟨_,h,_⟩ | ⟨rfl,_⟩
      · exact Or.inl ⟨rfl,Or.inr rfl⟩
      · exact absurd h hok
      · exact Or.inr ⟨Or.inl rfl,rfl⟩
    · rw [if_neg hbad]
      refine ⟨_,_,_,rfl,rfl,hhush,Or.inl ⟨rfl,Or.inl ⟨?_,Or.inl rfl⟩⟩⟩
      rcases hkind with ⟨rfl,_⟩ | ⟨_,h,_⟩ | ⟨_,h⟩
      · rfl
      · exact absurd h hok
      · exact absurd (Or.symm h) hbad

theorem pollRegistering_cases (c : PlcClient n) (w : World) :
    ∃ out c' w', c.pollRegistering w = (out,c',w') ∧ c'.wantConnect = c.wantConnect ∧
      (expired w.millis.1 c.deadline = true ∧ c'.session = c.session ∧ c'.tcp = c.tcp ∧
        c'.state = .failed ∧ World.Hushed w w' ∨
      expired w.millis.1 c.deadline = false ∧ ∃ st, c.session.poll c.tcp w.millis.2 =
          (st,c'.session,c'.tcp,w') ∧
        c'.state = if st = .ok then .ready else if st = .timeout ∨ st = .error then .failed
          else c.state) := by
  simp only [pollRegistering]
  by_cases hlate : expired w.millis.1 c.deadline = true
  · rw [if_pos hlate]
    exact ⟨_,_,_,rfl,rfl,Or.inl ⟨hlate,rfl,rfl,rfl,World.millis_hushed w⟩⟩
  rw [if_neg hlate]
  rcases hpoll : c.session.poll c.tcp w.millis.2 with ⟨st,s,t,v⟩
  have hnot := Bool.not_eq_true _ ▸ hlate
  simp only
  split_ifs with hok hbad
  · exact ⟨_,_,_,rfl,rfl,Or.inr ⟨hnot,st,rfl,by rw [if_pos hok]⟩⟩
  · exact ⟨_,_,_,rfl,rfl,Or.inr ⟨hnot,st,rfl,by rw [if_neg hok,if_pos hbad]⟩⟩
  · exact ⟨_,_,_,rfl,rfl,Or.inr ⟨hnot,st,rfl,by rw [if_neg hok,if_neg hbad]⟩⟩

theorem pollDisconnecting_cases (c : PlcClient n) (w : World) :
    ∃ out c' w' st t v, c.pollDisconnecting w = (out,c',w') ∧ c'.wantConnect = c.wantConnect ∧
      c.session.poll c.tcp w = (st,c'.session,t,v) ∧
      ((st = .ok ∨ st = .closed) ∧ out = c.notify .closed .ok ∧ c'.tcp = {} ∧
        c'.state = .idle ∧ w' = (t.close v).2 ∨
      ¬ (st = .ok ∨ st = .closed) ∧ out = .returns .pending ∧ c'.tcp = t ∧ c'.state = c.state ∧
        w' = v) := by
  simp only [pollDisconnecting]
  by_cases hover : (c.session.poll c.tcp w).1 = .ok ∨ (c.session.poll c.tcp w).1 = .closed
  · rw [if_pos hover]
    exact ⟨_,_,_,_,_,_,rfl,rfl,rfl,Or.inl ⟨hover,rfl,rfl,rfl,rfl⟩⟩
  · rw [if_neg hover]
    exact ⟨_,_,_,_,_,_,rfl,rfl,rfl,Or.inr ⟨hover,rfl,rfl,rfl,rfl⟩⟩

inductive Started (c : PlcClient n) (handle : Int) (w : World) :
    Status × PlcClient n × World → Prop
  | taken {i : Fin n} {g : Tag} {service : UInt8} {path data : List UInt8} {deadline : UInt32}
      {w' : World} :
      c.validHandle handle = some i → c.state = .ready → c.anyTagBusy = false →
      (c.tags i).inFlight = false → c.msg.inFlight = false → c.tcp.connected = true →
      g.inFlight = true → g.dataType = (c.tags i).dataType →
      Encapsulated (ExplicitMessage.requestFrame c.session.handle c.msg.context service path
        data) → w'.log = w.log →
      Started c handle w (.pending,
        {c with tags := Function.update c.tags i g,
                msg := c.msg.issued (ExplicitMessage.requestFrame c.session.handle c.msg.context
                  service path data) deadline},w')
  | refused {st : Status} : st ≠ .pending →
      (st = .busy → c.state = .ready ∧ (c.anyTagBusy = true ∨ c.msg.inFlight = true ∨
        ∃ i, c.validHandle handle = some i ∧ (c.tags i).inFlight = true)) →
      Started c handle w (st,c,w)

variable {c : PlcClient n} {handle : Int} {i : Fin n} {w : World}

theorem started_of_tag (hvalid : c.validHandle handle = some i) (hready : c.state = .ready)
    (hbusy : c.anyTagBusy = false) {r : Status × Tag × ExplicitMessage × World}
    (h : (c.tags i).Started c.msg c.tcp c.session.handle w r) :
    Started c handle w
      (r.1,{c with tags := Function.update c.tags i r.2.1, msg := r.2.2.1},r.2.2.2) := by
  cases h with
  | taken hg hm ht hfly htype hbox hlog =>
    exact .taken hvalid hready hbusy hg hm ht hfly htype hbox hlog
  | refused hst hwhy =>
    simp only [Function.update_eq_self]
    refine .refused hst fun h => ⟨hready,Or.inr ?_⟩
    rcases hwhy h with hg | hm
    · exact Or.inr ⟨i,hvalid,hg⟩
    · exact Or.inl hm

theorem read_started (c : PlcClient n) (handle : Int) (timeoutMs : UInt32) (w : World) :
    Started c handle w (c.read handle timeoutMs w) := by
  simp only [read]
  cases hvalid : c.validHandle handle with
  | none => exact .refused (by simp) (by simp)
  | some i =>
    simp only
    split_ifs with hready hbusy
    · exact .refused (by simp) (by simp)
    · exact .refused (by simp) fun _ => ⟨by simpa using hready,Or.inl hbusy⟩
    · exact started_of_tag hvalid (by simpa using hready) (by simpa using hbusy)
        (Tag.read_started _ _ _ _ _)

theorem write_started (c : PlcClient n) (handle : Int) (timeoutMs : UInt32) (w : World) :
    Started c handle w (c.write handle timeoutMs w) := by
  simp only [write]
  cases hvalid : c.validHandle handle with
  | none => exact .refused (by simp) (by simp)
  | some i =>
    simp only
    split_ifs with hready hbusy
    · exact .refused (by simp) (by simp)
    · exact .refused (by simp) fun _ => ⟨by simpa using hready,Or.inl hbusy⟩
    · exact started_of_tag hvalid (by simpa using hready) (by simpa using hbusy)
        (Tag.write_started _ _ _ _ _)

end ControlLogix.PlcClient
