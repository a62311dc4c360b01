import ControlLogix.Eip.Link
import ControlLogix.Server.ReadAfterWrite

namespace ControlLogix

open SyntheticServer (answer Request)

namespace SyntheticServer

theorem handlePackets_append (s : SyntheticServer) (ps qs : List (List UInt8)) :
    s.handlePackets (ps ++ qs) = (s.handlePackets ps).bind fun r =>
      (r.2.handlePackets qs).map fun q => (r.1 ++ q.1,q.2) := by
  induction ps generalizing s with
  | nil => simp [handlePackets]
  | cons p ps ih =>
    simp only [List.cons_append,handlePackets]
    cases s.handlePacket p with
    | none => rfl
    | some r =>
      simp only [ih]
      cases r.2.handlePackets ps with
      | none => rfl
      | some q =>
        simp only [Option.map_some,Option.bind_some,Option.map_map]
        refine congrArg (fun f => Option.map f _) (funext fun x => ?_)
        simp [List.append_assoc]

end SyntheticServer

namespace Link

-- What a server that took the connection as it stood has made of the bytes on it, and what it has
-- sent back.
def served (server : SyntheticServer) (k : Link) : Option (List UInt8 × SyntheticServer) :=
  server.handleConnection (Writes.written k.sends)

def sent (server : SyntheticServer) (k : Link) : List UInt8 := ((k.served server).map Prod.fst).getD []

-- Whole requests have been written and all their answers read; the server stands at sv.
structure Synced (server sv : SyntheticServer) (k : Link) : Prop where
  whole : k.unfinished = []
  served : k.served server = some (k.rcvd,sv)
  bounded : sv.Bounded

-- The request tx that is on its way has been written as far as txSent, and all that has been read
-- since is its answer.
structure Underway (server sv : SyntheticServer) (before : Link) (x : Transfer) (k : Link) :
    Prop where
  synced : before.Synced server sv
  sent : Writes.written k.sends = Writes.written before.sends ++ x.tx.take x.txSent
  rcvd : k.rcvd = before.rcvd ++ x.rx
  silent : x.txSent < x.tx.length → x.rx = []

variable {server sv : SyntheticServer} {k before : Link} {x x' : Transfer}

theorem Underway.load (h : k.Synced server sv) (frame : List UInt8) {k' : Link}
    (hsends : k'.sends = k.sends) (hrcvd : k'.rcvd = k.rcvd) :
    Underway server sv k (Transfer.load frame) k' :=
  ⟨h,by rw [hsends]; exact (List.append_nil _).symm,by rw [hrcvd]; exact (List.append_nil _).symm,
    fun _ => rfl⟩

theorem Underway.moved {t t' : TcpConnection} {w w' : World}
    (h : Underway server sv before x (lastLink w.log)) (hmoved : Transfer.Moved x t w x' t' w') :
    Underway server sv before x' (lastLink w'.log) := by
  obtain ⟨new,more,hrx,hlink⟩ := hmoved.link
  refine ⟨h.synced,hmoved.written h.sent,?_,fun hmore => ?_⟩
  · rw [hlink,hrx,h.rcvd,List.append_assoc]
  · rw [hmoved.silent_until_sent hmore]
    rw [hmoved.tx_eq] at hmore
    exact h.silent (Nat.lt_of_le_of_lt hmoved.advances hmore)

theorem Underway.answered (h : Underway server sv before x k) {r : Request} {session : UInt32}
    {context : UInt64} (htx : x.tx = r.frame session context) (hplain : r.plain) (hfits : r.fits)
    {cip : List UInt8} {sv' : SyntheticServer}
    (hserve : sv.handleCipRequest session r.service r.path r.rest = some (cip,sv'))
    (hcip : 4 ≤ cip.length) (hsmall : cip.length ≤ ExplicitMessage.kMaxCipData)
    (hall : x.tx.length ≤ x.txSent) :
    k.unfinished = [] ∧
      k.served server = some (before.rcvd ++ (answer context cip hcip hsmall).bytes,sv') := by
  have hbox : Encapsulated x.tx := by
    rw [htx]
    exact r.frame_encapsulated hfits session context
  have hne : x.tx ≠ [] := by
    intro hnil
    rw [hnil] at hbox
    exact absurd hbox.header (by decide)
  have hcut : Packets.cut packetSize (Writes.written k.sends) =
      ((Packets.cut packetSize (Writes.written before.sends)).1 ++ [x.tx],[]) := by
    rw [h.sent,List.take_of_length_le hall,Packets.cut_append packetSize_append h.synced.whole,
      Packets.cut_whole hne hbox.packetSize]
  refine ⟨by rw [unfinished,hcut],?_⟩
  have hbefore := h.synced.served
  simp only [served,SyntheticServer.handleConnection] at hbefore ⊢
  rw [hcut,SyntheticServer.handlePackets_append,hbefore]
  simp only [Option.bind_some,SyntheticServer.handlePackets]
  rw [htx,sv.handlePacket_frame hplain hfits,hserve]
  simp [SyntheticServer.unconnectedReply_answer context hcip hsmall]

theorem Underway.reads (h : Underway server sv before x k) {bs : List UInt8}
    {sv' : SyntheticServer} (hserved : x.tx.length ≤ x.txSent →
      k.served server = some (before.rcvd ++ bs,sv')) (hread : k.rcvd <+: k.sent server) :
    x.rx <+: bs := by
  rcases Nat.lt_or_ge x.txSent x.tx.length with hmore | hall
  · rw [h.silent hmore]
    exact List.nil_prefix
  · rw [Link.sent,hserved hall,h.rcvd] at hread
    exact (List.prefix_append_right_inj _).mp hread

end Link

namespace Tag

theorem settle_fst (g : Tag) (m : ExplicitMessage) :
    (g.settle m).1 = if m.resultCode = 0 then .ok else .error := by
  by_cases h : m.resultCode = 0
  · rw [if_pos h,g.settle_accepted h]
  · rw [if_neg h,g.settle_refused h]

theorem settle_status (g : Tag) (m : ExplicitMessage) : (g.settle m).2.status = (g.settle m).1 := by
  simp only [settle]
  split <;> rfl

end Tag

namespace Access

def ended (a : Access) (g : Tag) (m : ExplicitMessage) : Done :=
  ⟨a,true,(g.settle m).1,(g.settle m).2⟩

variable {a : Access} {sv : SyntheticServer} {g : Tag} {m : ExplicitMessage} {r : Reply}

theorem ended_read (hname : a.name.length ≤ kMaxSymbolicName) (hg : g.state = .reading)
    (hcip : r.cip = sv.handleReadTag (appendSymbolic a.name)) (hcode : m.resultCode = r.status)
    (hdata : m.dataBytes = r.data) (hlen : m.dataLen = r.data.length) :
    (∀ v, sv.memory a.key = some v → (a.ended g m).Holds v) ∧
      (sv.memory a.key = none → (a.ended g m).status = .error) := by
  have hget : sv.memory a.key =
      Dict.get (SyntheticServer.parseSymbolicPath (appendSymbolic a.name)) sv.tags := by
    rw [SyntheticServer.parseSymbolicPath_append hname]
    rfl
  rw [hget]
  refine ⟨fun v hheld => ?_,fun hheld => ?_⟩
  · rw [SyntheticServer.handleReadTag_found hheld] at hcip
    have hzero : m.resultCode = 0 := by rw [hcode,Reply.status,hcip]; rfl
    have hrest : r.data = putU16 v.1.toUInt16 ++ v.2 := by
      rw [Reply.data_plain (by rw [hcip]; rfl),hcip]
      rfl
    obtain ⟨htype,hsize,hbytes⟩ := Tag.settle_value hg hzero (hdata.trans hrest)
      (hlen.trans (congrArg List.length hdata.symm))
    exact ⟨Tag.settle_accepted _ hzero,htype,hsize,hbytes⟩
  · rw [SyntheticServer.handleReadTag_missing hheld] at hcip
    exact Tag.settle_refused _ (by rw [hcode,Reply.status,hcip]; decide)

theorem handled (a : Access) (hname : a.name.length ≤ kMaxSymbolicName)
    (hvalue : a.kind = .write → ∃ len, a.tag.writeLength a.elementCount = some len)
    (h : sv.Bounded) : ∃ cip sv', sv.handleCipRequest a.sessionHandle a.request.service
        a.request.path a.request.rest = some (cip,sv') ∧
      4 ≤ cip.length ∧ cip.length ≤ ExplicitMessage.kMaxCipData ∧ sv'.Bounded ∧
      ∀ (r : Reply) (m : ExplicitMessage) (g : Tag), r.cip = cip → g.state = a.flying.state →
        m.resultCode = r.status → m.dataBytes = r.data → m.dataLen = r.data.length →
        ∀ (mem : Memory SyntheticServer.Name SyntheticServer.TagValue) (past : List Done),
          sv.memory = mem.after (past.filterMap Done.effect) →
          Done.Serves mem (a.ended g m) past ∧
            sv'.memory = mem.after ((a.ended g m :: past).filterMap Done.effect) := by
  let k : Stack := {conn := {}, server := sv, world := {time := 0, script := {}, log := []}}
  have hbounded : k.server.Bounded := h
  obtain ⟨hcip,hsmall⟩ := Stack.replied_length hbounded a
  refine ⟨(k.replied a).1,(k.replied a).2,k.replied_eq a,hcip,hsmall,
    Stack.replied_bounded hbounded a,fun r m g hr hg hcode hdata hlen mem past hmem => ?_⟩
  cases hkind : a.kind with
  | read =>
    have hreplied : k.replied a = (sv.handleReadTag (appendSymbolic a.name),sv) := by
      simp only [Stack.replied,hkind]
      rfl
    have hquiet : (a.ended g m).effect = none := if_neg (by simp [Done.wrote,ended,hkind])
    rw [Access.flying,hkind] at hg
    rw [hreplied] at hr ⊢
    obtain ⟨hfound,hmissing⟩ := ended_read hname hg hr hcode hdata hlen
    refine ⟨fun _ => ?_,by rw [List.filterMap_cons_none hquiet]; exact hmem⟩
    rw [hmem] at hfound hmissing
    simp only [ended,hkind]
    cases hheld : mem.after (past.filterMap Done.effect) a.key with
    | none => exact hmissing hheld
    | some v => exact hfound v hheld
  | write =>
    obtain ⟨len,hwrites⟩ := hvalue hkind
    obtain ⟨hok,hstored⟩ := Stack.write_ends hkind hname hr hcode
    have hstatus : (a.ended g m).status = .ok := by
      rw [← hok,Tag.settle_fst,ended,Tag.settle_fst]
    have hwrote : (a.ended g m).effect = some (a.key,a.tag.dataType,a.value) :=
      if_pos (by simp [Done.wrote,hstatus]; simp [ended,hkind])
    refine ⟨fun _ => ?_,?_⟩
    · simp only [ended,hkind]
      exact ⟨hstatus,len,hwrites⟩
    · rw [List.filterMap_cons_some hwrote,Memory.after_cons,← hmem]
      exact hstored

end Access

end ControlLogix
