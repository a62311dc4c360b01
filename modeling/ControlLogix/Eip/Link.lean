import ControlLogix.Eip.Exchange
import ControlLogix.Library.Packets

namespace ControlLogix

-- What the log says of the TCP connection last asked for: its socket, what was written to it,
-- newest first, what was read from it, and the requests of the operations started since.
structure Link where
  fd : Int := -1
  sends : List (Writes.Chunk UInt8) := []
  rcvd : List UInt8 := []
  requests : List (List UInt8) := []
  deriving DecidableEq

def lastLink : List Event → Link
  | [] => {}
  | .connect fd :: _ => {fd := fd}
  | .send _ chunk :: log => {lastLink log with sends := chunk :: (lastLink log).sends}
  | .recv _ got :: log => {lastLink log with rcvd := (lastLink log).rcvd ++ got}
  | .started _ frame :: log => {lastLink log with requests := frame :: (lastLink log).requests}
  | _ :: log => lastLink log

-- The entries that say nothing of the connection or of what an operation has read from it.
def Event.aside (e : Event) : Bool :=
  match e with
  | .started _ _ => false
  | .ended _ _ _ _ => false
  | _ => !e.wire

theorem link_aside {e : Event} (h : e.aside = true) (log : List Event) :
    lastLink (e :: log) = lastLink log := by
  cases e <;> simp_all [Event.aside,Event.wire,lastLink]

theorem Event.aside_of_hush {e : Event} (h : e.hush = true) : e.aside = true := by
  cases e <;> simp_all [Event.hush,Event.board,Event.aside]

theorem World.Hushed.aside {w w' : World} (h : World.Hushed w w') :
    Trace.Grows (fun e => e.aside = true) w.log w'.log := h.mono fun _ he => Event.aside_of_hush he

theorem link_grows {log log' : List Event} (h : Trace.Grows (fun e => e.aside = true) log log') :
    lastLink log' = lastLink log := h.reading fun _ he es => link_aside he es

theorem socket_kept {fd fd' : Int} {log log' : List Event} (h : 0 ≤ fd → (lastLink log).fd = fd)
    (hlink : (lastLink log').fd = (lastLink log).fd) (hfd : fd' = fd ∨ fd' < 0) :
    0 ≤ fd' → (lastLink log').fd = fd' := by
  intro hopen
  rcases hfd with rfl | hgone
  · rw [hlink]
    exact h hopen
  · omega

variable {fd : Int} {tx rx rx' : List UInt8} {a b : Nat} {log log' : List Event}

theorem Sent.link (h : Sent fd tx a log b log') :
    ∃ new, lastLink log' = {lastLink log with sends := new ++ (lastLink log).sends} := by
  induction h with
  | refl => exact ⟨[],rfl⟩
  | step _ _ _ ih =>
    obtain ⟨new,hnew⟩ := ih
    exact ⟨⟨tx,_,_⟩ :: new,by rw [lastLink,hnew]; rfl⟩

theorem Sent.aligned (h : Sent fd tx a log b log')
    (ha : Writes.Aligned tx a (lastLink log).sends) :
    Writes.Aligned tx b (lastLink log').sends := by
  cases h with
  | refl => exact ha
  | step _ hn _ => exact Writes.Aligned.push hn

theorem Sent.written {old : List UInt8} (h : Sent fd tx a log b log')
    (ha : Writes.written (lastLink log).sends = old ++ tx.take a) :
    Writes.written (lastLink log').sends = old ++ tx.take b := by
  induction h with
  | refl => exact ha
  | step _ _ _ ih => rw [lastLink,Writes.written_cons,ih,List.append_assoc,List.take_add]; rfl

theorem Sent.always {P : Event → List Event → Prop} (h : Sent fd tx a log b log')
    (hP : ∀ k n past, 0 < n → k + n ≤ tx.length → Sent fd tx a log k past → Trace.Always P past →
      P (.send fd ⟨tx,k,n⟩) past) (hlog : Trace.Always P log) : Trace.Always P log' := by
  induction h with
  | refl => exact hlog
  | step hs hn hle ih => exact ⟨hP _ _ _ hn hle hs (ih),ih⟩

theorem Got.link (h : Got fd rx log rx' log') : ∃ more, rx' = rx ++ more ∧
    lastLink log' = {lastLink log with rcvd := (lastLink log).rcvd ++ more} := by
  induction h with
  | refl => exact ⟨[],by simp,by simp⟩
  | step got _ ih =>
    obtain ⟨more,rfl,hlink⟩ := ih
    exact ⟨more ++ got,by simp,by simp [lastLink,hlink]⟩

theorem Got.always {P : Event → List Event → Prop} (h : Got fd rx log rx' log')
    (hP : ∀ got past rx₁, Got fd rx log rx₁ past → P (.recv fd got) past)
    (hlog : Trace.Always P log) : Trace.Always P log' := by
  induction h with
  | refl => exact hlog
  | step got hg ih => exact ⟨hP got _ _ hg,ih⟩

namespace Transfer

variable {x x' : Transfer} {t t' : TcpConnection} {w w' : World}

theorem Moved.link (h : Moved x t w x' t' w') : ∃ new more, x'.rx = x.rx ++ more ∧
    lastLink w'.log = {lastLink w.log with
      sends := new ++ (lastLink w.log).sends, rcvd := (lastLink w.log).rcvd ++ more} := by
  obtain ⟨mid,hsent,hgot,_⟩ := h.traffic
  obtain ⟨new,hnew⟩ := hsent.link
  obtain ⟨more,hrx,hmore⟩ := hgot.link
  exact ⟨new,more,hrx,by rw [hmore,hnew]⟩

theorem Moved.link_fd (h : Moved x t w x' t' w') : (lastLink w'.log).fd = (lastLink w.log).fd := by
  obtain ⟨_,_,_,hlink⟩ := h.link
  rw [hlink]

theorem Moved.written {old : List UInt8} (h : Moved x t w x' t' w')
    (hold : Writes.written (lastLink w.log).sends = old ++ x.tx.take x.txSent) :
    Writes.written (lastLink w'.log).sends = old ++ x'.tx.take x'.txSent := by
  obtain ⟨mid,hsent,hgot,_⟩ := h.traffic
  obtain ⟨more,_,hlink⟩ := hgot.link
  rw [hlink,h.tx_eq]
  exact hsent.written hold

theorem Moved.silent_until_sent (h : Moved x t w x' t' w') (hmore : x'.txSent < x'.tx.length) :
    x'.rx = x.rx := by
  obtain ⟨_,_,_,⟨hrx,_⟩ | hsent⟩ := h.traffic
  · exact hrx
  · rw [h.tx_eq] at hmore
    omega

theorem Moved.advances (h : Moved x t w x' t' w') : x.txSent ≤ x'.txSent := by
  obtain ⟨mid,hsent,_⟩ := h.traffic
  exact hsent.le.1

end Transfer

namespace Link

-- The requests a controller can make out in what was written to it, and what it cannot use yet.
def requested (k : Link) : List (List UInt8) :=
  (Packets.cut packetSize (Writes.written k.sends)).1

def unfinished (k : Link) : List UInt8 := (Packets.cut packetSize (Writes.written k.sends)).2

-- The stream that comes back when request number j is answered with serve j of it.
def replies (serve : Nat → List UInt8 → List UInt8) (k : Link) : List UInt8 :=
  (k.requested.mapIdx serve).flatten

-- What of it has not been read.
def owed (serve : Nat → List UInt8 → List UInt8) (k : Link) : List UInt8 :=
  (k.replies serve).drop k.rcvd.length

variable {serve : Nat → List UInt8 → List UInt8} {k k' : Link} {tx : List UInt8} {n : Nat}

theorem replies_eq (h : k.rcvd <+: k.replies serve) :
    k.replies serve = k.rcvd ++ k.owed serve := (List.prefix_iff_eq_append.mp h).symm

theorem replies_whole (hold : k.unfinished = [])
    (hw : Writes.written k'.sends = Writes.written k.sends ++ tx.take n) (htx : Encapsulated tx)
    (hn : tx.length ≤ n) :
    k'.replies serve = k.replies serve ++ serve k.requested.length tx := by
  have hne : tx ≠ [] := by
    rintro rfl
    exact absurd htx.header (by decide)
  have hreq : k'.requested = k.requested ++ [tx] := by
    rw [requested,hw,List.take_of_length_le hn,Packets.cut_append packetSize_append hold,
      Packets.cut_whole hne htx.packetSize]
    rfl
  simp [replies,hreq,List.mapIdx_append]

end Link

end ControlLogix
