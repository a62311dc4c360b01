import ControlLogix.PlcClient
import ControlLogix.Transport.Past

namespace ControlLogix.PlcClient

variable {n : Nat}

abbrev withPool (c d : PlcClient n) : PlcClient n :=
  {c with
    tags := d.tags, inUse := d.inUse, tagNames := d.tagNames, tagElemCount := d.tagElemCount,
    tagPrevStatus := d.tagPrevStatus}

def Blind {α : Type} (f : PlcClient n → World → α × PlcClient n × World) : Prop :=
  ∀ c d w past, f (c.withPool d) (w.under past) =
    ((f c w).1,(f c w).2.1.withPool d,(f c w).2.2.under past)

theorem begin_blind : Blind (n := n) begin := by
  intro c d w past
  simp only [begin]
  rw [Client.begin_under]

theorem connect_blind (ip : UInt32) (port : UInt16) (timeoutMs : UInt32) :
    Blind (n := n) fun c => c.connect ip port timeoutMs := by
  intro c d w past
  simp only [connect]
  rw [TcpConnection.close_under]
  by_cases hready : c.eth.ready
  · rw [if_pos hready,if_pos hready]
    generalize c.tcp.close w = r
    obtain ⟨t,v⟩ := r
    simp only
    rw [World.millis_under]
    generalize v.millis = r
    obtain ⟨now,v'⟩ := r
    simp only
    rw [TcpConnection.connect_under]
    split_ifs <;> rfl
  · rw [if_neg hready,if_neg hready]

theorem disconnect_blind : Blind (n := n) disconnect := by
  intro c d w past
  simp only [disconnect]
  rw [TcpConnection.close_under]
  split_ifs <;> rfl

theorem pollEthernet_blind : Blind (n := n) pollEthernet := by
  intro c d w past
  simp only [pollEthernet]
  rw [Client.poll_under]
  generalize c.eth.poll w = r
  obtain ⟨st,eth,v⟩ := r
  simp only
  rw [World.millis_under]
  generalize v.millis = r
  obtain ⟨now,v'⟩ := r
  simp only
  rw [TcpConnection.connect_under]
  split_ifs <;> rfl

theorem pollConnecting_blind : Blind (n := n) pollConnecting := by
  intro c d w past
  simp only [pollConnecting]
  rw [World.millis_under]
  generalize w.millis = r
  obtain ⟨now,v⟩ := r
  simp only
  rw [TcpConnection.poll_under]
  generalize c.tcp.poll v = r
  obtain ⟨st,t,v'⟩ := r
  simp only
  rw [World.millis_under]
  generalize v'.millis = r
  obtain ⟨later,v''⟩ := r
  simp only
  rw [Session.open_under]
  split_ifs <;> rfl

theorem pollRegistering_blind : Blind (n := n) pollRegistering := by
  intro c d w past
  simp only [pollRegistering]
  rw [World.millis_under]
  generalize w.millis = r
  obtain ⟨now,v⟩ := r
  simp only
  rw [Session.poll_under]
  split_ifs <;> rfl

theorem pollDisconnecting_blind : Blind (n := n) pollDisconnecting := by
  intro c d w past
  simp only [pollDisconnecting]
  rw [Session.poll_under]
  generalize c.session.poll c.tcp w = r
  obtain ⟨st,session,t,v⟩ := r
  simp only
  rw [TcpConnection.close_under]
  split_ifs <;> rfl

theorem poll_blind : Blind (n := n) poll := by
  intro c d w past
  simp only [poll]
  cases c.state with
  | ethernet => exact pollEthernet_blind c d w past
  | connecting => exact pollConnecting_blind c d w past
  | registering => exact pollRegistering_blind c d w past
  | disconnecting => exact pollDisconnecting_blind c d w past
  | idle | ready | failed => rfl

theorem finish_blind (disconnected : Bool) : Blind (n := n) fun c => c.finish disconnected := by
  intro c d w past
  simp only [finish]
  rw [TcpConnection.close_under]
  split_ifs <;> rfl

end ControlLogix.PlcClient
