import Mathlib.Data.Nat.Basic
import Mathlib.Tactic.Linarith

-- A clock of 32 bits that shows a time kept in Nat; a deadline on it is passed when the signed
-- difference to it is no longer negative.
namespace Clock

def shows (time : Nat) : UInt32 := UInt32.ofNat time

theorem shows_toNat (time : Nat) : (shows time).toNat = time % 2 ^ 32 := UInt32.toNat_ofNat'

theorem nonneg_iff (d : UInt32) : 0 ≤ d.toInt32 ↔ d.toNat < 2 ^ 31 := by
  have hlt := d.toNat_lt
  rw [Int32.le_iff_toInt_le]
  have hint : d.toInt32.toInt = Int.bmod d.toNat (2 ^ 32) := BitVec.toInt_eq_toNat_bmod _
  have hzero : (0 : Int32).toInt = 0 := rfl
  rw [hint,hzero,Int.bmod_def]
  split <;> omega

theorem late_iff {start elapsed : Nat} {timeout : UInt32} (htimeout : timeout.toNat < 2 ^ 31)
    (helapsed : elapsed < timeout.toNat + 2 ^ 31) :
    0 ≤ (shows (start + elapsed) - (shows start + timeout)).toInt32 ↔
      timeout.toNat ≤ elapsed := by
  rw [nonneg_iff,UInt32.toNat_sub,UInt32.toNat_add,shows_toNat,shows_toNat]
  omega

theorem shows_left {now later : Nat} (h : now ≤ later) (deadline : UInt32) :
    shows later + (deadline - shows now) = deadline + shows (later - now) := by
  apply UInt32.toNat_inj.mp
  have hlt := deadline.toNat_lt
  simp only [UInt32.toNat_add,UInt32.toNat_sub,shows_toNat]
  omega

-- The time until the clock shows the deadline again.
def left (deadline : UInt32) (time : Nat) : Nat := (deadline - shows time).toNat

theorem left_lt {deadline : UInt32} {time tick : Nat} (hpos : 0 < tick) (htick : tick < 2 ^ 31)
    (h : ¬ 0 ≤ (shows (time + tick) - deadline).toInt32) :
    left deadline (time + tick) < left deadline time := by
  have hlt := deadline.toNat_lt
  rw [nonneg_iff,UInt32.toNat_sub,shows_toNat] at h
  simp only [left,UInt32.toNat_sub,shows_toNat]
  omega

-- The time until a deadline is passed: none once it is, for a quarter of the range of the clock.
def room (deadline : UInt32) (time : Nat) : Nat :=
  if (shows time - deadline).toNat < 2 ^ 30 then 0 else left deadline time

theorem room_lt {deadline : UInt32} {time tick more : Nat} (hpos : 0 < tick)
    (hless : tick + more < 2 ^ 30) (h : ¬ 0 ≤ (shows (time + tick) - deadline).toInt32) :
    room deadline (time + tick + more) < room deadline time := by
  have hlt := deadline.toNat_lt
  rw [nonneg_iff,UInt32.toNat_sub,shows_toNat] at h
  simp only [room,left,UInt32.toNat_sub,shows_toNat]
  split_ifs <;> omega

theorem left_bounded (deadline : UInt32) (time : Nat) : left deadline time < 2 ^ 32 :=
  UInt32.toNat_lt _

theorem room_bounded (deadline : UInt32) (time : Nat) : room deadline time < 2 ^ 32 := by
  rw [room]
  split_ifs
  · exact Nat.two_pow_pos 32
  · exact left_bounded deadline time

end Clock
