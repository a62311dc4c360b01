import Mathlib.Data.List.Basic
import Mathlib.Data.List.GetD
import Mathlib.Data.Nat.Bitwise
import Mathlib.Tactic.Linarith
import Mathlib.Tactic.SplitIfs

namespace LittleEndian

def bytes : Nat → Nat → List UInt8
  | 0, _ => []
  | k+1, n => UInt8.ofNat n :: bytes k (n / 256)

def value : List UInt8 → Nat
  | [] => 0
  | b :: bs => b.toNat + 256 * value bs

@[simp] theorem length_bytes (k n : Nat) : (bytes k n).length = k := by
  induction k generalizing n with
  | zero => rfl
  | succ k ih => simp [bytes,ih]

theorem value_lt (bs : List UInt8) : value bs < 256 ^ bs.length := by
  induction bs with
  | nil => simp [value]
  | cons b bs ih =>
    have hb := b.toNat_lt
    rw [List.length_cons,Nat.pow_succ,value]
    omega

theorem value_bytes (k n : Nat) (h : n < 256 ^ k) : value (bytes k n) = n := by
  induction k generalizing n with
  | zero => simp at h; simp [bytes,value,h]
  | succ k ih =>
    have hd : n / 256 < 256 ^ k := by rw [Nat.pow_succ] at h; omega
    simp only [bytes,value,ih _ hd,UInt8.toNat_ofNat']
    omega

theorem bytes_value (l : List UInt8) : bytes l.length (value l) = l := by
  induction l with
  | nil => rfl
  | cons b bs ih =>
    have hb := b.toNat_lt
    have hdiv : (b.toNat + 256 * value bs) / 256 = value bs := by omega
    simp only [List.length_cons,bytes,value,hdiv,ih,List.cons.injEq,and_true]
    apply UInt8.toNat_inj.mp
    rw [UInt8.toNat_ofNat']
    omega

theorem or_shift (a b k : Nat) (h : a < 2 ^ k) : a ||| b <<< k = a + b * 2 ^ k := by
  rw [Nat.or_comm,← Nat.shiftLeft_add_eq_or_of_lt h,Nat.shiftLeft_eq]
  omega

theorem push_byte (v : UInt64) (b : UInt8) (h : v.toNat < 2 ^ 56) :
    ((v <<< 8) ||| b.toUInt64).toNat = b.toNat + 256 * v.toNat := by
  have hb := b.toNat_lt
  have e8 : (8 : UInt64).toNat % 64 = 8 := rfl
  simp only [UInt64.toNat_or,UInt64.toNat_shiftLeft,UInt8.toNat_toUInt64]
  rw [e8,Nat.mod_eq_of_lt (by rw [Nat.shiftLeft_eq]; omega),Nat.or_comm,or_shift _ _ _ hb]
  omega

end LittleEndian

-- A row of cells of one byte each, on which little-endian words of any width are loaded and saved.
namespace Cells

open LittleEndian

def load (size : Nat) (a : Nat → UInt8) (off w : Nat) : Nat :=
  if off + w ≤ size then value ((List.range w).map fun k => a (off + k)) else 0

def save (size : Nat) (a : Nat → UInt8) (off w v : Nat) : Nat → UInt8 := fun i =>
  if off + w ≤ size ∧ off ≤ i ∧ i < off + w then UInt8.ofNat (v / 256 ^ (i - off)) else a i

theorem bytes_map (w v : Nat) :
    bytes w v = (List.range w).map fun k => UInt8.ofNat (v / 256 ^ k) := by
  induction w generalizing v with
  | zero => rfl
  | succ w ih =>
    rw [bytes,ih,List.range_succ_eq_map,List.map_cons,List.map_map]
    refine congrArg₂ List.cons (by simp) (List.map_congr_left fun k _ => ?_)
    simp only [Function.comp_apply]
    rw [Nat.pow_succ',Nat.div_div_eq_div_mul]

theorem bytes_getD {w k : Nat} (h : k < w) (v : Nat) :
    (bytes w v).getD k 0 = UInt8.ofNat (v / 256 ^ k) := by
  rw [bytes_map,List.getD_eq_getElem?_getD]
  simp [h]

theorem save_same {size off w : Nat} (h : off + w ≤ size) (a : Nat → UInt8) {v : Nat}
    (hv : v < 256 ^ w) : load size (save size a off w v) off w = v := by
  rw [load,if_pos h]
  have hcells : ((List.range w).map fun k => save size a off w v (off + k)) = bytes w v := by
    rw [bytes_map]
    refine List.map_congr_left fun k hk => ?_
    have hk' := List.mem_range.mp hk
    rw [save,if_pos ⟨h,by omega,by omega⟩,Nat.add_sub_cancel_left]
  rw [hcells,value_bytes w v hv]

theorem load_one {size : Nat} (a : Nat → UInt8) {i : Nat} (h : i < size) :
    load size a i 1 = (a i).toNat := by
  rw [load,if_pos (by omega)]
  simp [value]

end Cells

-- Bitwise operations on numbers written in digits, and on numbers under a mask of leading ones.
namespace Masks

theorem land_digits {i a b c d : Nat} (hb : b < 2 ^ i) (hd : d < 2 ^ i) :
    (2 ^ i * a + b) &&& (2 ^ i * c + d) = 2 ^ i * (a &&& c) + (b &&& d) := by
  have hbd : b &&& d < 2 ^ i := Nat.lt_of_le_of_lt Nat.and_le_left hb
  apply Nat.eq_of_testBit_eq
  intro j
  rw [Nat.testBit_and,Nat.testBit_two_pow_mul_add _ hb,Nat.testBit_two_pow_mul_add _ hd,
    Nat.testBit_two_pow_mul_add _ hbd]
  split_ifs
  · rw [Nat.testBit_and]
  · rw [Nat.testBit_and]

theorem lor_digits {i a b c d : Nat} (hb : b < 2 ^ i) (hd : d < 2 ^ i) :
    (2 ^ i * a + b) ||| (2 ^ i * c + d) = 2 ^ i * (a ||| c) + (b ||| d) := by
  have hbd : b ||| d < 2 ^ i := Nat.or_lt_two_pow hb hd
  apply Nat.eq_of_testBit_eq
  intro j
  rw [Nat.testBit_or,Nat.testBit_two_pow_mul_add _ hb,Nat.testBit_two_pow_mul_add _ hd,
    Nat.testBit_two_pow_mul_add _ hbd]
  split_ifs
  · rw [Nat.testBit_or]
  · rw [Nat.testBit_or]

theorem land_mask {k n x : Nat} (hk : k ≤ n) (hx : x < 2 ^ n) :
    x &&& (2 ^ n - 2 ^ k) = x - x % 2 ^ k := by
  have hsplit := Nat.div_add_mod x (2 ^ k)
  have hpow : 2 ^ n = 2 ^ k * 2 ^ (n - k) := by rw [← Nat.pow_add,Nat.add_sub_cancel' hk]
  have hmask : 2 ^ n - 2 ^ k = 2 ^ k * (2 ^ (n - k) - 1) + 0 := by
    rw [hpow,Nat.mul_sub,Nat.mul_one,Nat.add_zero]
  have hq : x / 2 ^ k < 2 ^ (n - k) := Nat.div_lt_of_lt_mul (hpow ▸ hx)
  conv_lhs => rw [← hsplit]
  rw [hmask,land_digits (Nat.mod_lt _ (Nat.two_pow_pos k)) (Nat.two_pow_pos k),
    Nat.and_two_pow_sub_one_eq_mod,Nat.mod_eq_of_lt hq,Nat.and_zero]
  omega

theorem lor_ones {k x : Nat} : x ||| (2 ^ k - 1) = x - x % 2 ^ k + (2 ^ k - 1) := by
  have hsplit := Nat.div_add_mod x (2 ^ k)
  have hmod := Nat.mod_lt x (Nat.two_pow_pos k)
  have hones : 2 ^ k - 1 < 2 ^ k := by omega
  have hlow : x % 2 ^ k ||| (2 ^ k - 1) = 2 ^ k - 1 := by
    apply Nat.eq_of_testBit_eq
    intro j
    rw [Nat.testBit_or,Nat.testBit_two_pow_sub_one,Nat.testBit_mod_two_pow]
    by_cases hj : j < k <;> simp [hj]
  have hall := lor_digits (a := x / 2 ^ k) (c := 0) hmod hones
  rw [hlow,Nat.or_zero,hsplit,Nat.mul_zero,Nat.zero_add] at hall
  omega

end Masks
