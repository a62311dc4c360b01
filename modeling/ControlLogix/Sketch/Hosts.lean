import ControlLogix.Eip.Encapsulation
import ControlLogix.Library.LittleEndian

namespace ControlLogix

structure IPAddress where
  a : UInt8 := 0
  b : UInt8 := 0
  c : UInt8 := 0
  d : UInt8 := 0
  deriving DecidableEq, Repr

namespace IPAddress

-- uint32_t(ip): the octets lie in memory in the order of the network.
def word (ip : IPAddress) : UInt32 := getU32 [ip.a,ip.b,ip.c,ip.d]

def number (ip : IPAddress) : Nat :=
  ((ip.a.toNat * 256 + ip.b.toNat) * 256 + ip.c.toNat) * 256 + ip.d.toNat

def map₂ (f : UInt8 → UInt8 → UInt8) (x y : IPAddress) : IPAddress where
  a := f x.a y.a
  b := f x.b y.b
  c := f x.c y.c
  d := f x.d y.d

def network (ip mask : IPAddress) : IPAddress := map₂ (fun x m => x &&& m) ip mask

def broadcast (ip mask : IPAddress) : IPAddress := map₂ (fun x m => x ||| ~~~m) ip mask

-- The loop over the octets, from the last one up.
def nextHost (ip : IPAddress) : Bool × IPAddress :=
  if ip.d < 255 then (true,{ip with d := ip.d + 1})
  else if ip.c < 255 then (true,{ip with c := ip.c + 1, d := 0})
  else if ip.b < 255 then (true,{ip with b := ip.b + 1, c := 0, d := 0})
  else if ip.a < 255 then (true,{a := ip.a + 1, b := 0, c := 0, d := 0})
  else (false,{})

theorem number_lt (ip : IPAddress) : ip.number < 4294967296 := by
  have ha := ip.a.toNat_lt
  have hb := ip.b.toNat_lt
  have hc := ip.c.toNat_lt
  have hd := ip.d.toNat_lt
  rw [number]
  omega

theorem number_injective {x y : IPAddress} (h : x.number = y.number) : x = y := by
  have hx := (⟨x.b.toNat_lt,x.c.toNat_lt,x.d.toNat_lt⟩ : _ ∧ _ ∧ _)
  have hy := (⟨y.b.toNat_lt,y.c.toNat_lt,y.d.toNat_lt⟩ : _ ∧ _ ∧ _)
  simp only [number] at h
  obtain ⟨xa,xb,xc,xd⟩ := x
  obtain ⟨ya,yb,yc,yd⟩ := y
  simp only [mk.injEq,← UInt8.toNat_inj] at h hx hy ⊢
  omega

theorem ne_iff_number {x y : IPAddress} : x ≠ y ↔ x.number ≠ y.number :=
  not_congr ⟨congrArg number,number_injective⟩

theorem octet_succ {x : UInt8} (h : x < 255) : (x + 1).toNat = x.toNat + 1 := by
  have hx : x.toNat < 255 := h
  rw [UInt8.toNat_add]
  exact Nat.mod_eq_of_lt (by simp; omega)

theorem octet_full {x : UInt8} (h : ¬ x < 255) : x.toNat = 255 := by
  have hx : ¬ x.toNat < 255 := h
  have hlt := x.toNat_lt
  omega

theorem nextHost_number (ip : IPAddress) :
    ip.nextHost.1 = true ∧ ip.nextHost.2.number = ip.number + 1 ∨
      ip.nextHost.1 = false ∧ ip.number = 4294967295 := by
  have hzero : (0 : UInt8).toNat = 0 := rfl
  rw [nextHost]
  split_ifs with hd hc hb ha
  · exact Or.inl ⟨rfl,by simp only [number,octet_succ hd]; omega⟩
  · have := octet_full hd
    exact Or.inl ⟨rfl,by simp only [number,octet_succ hc,hzero]; omega⟩
  · have := octet_full hd
    have := octet_full hc
    exact Or.inl ⟨rfl,by simp only [number,octet_succ hb,hzero]; omega⟩
  · have := octet_full hd
    have := octet_full hc
    have := octet_full hb
    exact Or.inl ⟨rfl,by simp only [number,octet_succ ha,hzero]; omega⟩
  · have := octet_full hd
    have := octet_full hc
    have := octet_full hb
    have := octet_full ha
    exact Or.inr ⟨rfl,by simp only [number]; omega⟩

theorem network_number (ip mask : IPAddress) :
    (ip.network mask).number = ip.number &&& mask.number := by
  have hdigits (x y a b : Nat) (ha : a < 256) (hb : b < 256) :
      (x &&& y) * 256 + (a &&& b) = (x * 256 + a) &&& (y * 256 + b) := by
    rw [Nat.mul_comm x,Nat.mul_comm y,Nat.mul_comm (x &&& y)]
    exact (Masks.land_digits (i := 8) ha hb).symm
  simp only [network,map₂,number,UInt8.toNat_and]
  rw [hdigits _ _ _ _ ip.b.toNat_lt mask.b.toNat_lt,hdigits _ _ _ _ ip.c.toNat_lt mask.c.toNat_lt,
    hdigits _ _ _ _ ip.d.toNat_lt mask.d.toNat_lt]

theorem broadcast_number (ip mask : IPAddress) :
    (ip.broadcast mask).number = ip.number ||| (4294967295 - mask.number) := by
  have hdigits (x y a b : Nat) (ha : a < 256) (hb : b < 256) :
      (x ||| y) * 256 + (a ||| b) = (x * 256 + a) ||| (y * 256 + b) := by
    rw [Nat.mul_comm x,Nat.mul_comm y,Nat.mul_comm (x ||| y)]
    exact (Masks.lor_digits (i := 8) ha hb).symm
  have hnot (m : UInt8) : (~~~m).toNat = 255 - m.toNat := UInt8.toNat_not m
  have hless (m : UInt8) : 255 - m.toNat < 256 := by omega
  simp only [broadcast,map₂,number,UInt8.toNat_or,hnot]
  rw [hdigits _ _ _ _ ip.b.toNat_lt (hless _),hdigits _ _ _ _ ip.c.toNat_lt (hless _),
    hdigits _ _ _ _ ip.d.toNat_lt (hless _)]
  have ha := mask.a.toNat_lt
  have hb := mask.b.toNat_lt
  have hc := mask.c.toNat_lt
  have hd := mask.d.toNat_lt
  congr 1
  omega

-- A mask of leading ones with k zeros behind them.
def Leading (mask : IPAddress) (k : Nat) : Prop := k ≤ 32 ∧ mask.number = 2 ^ 32 - 2 ^ k

theorem Leading.network_number {mask : IPAddress} {k : Nat} (h : mask.Leading k) (ip : IPAddress) :
    (ip.network mask).number = ip.number - ip.number % 2 ^ k := by
  rw [IPAddress.network_number,h.2]
  exact Masks.land_mask h.1 ip.number_lt

theorem Leading.broadcast_number {mask : IPAddress} {k : Nat} (h : mask.Leading k)
    (ip : IPAddress) :
    (ip.broadcast mask).number = ip.number - ip.number % 2 ^ k + (2 ^ k - 1) := by
  have hpow : 2 ^ k ≤ 2 ^ 32 := Nat.pow_le_pow_right (by omega) h.1
  have hones : 4294967295 - (2 ^ 32 - 2 ^ k) = 2 ^ k - 1 := by omega
  rw [IPAddress.broadcast_number,h.2,hones]
  exact Masks.lor_ones

theorem Leading.subnet_iff {mask : IPAddress} {k : Nat} (h : mask.Leading k) (ip other : IPAddress) :
    other.network mask = ip.network mask ↔
      (ip.network mask).number ≤ other.number ∧ other.number ≤ (ip.broadcast mask).number := by
  have hpos := Nat.two_pow_pos k
  have hip := Nat.div_add_mod ip.number (2 ^ k)
  have hother := Nat.div_add_mod other.number (2 ^ k)
  have hip' := Nat.mod_lt ip.number hpos
  have hother' := Nat.mod_lt other.number hpos
  rw [h.broadcast_number,h.network_number]
  constructor
  · intro hsame
    have hnum := congrArg number hsame
    rw [h.network_number,h.network_number] at hnum
    omega
  · rintro ⟨hlow,hhigh⟩
    apply number_injective
    rw [h.network_number,h.network_number]
    have hquot : other.number / 2 ^ k = ip.number / 2 ^ k := by
      apply Nat.div_eq_of_lt_le
      · rw [Nat.mul_comm]
        omega
      · rw [Nat.add_mul,Nat.one_mul,Nat.mul_comm]
        omega
    rw [hquot] at hother
    omega

theorem network_le (ip mask : IPAddress) : (ip.network mask).number ≤ (ip.broadcast mask).number := by
  rw [network_number,broadcast_number]
  exact Nat.and_le_left.trans Nat.left_le_or

end IPAddress

end ControlLogix
