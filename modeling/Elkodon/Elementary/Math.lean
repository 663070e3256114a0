import Mathlib.Data.UInt
import Mathlib.Data.Nat.Size
import Mathlib.Tactic.Ring

/-!
`align`, `log2_of_power_of_2` and `round_to_pow2` of `elkodon_bb_elementary::math` on `u64`/`usize`
(`UInt64`); an operation that panics in a debug build returns `none`.
-/

namespace UInt64

theorem toNat_add_eq (a b : UInt64) : (a + b).toNat = (a.toNat + b.toNat) % 2 ^ 64 := by
  show (a.toBitVec + b.toBitVec).toNat = _
  rw [BitVec.toNat_add]
  rfl

theorem toNat_sub_eq (a b : UInt64) : (a - b).toNat = (2 ^ 64 - b.toNat + a.toNat) % 2 ^ 64 := by
  show (a.toBitVec - b.toBitVec).toNat = _
  rw [BitVec.toNat_sub]
  rfl

@[simp]
theorem toNat_one_eq : (1 : UInt64).toNat = 1 := rfl

theorem toNat_lt_two_pow (a : UInt64) : a.toNat < 2 ^ 64 := a.toNat_lt_size

theorem le_iff_toNat_le (a b : UInt64) : a ≤ b ↔ a.toNat ≤ b.toNat := Iff.rfl

theorem eq_iff_toNat_eq (a b : UInt64) : a = b ↔ a.toNat = b.toNat :=
  ⟨congrArg _, UInt64.toNat.inj⟩

theorem toNat_or_eq (a b : UInt64) : (a ||| b).toNat = a.toNat ||| b.toNat := BitVec.toNat_or ..

theorem toNat_shiftRight_eq (a b : UInt64) : (a >>> b).toNat = a.toNat >>> (b.toNat % 64) := by
  show (a.toBitVec >>> (b % 64).toBitVec).toNat = _
  rw [BitVec.ushiftRight_eq', BitVec.toNat_ushiftRight]
  rfl

theorem toNat_or_shiftRight (a k : UInt64) (hk : k.toNat < 64)
    : (a ||| a >>> k).toNat = a.toNat ||| a.toNat >>> k.toNat := by
  rw [toNat_or_eq, toNat_shiftRight_eq, Nat.mod_eq_of_lt hk]

end UInt64

namespace UInt8

theorem toNat_add_eq (a b : UInt8) : (a + b).toNat = (a.toNat + b.toNat) % 2 ^ 8 := by
  show (a.toBitVec + b.toBitVec).toNat = _
  rw [BitVec.toNat_add]
  rfl

end UInt8

namespace Elkodon

/-- `a + b` on a `usize`/`u64`, `none` where a debug build panics with an overflow. -/
def checkedAdd (a b : UInt64) : Option UInt64 :=
  if a.toNat + b.toNat < 2 ^ 64 then some (a + b) else none

def checkedSub (a b : UInt64) : Option UInt64 :=
  if b ≤ a then some (a - b) else none

def checkedRem (a b : UInt64) : Option UInt64 :=
  if b = 0 then none else some (a % b)

theorem checkedAdd_eq_some {a b : UInt64} (h : a.toNat + b.toNat < 2 ^ 64)
    : ∃ s, checkedAdd a b = some s ∧ s.toNat = a.toNat + b.toNat :=
  ⟨a + b, if_pos h, by rw [UInt64.toNat_add_eq, Nat.mod_eq_of_lt h]⟩

theorem checkedAdd_eq_none {a b : UInt64} (h : 2 ^ 64 ≤ a.toNat + b.toNat)
    : checkedAdd a b = none :=
  if_neg (by omega)

theorem checkedAdd_isSome {a b : UInt64} : (checkedAdd a b).isSome ↔ a.toNat + b.toNat < 2 ^ 64 := by
  unfold checkedAdd
  split <;> simp only [Option.isSome_some, Option.isSome_none, Bool.false_eq_true, true_iff, false_iff, *]

theorem checkedAdd_toNat {a b s : UInt64} (h : checkedAdd a b = some s) : s.toNat = a.toNat + b.toNat := by
  unfold checkedAdd at h
  split at h
  . cases h
    rw [UInt64.toNat_add_eq, Nat.mod_eq_of_lt ‹_›]
  . cases h

theorem le_of_checkedAdd_eq_none {a b : UInt64} (h : checkedAdd a b = none) : 2 ^ 64 ≤ a.toNat + b.toNat := by
  unfold checkedAdd at h
  split at h
  . cases h
  . omega

theorem checkedSub_eq_some {a b : UInt64} (h : b.toNat ≤ a.toNat)
    : ∃ d, checkedSub a b = some d ∧ d.toNat = a.toNat - b.toNat :=
  ⟨a - b, if_pos h, UInt64.toNat_sub_of_le a b h⟩

theorem checkedSub_toNat {a b d : UInt64} (h : checkedSub a b = some d) : d.toNat = a.toNat - b.toNat := by
  unfold checkedSub at h
  split at h
  . cases h
    exact UInt64.toNat_sub_of_le a b ‹_›
  . cases h

theorem checkedRem_eq_some {a b : UInt64} (h : 0 < b.toNat)
    : checkedRem a b = some (a % b) :=
  if_neg (by rw [UInt64.eq_iff_toNat_eq]; simp; omega)

/--
`align(value, alignment)`: the value rounded up to the next multiple of `alignment`.
The source computes `value + alignment - value % alignment`, left to right.
-/
def align (value alignment : UInt64) : Option UInt64 := do
  let rem ← checkedRem value alignment
  if rem = 0 then
    pure value
  else
    let sum ← checkedAdd value alignment
    checkedSub sum rem

/-- The least multiple of `alignment` that is at least `value`, as a specification. -/
def IsAlignedUp (value alignment m : Nat) : Prop :=
  value ≤ m ∧ m % alignment = 0 ∧ m - value < alignment

instance (value alignment m : Nat) : Decidable (IsAlignedUp value alignment m) :=
  inferInstanceAs (Decidable (_ ∧ _ ∧ _))

theorem align_of_aligned {value alignment : UInt64} (ha : 0 < alignment.toNat)
    (hrem : value.toNat % alignment.toNat = 0)
    : align value alignment = some value := by
  have hzero : value % alignment = 0 := by
    rw [UInt64.eq_iff_toNat_eq]; simpa using hrem
  simp [align, checkedRem_eq_some ha, hzero]

theorem align_of_unaligned {value alignment : UInt64}
    (ha : 0 < alignment.toNat) (hrem : value.toNat % alignment.toNat ≠ 0)
    : align value alignment =
        (checkedAdd value alignment).bind (fun sum => checkedSub sum (value % alignment)) := by
  have hne : value % alignment ≠ 0 := by
    rw [ne_eq, UInt64.eq_iff_toNat_eq]; simpa using hrem
  simp [align, checkedRem_eq_some ha, hne]

theorem align_spec (value alignment : UInt64) (ha : 0 < alignment.toNat)
    (hfit : value.toNat % alignment.toNat = 0 ∨ value.toNat + alignment.toNat < 2 ^ 64)
    : ∃ m, align value alignment = some m ∧ IsAlignedUp value.toNat alignment.toNat m.toNat := by
  by_cases hrem : value.toNat % alignment.toNat = 0
  . exact ⟨value, align_of_aligned ha hrem, le_refl _, hrem, by omega⟩
  . have hsum := hfit.resolve_left hrem
    obtain ⟨sum, hadd, hsumv⟩ := checkedAdd_eq_some hsum
    have hlt := Nat.mod_lt value.toNat ha
    obtain ⟨m, hsub, hm⟩ := checkedSub_eq_some (a := sum) (b := value % alignment)
      (by simp; omega)
    refine ⟨m, by rw [align_of_unaligned ha hrem, hadd]; exact hsub, ?_⟩
    simp only [hm, hsumv, UInt64.toNat_mod, IsAlignedUp]
    have hdiv := Nat.div_add_mod value.toNat alignment.toNat
    refine ⟨by omega, ?_, by omega⟩
    have : value.toNat + alignment.toNat - value.toNat % alignment.toNat
        = alignment.toNat * (value.toNat / alignment.toNat + 1) := by
      rw [Nat.mul_add, Nat.mul_one]; omega
    rw [this, Nat.mul_mod_right]

theorem align_eq_none_of_overflow {value alignment : UInt64} (ha : 0 < alignment.toNat)
    (hrem : value.toNat % alignment.toNat ≠ 0) (hover : 2 ^ 64 ≤ value.toNat + alignment.toNat)
    : align value alignment = none := by
  rw [align_of_unaligned ha hrem, checkedAdd_eq_none hover]
  rfl

theorem align_overflows_below_usize_max
    : IsAlignedUp 18446744073709551614 3 18446744073709551615 ∧
        18446744073709551615 < 2 ^ 64 ∧ align 18446744073709551614 3 = none :=
  ⟨by decide, by decide, by decide⟩

section Log2OfPowerOf2

/-- The `for i in 0..64` loop of `log2_of_power_of_2` from round `i` on, `n` rounds left. -/
def log2Loop (bits : UInt64) (i : UInt8) : Nat → UInt8
  | 0 => 0
  | n + 1 => if bits = 1 then i else log2Loop (bits >>> 1) (i + 1) n

def log2OfPowerOf2 (value : UInt64) : UInt8 := log2Loop value 0 64

theorem log2Loop_zero (i : UInt8) (n : Nat) : log2Loop 0 i n = 0 := by
  induction n generalizing i with
  | zero => rfl
  | succ n ih => exact ih (i + 1)

theorem log2Loop_toNat {bits : UInt64} {i : UInt8} {k n : Nat} (hlo : 2 ^ k ≤ bits.toNat)
    (hhi : bits.toNat < 2 ^ (k + 1)) (hk : k < n) (hi : i.toNat + k < 2 ^ 8)
    : (log2Loop bits i n).toNat = i.toNat + k := by
  induction n generalizing bits i k with
  | zero => omega
  | succ n ih =>
    cases k with
    | zero =>
      rw [Nat.pow_zero] at hlo
      have hone : bits = 1 := (UInt64.eq_iff_toNat_eq _ _).mpr (by rw [UInt64.toNat_one_eq]; omega)
      rw [log2Loop, if_pos hone]
      rfl
    | succ k =>
      have hne : bits ≠ 1 := fun h => by
        rw [h, UInt64.toNat_one_eq, Nat.pow_succ] at hlo
        have := Nat.one_le_two_pow (n := k)
        omega
      have hshift : (bits >>> 1).toNat = bits.toNat / 2 := by
        rw [UInt64.toNat_shiftRight_eq, UInt64.toNat_one_eq, Nat.shiftRight_one]
      have hsucc : (i + 1).toNat = i.toNat + 1 := by
        rw [UInt8.toNat_add_eq, Nat.mod_eq_of_lt (by rw [show (1 : UInt8).toNat = 1 from rfl]; omega)]
        rfl
      have hlo' : 2 ^ k ≤ (bits >>> 1).toNat := by
        rw [hshift, Nat.le_div_iff_mul_le (by decide), ← Nat.pow_succ]
        exact hlo
      have hhi' : (bits >>> 1).toNat < 2 ^ (k + 1) := by
        rw [hshift, Nat.div_lt_iff_lt_mul (by decide), ← Nat.pow_succ]
        exact hhi
      rw [log2Loop, if_neg hne, ih hlo' hhi' (by omega) (by omega), hsucc]
      omega

/-- `log2_of_power_of_2` is the floor of the binary logarithm on every `u64`, `0` at `0`. -/
theorem log2OfPowerOf2_toNat (value : UInt64) : (log2OfPowerOf2 value).toNat = value.toNat.log2 := by
  by_cases hzero : value.toNat = 0
  . have : value = 0 := (UInt64.eq_iff_toNat_eq _ _).mpr hzero
    rw [this, log2OfPowerOf2, log2Loop_zero, UInt64.toNat_zero, Nat.log2_zero]
    rfl
  . have hlt : value.toNat.log2 < 64 := (Nat.log2_lt hzero).mpr value.toNat_lt_two_pow
    rw [log2OfPowerOf2, log2Loop_toNat (Nat.log2_self_le hzero) Nat.lt_log2_self hlt
      (by rw [UInt8.toNat_zero]; omega), UInt8.toNat_zero, Nat.zero_add]

example : log2OfPowerOf2 0 = 0 ∧ log2OfPowerOf2 1 = 0 ∧ log2OfPowerOf2 1000 = 9 ∧
    log2OfPowerOf2 9223372036854775808 = 63 := by
  decide

end Log2OfPowerOf2

section RoundToPow2

/--
`round_to_pow2(value)`: `value - 1` with its highest set bit smeared into every lower bit by
six shift-and-or lines, plus one.
-/
def roundToPow2 (value : UInt64) : Option UInt64 := do
  let value ← checkedSub value 1
  let value := value ||| value >>> 1
  let value := value ||| value >>> 2
  let value := value ||| value >>> 4
  let value := value ||| value >>> 8
  let value := value ||| value >>> 16
  let value := value ||| value >>> 32
  checkedAdd value 1

/-- `p` is the least power of two that is at least `value`, as a specification. -/
def IsCeilPow2 (value p : Nat) : Prop :=
  value ≤ p ∧ (∃ k, p = 2 ^ k) ∧ ∀ k, value ≤ 2 ^ k → p ≤ 2 ^ k

/-- The bits of `y` from `n` up are clear, and the `m` bits just below `n` are set. -/
def TopOnes (n m y : Nat) : Prop :=
  (∀ i, n ≤ i → y.testBit i = false) ∧ ∀ i, i < n → n ≤ i + m → y.testBit i = true

theorem topOnes_size (x : Nat) : TopOnes x.size 1 x := by
  refine ⟨fun i hi => Nat.testBit_lt_two_pow
    ((Nat.lt_size_self x).trans_le (Nat.pow_le_pow_right (by decide) hi)), fun i hi hn => ?_⟩
  have hsize : x.size = i + 1 := by omega
  have hlow : 2 ^ i ≤ x := Nat.lt_size.mp (by omega)
  have hhigh : x - 2 ^ i < 2 ^ i := by
    have := Nat.lt_size_self x
    rw [hsize, Nat.pow_succ] at this
    omega
  calc x.testBit i = (2 ^ i + (x - 2 ^ i)).testBit i := by rw [Nat.add_sub_cancel' hlow]
    _ = true := by rw [Nat.testBit_two_pow_add_eq, Nat.testBit_lt_two_pow hhigh]; rfl

theorem TopOnes.or_shiftRight {n m y : Nat} (h : TopOnes n m y) : TopOnes n (m + m) (y ||| y >>> m) := by
  refine ⟨fun i hi => ?_, fun i hi hn => ?_⟩
  . simp [h.1 i hi, h.1 (m + i) (by omega)]
  . rw [Nat.testBit_or, Nat.testBit_shiftRight]
    by_cases hm : n ≤ i + m
    . simp [h.2 i hi hm]
    . simp [h.2 (m + i) (by omega) (by omega)]

theorem TopOnes.orShiftRight {n m : Nat} {v : UInt64} (h : TopOnes n m v.toNat) (k : UInt64)
    (hk : k.toNat = m) (hm : m < 64) : TopOnes n (m + m) (v ||| v >>> k).toNat := by
  rw [UInt64.toNat_or_shiftRight v k (hk ▸ hm), hk]
  exact h.or_shiftRight

theorem TopOnes.eq_two_pow_sub_one {n m y : Nat} (h : TopOnes n m y) (hm : n ≤ m) : y = 2 ^ n - 1 := by
  refine Nat.eq_of_testBit_eq fun i => ?_
  rw [Nat.testBit_two_pow_sub_one]
  by_cases hi : i < n
  . simp [hi, h.2 i hi (by omega)]
  . simp [hi, h.1 i (by omega)]

theorem roundToPow2_of_pos {value : UInt64} (h : 1 ≤ value.toNat)
    : ∃ y : UInt64, y.toNat + 1 = 2 ^ (value.toNat - 1).size ∧ roundToPow2 value = checkedAdd y 1 := by
  obtain ⟨x, hsub, hx⟩ := checkedSub_eq_some (a := value) (b := 1) h
  have hsmear := ((((((topOnes_size x.toNat).orShiftRight 1 rfl (by decide)).orShiftRight 2 rfl
    (by decide)).orShiftRight 4 rfl (by decide)).orShiftRight 8 rfl (by decide)).orShiftRight 16 rfl
    (by decide)).orShiftRight 32 rfl (by decide)
  refine ⟨_, ?_, by simp only [roundToPow2, hsub, Option.bind_eq_bind, Option.some_bind]; rfl⟩
  rw [hsmear.eq_two_pow_sub_one (Nat.size_le.mpr x.toNat_lt_two_pow), hx,
    Nat.sub_add_cancel Nat.one_le_two_pow]
  rfl

theorem roundToPow2_of_lt_one {value : UInt64} (h : ¬ 1 ≤ value.toNat) : roundToPow2 value = none := by
  simp only [roundToPow2, show checkedSub value 1 = none from if_neg h, Option.bind_eq_bind,
    Option.none_bind]

theorem roundToPow2_isSome_iff (value : UInt64)
    : (roundToPow2 value).isSome ↔ 1 ≤ value.toNat ∧ value.toNat ≤ 2 ^ 63 := by
  by_cases h : 1 ≤ value.toNat
  . obtain ⟨y, hy, heq⟩ := roundToPow2_of_pos h
    rw [heq, checkedAdd_isSome, UInt64.toNat_one_eq, hy, Nat.pow_lt_pow_iff_right (by decide),
      Nat.lt_succ_iff, Nat.size_le]
    omega
  . simp [roundToPow2_of_lt_one h, h]

theorem roundToPow2_toNat {value r : UInt64} (h : roundToPow2 value = some r)
    : 1 ≤ value.toNat ∧ r.toNat = 2 ^ (value.toNat - 1).size := by
  by_cases hpos : 1 ≤ value.toNat
  . obtain ⟨y, hy, heq⟩ := roundToPow2_of_pos hpos
    rw [heq] at h
    exact ⟨hpos, (checkedAdd_toNat h).trans hy⟩
  . rw [roundToPow2_of_lt_one hpos] at h
    cases h

theorem isCeilPow2_two_pow_size {value : Nat} (h : 1 ≤ value) : IsCeilPow2 value (2 ^ (value - 1).size) := by
  refine ⟨by have := Nat.lt_size_self (value - 1); omega, ⟨_, rfl⟩, fun k hk =>
    Nat.pow_le_pow_right (by decide) (Nat.le_of_not_lt fun hlt => ?_)⟩
  have := Nat.lt_size.mp hlt
  omega

/--
`round_to_pow2` evaluates without underflow or overflow exactly on `1 ≤ value ≤ 2 ^ 63`, and
there it returns the least power of two that is at least `value`.
-/
theorem roundToPow2_ceil (value : UInt64)
    : ((roundToPow2 value).isSome ↔ 1 ≤ value.toNat ∧ value.toNat ≤ 2 ^ 63) ∧
      ∀ r, roundToPow2 value = some r → IsCeilPow2 value.toNat r.toNat := by
  refine ⟨roundToPow2_isSome_iff value, fun r h => ?_⟩
  obtain ⟨hpos, hr⟩ := roundToPow2_toNat h
  rw [hr]
  exact isCeilPow2_two_pow_size hpos

theorem roundToPow2_ceil_at_test_input
    : roundToPow2 8589934597 = some 17179869184 ∧ IsCeilPow2 8589934597 17179869184 :=
  ⟨by decide, (roundToPow2_ceil 8589934597).2 17179869184 (by decide)⟩

example : roundToPow2 1 = some 1 ∧ roundToPow2 0 = none ∧ roundToPow2 9223372036854775808 = some 9223372036854775808 ∧
    roundToPow2 9223372036854775809 = none := by
  decide

end RoundToPow2

end Elkodon
