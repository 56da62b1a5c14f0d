/-
# Machine.ShiftArith -- products and quotients bit by bit

What a processor without multiplier and divider computes with shifts.

* `mul_shift`: a product sheds the lowest bit of its second factor;
* `Split`: quotient and remainder while `k` bits of the quotient are still open; a
  conditional subtraction settles one (`Split.settle`), and when none is open it is the
  division (`Split.done`);
* `Scanned`: the same for the prefix of the dividend without its `k` low bits, each of
  which is shifted in (`Scanned.shift`).
-/
import Mathlib.Data.Nat.Bits
import Mathlib.Algebra.Order.Ring.Nat
import Mathlib.Tactic.Ring
import Mathlib.Tactic.Linarith

namespace NpcMachine.Machine

set_option autoImplicit false

/-! ## Products -/

theorem low_bit {w : Nat} (wide : 0 < w) (v : BitVec w) :
    v &&& 1#w = 0#w ↔ v.getLsbD 0 = false := by
  have one : 1 % 2 ^ w = 1 := Nat.mod_eq_of_lt (Nat.one_lt_two_pow wide.ne')
  rw [← BitVec.toNat_inj, BitVec.toNat_and, BitVec.toNat_ofNat, one, Nat.and_one_is_mod,
    BitVec.toNat_ofNat, Nat.zero_mod, BitVec.getLsbD, Nat.testBit_zero]
  simp

theorem mul_shift {w : Nat} (x y : BitVec w) :
    x * y = (if y.getLsbD 0 then x else 0#w) + (x <<< 1) * (y >>> 1) := by
  apply BitVec.eq_of_toNat_eq
  have parity : y.toNat = 2 * (y.toNat / 2) + y.toNat % 2 := (Nat.div_add_mod _ _).symm
  have low : (if y.getLsbD 0 then x else 0#w).toNat = x.toNat * (y.toNat % 2) := by
    rw [BitVec.getLsbD, Nat.testBit_zero]
    rcases Nat.mod_two_eq_zero_or_one y.toNat with even | odd
    · simp [even]
    · simp [odd]
  rw [BitVec.toNat_mul, BitVec.toNat_add, BitVec.toNat_mul, low, BitVec.toNat_shiftLeft,
    BitVec.toNat_ushiftRight, Nat.shiftLeft_eq, Nat.shiftRight_eq_div_pow, pow_one]
  have whole : x.toNat * y.toNat = x.toNat * (y.toNat % 2) + x.toNat * 2 * (y.toNat / 2) := by
    conv_lhs => rw [parity]
    ring
  rw [whole, Nat.mod_mul_mod, Nat.add_mod_mod]

/-! ## Quotients -/

/-- `q` and `r` divide `n` by `d`, but for the `k` low bits of the quotient. -/
structure Split (n d k q r : Nat) : Prop where
  sum : n = q * d + r
  below : r < d * 2 ^ k
  low : 2 ^ k ∣ q

namespace Split

variable {n d k q r : Nat}

theorem start (below : n < d * 2 ^ k) : Split n d k 0 n := ⟨by simp, below, Nat.dvd_zero _⟩

/-- The bit `k` of the quotient is settled by a conditional subtraction. -/
theorem settle (split : Split n d (k + 1) q r) :
    if r < d * 2 ^ k then Split n d k q r else Split n d k (q + 2 ^ k) (r - d * 2 ^ k) := by
  have low : 2 ^ k ∣ q := Nat.dvd_trans (pow_dvd_pow 2 (Nat.le_succ k)) split.low
  split_ifs with less
  · exact ⟨split.sum, less, low⟩
  · have double := split.below
    rw [pow_succ, ← Nat.mul_assoc] at double
    refine ⟨?_, by omega, Nat.dvd_add low (Nat.dvd_refl _)⟩
    rw [split.sum, Nat.add_mul, Nat.mul_comm (2 ^ k) d]
    omega

theorem done (split : Split n d 0 q r) : q = n / d ∧ r = n % d := by
  obtain ⟨sum, below, -⟩ := split
  rw [pow_zero, Nat.mul_one] at below
  have back : r + d * q = n := by rw [sum, Nat.mul_comm, Nat.add_comm]
  obtain ⟨quotient, rest⟩ := (Nat.div_mod_unique (Nat.zero_lt_of_lt below)).mpr ⟨back, below⟩
  exact ⟨quotient.symm, rest.symm⟩

end Split

/-- `q` and `r` divide by `d` what is left of `n` without its `k` low bits. -/
structure Scanned (n d k q r : Nat) : Prop where
  sum : n / 2 ^ k = q * d + r
  below : r < d

namespace Scanned

variable {n d k q r : Nat}

theorem start (below : n / 2 ^ k < d) : Scanned n d k 0 (n / 2 ^ k) := ⟨by simp, below⟩

/-- The remainder with the next bit of the dividend behind it. -/
def shifted (n k r : Nat) : Nat := 2 * r + n / 2 ^ k % 2

theorem prefix_succ (n k : Nat) : n / 2 ^ k = shifted n k (n / 2 ^ (k + 1)) := by
  rw [shifted, pow_succ, ← Nat.div_div_eq_div_mul]
  exact (Nat.div_add_mod _ _).symm

theorem shifted_lt (scanned : Scanned n d (k + 1) q r) : shifted n k r < 2 * d := by
  have below := scanned.below
  have bit := Nat.mod_lt (n / 2 ^ k) (by decide : 0 < 2)
  rw [shifted]
  omega

/-- One more bit of the dividend is one more bit of the quotient. -/
theorem shift (scanned : Scanned n d (k + 1) q r) :
    if d ≤ shifted n k r then Scanned n d k (2 * q + 1) (shifted n k r - d)
    else Scanned n d k (2 * q) (shifted n k r) := by
  have small := scanned.shifted_lt
  have whole : n / 2 ^ k = 2 * q * d + shifted n k r := by
    rw [prefix_succ, scanned.sum, shifted, shifted]
    ring
  split_ifs with fits
  · refine ⟨?_, by omega⟩
    rw [whole, Nat.add_mul, Nat.one_mul]
    omega
  · exact ⟨whole, by omega⟩

/-- Before the last bit the quotient of a dividend below `2 * d` is still zero. -/
theorem shifted_whole (scanned : Scanned n d 1 q r) (below : n < 2 * d) : shifted n 0 r = n := by
  have sum := scanned.sum
  rw [pow_one] at sum
  have none : q = 0 := by
    by_contra some
    have one : 1 * d ≤ q * d := Nat.mul_le_mul_right d (Nat.one_le_iff_ne_zero.mpr some)
    omega
  rw [none, Nat.zero_mul, Nat.zero_add] at sum
  rw [shifted, ← sum, pow_zero, Nat.div_one, Nat.div_add_mod]

theorem done (scanned : Scanned n d 0 q r) : q = n / d ∧ r = n % d := by
  obtain ⟨sum, below⟩ := scanned
  rw [pow_zero, Nat.div_one] at sum
  exact Split.done ⟨sum, by rwa [pow_zero, Nat.mul_one], Nat.one_dvd _⟩

end Scanned

end NpcMachine.Machine
