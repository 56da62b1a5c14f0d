/-
# Machine.Bits -- bit fields as numbers

Concatenation and extraction of bit vectors in terms of `+`, `*`, `/` and `%`, so
that facts about fields of words become linear arithmetic; and the shifts, masks and
flips by which C writes extraction and sign extension.
-/
import Mathlib.Data.BitVec

namespace NpcMachine.Machine

set_option autoImplicit false

theorem toNat_append_mul {m n : Nat} (x : BitVec m) (y : BitVec n) :
    (x ++ y).toNat = x.toNat * 2 ^ n + y.toNat := by
  rw [BitVec.toNat_append, ← Nat.shiftLeft_add_eq_or_of_lt y.isLt, Nat.shiftLeft_eq]

theorem toNat_extract {n : Nat} (x : BitVec n) (start len : Nat) :
    (x.extractLsb' start len).toNat = x.toNat / 2 ^ start % 2 ^ len := by
  rw [BitVec.extractLsb'_toNat, Nat.shiftRight_eq_div_pow]

/-! ## The C idioms -/

theorem xor_two_pow {v k : Nat} (small : v < 2 ^ (k + 1)) :
    v ^^^ 2 ^ k = if v < 2 ^ k then v + 2 ^ k else v - 2 ^ k := by
  have pos : 0 < 2 ^ k := Nat.two_pow_pos k
  have low : (v ^^^ 2 ^ k) % 2 ^ k = v % 2 ^ k := by
    rw [Nat.xor_mod_two_pow, Nat.mod_self, Nat.xor_zero]
  have high : (v ^^^ 2 ^ k) / 2 ^ k = v / 2 ^ k ^^^ 1 := by
    rw [Nat.xor_div_two_pow, Nat.div_self pos]
  have parts := Nat.div_add_mod (v ^^^ 2 ^ k) (2 ^ k)
  rw [low, high] at parts
  rw [Nat.pow_succ] at small
  split_ifs with below
  · rw [Nat.div_eq_of_lt below, Nat.mod_eq_of_lt below] at parts
    simp at parts
    omega
  · have one : v / 2 ^ k = 1 := by
      rw [Nat.div_eq_iff pos]
      omega
    rw [one, Nat.mod_eq_sub_mod (by omega), Nat.mod_eq_of_lt (by omega)] at parts
    simpa using parts.symm

/-- Flipping the sign bit and subtracting it is sign extension. -/
theorem xor_sub_eq_signExtend {n : Nat} (x : BitVec (n + 1)) (fits : n + 1 ≤ 32) :
    (x.setWidth 32 ^^^ (1#32 <<< n)) - (1#32 <<< n) = x.signExtend 32 := by
  have room : 2 ^ (n + 1) ≤ 2 ^ 32 := Nat.pow_le_pow_right (by omega) fits
  have bound := x.isLt
  have bit : (1#32 <<< n).toNat = 2 ^ n := by
    rw [BitVec.toNat_shiftLeft, Nat.shiftLeft_eq]
    have one : (1#32).toNat = 1 := rfl
    rw [one, Nat.one_mul, Nat.mod_eq_of_lt]
    rw [Nat.pow_succ] at room
    have := Nat.two_pow_pos n
    omega
  have wide : (x.setWidth 32).toNat = x.toNat := by
    rw [BitVec.toNat_setWidth, Nat.mod_eq_of_lt (by omega)]
  apply BitVec.eq_of_toNat_eq
  rw [BitVec.toNat_sub, BitVec.toNat_xor, BitVec.toNat_signExtend, bit, wide, xor_two_pow bound,
    BitVec.msb_eq_decide]
  have step : 2 ^ (n + 1) = 2 ^ n * 2 := Nat.pow_succ 2 n
  simp only [Nat.add_sub_cancel, decide_eq_true_eq]
  split_ifs <;> omega

/-- Shifting and masking is extraction. -/
theorem extract_eq_setWidth (inst : BitVec 32) (lo n : Nat) (fits : n < 32) :
    (inst >>> lo) &&& ((1#32 <<< n) - 1#32) = (inst.extractLsb' lo n).setWidth 32 := by
  have room : 2 ^ n < 2 ^ 32 := Nat.pow_lt_pow_right (by omega) fits
  have one : (1#32).toNat = 1 := rfl
  have mask : ((1#32 <<< n) - 1#32).toNat = 2 ^ n - 1 := by
    rw [BitVec.toNat_sub, BitVec.toNat_shiftLeft, Nat.shiftLeft_eq, one, Nat.one_mul,
      Nat.mod_eq_of_lt room]
    have := Nat.two_pow_pos n
    omega
  apply BitVec.eq_of_toNat_eq
  rw [BitVec.toNat_and, mask, Nat.and_two_pow_sub_one_eq_mod, BitVec.toNat_ushiftRight,
    Nat.shiftRight_eq_div_pow, BitVec.toNat_setWidth, toNat_extract]
  have field := Nat.mod_lt (inst.toNat / 2 ^ lo) (Nat.two_pow_pos n)
  exact (Nat.mod_eq_of_lt (by omega)).symm

/-- What `and`ing with a run of low ones leaves. -/
theorem and_low (v : BitVec 32) (n : Nat) (fits : n < 32) :
    v &&& ((1#32 <<< n) - 1#32) = (v.extractLsb' 0 n).setWidth 32 := by
  have whole := extract_eq_setWidth v 0 n fits
  rwa [BitVec.ushiftRight_zero] at whole

/-- Clearing the low bits rounds down. -/
theorem toNat_and_not_low (v : BitVec 32) (n : Nat) (fits : n < 32) :
    (v &&& ~~~((1#32 <<< n) - 1#32)).toNat = v.toNat - v.toNat % 2 ^ n := by
  have low : (v &&& ((1#32 <<< n) - 1#32)).toNat = v.toNat % 2 ^ n := by
    have room : 2 ^ n ≤ 2 ^ 32 := Nat.pow_le_pow_right (by omega) (Nat.le_of_lt fits)
    have below := Nat.mod_lt v.toNat (Nat.two_pow_pos n)
    rw [and_low v n fits, BitVec.toNat_setWidth, toNat_extract, Nat.pow_zero, Nat.div_one]
    exact Nat.mod_eq_of_lt (by omega)
  have apart : (v &&& ~~~((1#32 <<< n) - 1#32)) &&& (v &&& ((1#32 <<< n) - 1#32)) = 0#32 := by
    ext i
    simp
    grind
  have whole : (v &&& ~~~((1#32 <<< n) - 1#32)) + (v &&& ((1#32 <<< n) - 1#32)) = v := by
    rw [BitVec.add_eq_or_of_and_eq_zero _ _ apart]
    ext i
    simp
    grind
  have sum := BitVec.toNat_add_of_and_eq_zero apart
  rw [whole, low] at sum
  omega

theorem low_setWidth {n : Nat} (x : BitVec n) (fits : n ≤ 32) :
    (x.setWidth 32).extractLsb' 0 n = x := by
  apply BitVec.eq_of_getLsbD_eq
  intro i small
  have word : i < 32 := by omega
  simp only [BitVec.getLsbD_extractLsb', BitVec.getLsbD_setWidth, Nat.zero_add, small, word,
    decide_true, Bool.true_and]

theorem low_signExtend {n : Nat} (x : BitVec n) (fits : n ≤ 32) :
    (x.signExtend 32).extractLsb' 0 n = x := by
  apply BitVec.eq_of_getLsbD_eq
  intro i small
  have word : i < 32 := by omega
  simp only [BitVec.getLsbD_extractLsb', BitVec.getLsbD_signExtend, Nat.zero_add, small, word,
    decide_true, Bool.true_and, if_true]

end NpcMachine.Machine
