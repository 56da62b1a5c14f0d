/-
# Machine.DoubleWord -- a number in two words

`hi ++ lo` is a number of twice the width.  What arithmetic on it does to the two words:
sums carry, shifts move bits across the border, and of a product only the low words give
a double word.
-/
import NpcMachine.Machine.ShiftArith

namespace NpcMachine.Machine

set_option autoImplicit false

variable {w : Nat}

theorem toNat_pair (hi lo : BitVec w) : (hi ++ lo).toNat = hi.toNat * 2 ^ w + lo.toNat := by
  rw [BitVec.toNat_append, ← Nat.shiftLeft_add_eq_or_of_lt lo.isLt, Nat.shiftLeft_eq]

/-- The low word of a number, and the rest of it modulo the words above. -/
theorem pair_mod (x s : Nat) (small : s < 2 ^ w) :
    (x * 2 ^ w + s) % 2 ^ (w + w) = x % 2 ^ w * 2 ^ w + s := by
  have split : x * 2 ^ w + s = 2 ^ (w + w) * (x / 2 ^ w) + (x % 2 ^ w * 2 ^ w + s) := by
    conv_lhs => rw [← Nat.div_add_mod x (2 ^ w), Nat.add_mul]
    rw [pow_add]
    ring
  have below : x % 2 ^ w * 2 ^ w + s < 2 ^ (w + w) := by
    have rest := Nat.mod_lt x (Nat.two_pow_pos w)
    calc x % 2 ^ w * 2 ^ w + s < x % 2 ^ w * 2 ^ w + 2 ^ w := by omega
      _ = (x % 2 ^ w + 1) * 2 ^ w := by ring
      _ ≤ 2 ^ w * 2 ^ w := Nat.mul_le_mul_right _ rest
      _ = 2 ^ (w + w) := (pow_add 2 w w).symm
  rw [split, Nat.mul_add_mod, Nat.mod_eq_of_lt below]

theorem pair_of_toNat {hi lo : BitVec w} {v : BitVec (w + w)} {x s : Nat} (small : s < 2 ^ w)
    (value : v.toNat = (x * 2 ^ w + s) % 2 ^ (w + w)) (high : hi.toNat = x % 2 ^ w)
    (low : lo.toNat = s) : v = hi ++ lo := by
  apply BitVec.eq_of_toNat_eq
  rw [value, pair_mod x s small, toNat_pair, high, low]

/-- The carry out of a sum shows in its low word. -/
theorem carry_eq (a b : BitVec w) :
    (if a + b < a then 1 else 0) = (a.toNat + b.toNat) / 2 ^ w := by
  have aSmall := a.isLt
  have bSmall := b.isLt
  have wraps : a + b < a ↔ 2 ^ w ≤ a.toNat + b.toNat := by
    rw [BitVec.lt_def, BitVec.toNat_add]
    by_cases over_ : a.toNat + b.toNat < 2 ^ w
    · rw [Nat.mod_eq_of_lt over_]
      omega
    · rw [Nat.mod_eq_sub_mod (by omega), Nat.mod_eq_of_lt (by omega)]
      omega
  split_ifs with less
  · rw [wraps] at less
    exact (Nat.div_eq_of_lt_le (by omega) (by omega)).symm
  · rw [wraps] at less
    exact (Nat.div_eq_of_lt (by omega)).symm

theorem pair_add (h1 l1 h2 l2 : BitVec w) :
    (h1 ++ l1) + (h2 ++ l2) = (BitVec.ofNat w (if l1 + l2 < l1 then 1 else 0) + (h1 + h2)) ++ (l1 + l2) := by
  refine pair_of_toNat (x := (l1.toNat + l2.toNat) / 2 ^ w + (h1.toNat + h2.toNat))
    (s := (l1.toNat + l2.toNat) % 2 ^ w) (Nat.mod_lt _ (Nat.two_pow_pos w)) ?_ ?_ ?_
  · rw [BitVec.toNat_add, toNat_pair, toNat_pair]
    congr 1
    have split := Nat.div_add_mod (l1.toNat + l2.toNat) (2 ^ w)
    rw [Nat.mul_comm] at split
    rw [Nat.add_mul, Nat.add_mul]
    omega
  · rw [carry_eq, BitVec.toNat_add, BitVec.toNat_ofNat, BitVec.toNat_add]
    simp
  · rw [BitVec.toNat_add]

/-- The product of two double words, given that of their low words. -/
theorem pair_mul {h1 l1 h2 l2 hi lo : BitVec w} (low : (0#w ++ l1) * (0#w ++ l2) = hi ++ lo) :
    (h1 ++ l1) * (h2 ++ l2) = (hi + l2 * h1 + l1 * h2) ++ lo := by
  have product : l1.toNat * l2.toNat = hi.toNat * 2 ^ w + lo.toNat := by
    have values := congrArg BitVec.toNat low
    have fits : l1.toNat * l2.toNat < 2 ^ (w + w) := by
      rw [pow_add]
      exact Nat.mul_lt_mul'' l1.isLt l2.isLt
    rwa [BitVec.toNat_mul, toNat_pair, toNat_pair, toNat_pair, BitVec.toNat_ofNat, Nat.zero_mod,
      Nat.zero_mul, Nat.zero_add, Nat.zero_add, Nat.mod_eq_of_lt fits] at values
  refine pair_of_toNat (x := hi.toNat + l2.toNat * h1.toNat + l1.toNat * h2.toNat +
    h1.toNat * h2.toNat * 2 ^ w) (s := lo.toNat) lo.isLt ?_ ?_ rfl
  · rw [BitVec.toNat_mul, toNat_pair, toNat_pair]
    congr 1
    calc (h1.toNat * 2 ^ w + l1.toNat) * (h2.toNat * 2 ^ w + l2.toNat)
        = (l2.toNat * h1.toNat + l1.toNat * h2.toNat + h1.toNat * h2.toNat * 2 ^ w) * 2 ^ w +
            l1.toNat * l2.toNat := by ring
      _ = _ := by
        rw [product]
        ring
  · rw [Nat.add_mul_mod_self_right]
    simp [BitVec.toNat_add, BitVec.toNat_mul]

/-- A number shifted by less than a word takes the top bits of its low word along. -/
theorem pair_shl (hi lo : BitVec w) {k : Nat} (inside : k < w) :
    (hi ++ lo) <<< k = ((hi <<< k) ||| (lo >>> (w - k))) ++ (lo <<< k) := by
  apply BitVec.eq_of_getLsbD_eq
  intro i small
  simp only [BitVec.getLsbD_append, BitVec.getLsbD_shiftLeft, BitVec.getLsbD_or,
    BitVec.getLsbD_ushiftRight]
  by_cases low : i < w
  · grind
  · by_cases crosses : i - w < k
    · have index : w - k + (i - w) = i - k := by omega
      have shifted : i - k < w := by omega
      simp [low, small, shifted, crosses, index]
      omega
    · have above : ¬ i - k < w := by omega
      have beyond : lo.getLsbD (w - k + (i - w)) = false := BitVec.getLsbD_of_ge _ _ (by omega)
      have index : i - k - w = i - w - k := by omega
      have near : i - w < w := by omega
      have far : ¬ i < k := by omega
      rw [if_neg above, if_neg low, beyond, index]
      simp only [small, near, far, crosses, Bool.or_false]

/-- Shifting by a word or more leaves the low word empty. -/
theorem pair_shl_word (hi lo : BitVec w) {k : Nat} (beyond : w ≤ k) :
    (hi ++ lo) <<< k = (lo <<< (k - w)) ++ 0#w := by
  apply BitVec.eq_of_getLsbD_eq
  intro i small
  simp only [BitVec.getLsbD_append, BitVec.getLsbD_shiftLeft, BitVec.getLsbD_zero]
  by_cases low : i < w
  · simp [low]
    omega
  · by_cases below : i - w < k - w
    · simp [low, below]
      omega
    · have index : i - k = i - w - (k - w) := by omega
      have inside : i - k < w := by omega
      have near : i - w < w := by omega
      have far : ¬ i < k := by omega
      rw [if_neg low, if_pos inside, index]
      simp only [small, near, far, below]

theorem pair_shr (hi lo : BitVec w) {k : Nat} (inside : k < w) :
    (hi ++ lo) >>> k = (hi >>> k) ++ ((hi <<< (w - k)) ||| (lo >>> k)) := by
  apply BitVec.eq_of_getLsbD_eq
  intro i small
  simp only [BitVec.getLsbD_append, BitVec.getLsbD_shiftLeft, BitVec.getLsbD_or,
    BitVec.getLsbD_ushiftRight]
  grind

theorem pair_shr_word (hi lo : BitVec w) {k : Nat} (beyond : w ≤ k) :
    (hi ++ lo) >>> k = 0#w ++ (hi >>> (k - w)) := by
  apply BitVec.eq_of_getLsbD_eq
  intro i small
  simp only [BitVec.getLsbD_append, BitVec.getLsbD_ushiftRight, BitVec.getLsbD_zero]
  grind

end NpcMachine.Machine
