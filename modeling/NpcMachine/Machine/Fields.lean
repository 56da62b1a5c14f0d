/-
# Machine.Fields -- fields of a word put together by shifts

An encoder in C moves each field to its place with a shift and joins the pieces with `|`.
The lemmas here read a field back: the piece that the field is in gives its bits, a piece
in front of it or behind it gives zeros, so that one `simp` with them reads any field.
-/
import Mathlib.Data.BitVec

namespace NpcMachine.Machine

set_option autoImplicit false

variable {a w lo n k : Nat}

/-! ## Reading a piece -/

/-- A field that begins in a piece or behind it. -/
@[simp] theorem extract_shift (x : BitVec a) (low : k ≤ lo) (fits : lo + n ≤ w) :
    (x.setWidth w <<< k).extractLsb' lo n = x.extractLsb' (lo - k) n := by
  apply BitVec.eq_of_getLsbD_eq
  intro i small
  have word : lo + i < w := by omega
  have near : lo + i - k < w := by omega
  have back : lo + i - k = lo - k + i := by omega
  have covered : ¬ lo + i < k := by omega
  rw [back] at near
  simp only [BitVec.getLsbD_extractLsb', BitVec.getLsbD_shiftLeft, BitVec.getLsbD_setWidth, small,
    word, covered, back, near, decide_true, decide_false, Bool.not_false, Bool.true_and]

/-- A field in front of a piece. -/
@[simp] theorem extract_shift_front (x : BitVec a) (front : lo + n ≤ k) :
    (x.setWidth w <<< k).extractLsb' lo n = 0#n := by
  apply BitVec.eq_of_getLsbD_eq
  intro i small
  have left : lo + i < k := by omega
  simp only [BitVec.getLsbD_extractLsb', BitVec.getLsbD_shiftLeft, BitVec.getLsbD_zero, left,
    decide_true, Bool.not_true, Bool.false_and, Bool.and_false]

/-- A field behind the last bit. -/
@[simp] theorem extract_beyond (x : BitVec a) (beyond : a ≤ lo) : x.extractLsb' lo n = 0#n := by
  apply BitVec.eq_of_getLsbD_eq
  intro i small
  rw [BitVec.getLsbD_extractLsb', BitVec.getLsbD_of_ge x _ (by omega), Bool.and_false,
    BitVec.getLsbD_zero]

/-- A part of a field. -/
theorem extract_extract {m : Nat} (x : BitVec w) (inside : lo + n ≤ m) :
    (x.extractLsb' k m).extractLsb' lo n = x.extractLsb' (k + lo) n := by
  apply BitVec.eq_of_getLsbD_eq
  intro i small
  have part : lo + i < m := by omega
  simp only [BitVec.getLsbD_extractLsb', small, part, decide_true, Bool.true_and, Nat.add_assoc]

/-! ## Pieces of an operand -/

/-- Masking a field of an operand and shifting it further. -/
theorem and_mask_shift {mask : BitVec w} (lo n k : Nat)
    (bits : ∀ i, i < w → mask.getLsbD i = (decide (lo ≤ i) && decide (i < lo + n)))
    (v : BitVec w) : (v &&& mask) <<< k = (v.extractLsb' lo n).setWidth w <<< (lo + k) := by
  apply BitVec.eq_of_getLsbD_eq
  intro i small
  by_cases moved : i < lo + k
  · by_cases early : i < k
    · simp [BitVec.getLsbD_shiftLeft, early, moved]
    · have outside : mask.getLsbD (i - k) = false := by
        rw [bits (i - k) (by omega)]
        simp
        omega
      simp [BitVec.getLsbD_shiftLeft, moved, outside]
  · have late : ¬ i < k := by omega
    have back : lo + (i - (lo + k)) = i - k := by omega
    have word : i - (lo + k) < w := by omega
    have low : lo ≤ i - k := by omega
    have field : i - k < lo + n ↔ i - (lo + k) < n := by omega
    simp only [BitVec.getLsbD_shiftLeft, BitVec.getLsbD_and, BitVec.getLsbD_setWidth,
      BitVec.getLsbD_extractLsb', bits (i - k) (by omega), small, moved, late, back, word, low, field,
      decide_true, decide_false, Bool.not_false, Bool.true_and, Bool.and_comm]

/-- A field below the sign of an operand does not see the extension. -/
theorem extract_signExtend (x : BitVec a) (inside : lo + n ≤ a) (fits : a ≤ w) :
    (x.signExtend w).extractLsb' lo n = x.extractLsb' lo n := by
  apply BitVec.eq_of_getLsbD_eq
  intro i small
  have word : lo + i < w := by omega
  have field : lo + i < a := by omega
  simp only [BitVec.getLsbD_extractLsb', BitVec.getLsbD_signExtend, small, word, field, decide_true,
    Bool.true_and, if_true]

end NpcMachine.Machine
