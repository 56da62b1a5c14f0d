/-
# Machine.CountZeros -- leading and trailing zeros by halves

A number with a bit set is narrowed to half as many bits until one is left; what was
passed over on the way is the count.

* `prefix_lt`, `power_of_single`: what counts say of sizes;
* `clz_of_bounds`, `ctz_of_bits`: what settles a count;
* `Leading`, `Trailing`: `k` bits are still in view and `r` zeros are passed.
-/
import NpcMachine.Machine.DoubleWord

namespace NpcMachine.Machine

set_option autoImplicit false

variable {w : Nat}

/-! ## What settles a count -/

theorem clz_lt {x : BitVec w} (nonzero : x ≠ 0#w) : x.clz.toNat < w := by
  have less := BitVec.lt_def.mp (BitVec.clz_lt_iff_ne_zero.mpr nonzero)
  exact Nat.lt_of_lt_of_le less (Nat.mod_le _ _)

theorem le_of_clz {x : BitVec w} (nonzero : x ≠ 0#w) : 2 ^ (w - 1 - x.clz.toNat) ≤ x.toNat :=
  BitVec.two_pow_sub_clz_le_toNat_of_ne_zero (Nat.zero_lt_of_lt (clz_lt nonzero)) nonzero

theorem lt_of_clz (x : BitVec w) : x.toNat < 2 ^ (w - x.clz.toNat) := BitVec.toNat_lt_two_pow_sub_clz

theorem clz_of_bounds {x : BitVec w} {c : Nat} (inside : c < w) (low : 2 ^ (w - 1 - c) ≤ x.toNat)
    (high : x.toNat < 2 ^ (w - c)) : x.clz.toNat = c := by
  have nonzero : x ≠ 0#w := by
    rintro rfl
    have positive := Nat.two_pow_pos (w - 1 - c)
    rw [BitVec.toNat_ofNat, Nat.zero_mod] at low
    omega
  have less := clz_lt nonzero
  have above := (Nat.pow_lt_pow_iff_right (by decide)).mp (Nat.lt_of_le_of_lt (le_of_clz nonzero) high)
  have below := (Nat.pow_lt_pow_iff_right (by decide)).mp (Nat.lt_of_le_of_lt low (lt_of_clz x))
  omega

theorem ctz_of_bits {x : BitVec w} {c : Nat} (set : x.getLsbD c = true)
    (clear : ∀ i, i < c → x.getLsbD i = false) : x.ctz.toNat = c := by
  have nonzero : x ≠ 0#w := by
    rintro rfl
    simp at set
  have first := BitVec.getLsbD_true_ctz_of_ne_zero nonzero
  rcases Nat.lt_trichotomy x.ctz.toNat c with less | same | more
  · rw [clear _ less] at first
    exact absurd first (by decide)
  · exact same
  · rw [BitVec.getLsbD_false_of_lt_ctz more] at set
    exact absurd set (by decide)

/-! ## Orders of magnitude -/

theorem lt_of_clz_lt {n d : BitVec w} (nonzero : d ≠ 0#w) (less : d.clz.toNat < n.clz.toNat) :
    n.toNat < d.toNat := by
  calc n.toNat < 2 ^ (w - n.clz.toNat) := lt_of_clz n
    _ ≤ 2 ^ (w - 1 - d.clz.toNat) := Nat.pow_le_pow_right (by decide) (by omega)
    _ ≤ d.toNat := le_of_clz nonzero

/-- What is left of `n` when it is moved one place further than below the top bit of `d`. -/
theorem prefix_lt {n d : BitVec w} (nonzero : d ≠ 0#w) (le : n.clz.toNat ≤ d.clz.toNat) :
    n.toNat / 2 ^ (d.clz.toNat - n.clz.toNat + 1) < d.toNat := by
  have inside := clz_lt nonzero
  have fits : n.toNat / 2 ^ (d.clz.toNat - n.clz.toNat + 1) < 2 ^ (w - 1 - d.clz.toNat) := by
    apply Nat.div_lt_of_lt_mul
    rw [← pow_add]
    exact (lt_of_clz n).trans_le (Nat.pow_le_pow_right (by decide) (by omega))
  exact fits.trans_le (le_of_clz nonzero)

theorem power_of_single {x : BitVec w} (nonzero : x ≠ 0#w) (single : x &&& (x - 1#w) = 0#w) :
    x.toNat = 2 ^ x.ctz.toNat := by
  have positive : x.toNat ≠ 0 := fun zero => nonzero (BitVec.eq_of_toNat_eq zero)
  have small := x.isLt
  have one : (1#w).toNat = 1 := by
    rw [BitVec.toNat_ofNat]
    exact Nat.mod_eq_of_lt (by omega)
  have bits := congrArg BitVec.toNat single
  rw [BitVec.toNat_and, BitVec.toNat_sub_of_le (BitVec.le_def.mpr (by omega)), one,
    BitVec.toNat_ofNat, Nat.zero_mod, Nat.and_sub_one_eq_zero_iff_isPowerOfTwo positive] at bits
  obtain ⟨k, power⟩ := bits
  have count : x.ctz.toNat = k := by
    apply ctz_of_bits
    · rw [BitVec.getLsbD, power, Nat.testBit_two_pow_self]
    · intro i below
      rw [BitVec.getLsbD, power, Nat.testBit_two_pow_of_ne (by omega)]
  rw [count, power]

/-- A number with two bits set has one above the lowest. -/
theorem clz_of_many {x : BitVec w} (many : x &&& (x - 1#w) ≠ 0#w) : x.clz.toNat + 1 < w := by
  have nonzero : x ≠ 0#w := by
    rintro rfl
    exact many BitVec.zero_and
  have less := clz_lt nonzero
  by_contra last
  have small := lt_of_clz x
  rw [show w - x.clz.toNat = 1 by omega] at small
  have positive : x.toNat ≠ 0 := fun zero => nonzero (BitVec.eq_of_toNat_eq zero)
  have single : x = 1#w := by
    apply BitVec.eq_of_toNat_eq
    rw [BitVec.toNat_ofNat, Nat.mod_eq_of_lt (Nat.one_lt_two_pow (by omega))]
    omega
  exact many (by rw [single, BitVec.sub_self, BitVec.and_zero])

/-! ## Numbers in two words -/

theorem clz_pair {hi : BitVec w} (lo : BitVec w) (nonzero : hi ≠ 0#w) :
    (hi ++ lo).clz.toNat = hi.clz.toNat := by
  have less := clz_lt nonzero
  have small := lo.isLt
  apply clz_of_bounds (by omega)
  · calc 2 ^ (w + w - 1 - hi.clz.toNat) = 2 ^ (w - 1 - hi.clz.toNat) * 2 ^ w := by
          rw [← pow_add]
          congr 1
          omega
      _ ≤ hi.toNat * 2 ^ w := Nat.mul_le_mul_right _ (le_of_clz nonzero)
      _ ≤ (hi ++ lo).toNat := by
          rw [toNat_pair]
          exact Nat.le_add_right _ _
  · calc (hi ++ lo).toNat < (hi.toNat + 1) * 2 ^ w := by
          rw [toNat_pair, Nat.add_mul]
          omega
      _ ≤ 2 ^ (w - hi.clz.toNat) * 2 ^ w := Nat.mul_le_mul_right _ (lt_of_clz hi)
      _ = 2 ^ (w + w - hi.clz.toNat) := by
          rw [← pow_add]
          congr 1
          omega

theorem clz_low {lo : BitVec w} (nonzero : lo ≠ 0#w) :
    (0#w ++ lo).clz.toNat = w + lo.clz.toNat := by
  have less := clz_lt nonzero
  have value : (0#w ++ lo).toNat = lo.toNat := by simp
  apply clz_of_bounds (by omega)
  · rw [value, show w + w - 1 - (w + lo.clz.toNat) = w - 1 - lo.clz.toNat by omega]
    exact le_of_clz nonzero
  · rw [value, show w + w - (w + lo.clz.toNat) = w - lo.clz.toNat by omega]
    exact lt_of_clz lo

theorem ctz_pair (hi : BitVec w) {lo : BitVec w} (nonzero : lo ≠ 0#w) :
    (hi ++ lo).ctz.toNat = lo.ctz.toNat := by
  have first := BitVec.getLsbD_true_ctz_of_ne_zero nonzero
  have less := BitVec.lt_of_getLsbD first
  apply ctz_of_bits
  · rw [BitVec.getLsbD_append, if_pos less, first]
  · intro i below
    rw [BitVec.getLsbD_append, if_pos (below.trans less), BitVec.getLsbD_false_of_lt_ctz below]

theorem ctz_high {hi : BitVec w} (nonzero : hi ≠ 0#w) :
    (hi ++ 0#w).ctz.toNat = w + hi.ctz.toNat := by
  have first := BitVec.getLsbD_true_ctz_of_ne_zero nonzero
  apply ctz_of_bits
  · rw [BitVec.getLsbD_append, if_neg (by omega), Nat.add_sub_cancel_left, first]
  · intro i below
    rw [BitVec.getLsbD_append]
    split_ifs with low
    · simp
    · exact BitVec.getLsbD_false_of_lt_ctz (by omega)

/-! ## By halves -/

theorem upper_clear {x m : BitVec w} {k : Nat} (mask : m.toNat = 2 ^ k * (2 ^ k - 1))
    (below : x.toNat < 2 ^ (k + k)) : x &&& m = 0#w ↔ x.toNat < 2 ^ k := by
  rw [← BitVec.toNat_inj, BitVec.toNat_and, mask, BitVec.toNat_ofNat, Nat.zero_mod]
  constructor
  · intro clear
    apply Nat.lt_pow_two_of_testBit
    intro i above
    by_cases inside : i < k + k
    · have bit := congrArg (Nat.testBit · i) clear
      simpa [Nat.testBit_two_pow_mul, above, show i - k < k by omega] using bit
    · exact Nat.testBit_lt_two_pow
        (below.trans_le (Nat.pow_le_pow_right (by decide) (Nat.not_lt.mp inside)))
  · intro small
    apply Nat.eq_of_testBit_eq
    intro i
    by_cases above : k ≤ i
    · simp [Nat.testBit_lt_two_pow (small.trans_le (Nat.pow_le_pow_right (by decide) above))]
    · simp [Nat.testBit_two_pow_mul, above]

theorem lower_clear {x m : BitVec w} {k : Nat} (mask : m.toNat = 2 ^ k - 1) :
    x &&& m = 0#w ↔ x.toNat % 2 ^ k = 0 := by
  rw [← BitVec.toNat_inj, BitVec.toNat_and, mask, Nat.and_two_pow_sub_one_eq_mod,
    BitVec.toNat_ofNat, Nat.zero_mod]

/-- Of `a`, `k` bits below `r` zeros are left, in `x`. -/
structure Leading (a : BitVec w) (k : Nat) (x : BitVec w) (r : Nat) : Prop where
  inside : k + r ≤ w
  value : x.toNat = a.toNat / 2 ^ (w - k - r)
  below : x.toNat < 2 ^ k
  nonzero : 0 < x.toNat

namespace Leading

variable {a x : BitVec w} {k r : Nat}

theorem start (nonzero : a ≠ 0#w) : Leading a w a 0 :=
  ⟨Nat.le_refl _, by simp, a.isLt, Nat.pos_of_ne_zero fun zero => nonzero (BitVec.eq_of_toNat_eq zero)⟩

theorem halve (leading : Leading a (k + k) x r) :
    if x.toNat < 2 ^ k then Leading a k x (r + k) else Leading a k (x >>> k) r := by
  have inside := leading.inside
  split_ifs with small
  · refine ⟨by omega, ?_, small, leading.nonzero⟩
    rw [leading.value]
    congr 2
    omega
  · have shifted : (x >>> k).toNat = x.toNat / 2 ^ k := by
      rw [BitVec.toNat_ushiftRight, Nat.shiftRight_eq_div_pow]
    refine ⟨by omega, ?_, ?_, ?_⟩
    · rw [shifted, leading.value, Nat.div_div_eq_div_mul, ← pow_add]
      congr 2
      omega
    · rw [shifted]
      exact Nat.div_lt_of_lt_mul (by rw [← pow_add]; exact leading.below)
    · rw [shifted]
      exact Nat.div_pos (Nat.not_lt.mp small) (Nat.two_pow_pos k)

theorem done (leading : Leading a 1 x r) : a.clz.toNat = r := by
  have inside := leading.inside
  have below := leading.below
  have nonzero := leading.nonzero
  have one : a.toNat / 2 ^ (w - 1 - r) = 1 := by
    rw [← leading.value]
    omega
  have split := Nat.div_add_mod a.toNat (2 ^ (w - 1 - r))
  have rest := Nat.mod_lt a.toNat (Nat.two_pow_pos (w - 1 - r))
  rw [one, Nat.mul_one] at split
  apply clz_of_bounds (by omega) (by omega)
  rw [show w - r = w - 1 - r + 1 by omega, pow_succ]
  omega

end Leading

/-- `x` is `a` without `r` zeros at its end; the next bit set is among its `k` lowest. -/
structure Trailing (a : BitVec w) (k : Nat) (x : BitVec w) (r : Nat) : Prop where
  inside : k + r ≤ w
  value : x = a >>> r
  clear : ∀ i, i < r → a.getLsbD i = false
  nonzero : x.toNat % 2 ^ k ≠ 0

namespace Trailing

variable {a x : BitVec w} {k r : Nat}

theorem start (nonzero : a ≠ 0#w) : Trailing a w a 0 :=
  ⟨Nat.le_refl _, (BitVec.ushiftRight_zero a).symm, fun _ below => absurd below (Nat.not_lt_zero _), by
    rw [Nat.mod_eq_of_lt a.isLt]
    exact fun zero => nonzero (BitVec.eq_of_toNat_eq zero)⟩

theorem halve (trailing : Trailing a (k + k) x r) :
    if x.toNat % 2 ^ k = 0 then Trailing a k (x >>> k) (r + k) else Trailing a k x r := by
  have inside := trailing.inside
  split_ifs with zeros
  · refine ⟨by omega, ?_, ?_, ?_⟩
    · rw [trailing.value, BitVec.shiftRight_add]
    · intro i below
      by_cases passed : i < r
      · exact trailing.clear i passed
      · have bit : (x.toNat % 2 ^ k).testBit (i - r) = false := by rw [zeros, Nat.zero_testBit]
        rw [Nat.testBit_mod_two_pow, decide_eq_true (by omega : i - r < k), Bool.true_and] at bit
        rw [trailing.value, ← BitVec.getLsbD, BitVec.getLsbD_ushiftRight] at bit
        rwa [Nat.add_sub_cancel' (Nat.not_lt.mp passed)] at bit
    · rw [BitVec.toNat_ushiftRight, Nat.shiftRight_eq_div_pow]
      intro none
      apply trailing.nonzero
      rw [pow_add, Nat.mod_mul, zeros, none, Nat.mul_zero]
  · exact ⟨by omega, trailing.value, trailing.clear, zeros⟩

theorem done (trailing : Trailing a 1 x r) : a.ctz.toNat = r := by
  apply ctz_of_bits _ trailing.clear
  have odd := trailing.nonzero
  have bit : x.getLsbD 0 = true := by
    rw [BitVec.getLsbD, Nat.testBit_zero]
    simp
    omega
  rwa [trailing.value, BitVec.getLsbD_ushiftRight, Nat.add_zero] at bit

end Trailing

end NpcMachine.Machine
