/-
# Machine.LongDivision -- division in two shift registers

The dividend leaves a register at the top, bit by bit, while the bits of the quotient enter
it at the bottom, each one step late: the newest is kept as a carry.

* `sign_mask`, `msb_difference`: the comparison without a branch;
* `Dividing`: registers with `k` bits of the dividend to go; `Dividing.step` is the body of
  the loop, and `Dividing.done` reads off quotient and remainder.
-/
import NpcMachine.Machine.ShiftArith

namespace NpcMachine.Machine

set_option autoImplicit false

variable {w : Nat}

/-! ## Bits -/

/-- A shift that lets a bit in. -/
theorem toNat_shl_or {x b : BitVec w} (bit : b.toNat ≤ 1) :
    (x <<< 1 ||| b).toNat = (2 * x.toNat + b.toNat) % 2 ^ w := by
  cases w with
  | zero => simp [BitVec.eq_nil x, BitVec.eq_nil b]
  | succ w =>
      have even : (x <<< 1).toNat = x.toNat % 2 ^ w * 2 := by
        rw [BitVec.toNat_shiftLeft, Nat.shiftLeft_eq, pow_one, pow_succ, Nat.mul_mod_mul_right]
      have sum : x.toNat % 2 ^ w * 2 ||| b.toNat = x.toNat % 2 ^ w * 2 + b.toNat := by
        have add := (Nat.shiftLeft_add_eq_or_of_lt (b := b.toNat) (i := 1) (by omega)
          (x.toNat % 2 ^ w)).symm
        rwa [Nat.shiftLeft_eq, pow_one] at add
      have whole : 2 * x.toNat + b.toNat =
          2 ^ (w + 1) * (x.toNat / 2 ^ w) + (x.toNat % 2 ^ w * 2 + b.toNat) := by
        conv_lhs => rw [← Nat.div_add_mod x.toNat (2 ^ w)]
        rw [pow_succ]
        ring
      have small : x.toNat % 2 ^ w * 2 + b.toNat < 2 ^ (w + 1) := by
        have below := Nat.mod_lt x.toNat (Nat.two_pow_pos w)
        rw [pow_succ]
        omega
      rw [BitVec.toNat_or, even, sum, whole, Nat.mul_add_mod, Nat.mod_eq_of_lt small]

theorem sign_mask (wide : 0 < w) (v : BitVec w) :
    v.sshiftRight (w - 1) = if v.msb then BitVec.allOnes w else 0#w := by
  apply BitVec.eq_of_getLsbD_eq
  intro i inside
  rw [BitVec.getLsbD_sshiftRight]
  have index : w - 1 + i < w ↔ i = 0 := by omega
  by_cases first : i = 0
  · subst first
    rw [if_pos (index.mpr rfl), Nat.add_zero, ← BitVec.msb_eq_getLsbD_last]
    cases v.msb <;> simp [wide, wide.ne']
  · rw [if_neg (mt index.mp first)]
    cases v.msb <;> simp [inside]

/-- The sign of `d - r - 1` compares two numbers that are no further apart than a sign allows. -/
theorem msb_difference {d r : BitVec w} (near : d.toNat < 2 ^ (w - 1) ∧ r.toNat < 2 * d.toNat ∨
    2 ^ (w - 1) ≤ d.toNat ∧ 2 ^ (w - 1) ≤ r.toNat) :
    (d - r - 1#w).msb = decide (d.toNat ≤ r.toNat) := by
  cases w with
  | zero => simp [BitVec.eq_nil d, BitVec.eq_nil r] at near
  | succ w =>
      have dSmall := d.isLt
      have rSmall := r.isLt
      have one : (1#(w + 1)).toNat = 1 := by simp
      have positive := Nat.two_pow_pos w
      rw [BitVec.msb_eq_decide, decide_eq_decide, BitVec.toNat_sub, BitVec.toNat_sub, one]
      simp only [Nat.add_sub_cancel, pow_succ] at *
      by_cases fits : d.toNat ≤ r.toNat
      · have inner : (2 ^ w * 2 - r.toNat + d.toNat) % (2 ^ w * 2) =
            if d.toNat = r.toNat then 0 else 2 ^ w * 2 - r.toNat + d.toNat := by
          split_ifs with same
          · rw [same, Nat.sub_add_cancel rSmall.le, Nat.mod_self]
          · exact Nat.mod_eq_of_lt (by omega)
        rw [inner]
        split_ifs with same
        · rw [Nat.add_zero, Nat.mod_eq_of_lt (by omega)]
          omega
        · rw [Nat.mod_eq_sub_mod (by omega), Nat.mod_eq_of_lt (by omega)]
          omega
      · have inner : (2 ^ w * 2 - r.toNat + d.toNat) % (2 ^ w * 2) = d.toNat - r.toNat := by
          rw [Nat.mod_eq_sub_mod (by omega), Nat.mod_eq_of_lt (by omega)]
          omega
        rw [inner, Nat.mod_eq_sub_mod (by omega), Nat.mod_eq_of_lt (by omega)]
        omega

/-! ## The registers -/

/-- `r` is the remainder so far and `a` the register with `k` bits of the dividend `n` to go;
of the quotient so far `carry` has the lowest bit. -/
structure Dividing (n d k : Nat) (r a carry : BitVec w) (q : Nat) : Prop where
  scanned : Scanned n d k q r.toNat
  register : a.toNat = n % 2 ^ k * 2 ^ (w - k) + q / 2
  newest : carry.toNat = q % 2
  short : q < 2 ^ (w - k)

namespace Dividing

variable {n d : BitVec w} {k : Nat} {r a carry : BitVec w} {q : Nat}

theorem start (inside : k ≤ w) (below : n.toNat / 2 ^ k < d.toNat) :
    Dividing n.toNat d.toNat k (n >>> k) (n <<< (w - k)) 0#w 0 where
  scanned := by
    rw [BitVec.toNat_ushiftRight, Nat.shiftRight_eq_div_pow]
    exact .start below
  register := by
    have split : 2 ^ w = 2 ^ k * 2 ^ (w - k) := by rw [← pow_add, Nat.add_sub_cancel' inside]
    rw [BitVec.toNat_shiftLeft, Nat.shiftLeft_eq, split, Nat.mul_mod_mul_right]
    rfl
  newest := rfl
  short := Nat.two_pow_pos _

/-- The top bit of the register is the next bit of the dividend. -/
theorem top (dividing : Dividing n.toNat d.toNat (k + 1) r a carry q) (inside : k + 1 ≤ w) :
    (a >>> (w - 1)).toNat = n.toNat / 2 ^ k % 2 := by
  obtain ⟨j, rfl⟩ := Nat.exists_eq_add_of_le inside
  have width : k + 1 + j - (k + 1) = j := by omega
  have short := dividing.short
  rw [width] at short
  have upper : (n.toNat % 2 ^ (k + 1) * 2 ^ j + q / 2) / 2 ^ j = n.toNat % 2 ^ (k + 1) := by
    rw [Nat.add_comm, Nat.add_mul_div_right _ _ (Nat.two_pow_pos j), Nat.div_eq_of_lt (by omega),
      Nat.zero_add]
  rw [BitVec.toNat_ushiftRight, Nat.shiftRight_eq_div_pow, dividing.register, width,
    show k + 1 + j - 1 = j + k by omega, pow_add 2 j k, ← Nat.div_div_eq_div_mul, upper, pow_succ,
    Nat.mod_mul_right_div_self]

/-- The register one bit on. -/
theorem moved (dividing : Dividing n.toNat d.toNat (k + 1) r a carry q) (inside : k + 1 ≤ w) :
    (a <<< 1 ||| carry).toNat = n.toNat % 2 ^ k * 2 ^ (w - k) + q := by
  have bit : carry.toNat ≤ 1 := by
    have small := Nat.mod_lt q (by decide : 0 < 2)
    rw [dividing.newest]
    omega
  obtain ⟨j, rfl⟩ := Nat.exists_eq_add_of_le inside
  have width : k + 1 + j - (k + 1) = j := by omega
  have wider : k + 1 + j - k = j + 1 := by omega
  have short := dividing.short
  rw [width] at short
  have halves : 2 * (q / 2) + q % 2 = q := Nat.div_add_mod q 2
  -- The top bit is shifted out.
  have parts : n.toNat % 2 ^ (k + 1) = 2 ^ k * (n.toNat / 2 ^ k % 2) + n.toNat % 2 ^ k := by
    rw [pow_succ, Nat.mod_mul, Nat.add_comm]
  have below : n.toNat % 2 ^ k * 2 ^ (j + 1) + q < 2 ^ (k + 1 + j) := by
    have rest := Nat.mod_lt n.toNat (Nat.two_pow_pos k)
    calc n.toNat % 2 ^ k * 2 ^ (j + 1) + q < n.toNat % 2 ^ k * 2 ^ (j + 1) + 2 ^ (j + 1) := by
          rw [pow_succ]
          omega
      _ = (n.toNat % 2 ^ k + 1) * 2 ^ (j + 1) := by ring
      _ ≤ 2 ^ k * 2 ^ (j + 1) := Nat.mul_le_mul_right _ rest
      _ = 2 ^ (k + 1 + j) := by rw [← pow_add]; congr 1; omega
  have whole : 2 * (n.toNat % 2 ^ (k + 1) * 2 ^ j + q / 2) + q % 2 =
      2 ^ (k + 1 + j) * (n.toNat / 2 ^ k % 2) + (n.toNat % 2 ^ k * 2 ^ (j + 1) + q) := by
    rw [parts]
    conv_rhs => rw [← halves]
    rw [pow_add, pow_succ, pow_succ]
    ring
  rw [toNat_shl_or bit, dividing.register, dividing.newest, width, wider, whole, Nat.mul_add_mod,
    Nat.mod_eq_of_lt below]

/-- The remainder with the next bit of the dividend. -/
theorem shifted (dividing : Dividing n.toNat d.toNat (k + 1) r a carry q) (inside : k + 1 ≤ w)
    (near : d.toNat < 2 ^ (w - 1) ∨ k = 0) :
    (r <<< 1 ||| a >>> (w - 1)).toNat = Scanned.shifted n.toNat k r.toNat := by
  have top := dividing.top inside
  have small := dividing.scanned.shifted_lt
  rw [toNat_shl_or (by rw [top]; omega), top, ← Scanned.shifted, Nat.mod_eq_of_lt]
  rcases near with low | rfl
  · obtain ⟨v, rfl⟩ : ∃ v, w = v + 1 := ⟨w - 1, by omega⟩
    rw [Nat.add_sub_cancel] at low
    rw [pow_succ]
    omega
  · -- The last prefix is the dividend itself.
    have sum := dividing.scanned.sum
    have bound := n.isLt
    have whole := Nat.div_add_mod n.toNat 2
    rw [Scanned.shifted]
    simp only [pow_zero, Nat.div_one, pow_one, Nat.zero_add] at *
    have le : r.toNat ≤ n.toNat / 2 := by
      rw [sum]
      exact Nat.le_add_left _ _
    omega

/-- One turn: a conditional subtraction, the mask `d - r - 1 < 0` taken for the condition. -/
theorem step (dividing : Dividing n.toNat d.toNat (k + 1) r a carry q) (inside : k + 1 ≤ w)
    (near : d.toNat < 2 ^ (w - 1) ∨ k = 0 ∧ 2 ^ (w - 1) ≤ n.toNat) :
    let moved := r <<< 1 ||| a >>> (w - 1)
    let mask := (d - moved - 1#w).sshiftRight (w - 1)
    ∃ q', Dividing n.toNat d.toNat k (moved - (d &&& mask)) (a <<< 1 ||| carry) (mask &&& 1#w) q' := by
  intro moved mask
  have wide : 0 < w := by omega
  have value : moved.toNat = Scanned.shifted n.toNat k r.toNat :=
    dividing.shifted inside (near.imp_right fun both => both.1)
  have small := dividing.scanned.shifted_lt
  have apart : d.toNat < 2 ^ (w - 1) ∧ moved.toNat < 2 * d.toNat ∨
      2 ^ (w - 1) ≤ d.toNat ∧ 2 ^ (w - 1) ≤ moved.toNat := by
    rw [value]
    by_cases low : d.toNat < 2 ^ (w - 1)
    · exact .inl ⟨low, small⟩
    · obtain ⟨rfl, high⟩ := near.resolve_left low
      refine .inr ⟨Nat.not_lt.mp low, ?_⟩
      rwa [dividing.scanned.shifted_whole]
      exact Nat.lt_of_lt_of_le (by rw [← pow_succ']; simpa [Nat.sub_add_cancel wide] using n.isLt)
        (Nat.mul_le_mul_left 2 (Nat.not_lt.mp low))
  have compares : mask = if d.toNat ≤ moved.toNat then BitVec.allOnes w else 0#w := by
    show (d - moved - 1#w).sshiftRight (w - 1) = _
    rw [sign_mask wide, msb_difference apart]
    simp only [decide_eq_true_eq]
  have register := dividing.moved inside
  have room : 2 ^ (w - k) = 2 * 2 ^ (w - (k + 1)) := by
    rw [← pow_succ']
    congr 1
    omega
  have short := dividing.short
  have settled := dividing.scanned.shift
  rw [← value] at settled
  by_cases fits : d.toNat ≤ moved.toNat
  · rw [if_pos fits] at settled compares
    refine ⟨2 * q + 1, ?_, ?_, ?_, by omega⟩
    · rw [compares, BitVec.and_allOnes, BitVec.toNat_sub_of_le (BitVec.le_def.mpr fits)]
      exact settled
    · rw [register]
      omega
    · rw [compares, BitVec.allOnes_and]
      simp
      omega
  · rw [if_neg fits] at settled compares
    refine ⟨2 * q, ?_, ?_, ?_, by omega⟩
    · rw [compares, BitVec.and_zero, BitVec.sub_zero]
      exact settled
    · rw [register]
      omega
    · rw [compares, BitVec.zero_and]
      simp

theorem done (dividing : Dividing n.toNat d.toNat 0 r a carry q) :
    a <<< 1 ||| carry = n / d ∧ r = n % d := by
  obtain ⟨quotient, rest⟩ := dividing.scanned.done
  constructor
  · have bit : carry.toNat ≤ 1 := by
      have small := Nat.mod_lt q (by decide : 0 < 2)
      rw [dividing.newest]
      omega
    apply BitVec.eq_of_toNat_eq
    have small : q < 2 ^ w := dividing.short
    rw [toNat_shl_or bit, dividing.register, dividing.newest, pow_zero, Nat.mod_one, Nat.zero_mul,
      Nat.zero_add, Nat.div_add_mod, Nat.mod_eq_of_lt small, BitVec.toNat_udiv, quotient]
  · apply BitVec.eq_of_toNat_eq
    rw [BitVec.toNat_umod, rest]

end Dividing

end NpcMachine.Machine
