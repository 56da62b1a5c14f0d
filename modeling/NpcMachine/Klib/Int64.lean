/-
# Klib.Int64 -- the bit counts of `int64.c`

Leading and trailing zeros by halves, for cores without instructions for them.  A `dwords`
or `udwords` is a double word that is read and written by its words, the low one first.

* `Counting`: a halving passes over half of the bits in view when they are zeros;
* `zeros_counted`: `__clzsi2`, `__ctzsi2`, `__clzdi2` and `__ctzdi2` of a number that has a
  bit set.
-/
import NpcMachine.Machine.CountZeros

namespace NpcMachine.Klib

open NpcMachine.Machine

set_option autoImplicit false

abbrev SuInt : Type := BitVec 32
abbrev DuInt : Type := BitVec 64

structure Udwords where
  high : SuInt
  low : SuInt
  deriving DecidableEq, Repr

namespace Udwords

def all (x : Udwords) : DuInt := x.high ++ x.low

def ofAll (v : DuInt) : Udwords where
  high := v.extractLsb' 32 32
  low := v.extractLsb' 0 32

@[simp] theorem all_ofAll (v : DuInt) : (ofAll v).all = v := by
  apply BitVec.eq_of_getLsbD_eq
  intro i small
  simp only [all, ofAll, BitVec.getLsbD_append, BitVec.getLsbD_extractLsb']
  grind

@[simp] theorem ofAll_all (x : Udwords) : ofAll x.all = x := by
  have high : x.all.extractLsb' 32 32 = x.high := BitVec.extractLsb'_append_eq_left
  have low : x.all.extractLsb' 0 32 = x.low := BitVec.extractLsb'_append_eq_right
  rw [ofAll, high, low]

@[simp] theorem all_toNat (x : Udwords) : x.all.toNat = x.high.toNat * 2 ^ 32 + x.low.toNat :=
  toNat_pair x.high x.low

theorem all_eq_zero {x : Udwords} : x.all = 0#64 ↔ x.high = 0#32 ∧ x.low = 0#32 := by
  simp only [← BitVec.toNat_inj, all_toNat, BitVec.toNat_ofNat, Nat.zero_mod]
  omega

end Udwords

/-! ## Counting zeros -/

/-- `x` and `r` of `__clzsi2` and `__ctzsi2`. -/
structure Counting where
  x : SuInt
  r : SuInt
  deriving DecidableEq, Repr

/-- `t = ((x & mask) == 0) << sh`. -/
def halfOf (x mask : SuInt) (sh : Nat) : SuInt := (if x &&& mask = 0#32 then 1#32 else 0#32) <<< sh

/-- A halving of `__clzsi2`. -/
def clzHalf (mask : SuInt) (sh : Nat) (width : SuInt) (c : Counting) : Counting :=
  let t := halfOf c.x mask sh
  { x := c.x >>> (width - t), r := c.r + t }

/-- A halving of `__ctzsi2`. -/
def ctzHalf (mask : SuInt) (sh : Nat) (c : Counting) : Counting :=
  let t := halfOf c.x mask sh
  { x := c.x >>> t, r := c.r + t }

def clzsi2 (a : SuInt) : SuInt :=
  let c := clzHalf 0xFFFF0000#32 4 16#32 { x := a, r := 0#32 }
  let c := clzHalf 0xFF00#32 3 8#32 c
  let c := clzHalf 0xF0#32 2 4#32 c
  let c := clzHalf 0xC#32 1 2#32 c
  c.r + ((2#32 - c.x) &&& -(if c.x &&& 2#32 = 0#32 then 1#32 else 0#32))

def ctzsi2 (a : SuInt) : SuInt :=
  let c := ctzHalf 0xFFFF#32 4 { x := a, r := 0#32 }
  let c := ctzHalf 0xFF#32 3 c
  let c := ctzHalf 0xF#32 2 c
  let c := ctzHalf 0x3#32 1 c
  let x := c.x &&& 3#32
  c.r + ((2#32 - x >>> 1) &&& -(if x &&& 1#32 = 0#32 then 1#32 else 0#32))

def ctzdi2 (a : DuInt) : SuInt :=
  let x := Udwords.ofAll a
  let f := -(if x.low = 0#32 then 1#32 else 0#32)
  ctzsi2 (x.high &&& f ||| x.low &&& ~~~f) + (f &&& 32#32)

def clzdi2 (a : DuInt) : SuInt :=
  let x := Udwords.ofAll a
  let f := -(if x.high = 0#32 then 1#32 else 0#32)
  clzsi2 (x.high &&& ~~~f ||| x.low &&& f) + (f &&& 32#32)

theorem halfOf_eq {x mask : SuInt} {sh k : Nat} (one : 1#32 <<< sh = BitVec.ofNat 32 k) :
    halfOf x mask sh = if x &&& mask = 0#32 then BitVec.ofNat 32 k else 0#32 := by
  unfold halfOf
  split_ifs
  · exact one
  · simp

theorem clzHalf_leading {a : SuInt} {c : Counting} (mask : SuInt) (sh k : Nat)
    (small : k ≤ 16) (masks : mask.toNat = 2 ^ k * (2 ^ k - 1))
    (one : 1#32 <<< sh = BitVec.ofNat 32 k) (leading : Leading a (k + k) c.x c.r.toNat) :
    Leading a k (clzHalf mask sh (BitVec.ofNat 32 k) c).x
      (clzHalf mask sh (BitVec.ofNat 32 k) c).r.toNat := by
  have inside := leading.inside
  have width : (BitVec.ofNat 32 k).toNat = k := by
    rw [BitVec.toNat_ofNat]
    exact Nat.mod_eq_of_lt (by omega)
  have halves := leading.halve
  simp only [clzHalf, halfOf_eq one, upper_clear masks leading.below]
  split_ifs at halves ⊢ with clear
  · rw [BitVec.sub_self, BitVec.toNat_add, width, Nat.mod_eq_of_lt (by omega)]
    simpa using halves
  · rw [BitVec.sub_zero, BitVec.add_zero, BitVec.ushiftRight_eq', width]
    exact halves

theorem ctzHalf_trailing {a : SuInt} {c : Counting} (mask : SuInt) (sh k : Nat)
    (small : k ≤ 16) (masks : mask.toNat = 2 ^ k - 1) (one : 1#32 <<< sh = BitVec.ofNat 32 k)
    (trailing : Trailing a (k + k) c.x c.r.toNat) :
    Trailing a k (ctzHalf mask sh c).x (ctzHalf mask sh c).r.toNat := by
  have inside := trailing.inside
  have width : (BitVec.ofNat 32 k).toNat = k := by
    rw [BitVec.toNat_ofNat]
    exact Nat.mod_eq_of_lt (by omega)
  have halves := trailing.halve
  simp only [ctzHalf, halfOf_eq one, lower_clear masks]
  split_ifs at halves ⊢ with clear
  · rw [BitVec.toNat_add, width, BitVec.ushiftRight_eq', width, Nat.mod_eq_of_lt (by omega)]
    exact halves
  · simpa using halves

theorem last_leading {a : SuInt} {c : Counting} (leading : Leading a 2 c.x c.r.toNat) :
    c.r + ((2#32 - c.x) &&& -(if c.x &&& 2#32 = 0#32 then 1#32 else 0#32)) = a.clz := by
  have inside := leading.inside
  have below := leading.below
  have nonzero := leading.nonzero
  have halves := leading.halve (k := 1)
  simp only [upper_clear (k := 1) (m := 2#32) rfl below]
  split_ifs at halves ⊢ with clear
  · have single : c.x = 1#32 := BitVec.eq_of_toNat_eq (by simp; omega)
    apply BitVec.eq_of_toNat_eq
    rw [halves.done, single, BitVec.toNat_add, Nat.mod_eq_of_lt]
    · simp
    · simp
      omega
  · apply BitVec.eq_of_toNat_eq
    rw [halves.done]
    simp

theorem clzsi2_counts {a : SuInt} (some : a ≠ 0#32) : clzsi2 a = a.clz := by
  have first := clzHalf_leading (c := { x := a, r := 0#32 }) 0xFFFF0000#32 4 16 (by decide)
    (by decide) (by decide) (Leading.start some)
  have second := clzHalf_leading 0xFF00#32 3 8 (by decide) (by decide) (by decide) first
  have third := clzHalf_leading 0xF0#32 2 4 (by decide) (by decide) (by decide) second
  have fourth := clzHalf_leading 0xC#32 1 2 (by decide) (by decide) (by decide) third
  unfold clzsi2
  exact last_leading fourth

theorem last_trailing {a : SuInt} {c : Counting} (trailing : Trailing a 2 c.x c.r.toNat) :
    c.r + ((2#32 - (c.x &&& 3#32) >>> 1) &&&
      -(if c.x &&& 3#32 &&& 1#32 = 0#32 then 1#32 else 0#32)) = a.ctz := by
  have inside := trailing.inside
  have nonzero := trailing.nonzero
  have halves := trailing.halve (k := 1)
  have low : c.x &&& 3#32 &&& 1#32 = c.x &&& 1#32 := by
    rw [BitVec.and_assoc]
    rfl
  have rest : (c.x &&& 3#32).toNat = c.x.toNat % 4 := by
    rw [BitVec.toNat_and]
    exact Nat.and_two_pow_sub_one_eq_mod _ 2
  rw [low]
  simp only [lower_clear (k := 1) (m := 1#32) rfl]
  split_ifs at halves ⊢ with clear
  · have double : c.x &&& 3#32 = 2#32 := BitVec.eq_of_toNat_eq (by rw [rest]; simp; omega)
    apply BitVec.eq_of_toNat_eq
    rw [halves.done, double, BitVec.toNat_add, Nat.mod_eq_of_lt]
    · rfl
    · simp
      omega
  · apply BitVec.eq_of_toNat_eq
    rw [halves.done]
    simp

theorem ctzsi2_counts {a : SuInt} (some : a ≠ 0#32) : ctzsi2 a = a.ctz := by
  have first := ctzHalf_trailing (c := { x := a, r := 0#32 }) 0xFFFF#32 4 16 (by decide)
    (by decide) (by decide) (Trailing.start some)
  have second := ctzHalf_trailing 0xFF#32 3 8 (by decide) (by decide) (by decide) first
  have third := ctzHalf_trailing 0xF#32 2 4 (by decide) (by decide) (by decide) second
  have fourth := ctzHalf_trailing 0x3#32 1 2 (by decide) (by decide) (by decide) third
  unfold ctzsi2
  exact last_trailing fourth

/-- `x` where the comparison holds and nothing elsewhere. -/
theorem mask_true (p : Prop) [Decidable p] (x : SuInt) :
    x &&& -(if p then 1#32 else 0#32) = if p then x else 0#32 := by
  have ones : -1#32 = BitVec.allOnes 32 := by decide
  split_ifs
  · rw [ones, BitVec.and_allOnes]
  · simp

theorem mask_false (p : Prop) [Decidable p] (x : SuInt) :
    x &&& ~~~(-(if p then 1#32 else 0#32)) = if p then 0#32 else x := by
  have none : ~~~(-1#32) = 0#32 := by decide
  have ones : ~~~(-0#32) = BitVec.allOnes 32 := by decide
  split_ifs
  · rw [none, BitVec.and_zero]
  · rw [ones, BitVec.and_allOnes]

theorem clzdi2_counts {a : DuInt} (some : a ≠ 0#64) : (clzdi2 a).toNat = a.clz.toNat := by
  obtain ⟨⟨high, low⟩, words⟩ : ∃ x : Udwords, x = Udwords.ofAll a := ⟨_, rfl⟩
  have whole : a = high ++ low := by
    rw [← Udwords.all_ofAll a, ← words, Udwords.all]
  unfold clzdi2
  rw [← words]
  simp only [mask_true, mask_false, BitVec.and_comm _ 32#32]
  by_cases small : high = 0#32
  · have nonzero : low ≠ 0#32 := by
      rintro rfl
      exact some (by rw [whole, small]; rfl)
    have less := clz_lt nonzero
    rw [whole, small, clz_low nonzero, if_pos rfl, if_pos rfl, if_pos rfl, BitVec.zero_or,
      clzsi2_counts nonzero, BitVec.toNat_add, Nat.mod_eq_of_lt, Nat.add_comm]
    · rfl
    · simp
      omega
  · rw [whole, clz_pair low small, if_neg small, if_neg small, if_neg small, BitVec.or_zero,
      BitVec.add_zero, clzsi2_counts small]

theorem ctzdi2_counts {a : DuInt} (some : a ≠ 0#64) : (ctzdi2 a).toNat = a.ctz.toNat := by
  obtain ⟨⟨high, low⟩, words⟩ : ∃ x : Udwords, x = Udwords.ofAll a := ⟨_, rfl⟩
  have whole : a = high ++ low := by
    rw [← Udwords.all_ofAll a, ← words, Udwords.all]
  unfold ctzdi2
  rw [← words]
  simp only [mask_true, mask_false, BitVec.and_comm _ 32#32]
  by_cases small : low = 0#32
  · have nonzero : high ≠ 0#32 := by
      rintro rfl
      exact some (by rw [whole, small]; rfl)
    have less := BitVec.lt_of_getLsbD (BitVec.getLsbD_true_ctz_of_ne_zero nonzero)
    rw [whole, small, ctz_high nonzero, if_pos rfl, if_pos rfl, if_pos rfl, BitVec.or_zero,
      ctzsi2_counts nonzero, BitVec.toNat_add, Nat.mod_eq_of_lt, Nat.add_comm]
    · rfl
    · simp
      omega
  · rw [whole, ctz_pair high small, if_neg small, if_neg small, if_neg small, BitVec.zero_or,
      BitVec.add_zero, ctzsi2_counts small]

/-- The counts of numbers that have a bit set. -/
theorem zeros_counted {x : SuInt} {a : DuInt} (word : x ≠ 0#32) (double : a ≠ 0#64) :
    clzsi2 x = x.clz ∧ ctzsi2 x = x.ctz ∧
      (clzdi2 a).toNat = a.clz.toNat ∧ (ctzdi2 a).toNat = a.ctz.toNat :=
  ⟨clzsi2_counts word, ctzsi2_counts word, clzdi2_counts double, ctzdi2_counts double⟩

theorem zeros_counted_middle :
    clzsi2 0x00280000#32 = (0x00280000#32).clz ∧ ctzsi2 0x00280000#32 = (0x00280000#32).ctz ∧
      (clzdi2 0x600000000#64).toNat = (0x600000000#64).clz.toNat ∧
      (ctzdi2 0x600000000#64).toNat = (0x600000000#64).ctz.toNat :=
  zeros_counted (by decide) (by decide)

end NpcMachine.Klib
