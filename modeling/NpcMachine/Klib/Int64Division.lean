/-
# Klib.Int64Division -- the divisions of `int64.c`

`__udivXi3` and `__umodXi3` run one loop on double words, `__udivmoddi4` runs it on the
words; the signed operations call `__udivmoddi4`.  Signed numbers are two's complement, as
the file assumes.

* `DivLoop.run_divides`: the loop divides; `WordLoop.run_whole`: on words it is the same loop;
* `unsigned_divide`: `__udivmoddi4` with every shortcut, `__udivdi3` and `__umoddi3`;
* `udivmoddi4_eq`: undefined just for a divisor of zero;
* `signed_divide`: `__divdi3`, `__moddi3` and `__divmoddi4`.
-/
import NpcMachine.Klib.Int64
import NpcMachine.Machine.LongDivision
import Mathlib.Data.BitVec

namespace NpcMachine.Klib

open NpcMachine.Machine

set_option autoImplicit false

/-! ## On double words -/

/-- `d ? __builtin_clzll(d) : N`. -/
def leadingZeros (d : DuInt) : SuInt := if d ≠ 0#64 then d.clz.setWidth 32 else 64#32

/-- The variables of the loop of `__udivXi3` and `__umodXi3`. -/
structure DivLoop where
  r : DuInt
  n : DuInt
  carry : DuInt
  deriving DecidableEq, Repr

namespace DivLoop

/-- The body of the loop; `s` is all ones when `d - r - 1` is negative. -/
def body (d : DuInt) (l : DivLoop) : DivLoop :=
  let r := l.r <<< 1 ||| l.n >>> 63
  let n := l.n <<< 1 ||| l.carry
  let s := (d - r - 1#64).sshiftRight 63
  { r := r - (d &&& s), n := n, carry := s &&& 1#64 }

/-- `for (; sr > 0; --sr)`. -/
def run (d : DuInt) : Nat → DivLoop → DivLoop
  | 0, l => l
  | sr + 1, l => run d sr (l.body d)

/-- The registers before the loop. -/
def start (n : DuInt) (sr : SuInt) : DivLoop where
  r := n >>> sr
  n := n <<< (64#32 - sr)
  carry := 0#64

end DivLoop

def udivXi3 (n d : DuInt) : DuInt :=
  let sr := leadingZeros d - leadingZeros n
  if sr > 63#32 then 0#64
  else if sr = 63#32 then n
  else
    let sr := sr + 1#32
    let l := (DivLoop.start n sr).run d sr.toNat
    l.n <<< 1 ||| l.carry

def umodXi3 (n d : DuInt) : DuInt :=
  let sr := leadingZeros d - leadingZeros n
  if sr > 63#32 then n
  else if sr = 63#32 then 0#64
  else
    let sr := sr + 1#32
    let l := (DivLoop.start n sr).run d sr.toNat
    l.r

def udivdi3 (a b : DuInt) : DuInt := udivXi3 a b
def umoddi3 (a b : DuInt) : DuInt := umodXi3 a b

namespace DivLoop

variable {n d : DuInt} {k : Nat} {l : DivLoop} {q : Nat}

theorem run_divides (dividing : Dividing n.toNat d.toNat k l.r l.n l.carry q) (inside : k ≤ 64)
    (near : d.toNat < 2 ^ 63 ∨ k ≤ 1 ∧ 2 ^ 63 ≤ n.toNat) :
    (l.run d k).n <<< 1 ||| (l.run d k).carry = n / d ∧ (l.run d k).r = n % d := by
  induction k generalizing l q with
  | zero => exact dividing.done
  | succ k ih =>
      obtain ⟨q', next⟩ := dividing.step inside
        (near.imp_right fun both => ⟨Nat.le_zero.mp (Nat.le_of_succ_le_succ both.1), both.2⟩)
      exact ih (l := l.body d) next (Nat.le_of_succ_le inside)
        (near.imp_right fun both => ⟨Nat.le_of_succ_le both.1, both.2⟩)

/-- The loop divides when it makes one turn more than the divisor is shorter than the dividend. -/
theorem start_divides (nonzero : d ≠ 0#64) (le : n.clz.toNat ≤ d.clz.toNat) {sr : SuInt}
    (turns : sr.toNat = d.clz.toNat - n.clz.toNat + 1) :
    ((start n sr).run d sr.toNat).n <<< 1 ||| ((start n sr).run d sr.toNat).carry = n / d ∧
      ((start n sr).run d sr.toNat).r = n % d := by
  have less := clz_lt nonzero
  have inside : sr.toNat ≤ 64 := by omega
  have rest : (64#32 - sr).toNat = 64 - sr.toNat := by
    rw [BitVec.toNat_sub_of_le (BitVec.le_def.mpr inside)]
    rfl
  have dividing : Dividing n.toNat d.toNat sr.toNat (start n sr).r (start n sr).n
      (start n sr).carry 0 := by
    simp only [start, BitVec.ushiftRight_eq', BitVec.shiftLeft_eq', rest]
    apply Dividing.start inside
    rw [turns]
    exact prefix_lt nonzero le
  apply run_divides dividing inside
  by_cases low : d.toNat < 2 ^ 63
  · exact .inl low
  · -- A divisor with its top bit set takes one turn, and the dividend has that bit too.
    have above := (Nat.pow_lt_pow_iff_right (by decide)).mp
      ((Nat.not_lt.mp low).trans_lt (lt_of_clz d))
    have first : n.clz.toNat = 0 := by omega
    have top : n ≠ 0#64 := by
      rintro rfl
      simp at first
    have big := le_of_clz top
    rw [first] at big
    exact .inr ⟨by omega, big⟩

end DivLoop

theorem leadingZeros_eq (d : DuInt) : (leadingZeros d).toNat = d.clz.toNat := by
  unfold leadingZeros
  split_ifs with nonzero
  · have less := clz_lt nonzero
    rw [BitVec.toNat_setWidth]
    exact Nat.mod_eq_of_lt (by omega)
  · rw [not_not.mp nonzero]
    decide

/-- The difference of two counts, and a number above every count when it is negative. -/
theorem sub_counts {x y : SuInt} (xSmall : x.toNat ≤ 64) (ySmall : y.toNat ≤ 64) :
    (x - y).toNat = if y.toNat ≤ x.toNat then x.toNat - y.toNat else 2 ^ 32 + x.toNat - y.toNat := by
  split_ifs with le
  · exact BitVec.toNat_sub_of_le (BitVec.le_def.mpr le)
  · rw [BitVec.toNat_sub, Nat.mod_eq_of_lt (by omega)]
    omega

/-- The number of turns and what it says of dividend and divisor. -/
theorem turns_cases {n d : DuInt} (nonzero : d ≠ 0#64) :
    63#32 < leadingZeros d - leadingZeros n ∧ n.toNat < d.toNat ∨
    leadingZeros d - leadingZeros n = 63#32 ∧ d = 1#64 ∨
    ¬ 63#32 < leadingZeros d - leadingZeros n ∧ leadingZeros d - leadingZeros n ≠ 63#32 ∧
      n.clz.toNat ≤ d.clz.toNat ∧
      (leadingZeros d - leadingZeros n + 1#32).toNat = d.clz.toNat - n.clz.toNat + 1 := by
  have less := clz_lt nonzero
  have atMost : n.clz.toNat ≤ 64 := BitVec.le_def.mp BitVec.clz_le
  have difference := sub_counts (x := leadingZeros d) (y := leadingZeros n)
    (by rw [leadingZeros_eq]; omega) (by rw [leadingZeros_eq]; exact atMost)
  rw [leadingZeros_eq, leadingZeros_eq] at difference
  split_ifs at difference with le
  · by_cases all : d.clz.toNat - n.clz.toNat = 63
    · refine .inr (.inl ⟨BitVec.eq_of_toNat_eq (by rw [difference, all]; rfl), ?_⟩)
      have small := lt_of_clz d
      rw [show 64 - d.clz.toNat = 1 by omega] at small
      have positive : d.toNat ≠ 0 := fun zero => nonzero (BitVec.eq_of_toNat_eq zero)
      exact BitVec.eq_of_toNat_eq (by simp; omega)
    · refine .inr (.inr ⟨?_, ?_, le, ?_⟩)
      · rw [BitVec.lt_def, difference]
        simp
        omega
      · intro same
        rw [same] at difference
        exact all difference.symm
      · rw [BitVec.toNat_add, difference]
        simp
        omega
  · refine .inl ⟨?_, lt_of_clz_lt nonzero (Nat.not_le.mp le)⟩
    rw [BitVec.lt_def, difference]
    simp
    omega

theorem div_of_lt {n d : DuInt} (less : n.toNat < d.toNat) : n / d = 0#64 :=
  BitVec.eq_of_toNat_eq (by rw [BitVec.toNat_udiv, Nat.div_eq_of_lt less]; rfl)

theorem mod_of_lt {n d : DuInt} (less : n.toNat < d.toNat) : n % d = n :=
  BitVec.eq_of_toNat_eq (by rw [BitVec.toNat_umod, Nat.mod_eq_of_lt less])

theorem udivXi3_divides {d : DuInt} (n : DuInt) (nonzero : d ≠ 0#64) : udivXi3 n d = n / d := by
  unfold udivXi3
  rcases turns_cases (n := n) nonzero with ⟨over_, less⟩ | ⟨all, rfl⟩ | ⟨inside, few, le, turns⟩
  · rw [if_pos over_, div_of_lt less]
  · rw [all, BitVec.udiv_one]
    rfl
  · rw [if_neg inside, if_neg few]
    exact (DivLoop.start_divides nonzero le turns).1

theorem umodXi3_divides {d : DuInt} (n : DuInt) (nonzero : d ≠ 0#64) : umodXi3 n d = n % d := by
  unfold umodXi3
  rcases turns_cases (n := n) nonzero with ⟨over_, less⟩ | ⟨all, rfl⟩ | ⟨inside, few, le, turns⟩
  · rw [if_pos over_, mod_of_lt less]
  · rw [all, BitVec.umod_one]
    rfl
  · rw [if_neg inside, if_neg few]
    exact (DivLoop.start_divides nonzero le turns).2

/-! ## On words -/

/-- The variables of the loop of `__udivmoddi4`. -/
structure WordLoop where
  r : Udwords
  q : Udwords
  carry : SuInt
  deriving DecidableEq, Repr

namespace WordLoop

/-- The body of the loop: `r:q` moves by a bit, word by word. -/
def body (d : Udwords) (l : WordLoop) : WordLoop :=
  let r : Udwords :=
    { high := l.r.high <<< 1 ||| l.r.low >>> 31
      low := l.r.low <<< 1 ||| l.q.high >>> 31 }
  let q : Udwords :=
    { high := l.q.high <<< 1 ||| l.q.low >>> 31
      low := l.q.low <<< 1 ||| l.carry }
  let s := (d.all - r.all - 1#64).sshiftRight 63
  { r := .ofAll (r.all - (d.all &&& s))
    q := q
    carry := (s &&& 1#64).setWidth 32 }

/-- `for (; sr > 0; --sr)`. -/
def run (d : Udwords) : Nat → WordLoop → WordLoop
  | 0, l => l
  | sr + 1, l => run d sr (l.body d)

/-- The loop and what follows it: the quotient and `*rem`. -/
def divide (d : Udwords) (sr : SuInt) (l : WordLoop) : DuInt × DuInt :=
  let l := l.run d sr.toNat
  (l.q.all <<< 1 ||| l.carry.setWidth 64, l.r.all)

/-- `q` and `r` for `1 <= sr <= n_uword_bits - 1`. -/
def startBelow (n : Udwords) (sr : SuInt) : WordLoop where
  q := { high := n.low <<< (32#32 - sr), low := 0#32 }
  r := { high := n.high >>> sr, low := n.high <<< (32#32 - sr) ||| n.low >>> sr }
  carry := 0#32

/-- `q` and `r` for `sr == n_uword_bits`. -/
def startAt (n : Udwords) : WordLoop where
  q := { high := n.low, low := 0#32 }
  r := { high := 0#32, low := n.high }
  carry := 0#32

/-- `q` and `r` for `n_uword_bits + 1 <= sr <= n_udword_bits - 1`. -/
def startAbove (n : Udwords) (sr : SuInt) : WordLoop where
  q :=
    { high := n.high <<< (64#32 - sr) ||| n.low >>> (sr - 32#32)
      low := n.low <<< (64#32 - sr) }
  r := { high := 0#32, low := n.high >>> (sr - 32#32) }
  carry := 0#32

/-- The registers as double words. -/
def whole (l : WordLoop) : DivLoop where
  r := l.r.all
  n := l.q.all
  carry := l.carry.setWidth 64

end WordLoop

/-- `n / d` and `n % d` of words, undefined for a divisor of zero. -/
def divmod (n d : SuInt) : Option (SuInt × SuInt) := if d = 0#32 then none else some (n / d, n % d)

/-- The quotient and `*rem`. -/
def udivmoddi4 (a b : DuInt) : Option (DuInt × DuInt) :=
  let n := Udwords.ofAll a
  let d := Udwords.ofAll b
  if n.high = 0#32 then
    if d.high = 0#32 then
      (divmod n.low d.low).map fun (q, r) => (q.setWidth 64, r.setWidth 64)
    else some (0#64, n.low.setWidth 64)
  else if d.low = 0#32 then
    if d.high = 0#32 then
      (divmod n.high d.low).map fun (q, r) => (q.setWidth 64, r.setWidth 64)
    else if n.low = 0#32 then
      (divmod n.high d.high).map fun (q, r) =>
        (q.setWidth 64, Udwords.all { high := r, low := 0#32 })
    else if d.high &&& (d.high - 1#32) = 0#32 then
      some ((n.high >>> d.high.ctz).setWidth 64,
        Udwords.all { high := n.high &&& (d.high - 1#32), low := n.low })
    else
      let sr := d.high.clz - n.high.clz
      if sr > 30#32 then some (0#64, n.all)
      else
        let sr := sr + 1#32
        some ((WordLoop.startBelow n sr).divide d sr)
  else if d.high = 0#32 then
    if d.low &&& (d.low - 1#32) = 0#32 then
      let rem := (n.low &&& (d.low - 1#32)).setWidth 64
      if d.low = 1#32 then some (n.all, rem)
      else
        let sr := d.low.ctz
        let q : Udwords :=
          { high := n.high >>> sr, low := n.high <<< (32#32 - sr) ||| n.low >>> sr }
        some (q.all, rem)
    else
      let sr := 1#32 + 32#32 + d.low.clz - n.high.clz
      if sr = 32#32 then some ((WordLoop.startAt n).divide d sr)
      else if sr < 32#32 then some ((WordLoop.startBelow n sr).divide d sr)
      else some ((WordLoop.startAbove n sr).divide d sr)
  else
    let sr := d.high.clz - n.high.clz
    if sr > 31#32 then some (0#64, n.all)
    else
      let sr := sr + 1#32
      if sr = 32#32 then some ((WordLoop.startAt n).divide d sr)
      else some ((WordLoop.startBelow n sr).divide d sr)

namespace WordLoop

/-- Two words that move by a bit, with the bit that comes in from below. -/
theorem shift_in (x : Udwords) (bit : SuInt) :
    x.all <<< 1 ||| bit.setWidth 64 =
      Udwords.all { high := x.high <<< 1 ||| x.low >>> 31, low := x.low <<< 1 ||| bit } := by
  have extended : bit.setWidth 64 = 0#32 ++ bit := BitVec.setWidth_eq_append (by decide)
  have moved := pair_shl x.high x.low (k := 1) (by decide)
  rw [Udwords.all, moved, extended, BitVec.or_append, BitVec.or_zero]
  rfl

/-- A turn on the words is a turn on the double words. -/
theorem body_whole (d : Udwords) (l : WordLoop) : (l.body d).whole = l.whole.body d.all := by
  have top : l.q.all >>> 63 = (l.q.high >>> 31).setWidth 64 := by
    rw [BitVec.setWidth_eq_append (by decide)]
    exact pair_shr_word l.q.high l.q.low (by decide)
  have bit (s : DuInt) : ((s &&& 1#64).setWidth 32).setWidth 64 = s &&& 1#64 := by
    apply BitVec.eq_of_toNat_eq
    have small : s.toNat % 2 < 2 := Nat.mod_lt _ (by decide)
    have value : (s &&& 1#64).toNat = s.toNat % 2 := by
      rw [BitVec.toNat_and]
      exact Nat.and_one_is_mod _
    rw [BitVec.toNat_setWidth, BitVec.toNat_setWidth, value]
    omega
  simp only [whole, body, DivLoop.body, Udwords.all_ofAll, bit, top, shift_in]

theorem run_whole (d : Udwords) (k : Nat) (l : WordLoop) :
    (l.run d k).whole = l.whole.run d.all k := by
  induction k generalizing l with
  | zero => rfl
  | succ k ih =>
      rw [run, ih, body_whole]
      rfl

theorem startBelow_whole {n : Udwords} {sr : SuInt} (some : 0 < sr.toNat) (less : sr.toNat < 32) :
    (startBelow n sr).whole = DivLoop.start n.all sr := by
  have rest : (32#32 - sr).toNat = 32 - sr.toNat := by
    rw [BitVec.toNat_sub_of_le (BitVec.le_def.mpr less.le)]
    rfl
  have far : (64#32 - sr).toNat = 64 - sr.toNat := by
    rw [BitVec.toNat_sub_of_le (BitVec.le_def.mpr (by simp; omega))]
    rfl
  have right := pair_shr n.high n.low less
  have left := pair_shl_word n.high n.low (k := 64 - sr.toNat) (by omega)
  rw [show 64 - sr.toNat - 32 = 32 - sr.toNat by omega] at left
  simp only [startBelow, whole, DivLoop.start, Udwords.all, BitVec.shiftLeft_eq', rest, far,
    BitVec.ushiftRight_eq']
  rw [right, left]
  rfl

theorem startAt_whole (n : Udwords) : (startAt n).whole = DivLoop.start n.all 32#32 := by
  have right := pair_shr_word n.high n.low (k := 32) (by decide)
  have left := pair_shl_word n.high n.low (k := 32) (by decide)
  simp only [startAt, whole, DivLoop.start, Udwords.all, BitVec.shiftLeft_eq',
    BitVec.ushiftRight_eq']
  simp only [Nat.sub_self, BitVec.ushiftRight_zero, BitVec.shiftLeft_zero] at right left
  rw [← right, ← left]
  rfl

theorem startAbove_whole {n : Udwords} {sr : SuInt} (more : 32 < sr.toNat) (less : sr.toNat < 64) :
    (startAbove n sr).whole = DivLoop.start n.all sr := by
  have over_ : (sr - 32#32).toNat = sr.toNat - 32 :=
    BitVec.toNat_sub_of_le (BitVec.le_def.mpr more.le)
  have rest : (64#32 - sr).toNat = 64 - sr.toNat := by
    rw [BitVec.toNat_sub_of_le (BitVec.le_def.mpr less.le)]
    rfl
  have right := pair_shr_word n.high n.low more.le
  have left := pair_shl n.high n.low (k := 64 - sr.toNat) (by omega)
  rw [show 32 - (64 - sr.toNat) = sr.toNat - 32 by omega] at left
  simp only [startAbove, whole, DivLoop.start, Udwords.all, BitVec.shiftLeft_eq', rest, over_,
    BitVec.ushiftRight_eq']
  rw [right, left]
  rfl

/-- The loop on words from the registers of the loop on double words. -/
theorem divide_eq {n d : Udwords} {sr : SuInt} {l : WordLoop} (nonzero : d.all ≠ 0#64)
    (le : n.all.clz.toNat ≤ d.all.clz.toNat)
    (turns : sr.toNat = d.all.clz.toNat - n.all.clz.toNat + 1)
    (start : l.whole = DivLoop.start n.all sr) :
    l.divide d sr = (n.all / d.all, n.all % d.all) := by
  obtain ⟨quotient, rest⟩ := DivLoop.start_divides nonzero le turns
  rw [← start, ← run_whole] at quotient rest
  exact Prod.ext quotient rest

end WordLoop

section Shortcuts

variable {n d : Udwords}

theorem divides_of_toNat {a b q r : DuInt} (quotient : q.toNat = a.toNat / b.toNat)
    (rest : r.toNat = a.toNat % b.toNat) : (q, r) = (a / b, a % b) :=
  Prod.ext (BitVec.eq_of_toNat_eq (by rw [BitVec.toNat_udiv, quotient]))
    (BitVec.eq_of_toNat_eq (by rw [BitVec.toNat_umod, rest]))

theorem toNat_extended (x : SuInt) : (x.setWidth 64).toNat = x.toNat := by
  rw [BitVec.toNat_setWidth]
  exact Nat.mod_eq_of_lt (x.isLt.trans (by decide))

/-- `0 X / 0 X`. -/
theorem low_words (nHigh : n.high = 0#32) (dHigh : d.high = 0#32) :
    ((n.low / d.low).setWidth 64, (n.low % d.low).setWidth 64) = (n.all / d.all, n.all % d.all) := by
  apply divides_of_toNat
  · rw [toNat_extended, Udwords.all_toNat, Udwords.all_toNat, nHigh, dHigh]
    simp
  · rw [toNat_extended, Udwords.all_toNat, Udwords.all_toNat, nHigh, dHigh]
    simp

/-- `K 0 / K 0`. -/
theorem high_words (nLow : n.low = 0#32) (dLow : d.low = 0#32) :
    ((n.high / d.high).setWidth 64, Udwords.all { high := n.high % d.high, low := 0#32 }) =
      (n.all / d.all, n.all % d.all) := by
  apply divides_of_toNat
  · rw [toNat_extended, BitVec.toNat_udiv, Udwords.all_toNat, Udwords.all_toNat, nLow, dLow,
      BitVec.toNat_ofNat, Nat.zero_mod, Nat.add_zero, Nat.add_zero,
      Nat.mul_div_mul_right _ _ (Nat.two_pow_pos 32)]
  · rw [Udwords.all_toNat, Udwords.all_toNat, Udwords.all_toNat, nLow, dLow, BitVec.toNat_umod,
      BitVec.toNat_ofNat, Nat.zero_mod, Nat.add_zero, Nat.add_zero, Nat.add_zero,
      Nat.mul_mod_mul_right]

/-- A mask of the bits below a single one takes the remainder. -/
theorem and_power {x y : SuInt} (nonzero : y ≠ 0#32) (power : y &&& (y - 1#32) = 0#32) :
    (x &&& (y - 1#32)).toNat = x.toNat % 2 ^ y.ctz.toNat := by
  have positive : y.toNat ≠ 0 := fun zero => nonzero (BitVec.eq_of_toNat_eq zero)
  rw [BitVec.toNat_and, BitVec.toNat_sub_of_le (BitVec.le_def.mpr (by simp; omega)),
    power_of_single nonzero power]
  exact Nat.and_two_pow_sub_one_eq_mod _ _

/-- `K K / K 0` for a power of two. -/
theorem high_power (dLow : d.low = 0#32) (nonzero : d.high ≠ 0#32)
    (power : d.high &&& (d.high - 1#32) = 0#32) :
    ((n.high >>> d.high.ctz).setWidth 64,
        Udwords.all { high := n.high &&& (d.high - 1#32), low := n.low }) =
      (n.all / d.all, n.all % d.all) := by
  have value := power_of_single nonzero power
  have small := n.low.isLt
  apply divides_of_toNat
  · rw [toNat_extended, BitVec.ushiftRight_eq', BitVec.toNat_ushiftRight, Nat.shiftRight_eq_div_pow,
      Udwords.all_toNat, Udwords.all_toNat, dLow, value, BitVec.toNat_ofNat, Nat.zero_mod,
      Nat.add_zero, Nat.mul_comm _ (2 ^ 32), Nat.mul_comm _ (2 ^ 32), ← Nat.div_div_eq_div_mul,
      Nat.mul_add_div (by decide), Nat.div_eq_of_lt small, Nat.add_zero]
  · rw [Udwords.all_toNat, and_power nonzero power, Udwords.all_toNat, Udwords.all_toNat, dLow,
      value, BitVec.toNat_ofNat, Nat.zero_mod, Nat.add_zero, Nat.mul_comm (2 ^ d.high.ctz.toNat),
      Nat.mod_mul, Nat.mul_comm n.high.toNat, Nat.mul_add_mod, Nat.mod_eq_of_lt small,
      Nat.mul_add_div (by decide), Nat.div_eq_of_lt small, Nat.add_zero]
    ring

/-- `K X / 0 K` for a power of two. -/
theorem low_power (dHigh : d.high = 0#32) (nonzero : d.low ≠ 0#32)
    (power : d.low &&& (d.low - 1#32) = 0#32) :
    (n.all >>> d.low.ctz.toNat, (n.low &&& (d.low - 1#32)).setWidth 64) =
      (n.all / d.all, n.all % d.all) := by
  have value := power_of_single nonzero power
  have inside : 2 ^ d.low.ctz.toNat ∣ 2 ^ 32 := by
    apply pow_dvd_pow
    exact (BitVec.lt_of_getLsbD (BitVec.getLsbD_true_ctz_of_ne_zero nonzero)).le
  have divisor : d.all.toNat = 2 ^ d.low.ctz.toNat := by
    rw [Udwords.all_toNat, dHigh, value]
    simp
  apply divides_of_toNat
  · rw [BitVec.toNat_ushiftRight, Nat.shiftRight_eq_div_pow, divisor]
  · rw [toNat_extended, and_power nonzero power, divisor, Udwords.all_toNat, Nat.add_mod,
      Nat.mod_eq_zero_of_dvd (Nat.dvd_mul_left_of_dvd inside _), Nat.zero_add, Nat.mod_mod]

end Shortcuts

section Turns

variable {n d : Udwords}

/-- Dividend and divisor with high words: the divisor is greater, or the loop is right. -/
theorem high_turns (nHigh : n.high ≠ 0#32) (dHigh : d.high ≠ 0#32) :
    31 < (d.high.clz - n.high.clz).toNat ∧ n.all.toNat < d.all.toNat ∨
    (d.high.clz - n.high.clz).toNat ≤ d.high.clz.toNat ∧ n.all.clz.toNat ≤ d.all.clz.toNat ∧
      (d.high.clz - n.high.clz + 1#32).toNat = d.all.clz.toNat - n.all.clz.toNat + 1 ∧
      (d.high.clz - n.high.clz + 1#32).toNat = (d.high.clz - n.high.clz).toNat + 1 := by
  have nCount : n.all.clz.toNat = n.high.clz.toNat := clz_pair n.low nHigh
  have dCount : d.all.clz.toNat = d.high.clz.toNat := clz_pair d.low dHigh
  have nLess := clz_lt nHigh
  have dLess := clz_lt dHigh
  have difference := sub_counts (x := d.high.clz) (y := n.high.clz) (by omega) (by omega)
  split_ifs at difference with le
  · have next : (d.high.clz - n.high.clz + 1#32).toNat = (d.high.clz - n.high.clz).toNat + 1 := by
      rw [BitVec.toNat_add]
      simp
      omega
    exact .inr ⟨by omega, by omega, by omega, next⟩
  · have nonzero : d.all ≠ 0#64 := fun zero => dHigh (Udwords.all_eq_zero.mp zero).1
    exact .inl ⟨by omega, lt_of_clz_lt nonzero (by omega)⟩

/-- A divisor of one word and more than one bit. -/
theorem low_turns (nHigh : n.high ≠ 0#32) (dHigh : d.high = 0#32)
    (many : d.low &&& (d.low - 1#32) ≠ 0#32) :
    n.all.clz.toNat ≤ d.all.clz.toNat ∧
      (1#32 + 32#32 + d.low.clz - n.high.clz).toNat = d.all.clz.toNat - n.all.clz.toNat + 1 ∧
      1 < (1#32 + 32#32 + d.low.clz - n.high.clz).toNat ∧
      (1#32 + 32#32 + d.low.clz - n.high.clz).toNat < 64 := by
  have nonzero : d.low ≠ 0#32 := by
    intro zero
    rw [zero] at many
    exact many BitVec.zero_and
  have nCount : n.all.clz.toNat = n.high.clz.toNat := clz_pair n.low nHigh
  have dCount : d.all.clz.toNat = 32 + d.low.clz.toNat := by
    rw [Udwords.all, dHigh]
    exact clz_low nonzero
  have nLess := clz_lt nHigh
  have dLess := clz_of_many many
  have sum : (1#32 + 32#32 + d.low.clz).toNat = 33 + d.low.clz.toNat := by
    rw [BitVec.toNat_add]
    simp
    omega
  have difference := sub_counts (x := 1#32 + 32#32 + d.low.clz) (y := n.high.clz) (by omega)
    (by omega)
  rw [if_pos (by omega)] at difference
  exact ⟨by omega, by omega, by omega, by omega⟩

end Turns

section Cases

variable {n d : Udwords}

/-- Divisors without a low word. -/
theorem udivmoddi4_high (nHigh : n.high ≠ 0#32) (dLow : d.low = 0#32) (dHigh : d.high ≠ 0#32) :
    udivmoddi4 n.all d.all = some (n.all / d.all, n.all % d.all) := by
  unfold udivmoddi4 divmod
  simp only [Udwords.ofAll_all]
  rw [if_neg nHigh, if_pos dLow, if_neg dHigh, if_neg dHigh]
  by_cases nLow : n.low = 0#32
  · rw [if_pos nLow]
    exact congrArg some (high_words nLow dLow)
  by_cases power : d.high &&& (d.high - 1#32) = 0#32
  · rw [if_neg nLow, if_pos power]
    exact congrArg some (high_power dLow dHigh power)
  · rw [if_neg nLow, if_neg power]
    have nonzero : d.all ≠ 0#64 := fun zero => dHigh (Udwords.all_eq_zero.mp zero).1
    have many := clz_of_many power
    rcases high_turns nHigh dHigh with ⟨over_, less⟩ | ⟨small, le, turns, next⟩
    · have far : d.high.clz - n.high.clz > 30#32 :=
        BitVec.lt_def.mpr (Nat.lt_trans (by decide) over_)
      rw [if_pos far, div_of_lt less, mod_of_lt less]
    · have few : (d.high.clz - n.high.clz).toNat ≤ 30 := by omega
      have near : ¬ d.high.clz - n.high.clz > 30#32 :=
        fun far => Nat.not_lt.mpr few (BitVec.lt_def.mp far)
      rw [if_neg near]
      exact congrArg some (WordLoop.divide_eq nonzero le turns
        (WordLoop.startBelow_whole (by omega) (by omega)))

/-- Divisors with two words. -/
theorem udivmoddi4_both (nHigh : n.high ≠ 0#32) (dLow : d.low ≠ 0#32) (dHigh : d.high ≠ 0#32) :
    udivmoddi4 n.all d.all = some (n.all / d.all, n.all % d.all) := by
  unfold udivmoddi4
  simp only [Udwords.ofAll_all]
  rw [if_neg nHigh, if_neg dLow, if_neg dHigh]
  have nonzero : d.all ≠ 0#64 := fun zero => dHigh (Udwords.all_eq_zero.mp zero).1
  rcases high_turns nHigh dHigh with ⟨over_, less⟩ | ⟨small, le, turns, next⟩
  · have far : d.high.clz - n.high.clz > 31#32 := BitVec.lt_def.mpr over_
    rw [if_pos far, div_of_lt less, mod_of_lt less]
  · have count := clz_lt dHigh
    have few : (d.high.clz - n.high.clz).toNat ≤ 31 := by omega
    have near : ¬ d.high.clz - n.high.clz > 31#32 :=
      fun far => Nat.not_lt.mpr few (BitVec.lt_def.mp far)
    rw [if_neg near]
    split_ifs with word
    · rw [word] at turns ⊢
      exact congrArg some (WordLoop.divide_eq nonzero le turns (WordLoop.startAt_whole n))
    · have other : (d.high.clz - n.high.clz + 1#32).toNat ≠ 32 :=
        fun same => word (BitVec.eq_of_toNat_eq same)
      exact congrArg some (WordLoop.divide_eq nonzero le turns
        (WordLoop.startBelow_whole (by omega) (by omega)))

/-- Divisors of one word. -/
theorem udivmoddi4_low (nHigh : n.high ≠ 0#32) (dLow : d.low ≠ 0#32) (dHigh : d.high = 0#32) :
    udivmoddi4 n.all d.all = some (n.all / d.all, n.all % d.all) := by
  unfold udivmoddi4
  simp only [Udwords.ofAll_all]
  rw [if_neg nHigh, if_neg dLow, if_pos dHigh]
  by_cases power : d.low &&& (d.low - 1#32) = 0#32
  · rw [if_pos power]
    have shortcut := low_power (n := n) dHigh dLow power
    split_ifs with one
    · have none : d.low.ctz.toNat = 0 := by
        rw [one]
        exact ctz_of_bits (by decide) fun i below => absurd below (Nat.not_lt_zero i)
      rw [none, BitVec.ushiftRight_zero] at shortcut
      exact congrArg some shortcut
    · have inside : d.low.ctz.toNat < 32 :=
        BitVec.lt_of_getLsbD (BitVec.getLsbD_true_ctz_of_ne_zero dLow)
      have rest : (32#32 - d.low.ctz).toNat = 32 - d.low.ctz.toNat := by
        rw [BitVec.toNat_sub_of_le (BitVec.le_def.mpr inside.le)]
        rfl
      rw [Udwords.all, pair_shr _ _ inside] at shortcut
      simp only [BitVec.ushiftRight_eq', BitVec.shiftLeft_eq', rest]
      exact congrArg some shortcut
  · rw [if_neg power]
    have nonzero : d.all ≠ 0#64 := fun zero => dLow (Udwords.all_eq_zero.mp zero).2
    obtain ⟨le, turns, more, less⟩ := low_turns nHigh dHigh power
    split_ifs with word below
    · rw [word] at turns ⊢
      exact congrArg some (WordLoop.divide_eq nonzero le turns (WordLoop.startAt_whole n))
    · have small : (1#32 + 32#32 + d.low.clz - n.high.clz).toNat < 32 := BitVec.lt_def.mp below
      exact congrArg some (WordLoop.divide_eq nonzero le turns
        (WordLoop.startBelow_whole (by omega) small))
    · have large : ¬ (1#32 + 32#32 + d.low.clz - n.high.clz).toNat < 32 :=
        fun small => below (BitVec.lt_def.mpr small)
      have other : (1#32 + 32#32 + d.low.clz - n.high.clz).toNat ≠ 32 :=
        fun same => word (BitVec.eq_of_toNat_eq same)
      exact congrArg some (WordLoop.divide_eq nonzero le turns
        (WordLoop.startAbove_whole (by omega) less))

/-- Dividends of one word. -/
theorem udivmoddi4_short (nHigh : n.high = 0#32) (nonzero : d.all ≠ 0#64) :
    udivmoddi4 n.all d.all = some (n.all / d.all, n.all % d.all) := by
  unfold udivmoddi4 divmod
  simp only [Udwords.ofAll_all]
  rw [if_pos nHigh]
  split_ifs with dHigh dLow
  · exact absurd (Udwords.all_eq_zero.mpr ⟨dHigh, dLow⟩) nonzero
  · exact congrArg some (low_words nHigh dHigh)
  · have less : n.all.toNat < d.all.toNat := by
      have positive : d.high.toNat ≠ 0 := fun zero => dHigh (BitVec.eq_of_toNat_eq zero)
      have small := n.low.isLt
      rw [Udwords.all_toNat, Udwords.all_toNat, nHigh]
      simp
      omega
    have low : n.low.setWidth 64 = n.all :=
      BitVec.eq_of_toNat_eq (by rw [toNat_extended, Udwords.all_toNat, nHigh]; simp)
    rw [div_of_lt less, mod_of_lt less, low]

end Cases

theorem udivmoddi4_zero (n : Udwords) : udivmoddi4 n.all 0#64 = none := by
  have zero : Udwords.ofAll 0#64 = { high := 0#32, low := 0#32 } := by decide
  unfold udivmoddi4 divmod
  simp only [zero]
  split_ifs <;> rfl

theorem udivmoddi4_eq (a b : DuInt) :
    udivmoddi4 a b = if b = 0#64 then none else some (a / b, a % b) := by
  obtain ⟨n, rfl⟩ : ∃ n : Udwords, n.all = a := ⟨_, Udwords.all_ofAll a⟩
  obtain ⟨d, rfl⟩ : ∃ d : Udwords, d.all = b := ⟨_, Udwords.all_ofAll b⟩
  split_ifs with zero
  · rw [zero, udivmoddi4_zero]
  by_cases nHigh : n.high = 0#32
  · exact udivmoddi4_short nHigh zero
  by_cases dLow : d.low = 0#32
  · exact udivmoddi4_high nHigh dLow fun dHigh => zero (Udwords.all_eq_zero.mpr ⟨dHigh, dLow⟩)
  by_cases dHigh : d.high = 0#32
  · exact udivmoddi4_low nHigh dLow dHigh
  · exact udivmoddi4_both nHigh dLow dHigh

/-- Three routines and one division. -/
theorem unsigned_divide (a : DuInt) {b : DuInt} (nonzero : b ≠ 0#64) :
    udivmoddi4 a b = some (a / b, a % b) ∧ udivdi3 a b = a / b ∧ umoddi3 a b = a % b :=
  ⟨by rw [udivmoddi4_eq, if_neg nonzero], udivXi3_divides a nonzero, umodXi3_divides a nonzero⟩

theorem unsigned_divide_top :
    udivmoddi4 (BitVec.allOnes 64) 0x8000000000000001#64 =
        some (BitVec.allOnes 64 / 0x8000000000000001#64, BitVec.allOnes 64 % 0x8000000000000001#64) ∧
      udivdi3 (BitVec.allOnes 64) 0x8000000000000001#64 =
        BitVec.allOnes 64 / 0x8000000000000001#64 ∧
      umoddi3 (BitVec.allOnes 64) 0x8000000000000001#64 =
        BitVec.allOnes 64 % 0x8000000000000001#64 :=
  unsigned_divide (BitVec.allOnes 64) (by decide)

/-! ## Signed numbers -/

abbrev DiInt : Type := BitVec 64

/-- `(x ^ s) - s`: negated when `s` is all ones. -/
def negateBy (s x : DiInt) : DiInt := (x ^^^ s) - s

def divdi3 (a b : DiInt) : Option DiInt :=
  let sA := a.sshiftRight 63
  let sB := b.sshiftRight 63
  let a := negateBy sA a
  let b := negateBy sB b
  let sA := sA ^^^ sB
  (udivmoddi4 a b).map fun (q, _) => negateBy sA q

/-- The quotient and `*rem`. -/
def divmoddi4 (a b : DiInt) : Option (DiInt × DiInt) :=
  (divdi3 a b).map fun d => (d, a - d * b)

def moddi3 (a b : DiInt) : Option DiInt :=
  let s := b.sshiftRight 63
  let b := negateBy s b
  let s := a.sshiftRight 63
  let a := negateBy s a
  (udivmoddi4 a b).map fun (_, r) => negateBy s r

theorem negateBy_mask (p : Bool) (x : DiInt) :
    negateBy (if p then BitVec.allOnes 64 else 0#64) x = if p then -x else x := by
  unfold negateBy
  cases p with
  | false => simp
  | true =>
      rw [if_pos rfl, if_pos rfl, BitVec.xor_allOnes, BitVec.neg_eq_not_add, BitVec.sub_eq_add_neg]
      rfl

theorem sign_eq (x : DiInt) : x.sshiftRight 63 = if x.msb then BitVec.allOnes 64 else 0#64 :=
  sign_mask (by decide) x

theorem signs_eq (p q : Bool) :
    (if p then BitVec.allOnes 64 else 0#64) ^^^ (if q then BitVec.allOnes 64 else 0#64) =
      if p ^^ q then BitVec.allOnes 64 else 0#64 := by
  cases p <;> cases q <;> rfl

theorem neg_zero_iff (p : Bool) (x : DiInt) : (if p then -x else x) = 0#64 ↔ x = 0#64 := by
  cases p <;> simp

theorem divdi3_eq (a b : DiInt) : divdi3 a b = if b = 0#64 then none else some (a.sdiv b) := by
  unfold divdi3
  simp only [sign_eq, signs_eq, negateBy_mask, udivmoddi4_eq, neg_zero_iff]
  by_cases zero : b = 0#64
  · rw [if_pos zero, if_pos zero]
    rfl
  · rw [if_neg zero, if_neg zero, BitVec.sdiv_eq]
    cases a.msb <;> cases b.msb <;> rfl

theorem moddi3_eq (a b : DiInt) : moddi3 a b = if b = 0#64 then none else some (a.srem b) := by
  unfold moddi3
  simp only [sign_eq, negateBy_mask, udivmoddi4_eq, neg_zero_iff]
  by_cases zero : b = 0#64
  · rw [if_pos zero, if_pos zero]
    rfl
  · rw [if_neg zero, if_neg zero, BitVec.srem_eq]
    cases a.msb <;> cases b.msb <;> rfl

theorem umod_eq_sub (a b : DiInt) : a - a / b * b = a % b := by
  apply BitVec.eq_of_toNat_eq
  have whole := Nat.div_add_mod a.toNat b.toNat
  have le : a.toNat / b.toNat * b.toNat ≤ a.toNat := Nat.div_mul_le_self _ _
  have fits : (a / b * b).toNat = a.toNat / b.toNat * b.toNat := by
    rw [BitVec.toNat_mul, BitVec.toNat_udiv, Nat.mod_eq_of_lt (le.trans_lt a.isLt)]
  rw [BitVec.toNat_sub_of_le (BitVec.le_def.mpr (by rw [fits]; exact le)), fits, BitVec.toNat_umod,
    Nat.mul_comm]
  omega

/-- The remainder has the sign of the dividend, whatever the quotient's. -/
theorem srem_eq_sub (a b : DiInt) : a - a.sdiv b * b = a.srem b := by
  rw [BitVec.sdiv_eq, BitVec.srem_eq]
  cases a.msb <;> cases b.msb <;> simp only [← umod_eq_sub, BitVec.udiv_eq]
  · generalize a / -b = q
    ring
  · generalize -a / b = q
    ring
  · generalize -a / -b = q
    ring

theorem divmoddi4_eq (a b : DiInt) :
    divmoddi4 a b = if b = 0#64 then none else some (a.sdiv b, a.srem b) := by
  unfold divmoddi4
  rw [divdi3_eq]
  split_ifs with zero
  · rfl
  · rw [Option.map_some, srem_eq_sub]

/-- Truncating division; the quotient of the least number by minus one wraps to itself. -/
theorem signed_divide (a b : DiInt) :
    divdi3 a b = (if b = 0#64 then none else some (a.sdiv b)) ∧
      moddi3 a b = (if b = 0#64 then none else some (a.srem b)) ∧
      divmoddi4 a b = (if b = 0#64 then none else some (a.sdiv b, a.srem b)) :=
  ⟨divdi3_eq a b, moddi3_eq a b, divmoddi4_eq a b⟩

end NpcMachine.Klib
