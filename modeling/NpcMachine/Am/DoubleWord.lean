/-
# Am.DoubleWord -- `multi3.c` and `ashldi3.c`

The product and the left shift of 64-bit numbers on a core with 32-bit registers.  `ll` is
a number, `s.high` and `s.low` are its words; `__muluw3` is a call of `__mulsi3`, whose
result is the product of words.  With `__riscv_xlen` 32 the name `__multi3` stands for
`__muldi3`.
-/
import NpcMachine.Machine.DoubleWord
import NpcMachine.Machine.Bits

namespace NpcMachine.Am

open NpcMachine.Machine

set_option autoImplicit false

abbrev UWtype : Type := BitVec 32
abbrev DWtype : Type := BitVec 64

def lowWord (ll : DWtype) : UWtype := ll.extractLsb' 0 32
def highWord (ll : DWtype) : UWtype := ll.extractLsb' 32 32

theorem words_eq (ll : DWtype) : ll = highWord ll ++ lowWord ll := by
  apply BitVec.eq_of_getLsbD_eq
  intro i small
  simp only [highWord, lowWord, BitVec.getLsbD_append, BitVec.getLsbD_extractLsb']
  grind

/-! ## `multi3.c` -/

def muluw3 (a b : UWtype) : UWtype := a * b

/-- The variables of the loop of `__multi3`. -/
structure MulLoop where
  vLow : UWtype
  uLow : UWtype
  wLow : UWtype
  wHigh : UWtype
  wHighTmp : UWtype
  deriving DecidableEq, Repr

namespace MulLoop

/-- The body of the loop. -/
def body (l : MulLoop) : MulLoop :=
  let newWLow := l.wLow + l.uLow
  let wHighTmp2x := l.wHighTmp <<< 1
  let wHighTmp := l.wHighTmp + l.wHigh
  let carry : UWtype := if newWLow < l.wLow then 1#32 else 0#32
  let added := l.vLow &&& 1#32 ≠ 0#32
  let uLowMsb := l.uLow >>> 31
  { vLow := l.vLow >>> 1
    uLow := l.uLow <<< 1
    wLow := if added then newWLow else l.wLow
    wHigh := if added then carry + wHighTmp else l.wHigh
    wHighTmp := uLowMsb ||| wHighTmp2x }

def run (l : MulLoop) : MulLoop :=
  if l.body.vLow = 0#32 then l.body else run l.body
termination_by l.vLow.toNat
decreasing_by
  rename_i more
  have left : l.vLow.toNat >>> 1 ≠ 0 := fun none => more (BitVec.eq_of_toNat_eq none)
  show (l.vLow >>> 1).toNat < l.vLow.toNat
  rw [BitVec.toNat_ushiftRight, Nat.shiftRight_eq_div_pow] at *
  omega

end MulLoop

/-- `__multi3` -/
def multi3 (u v : DWtype) : DWtype :=
  let l := MulLoop.run
    { vLow := lowWord v, uLow := lowWord u, wLow := 0#32, wHigh := 0#32, wHighTmp := 0#32 }
  let high := if highWord u ≠ 0#32 then l.wHigh + muluw3 (lowWord v) (highWord u) else l.wHigh
  let high := if highWord v ≠ 0#32 then high + muluw3 (lowWord u) (highWord v) else high
  high ++ l.wLow

/-! ## `ashldi3.c` -/

/-- `__ashldi3`; `bm` counts the bits that stay in the low word. -/
def ashldi3 (u : DWtype) (b : Int) : DWtype :=
  if b = 0 then u
  else
    let bm := 32 - b
    if bm ≤ 0 then (lowWord u <<< (-bm).toNat) ++ 0#32
    else
      let carries := lowWord u >>> bm.toNat
      ((highWord u <<< b.toNat) ||| carries) ++ (lowWord u <<< b.toNat)

/-! ## The loop of `__multi3` -/

namespace MulLoop

/-- The number that the loop has accumulated and what is still to come. -/
def total (l : MulLoop) : DWtype := (l.wHigh ++ l.wLow) + (l.wHighTmp ++ l.uLow) * (0#32 ++ l.vLow)

theorem body_total (l : MulLoop) : l.body.total = l.total := by
  have border : (0#32 ++ l.vLow : DWtype).getLsbD 0 = l.vLow.getLsbD 0 := by
    rw [BitVec.getLsbD_append, if_pos (by decide)]
  have shifted : (l.wHighTmp ++ l.uLow : DWtype) <<< 1 =
      (l.uLow >>> 31 ||| l.wHighTmp <<< 1) ++ (l.uLow <<< 1) := by
    rw [BitVec.or_comm]
    exact pair_shl _ _ (by decide)
  have halved : (0#32 ++ l.vLow : DWtype) >>> 1 = 0#32 ++ (l.vLow >>> 1) := by
    have moved := pair_shr 0#32 l.vLow (k := 1) (by decide)
    rwa [BitVec.zero_shiftLeft, BitVec.zero_ushiftRight, BitVec.zero_or] at moved
  rw [total, total, mul_shift (l.wHighTmp ++ l.uLow), border, shifted, halved, ← BitVec.add_assoc]
  congr 1
  cases bit : l.vLow.getLsbD 0 with
  | false =>
      have even := (low_bit (by decide) l.vLow).mpr bit
      simp [body, even]
  | true =>
      have odd : l.vLow &&& 1#32 ≠ 0#32 := fun none => by
        rw [(low_bit (by decide) l.vLow).mp none] at bit
        cases bit
      have sum := pair_add l.wHigh l.wLow l.wHighTmp l.uLow
      rw [if_pos rfl]
      refine Eq.trans ?_ sum.symm
      simp only [body, odd, ne_eq, not_false_eq_true, if_true, BitVec.add_comm l.wHigh]
      split_ifs <;> rfl

theorem run_total (l : MulLoop) : l.run.wHigh ++ l.run.wLow = l.total := by
  induction l using run.induct with
  | case1 l done =>
      have empty : (0#32 ++ l.body.vLow : DWtype) = 0#64 := by rw [done]; rfl
      rw [run, if_pos done, ← body_total, total, empty, BitVec.mul_zero, BitVec.add_zero]
  | case2 l more ih => rw [run, if_neg more, ih, body_total]

end MulLoop

theorem muluw3_zero {a b : UWtype} (none : ¬ b ≠ 0#32) : muluw3 a b = 0#32 := by
  rw [not_ne_iff.mp none, muluw3, BitVec.mul_zero]

/-- `__multi3` multiplies 64-bit numbers. -/
theorem multi3_eq (u v : DWtype) : multi3 u v = u * v := by
  have start (vLow uLow : UWtype) : MulLoop.total ⟨vLow, uLow, 0#32, 0#32, 0#32⟩ =
      (0#32 ++ uLow : DWtype) * (0#32 ++ vLow) := by
    have none : (0#32 ++ 0#32 : DWtype) = 0#64 := rfl
    rw [MulLoop.total, none, BitVec.zero_add]
  have low := (MulLoop.run_total ⟨lowWord v, lowWord u, 0#32, 0#32, 0#32⟩).trans (start _ _)
  have skip (high a b : UWtype) : (if b ≠ 0#32 then high + muluw3 a b else high) = high + a * b := by
    split_ifs with some_
    · rfl
    · rw [← muluw3, muluw3_zero some_, BitVec.add_zero]
  rw [multi3, skip, skip]
  calc _ = (highWord u ++ lowWord u : DWtype) * (highWord v ++ lowWord v) := (pair_mul low.symm).symm
    _ = u * v := by rw [← words_eq u, ← words_eq v]

/-- `__ashldi3` shifts 64-bit numbers by every amount below 64. -/
theorem ashldi3_eq (u : DWtype) {b : Nat} (inside : b < 64) : ashldi3 u b = u <<< b := by
  by_cases none : b = 0
  · rw [none, BitVec.shiftLeft_zero]
    rfl
  · conv_rhs => rw [words_eq u]
    rw [ashldi3, if_neg (by omega)]
    by_cases beyond : 32 ≤ b
    · have amount : (-(32 - (b : Int))).toNat = b - 32 := by omega
      simp only [if_pos (show 32 - (b : Int) ≤ 0 by omega), amount]
      exact (pair_shl_word _ _ beyond).symm
    · have carried : (32 - (b : Int)).toNat = 32 - b := by omega
      simp only [if_neg (show ¬ 32 - (b : Int) ≤ 0 by omega), carried, Int.toNat_natCast]
      exact (pair_shl _ _ (by omega)).symm

theorem ashldi3_eq_across : ashldi3 0x80000001#64 (33 : Nat) = 0x200000000#64 :=
  ashldi3_eq 0x80000001#64 (by decide)

end NpcMachine.Am
