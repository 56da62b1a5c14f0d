/-
# Klib.Memmove -- memcpy and memmove of klib

The byte functions of `string.c` on a 32-bit address space.  `memmove` tests for overlap
with 32-bit pointer sums and moves an overlapping range as two forward copies.

A call moves its range for every memory exactly when it `Fits`
(`memmove_moves_iff`).  Upwards, two copies are enough for a range of at most twice the
shift, and the range must not end at the top of the address space, where `dst + n` is 0
and the overlap goes unseen.  Downwards, the second copy moves as many bytes as the
shift from the offset of the shift, and not the bytes the first left: the two agree only
for a range of twice the shift.
-/
import Mathlib.Tactic.Abel
import NpcMachine.Machine.ByteCopy
import NpcMachine.Machine.ByteLanes

namespace NpcMachine.Klib

open NpcMachine.Machine

set_option autoImplicit false

def memcpy (m : Bytes) (out inp n : BitVec 32) : BitVec 32 × Bytes := (out, copy m out inp n.toNat)

def memmove (m : Bytes) (dst src n : BitVec 32) : BitVec 32 × Bytes :=
  if src + n ≤ dst ∨ dst + n ≤ src then
    (dst, (memcpy m dst src n).2)
  else if src < dst then
    let overlapSize := src + n - dst
    let nonOverlapSize := dst - src
    let m := (memcpy m (dst + nonOverlapSize) (src + nonOverlapSize) overlapSize).2
    (dst, (memcpy m dst src nonOverlapSize).2)
  else if dst < src then
    let overlapSize := dst + n - src
    let nonOverlapSize := src - dst
    let m := (memcpy m dst src overlapSize).2
    (dst, (memcpy m (dst + nonOverlapSize) (src + nonOverlapSize) nonOverlapSize).2)
  else (dst, m)

/-! ## What a move is -/

/-- `n` bytes from an address on do not wrap. -/
def NoWrap (p n : BitVec 32) : Prop := p.toNat + n.toNat ≤ 2 ^ 32

structure Moves (m m' : Bytes) (dst src n : BitVec 32) : Prop where
  moved : ∀ i, i < n.toNat → m' (dst + BitVec.ofNat 32 i) = m (src + BitVec.ofNat 32 i)
  kept : ∀ a, a.toNat < dst.toNat ∨ dst.toNat + n.toNat ≤ a.toNat → m' a = m a

/-- The calls that move their range, whatever the bytes are. -/
def Fits (dst src n : BitVec 32) : Prop :=
  dst = src ∨
  (src < dst ∧ (n.toNat ≤ dst.toNat - src.toNat ∨
    (n.toNat ≤ 2 * (dst.toNat - src.toNat) ∧ dst.toNat + n.toNat < 2 ^ 32))) ∨
  (dst < src ∧ (n.toNat ≤ src.toNat - dst.toNat ∨
    n.toNat = 2 * (src.toNat - dst.toNat) ∨ src.toNat + n.toNat = 2 ^ 32))

variable {m m' : Bytes} {dst src n : BitVec 32}

/-- A memory that holds the moved range and nothing else new. -/
theorem moves_of_apply (dstFits : NoWrap dst n)
    (all : ∀ a, m' a = if (a - dst).toNat < n.toNat then m (src + (a - dst)) else m a) :
    Moves m m' dst src n where
  moved i inside := by
    have bound := n.isLt
    have step : dst + BitVec.ofNat 32 i - dst = BitVec.ofNat 32 i := by
      rw [BitVec.add_comm, BitVec.add_sub_cancel]
    rw [all, step, BitVec.toNat_ofNat, Nat.mod_eq_of_lt (by omega), if_pos inside]
  kept a outside := by
    unfold NoWrap at dstFits
    have far : ¬ (a - dst).toNat < n.toNat := by
      have aBound := a.isLt
      have dBound := dst.isLt
      rw [BitVec.toNat_sub]
      omega
    rw [all, if_neg far]

/-! ## The branches -/

theorem memmove_apart (apart : src + n ≤ dst ∨ dst + n ≤ src) :
    (memmove m dst src n).2 = copy m dst src n.toNat := by
  rw [memmove, if_pos apart]
  rfl

theorem memmove_up (apart : ¬ (src + n ≤ dst ∨ dst + n ≤ src)) (up : src < dst) :
    (memmove m dst src n).2 =
      copy (copy m (dst + (dst - src)) (src + (dst - src)) (src + n - dst).toNat)
        dst src (dst - src).toNat := by
  rw [memmove, if_neg apart, if_pos up]
  rfl

theorem memmove_down (apart : ¬ (src + n ≤ dst ∨ dst + n ≤ src)) (down : dst < src) :
    (memmove m dst src n).2 =
      copy (copy m dst src (dst + n - src).toNat)
        (dst + (src - dst)) (src + (src - dst)) (src - dst).toNat := by
  have above : ¬ src < dst := BitVec.not_lt.mpr (BitVec.le_of_lt down)
  rw [memmove, if_neg apart, if_neg above, if_pos down]
  rfl

/-! ## The pieces of an overlapping range -/

theorem up_shift (up : src < dst) : (dst - src).toNat = dst.toNat - src.toNat :=
  BitVec.toNat_sub_of_le (BitVec.le_of_lt up)

theorem up_apart (dstFits : dst.toNat + n.toNat < 2 ^ 32) (up : src < dst)
    (overlap : dst.toNat - src.toNat < n.toNat) : ¬ (src + n ≤ dst ∨ dst + n ≤ src) := by
  have below : src.toNat < dst.toNat := BitVec.lt_def.mp up
  rw [BitVec.le_def, BitVec.le_def, BitVec.toNat_add_of_lt dstFits,
    BitVec.toNat_add_of_lt (by omega)]
  omega

theorem up_rest (dstFits : dst.toNat + n.toNat < 2 ^ 32) (up : src < dst)
    (overlap : dst.toNat - src.toNat < n.toNat) :
    (src + n - dst).toNat = n.toNat - (dst.toNat - src.toNat) := by
  have below : src.toNat < dst.toNat := BitVec.lt_def.mp up
  have sum : (src + n).toNat = src.toNat + n.toNat := BitVec.toNat_add_of_lt (by omega)
  rw [BitVec.toNat_sub_of_le (by rw [BitVec.le_def]; omega), sum]
  omega

theorem down_shift (down : dst < src) : (src - dst).toNat = src.toNat - dst.toNat :=
  BitVec.toNat_sub_of_le (BitVec.le_of_lt down)

theorem down_apart (srcFits : src.toNat + n.toNat < 2 ^ 32) (down : dst < src)
    (overlap : src.toNat - dst.toNat < n.toNat) : ¬ (src + n ≤ dst ∨ dst + n ≤ src) := by
  have below : dst.toNat < src.toNat := BitVec.lt_def.mp down
  rw [BitVec.le_def, BitVec.le_def, BitVec.toNat_add_of_lt srcFits,
    BitVec.toNat_add_of_lt (by omega)]
  omega

theorem down_rest (srcFits : src.toNat + n.toNat < 2 ^ 32) (down : dst < src)
    (overlap : src.toNat - dst.toNat < n.toNat) :
    (dst + n - src).toNat = n.toNat - (src.toNat - dst.toNat) := by
  have below : dst.toNat < src.toNat := BitVec.lt_def.mp down
  have sum : (dst + n).toNat = dst.toNat + n.toNat := BitVec.toNat_add_of_lt (by omega)
  rw [BitVec.toNat_sub_of_le (by rw [BitVec.le_def]; omega), sum]
  omega

/-- Downwards every cell is read before it is overwritten. -/
theorem down_ahead (srcFits : src.toNat + n.toNat ≤ 2 ^ 32) (down : dst < src) :
    n.toNat ≤ (dst - src).toNat := by
  have below : dst.toNat < src.toNat := BitVec.lt_def.mp down
  rw [BitVec.toNat_sub_of_lt down]
  omega

/-! ## The calls that fit -/

theorem moves_apart (dstFits : NoWrap dst n) (apart : src + n ≤ dst ∨ dst + n ≤ src)
    (ahead : n.toNat ≤ (dst - src).toNat ∨ dst = src) :
    Moves m (memmove m dst src n).2 dst src n := by
  refine moves_of_apply dstFits fun a => ?_
  rw [memmove_apart apart, copy_apply m dst src (Nat.le_of_lt n.isLt) ahead]

theorem moves_up (dstFits : dst.toNat + n.toNat < 2 ^ 32) (up : src < dst)
    (overlap : dst.toNat - src.toNat < n.toNat)
    (twice : n.toNat ≤ 2 * (dst.toNat - src.toNat)) :
    Moves m (memmove m dst src n).2 dst src n := by
  have below : src.toNat < dst.toNat := BitVec.lt_def.mp up
  have apart := up_apart dstFits up overlap
  have shift := up_shift up
  have rest := up_rest dstFits up overlap
  have first : (dst + (dst - src) - (src + (dst - src))).toNat = dst.toNat - src.toNat := by
    rw [add_sub_add_right_eq_sub, shift]
  refine moves_of_apply (Nat.le_of_lt dstFits) fun a => ?_
  rw [memmove_up apart up, copy_apply _ dst src (by omega) (Or.inl (by omega)), shift, rest]
  rw [copy_apply m _ _ (by omega) (Or.inl (by omega)), copy_apply m _ _ (by omega) (Or.inl (by omega))]
  by_cases low : (a - dst).toNat < dst.toNat - src.toNat
  · have place : src + (a - dst) - (dst + (dst - src)) = a - (dst + (dst - src)) - (dst - src) := by
      abel
    have before : ¬ (src + (a - dst) - (dst + (dst - src))).toNat <
        n.toNat - (dst.toNat - src.toNat) := by
      have once := distance_add_of_lt a dst (dst - src) (by omega)
      rw [place, BitVec.toNat_sub_of_le (by rw [BitVec.le_def]; omega)]
      omega
    rw [if_pos low, if_neg before, if_pos (by omega)]
  · have offset : (a - (dst + (dst - src))).toNat =
        (a - dst).toNat - (dst.toNat - src.toNat) := by
      rw [distance_add_of_le a dst _ (by omega), shift]
    have place : src + (dst - src) + (a - (dst + (dst - src))) = src + (a - dst) := by abel
    have same : (a - dst).toNat - (dst.toNat - src.toNat) < n.toNat - (dst.toNat - src.toNat) ↔
        (a - dst).toNat < n.toNat := by omega
    rw [if_neg low, offset, place]
    simp only [same]

theorem moves_down (srcFits : src.toNat + n.toNat < 2 ^ 32) (down : dst < src)
    (twice : n.toNat = 2 * (src.toNat - dst.toNat)) :
    Moves m (memmove m dst src n).2 dst src n := by
  have below : dst.toNat < src.toNat := BitVec.lt_def.mp down
  have apart := down_apart srcFits down (by omega)
  have shift := down_shift down
  have rest := down_rest srcFits down (by omega)
  have ahead := down_ahead (Nat.le_of_lt srcFits) down
  have second : n.toNat ≤ (dst + (src - dst) - (src + (src - dst))).toNat := by
    rw [add_sub_add_right_eq_sub]
    exact ahead
  refine moves_of_apply (by unfold NoWrap; omega) fun a => ?_
  rw [memmove_down apart down, copy_apply _ _ _ (by omega) (Or.inl (by omega)), shift, rest]
  rw [copy_apply m _ _ (by omega) (Or.inl (by omega)), copy_apply m _ _ (by omega) (Or.inl (by omega))]
  have place : src + (src - dst) + (a - (dst + (src - dst))) = src + (a - dst) := by abel
  rcases Nat.lt_or_ge (a - dst).toNat (src.toNat - dst.toNat) with low | high
  · have far := distance_add_of_lt a dst (src - dst) (by omega)
    rw [if_neg (by omega), if_pos (by omega), if_pos (by omega)]
  · have far := distance_add_of_le a dst (src - dst) (by omega)
    by_cases inside : (a - dst).toNat < n.toNat
    · have beyond : ¬ (src + (a - dst) - dst).toNat < n.toNat - (src.toNat - dst.toNat) := by
        have onward : src + (a - dst) - dst = (src - dst) + (a - dst) := by abel
        rw [onward, BitVec.toNat_add_of_lt (by omega)]
        omega
      rw [if_pos (by omega), place, if_neg beyond, if_pos inside]
    · rw [if_neg (by omega), if_neg (by omega), if_neg inside]

theorem moves_of_fits (dstFits : NoWrap dst n) (srcFits : NoWrap src n) (fits : Fits dst src n) :
    Moves m (memmove m dst src n).2 dst src n := by
  unfold NoWrap at dstFits srcFits
  rcases fits with rfl | ⟨up, close⟩ | ⟨down, close⟩
  · by_cases apart : dst + n ≤ dst ∨ dst + n ≤ dst
    · exact moves_apart dstFits apart (Or.inr rfl)
    · refine moves_of_apply dstFits fun a => ?_
      have place : dst + (a - dst) = a := by abel
      rw [memmove, if_neg apart, if_neg (BitVec.lt_irrefl _), if_neg (BitVec.lt_irrefl _), place,
        ite_self]
  · have below : src.toNat < dst.toNat := BitVec.lt_def.mp up
    by_cases overlap : dst.toNat - src.toNat < n.toNat
    · have both : n.toNat ≤ 2 * (dst.toNat - src.toNat) ∧ dst.toNat + n.toNat < 2 ^ 32 := by omega
      exact moves_up both.2 up overlap both.1
    · have apart : src + n ≤ dst := by
        have dBound := dst.isLt
        rw [BitVec.le_def, BitVec.toNat_add_of_lt (by omega)]
        omega
      exact moves_apart dstFits (Or.inl apart) (Or.inl (by rw [up_shift up]; omega))
  · have below : dst.toNat < src.toNat := BitVec.lt_def.mp down
    have ahead := down_ahead srcFits down
    by_cases overlap : src.toNat - dst.toNat < n.toNat
    · by_cases top : src.toNat + n.toNat = 2 ^ 32
      · -- the end of the source is the address 0
        have zero : (src + n).toNat = 0 := by rw [BitVec.toNat_add, top, Nat.mod_self]
        have apart : src + n ≤ dst := by
          rw [BitVec.le_def, zero]
          exact Nat.zero_le _
        exact moves_apart dstFits (Or.inl apart) (Or.inl ahead)
      · exact moves_down (by omega) down (by omega)
    · have apart : dst + n ≤ src := by
        have sBound := src.isLt
        rw [BitVec.le_def, BitVec.toNat_add_of_lt (by omega)]
        omega
      exact moves_apart dstFits (Or.inr apart) (Or.inl ahead)

/-! ## The calls that do not -/

/-- A memory that is zero but for one cell. -/
def single (x : BitVec 32) : Bytes := Function.update (fun _ => 0#8) x 1#8

theorem single_ne {x y : BitVec 32} (other : y ≠ x) : single x y ≠ single x x := by
  rw [single, Function.update_self, Function.update_of_ne other]
  decide

theorem offset_ne {p : BitVec 32} {i j : Nat} (iSmall : i < 2 ^ 32) (jSmall : j < 2 ^ 32)
    (other : i ≠ j) : p + BitVec.ofNat 32 i ≠ p + BitVec.ofNat 32 j := by
  intro same
  have far := (eq_add_iff _ p jSmall).mp same
  rw [BitVec.add_comm, BitVec.add_sub_cancel, BitVec.toNat_ofNat, Nat.mod_eq_of_lt iSmall] at far
  exact other far

theorem dst_of_shift (up : src < dst) : src + BitVec.ofNat 32 (dst.toNat - src.toNat) = dst := by
  rw [← up_shift up, BitVec.ofNat_toNat, BitVec.setWidth_eq]
  abel

/-- A range that ends at the top is copied forward over itself. -/
theorem stray_top (up : src < dst) (overlap : dst.toNat - src.toNat < n.toNat)
    (top : dst.toNat + n.toNat = 2 ^ 32) :
    ¬ Moves (single src) (memmove (single src) dst src n).2 dst src n := by
  intro moves
  have below : src.toNat < dst.toNat := BitVec.lt_def.mp up
  have apart : dst + n ≤ src := by
    rw [BitVec.le_def, BitVec.toNat_add, top, Nat.mod_self]
    exact Nat.zero_le _
  have cycle := copy_cycle (single src) src (d := dst.toNat - src.toNat) (n := n.toNat)
    (i := dst.toNat - src.toNat) (by omega) (by omega) overlap
  have moved := moves.moved _ overlap
  rw [dst_of_shift up] at cycle moved
  rw [memmove_apart (Or.inr apart), cycle, Nat.mod_self, BitVec.add_zero] at moved
  have other : dst ≠ src := by
    rintro rfl
    omega
  exact single_ne other moved.symm

/-- More than twice the shift upwards: the first copy overwrites cells it has still to read. -/
theorem stray_up (dstFits : dst.toNat + n.toNat < 2 ^ 32) (up : src < dst)
    (beyond : 2 * (dst.toNat - src.toNat) < n.toNat) :
    ¬ Moves (single dst) (memmove (single dst) dst src n).2 dst src n := by
  intro moves
  have below : src.toNat < dst.toNat := BitVec.lt_def.mp up
  have apart := up_apart dstFits up (by omega)
  have shift := up_shift up
  have asShift : dst - src = BitVec.ofNat 32 (dst.toNat - src.toNat) := by
    rw [← shift, BitVec.ofNat_toNat, BitVec.setWidth_eq]
  have cycle := copy_cycle (single dst) dst (d := dst.toNat - src.toNat)
    (n := n.toNat - (dst.toNat - src.toNat)) (i := dst.toNat - src.toNat) (by omega) (by omega)
    (by omega)
  have double : dst + BitVec.ofNat 32 (2 * (dst.toNat - src.toNat)) =
      dst + BitVec.ofNat 32 (dst.toNat - src.toNat) + BitVec.ofNat 32 (dst.toNat - src.toNat) := by
    rw [BitVec.add_assoc, ← BitVec.ofNat_add, Nat.two_mul]
  have source : src + BitVec.ofNat 32 (2 * (dst.toNat - src.toNat)) =
      dst + BitVec.ofNat 32 (dst.toNat - src.toNat) := by
    rw [Nat.two_mul, BitVec.ofNat_add, ← BitVec.add_assoc, dst_of_shift up]
  have past : dst.toNat - src.toNat ≤
      (dst + BitVec.ofNat 32 (2 * (dst.toNat - src.toNat)) - dst).toNat := by
    rw [(eq_add_iff _ dst (by omega)).mp rfl]
    omega
  have moved := moves.moved _ beyond
  rw [memmove_up apart up, shift, up_rest dstFits up (by omega),
    copy_outside _ dst src (by omega) past, asShift, dst_of_shift up, double, cycle, source,
    Nat.mod_self, BitVec.add_zero] at moved
  have other := offset_ne (p := dst) (i := dst.toNat - src.toNat) (j := 0) (by omega) (by omega)
    (by omega)
  rw [BitVec.add_zero] at other
  exact single_ne other moved.symm

/-- Less than twice the shift downwards: the second copy runs past the end of the range. -/
theorem stray_past (srcFits : src.toNat + n.toNat < 2 ^ 32) (down : dst < src)
    (overlap : src.toNat - dst.toNat < n.toNat) (under : n.toNat < 2 * (src.toNat - dst.toNat)) :
    ¬ Moves (single (src + n)) (memmove (single (src + n)) dst src n).2 dst src n := by
  intro moves
  have below : dst.toNat < src.toNat := BitVec.lt_def.mp down
  have shift := down_shift down
  have ahead := down_ahead (Nat.le_of_lt srcFits) down
  have sum : (dst + n).toNat = dst.toNat + n.toNat := BitVec.toNat_add_of_lt (by omega)
  have back : dst + n - dst = n := by abel
  have far := distance_add_of_le (dst + n) dst (src - dst) (by rw [back]; omega)
  rw [back, shift] at far
  have onward : src + n - dst = (src - dst) + n := by abel
  have outside : n.toNat - (src.toNat - dst.toNat) ≤ (src + n - dst).toNat := by
    rw [onward, BitVec.toNat_add_of_lt (by omega)]
    omega
  have place : src + (src - dst) + (dst + n - (dst + (src - dst))) = src + n := by abel
  have second : (src - dst).toNat ≤ (dst + (src - dst) - (src + (src - dst))).toNat := by
    rw [add_sub_add_right_eq_sub]
    omega
  have kept := moves.kept (dst + n) (Or.inr (by omega))
  rw [memmove_down (down_apart srcFits down overlap) down,
    copy_apply _ _ _ (Nat.le_of_lt (BitVec.isLt _)) (Or.inl second), if_pos (by omega), place,
    down_rest srcFits down overlap, copy_outside _ dst src (by omega) outside] at kept
  have other : dst + n ≠ src + n := by
    intro same
    have ends := congrArg BitVec.toNat same
    rw [sum, BitVec.toNat_add_of_lt srcFits] at ends
    omega
  exact single_ne other kept.symm

/-- More than twice the shift downwards: neither copy reaches the last byte. -/
theorem stray_short (srcFits : src.toNat + n.toNat < 2 ^ 32) (down : dst < src)
    (beyond : 2 * (src.toNat - dst.toNat) < n.toNat) :
    ¬ Moves (single (src + BitVec.ofNat 32 (n.toNat - 1)))
      (memmove (single (src + BitVec.ofNat 32 (n.toNat - 1))) dst src n).2 dst src n := by
  intro moves
  have below : dst.toNat < src.toNat := BitVec.lt_def.mp down
  have shift := down_shift down
  have last : (BitVec.ofNat 32 (n.toNat - 1)).toNat = n.toNat - 1 := by
    rw [BitVec.toNat_ofNat, Nat.mod_eq_of_lt (by omega)]
  have far : (dst + BitVec.ofNat 32 (n.toNat - 1) - dst).toNat = n.toNat - 1 :=
    (eq_add_iff _ dst (by omega)).mp rfl
  have second := distance_add_of_le (dst + BitVec.ofNat 32 (n.toNat - 1)) dst (src - dst) (by omega)
  have moved := moves.moved (n.toNat - 1) (by omega)
  rw [memmove_down (down_apart srcFits down (by omega)) down,
    copy_outside _ _ _ (Nat.le_of_lt (BitVec.isLt _)) (by omega),
    down_rest srcFits down (by omega), copy_outside _ dst src (by omega) (by omega)] at moved
  have other : dst + BitVec.ofNat 32 (n.toNat - 1) ≠ src + BitVec.ofNat 32 (n.toNat - 1) := by
    intro same
    have ends := congrArg BitVec.toNat same
    rw [BitVec.toNat_add_of_lt (by omega), BitVec.toNat_add_of_lt (by omega)] at ends
    omega
  exact single_ne other moved

/-- A call that does not fit loses or adds a byte in some memory. -/
theorem stray_of_not_fits (dstFits : NoWrap dst n) (srcFits : NoWrap src n)
    (misfit : ¬ Fits dst src n) : ∃ m, ¬ Moves m (memmove m dst src n).2 dst src n := by
  unfold NoWrap at dstFits srcFits
  have split := not_or.mp misfit
  have ways := not_or.mp split.2
  have apart : dst.toNat ≠ src.toNat := fun same => split.1 (BitVec.eq_of_toNat_eq same)
  rcases Nat.lt_or_gt_of_ne apart with below | above
  · have down : dst < src := BitVec.lt_def.mpr below
    have far : ¬ (n.toNat ≤ src.toNat - dst.toNat ∨ n.toNat = 2 * (src.toNat - dst.toNat) ∨
        src.toNat + n.toNat = 2 ^ 32) := fun close => ways.2 ⟨down, close⟩
    rcases Nat.lt_or_ge n.toNat (2 * (src.toNat - dst.toNat)) with under | beyond
    · exact ⟨_, stray_past (by omega) down (by omega) under⟩
    · exact ⟨_, stray_short (by omega) down (by omega)⟩
  · have up : src < dst := BitVec.lt_def.mpr above
    have far : ¬ (n.toNat ≤ dst.toNat - src.toNat ∨ (n.toNat ≤ 2 * (dst.toNat - src.toNat) ∧
        dst.toNat + n.toNat < 2 ^ 32)) := fun close => ways.1 ⟨up, close⟩
    by_cases top : dst.toNat + n.toNat = 2 ^ 32
    · exact ⟨_, stray_top up (by omega) top⟩
    · exact ⟨_, stray_up (by omega) up (by omega)⟩

/-- A call on ranges that do not wrap moves them in every memory exactly when it fits. -/
theorem memmove_moves_iff (dst src n : BitVec 32) (dstFits : NoWrap dst n) (srcFits : NoWrap src n) :
    (∀ m, Moves m (memmove m dst src n).2 dst src n) ↔ Fits dst src n := by
  constructor
  · intro all
    by_contra misfit
    obtain ⟨m, stray⟩ := stray_of_not_fits dstFits srcFits misfit
    exact stray (all m)
  · intro fits m
    exact moves_of_fits dstFits srcFits fits

/-- Two bytes moved up by one, and three that are not. -/
theorem memmove_moves_two :
    (∀ m, Moves m (memmove m 0x80000001#32 0x80000000#32 2#32).2 0x80000001#32 0x80000000#32 2#32) ∧
    ¬ ∀ m, Moves m (memmove m 0x80000001#32 0x80000000#32 3#32).2 0x80000001#32 0x80000000#32 3#32 :=
  ⟨(memmove_moves_iff _ _ _ (by unfold NoWrap; decide) (by unfold NoWrap; decide)).mpr
      (by unfold Fits; decide),
    fun all => absurd ((memmove_moves_iff _ _ _ (by unfold NoWrap; decide) (by unfold NoWrap; decide)).mp all)
      (by unfold Fits; decide)⟩

/-- Three bytes moved down by one place: the third stays as it was. -/
theorem memmove_down_three :
    ¬ ∀ (m : Bytes) (dst src n : BitVec 32), NoWrap dst n → NoWrap src n →
      Moves m (memmove m dst src n).2 dst src n := by
  intro all
  have moves := all (fun a => a.setWidth 8) 0x80000000#32 0x80000001#32 3#32
    (by unfold NoWrap; decide) (by unfold NoWrap; decide)
  exact absurd (moves.moved 2 (by decide)) (by decide)

end NpcMachine.Klib
