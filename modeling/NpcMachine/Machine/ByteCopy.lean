/-
# Machine.ByteCopy -- a forward copy within one memory

A memory is a function from addresses to cells.  `copy` moves cells one after another
from the lowest address up, each read from the memory the earlier moves left, and `fill`
writes one value over a range.  A range is given by its start and a length, and a cell is
in it when its distance from the start, taken in the address space, is below the length.

* `copy_apply`: a copy whose destination does not start inside the cells still to be read
  moves the cells as they were;
* `copy_cycle`: a copy to a place `d` cells further on repeats the first `d` cells.
-/
import Mathlib.Data.BitVec

namespace NpcMachine.Machine

set_option autoImplicit false

variable {w : Nat} {α : Type*}

def copy (m : BitVec w → α) (dst src : BitVec w) : Nat → BitVec w → α
  | 0 => m
  | n + 1 =>
      Function.update (copy m dst src n) (dst + BitVec.ofNat w n)
        (copy m dst src n (src + BitVec.ofNat w n))

def fill (m : BitVec w → α) (dst : BitVec w) (c : α) : Nat → BitVec w → α
  | 0 => m
  | n + 1 => Function.update (fill m dst c n) (dst + BitVec.ofNat w n) c

/-! ## Distances -/

/-- The cell a distance away from a start. -/
theorem eq_add_iff (a dst : BitVec w) {i : Nat} (small : i < 2 ^ w) :
    a = dst + BitVec.ofNat w i ↔ (a - dst).toNat = i := by
  constructor
  · rintro rfl
    rw [BitVec.add_comm, BitVec.add_sub_cancel, BitVec.toNat_ofNat, Nat.mod_eq_of_lt small]
  · intro far
    rw [← far, BitVec.ofNat_toNat, BitVec.setWidth_eq, BitVec.add_comm, BitVec.sub_add_cancel]

/-- Distances from a start further on. -/
theorem distance_add_of_le (a dst e : BitVec w) (past : e.toNat ≤ (a - dst).toNat) :
    (a - (dst + e)).toNat = (a - dst).toNat - e.toNat := by
  rw [sub_add_eq_sub_sub, BitVec.toNat_sub_of_le past]

theorem distance_add_of_lt (a dst e : BitVec w) (before : (a - dst).toNat < e.toNat) :
    (a - (dst + e)).toNat = 2 ^ w - e.toNat + (a - dst).toNat := by
  rw [sub_add_eq_sub_sub, BitVec.toNat_sub_of_lt before]
  omega

/-- How far a source cell is from the destination, while it does not pass the end. -/
theorem source_distance (dst src : BitVec w) {n : Nat} (fits : n < (dst - src).toNat ∨ dst = src)
    (small : n < 2 ^ w) : n ≤ (src + BitVec.ofNat w n - dst).toNat := by
  rcases fits with far | rfl
  · have apart : src + BitVec.ofNat w n - dst = BitVec.ofNat w n - (dst - src) := by
      rw [sub_sub_eq_add_sub, add_comm]
    have bound := (dst - src).isLt
    rw [apart, BitVec.toNat_sub, BitVec.toNat_ofNat, Nat.mod_eq_of_lt small,
      Nat.mod_eq_of_lt (by omega)]
    omega
  · rw [BitVec.add_comm, BitVec.add_sub_cancel, BitVec.toNat_ofNat, Nat.mod_eq_of_lt small]

/-! ## Copies -/

theorem copy_outside (m : BitVec w → α) (dst src : BitVec w) {n : Nat} (small : n ≤ 2 ^ w)
    {a : BitVec w} (outside : n ≤ (a - dst).toNat) : copy m dst src n a = m a := by
  induction n with
  | zero => rfl
  | succ n ih =>
      have other : a ≠ dst + BitVec.ofNat w n := by
        intro hit
        have far := (eq_add_iff a dst (by omega)).mp hit
        omega
      rw [copy, Function.update_of_ne other]
      exact ih (by omega) (by omega)

/-- A copy that reads every cell before it is overwritten. -/
theorem copy_apply (m : BitVec w → α) (dst src : BitVec w) {n : Nat} (small : n ≤ 2 ^ w)
    (fits : n ≤ (dst - src).toNat ∨ dst = src) (a : BitVec w) :
    copy m dst src n a = if (a - dst).toNat < n then m (src + (a - dst)) else m a := by
  induction n generalizing a with
  | zero => simp [copy]
  | succ n ih =>
      have still : n ≤ (dst - src).toNat ∨ dst = src := fits.imp_left (by omega)
      by_cases here : a = dst + BitVec.ofNat w n
      · have far := (eq_add_iff a dst (by omega)).mp here
        have step : a - dst = BitVec.ofNat w n := by
          apply BitVec.eq_of_toNat_eq
          rw [far, BitVec.toNat_ofNat, Nat.mod_eq_of_lt (by omega)]
        have unread := source_distance dst src (n := n) (fits.imp_left (by omega)) (by omega)
        rw [copy, here, Function.update_self, ← here, if_pos (by omega), step,
          copy_outside m dst src (by omega) unread]
      · have far : (a - dst).toNat ≠ n := fun hit => here ((eq_add_iff a dst (by omega)).mpr hit)
        rw [copy, Function.update_of_ne here, ih (by omega) still a]
        have same : (a - dst).toNat < n + 1 ↔ (a - dst).toNat < n := by omega
        simp only [same]

/-- A forward copy to a place inside its own source repeats the cells before that place. -/
theorem copy_cycle (m : BitVec w → α) (src : BitVec w) {d n i : Nat} (pos : 0 < d)
    (small : n + d ≤ 2 ^ w) (inside : i < n) :
    copy m (src + BitVec.ofNat w d) src n (src + BitVec.ofNat w d + BitVec.ofNat w i)
      = m (src + BitVec.ofNat w (i % d)) := by
  induction n generalizing i with
  | zero => omega
  | succ n ih =>
      by_cases last : i = n
      · subst last
        rw [copy, Function.update_self]
        rcases Nat.lt_or_ge i d with fresh | reread
        · have place : (src + BitVec.ofNat w d - src).toNat = d := by
            rw [BitVec.add_comm, BitVec.add_sub_cancel, BitVec.toNat_ofNat,
              Nat.mod_eq_of_lt (by omega)]
          have unread := source_distance (src + BitVec.ofNat w d) src (n := i)
            (Or.inl (by omega)) (by omega)
          rw [copy_outside m _ src (by omega) unread, Nat.mod_eq_of_lt fresh]
        · have back : src + BitVec.ofNat w i = src + BitVec.ofNat w d + BitVec.ofNat w (i - d) := by
            rw [BitVec.add_assoc, ← BitVec.ofNat_add, Nat.add_sub_cancel' reread]
          rw [back, ih (by omega) (by omega), ← Nat.mod_eq_sub_mod reread]
      · have other : src + BitVec.ofNat w d + BitVec.ofNat w i ≠
            src + BitVec.ofNat w d + BitVec.ofNat w n := by
          intro hit
          have far := (eq_add_iff _ _ (by omega)).mp hit
          rw [BitVec.add_comm _ (BitVec.ofNat w i), BitVec.add_sub_cancel, BitVec.toNat_ofNat,
            Nat.mod_eq_of_lt (by omega)] at far
          exact last far
        rw [copy, Function.update_of_ne other]
        exact ih (by omega) (by omega)

/-! ## Fills -/

theorem fill_apply (m : BitVec w → α) (dst : BitVec w) (c : α) {n : Nat} (small : n ≤ 2 ^ w)
    (a : BitVec w) : fill m dst c n a = if (a - dst).toNat < n then c else m a := by
  induction n with
  | zero => simp [fill]
  | succ n ih =>
      by_cases here : a = dst + BitVec.ofNat w n
      · have far := (eq_add_iff a dst (by omega)).mp here
        rw [fill, here, Function.update_self, ← here, if_pos (by omega)]
      · have far : (a - dst).toNat ≠ n := fun hit => here ((eq_add_iff a dst (by omega)).mpr hit)
        have same : (a - dst).toNat < n + 1 ↔ (a - dst).toNat < n := by omega
        rw [fill, Function.update_of_ne here, ih (by omega)]
        simp only [same]

end NpcMachine.Machine
