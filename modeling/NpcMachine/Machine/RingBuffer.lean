/-
# Machine.RingBuffer -- the last entries of a history in a ring of slots

A ring of `size` slots is written at `head`, which wraps, and `full` is set at the first
wrap.  `Holds` says which history a ring stands for: what was written since it was emptied,
newest first.  Emptying moves no slot, and a full ring writes over its oldest entry, so the
slots are the history only for its first `size` entries.

* `holds_clear`, `Holds.push`: emptying and writing are `[]` and `::` on the history;
* `Holds.newest_eq`: reading backwards from `head` gives the first entries of the history.
-/
import Mathlib.Logic.Function.Basic
import Mathlib.Data.List.Basic

namespace NpcMachine.Machine

set_option autoImplicit false

variable {α : Type}

structure RingBuffer (α : Type) where
  slot : Nat → α
  head : Nat
  full : Bool

namespace RingBuffer

/-! ## Slots behind the head -/

/-- The slot written `i + 1` writes ago. -/
def behind (size head i : Nat) : Nat := (head + size - 1 - i) % size

theorem behind_eq {size head i : Nat} (inside : head < size) (near : i < size) :
    behind size head i = if i < head then head - 1 - i else head + size - 1 - i := by
  unfold behind
  split_ifs with earlier
  · have wraps : head + size - 1 - i = head - 1 - i + size := by omega
    rw [wraps, Nat.add_mod_right, Nat.mod_eq_of_lt (by omega)]
  · rw [Nat.mod_eq_of_lt (by omega)]

theorem succ_mod_eq {size head : Nat} (inside : head < size) :
    (head + 1) % size = if head + 1 = size then 0 else head + 1 := by
  split_ifs with last
  · rw [last, Nat.mod_self]
  · rw [Nat.mod_eq_of_lt (by omega)]

theorem behind_zero {size head : Nat} (inside : head < size) :
    behind size ((head + 1) % size) 0 = head := by
  have below : (head + 1) % size < size := Nat.mod_lt _ (by omega)
  rw [behind_eq below (by omega), succ_mod_eq inside]
  split_ifs <;> omega

/-- A write moves every earlier one further behind. -/
theorem behind_succ {size head i : Nat} (inside : head < size) (near : i + 1 < size) :
    behind size ((head + 1) % size) (i + 1) = behind size head i := by
  have below : (head + 1) % size < size := Nat.mod_lt _ (by omega)
  rw [behind_eq below near, behind_eq inside (by omega), succ_mod_eq inside]
  split_ifs <;> omega

/-- The slot at the head is the oldest one. -/
theorem behind_ne {size head i : Nat} (inside : head < size) (near : i + 1 < size) :
    behind size head i ≠ head := by
  rw [behind_eq inside (by omega)]
  split_ifs <;> omega

/-! ## Operations -/

variable (size : Nat) (r : RingBuffer α)

/-- The slots stay. -/
def clear : RingBuffer α := { r with head := 0, full := false }

def push (a : α) : RingBuffer α where
  slot := Function.update r.slot r.head a
  head := (r.head + 1) % size
  full := if (r.head + 1) % size = 0 then true else r.full

def count : Nat := if r.full then size else r.head

/-- The last `n` entries, newest first. -/
def newest (n : Nat) : List α :=
  (List.range (min (min n size) (r.count size))).map fun i => r.slot (behind size r.head i)

/-! ## The history of a ring -/

structure Holds (history : List α) : Prop where
  head : r.head = history.length % size
  full : r.full = true ↔ size ≤ history.length
  slot : ∀ i (old : i < history.length), i < size → r.slot (behind size r.head i) = history[i]

variable {size r} {history : List α}

theorem holds_clear (room : 0 < size) (r : RingBuffer α) : r.clear.Holds size [] where
  head := (Nat.zero_mod size).symm
  full := by
    simp only [clear, List.length_nil, Nat.le_zero]
    constructor
    · intro full
      cases full
    · intro none
      omega
  slot := by
    intro i old
    cases old

theorem Holds.push (room : 0 < size) (holds : r.Holds size history) (a : α) :
    (r.push size a).Holds size (a :: history) where
  head := by
    show (r.head + 1) % size = (history.length + 1) % size
    rw [holds.head, Nat.mod_add_mod]
  full := by
    show (if (r.head + 1) % size = 0 then true else r.full) = true ↔ size ≤ history.length + 1
    rw [holds.head, Nat.mod_add_mod]
    split_ifs with wraps
    · have divides : size ∣ history.length + 1 := Nat.dvd_of_mod_eq_zero wraps
      simpa using Nat.le_of_dvd (Nat.succ_pos _) divides
    · have other : size ≠ history.length + 1 := by
        intro same
        rw [← same, Nat.mod_self] at wraps
        exact wraps rfl
      rw [holds.full]
      omega
  slot := by
    intro i old near
    have inside : r.head < size := by
      rw [holds.head]
      exact Nat.mod_lt _ room
    show Function.update r.slot r.head a (behind size ((r.head + 1) % size) i) = (a :: history)[i]
    cases i with
    | zero => rw [behind_zero inside, Function.update_self, List.getElem_cons_zero]
    | succ i =>
        rw [behind_succ inside near, Function.update_of_ne (behind_ne inside near),
          List.getElem_cons_succ]
        exact holds.slot i (Nat.lt_of_succ_lt_succ old) (Nat.lt_of_succ_lt near)

theorem Holds.count_eq (holds : r.Holds size history) :
    r.count size = min size history.length := by
  unfold count
  split_ifs with full
  · rw [Nat.min_eq_left (holds.full.mp full)]
  · have short : history.length < size := by
      rw [holds.full] at full
      omega
    rw [holds.head, Nat.mod_eq_of_lt short, Nat.min_eq_right (Nat.le_of_lt short)]

/-- What a ring answers is the front of its history. -/
theorem Holds.newest_eq (holds : r.Holds size history) (n : Nat) :
    r.newest size n = history.take (min n (min size history.length)) := by
  have length : min (min n size) (min size history.length) =
      min n (min size history.length) := by omega
  unfold newest
  rw [holds.count_eq, length]
  apply List.ext_getElem
  · simp only [List.length_map, List.length_range, List.length_take]
    omega
  · intro i left right
    have below : i < min n (min size history.length) := by simpa using left
    rw [List.getElem_map, List.getElem_range, List.getElem_take]
    exact holds.slot i (by omega) (by omega)

end RingBuffer

end NpcMachine.Machine
