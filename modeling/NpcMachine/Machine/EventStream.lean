/-
# Machine.EventStream -- streams of events that may end

A model that is stepped until it refuses is seen from outside as the stream of the
events it gave.  A stream has no event behind its end, and its length may be infinite.

* `unfold_succ`: the stream of a machine is its first event and the stream of what the
  step leaves;
* `le_length`, `length_of_ended`: the length from the events that are there.
-/
import Mathlib.Data.ENat.Lattice

namespace NpcMachine.Machine

set_option autoImplicit false

variable {σ α : Type}

structure EventStream (α : Type) where
  get : Nat → Option α
  ends : ∀ k, get k = none → get (k + 1) = none

namespace EventStream

/-! ## The stream of a machine -/

/-- The events of a machine up to its first refusal. -/
def events (step : σ → Option α × σ) : σ → Nat → Option α
  | s, 0 => (step s).1
  | s, k + 1 => if (step s).1.isSome then events step (step s).2 k else none

theorem events_ends (step : σ → Option α × σ) (s : σ) (k : Nat)
    (ended : events step s k = none) : events step s (k + 1) = none := by
  induction k generalizing s with
  | zero =>
      rw [events] at ended
      rw [events, ended]
      rfl
  | succ k ih =>
      rw [events] at ended
      rw [events]
      cases first : (step s).1 with
      | none => rfl
      | some a =>
          rw [first] at ended
          exact ih _ ended

def unfold (step : σ → Option α × σ) (s : σ) : EventStream α where
  get := events step s
  ends := events_ends step s

theorem unfold_succ {step : σ → Option α × σ} {s : σ} {a : α} (first : (step s).1 = some a)
    (k : Nat) : (unfold step s).get (k + 1) = (unfold step (step s).2).get k := by
  show events step s (k + 1) = _
  rw [events, first]
  rfl

/-! ## The length -/

variable {r : EventStream α} {m k : Nat}

theorem ended_of_le (ended : r.get m = none) (behind : m ≤ k) : r.get k = none := by
  induction k, behind using Nat.le_induction with
  | base => exact ended
  | succ k _ ih => exact r.ends k ih

noncomputable def length (r : EventStream α) : ℕ∞ := ⨅ k : {k : Nat // r.get k = none}, (k : ℕ∞)

theorem le_length (there : ∀ j, j < m → r.get j ≠ none) : (m : ℕ∞) ≤ r.length := by
  refine le_iInf fun k => ?_
  rw [Nat.cast_le]
  by_contra early
  exact there k (Nat.lt_of_not_le early) k.2

theorem length_of_ended (there : ∀ j, j < m → r.get j ≠ none) (ended : r.get m = none) :
    r.length = m :=
  le_antisymm (iInf_le (fun k : {k : Nat // r.get k = none} => (k : ℕ∞)) ⟨m, ended⟩)
    (le_length there)

end EventStream

end NpcMachine.Machine
