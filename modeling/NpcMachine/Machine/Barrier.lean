/-
# Machine.Barrier -- values that are read ahead of their turn

A reader takes the value of a location before its turn in the order of events; writes
of older events may still come, and a barrier is meant to wait for them.  A `Timeline`
says what each location holds at each turn, when it is written and where the barriers
are.  `Known d n a v` is what a reader `d` turns ahead of turn `n` has: the value that
`a` holds at its own turn `n + d`, or a write that no barrier follows.

* `Known.next`: a turn keeps this if no reader passes a barrier with an old value;
* `Known.holds`: at its turn the reader has the current value, unless a write is unfenced.
-/

namespace NpcMachine.Machine

set_option autoImplicit false

structure Timeline (α β : Type) where
  holds : Nat → α → β → Prop
  writes : Nat → α → Prop
  barrier : Nat → Prop
  kept : ∀ {n : Nat} {a : α} {v : β}, holds n a v → ¬ writes n a → holds (n + 1) a v

namespace Timeline

variable {α β : Type} (t : Timeline α β)

/-- A write of `a` before turn `n + d` with no barrier between it and turn `n`. -/
def Unfenced (d n : Nat) (a : α) : Prop :=
  ∃ m, m < n + d ∧ t.writes m a ∧ ∀ k, m < k → k < n → ¬ t.barrier k

def Known (d n : Nat) (a : α) (v : β) : Prop := t.holds (n + d) a v ∨ t.Unfenced d n a

variable {t} {a : α} {v : β}

/-- A value lasts until the location is written. -/
theorem holds_or_written {j : Nat} (now : t.holds j a v) (l : Nat) :
    t.holds (j + l) a v ∨ ∃ m, j ≤ m ∧ m < j + l ∧ t.writes m a := by
  induction l with
  | zero => exact Or.inl now
  | succ l ih =>
      rcases ih with same | ⟨m, late, early, written⟩
      · by_cases now : t.writes (j + l) a
        · exact Or.inr ⟨j + l, by omega, by omega, now⟩
        · exact Or.inl (t.kept same now)
      · exact Or.inr ⟨m, late, by omega, written⟩

/-- A value read at turn `j`, not before `n - 1`, is known to the readers of turn `n`. -/
theorem known_of_holds {j d n : Nat} (now : t.holds j a v) (early : j ≤ n + d)
    (late : n ≤ j + 1) : t.Known d n a v := by
  rcases holds_or_written now (n + d - j) with same | ⟨m, after, before, written⟩
  · rw [show j + (n + d - j) = n + d by omega] at same
    exact Or.inl same
  · exact Or.inr ⟨m, by omega, written, fun k _ _ => by omega⟩

/-- One turn, for a reader that stays where it is or comes one turn closer.  `clean`:
a reader that a barrier passes has the value current at the barrier. -/
theorem Known.next {d e n : Nat} (known : t.Known e n a v) (near : e ≤ d + 1)
    (clean : t.barrier n → t.holds n a v) : t.Known d (n + 1) a v := by
  by_cases fence : t.barrier n
  · exact known_of_holds (clean fence) (by omega) (by omega)
  · rcases known with now | ⟨m, before, written, open_⟩
    · exact known_of_holds now (by omega) (by omega)
    · refine Or.inr ⟨m, by omega, written, fun k after early => ?_⟩
      rcases Nat.lt_succ_iff_lt_or_eq.mp early with less | same
      · exact open_ k after less
      · rw [same]
        exact fence

theorem Known.holds {n : Nat} (known : t.Known 0 n a v) (fenced : ¬ t.Unfenced 0 n a) :
    t.holds n a v :=
  known.resolve_right fenced

end Timeline

end NpcMachine.Machine
