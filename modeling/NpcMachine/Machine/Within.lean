/-
# Machine.Within -- bounded liveness

`Within step n Q s`: from `s` the machine is in a state with `Q` after at most `n` steps.

* `Within.of_rank`: a rank that falls until `Q` bounds the wait by its first value;
* `nth_within`: what recurs with gaps of at most `d` occurs for the `k`-th time within
  `k * (d + 1) + d`.
-/
import Mathlib.Logic.Function.Iterate
import Mathlib.Data.Nat.Count

namespace NpcMachine.Machine

set_option autoImplicit false

variable {σ : Type}

def Within (step : σ → σ) (n : Nat) (Q : σ → Prop) (s : σ) : Prop := ∃ k, k ≤ n ∧ Q (step^[k] s)

namespace Within

variable {step : σ → σ} {Q : σ → Prop} {s : σ} {m n : Nat}

theorem here (holds : Q s) : Within step n Q s := ⟨0, Nat.zero_le n, holds⟩

theorem next (later : Within step n Q (step s)) : Within step (n + 1) Q s := by
  obtain ⟨k, early, holds⟩ := later
  exact ⟨k + 1, Nat.succ_le_succ early, holds⟩

theorem mono (within : Within step m Q s) (le : m ≤ n) : Within step n Q s := by
  obtain ⟨k, early, holds⟩ := within
  exact ⟨k, Nat.le_trans early le, holds⟩

/-- A rank that every step lowers, under an invariant, until `Q` holds. -/
theorem of_rank {Inv : σ → Prop} (rank : σ → Nat)
    (falls : ∀ t, Inv t → ¬ Q t → Inv (step t) ∧ rank (step t) < rank t) (start : Inv s) :
    Within step (rank s) Q s := by
  induction bound : rank s using Nat.strongRecOn generalizing s with
  | ind r ih =>
      by_cases done : Q s
      · exact here done
      · obtain ⟨kept, lower⟩ := falls s start done
        rw [bound] at lower
        exact (ih (rank (step s)) lower kept rfl).next.mono lower

end Within

/-! ## What recurs -/

section Recurs

variable {f : Nat → Prop} [DecidablePred f] {d : Nat}

/-- The first occurrence behind `t` counts those before `t`. -/
theorem first_within {t : Nat} (recurs : ∃ j, j ≤ d ∧ f (t + j)) :
    ∃ u, u ≤ t + d ∧ f u ∧ Nat.count f u = Nat.count f t := by
  obtain ⟨j, near, holds⟩ := recurs
  have some_ : ∃ j, f (t + j) := ⟨j, holds⟩
  have least := Nat.find_min' some_ holds
  refine ⟨t + Nat.find some_, by omega, Nat.find_spec some_, ?_⟩
  have none : Nat.count (fun i => f (t + i)) (Nat.find some_) = 0 := by
    rw [Nat.count_iff_forall_not]
    exact fun i before => Nat.find_min some_ before
  rw [Nat.count_add, none, Nat.add_zero]

/-- What recurs until its occurrence with number `k`. -/
theorem nth_within {k : Nat} (recurs : ∀ t, t ≤ k * (d + 1) → Nat.count f t ≤ k →
    ∃ j, j ≤ d ∧ f (t + j)) : ∃ t, t ≤ k * (d + 1) + d ∧ f t ∧ Nat.count f t = k := by
  induction k with
  | zero =>
      obtain ⟨u, near, holds, count⟩ := first_within (recurs 0 (by omega) (Nat.count_zero f).le)
      exact ⟨u, by omega, holds, count.trans (Nat.count_zero f)⟩
  | succ k ih =>
      rw [Nat.succ_mul] at recurs ⊢
      obtain ⟨t, bound, holds, count⟩ := ih fun t early le => recurs t (by omega) (by omega)
      have behind : Nat.count f (t + 1) = k + 1 := by
        rw [Nat.count_succ, count, if_pos holds]
      obtain ⟨u, near, again, same⟩ := first_within (recurs (t + 1) (by omega) behind.le)
      exact ⟨u, by omega, again, same.trans behind⟩

/-- The occurrence with number `k`, when there are more. -/
theorem exists_of_lt_count {k n : Nat} (more : k < Nat.count f n) :
    ∃ b, b < n ∧ f b ∧ Nat.count f b = k := by
  induction n with
  | zero => simp at more
  | succ n ih =>
      by_cases earlier : k < Nat.count f n
      · obtain ⟨b, before, holds, count⟩ := ih earlier
        exact ⟨b, Nat.lt_succ_of_lt before, holds, count⟩
      · rw [Nat.count_succ] at more
        split_ifs at more with holds
        · exact ⟨n, Nat.lt_succ_self n, holds, by omega⟩
        · omega

end Recurs

end NpcMachine.Machine
