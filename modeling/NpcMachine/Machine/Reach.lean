/-
# Machine.Reach -- where a program leads

A machine that may refuse to go on is a step function `σ → Option σ`.  `Reaches step Q s`
says that from `s` it goes on until `Q`, in finitely many steps: the total-correctness
triple of a program whose control flow is a program counter.

* `Reaches.step`: one step;
* `Reaches.simulate`: a machine that simulates another one reaches what that one reaches;
* `Reaches.iterate`: so does the machine that stays where it refuses to go on.
-/
import Mathlib.Logic.Function.Iterate

namespace NpcMachine.Machine

set_option autoImplicit false

variable {σ τ : Type}

inductive Reaches (step : σ → Option σ) (Q : σ → Prop) : σ → Prop where
  | here {s : σ} (holds : Q s) : Reaches step Q s
  | step {s next : σ} (goes : step s = some next) (rest : Reaches step Q next) : Reaches step Q s

namespace Reaches

variable {step : σ → Option σ} {Q : σ → Prop} {s : σ}

/-- The steps of `other` follow those of `step`. -/
theorem simulate {other : τ → Option τ} {R : σ → τ → Prop} {t : τ} (related : R s t)
    (follows : ∀ s t next, R s t → step s = some next → ∃ after, other t = some after ∧ R next after)
    (reaches : Reaches step Q s) : Reaches other (fun u => ∃ v, R v u ∧ Q v) t := by
  induction reaches generalizing t with
  | here holds => exact .here ⟨_, related, holds⟩
  | step goes _ ih =>
      obtain ⟨after, moves, kept⟩ := follows _ _ _ related goes
      exact .step moves (ih kept)

/-- What is reached is met by the machine that stays where it refuses to go on. -/
theorem iterate (reaches : Reaches step Q s) : ∃ n, Q ((fun t => (step t).getD t)^[n] s) := by
  induction reaches with
  | here holds => exact ⟨0, holds⟩
  | step goes _ ih =>
      obtain ⟨n, holds⟩ := ih
      refine ⟨n + 1, ?_⟩
      rw [Function.iterate_succ_apply, goes]
      exact holds

end Reaches

end NpcMachine.Machine
