/-
# Machine.Run -- runs of a clocked machine

A machine is a step function `σ → ι → σ`; an environment is a stream of inputs.
`run` is the state after `n` steps.  `watch` folds an observer along a run: it
sees the state and the input of every step and never influences them, so ghost
state and history live outside the machine they are about.  `log` is the observer
that collects events.

* `run_invariant`: what the start has and a step keeps, every state of the run has;
* `run_holds_iff`: the same in both directions, with a condition on each step;
* `run_meets_iff`: two tests of a step that an invariant makes equal are met along the
  same runs, where one of them keeps the invariant;
* `run_related`: two machines whose steps keep a relation run in step;
* `run_project`: a component whose step reads only its own state and what the
  whole feeds it runs as a machine of its own;
* `log_succ`: one more step appends at most one event;
* `firstAt_succ_iff`: the first place where a test answers, one place later.
-/
import Mathlib.Logic.Function.Iterate
import Mathlib.Data.List.Basic

namespace NpcMachine.Machine

set_option autoImplicit false

variable {σ τ ι κ γ ε : Type}

/-! ## Runs -/

/-- The state after `n` steps from `s` under the inputs `ins`. -/
def run (step : σ → ι → σ) (s : σ) (ins : Nat → ι) : Nat → σ
  | 0 => s
  | n + 1 => step (run step s ins n) (ins n)

@[simp] theorem run_zero (step : σ → ι → σ) (s : σ) (ins : Nat → ι) : run step s ins 0 = s := rfl

theorem run_succ (step : σ → ι → σ) (s : σ) (ins : Nat → ι) (n : Nat) :
    run step s ins (n + 1) = step (run step s ins n) (ins n) := rfl

theorem run_invariant {step : σ → ι → σ} {s : σ} {ins : Nat → ι} {Inv : σ → Prop}
    (start : Inv s) (kept : ∀ n, Inv (run step s ins n) → Inv (run step s ins (n + 1))) :
    ∀ n, Inv (run step s ins n)
  | 0 => start
  | n + 1 => kept n (run_invariant start kept n)

/-- Where a step keeps `P` exactly under a condition, a run keeps it exactly under the
condition of each step. -/
theorem run_holds_iff {step : σ → ι → σ} {s : σ} {ins : Nat → ι} {P : σ → Prop}
    {C : σ → ι → Prop} {n : Nat}
    (step_iff : ∀ k, k < n → P (run step s ins k) →
      (P (run step s ins (k + 1)) ↔ C (run step s ins k) (ins k))) :
    (∀ k, k ≤ n → P (run step s ins k)) ↔ P s ∧ ∀ k, k < n → C (run step s ins k) (ins k) := by
  constructor
  · intro holds
    refine ⟨holds 0 (Nat.zero_le n), fun k below => ?_⟩
    exact (step_iff k below (holds k (Nat.le_of_lt below))).mp (holds (k + 1) below)
  · rintro ⟨start, meets⟩ k
    induction k with
    | zero => exact fun _ => start
    | succ k ih =>
        intro below
        exact (step_iff k below (ih (Nat.le_of_lt below))).mpr (meets k below)

/-- Where the invariant makes two tests of a step equal and one keeps it, the same runs
meet both at each step. -/
theorem run_meets_iff {step : σ → ι → σ} {s : σ} {ins : Nat → ι} (Inv : σ → Prop)
    {P C : σ → ι → Prop} (start : Inv s) (step_iff : ∀ s i, Inv s → (P s i ↔ C s i))
    (kept : ∀ s i, Inv s → C s i → Inv (step s i)) (n : Nat) :
    (∀ k, k < n → P (run step s ins k) (ins k)) ↔ ∀ k, k < n → C (run step s ins k) (ins k) := by
  induction n with
  | zero => simp
  | succ n ih =>
      have reached : (∀ k, k < n → C (run step s ins k) (ins k)) → Inv (run step s ins n) := by
        intro meets
        have along : ∀ k, k ≤ n → Inv (run step s ins k) := by
          intro k
          induction k with
          | zero => exact fun _ => start
          | succ k earlier => exact fun below => kept _ _ (earlier (by omega)) (meets k below)
        exact along n (Nat.le_refl n)
      constructor
      · intro passes k below
        have before := ih.mp fun j lower => passes j (by omega)
        rcases Nat.lt_succ_iff_lt_or_eq.mp below with earlier | rfl
        · exact before k earlier
        · exact (step_iff _ _ (reached before)).mp (passes k below)
      · intro meets k below
        have before : ∀ j, j < n → C (run step s ins j) (ins j) := fun j lower => meets j (by omega)
        rcases Nat.lt_succ_iff_lt_or_eq.mp below with earlier | rfl
        · exact ih.mpr before k earlier
        · exact (step_iff _ _ (reached before)).mpr (meets k below)

/-- Two machines under the same inputs stay related. -/
theorem run_related {step : σ → ι → σ} {other : τ → ι → τ} {s : σ} {t : τ} {ins : Nat → ι}
    {R : σ → τ → Prop} (start : R s t)
    (kept : ∀ n s t, R s t → R (step s (ins n)) (other t (ins n))) :
    ∀ n, R (run step s ins n) (run other t ins n)
  | 0 => start
  | n + 1 => kept n _ _ (run_related start kept n)

/-- The component `π` of a machine runs as a machine of its own, under the inputs
that the whole feeds it. -/
theorem run_project {step : σ → ι → σ} {sub : τ → κ → τ} {π : σ → τ} {feed : σ → ι → κ}
    (step_project : ∀ s i, π (step s i) = sub (π s) (feed s i))
    (s : σ) (ins : Nat → ι) (n : Nat) :
    π (run step s ins n) = run sub (π s) (fun k => feed (run step s ins k) (ins k)) n := by
  induction n with
  | zero => rfl
  | succ n ih => rw [run_succ, step_project, run_succ, ih]

/-! ## Closed loops -/

/-- The state after `n` steps when the inputs answer the state. -/
def closed (step : σ → ι → σ) (answer : Nat → σ → ι) (s : σ) : Nat → σ
  | 0 => s
  | n + 1 => step (closed step answer s n) (answer n (closed step answer s n))

/-- The input stream of a closed loop. -/
def feedback (step : σ → ι → σ) (answer : Nat → σ → ι) (s : σ) (n : Nat) : ι :=
  answer n (closed step answer s n)

theorem run_feedback (step : σ → ι → σ) (answer : Nat → σ → ι) (s : σ) (n : Nat) :
    run step s (feedback step answer s) n = closed step answer s n := by
  induction n with
  | zero => rfl
  | succ n ih => rw [run_succ, ih, feedback, closed]

/-! ## Observers -/

/-- The observer `g`, updated on every step of the run. -/
def watch (step : σ → ι → σ) (update : γ → σ → ι → γ) (g : γ) (s : σ) (ins : Nat → ι) : Nat → γ
  | 0 => g
  | n + 1 => update (watch step update g s ins n) (run step s ins n) (ins n)

/-! ## Event logs -/

/-- The events of the first `n` steps, oldest first. -/
def log (event : σ → ι → Option ε) (step : σ → ι → σ) (s : σ) (ins : Nat → ι) (n : Nat) : List ε :=
  (List.range n).filterMap fun k => event (run step s ins k) (ins k)

@[simp] theorem log_zero (event : σ → ι → Option ε) (step : σ → ι → σ) (s : σ) (ins : Nat → ι) :
    log event step s ins 0 = [] := rfl

theorem log_succ (event : σ → ι → Option ε) (step : σ → ι → σ) (s : σ) (ins : Nat → ι)
    (n : Nat) :
    log event step s ins (n + 1) =
      log event step s ins n ++ (event (run step s ins n) (ins n)).toList := by
  unfold log
  rw [List.range_succ, List.filterMap_append]
  cases found : event (run step s ins n) (ins n) <;> simp [found]

/-- An event that repeats another one step later logs the same list. -/
theorem log_delayed {late early : σ → ι → Option ε} {step : σ → ι → σ} {s : σ} {ins : Nat → ι}
    (start : late s (ins 0) = none)
    (delayed : ∀ n, late (run step s ins (n + 1)) (ins (n + 1)) = early (run step s ins n) (ins n))
    (n : Nat) : log late step s ins (n + 1) = log early step s ins n := by
  induction n with
  | zero => rw [log_succ, log_zero, run_zero, start]; rfl
  | succ n ih => rw [log_succ, ih, delayed, ← log_succ]

/-! ## First answers -/

/-- The test `f` answers `a` at `n` and nothing before. -/
def FirstAt (f : Nat → Option γ) (a : γ) (n : Nat) : Prop := f n = some a ∧ ∀ k, k < n → f k = none

theorem firstAt_zero_iff {f : Nat → Option γ} {a : γ} : FirstAt f a 0 ↔ f 0 = some a :=
  ⟨And.left, fun answers => ⟨answers, fun _ below => absurd below (Nat.not_lt_zero _)⟩⟩

theorem firstAt_succ_iff {f : Nat → Option γ} {a : γ} (silent : f 0 = none) {n : Nat} :
    FirstAt f a (n + 1) ↔ FirstAt (fun k => f (k + 1)) a n := by
  constructor
  · rintro ⟨answers, before⟩
    exact ⟨answers, fun k below => before (k + 1) (Nat.succ_lt_succ below)⟩
  · rintro ⟨answers, before⟩
    refine ⟨answers, fun k below => ?_⟩
    cases k with
    | zero => exact silent
    | succ k => exact before k (Nat.lt_of_succ_lt_succ below)

/-- Behind an answer there is no first one. -/
theorem FirstAt.le {f : Nat → Option γ} {a b : γ} {n m : Nat} (first : FirstAt f a n)
    (answers : f m = some b) : n ≤ m := by
  by_contra behind
  rw [first.2 m (Nat.not_le.mp behind)] at answers
  cases answers

theorem FirstAt.eq {f : Nat → Option γ} {a b : γ} {n m : Nat} (first : FirstAt f a n)
    (other : FirstAt f b m) : n = m :=
  Nat.le_antisymm (first.le other.1) (other.le first.1)

end NpcMachine.Machine
