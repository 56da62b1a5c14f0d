/-
# Emulator.DifftestRun -- the driver of `difftest.cpp` over two arbitrary models

A model is anything with the interface of `ISS`; the driver sees it as the stream of the
events of its `step_inst`.

* `runLoop_diverges`, `runLoop_agrees`: `run` fails at the first index at which the streams
  differ, and otherwise counts the events up to the end or to `max_steps`;
* `failed_performAll`: a failure is kept, with its text, by everything but `reset`.

Log levels, checkpoints, queries of the reference model and the text on `cerr` are left
out: no verdict reads them.
-/
import NpcMachine.Emulator.Difftest
import NpcMachine.Machine.EventStream

namespace NpcMachine.Emulator

open NpcMachine.Machine

set_option autoImplicit false

variable {ρ δ σ : Type}

/-- The operations of `ISS` that the driver calls; `stepInst` gives no event when it
returns false. -/
structure Iss (σ : Type) where
  reset : U32 → σ → σ
  stepInst : σ → Option CommitEvent × σ
  writeMem : U32 → U32 → U32 → σ → σ
  loadBin : String → U32 → σ → Bool × σ
  loadElf : String → σ → Bool × σ

/-- The events of a model up to its first refusal. -/
def Iss.stream (model : Iss σ) (s : σ) : EventStream CommitEvent := .unfold model.stepInst s

structure Difftest (ρ δ : Type) where
  ref : ρ
  dut : δ
  mismatch : String
  retireIdx : BitVec 64
  stopped : Bool
  failed : Bool

namespace Difftest

/-- The constructor. -/
def create (ref : ρ) (dut : δ) : Difftest ρ δ := ⟨ref, dut, "", 0#64, false, false⟩

variable (d : Difftest ρ δ) (refModel : Iss ρ) (dutModel : Iss δ)

def setFailure (why : String) : Difftest ρ δ :=
  { d with
    mismatch := if d.mismatch.isEmpty then why else d.mismatch
    failed := true
    stopped := true }

def reset (resetAddr : U32) : Difftest ρ δ :=
  { ref := refModel.reset resetAddr d.ref
    dut := dutModel.reset resetAddr d.dut
    mismatch := ""
    retireIdx := 0#64
    stopped := false
    failed := false }

/-- The text in front of the reason of a mismatch. -/
def mismatchAt : String := "mismatch at retire_idx=" ++ toString d.retireIdx.toNat ++ " "

/-- What `step_inst` does with the answers of the two models. -/
def compare (refEv dutEv : Option CommitEvent) : Option CommitEvent × Difftest ρ δ :=
  match refEv, dutEv with
  | none, none => (none, { d with stopped := true })
  | some _, none => (none, d.setFailure (d.mismatchAt ++ "dut halted unexpectedly"))
  | none, some _ => (none, d.setFailure (d.mismatchAt ++ "reference halted unexpectedly"))
  | some a, some b =>
      match eventsMismatch a b with
      | some mismatch => (none, d.setFailure (d.mismatchAt ++ mismatch.why a b))
      | none => (some a, { d with retireIdx := d.retireIdx + 1#64 })

def stepInst : Option CommitEvent × Difftest ρ δ :=
  if d.stopped then (none, d)
  else
    compare { d with ref := (refModel.stepInst d.ref).2, dut := (dutModel.stepInst d.dut).2 }
      (refModel.stepInst d.ref).1 (dutModel.stepInst d.dut).1

def writeMem (addr size data : U32) : Difftest ρ δ :=
  { d with
    ref := refModel.writeMem addr size data d.ref
    dut := dutModel.writeMem addr size data d.dut }

def loadBin (path : String) (addr : U32) : Bool × Difftest ρ δ :=
  let ref := refModel.loadBin path addr d.ref
  let dut := dutModel.loadBin path addr d.dut
  let loaded := { d with ref := ref.2, dut := dut.2 }
  (ref.1 && dut.1,
    if ref.1 ≠ dut.1 then loaded.setFailure ("load_bin result mismatch for " ++ path) else loaded)

def loadElf (path : String) : Bool × Difftest ρ δ :=
  let ref := refModel.loadElf path d.ref
  let dut := dutModel.loadElf path d.dut
  let loaded := { d with ref := ref.2, dut := dut.2 }
  (ref.1 && dut.1,
    if ref.1 ≠ dut.1 then loaded.setFailure ("load_elf result mismatch for " ++ path) else loaded)

/-- The loop of `run` with `n` steps to go. -/
def runLoop (refModel : Iss ρ) (dutModel : Iss δ) : Nat → Difftest ρ δ → Bool × Difftest ρ δ
  | 0, d => (true, d)
  | n + 1, d =>
      match d.stepInst refModel dutModel with
      | (none, d) => (!d.failed, d)
      | (some _, d) => runLoop refModel dutModel n d

def run (maxSteps : BitVec 64) : Bool × Difftest ρ δ :=
  d.runLoop refModel dutModel maxSteps.toNat

/-! ## One step -/

variable {d refModel dutModel}

/-- The driver still compares. -/
structure Comparing (d : Difftest ρ δ) : Prop where
  stopped : d.stopped = false
  failed : d.failed = false

theorem comparing_create (ref : ρ) (dut : δ) : Comparing (create ref dut) := ⟨rfl, rfl⟩

/-- A step on agreeing events retires them. -/
theorem stepInst_retires (comparing : Comparing d) {a b : CommitEvent}
    (refEv : (refModel.stepInst d.ref).1 = some a) (dutEv : (dutModel.stepInst d.dut).1 = some b)
    (agree : EventsAgree (some a) (some b)) :
    d.stepInst refModel dutModel = (some a,
      { d with
        ref := (refModel.stepInst d.ref).2
        dut := (dutModel.stepInst d.dut).2
        retireIdx := d.retireIdx + 1#64 }) := by
  cases agree with
  | some matched =>
      have same : eventsMismatch a b = none := by simpa [eventsMatch] using matched
      rw [stepInst, comparing.stopped, if_neg (by decide), refEv, dutEv, compare, same]

/-- A step on two refusals stops without a failure. -/
theorem stepInst_stops (comparing : Comparing d) (refEv : (refModel.stepInst d.ref).1 = none)
    (dutEv : (dutModel.stepInst d.dut).1 = none) :
    ∃ after, d.stepInst refModel dutModel = (none, after) ∧ after.failed = false ∧
      after.retireIdx = d.retireIdx := by
  rw [stepInst, comparing.stopped, if_neg (by decide), refEv, dutEv, compare]
  exact ⟨_, rfl, comparing.failed, rfl⟩

/-- A step on answers that do not agree fails. -/
theorem stepInst_fails (comparing : Comparing d)
    (differ : ¬ EventsAgree (refModel.stepInst d.ref).1 (dutModel.stepInst d.dut).1) :
    ∃ after, d.stepInst refModel dutModel = (none, after) ∧ after.failed = true ∧
      after.retireIdx = d.retireIdx := by
  rw [stepInst, comparing.stopped, if_neg (by decide)]
  cases refEv : (refModel.stepInst d.ref).1 with
  | none =>
      cases dutEv : (dutModel.stepInst d.dut).1 with
      | none =>
          rw [refEv, dutEv] at differ
          exact absurd .none differ
      | some b => exact ⟨_, rfl, rfl, rfl⟩
  | some a =>
      cases dutEv : (dutModel.stepInst d.dut).1 with
      | none => exact ⟨_, rfl, rfl, rfl⟩
      | some b =>
          rw [refEv, dutEv] at differ
          cases found : eventsMismatch a b with
          | none => exact absurd (.some (by simp [eventsMatch, found])) differ
          | some mismatch =>
              rw [compare, found]
              exact ⟨_, rfl, rfl, rfl⟩

/-! ## A run -/

theorem agree_of_ended {r q : EventStream CommitEvent} {m k : Nat} (refEnd : r.get m = none)
    (dutEnd : q.get m = none) (behind : m ≤ k) : EventsAgree (r.get k) (q.get k) := by
  rw [EventStream.ended_of_le refEnd behind, EventStream.ended_of_le dutEnd behind]
  exact .none

/-- A refused step ends the run; it is a success unless it failed. -/
theorem runLoop_refused {after : Difftest ρ δ}
    (step : d.stepInst refModel dutModel = (none, after)) (n : Nat) :
    d.runLoop refModel dutModel (n + 1) = (!after.failed, after) := by
  rw [runLoop, step]

/-- What the loop does once both models gave matching events. -/
theorem runLoop_retires (comparing : Comparing d) {a b : CommitEvent}
    (refEv : (refModel.stepInst d.ref).1 = some a) (dutEv : (dutModel.stepInst d.dut).1 = some b)
    (agree : EventsAgree (some a) (some b)) (n : Nat) :
    ∃ next : Difftest ρ δ, Comparing next ∧ next.retireIdx = d.retireIdx + 1#64 ∧
      d.runLoop refModel dutModel (n + 1) = next.runLoop refModel dutModel n ∧
      ∀ k, (refModel.stream d.ref).get (k + 1) = (refModel.stream next.ref).get k ∧
        (dutModel.stream d.dut).get (k + 1) = (dutModel.stream next.dut).get k := by
  refine ⟨{ d with
      ref := (refModel.stepInst d.ref).2
      dut := (dutModel.stepInst d.dut).2
      retireIdx := d.retireIdx + 1#64 }, ⟨comparing.stopped, comparing.failed⟩, rfl, ?_, ?_⟩
  · rw [runLoop, stepInst_retires comparing refEv dutEv agree]
  · intro k
    exact ⟨EventStream.unfold_succ refEv k, EventStream.unfold_succ dutEv k⟩

theorem runLoop_diverges {n k : Nat} (comparing : Comparing d) (early : k < n)
    (differ : ¬ EventsAgree ((refModel.stream d.ref).get k) ((dutModel.stream d.dut).get k))
    (before : ∀ j, j < k →
      EventsAgree ((refModel.stream d.ref).get j) ((dutModel.stream d.dut).get j)) :
    ∃ after, d.runLoop refModel dutModel n = (false, after) ∧ after.failed = true ∧
      after.retireIdx = d.retireIdx + BitVec.ofNat 64 k := by
  induction n generalizing d k with
  | zero => omega
  | succ n ih =>
      cases k with
      | zero =>
          obtain ⟨after, step, failed, index⟩ := stepInst_fails comparing differ
          refine ⟨after, ?_, failed, by simpa using index⟩
          rw [runLoop_refused step, failed]
          rfl
      | succ k =>
          have first := before 0 (by omega)
          rcases refEv : (refModel.stream d.ref).get 0 with _ | a
          · rcases dutEv : (dutModel.stream d.dut).get 0 with _ | b
            · exact absurd (agree_of_ended refEv dutEv (Nat.zero_le _)) differ
            · rw [refEv, dutEv] at first
              cases first
          · rcases dutEv : (dutModel.stream d.dut).get 0 with _ | b
            · rw [refEv, dutEv] at first
              cases first
            · rw [refEv, dutEv] at first
              obtain ⟨next, comparing, index, loop, tail⟩ :=
                runLoop_retires comparing refEv dutEv first n
              rw [(tail k).1, (tail k).2] at differ
              obtain ⟨after, out, failed, last⟩ := ih comparing (by omega) differ fun j below => by
                rw [← (tail j).1, ← (tail j).2]
                exact before (j + 1) (by omega)
              refine ⟨after, loop.trans out, failed, ?_⟩
              rw [last, index, BitVec.add_assoc, BitVec.ofNat_add, BitVec.add_comm 1#64]

theorem runLoop_agrees {n : Nat} (comparing : Comparing d)
    (agree : ∀ k, k < n →
      EventsAgree ((refModel.stream d.ref).get k) ((dutModel.stream d.dut).get k)) :
    ∃ m after, m ≤ n ∧ d.runLoop refModel dutModel n = (true, after) ∧ after.failed = false ∧
      after.retireIdx = d.retireIdx + BitVec.ofNat 64 m ∧
      (∀ j, j < m → (refModel.stream d.ref).get j ≠ none ∧ (dutModel.stream d.dut).get j ≠ none) ∧
      (m = n ∨ ((refModel.stream d.ref).get m = none ∧ (dutModel.stream d.dut).get m = none)) := by
  induction n generalizing d with
  | zero =>
      refine ⟨0, d, Nat.le_refl 0, rfl, comparing.failed, by simp, ?_, .inl rfl⟩
      intro j below
      omega
  | succ n ih =>
      have first := agree 0 (by omega)
      rcases refEv : (refModel.stream d.ref).get 0 with _ | a
      · rcases dutEv : (dutModel.stream d.dut).get 0 with _ | b
        · obtain ⟨after, step, failed, index⟩ := stepInst_stops comparing refEv dutEv
          refine ⟨0, after, Nat.zero_le _, ?_, failed, by simpa using index, ?_,
            .inr ⟨refEv, dutEv⟩⟩
          · rw [runLoop_refused step, failed]
            rfl
          · intro j below
            omega
        · rw [refEv, dutEv] at first
          cases first
      · rcases dutEv : (dutModel.stream d.dut).get 0 with _ | b
        · rw [refEv, dutEv] at first
          cases first
        · rw [refEv, dutEv] at first
          obtain ⟨next, comparing, index, loop, tail⟩ :=
            runLoop_retires comparing refEv dutEv first n
          obtain ⟨m, after, bound, out, failed, last, there, stop⟩ := ih comparing fun j below => by
            rw [← (tail j).1, ← (tail j).2]
            exact agree (j + 1) (by omega)
          refine ⟨m + 1, after, by omega, loop.trans out, failed, ?_, ?_, ?_⟩
          · rw [last, index, BitVec.add_assoc, BitVec.ofNat_add, BitVec.add_comm 1#64]
          · intro j below
            cases j with
            | zero =>
                rw [refEv, dutEv]
                exact ⟨Option.some_ne_none a, Option.some_ne_none b⟩
            | succ j =>
                rw [(tail j).1, (tail j).2]
                exact there j (by omega)
          · rw [(tail m).1, (tail m).2]
            exact stop.imp (fun all => by rw [all]) id

/-! ## Failures -/

/-- A call of the driver. -/
inductive Op where
  | reset (resetAddr : U32)
  | stepInst
  | run (maxSteps : BitVec 64)
  | writeMem (addr size data : U32)
  | loadBin (path : String) (addr : U32)
  | loadElf (path : String)
  deriving DecidableEq, Repr

def perform (refModel : Iss ρ) (dutModel : Iss δ) (d : Difftest ρ δ) : Op → Difftest ρ δ
  | .reset resetAddr => d.reset refModel dutModel resetAddr
  | .stepInst => (d.stepInst refModel dutModel).2
  | .run maxSteps => (d.run refModel dutModel maxSteps).2
  | .writeMem addr size data => d.writeMem refModel dutModel addr size data
  | .loadBin path addr => (d.loadBin refModel dutModel path addr).2
  | .loadElf path => (d.loadElf refModel dutModel path).2

def performAll (refModel : Iss ρ) (dutModel : Iss δ) (d : Difftest ρ δ) (ops : List Op) :
    Difftest ρ δ :=
  ops.foldl (perform refModel dutModel) d

def Op.isReset : Op → Bool
  | .reset _ => true
  | _ => false

/-- A recorded failure: the driver has stopped, and the text is there. -/
structure Failed (d : Difftest ρ δ) (why : String) : Prop where
  failed : d.failed = true
  stopped : d.stopped = true
  mismatch : d.mismatch = why
  recorded : why.isEmpty = false

/-- Every failure is a recorded one. -/
def FailuresRecorded (d : Difftest ρ δ) : Prop := d.failed = true → Failed d d.mismatch

theorem stepInst_stopped (stopped : d.stopped = true) :
    d.stepInst refModel dutModel = (none, d) := by
  rw [stepInst, if_pos stopped]

theorem runLoop_stopped (stopped : d.stopped = true) (n : Nat) :
    (d.runLoop refModel dutModel n).2 = d := by
  cases n with
  | zero => rfl
  | succ n => rw [runLoop_refused (stepInst_stopped stopped)]

theorem failuresRecorded_setFailure {why : String} (text : why.isEmpty = false) :
    FailuresRecorded (d.setFailure why) := by
  refine fun _ => ⟨rfl, rfl, rfl, ?_⟩
  show (if d.mismatch.isEmpty then why else d.mismatch).isEmpty = false
  split_ifs with empty
  · exact text
  · simpa using empty

/-- The fields that a failure does not read. -/
theorem failuresRecorded_of_same {other : Difftest ρ δ} (keeps : FailuresRecorded d)
    (failed : other.failed = d.failed) (stopped : other.stopped = d.stopped)
    (mismatch : other.mismatch = d.mismatch) : FailuresRecorded other := by
  intro fails
  have recorded := keeps (failed ▸ fails)
  rw [mismatch]
  exact ⟨fails, stopped.trans recorded.stopped, mismatch, recorded.recorded⟩

theorem text_isEmpty {head : String} (text : head.isEmpty = false) (tail : String) :
    (head ++ tail).isEmpty = false := by
  simp only [String.isEmpty_eq_false_iff, ne_eq, String.append_eq_empty_iff] at text ⊢
  exact fun both => text both.1

theorem mismatchAt_isEmpty (d : Difftest ρ δ) (tail : String) :
    (d.mismatchAt ++ tail).isEmpty = false :=
  text_isEmpty (text_isEmpty (text_isEmpty (by decide) _) _) _

theorem failuresRecorded_compare (keeps : FailuresRecorded d) (refEv dutEv : Option CommitEvent) :
    FailuresRecorded (d.compare refEv dutEv).2 := by
  cases refEv with
  | none =>
      cases dutEv with
      | none =>
          intro failed
          have recorded := keeps failed
          exact ⟨failed, rfl, rfl, recorded.recorded⟩
      | some b =>
          simp only [compare]
          exact failuresRecorded_setFailure (mismatchAt_isEmpty d _)
  | some a =>
      cases dutEv with
      | none =>
          simp only [compare]
          exact failuresRecorded_setFailure (mismatchAt_isEmpty d _)
      | some b =>
          cases found : eventsMismatch a b with
          | none =>
              simp only [compare, found]
              exact failuresRecorded_of_same keeps rfl rfl rfl
          | some mismatch =>
              simp only [compare, found]
              exact failuresRecorded_setFailure (mismatchAt_isEmpty d _)

theorem failuresRecorded_stepInst (keeps : FailuresRecorded d) :
    FailuresRecorded (d.stepInst refModel dutModel).2 := by
  unfold stepInst
  split_ifs
  · exact keeps
  · apply failuresRecorded_compare
    exact failuresRecorded_of_same keeps rfl rfl rfl

theorem failuresRecorded_runLoop (keeps : FailuresRecorded d) (n : Nat) :
    FailuresRecorded (d.runLoop refModel dutModel n).2 := by
  induction n generalizing d with
  | zero => exact keeps
  | succ n ih =>
      have after : FailuresRecorded (d.stepInst refModel dutModel).2 :=
        failuresRecorded_stepInst keeps
      unfold runLoop
      rcases step : d.stepInst refModel dutModel with ⟨_ | ev, next⟩
      · rw [step] at after
        exact after
      · rw [step] at after
        exact ih after

theorem failuresRecorded_perform (keeps : FailuresRecorded d) (op : Op) :
    FailuresRecorded (d.perform refModel dutModel op) := by
  cases op with
  | reset resetAddr => exact fun failed => Bool.noConfusion failed
  | stepInst => exact failuresRecorded_stepInst keeps
  | run maxSteps => exact failuresRecorded_runLoop keeps _
  | writeMem addr size data => exact failuresRecorded_of_same keeps rfl rfl rfl
  | loadBin path addr =>
      unfold perform loadBin
      simp only
      split_ifs
      · exact failuresRecorded_setFailure (text_isEmpty (by decide) _)
      · exact failuresRecorded_of_same keeps rfl rfl rfl
  | loadElf path =>
      unfold perform loadElf
      simp only
      split_ifs
      · exact failuresRecorded_setFailure (text_isEmpty (by decide) _)
      · exact failuresRecorded_of_same keeps rfl rfl rfl

theorem failuresRecorded_performAll (keeps : FailuresRecorded d) (ops : List Op) :
    FailuresRecorded (d.performAll refModel dutModel ops) := by
  induction ops generalizing d with
  | nil => exact keeps
  | cons op ops ih => exact ih (failuresRecorded_perform keeps op)

theorem failed_setFailure {why : String} (fails : Failed d why) (other : String) :
    Failed (d.setFailure other) why := by
  refine ⟨rfl, rfl, ?_, fails.recorded⟩
  show (if d.mismatch.isEmpty then other else d.mismatch) = why
  rw [fails.mismatch, fails.recorded]
  rfl

/-- Every call but `reset` keeps a failure. -/
theorem failed_perform {why : String} (fails : Failed d why) {op : Op}
    (keeps : op.isReset = false) : Failed (d.perform refModel dutModel op) why := by
  have moved (ref : ρ) (dut : δ) : Failed { d with ref := ref, dut := dut } why :=
    ⟨fails.failed, fails.stopped, fails.mismatch, fails.recorded⟩
  cases op with
  | reset resetAddr => exact Bool.noConfusion keeps
  | stepInst =>
      rw [perform, stepInst_stopped fails.stopped]
      exact fails
  | run maxSteps =>
      rw [perform, run, runLoop_stopped fails.stopped]
      exact fails
  | writeMem addr size data => exact moved _ _
  | loadBin path addr =>
      unfold perform loadBin
      simp only
      split_ifs
      · exact failed_setFailure (moved _ _) _
      · exact moved _ _
  | loadElf path =>
      unfold perform loadElf
      simp only
      split_ifs
      · exact failed_setFailure (moved _ _) _
      · exact moved _ _

theorem failed_performAll {why : String} (fails : Failed d why) {ops : List Op}
    (keeps : ∀ op ∈ ops, op.isReset = false) : Failed (d.performAll refModel dutModel ops) why := by
  induction ops generalizing d with
  | nil => exact fails
  | cons op ops ih =>
      have next : Failed (d.perform refModel dutModel op) why :=
        failed_perform fails (keeps op (by simp))
      exact ih next fun later among => keeps later (by simp [among])

end Difftest

/-! ## The verdict -/

/-- The verdict of `run` on two models, and that a failure is final until `reset`. -/
theorem difftest_verdict (refModel : Iss ρ) (dutModel : Iss δ) (ref : ρ) (dut : δ)
    (maxSteps : BitVec 64) :
    let r := refModel.stream ref
    let q := dutModel.stream dut
    let out := (Difftest.create ref dut).run refModel dutModel maxSteps
    (∀ k, IsLeast {k | k < maxSteps.toNat ∧ ¬ EventsAgree (r.get k) (q.get k)} k →
      out.1 = false ∧ out.2.failed = true ∧ out.2.retireIdx.toNat = k) ∧
    ((∀ k, k < maxSteps.toNat → EventsAgree (r.get k) (q.get k)) →
      out.1 = true ∧ out.2.failed = false ∧
        (out.2.retireIdx.toNat : ℕ∞) = min (maxSteps.toNat : ℕ∞) r.length ∧
        (out.2.retireIdx.toNat : ℕ∞) = min (maxSteps.toNat : ℕ∞) q.length) ∧
    (∀ before after : List Difftest.Op,
      let d := (Difftest.create ref dut).performAll refModel dutModel before
      d.failed = true → (∀ op ∈ after, op.isReset = false) →
        let later := d.performAll refModel dutModel after
        later.stepInst refModel dutModel = (none, later) ∧ later.mismatch = d.mismatch) := by
  intro r q out
  have index (m : Nat) (bound : m ≤ maxSteps.toNat) :
      ((Difftest.create ref dut).retireIdx + BitVec.ofNat 64 m).toNat = m := by
    have small := maxSteps.isLt
    show (0#64 + BitVec.ofNat 64 m).toNat = m
    rw [BitVec.zero_add, BitVec.toNat_ofNat, Nat.mod_eq_of_lt (by omega)]
  refine ⟨?_, ?_, ?_⟩
  · rintro k ⟨⟨early, differ⟩, least⟩
    have before : ∀ j, j < k → EventsAgree (r.get j) (q.get j) := by
      intro j below
      by_contra earlier
      have above := least ⟨by omega, earlier⟩
      omega
    obtain ⟨after, result, failed, last⟩ :=
      Difftest.runLoop_diverges (Difftest.comparing_create ref dut) early differ before
    have stops : out = (false, after) := result
    rw [stops]
    exact ⟨rfl, failed, by rw [last, index k (Nat.le_of_lt early)]⟩
  · intro agree
    obtain ⟨m, after, bound, result, failed, last, there, stop⟩ :=
      Difftest.runLoop_agrees (Difftest.comparing_create ref dut) agree
    have stops : out = (true, after) := result
    have count : after.retireIdx.toNat = m := by rw [last, index m bound]
    have measure (s : Machine.EventStream CommitEvent) (given : ∀ j, j < m → s.get j ≠ none)
        (ends : m = maxSteps.toNat ∨ s.get m = none) :
        (m : ℕ∞) = min (maxSteps.toNat : ℕ∞) s.length := by
      rcases ends with all | ended
      · rw [← all, min_eq_left (EventStream.le_length given)]
      · rw [EventStream.length_of_ended given ended, min_eq_right (Nat.cast_le.mpr bound)]
    rw [stops]
    refine ⟨rfl, failed, ?_, ?_⟩
    · rw [count]
      exact measure r (fun j below => (there j below).1) (stop.imp id And.left)
    · rw [count]
      exact measure q (fun j below => (there j below).2) (stop.imp id And.right)
  · intro before after d failed keeps
    have recorded : Difftest.FailuresRecorded d :=
      Difftest.failuresRecorded_performAll (fun fails => Bool.noConfusion fails) before
    have stays : Difftest.Failed (d.performAll refModel dutModel after) d.mismatch :=
      Difftest.failed_performAll (recorded failed) keeps
    exact ⟨Difftest.stepInst_stopped stays.stopped, stays.mismatch⟩

end NpcMachine.Emulator
