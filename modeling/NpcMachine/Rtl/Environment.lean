/-
# Rtl.Environment -- environments that serve the pipeline

`Serves word p ins`: along the run of `p` the stream `ins` answers fetches, and
only requested ones, with the program `word`, and raises ready for a data request
after finitely many cycles.  Results that need less say so by not assuming it; the
runs that refute a property are runs of such an environment.

`slowMemory` is one: fetches are answered at once, data requests from a given cycle
on.
-/
import NpcMachine.Rtl.PipelineStep

namespace NpcMachine.Rtl

set_option autoImplicit false

structure Serves (word : Word → Word) (p : Pipeline) (ins : Nat → PipelineIn) : Prop where
  asked : ∀ n, (ins n).respFetchValid = true → (p.run ins n).reqFetchValid (ins n) = true
  fetch : ∀ n, (ins n).respFetchValid = true →
    (ins n).respFetchInst = word (p.run ins n).reqFetchAddr ∧
      (ins n).respFetchFault = false ∧ (ins n).respFetchMisaligned = false
  load : ∀ n, (p.run ins n).reqLoadValid = true → ∃ m, (ins (n + m)).reqLoadReady = true
  store : ∀ n, (p.run ins n).reqStoreValid = true → ∃ m, (ins (n + m)).reqStoreReady = true

/-! ## A memory that is slow at first -/

/-- The data port: ready from cycle `readyAt` on, without faults. -/
def slowData (readyAt n : Nat) : PipelineIn where
  respFetchValid := false
  respFetchInst := 0#32
  respFetchFault := false
  respFetchMisaligned := false
  reqLoadReady := decide (readyAt ≤ n)
  respLoadData := 0#32
  respLoadFault := false
  respLoadMisaligned := false
  reqStoreReady := decide (readyAt ≤ n)
  respStoreFault := false
  respStoreMisaligned := false

/-- The answer of cycle `n` to a pipeline in state `p`. -/
def slowMemory (word : Word → Word) (readyAt n : Nat) (p : Pipeline) : PipelineIn :=
  { slowData readyAt n with
    respFetchValid := p.reqFetchValid (slowData readyAt n)
    respFetchInst := word p.reqFetchAddr }

theorem slowMemory_serves (word : Word → Word) (readyAt : Nat) (p : Pipeline) :
    Serves word p (Machine.feedback Pipeline.next (slowMemory word readyAt) p) := by
  have ready : ∀ n, readyAt ≤ n + readyAt := fun n => Nat.le_add_left _ _
  constructor
  · intro n answered
    rw [Pipeline.run, Machine.run_feedback]
    exact answered
  · intro n _
    rw [Pipeline.run, Machine.run_feedback]
    exact ⟨rfl, rfl, rfl⟩
  · intro n _
    exact ⟨readyAt, decide_eq_true (ready n)⟩
  · intro n _
    exact ⟨readyAt, decide_eq_true (ready n)⟩

end NpcMachine.Rtl
