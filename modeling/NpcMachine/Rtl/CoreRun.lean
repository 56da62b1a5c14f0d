/-
# Rtl.CoreRun -- runs of the whole core

Inside the core the pipeline runs as a machine of its own (`pipeline_run`), so its
invariants hold in every run of the core with any AXI slave.  What the I-cache adds:
it never reports a misaligned fetch, and after an edge the fault pulse is up exactly
when a fill just failed.
-/
import NpcMachine.Rtl.Core
import NpcMachine.Rtl.IcacheStep
import NpcMachine.Rtl.Invariant

namespace NpcMachine.Rtl

set_option autoImplicit false

/-- A slave that is always ready and answers with nops. -/
def nopBeats : AxiIn where
  awready := true
  wready := true
  bvalid := false
  bresp := axrespOkay
  bid := 0#4
  arready := true
  rvalid := true
  rresp := axrespOkay
  rdata := 0x00000013#32
  rlast := false
  rid := axiIdFetch

namespace Core

/-- The run of the core from `c` with the slave answers `ins`. -/
abbrev run (c : Core) (ins : Nat → AxiIn) (n : Nat) : Core := Machine.run next c ins n

theorem run_succ (c : Core) (ins : Nat → AxiIn) (n : Nat) :
    c.run ins (n + 1) = (c.run ins n).next (ins n) := rfl

/-- The inputs that the core feeds its pipeline. -/
def pipelineFeed (c : Core) (ins : Nat → AxiIn) (n : Nat) : PipelineIn :=
  (c.run ins n).pipelineIn (ins n)

theorem pipeline_run (c : Core) (ins : Nat → AxiIn) (n : Nat) :
    (c.run ins n).pipeline = c.pipeline.run (c.pipelineFeed ins) n :=
  Machine.run_project (fun _ _ => rfl) c ins n

/-- From reset the pipeline inside the core runs from its own reset. -/
theorem pipeline_run_reset (c : Core) (ins : Nat → AxiIn) (n : Nat) :
    (c.reset.run ins n).pipeline = c.pipeline.reset.run (c.reset.pipelineFeed ins) n :=
  pipeline_run c.reset ins n

theorem wf_run (c : Core) (ins : Nat → AxiIn) (n : Nat) : (c.reset.run ins n).pipeline.Wf := by
  rw [pipeline_run_reset]
  exact Pipeline.wf_run c.pipeline _ n

theorem fetchWf_run (c : Core) (ins : Nat → AxiIn) (n : Nat) :
    (c.reset.run ins n).pipeline.FetchWf := by
  rw [pipeline_run_reset]
  exact Pipeline.fetchWf_run c.pipeline _ n

theorem aligned_run (c : Core) (ins : Nat → AxiIn) (n : Nat) :
    (c.reset.run ins n).pipeline.Aligned := by
  rw [pipeline_run_reset]
  exact Pipeline.aligned_run c.pipeline _ n

/-! ## The fetch response -/

/-- No cache reports a misaligned fetch to the pipeline. -/
theorem respMisaligned_of_lookup {p : Pipeline} (fetch : p.FetchWf) (aligned : p.Aligned)
    (icache : Icache) {i : IcacheIn} (asked : i.lookupAddr = p.reqFetchAddr) :
    icache.respMisaligned i = false := by
  have word : lookupAligned i.lookupAddr = true := by
    have pc := aligned.pc
    rw [asked, fetch.reqFetchAddr]
    simpa [misaligned4, lookupAligned] using pc
  simp [Icache.respMisaligned, word]

theorem respMisaligned_of_aligned {c : Core} (fetch : c.pipeline.FetchWf)
    (aligned : c.pipeline.Aligned) (i : AxiIn) :
    c.icache.respMisaligned (c.icacheIn i) = false :=
  respMisaligned_of_lookup fetch aligned c.icache rfl

/-- The fill of this cycle's last beat failed. -/
def fillFails (c : Core) (i : AxiIn) : Bool := c.icache.fillFails (c.icacheIn i)

theorem next_faultRespValid (c : Core) (i : AxiIn) :
    (c.next i).icache.faultRespValid = c.fillFails i :=
  Icache.next_faultRespValid _ _

/-- No fill fails with a slave that never answers an error. -/
theorem fillFails_of_noFault (c : Core) (ins : Nat → AxiIn)
    (good : ∀ n, axiFault (ins n).rresp = false) (n : Nat) :
    (c.reset.run ins n).fillFails (ins n) = false := by
  have noFault : ∀ k, ((c.reset.run ins k).icacheIn (ins k)).fillRespFault = false := by
    intro k
    simp [icacheIn, AxiMaster.respFetchFault, good k]
  have unseen : (c.reset.run ins n).icache.fillFaultSeen = false := by
    induction n with
    | zero => rfl
    | succ n ih =>
        rw [run_succ]
        show ((c.reset.run ins n).icache.next _).fillFaultSeen = false
        have done : (c.reset.run ins n).icache.fillDoneFault
            ((c.reset.run ins n).icacheIn (ins n)) = false := by
          simp [Icache.fillDoneFault, ih, noFault n]
        cases Icache.step_cases (c.reset.run ins n).icache
            ((c.reset.run ins n).icacheIn (ins n)) with
        | rest _ _ next => rw [next.fillFaultSeen]; simpa using ih
        | miss _ _ _ next => rw [next.fillFaultSeen]; rfl
        | ask _ next => rw [next.fillFaultSeen]; simpa using ih
        | pause _ _ next => rw [next.fillFaultSeen]; simpa using ih
        | beat _ _ _ next => rw [next.fillFaultSeen]; exact done
        | fail _ _ _ bad => rw [done] at bad; contradiction
        | install _ _ _ _ next =>
            rw [next.fillFaultSeen, Icache.installed]
            split <;> exact done
  simp [fillFails, Icache.fillFails, Icache.fillDoneFault, unseen, noFault n]

end Core

end NpcMachine.Rtl
