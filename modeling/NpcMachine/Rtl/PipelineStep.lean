/-
# Rtl.PipelineStep -- what one clock edge can do to the pipeline

`Pipeline.step_cases` is the only place that unfolds the next-state functions of
the stage registers: an edge halts, traps from MEM, applies a redirect of EX (with
or without the instruction it came from, see `lost`), waits for memory, stalls ID
or lets every stage move.  Everything else about the pipeline is proved from it.
-/
import NpcMachine.Rtl.Pipeline
import NpcMachine.Machine.Run

namespace NpcMachine.Rtl

set_option autoImplicit false

namespace Pipeline

/-- The run of the pipeline from `p` under the response stream `ins`. -/
abbrev run (p : Pipeline) (ins : Nat → PipelineIn) (n : Nat) : Pipeline :=
  Machine.run next p ins n

theorem run_succ (p : Pipeline) (ins : Nat → PipelineIn) (n : Nat) :
    p.run ins (n + 1) = (p.run ins n).next (ins n) := rfl

/-- The edge loads IF/ID from the fetch response. -/
def captured (p : Pipeline) (i : PipelineIn) : Bool := p.fetchCapture i && !p.memRedirect i

/-- IF/ID when no redirect and no halt clears it. -/
def fetched (p : Pipeline) (i : PipelineIn) : IfId :=
  if p.fetchCapture i then
    { valid := true
      pc := p.reqFetchAddr
      inst := i.respFetchInst
      fetchFault := i.respFetchFault
      fetchMisaligned := i.respFetchMisaligned }
  else if !p.idStall i && p.ifId.valid then p.ifId.clear
  else p.ifId

/-- One clock edge, by what happens to the four stage registers and `pc`. -/
inductive StepCase (p : Pipeline) (i : PipelineIn) : Prop where
  /-- The instruction in WB halts the core: every stage is cleared. -/
  | halt (halts : p.wbWillHalt = true)
      (ifId : (p.next i).ifId = p.ifId.clear)
      (idEx : (p.next i).idEx = p.idEx.clear)
      (exMem : (p.next i).exMem = p.exMem.clear)
      (memWb : (p.next i).memWb = p.memWb.clear)
      (pc : (p.next i).pc = p.pc)
  /-- MEM raises an exception: its instruction moves on, everything younger goes. -/
  | trap (runs : p.wbWillHalt = false) (faults : p.memRedirect i = true)
      (ifId : (p.next i).ifId = p.ifId.clear)
      (idEx : (p.next i).idEx = p.idEx.clear)
      (exMem : (p.next i).exMem = p.exMem.clear)
      (memWb : (p.next i).memWb = p.accessed i)
      (pc : (p.next i).pc = p.csrFile.mtvec)
  /-- EX redirects the fetch and its instruction moves into MEM. -/
  | redirect (runs : p.wbWillHalt = false) (fine : p.memRedirect i = false)
      (redirects : p.exRedirect = true) (goes : p.memAccessWait i = false)
      (ifId : (p.next i).ifId = p.ifId.clear)
      (idEx : (p.next i).idEx = p.idEx.clear)
      (exMem : (p.next i).exMem = p.executed)
      (memWb : (p.next i).memWb = p.accessed i)
      (pc : (p.next i).pc = p.exNextPc)
  /-- EX redirects the fetch while MEM waits: ID/EX is cleared, EX/MEM is kept. -/
  | lost (runs : p.wbWillHalt = false) (fine : p.memRedirect i = false)
      (redirects : p.exRedirect = true) (waits : p.memAccessWait i = true)
      (ifId : (p.next i).ifId = p.ifId.clear)
      (idEx : (p.next i).idEx = p.idEx.clear)
      (exMem : (p.next i).exMem = p.exMem)
      (memWb : (p.next i).memWb = p.memWb.clear)
      (pc : (p.next i).pc = p.exNextPc)
  /-- MEM waits and holds EX. -/
  | wait (runs : p.wbWillHalt = false) (fine : p.memRedirect i = false)
      (straight : p.exRedirect = false) (waits : p.memAccessWait i = true)
      (ifId : (p.next i).ifId = p.fetched i)
      (idEx : (p.next i).idEx = p.idEx)
      (exMem : (p.next i).exMem = p.exMem)
      (memWb : (p.next i).memWb = p.memWb.clear)
      (pc : (p.next i).pc = if p.fetchCapture i then p.reqFetchAddr + 4#32 else p.pc)
  /-- ID is stalled: EX and MEM move and leave a bubble in EX. -/
  | stall (runs : p.wbWillHalt = false) (fine : p.memRedirect i = false)
      (straight : p.exRedirect = false) (goes : p.memAccessWait i = false)
      (stalls : p.idStall i = true)
      (ifId : (p.next i).ifId = p.fetched i)
      (idEx : (p.next i).idEx = p.idEx.clear)
      (exMem : (p.next i).exMem = p.executed)
      (memWb : (p.next i).memWb = p.accessed i)
      (pc : (p.next i).pc = if p.fetchCapture i then p.reqFetchAddr + 4#32 else p.pc)
  /-- Every stage moves. -/
  | flow (runs : p.wbWillHalt = false) (fine : p.memRedirect i = false)
      (straight : p.exRedirect = false) (goes : p.memAccessWait i = false)
      (ready : p.idStall i = false)
      (ifId : (p.next i).ifId = p.fetched i)
      (idEx : (p.next i).idEx = p.decoded)
      (exMem : (p.next i).exMem = p.executed)
      (memWb : (p.next i).memWb = p.accessed i)
      (pc : (p.next i).pc = if p.fetchCapture i then p.reqFetchAddr + 4#32 else p.pc)

theorem step_cases (p : Pipeline) (i : PipelineIn) : StepCase p i := by
  cases halts : p.wbWillHalt with
  | true =>
      exact .halt halts (by simp [next, nextIfId, halts]) (by simp [next, nextIdEx, halts])
        (by simp [next, nextExMem, halts]) (by simp [next, nextMemWb, halts])
        (by simp [next, nextPc, halts])
  | false =>
      cases faults : p.memRedirect i with
      | true =>
          exact .trap halts faults (by simp [next, nextIfId, halts, faults])
            (by simp [next, nextIdEx, halts, faults]) (by simp [next, nextExMem, halts, faults])
            (by simp [next, nextMemWb, halts, faults]) (by simp [next, nextPc, halts, faults])
      | false =>
          cases redirects : p.exRedirect with
          | true =>
              have ifId : (p.next i).ifId = p.ifId.clear := by
                simp [next, nextIfId, halts, faults, redirects]
              have idEx : (p.next i).idEx = p.idEx.clear := by
                simp [next, nextIdEx, halts, faults, redirects]
              have pc : (p.next i).pc = p.exNextPc := by
                simp [next, nextPc, halts, faults, redirects]
              cases waits : p.memAccessWait i with
              | true =>
                  exact .lost halts faults redirects waits ifId idEx
                    (by simp [next, nextExMem, halts, faults, waits])
                    (by simp [next, nextMemWb, halts, faults, waits]) pc
              | false =>
                  exact .redirect halts faults redirects waits ifId idEx
                    (by simp [next, nextExMem, halts, faults, waits])
                    (by simp [next, nextMemWb, halts, faults, waits]) pc
          | false =>
              have ifId : (p.next i).ifId = p.fetched i := by
                simp [next, nextIfId, fetched, halts, faults, redirects]
              have pc : (p.next i).pc =
                  if p.fetchCapture i then p.reqFetchAddr + 4#32 else p.pc := by
                simp [next, nextPc, halts, faults, redirects]
              cases waits : p.memAccessWait i with
              | true =>
                  exact .wait halts faults redirects waits ifId
                    (by simp [next, nextIdEx, halts, faults, redirects, waits])
                    (by simp [next, nextExMem, halts, faults, waits])
                    (by simp [next, nextMemWb, halts, faults, waits]) pc
              | false =>
                  have exMem : (p.next i).exMem = p.executed := by
                    simp [next, nextExMem, halts, faults, waits]
                  have memWb : (p.next i).memWb = p.accessed i := by
                    simp [next, nextMemWb, halts, faults, waits]
                  cases stalls : p.idStall i with
                  | true =>
                      exact .stall halts faults redirects waits stalls ifId
                        (by simp [next, nextIdEx, halts, faults, redirects, waits, stalls])
                        exMem memWb pc
                  | false =>
                      exact .flow halts faults redirects waits stalls ifId
                        (by simp [next, nextIdEx, halts, faults, redirects, waits, stalls])
                        exMem memWb pc

/-! ## The registers that move on every edge -/

@[simp] theorem next_regfile (p : Pipeline) (i : PipelineIn) :
    (p.next i).regfile = p.regfile.next p.regWen p.memWb.rd p.memWb.rdValue := rfl

@[simp] theorem next_csrFile (p : Pipeline) (i : PipelineIn) :
    (p.next i).csrFile = p.csrFile.next p.csrWrite := rfl

/-! ## Consequences of the control signals -/

theorem memRedirect_iff (p : Pipeline) (i : PipelineIn) :
    p.memRedirect i = true ↔
      p.exMem.valid = true ∧ p.exMem.exception = false ∧ (p.memFault i).isSome = true := by
  cases h : p.exMem.exception <;>
    simp [memRedirect, memNewException, memException, h]

theorem memAccessWait_valid {p : Pipeline} {i : PipelineIn} (waits : p.memAccessWait i = true) :
    p.exMem.valid = true ∧ p.exMem.exception = false ∧
      (p.exMem.memRead = true ∨ p.exMem.memWrite = true) := by
  simp only [memAccessWait, Bool.and_eq_true, Bool.or_eq_true, Bool.not_eq_true'] at waits
  obtain ⟨⟨valid, clean⟩, access⟩ := waits
  refine ⟨valid, clean, ?_⟩
  rcases access with access | access
  · exact Or.inl access.1.1.1
  · exact Or.inr access.1.1.1

theorem exRedirect_valid {p : Pipeline} (redirects : p.exRedirect = true) :
    p.idEx.valid = true := by
  simp only [exRedirect, Bool.and_eq_true] at redirects
  exact redirects.1

theorem exRedirect_of_exException {p : Pipeline} (valid : p.idEx.valid = true)
    (raises : p.exException = true) : p.exRedirect = true := by
  simp [exRedirect, valid, raises]

theorem wbWillHalt_valid {p : Pipeline} (halts : p.wbWillHalt = true) :
    p.memWb.valid = true ∧ p.memWb.exception = true ∧ p.memWb.ebreak = true := by
  simpa [wbWillHalt, and_assoc] using halts

/-- A stalled ID accepts no fetch. -/
theorem ifIdAccept_of_valid {p : Pipeline} {i : PipelineIn} (accepts : p.ifIdAccept i = true)
    (valid : p.ifId.valid = true) :
    p.idStall i = false ∧ p.exRedirect = false ∧ p.memRedirect i = false := by
  simpa [ifIdAccept, valid, and_assoc] using accepts

theorem fetchCanStart_accepts {p : Pipeline} {i : PipelineIn}
    (starts : p.fetchCanStart i = true) : p.ifIdAccept i = true := by
  simp only [fetchCanStart, Bool.and_eq_true] at starts
  exact starts.1.1.2

theorem fetchCapture_accepts {p : Pipeline} {i : PipelineIn}
    (captures : p.fetchCapture i = true) :
    i.respFetchValid = true ∧ p.ifIdAccept i = true ∧ p.exRedirect = false ∧
      p.wbWillHalt = false := by
  simpa [fetchCapture, and_assoc] using captures

/-! ## Leaving EX -/

/-- The instruction in ID/EX moves into EX/MEM. -/
def exAdvances (p : Pipeline) (i : PipelineIn) : Bool :=
  p.idEx.valid && !p.memAccessWait i && !p.memRedirect i && !p.wbWillHalt

theorem exAdvances_iff {p : Pipeline} {i : PipelineIn} : p.exAdvances i = true ↔
    p.idEx.valid = true ∧ p.memAccessWait i = false ∧ p.memRedirect i = false ∧
      p.wbWillHalt = false := by
  simp [exAdvances, and_assoc]

/-- Without a wait EX and MEM hand on what they hold. -/
theorem next_of_goes {p : Pipeline} {i : PipelineIn} (runs : p.wbWillHalt = false)
    (fine : p.memRedirect i = false) (goes : p.memAccessWait i = false) :
    (p.next i).exMem = p.executed ∧ (p.next i).memWb = p.accessed i := by
  cases step_cases p i with
  | halt halts => simp [runs] at halts
  | trap _ faults => simp [fine] at faults
  | redirect _ _ _ _ _ _ exMem memWb => exact ⟨exMem, memWb⟩
  | lost _ _ _ waits => simp [goes] at waits
  | wait _ _ _ waits => simp [goes] at waits
  | stall _ _ _ _ _ _ _ exMem memWb => exact ⟨exMem, memWb⟩
  | flow _ _ _ _ _ _ _ exMem memWb => exact ⟨exMem, memWb⟩

/-- A wait keeps MEM and leaves WB empty. -/
theorem next_of_waits {p : Pipeline} {i : PipelineIn} (runs : p.wbWillHalt = false)
    (fine : p.memRedirect i = false) (waits : p.memAccessWait i = true) :
    (p.next i).exMem = p.exMem ∧ (p.next i).memWb = p.memWb.clear := by
  cases step_cases p i with
  | halt halts => simp [runs] at halts
  | trap _ faults => simp [fine] at faults
  | redirect _ _ _ goes => simp [waits] at goes
  | lost _ _ _ _ _ _ exMem memWb => exact ⟨exMem, memWb⟩
  | wait _ _ _ _ _ _ exMem memWb => exact ⟨exMem, memWb⟩
  | stall _ _ _ goes => simp [waits] at goes
  | flow _ _ _ goes => simp [waits] at goes

/-- Without a stall either, every stage moves. -/
theorem next_of_flows {p : Pipeline} {i : PipelineIn} (runs : p.wbWillHalt = false)
    (fine : p.memRedirect i = false) (straight : p.exRedirect = false)
    (goes : p.memAccessWait i = false) (ready : p.idStall i = false) :
    (p.next i).ifId = p.fetched i ∧ (p.next i).idEx = p.decoded ∧
      (p.next i).exMem = p.executed ∧ (p.next i).memWb = p.accessed i := by
  cases step_cases p i with
  | halt halts => simp [runs] at halts
  | trap _ faults => simp [fine] at faults
  | redirect _ _ redirects => simp [straight] at redirects
  | lost _ _ redirects => simp [straight] at redirects
  | wait _ _ _ waits => simp [goes] at waits
  | stall _ _ _ _ stalls => simp [ready] at stalls
  | flow _ _ _ _ _ ifId idEx exMem memWb => exact ⟨ifId, idEx, exMem, memWb⟩

/-- When EX lets its instruction go, MEM moves on as well. -/
theorem next_of_exAdvances {p : Pipeline} {i : PipelineIn} (advances : p.exAdvances i = true) :
    (p.next i).exMem = p.executed ∧ (p.next i).memWb = p.accessed i := by
  obtain ⟨-, goes, fine, runs⟩ := exAdvances_iff.mp advances
  exact next_of_goes runs fine goes

/-! ## Nothing behind ID -/

/-- EX, MEM and WB hold nothing. -/
structure BackEmpty (p : Pipeline) : Prop where
  idEx : p.idEx.valid = false
  exMem : p.exMem.valid = false
  memWb : p.memWb.valid = false

theorem BackEmpty.control {p : Pipeline} (empty : p.BackEmpty) (i : PipelineIn) :
    p.wbWillHalt = false ∧ p.memRedirect i = false ∧ p.exRedirect = false ∧
      p.memAccessWait i = false ∧ p.idStall i = false := by
  obtain ⟨noEx, noMem, noWb⟩ := empty
  have goes : p.memAccessWait i = false := by simp [memAccessWait, noMem]
  refine ⟨by simp [wbWillHalt, noWb], by simp [memRedirect, memNewException, noMem],
    by simp [exRedirect, noEx], goes, ?_⟩
  simp [idStall, goes, loadUseStall, storeDataStall, writeAhead, storeLoadStall, storeBusy,
    csrStall, csrBusy, noEx, noMem, noWb]

/-- Then every stage moves. -/
theorem BackEmpty.next {p : Pipeline} (empty : p.BackEmpty) (i : PipelineIn) :
    (p.next i).ifId = p.fetched i ∧ (p.next i).idEx = p.decoded ∧
      (p.next i).exMem.valid = false ∧ (p.next i).memWb.valid = false := by
  obtain ⟨runs, fine, straight, goes, ready⟩ := empty.control i
  obtain ⟨ifId, idEx, exMem, memWb⟩ := next_of_flows runs fine straight goes ready
  refine ⟨ifId, idEx, ?_, ?_⟩
  · rw [exMem]
    exact empty.idEx
  · rw [memWb]
    exact empty.exMem

end Pipeline

end NpcMachine.Rtl
