/-
# Rtl.ClintRead -- loads of `mtime` and the number of commits

Without a store to the CLINT the counter is the number of commits before the cycle
(`mtime_run`).  A load of a half is in MEM for a single cycle, one ahead of its commit, so
the commit of an instruction that is in WB in this cycle is not in what it reads.
`half_of_count_iff` says when the missing one shows in the half.
-/
import NpcMachine.Rtl.ClintWrite
import NpcMachine.Rtl.Core
import Mathlib.Data.Nat.Count

namespace NpcMachine.Rtl

set_option autoImplicit false

/-- The half of the counter after `count` ticks. -/
def MtimeHalf.ofCount (h : MtimeHalf) (count : Nat) : Word :=
  Clint.half ⟨BitVec.ofNat 64 count⟩ h

/-- One tick more changes the low half, and the high half when the low one wraps. -/
theorem half_of_count_iff (h : MtimeHalf) (count : Nat) :
    h.ofCount count = h.ofCount (count + 1) ↔ h = .mtimeh ∧ (count + 1) % 2 ^ 32 ≠ 0 := by
  unfold MtimeHalf.ofCount
  cases h with
  | mtime =>
      simp only [Clint.half, reduceCtorEq, false_and, iff_false]
      intro same
      have low := congrArg BitVec.toNat same
      rw [Machine.toNat_extract, Machine.toNat_extract, BitVec.toNat_ofNat,
        BitVec.toNat_ofNat] at low
      omega
  | mtimeh =>
      simp only [Clint.half, true_and]
      rw [← BitVec.toNat_inj, Machine.toNat_extract, Machine.toNat_extract, BitVec.toNat_ofNat,
        BitVec.toNat_ofNat]
      omega

namespace Pipeline

/-- MEM holds a word load of the half `h`. -/
structure LoadsMtime (p : Pipeline) (h : MtimeHalf) : Prop where
  reads : p.lsu.memRead = true
  size : p.lsu.memSize = memSizeWord
  addr : p.lsu.memAddr = h.addr

/-- MEM holds a store to the CLINT. -/
structure StoresClint (p : Pipeline) : Prop where
  writes : p.lsu.memWrite = true
  inside : inClint p.lsu.memAddr = true

variable {p : Pipeline} {i : PipelineIn} {h : MtimeHalf}

/-! ## The load -/

namespace LoadsMtime

variable (loads : p.LoadsMtime h)

include loads

theorem held : p.exMem.valid = true ∧ p.exMem.memRead = true ∧ p.exMem.exception = false := by
  have reads := loads.reads
  simp only [lsu, Bool.and_eq_true, Bool.not_eq_true'] at reads
  exact ⟨reads.1.1, reads.1.2, reads.2⟩

theorem clint : p.lsu.clintIsAccess = true := by
  rw [LsuIn.clintIsAccess, loads.addr]
  exact h.inside

theorem noWrite (wf : p.Wf) : p.exMem.memWrite = false := by
  obtain ⟨valid, reads, -⟩ := loads.held
  rw [(wf.exMem valid).memWrite]
  exact (decoder_of_memRead ((wf.exMem valid).memRead.symm.trans reads)).1

/-- A load from the CLINT never waits. -/
theorem next_memWb (wf : p.Wf) (i : PipelineIn) : (p.next i).memWb = p.accessed i := by
  apply exMem_moves wf loads.held.1
  left
  simp [memAccessWait, loads.clint, loads.noWrite wf]

theorem commits (wf : p.Wf) (i : PipelineIn) : (p.next i).commitValid = true := by
  rw [commitValid, loads.next_memWb wf i]
  exact loads.held.1

/-- It commits without an exception when the bridge answers no fault. -/
theorem commits_quiet (wf : p.Wf) (noFault : i.respLoadFault = false)
    (noMisaligned : i.respLoadMisaligned = false) : (p.next i).commitException = false := by
  obtain ⟨-, reads, clean⟩ := loads.held
  have aligned : p.lsu.loadMisaligned = false := by
    rw [LsuIn.loadMisaligned, h.aligned loads.size loads.addr, Bool.and_false]
  have quiet : p.memFault i = none := by
    simp [memFault, clean, reads, aligned, noFault, noMisaligned, loads.noWrite wf]
  rw [commitException, loads.next_memWb wf i]
  show p.memException i = false
  rw [memException, clean, quiet]
  rfl

/-- It reads the half as it is in its cycle. -/
theorem rdValue (wf : p.Wf) (i : PipelineIn) : (p.next i).memWb.rdValue = p.clint.half h := by
  obtain ⟨valid, reads, clean⟩ := loads.held
  have request : p.lsu.clintReqValid = true := by
    rw [LsuIn.clintReqValid, loads.reads, loads.clint]
    rfl
  have wen : p.lsu.clintReqWen = false := by
    show (p.exMem.valid && p.exMem.memWrite && !p.exMem.exception) = false
    rw [loads.noWrite wf, Bool.and_false, Bool.false_and]
  rw [loads.next_memWb wf i]
  show p.memStageRdValue i = p.clint.half h
  rw [memStageRdValue, if_pos reads, loadFinalData, LsuIn.loadFinalData, loads.clint, if_pos rfl,
    clintRdata, Clint.respRdata, request, wen, loads.addr]
  cases h with
  | mtime => rfl
  | mtimeh => rfl

end LoadsMtime

/-! ## The counter -/

/-- Without a store to the CLINT an edge adds the tick. -/
theorem next_mtime (quiet : ¬ p.StoresClint) (i : PipelineIn) :
    (p.next i).clint.mtime = p.clint.mtime + p.tick := by
  have noStore : (p.lsu.clintReqValid && p.lsu.clintReqWen) = false := by
    rw [Bool.eq_false_iff]
    intro stores
    rw [Bool.and_eq_true, LsuIn.clintReqValid, Bool.and_eq_true] at stores
    exact quiet ⟨stores.2, stores.1.2⟩
  show (p.clint.next p.commitValid _ _ _ _).mtime = _
  rw [Clint.next, noStore, tick]
  cases p.commitValid with
  | true => rfl
  | false =>
      have none : (BitVec.ofBool false).setWidth 64 = 0#64 := by decide
      rw [none, BitVec.add_zero]
      rfl

/-- In every run without a store to the CLINT the counter is the number of commits. -/
theorem mtime_run (p : Pipeline) (ins : Nat → PipelineIn)
    (quiet : ∀ n, ¬ (p.reset.run ins n).StoresClint) (n : Nat) :
    (p.reset.run ins n).clint.mtime =
      BitVec.ofNat 64 (Nat.count (fun k => (p.reset.run ins k).commitValid = true) n) := by
  induction n with
  | zero => rfl
  | succ n ih =>
      rw [run_succ, next_mtime (quiet n), ih, Nat.count_succ, tick]
      cases (p.reset.run ins n).commitValid with
      | true => rw [if_pos rfl, BitVec.ofNat_add]; rfl
      | false => rw [if_neg (by decide), Nat.add_zero]; exact BitVec.add_zero _

end Pipeline

/-- The bridge gets no request for the window, so it answers no fault. -/
theorem Core.clint_noFault {c : Core} (window : c.pipeline.lsu.clintIsAccess = true) (i : AxiIn) :
    (c.pipelineIn i).respLoadFault = false ∧ (c.pipelineIn i).respStoreFault = false := by
  have noLoad : c.axiReq.reqLoadValid = false := by
    show (c.pipeline.lsu.memRead && !c.pipeline.lsu.clintIsAccess) = false
    rw [window, Bool.not_true, Bool.and_false]
  have noStore : c.axiReq.reqStoreValid = false := by
    show (c.pipeline.lsu.memWrite && !c.pipeline.lsu.clintIsAccess) = false
    rw [window, Bool.not_true, Bool.and_false]
  constructor
  · show c.axiMaster.respLoadFault c.axiReq i = false
    rw [AxiMaster.respLoadFault, AxiMaster.dataLoadActive, noLoad, Bool.and_false, Bool.false_and,
      Bool.false_and]
  · show AxiMaster.respStoreFault c.axiReq i = false
    rw [AxiMaster.respStoreFault, AxiMaster.reqStoreReady, AxiReq.dataStoreActive, noStore,
      Bool.and_false, Bool.false_and, Bool.false_and, Bool.false_and, Bool.false_and,
      Bool.false_and]

end NpcMachine.Rtl
