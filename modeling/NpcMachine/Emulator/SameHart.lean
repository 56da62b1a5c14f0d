/-
# Emulator.SameHart -- the architectural state of `npc_single_cycle` as a hart

`SameHart` relates the registers of the core to a hart.  Given it, the wires of the execute
phase are the operands that `execute` reads (`sameInputs`); and where the commit of the core
matches the event of the instruction, the states behind it are the same again
(`SameHart.next`).
-/
import NpcMachine.Emulator.ExView

namespace NpcMachine.Emulator

open NpcMachine.Rtl NpcMachine.Machine

set_option autoImplicit false

/-! ## CSRs -/

def csrFileOf (h : Hart) : CsrFile := ⟨h.mstatus, h.mtvec, h.mepc, h.mcause⟩

section Csr

variable {h : Hart} {x : BitVec 12}

theorem readData_csrFileOf {old : U32} (read : h.readCsr (x.setWidth 32) = some old) :
    (csrFileOf h).readData x = old := by
  have mvendorid : x.setWidth 32 = csrMvendorid ↔ x = Rtl.csrMvendorid := csr_number rfl
  have marchid : x.setWidth 32 = csrMarchid ↔ x = Rtl.csrMarchid := csr_number rfl
  have mstatus : x.setWidth 32 = csrMstatus ↔ x = Rtl.csrMstatus := csr_number rfl
  have mtvec : x.setWidth 32 = csrMtvec ↔ x = Rtl.csrMtvec := csr_number rfl
  have mepc : x.setWidth 32 = csrMepc ↔ x = Rtl.csrMepc := csr_number rfl
  have mcause : x.setWidth 32 = csrMcause ↔ x = Rtl.csrMcause := csr_number rfl
  simp only [Hart.readCsr, mvendorid, marchid, mstatus, mtvec, mepc, mcause] at read
  rw [CsrFile.readData]
  split_ifs at read ⊢ <;> cases read <;> rfl

theorem write_csrFileOf {value : U32} {after : Hart}
    (writes : h.writeCsr (x.setWidth 32) value = some after) :
    csrFileOf after = (csrFileOf h).write x value := by
  have mvendorid : x.setWidth 32 = csrMvendorid ↔ x = Rtl.csrMvendorid := csr_number rfl
  have marchid : x.setWidth 32 = csrMarchid ↔ x = Rtl.csrMarchid := csr_number rfl
  have mstatus : x.setWidth 32 = csrMstatus ↔ x = Rtl.csrMstatus := csr_number rfl
  have mtvec : x.setWidth 32 = csrMtvec ↔ x = Rtl.csrMtvec := csr_number rfl
  have mepc : x.setWidth 32 = csrMepc ↔ x = Rtl.csrMepc := csr_number rfl
  have mcause : x.setWidth 32 = csrMcause ↔ x = Rtl.csrMcause := csr_number rfl
  simp only [Hart.writeCsr, mvendorid, marchid, mstatus, mtvec, mepc, mcause] at writes
  rw [CsrFile.write]
  split_ifs at writes ⊢ <;> cases writes <;> rfl

end Csr

/-! ## The state of the core -/

structure SameHart (s : SingleCycle) (h : Hart) : Prop where
  pc : s.pc = h.pc
  halted : s.halted = h.halted
  regs : ∀ r, s.regfile.read r = h.reg r
  csrs : s.csrFile = csrFileOf h

/-- The commit interface of the core as an event. -/
def singleEvent (s : SingleCycle) (cycle : BitVec 64) : CommitEvent where
  cycle := cycle
  pc := s.commitPc
  inst := s.commitInst
  rd := s.commitRd.setWidth 32
  rdValue := s.commitRdValue
  exception := s.commitException
  cause := s.commitCause
  nextPc := s.commitNextPc

section

variable {s : SingleCycle} {i : SingleCycleIn} {e : EmulatorIss} {h : Hart}

theorem sameInputs (same : SameHart s e.hart) (legal : rtlIllegal s.instReg = false)
    (fetchFault : s.fetchFaultReg = false) (fetchMisaligned : s.fetchMisalignedReg = false) :
    SameInputs s.exView e := by
  obtain ⟨-, -, rs1, rs2⟩ := registers_of_legal legal
  refine ⟨SingleCycle.decoded_view, fetchFault, fetchMisaligned, same.pc, ?_, ?_, ?_, ?_, ?_⟩
  · intro has
    have real : (s.instReg.extractLsb' 15 5).getLsbD 4 = false := by
      have field : (decoder s.instReg).hasRs1 = true := has
      rwa [field, Bool.true_and] at rs1
    rw [SingleCycle.exRs1Value_view, SingleCycle.rs1Data, same.regs]
    show _ = e.hart.readReg (decode s.instReg).rs1
    rw [decode_rs1, readReg_legal _ real, SingleCycle.dec, decoder_rs1]
  · intro has
    have real : (s.instReg.extractLsb' 20 5).getLsbD 4 = false := by
      have field : (decoder s.instReg).hasRs2 = true := has
      rwa [field, Bool.true_and] at rs2
    rw [SingleCycle.exRs2Value_view, SingleCycle.rs2Data, same.regs]
    show _ = e.hart.readReg (decode s.instReg).rs2
    rw [decode_rs2, readReg_legal _ real, SingleCycle.dec, decoder_rs2]
  · intro old read
    show s.csrFile.readData s.dec.csrAddr = old
    have number : (decode s.instReg).csr = (decoder s.instReg).csrAddr.setWidth 32 := decode_csr _
    have found : e.hart.readCsr (decode s.instReg).csr = some old := read
    rw [number] at found
    rw [same.csrs]
    exact readData_csrFileOf found
  · show s.csrFile.mtvec = _
    rw [same.csrs]
    rfl
  · show s.csrFile.mepc = _
    rw [same.csrs]
    rfl

/-- The commit of the execute phase. -/
theorem singleEvent_next (live : s.halted = false) (executes : s.executePhase = true)
    (cycle : BitVec 64) : singleEvent (s.next i) cycle =
      { cycle := cycle
        pc := s.fetchPcReg
        inst := s.instReg
        rd := (if s.regWen i then s.dec.rd.setWidth 5 else 0#5 : BitVec 5).setWidth 32
        rdValue := if s.regWen i then s.rdValue i else 0#32
        exception := s.excTake i
        cause := s.excCause i
        nextPc := s.nextPc i } := by
  have clocked := SingleCycle.clocked_execute (i := i) live executes
  simp only [singleEvent, SingleCycle.next, clocked, SingleCycle.executed]

/-- The CSR write of an instruction that does not trap. -/
theorem csrFile_next (same : SameHart s e.hart) (executes : s.executePhase = true)
    (quiet : s.exc i = none) (op : s.dec.csrOp = csrOpOf (decodeType s.instReg))
    (agrees : DatapathAgrees s.exView e) :
    s.csrFile.next (s.csrWrite i) = csrFileOf (csrHart e.hart (decode s.instReg)) := by
  have noTrap : s.excTake i = false := by rw [SingleCycle.excTake, quiet]; rfl
  by_cases plain : csrOpOf (decodeType s.instReg) = .none
  · rw [csrHart_plain plain, ← same.csrs]
    simp [CsrFile.next, SingleCycle.csrWrite, noTrap, op, plain]
  · have some_ : s.dec.csrOp ≠ .none := by rwa [op]
    have known : CsrFile.readFault s.dec.csrAddr = false := by
      by_contra fault
      have hit : s.csrIllegal = true := by
        rw [Bool.not_eq_false] at fault
        simp [SingleCycle.csrIllegal, SingleCycle.csrReadFault, fault, some_]
      have traps : s.excTake i = true := by
        rw [SingleCycle.excTake, SingleCycle.exc, hit, Bool.or_true, if_pos rfl]
        split_ifs <;> rfl
      rw [noTrap] at traps
      cases traps
    have number : (decode s.instReg).csr = s.dec.csrAddr.setWidth 32 := decode_csr _
    cases read : e.hart.readCsr (decode s.instReg).csr with
    | none =>
        rw [number, readCsr_none_iff, known] at read
        cases read
    | some old =>
        have update : csrUpdate (decode s.instReg) old
            (if (decode s.instReg).isCsrImm then (decode s.instReg).imm
              else e.hart.readReg (decode s.instReg).rs1) = (s.csrNewValueOut, s.csrDoWriteOut) := by
          have viewed := agrees.csr some_ old read
          rwa [Pipeline.exCsrNewValue, Pipeline.exCsrOperand, SingleCycle.exRs1Value_view] at viewed
        rw [csrHart_csr plain read, update]
        cases writes : s.csrDoWriteOut with
        | false =>
            rw [if_neg Bool.false_ne_true, ← same.csrs]
            simp [CsrFile.next, SingleCycle.csrWrite, noTrap, writes]
        | true =>
            obtain ⟨after, written⟩ := writeCsr_of_read read s.csrNewValueOut
            have mirrored := write_csrFileOf (number ▸ written)
            have write : (s.dec.csrOp != .none) = true := by simpa using some_
            rw [if_pos rfl, written, Option.getD_some, mirrored, ← same.csrs]
            simp [CsrFile.next, SingleCycle.csrWrite, noTrap, writes, executes, write]

theorem commitRd_real : ∀ r : BitVec 4, (r.setWidth 5 : BitVec 5).getLsbD 4 = false ∧
    (r.setWidth 5 : BitVec 5).setWidth 4 = r := by decide

/-- The state behind a commit is the one that its event says. -/
theorem SameHart.next (same : SameHart s h) (live : s.halted = false)
    (executes : s.executePhase = true) (here : s.fetchPcReg = s.pc)
    (breakpoint : ∀ cause, s.exc i = some cause → s.dec.ebreak = (cause == causeBreakpoint))
    (csrs : s.exc i = none →
      s.csrFile.next (s.csrWrite i) = csrFileOf (csrHart h (decode s.instReg)))
    (cycle : BitVec 64) : SameHart (s.next i) (hartAfter h (singleEvent (s.next i) cycle)) := by
  have clocked := SingleCycle.clocked_execute (i := i) live executes
  have pc : (s.next i).pc = if s.excTake i then s.csrFile.mtvec else s.nextPc i := by
    rw [SingleCycle.next, clocked]
    rfl
  have halted : (s.next i).halted = if s.excTake i then s.dec.ebreak else s.halted := by
    rw [SingleCycle.next, clocked]
    rfl
  rw [singleEvent_next live executes]
  cases raises : s.exc i with
  | some cause =>
      have takes : s.excTake i = true := by rw [SingleCycle.excTake, raises]; rfl
      have causes : s.excCause i = cause := by rw [SingleCycle.excCause, raises]; rfl
      have noWrite : s.regWen i = false := by simp [SingleCycle.regWen, takes]
      simp only [hartAfter, takes, causes, if_true]
      refine ⟨?_, ?_, fun r => ?_, ?_⟩
      · rw [pc, takes, if_pos rfl, same.csrs]
        rfl
      · rw [halted, takes, if_pos rfl, breakpoint cause raises]
        show _ = (h.halted || cause == causeBreakpoint)
        rw [← same.halted, live, Bool.false_or]
      · show (s.regfile.next (s.regWen i) s.dec.rd (s.rdValue i)).read r = h.reg r
        rw [noWrite, Regfile.next_idle, same.regs]
      · show s.csrFile.next (s.csrWrite i) = _
        simp [CsrFile.next, SingleCycle.csrWrite, executes, takes, causes, here, same.pc, same.csrs,
          csrFileOf, haltOn, Hart.takeException]
  | none =>
      have quiet : s.excTake i = false := by rw [SingleCycle.excTake, raises]; rfl
      obtain ⟨keepsRegs, -, keepsHalted⟩ := csrHart_keeps h (decode s.instReg)
      simp only [hartAfter, quiet, Bool.false_eq_true, if_false]
      refine ⟨?_, ?_, fun r => ?_, ?_⟩
      · rw [pc, quiet]
        rfl
      · rw [halted, quiet, if_neg (by decide), same.halted, ← keepsHalted]
        show _ = (Hart.writeReg _ _ _).halted
        rw [Hart.writeReg]
        split_ifs <;> rfl
      · have base : (csrHart h (decode s.instReg)).reg r = h.reg r := by
          rw [Hart.reg, Hart.reg, keepsRegs]
        show (s.regfile.next (s.regWen i) s.dec.rd (s.rdValue i)).read r =
          (Hart.writeReg _ _ _).reg r
        obtain ⟨real, number⟩ := commitRd_real s.dec.rd
        cases writes : s.regWen i with
        | false =>
            rw [Regfile.next_idle, same.regs, ← base]
            rfl
        | true =>
            rw [Regfile.read_next, same.regs, if_pos rfl, if_pos rfl, writeReg_register _ real, number,
              base]
            simp
      · show s.csrFile.next (s.csrWrite i) = _
        rw [csrs raises]
        show _ = csrFileOf { Hart.writeReg _ _ _ with pc := s.nextPc i }
        rw [Hart.writeReg]
        split_ifs <;> rfl

end

end NpcMachine.Emulator
