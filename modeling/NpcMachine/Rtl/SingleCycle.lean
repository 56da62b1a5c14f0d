/-
# Rtl.SingleCycle -- `npc_single_cycle`

The core that fetches in one phase and executes in the next.  Every wire is a function of
the state `s` and, where it depends on a response, of the inputs `i` of the cycle; the
always-block of the core is one record for each of its branches.  A reachable state is
`Wf`: a halted core is not executing and every pc it holds is a multiple of four.
-/
import NpcMachine.Rtl.Invariant

namespace NpcMachine.Rtl

set_option autoImplicit false

/-! ## Registers and ports -/

structure SingleCycle where
  pc : Word
  halted : Bool
  executePhase : Bool
  instReg : Word
  fetchPcReg : Word
  fetchFaultReg : Bool
  fetchMisalignedReg : Bool
  commitValid : Bool
  commitPc : Word
  commitInst : Word
  commitRd : BitVec 5
  commitRdValue : Word
  commitException : Bool
  commitCause : Word
  commitNextPc : Word
  fenceICommit : Bool
  regfile : Regfile
  csrFile : CsrFile
  clint : Clint
  deriving Inhabited

/-- The response ports; `resp_store_fault` and `resp_store_misaligned` are read by nobody. -/
structure SingleCycleIn where
  respFetchValid : Bool
  respFetchInst : Word
  respFetchFault : Bool
  respFetchMisaligned : Bool
  respLoadData : Word
  respLoadFault : Bool
  respLoadMisaligned : Bool
  respStoreFault : Bool
  respStoreMisaligned : Bool
  deriving DecidableEq, Repr, Inhabited

namespace SingleCycle

variable (s : SingleCycle) (i : SingleCycleIn)

/-! ## Decode and execute -/

def dec : DecoderOut := decoder s.instReg

def rs1Data : Word := s.regfile.read s.dec.rs1
def rs2Data : Word := s.regfile.read s.dec.rs2
def csrReadData : Word := s.csrFile.readData s.dec.csrAddr
def csrReadFault : Bool := CsrFile.readFault s.dec.csrAddr
def immOut : Word := imm s.instReg s.dec.immSel

def aluResult : Word :=
  alu s.rs1Data s.rs2Data s.pc s.immOut s.dec.aluOp s.dec.aluSrcA s.dec.aluSrcB

def branchTakenOut : Bool := branchTaken s.rs1Data s.rs2Data s.dec.branchType
def branchTargetOut : Word := branchTarget s.pc s.immOut
def jumpTargetOut : Word := jumpTarget s.pc s.immOut s.rs1Data s.dec.jumpReg

def branchOff : Bool :=
  branchTargetMisaligned s.pc s.immOut s.rs1Data s.rs2Data s.dec.branchType

def jumpOff : Bool := jumpTargetMisaligned s.pc s.immOut s.rs1Data s.dec.jumpReg

/-! ## Memory access -/

/-- Both controls are gated with the phase, and with nothing else. -/
def lsu : LsuIn where
  aluResult := s.aluResult
  rs2Data := s.rs2Data
  memRead := s.executePhase && s.dec.memRead
  memWrite := s.executePhase && s.dec.memWrite
  memSize := s.dec.memSize
  memSext := s.dec.memSext

def reqFetchValid : Bool := !s.executePhase && !s.halted
def reqFetchAddr : Word := s.pc
def reqLoadValid : Bool := s.lsu.reqLoadValid
def reqLoadAddr : Word := s.lsu.memAddr
def reqLoadSize : BitVec 2 := s.lsu.memSize
def reqStoreValid : Bool := s.lsu.reqStoreValid
def reqStoreAddr : Word := s.lsu.memAddr
def reqStoreSize : BitVec 2 := s.lsu.memSize
def reqStoreData : Word := s.lsu.storeData

def clintRdata : Word :=
  s.clint.respRdata s.lsu.clintReqValid s.lsu.clintReqWen s.lsu.memAddr

def loadFinalData : Word := s.lsu.loadFinalData i.respLoadData s.clintRdata

/-! ## CSR operation -/

def csrOperand : Word := if s.dec.csrSrc then s.immOut else s.rs1Data
def csrNewValueOut : Word := csrNewValue s.csrReadData s.csrOperand s.dec.csrOp
def csrDoWriteOut : Bool := csrDoWrite s.dec.csrSrc s.immOut s.dec.rs1 s.dec.csrOp
def csrIllegal : Bool := s.dec.csrOp != .none && s.csrReadFault

/-! ## Exceptions and the next pc -/

def reservedRd : Bool := s.dec.hasRd && s.dec.rd5.getLsbD 4
def reservedRs1 : Bool := s.dec.hasRs1 && s.dec.rs15.getLsbD 4
def reservedRs2 : Bool := s.dec.hasRs2 && s.dec.rs25.getLsbD 4

/-- `exc_take` and `exc_cause`: the cause of the first check that fires. -/
def exc : Option Word :=
  if misaligned4 s.fetchPcReg then some causeInstMisaligned
  else if s.fetchFaultReg then some causeInstAccessFault
  else if s.fetchMisalignedReg then some causeInstMisaligned
  else if s.dec.illegal || s.reservedRd || s.reservedRs1 || s.reservedRs2 || s.csrIllegal then
    some causeIllegalInst
  else if s.dec.jump && s.jumpOff then some causeInstMisaligned
  else if s.branchOff then some causeInstMisaligned
  else if s.dec.memRead && s.lsu.loadMisaligned then some causeLoadMisaligned
  else if s.dec.memRead && i.respLoadFault then some causeLoadAccessFault
  else if s.dec.memRead && i.respLoadMisaligned then some causeLoadMisaligned
  else if s.dec.memWrite && s.lsu.storeMisaligned then some causeStoreMisaligned
  else if s.dec.ecall then some causeEcallM
  else if s.dec.ebreak then some causeBreakpoint
  else none

def excTake : Bool := (s.exc i).isSome
def excCause : Word := (s.exc i).getD 0#32

def nextPc : Word :=
  if s.excTake i then s.csrFile.mtvec
  else if s.dec.mret then s.csrFile.mepc
  else if s.dec.jump then s.jumpTargetOut
  else if s.branchTakenOut then s.branchTargetOut
  else s.pc + 4#32

/-! ## Writeback -/

def rdValue : Word :=
  if s.dec.memRead then s.loadFinalData i
  else if s.dec.csrOp ≠ .none then s.csrReadData
  else if s.dec.jump then s.pc + 4#32
  else s.aluResult

def regWen : Bool :=
  s.executePhase && s.dec.regWrite && !s.excTake i && s.dec.rd != 0#4

def csrWrite : CsrWrite where
  writeEn := s.executePhase && s.dec.csrOp != .none && !s.excTake i && s.csrDoWriteOut
  writeAddr := s.dec.csrAddr
  writeData := s.csrNewValueOut
  excEn := s.executePhase && s.excTake i
  excMepc := s.fetchPcReg
  excMcause := s.excCause i

/-! ## One clock edge -/

/-- The branch that waits for the instruction. -/
def fetched : SingleCycle :=
  let quiet := { s with commitValid := false, fenceICommit := false }
  if i.respFetchValid then
    { quiet with
      instReg := i.respFetchInst
      fetchPcReg := s.pc
      fetchFaultReg := i.respFetchFault
      fetchMisalignedReg := i.respFetchMisaligned
      executePhase := true }
  else quiet

/-- The branch that retires the instruction. -/
def executed : SingleCycle :=
  { s with
    commitValid := true
    commitPc := s.fetchPcReg
    commitInst := s.instReg
    commitRd := if s.regWen i then s.dec.rd.setWidth 5 else 0#5
    commitRdValue := if s.regWen i then s.rdValue i else 0#32
    commitException := s.excTake i
    commitCause := s.excCause i
    commitNextPc := s.nextPc i
    fenceICommit := s.dec.fenceI && !s.excTake i
    executePhase := false
    pc := if s.excTake i then s.csrFile.mtvec else s.nextPc i
    halted := if s.excTake i then s.dec.ebreak else s.halted }

/-- The always-block of the core. -/
def clocked : SingleCycle :=
  if !s.halted && !s.executePhase then s.fetched i
  else if !s.halted then s.executed i
  else { s with commitValid := false, fenceICommit := false }

/-- One clock edge with `reset` low. -/
def next : SingleCycle :=
  { s.clocked i with
    regfile := s.regfile.next (s.regWen i) s.dec.rd (s.rdValue i)
    csrFile := s.csrFile.next (s.csrWrite i)
    clint := s.clint.next s.executePhase s.lsu.clintReqValid s.lsu.clintReqWen s.lsu.memAddr
      s.lsu.storeData }

/-- The registers while `reset` is high: the payload of the commit port is kept. -/
def reset : SingleCycle :=
  { s with
    pc := resetVector
    halted := false
    executePhase := false
    instReg := 0x00000013#32
    fetchPcReg := resetVector
    fetchFaultReg := false
    fetchMisalignedReg := false
    commitValid := false
    fenceICommit := false
    regfile := .reset
    csrFile := .reset
    clint := .reset }

/-- The run of the core from `s` under the response stream `ins`. -/
abbrev run (ins : Nat → SingleCycleIn) (n : Nat) : SingleCycle := Machine.run next s ins n

variable {s i}

/-! ## The three ways of an edge -/

theorem clocked_fetch (live : s.halted = false) (waits : s.executePhase = false) :
    s.clocked i = s.fetched i := by
  simp [clocked, live, waits]

theorem clocked_execute (live : s.halted = false) (executes : s.executePhase = true) :
    s.clocked i = s.executed i := by
  simp [clocked, live, executes]

theorem clocked_halted (halted : s.halted = true) :
    s.clocked i = { s with commitValid := false, fenceICommit := false } := by
  simp [clocked, halted]

theorem fetched_pc : (s.fetched i).pc = s.pc := by
  rw [fetched]
  split_ifs <;> rfl

theorem fetched_halted : (s.fetched i).halted = s.halted := by
  rw [fetched]
  split_ifs <;> rfl

/-- The branch that waits goes on to execute the word of its own pc. -/
theorem fetched_fetchPcReg (executes : (s.fetched i).executePhase = true)
    (waits : s.executePhase = false) : (s.fetched i).fetchPcReg = s.pc := by
  rw [fetched] at executes ⊢
  split_ifs with comes
  · rfl
  · rw [if_neg comes] at executes
    exact absurd (waits.symm.trans executes) (by decide)

/-! ## Reachable states -/

/-- A halted core is not executing, and every pc of the core is a multiple of four. -/
structure Wf (s : SingleCycle) : Prop where
  idle : s.halted = true → s.executePhase = false
  pc : misaligned4 s.pc = false
  fetchPcReg : s.executePhase = true → s.fetchPcReg = s.pc
  mtvec : misaligned4 s.csrFile.mtvec = false
  mepc : misaligned4 s.csrFile.mepc = false

theorem wf_reset (s : SingleCycle) : s.reset.Wf where
  idle _ := rfl
  pc := (by decide : misaligned4 resetVector = false)
  fetchPcReg executes := by
    have waits : s.reset.executePhase = false := rfl
    rw [waits] at executes
    cases executes
  mtvec := rfl
  mepc := rfl

theorem excTake_of_jumpOff (jump : s.dec.jump = true) (off : s.jumpOff = true) :
    s.excTake i = true := by
  have hit : (s.dec.jump && s.jumpOff) = true := by rw [jump, off]; rfl
  rw [excTake, exc, if_pos hit]
  split_ifs <;> rfl

theorem excTake_of_branchOff (off : s.branchOff = true) : s.excTake i = true := by
  rw [excTake, exc, if_pos off]
  split_ifs <;> rfl

/-- The core never goes on at a misaligned pc: a misaligned target is an exception. -/
theorem Wf.nextPc (wf : s.Wf) : misaligned4 (s.nextPc i) = false := by
  rw [SingleCycle.nextPc]
  split_ifs with raises mret jump taken
  · exact wf.mtvec
  · exact wf.mepc
  · by_contra off
    exact raises (excTake_of_jumpOff jump (Bool.of_not_eq_false off))
  · by_contra off
    have off' : s.branchOff = true := by
      rw [branchOff, branchTargetMisaligned, Bool.and_eq_true]
      exact ⟨taken, Bool.of_not_eq_false off⟩
    exact raises (excTake_of_branchOff off')
  · rw [misaligned4_add_four]
    exact wf.pc

theorem Wf.clocked_pc (wf : s.Wf) : misaligned4 (s.clocked i).pc = false := by
  cases halted : s.halted with
  | true =>
      rw [clocked_halted halted]
      exact wf.pc
  | false =>
      cases executes : s.executePhase with
      | false =>
          rw [clocked_fetch halted executes, fetched_pc]
          exact wf.pc
      | true =>
          rw [clocked_execute halted executes]
          show misaligned4 (if s.excTake i then s.csrFile.mtvec else s.nextPc i) = false
          split_ifs
          · exact wf.mtvec
          · exact wf.nextPc

theorem Wf.next (wf : s.Wf) (i : SingleCycleIn) : (s.next i).Wf where
  idle := by
    show (s.clocked i).halted = true → (s.clocked i).executePhase = false
    cases halted : s.halted with
    | true =>
        rw [clocked_halted halted]
        exact fun _ => wf.idle halted
    | false =>
        cases executes : s.executePhase with
        | false =>
            rw [clocked_fetch halted executes, fetched_halted, halted]
            exact fun false => nomatch false
        | true =>
            rw [clocked_execute halted executes]
            exact fun _ => rfl
  pc := wf.clocked_pc
  fetchPcReg := by
    show (s.clocked i).executePhase = true → (s.clocked i).fetchPcReg = (s.clocked i).pc
    cases halted : s.halted with
    | true =>
        rw [clocked_halted halted]
        exact wf.fetchPcReg
    | false =>
        cases executes : s.executePhase with
        | false =>
            rw [clocked_fetch halted executes, fetched_pc]
            exact fun goes => fetched_fetchPcReg goes executes
        | true =>
            rw [clocked_execute halted executes]
            exact fun false => nomatch false
  mtvec := by
    show misaligned4 (s.csrFile.next (s.csrWrite i)).mtvec = false
    rw [CsrFile.next]
    split_ifs
    · exact wf.mtvec
    · exact Pipeline.write_mtvec_aligned wf.mtvec _ _
    · exact wf.mtvec
  mepc := by
    show misaligned4 (s.csrFile.next (s.csrWrite i)).mepc = false
    rw [CsrFile.next]
    split_ifs with traps
    · simp only [csrWrite, Bool.and_eq_true] at traps
      show misaligned4 s.fetchPcReg = false
      rw [wf.fetchPcReg traps.1]
      exact wf.pc
    · exact Pipeline.write_mepc_aligned wf.mepc _ _
    · exact wf.mepc

/-- Every state of a run from reset is well formed. -/
theorem wf_run (s : SingleCycle) (ins : Nat → SingleCycleIn) (n : Nat) :
    (s.reset.run ins n).Wf := by
  induction n with
  | zero => exact wf_reset s
  | succ n wf => exact wf.next (ins n)

end SingleCycle

end NpcMachine.Rtl
