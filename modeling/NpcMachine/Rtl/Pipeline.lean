/-
# Rtl.Pipeline -- `npc_pipeline`

The state holds the registers of the pipeline and of its register file, CSR file
and CLINT.  Every wire is a function of the state `p` and, where it depends on a
response, of the inputs `i` of the cycle.  `next` is one clock edge with `reset`
low; the two always-blocks become one next-state function per register group, each
following the branches of the source in their order.
-/
import NpcMachine.Rtl.ArchState

namespace NpcMachine.Rtl

set_option autoImplicit false

/-! ## Registers -/

structure IfId where
  valid : Bool
  pc : Word
  inst : Word
  fetchFault : Bool
  fetchMisaligned : Bool
  deriving DecidableEq, Repr, Inhabited

structure IdEx where
  valid : Bool
  pc : Word
  inst : Word
  ctl : Ctl
  rs1Data : Word
  rs2Data : Word
  imm : Word
  csrData : Word
  csrFault : Bool
  fetchFault : Bool
  fetchMisaligned : Bool
  deriving DecidableEq, Repr, Inhabited

structure ExMem where
  valid : Bool
  pc : Word
  inst : Word
  rd : BitVec 4
  csrAddr : BitVec 12
  aluResult : Word
  rs2Data : Word
  csrData : Word
  csrNewValue : Word
  csrDoWrite : Bool
  regWrite : Bool
  memRead : Bool
  memWrite : Bool
  memSize : BitVec 2
  memSext : Bool
  csrOp : CsrOp
  jump : Bool
  fenceI : Bool
  exception : Bool
  cause : Word
  nextPc : Word
  ebreak : Bool
  deriving DecidableEq, Repr, Inhabited

structure MemWb where
  valid : Bool
  pc : Word
  inst : Word
  rd : BitVec 4
  csrAddr : BitVec 12
  rdValue : Word
  csrNewValue : Word
  csrDoWrite : Bool
  regWrite : Bool
  csrOp : CsrOp
  fenceI : Bool
  exception : Bool
  cause : Word
  nextPc : Word
  ebreak : Bool
  deriving DecidableEq, Repr, Inhabited

/-! A stage whose `valid` is assigned 0 keeps its payload. -/

def IfId.clear (r : IfId) : IfId := { r with valid := false }
def IdEx.clear (r : IdEx) : IdEx := { r with valid := false }
def ExMem.clear (r : ExMem) : ExMem := { r with valid := false }
def MemWb.clear (r : MemWb) : MemWb := { r with valid := false }

@[simp] theorem IfId.clear_valid (r : IfId) : r.clear.valid = false := rfl
@[simp] theorem IdEx.clear_valid (r : IdEx) : r.clear.valid = false := rfl
@[simp] theorem ExMem.clear_valid (r : ExMem) : r.clear.valid = false := rfl
@[simp] theorem MemWb.clear_valid (r : MemWb) : r.clear.valid = false := rfl

structure Pipeline where
  pc : Word
  halted : Bool
  fetchPending : Bool
  fetchPc : Word
  ifId : IfId
  idEx : IdEx
  exMem : ExMem
  memWb : MemWb
  regfile : Regfile
  csrFile : CsrFile
  clint : Clint
  deriving Inhabited

/-- The response ports: instruction fetch, load and store. -/
structure PipelineIn where
  respFetchValid : Bool
  respFetchInst : Word
  respFetchFault : Bool
  respFetchMisaligned : Bool
  reqLoadReady : Bool
  respLoadData : Word
  respLoadFault : Bool
  respLoadMisaligned : Bool
  reqStoreReady : Bool
  respStoreFault : Bool
  respStoreMisaligned : Bool
  deriving DecidableEq, Repr, Inhabited

namespace Pipeline

variable (p : Pipeline) (i : PipelineIn)

/-! ## WB and the commit interface -/

def regWen : Bool :=
  p.memWb.valid && p.memWb.regWrite && !p.memWb.exception && p.memWb.rd != 0#4

def csrWrite : CsrWrite where
  writeEn := p.memWb.valid && p.memWb.csrOp != .none && !p.memWb.exception && p.memWb.csrDoWrite
  writeAddr := p.memWb.csrAddr
  writeData := p.memWb.csrNewValue
  excEn := p.memWb.valid && p.memWb.exception
  excMepc := p.memWb.pc
  excMcause := p.memWb.cause

def commitValid : Bool := p.memWb.valid
def commitPc : Word := p.memWb.pc
def commitInst : Word := p.memWb.inst
def commitRd : BitVec 5 := if p.regWen then p.memWb.rd.setWidth 5 else 0#5
def commitRdValue : Word := if p.regWen then p.memWb.rdValue else 0#32
def commitException : Bool := p.memWb.exception
def commitCause : Word := p.memWb.cause
def commitNextPc : Word := p.memWb.nextPc
def fenceICommit : Bool := p.memWb.valid && p.memWb.fenceI && !p.memWb.exception

/-! ## MEM -/

def lsu : LsuIn where
  aluResult := p.exMem.aluResult
  rs2Data := p.exMem.rs2Data
  memRead := p.exMem.valid && p.exMem.memRead && !p.exMem.exception
  memWrite := p.exMem.valid && p.exMem.memWrite && !p.exMem.exception
  memSize := p.exMem.memSize
  memSext := p.exMem.memSext

def reqLoadValid : Bool := p.lsu.reqLoadValid
def reqLoadAddr : Word := p.lsu.memAddr
def reqLoadSize : BitVec 2 := p.lsu.memSize
def reqStoreValid : Bool := p.lsu.reqStoreValid
def reqStoreAddr : Word := p.lsu.memAddr
def reqStoreSize : BitVec 2 := p.lsu.memSize
def reqStoreData : Word := p.lsu.storeData

def clintRdata : Word :=
  p.clint.respRdata p.lsu.clintReqValid p.lsu.clintReqWen p.lsu.memAddr

def loadFinalData : Word := p.lsu.loadFinalData i.respLoadData p.clintRdata

/-- `mem_exception` and `mem_cause`; the branches share one guard, in source order. -/
def memFault : Option Word :=
  if p.exMem.exception then none
  else if p.exMem.memRead && p.lsu.loadMisaligned then some causeLoadMisaligned
  else if p.exMem.memRead && i.respLoadFault then some causeLoadAccessFault
  else if p.exMem.memRead && i.respLoadMisaligned then some causeLoadMisaligned
  else if p.exMem.memWrite && p.lsu.storeMisaligned then some causeStoreMisaligned
  else if p.exMem.memWrite && i.respStoreFault then some causeStoreAccessFault
  else if p.exMem.memWrite && i.respStoreMisaligned then some causeStoreMisaligned
  else none

def memException : Bool := p.exMem.exception || (p.memFault i).isSome
def memCause : Word := (p.memFault i).getD p.exMem.cause

/-- `ex_forward_value`; `mem_stage_rd_value` differs from it on loads only. -/
def exForwardValue : Word :=
  if p.exMem.csrOp ≠ .none then p.exMem.csrData
  else if p.exMem.jump then p.exMem.pc + 4#32
  else p.exMem.aluResult

def memStageRdValue : Word :=
  if p.exMem.memRead then p.loadFinalData i else p.exForwardValue

def exMemCanForward : Bool :=
  p.exMem.valid && p.exMem.regWrite && !p.exMem.memRead && !p.exMem.exception &&
    p.exMem.rd != 0#4

def memWbCanForward : Bool :=
  p.memWb.valid && p.memWb.regWrite && !p.memWb.exception && p.memWb.rd != 0#4

def memAccessWait : Bool :=
  p.exMem.valid && !p.exMem.exception &&
    ((p.exMem.memRead && !p.lsu.loadMisaligned && !p.lsu.clintIsAccess && !i.reqLoadReady) ||
      (p.exMem.memWrite && !p.lsu.storeMisaligned && !p.lsu.clintIsAccess && !i.reqStoreReady))

def memNewException : Bool := p.exMem.valid && !p.exMem.exception && p.memException i
def memRedirect : Bool := p.memNewException i

/-! ## EX -/

/-- `ex_rs1_value` and `ex_rs2_value`: one source register behind both forwards. -/
def exSource (rs : BitVec 4) (data : Word) : Word :=
  if rs != 0#4 && p.exMemCanForward && p.exMem.rd == rs then p.exForwardValue
  else if rs != 0#4 && p.memWbCanForward && p.memWb.rd == rs then p.memWb.rdValue
  else data

def exRs1Value : Word := p.exSource p.idEx.ctl.rs1 p.idEx.rs1Data
def exRs2Value : Word := p.exSource p.idEx.ctl.rs2 p.idEx.rs2Data

def exAluResult : Word :=
  alu p.exRs1Value p.exRs2Value p.idEx.pc p.idEx.imm p.idEx.ctl.aluOp p.idEx.ctl.aluSrcA
    p.idEx.ctl.aluSrcB

def exBranchTaken : Bool := branchTaken p.exRs1Value p.exRs2Value p.idEx.ctl.branchType
def exBranchTarget : Word := branchTarget p.idEx.pc p.idEx.imm
def exJumpTarget : Word := jumpTarget p.idEx.pc p.idEx.imm p.exRs1Value p.idEx.ctl.jumpReg

def exBranchTargetMisaligned : Bool :=
  branchTargetMisaligned p.idEx.pc p.idEx.imm p.exRs1Value p.exRs2Value p.idEx.ctl.branchType

def exJumpTargetMisaligned : Bool :=
  jumpTargetMisaligned p.idEx.pc p.idEx.imm p.exRs1Value p.idEx.ctl.jumpReg

def exCsrOperand : Word := if p.idEx.ctl.csrSrc then p.idEx.imm else p.exRs1Value

end Pipeline

/-- `ex_csr_new_value`, from the value read and the operand. -/
def csrNewValue (old operand : Word) : CsrOp → Word
  | .rw | .rwi => operand
  | .rs | .rsi => old ||| operand
  | .rc | .rci => old &&& ~~~operand
  | .none => old

/-- `ex_csr_do_write`; set and clear with a zero source do not write. -/
def csrDoWrite (src : Bool) (imm : Word) (rs1 : BitVec 4) : CsrOp → Bool
  | .rw | .rwi => true
  | .rs | .rsi | .rc | .rci =>
      !((src && imm.extractLsb' 0 5 == 0#5) || (!src && rs1 == 0#4))
  | .none => false

namespace Pipeline

variable (p : Pipeline) (i : PipelineIn)

def exCsrNewValue : Word := csrNewValue p.idEx.csrData p.exCsrOperand p.idEx.ctl.csrOp

def exCsrDoWrite : Bool :=
  csrDoWrite p.idEx.ctl.csrSrc p.idEx.imm p.idEx.ctl.rs1 p.idEx.ctl.csrOp

def idExReservedRd : Bool := p.idEx.ctl.hasRd && p.idEx.ctl.rd5.getLsbD 4
def idExReservedRs1 : Bool := p.idEx.ctl.hasRs1 && p.idEx.ctl.rs15.getLsbD 4
def idExReservedRs2 : Bool := p.idEx.ctl.hasRs2 && p.idEx.ctl.rs25.getLsbD 4
def idExCsrIllegal : Bool := p.idEx.ctl.csrOp != .none && p.idEx.csrFault

/-- `ex_exception` and `ex_cause`: the cause of the first check that fires. -/
def exFault : Option Word :=
  if misaligned4 p.idEx.pc then some causeInstMisaligned
  else if p.idEx.fetchFault then some causeInstAccessFault
  else if p.idEx.fetchMisaligned then some causeInstMisaligned
  else if p.idEx.ctl.illegal || p.idExReservedRd || p.idExReservedRs1 || p.idExReservedRs2 ||
      p.idExCsrIllegal then some causeIllegalInst
  else if p.idEx.ctl.jump && p.exJumpTargetMisaligned then some causeInstMisaligned
  else if p.exBranchTargetMisaligned then some causeInstMisaligned
  else if p.idEx.ctl.ecall then some causeEcallM
  else if p.idEx.ctl.ebreak then some causeBreakpoint
  else none

def exException : Bool := p.exFault.isSome
def exCause : Word := p.exFault.getD 0#32

def exNextPc : Word :=
  if p.exException then p.csrFile.mtvec
  else if p.idEx.ctl.mret then p.csrFile.mepc
  else if p.idEx.ctl.jump then p.exJumpTarget
  else if p.exBranchTaken then p.exBranchTarget
  else p.idEx.pc + 4#32

def exRedirect : Bool :=
  p.idEx.valid && (p.exException || p.idEx.ctl.mret || p.idEx.ctl.jump || p.exBranchTaken)

/-! ## ID, hazards and fetch control -/

def dec : DecoderOut := decoder p.ifId.inst
def decImm : Word := imm p.ifId.inst p.dec.immSel

/-- A register read in ID with the write of WB bypassed. -/
def decSource (rs : BitVec 4) : Word :=
  if rs != 0#4 && p.regWen && p.memWb.rd == rs then p.memWb.rdValue else p.regfile.read rs

def decUsesRs1 : Bool := p.ifId.valid && p.dec.hasRs1
def decUsesRs2 : Bool := p.ifId.valid && p.dec.hasRs2

def loadUseStall : Bool :=
  p.ifId.valid && p.idEx.valid && p.idEx.ctl.memRead && p.idEx.ctl.regWrite &&
    p.idEx.ctl.rd != 0#4 &&
    ((p.decUsesRs1 && p.dec.rs1 == p.idEx.ctl.rd) || (p.decUsesRs2 && p.dec.rs2 == p.idEx.ctl.rd))

def wbWillHalt : Bool := p.memWb.valid && p.memWb.exception && p.memWb.ebreak

def haltPending : Bool :=
  (p.idEx.valid && p.idEx.ctl.ebreak) || (p.exMem.valid && p.exMem.ebreak) ||
    (p.memWb.valid && p.memWb.ebreak)

/-- A register that ID/EX or EX/MEM is going to write. -/
def writeAhead (rs : BitVec 4) : Bool :=
  (p.idEx.valid && p.idEx.ctl.regWrite && p.idEx.ctl.rd == rs) ||
    (p.exMem.valid && p.exMem.regWrite && p.exMem.rd == rs)

def storeDataStall : Bool :=
  p.ifId.valid && p.dec.memWrite &&
    ((p.dec.hasRs1 && p.dec.rs1 != 0#4 && p.writeAhead p.dec.rs1) ||
      (p.dec.hasRs2 && p.dec.rs2 != 0#4 && p.writeAhead p.dec.rs2))

def storeBusy : Bool :=
  (p.idEx.valid && p.idEx.ctl.memWrite) || (p.exMem.valid && p.exMem.memWrite) ||
    (p.memWb.valid && opcode p.memWb.inst == 0b0100011#7)

def storeLoadStall : Bool := p.ifId.valid && p.dec.memRead && p.storeBusy

def csrBusy : Bool :=
  (p.idEx.valid && p.idEx.ctl.csrOp != .none) || (p.exMem.valid && p.exMem.csrOp != .none) ||
    (p.memWb.valid && p.memWb.csrOp != .none)

def csrStall : Bool := p.ifId.valid && p.csrBusy

def idStall : Bool :=
  p.memAccessWait i || p.loadUseStall || p.storeDataStall || p.storeLoadStall || p.csrStall

def ifIdAccept : Bool := !p.ifId.valid || (!p.idStall i && !p.exRedirect && !p.memRedirect i)

def fetchCanStart : Bool :=
  !p.halted && !p.haltPending && !p.wbWillHalt && !p.memAccessWait i && !p.fetchPending &&
    p.ifIdAccept i && !p.exRedirect && !p.memRedirect i

def reqFetchValid : Bool :=
  (p.fetchPending && !p.haltPending && !p.wbWillHalt) || p.fetchCanStart i

def reqFetchAddr : Word := if p.fetchPending then p.fetchPc else p.pc

def fetchCapture : Bool :=
  i.respFetchValid && p.ifIdAccept i && !p.exRedirect && !p.wbWillHalt

/-! ## One clock edge -/

def nextHalted : Bool := if p.wbWillHalt then true else p.halted

def nextPc : Word :=
  if p.wbWillHalt then p.pc
  else if p.memRedirect i then p.csrFile.mtvec
  else if p.exRedirect then p.exNextPc
  else if p.fetchCapture i then p.reqFetchAddr + 4#32
  else p.pc

def nextFetchPending : Bool :=
  if p.wbWillHalt then false
  else if p.memRedirect i then false
  else if p.exRedirect then false
  else if p.fetchCapture i then false
  else if p.fetchCanStart i then true
  else p.fetchPending

def nextFetchPc : Word :=
  if p.wbWillHalt then p.fetchPc
  else if p.memRedirect i then p.fetchPc
  else if p.exRedirect then p.fetchPc
  else if p.fetchCanStart i then p.pc
  else p.fetchPc

def nextIfId : IfId :=
  if p.wbWillHalt then p.ifId.clear
  else if p.memRedirect i then p.ifId.clear
  else if p.exRedirect then p.ifId.clear
  else if p.fetchCapture i then
    { valid := true
      pc := p.reqFetchAddr
      inst := i.respFetchInst
      fetchFault := i.respFetchFault
      fetchMisaligned := i.respFetchMisaligned }
  else if !p.idStall i && p.ifId.valid then p.ifId.clear
  else p.ifId

/-- The ID/EX register loaded from ID. -/
def decoded : IdEx where
  valid := p.ifId.valid
  pc := p.ifId.pc
  inst := p.ifId.inst
  ctl := p.dec.toCtl
  rs1Data := p.decSource p.dec.rs1
  rs2Data := p.decSource p.dec.rs2
  imm := p.decImm
  csrData := p.csrFile.readData p.dec.csrAddr
  csrFault := CsrFile.readFault p.dec.csrAddr
  fetchFault := p.ifId.fetchFault
  fetchMisaligned := p.ifId.fetchMisaligned

def nextIdEx : IdEx :=
  if p.wbWillHalt then p.idEx.clear
  else if p.memRedirect i then p.idEx.clear
  else if p.exRedirect then p.idEx.clear
  else if p.memAccessWait i then p.idEx
  else if !p.idStall i then p.decoded
  else p.idEx.clear

/-- The EX/MEM register loaded from EX. -/
def executed : ExMem where
  valid := p.idEx.valid
  pc := p.idEx.pc
  inst := p.idEx.inst
  rd := p.idEx.ctl.rd
  csrAddr := p.idEx.ctl.csrAddr
  aluResult := p.exAluResult
  rs2Data := p.exRs2Value
  csrData := p.idEx.csrData
  csrNewValue := p.exCsrNewValue
  csrDoWrite := p.exCsrDoWrite
  regWrite := p.idEx.ctl.regWrite
  memRead := p.idEx.ctl.memRead
  memWrite := p.idEx.ctl.memWrite
  memSize := p.idEx.ctl.memSize
  memSext := p.idEx.ctl.memSext
  csrOp := p.idEx.ctl.csrOp
  jump := p.idEx.ctl.jump
  fenceI := p.idEx.ctl.fenceI
  exception := p.exException
  cause := p.exCause
  nextPc := p.exNextPc
  ebreak := p.idEx.ctl.ebreak

def nextExMem : ExMem :=
  if p.wbWillHalt then p.exMem.clear
  else if p.memRedirect i then p.exMem.clear
  else if p.memAccessWait i then p.exMem
  else p.executed

/-- The MEM/WB register loaded from MEM. -/
def accessed : MemWb where
  valid := p.exMem.valid
  pc := p.exMem.pc
  inst := p.exMem.inst
  rd := p.exMem.rd
  csrAddr := p.exMem.csrAddr
  rdValue := p.memStageRdValue i
  csrNewValue := p.exMem.csrNewValue
  csrDoWrite := p.exMem.csrDoWrite
  regWrite := p.exMem.regWrite
  csrOp := p.exMem.csrOp
  fenceI := p.exMem.fenceI
  exception := p.memException i
  cause := p.memCause i
  nextPc := if p.memNewException i then p.csrFile.mtvec else p.exMem.nextPc
  ebreak := p.exMem.ebreak

def nextMemWb : MemWb :=
  if p.wbWillHalt then p.memWb.clear
  else if p.memRedirect i then p.accessed i
  else if p.memAccessWait i then p.memWb.clear
  else p.accessed i

/-- One clock edge with `reset` low. -/
def next : Pipeline where
  pc := p.nextPc i
  halted := p.nextHalted
  fetchPending := p.nextFetchPending i
  fetchPc := p.nextFetchPc i
  ifId := p.nextIfId i
  idEx := p.nextIdEx i
  exMem := p.nextExMem i
  memWb := p.nextMemWb i
  regfile := p.regfile.next p.regWen p.memWb.rd p.memWb.rdValue
  csrFile := p.csrFile.next p.csrWrite
  clint := p.clint.next p.commitValid p.lsu.clintReqValid p.lsu.clintReqWen p.lsu.memAddr
    p.lsu.storeData

/-- The registers while `reset` is high: the payload of an invalid stage is kept. -/
def reset : Pipeline where
  pc := resetVector
  halted := false
  fetchPending := false
  fetchPc := resetVector
  ifId := p.ifId.clear
  idEx := p.idEx.clear
  exMem := p.exMem.clear
  memWb := p.memWb.clear
  regfile := .reset
  csrFile := .reset
  clint := .reset

/-- The same in a build that sets the macro `RESET_VECTOR`. -/
def resetAt (vector : Word) : Pipeline :=
  { p.reset with
    pc := vector
    fetchPc := vector }

theorem resetAt_default : p.resetAt resetVector = p.reset := rfl

end Pipeline

end NpcMachine.Rtl
