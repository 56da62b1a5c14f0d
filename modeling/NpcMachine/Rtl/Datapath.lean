/-
# Rtl.Datapath -- the combinational units of the pipeline

`npc_alu`, `npc_branch` and `npc_load_store_unit`, each a function of its input
ports.  The load/store unit is one definition per output: its load result reads
`clint_rdata`, which the CLINT computes from the unit's own request.
-/
import NpcMachine.Rtl.Decoder

namespace NpcMachine.Rtl

set_option autoImplicit false

/-! ## `npc_alu` -/

def aluOp1 (rs1Data pc : Word) : AluSrcA → Word
  | .rs1 => rs1Data
  | .pc => pc
  | .zero => 0#32

def aluOp2 (rs2Data imm : Word) : AluSrcB → Word
  | .rs2 => rs2Data
  | .imm => imm

/-- The five-bit shift amount `alu_op2[4:0]`. -/
def shamt (op2 : Word) : Nat := (op2.extractLsb' 0 5).toNat

def aluCompute (op1 op2 : Word) : AluOp → Word
  | .add => op1 + op2
  | .sub => op1 - op2
  | .slt => if op1.slt op2 then 1#32 else 0#32
  | .sltu => if op1.ult op2 then 1#32 else 0#32
  | .xor => op1 ^^^ op2
  | .or => op1 ||| op2
  | .and => op1 &&& op2
  | .sll => op1 <<< shamt op2
  | .srl => op1 >>> shamt op2
  | .sra => op1.sshiftRight (shamt op2)

def alu (rs1Data rs2Data pc imm : Word) (op : AluOp) (srcA : AluSrcA) (srcB : AluSrcB) : Word :=
  aluCompute (aluOp1 rs1Data pc srcA) (aluOp2 rs2Data imm srcB) op

/-! ## `npc_branch` -/

def branchTaken (rs1Data rs2Data : Word) : BranchType → Bool
  | .none => false
  | .beq => rs1Data == rs2Data
  | .bne => rs1Data != rs2Data
  | .blt => rs1Data.slt rs2Data
  | .bge => !rs1Data.slt rs2Data
  | .bltu => rs1Data.ult rs2Data
  | .bgeu => !rs1Data.ult rs2Data

def branchTarget (pc imm : Word) : Word := pc + imm

def jumpTarget (pc imm rs1Data : Word) (jumpReg : Bool) : Word :=
  if jumpReg then (rs1Data + imm) &&& 0xFFFFFFFE#32 else pc + imm

/-- `addr[1:0] != 2'b00`. -/
def misaligned4 (addr : Word) : Bool := addr.extractLsb' 0 2 != 0#2

theorem misaligned4_add_four (addr : Word) : misaligned4 (addr + 4#32) = misaligned4 addr := by
  have low : (addr + 4#32).extractLsb' 0 2 = addr.extractLsb' 0 2 := by
    have four : BitVec.setWidth 2 4#32 = 0#2 := by decide
    rw [← BitVec.setWidth_eq_extractLsb' (by omega), BitVec.setWidth_add _ _ (by omega), four,
      BitVec.add_zero, BitVec.setWidth_eq_extractLsb' (by omega)]
  rw [misaligned4, low, misaligned4]

theorem misaligned4_mask (addr : Word) : misaligned4 (addr &&& 0xFFFFFFFC#32) = false := by
  have low : (addr &&& 0xFFFFFFFC#32).extractLsb' 0 2 = 0#2 := by
    rw [BitVec.extractLsb'_and]
    simp
  simp [misaligned4, low]

def branchTargetMisaligned (pc imm rs1Data rs2Data : Word) (type : BranchType) : Bool :=
  branchTaken rs1Data rs2Data type && misaligned4 (branchTarget pc imm)

def jumpTargetMisaligned (pc imm rs1Data : Word) (jumpReg : Bool) : Bool :=
  misaligned4 (jumpTarget pc imm rs1Data jumpReg)

/-! ## `npc_load_store_unit` -/

/-- The address test of `clint_is_access`. -/
def inClint (addr : Word) : Bool := clintBase.ule addr && addr.ult (clintBase + clintSize)

/-- The request side of the unit's input ports. -/
structure LsuIn where
  aluResult : Word
  rs2Data : Word
  memRead : Bool
  memWrite : Bool
  memSize : BitVec 2
  memSext : Bool
  deriving DecidableEq, Repr

namespace LsuIn

variable (u : LsuIn)

def memAddr : Word := u.aluResult

def storeData : Word := u.rs2Data

def clintIsAccess : Bool := inClint u.memAddr

def reqLoadValid : Bool := u.memRead && !u.clintIsAccess
def reqStoreValid : Bool := u.memWrite && !u.clintIsAccess
def clintReqValid : Bool := (u.memRead || u.memWrite) && u.clintIsAccess
def clintReqWen : Bool := u.memWrite

/-- The alignment test both outputs share, by access size. -/
def addrMisaligned : Bool :=
  if u.memSize = memSizeByte then false
  else if u.memSize = memSizeHalf then u.memAddr.extractLsb' 0 1 != 0#1
  else if u.memSize = memSizeWord then misaligned4 u.memAddr
  else false

def loadMisaligned : Bool := u.memRead && u.addrMisaligned
def storeMisaligned : Bool := u.memWrite && u.addrMisaligned

def loadAlignedData (respLoadData : Word) : Word :=
  if u.memSize = memSizeByte then
    let data := (respLoadData.extractLsb' 0 8).signExtend 32
    if u.memSext then data else data &&& 0x000000FF#32
  else if u.memSize = memSizeHalf then
    let data := (respLoadData.extractLsb' 0 16).signExtend 32
    if u.memSext then data else data &&& 0x0000FFFF#32
  else respLoadData

def loadFinalData (respLoadData clintRdata : Word) : Word :=
  if u.clintIsAccess then clintRdata else u.loadAlignedData respLoadData

end LsuIn

end NpcMachine.Rtl
