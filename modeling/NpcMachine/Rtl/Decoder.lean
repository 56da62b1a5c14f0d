/-
# Rtl.Decoder -- `npc_decoder` and `npc_imm`

The decoder starts from one default bundle and overrides fields per major
opcode; each arm of the opcode case is a definition of its own, and a field that an
arm assigns under further cases is one expression in them.
-/
import NpcMachine.Rtl.Defines

namespace NpcMachine.Rtl

set_option autoImplicit false

/-! ## Instruction fields -/

def opcode (inst : Word) : BitVec 7 := inst.extractLsb' 0 7
def funct3 (inst : Word) : BitVec 3 := inst.extractLsb' 12 3
def funct7 (inst : Word) : BitVec 7 := inst.extractLsb' 25 7
def funct12 (inst : Word) : BitVec 12 := inst.extractLsb' 20 12

/-- The decoder outputs that the ID/EX register keeps. -/
structure Ctl where
  rd5 : BitVec 5
  rs15 : BitVec 5
  rs25 : BitVec 5
  rd : BitVec 4
  rs1 : BitVec 4
  rs2 : BitVec 4
  csrAddr : BitVec 12
  illegal : Bool
  ecall : Bool
  ebreak : Bool
  mret : Bool
  fenceI : Bool
  aluOp : AluOp
  aluSrcA : AluSrcA
  aluSrcB : AluSrcB
  regWrite : Bool
  memRead : Bool
  memWrite : Bool
  memSize : BitVec 2
  memSext : Bool
  branchType : BranchType
  jump : Bool
  jumpReg : Bool
  csrOp : CsrOp
  csrSrc : Bool
  hasRd : Bool
  hasRs1 : Bool
  hasRs2 : Bool
  deriving DecidableEq, Repr, Inhabited

/-- All decoder outputs: `wfi` is read by nobody, `immSel` only in ID. -/
structure DecoderOut extends Ctl where
  wfi : Bool
  immSel : ImmSel
  deriving DecidableEq, Repr, Inhabited

/-- The assignments ahead of the opcode case. -/
def decoderDefault (inst : Word) : DecoderOut where
  rd5 := inst.extractLsb' 7 5
  rs15 := inst.extractLsb' 15 5
  rs25 := inst.extractLsb' 20 5
  rd := inst.extractLsb' 7 4
  rs1 := inst.extractLsb' 15 4
  rs2 := inst.extractLsb' 20 4
  csrAddr := inst.extractLsb' 20 12
  illegal := false
  ecall := false
  ebreak := false
  mret := false
  fenceI := false
  aluOp := .add
  aluSrcA := .rs1
  aluSrcB := .imm
  regWrite := false
  memRead := false
  memWrite := false
  memSize := memSizeByte
  memSext := false
  branchType := .none
  jump := false
  jumpReg := false
  csrOp := .none
  csrSrc := false
  hasRd := false
  hasRs1 := false
  hasRs2 := false
  wfi := false
  immSel := .i

/-! ## Major opcodes -/

/-- The arms of the opcode case; `SYSTEM` is split by `funct3 = 0`. -/
inductive Major where
  | opImm | op | lui | auipc | jal | jalr | branch | load | store | miscMem | priv | csr | unknown
  deriving DecidableEq, Repr, Inhabited

def major (inst : Word) : Major :=
  if opcode inst = 0b0010011#7 then .opImm
  else if opcode inst = 0b0110011#7 then .op
  else if opcode inst = 0b0110111#7 then .lui
  else if opcode inst = 0b0010111#7 then .auipc
  else if opcode inst = 0b1101111#7 then .jal
  else if opcode inst = 0b1100111#7 then .jalr
  else if opcode inst = 0b1100011#7 then .branch
  else if opcode inst = 0b0000011#7 then .load
  else if opcode inst = 0b0100011#7 then .store
  else if opcode inst = 0b0001111#7 then .miscMem
  else if opcode inst = 0b1110011#7 then
    if funct3 inst = 0b000#3 then .priv else .csr
  else .unknown

/-- The opcode of an arm; `SYSTEM` is shared by two. -/
def Major.code : Major → BitVec 7
  | .opImm => 0b0010011#7
  | .op => 0b0110011#7
  | .lui => 0b0110111#7
  | .auipc => 0b0010111#7
  | .jal => 0b1101111#7
  | .jalr => 0b1100111#7
  | .branch => 0b1100011#7
  | .load => 0b0000011#7
  | .store => 0b0100011#7
  | .miscMem => 0b0001111#7
  | .priv | .csr => 0b1110011#7
  | .unknown => 0b0000000#7

theorem opcode_of_major (inst : Word) (known : major inst ≠ .unknown) :
    opcode inst = (major inst).code := by
  revert known
  let named : Major → Prop := fun m => m ≠ .unknown → opcode inst = m.code
  show named (major inst)
  iterate 10
    refine iteInduction (fun found _ => found) fun _ => ?_
  refine iteInduction (fun found => ?_) fun _ known => absurd rfl known
  exact iteInduction (fun _ _ => found) fun _ _ => found

/-! ## One definition per arm -/

/-- `SRL` or `SRA` by `funct7`, shared by `OP-IMM` and `OP`. -/
def shiftRightOp (f7 : BitVec 7) : AluOp :=
  if f7 = 0b0000000#7 then .srl else if f7 = 0b0100000#7 then .sra else .add

def shiftRightIllegal (f7 : BitVec 7) : Bool := f7 != 0b0000000#7 && f7 != 0b0100000#7

def decodeOpImm (inst : Word) : DecoderOut :=
  { decoderDefault inst with
    hasRd := true
    hasRs1 := true
    regWrite := true
    aluOp :=
      if funct3 inst = 0b000#3 then .add
      else if funct3 inst = 0b010#3 then .slt
      else if funct3 inst = 0b011#3 then .sltu
      else if funct3 inst = 0b100#3 then .xor
      else if funct3 inst = 0b110#3 then .or
      else if funct3 inst = 0b111#3 then .and
      else if funct3 inst = 0b001#3 then
        if funct7 inst = 0b0000000#7 then .sll else .add
      else shiftRightOp (funct7 inst)
    illegal :=
      (funct3 inst == 0b101#3 && shiftRightIllegal (funct7 inst)) ||
        (funct3 inst == 0b001#3 && funct7 inst != 0b0000000#7) }

def opIllegal (inst : Word) : Bool :=
  if funct3 inst = 0b000#3 ∨ funct3 inst = 0b101#3 then shiftRightIllegal (funct7 inst)
  else funct7 inst != 0b0000000#7

/-- The ALU operation of a legal `OP` word; an illegal one keeps the default. -/
def opAluOp (inst : Word) : AluOp :=
  if opIllegal inst then .add
  else if funct3 inst = 0b000#3 then if funct7 inst = 0b0000000#7 then .add else .sub
  else if funct3 inst = 0b101#3 then shiftRightOp (funct7 inst)
  else if funct3 inst = 0b001#3 then .sll
  else if funct3 inst = 0b010#3 then .slt
  else if funct3 inst = 0b011#3 then .sltu
  else if funct3 inst = 0b100#3 then .xor
  else if funct3 inst = 0b110#3 then .or
  else .and

def decodeOp (inst : Word) : DecoderOut :=
  { decoderDefault inst with
    hasRd := true
    hasRs1 := true
    hasRs2 := true
    regWrite := true
    aluSrcB := .rs2
    aluOp := opAluOp inst
    illegal := opIllegal inst }

def decodeLui (inst : Word) : DecoderOut :=
  { decoderDefault inst with hasRd := true, regWrite := true, aluSrcA := .zero, immSel := .u }

def decodeAuipc (inst : Word) : DecoderOut :=
  { decoderDefault inst with hasRd := true, regWrite := true, aluSrcA := .pc, immSel := .u }

def decodeJal (inst : Word) : DecoderOut :=
  { decoderDefault inst with
    hasRd := true, regWrite := true, aluSrcA := .pc, immSel := .j, jump := true }

/-- `JALR` needs `funct3 = 0`; its source and immediate selects are the defaults. -/
def decodeJalr (inst : Word) : DecoderOut :=
  { decoderDefault inst with
    hasRd := funct3 inst == 0b000#3
    hasRs1 := funct3 inst == 0b000#3
    regWrite := funct3 inst == 0b000#3
    jump := funct3 inst == 0b000#3
    jumpReg := funct3 inst == 0b000#3
    illegal := funct3 inst != 0b000#3 }

def decodeBranch (inst : Word) : DecoderOut :=
  { decoderDefault inst with
    hasRs1 := true
    hasRs2 := true
    aluSrcB := .rs2
    immSel := .b
    branchType :=
      if funct3 inst = 0b000#3 then .beq
      else if funct3 inst = 0b001#3 then .bne
      else if funct3 inst = 0b100#3 then .blt
      else if funct3 inst = 0b101#3 then .bge
      else if funct3 inst = 0b110#3 then .bltu
      else if funct3 inst = 0b111#3 then .bgeu
      else .none
    illegal := funct3 inst == 0b010#3 || funct3 inst == 0b011#3 }

def decodeLoad (inst : Word) : DecoderOut :=
  { decoderDefault inst with
    hasRd := true
    hasRs1 := true
    regWrite := true
    memRead := true
    memSize := (funct3 inst).extractLsb' 0 2
    memSext := !(funct3 inst).getLsbD 2
    illegal :=
      (funct3 inst).extractLsb' 0 2 == 0b11#2 ||
        (funct3 inst == 0b010#3 && (funct3 inst).getLsbD 2) ||
        (funct3 inst == 0b110#3 || funct3 inst == 0b111#3) }

def decodeStore (inst : Word) : DecoderOut :=
  { decoderDefault inst with
    hasRs1 := true
    hasRs2 := true
    memWrite := true
    memSize := (funct3 inst).extractLsb' 0 2
    immSel := .s
    illegal := (funct3 inst).getLsbD 2 || (funct3 inst).extractLsb' 0 2 == 0b11#2 }

/-- `FENCE` is a nop with any operands, `FENCE.I` an exact encoding. -/
def isFenceI (inst : Word) : Bool :=
  funct3 inst == 0b001#3 && inst.extractLsb' 15 17 == 0#17

def decodeMiscMem (inst : Word) : DecoderOut :=
  { decoderDefault inst with
    fenceI := isFenceI inst
    illegal := funct3 inst != 0b000#3 && !isFenceI inst }

/-- `SYSTEM` with `funct3 = 0`; only `funct12` is compared. -/
def decodePriv (inst : Word) : DecoderOut :=
  { decoderDefault inst with
    ecall := funct12 inst == 0x000#12
    ebreak := funct12 inst == 0x001#12
    mret := funct12 inst == 0x302#12
    wfi := funct12 inst == 0x105#12
    illegal := !(funct12 inst == 0x000#12 || funct12 inst == 0x001#12 ||
      funct12 inst == 0x302#12 || funct12 inst == 0x105#12) }

def decodeCsr (inst : Word) : DecoderOut :=
  { decoderDefault inst with
    hasRd := true
    regWrite := true
    csrSrc := (funct3 inst).getLsbD 2
    csrOp :=
      if funct3 inst = 0b001#3 then .rw
      else if funct3 inst = 0b010#3 then .rs
      else if funct3 inst = 0b011#3 then .rc
      else if funct3 inst = 0b101#3 then .rwi
      else if funct3 inst = 0b110#3 then .rsi
      else if funct3 inst = 0b111#3 then .rci
      else .none
    hasRs1 := funct3 inst == 0b001#3 || funct3 inst == 0b010#3 || funct3 inst == 0b011#3
    immSel :=
      if funct3 inst = 0b101#3 ∨ funct3 inst = 0b110#3 ∨ funct3 inst = 0b111#3 then .z else .i
    illegal := funct3 inst == 0b100#3 }

/-- `npc_decoder`. -/
def decoder (inst : Word) : DecoderOut :=
  match major inst with
  | .opImm => decodeOpImm inst
  | .op => decodeOp inst
  | .lui => decodeLui inst
  | .auipc => decodeAuipc inst
  | .jal => decodeJal inst
  | .jalr => decodeJalr inst
  | .branch => decodeBranch inst
  | .load => decodeLoad inst
  | .store => decodeStore inst
  | .miscMem => decodeMiscMem inst
  | .priv => decodePriv inst
  | .csr => decodeCsr inst
  | .unknown => { decoderDefault inst with illegal := true }

/-! ## The outputs by major opcode

Every other module reads the decoder through these lemmas. -/

@[simp] theorem decoder_rd5 (inst : Word) : (decoder inst).rd5 = inst.extractLsb' 7 5 := by
  unfold decoder; cases major inst <;> rfl

@[simp] theorem decoder_rs15 (inst : Word) : (decoder inst).rs15 = inst.extractLsb' 15 5 := by
  unfold decoder; cases major inst <;> rfl

@[simp] theorem decoder_rs25 (inst : Word) : (decoder inst).rs25 = inst.extractLsb' 20 5 := by
  unfold decoder; cases major inst <;> rfl

@[simp] theorem decoder_rd (inst : Word) : (decoder inst).rd = inst.extractLsb' 7 4 := by
  unfold decoder; cases major inst <;> rfl

@[simp] theorem decoder_rs1 (inst : Word) : (decoder inst).rs1 = inst.extractLsb' 15 4 := by
  unfold decoder; cases major inst <;> rfl

@[simp] theorem decoder_rs2 (inst : Word) : (decoder inst).rs2 = inst.extractLsb' 20 4 := by
  unfold decoder; cases major inst <;> rfl

@[simp] theorem decoder_csrAddr (inst : Word) :
    (decoder inst).csrAddr = inst.extractLsb' 20 12 := by
  unfold decoder; cases major inst <;> rfl

theorem decoder_memRead (inst : Word) : (decoder inst).memRead = (major inst == .load) := by
  unfold decoder; cases major inst <;> rfl

theorem decoder_memWrite (inst : Word) : (decoder inst).memWrite = (major inst == .store) := by
  unfold decoder; cases major inst <;> rfl

theorem decoder_ebreak (inst : Word) :
    (decoder inst).ebreak = (major inst == .priv && funct12 inst == 0x001#12) := by
  unfold decoder; cases major inst <;> rfl

theorem decoder_jump (inst : Word) :
    (decoder inst).jump = (major inst == .jal || (major inst == .jalr && funct3 inst == 0#3)) := by
  unfold decoder; cases major inst <;> rfl

theorem decoder_mret (inst : Word) :
    (decoder inst).mret = (major inst == .priv && funct12 inst == 0x302#12) := by
  unfold decoder; cases major inst <;> rfl

theorem decoder_branchType (inst : Word) (other : major inst ≠ .branch) :
    (decoder inst).branchType = .none := by
  unfold decoder; revert other; cases major inst <;> intro other <;> first | rfl | contradiction

theorem decoder_csrOp (inst : Word) (other : major inst ≠ .csr) :
    (decoder inst).csrOp = .none := by
  unfold decoder; revert other; cases major inst <;> intro other <;> first | rfl | contradiction

/-- An instruction that writes a register names it. -/
theorem decoder_regWrite (inst : Word) : (decoder inst).regWrite = (decoder inst).hasRd := by
  unfold decoder; cases major inst <;> rfl

theorem major_eq_store (inst : Word) : major inst = .store ↔ opcode inst = 0b0100011#7 := by
  constructor
  · intro same
    rw [opcode_of_major inst (by simp [same]), same]
    rfl
  · intro same
    unfold major
    rw [same]
    rfl

/-- Loads, stores, jumps and CSR instructions exclude each other. -/
theorem decoder_of_memWrite {inst : Word} (writes : (decoder inst).memWrite = true) :
    (decoder inst).memRead = false ∧ (decoder inst).csrOp = .none ∧
      (decoder inst).jump = false := by
  have store : major inst = .store := by simpa [decoder_memWrite] using writes
  exact ⟨by simp [decoder_memRead, store], decoder_csrOp inst (by simp [store]),
    by simp [decoder_jump, store]⟩

theorem decoder_of_memRead {inst : Word} (reads : (decoder inst).memRead = true) :
    (decoder inst).memWrite = false ∧ (decoder inst).csrOp = .none ∧
      (decoder inst).jump = false := by
  have load : major inst = .load := by simpa [decoder_memRead] using reads
  exact ⟨by simp [decoder_memWrite, load], decoder_csrOp inst (by simp [load]),
    by simp [decoder_jump, load]⟩

theorem decoder_of_csrOp {inst : Word} (csr : (decoder inst).csrOp ≠ .none) :
    (decoder inst).memRead = false ∧ (decoder inst).memWrite = false := by
  have major : major inst = .csr := by
    by_contra other
    exact csr (decoder_csrOp inst other)
  exact ⟨by simp [decoder_memRead, major], by simp [decoder_memWrite, major]⟩

/-- A CSR instruction is legal, and takes its operand from `rs1` or from the immediate. -/
theorem decoder_of_csr {inst : Word} (csr : (decoder inst).csrOp ≠ .none) :
    (decoder inst).illegal = false ∧ (decoder inst).jump = false ∧
      (decoder inst).mret = false ∧ (decoder inst).ecall = false ∧
      (decoder inst).ebreak = false ∧ (decoder inst).branchType = .none ∧
      (decoder inst).hasRs2 = false ∧ (decoder inst).hasRs1 = !(decoder inst).csrSrc := by
  have arm : major inst = .csr := by
    by_contra other
    exact csr (decoder_csrOp inst other)
  have body : decoder inst = decodeCsr inst := by simp [decoder, arm]
  rw [body] at csr ⊢
  refine ⟨?_, rfl, rfl, rfl, rfl, rfl, rfl, ?_⟩
  · simp only [decodeCsr] at csr ⊢
    revert csr
    generalize funct3 inst = f3
    revert f3
    decide
  · simp only [decodeCsr] at csr ⊢
    revert csr
    generalize funct3 inst = f3
    revert f3
    decide

/-- The EBREAK word is legal, names no register and does nothing else. -/
theorem decoder_of_ebreak {inst : Word} (ebreak : (decoder inst).ebreak = true) :
    (decoder inst).illegal = false ∧ (decoder inst).hasRd = false ∧
      (decoder inst).hasRs1 = false ∧ (decoder inst).hasRs2 = false ∧
      (decoder inst).csrOp = .none ∧ (decoder inst).jump = false ∧
      (decoder inst).branchType = .none ∧ (decoder inst).ecall = false := by
  simp only [decoder_ebreak, Bool.and_eq_true, beq_iff_eq] at ebreak
  obtain ⟨priv, code⟩ := ebreak
  have arm : decoder inst = decodePriv inst := by simp [decoder, priv]
  rw [arm]
  simp [decodePriv, decoderDefault, code]

/-! ## Immediates -/

/-- `npc_imm`. -/
def imm (inst : Word) : ImmSel → Word
  | .i => (inst.extractLsb' 20 12).signExtend 32
  | .s => (inst.extractLsb' 25 7 ++ inst.extractLsb' 7 5).signExtend 32
  | .b => (inst.extractLsb' 31 1 ++ inst.extractLsb' 7 1 ++ inst.extractLsb' 25 6 ++
      inst.extractLsb' 8 4 ++ 0#1).signExtend 32
  | .u => inst.extractLsb' 12 20 ++ 0#12
  | .j => (inst.extractLsb' 31 1 ++ inst.extractLsb' 12 8 ++ inst.extractLsb' 20 1 ++
      inst.extractLsb' 21 10 ++ 0#1).signExtend 32
  | .z => (inst.extractLsb' 15 5).setWidth 32

end NpcMachine.Rtl
