/-
# Emulator.Decoder -- the mask/match decoder of `decoder.cpp`

`decode` takes the type of the first table entry that matches and extracts the operand
fields and the immediate of that type.  `funct3`, `funct7` and the name table are left
out: nothing reads them.
-/
import NpcMachine.Emulator.Memory

namespace NpcMachine.Emulator

set_option autoImplicit false

inductive InstType where
  | unknown
  | addi | slti | sltiu | xori | ori | andi | slli | srli | srai
  | add | sub | sll | slt | sltu | xor | srl | sra | or | and
  | lui | auipc
  | jal | jalr
  | beq | bne | blt | bge | bltu | bgeu
  | lb | lh | lw | lbu | lhu | sb | sh | sw
  | fence | fenceI
  | ecall | ebreak | mret | wfi
  | csrrw | csrrs | csrrc | csrrwi | csrrsi | csrrci
  deriving DecidableEq, Repr, Inhabited

/-- `(inst >> lo) & ((1 << (hi - lo + 1)) - 1)`. -/
def extract (inst : U32) (lo hi : Nat) : U32 :=
  (inst >>> lo) &&& ((1#32 <<< (hi - lo + 1)) - 1#32)

/-- `(value ^ mask) - mask` with the sign bit as mask. -/
def signExtend (value : U32) (bits : Nat) : U32 :=
  (value ^^^ (1#32 <<< (bits - 1))) - (1#32 <<< (bits - 1))

/-! ## The decode table -/

structure Entry where
  mask : U32
  code : U32
  type : InstType
  deriving DecidableEq, Repr

def maskOpcode : U32 := 0x0000007F#32
def maskF3 : U32 := 0x00007000#32
def maskF7 : U32 := 0xFE000000#32
def maskF12 : U32 := 0xFFF00000#32

def decodeTable : List Entry :=
  [ ⟨maskOpcode ||| maskF3, 0x00000013#32, .addi⟩,
    ⟨maskOpcode ||| maskF3, 0x00002013#32, .slti⟩,
    ⟨maskOpcode ||| maskF3, 0x00003013#32, .sltiu⟩,
    ⟨maskOpcode ||| maskF3, 0x00004013#32, .xori⟩,
    ⟨maskOpcode ||| maskF3, 0x00006013#32, .ori⟩,
    ⟨maskOpcode ||| maskF3, 0x00007013#32, .andi⟩,
    ⟨maskOpcode ||| maskF3 ||| maskF7, 0x00001013#32, .slli⟩,
    ⟨maskOpcode ||| maskF3 ||| maskF7, 0x00005013#32, .srli⟩,
    ⟨maskOpcode ||| maskF3 ||| maskF7, 0x40005013#32, .srai⟩,
    ⟨maskOpcode ||| maskF3 ||| maskF7, 0x00000033#32, .add⟩,
    ⟨maskOpcode ||| maskF3 ||| maskF7, 0x40000033#32, .sub⟩,
    ⟨maskOpcode ||| maskF3 ||| maskF7, 0x00001033#32, .sll⟩,
    ⟨maskOpcode ||| maskF3 ||| maskF7, 0x00002033#32, .slt⟩,
    ⟨maskOpcode ||| maskF3 ||| maskF7, 0x00003033#32, .sltu⟩,
    ⟨maskOpcode ||| maskF3 ||| maskF7, 0x00004033#32, .xor⟩,
    ⟨maskOpcode ||| maskF3 ||| maskF7, 0x00005033#32, .srl⟩,
    ⟨maskOpcode ||| maskF3 ||| maskF7, 0x40005033#32, .sra⟩,
    ⟨maskOpcode ||| maskF3 ||| maskF7, 0x00006033#32, .or⟩,
    ⟨maskOpcode ||| maskF3 ||| maskF7, 0x00007033#32, .and⟩,
    ⟨maskOpcode, 0x00000037#32, .lui⟩,
    ⟨maskOpcode, 0x00000017#32, .auipc⟩,
    ⟨maskOpcode, 0x0000006F#32, .jal⟩,
    ⟨maskOpcode ||| maskF3, 0x00000067#32, .jalr⟩,
    ⟨maskOpcode ||| maskF3, 0x00000063#32, .beq⟩,
    ⟨maskOpcode ||| maskF3, 0x00001063#32, .bne⟩,
    ⟨maskOpcode ||| maskF3, 0x00004063#32, .blt⟩,
    ⟨maskOpcode ||| maskF3, 0x00005063#32, .bge⟩,
    ⟨maskOpcode ||| maskF3, 0x00006063#32, .bltu⟩,
    ⟨maskOpcode ||| maskF3, 0x00007063#32, .bgeu⟩,
    ⟨maskOpcode ||| maskF3, 0x00000003#32, .lb⟩,
    ⟨maskOpcode ||| maskF3, 0x00001003#32, .lh⟩,
    ⟨maskOpcode ||| maskF3, 0x00002003#32, .lw⟩,
    ⟨maskOpcode ||| maskF3, 0x00004003#32, .lbu⟩,
    ⟨maskOpcode ||| maskF3, 0x00005003#32, .lhu⟩,
    ⟨maskOpcode ||| maskF3, 0x00000023#32, .sb⟩,
    ⟨maskOpcode ||| maskF3, 0x00001023#32, .sh⟩,
    ⟨maskOpcode ||| maskF3, 0x00002023#32, .sw⟩,
    ⟨maskOpcode ||| maskF3, 0x0000000F#32, .fence⟩,
    ⟨maskOpcode ||| maskF3 ||| maskF12, 0x0000100F#32, .fenceI⟩,
    ⟨0xFFFFFFFF#32, 0x00000073#32, .ecall⟩,
    ⟨0xFFFFFFFF#32, 0x00100073#32, .ebreak⟩,
    ⟨0xFFFFFFFF#32, 0x30200073#32, .mret⟩,
    ⟨0xFFFFFFFF#32, 0x10500073#32, .wfi⟩,
    ⟨maskOpcode ||| maskF3, 0x00001073#32, .csrrw⟩,
    ⟨maskOpcode ||| maskF3, 0x00002073#32, .csrrs⟩,
    ⟨maskOpcode ||| maskF3, 0x00003073#32, .csrrc⟩,
    ⟨maskOpcode ||| maskF3, 0x00005073#32, .csrrwi⟩,
    ⟨maskOpcode ||| maskF3, 0x00006073#32, .csrrsi⟩,
    ⟨maskOpcode ||| maskF3, 0x00007073#32, .csrrci⟩ ]

def decodeType (inst : U32) : InstType :=
  ((decodeTable.find? fun e => inst &&& e.mask == e.code).map Entry.type).getD .unknown

/-! ## Operands -/

structure DecodedInst where
  type : InstType
  inst : U32
  rd : U32
  rs1 : U32
  rs2 : U32
  csr : U32
  imm : U32
  isCsrImm : Bool
  deriving DecidableEq, Repr, Inhabited

/-- The immediate of a word of the given type; 0 where the switch assigns none. -/
def decodeImm (inst : U32) : InstType → U32
  | .addi | .slti | .sltiu | .xori | .ori | .andi | .jalr | .lb | .lh | .lw | .lbu | .lhu
  | .fence | .fenceI => signExtend (extract inst 20 31) 12
  | .slli | .srli | .srai => extract inst 20 24
  | .sb | .sh | .sw => signExtend ((extract inst 25 31 <<< 5) ||| extract inst 7 11) 12
  | .beq | .bne | .blt | .bge | .bltu | .bgeu =>
      signExtend ((extract inst 31 31 <<< 12) ||| (extract inst 7 7 <<< 11) |||
        (extract inst 25 30 <<< 5) ||| (extract inst 8 11 <<< 1)) 13
  | .lui | .auipc => inst &&& 0xFFFFF000#32
  | .jal =>
      signExtend ((extract inst 31 31 <<< 20) ||| (extract inst 12 19 <<< 12) |||
        (extract inst 20 20 <<< 11) ||| (extract inst 21 30 <<< 1)) 21
  | .csrrwi | .csrrsi | .csrrci => extract inst 15 19
  | .add | .sub | .sll | .slt | .sltu | .xor | .srl | .sra | .or | .and | .ecall | .ebreak
  | .mret | .wfi | .csrrw | .csrrs | .csrrc | .unknown => 0#32

def decode (inst : U32) : DecodedInst where
  type := decodeType inst
  inst := inst
  rd := extract inst 7 11
  rs1 := extract inst 15 19
  rs2 := extract inst 20 24
  csr := extract inst 20 31
  imm := decodeImm inst (decodeType inst)
  isCsrImm := decodeType inst == .csrrwi || decodeType inst == .csrrsi || decodeType inst == .csrrci

end NpcMachine.Emulator
