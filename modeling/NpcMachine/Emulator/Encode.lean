/-
# Emulator.Encode -- the instruction encoders

The encoders `encode_*` of the decoder tests, each on words.  The operands of a format are
a constructor of `Args`, as wide as the format has them, so that an encoded
instruction is in range by its type.  A lemma for each encoder reads its fields back.
-/
import NpcMachine.Emulator.Accept
import NpcMachine.Machine.Fields

namespace NpcMachine.Emulator

open NpcMachine.Rtl NpcMachine.Machine

set_option autoImplicit false

/-! ## The encoders -/

def encodeI (opcode funct3 rd rs1 imm : U32) : U32 :=
  opcode ||| (rd <<< 7) ||| (funct3 <<< 12) ||| (rs1 <<< 15) ||| ((imm &&& 0xFFF#32) <<< 20)

def encodeR (opcode funct3 funct7 rd rs1 rs2 : U32) : U32 :=
  opcode ||| (rd <<< 7) ||| (funct3 <<< 12) ||| (rs1 <<< 15) ||| (rs2 <<< 20) ||| (funct7 <<< 25)

def encodeU (opcode rd imm : U32) : U32 := opcode ||| (rd <<< 7) ||| (imm &&& 0xFFFFF000#32)

def encodeS (funct3 rs1 rs2 offset : U32) : U32 :=
  0x23#32 ||| (funct3 <<< 12) ||| (rs1 <<< 15) ||| (rs2 <<< 20) |||
    ((offset &&& 0x1F#32) <<< 7) ||| (((offset >>> 5) &&& 0x7F#32) <<< 25)

def encodeB (funct3 rs1 rs2 offset : U32) : U32 :=
  0x63#32 ||| (funct3 <<< 12) ||| (rs1 <<< 15) ||| (rs2 <<< 20) |||
    (((offset >>> 11) &&& 1#32) <<< 7) ||| (((offset >>> 1) &&& 0xF#32) <<< 8) |||
    (((offset >>> 5) &&& 0x3F#32) <<< 25) ||| (((offset >>> 12) &&& 1#32) <<< 31)

def encodeJ (rd offset : U32) : U32 :=
  0x6F#32 ||| (rd <<< 7) |||
    (((offset &&& 0x100000#32) <<< 11) ||| ((offset &&& 0x0FF000#32) <<< 0) |||
      ((offset &&& 0x000800#32) <<< 9) ||| ((offset &&& 0x0007FE#32) <<< 20))

def encodeJalr (rd rs1 offset : U32) : U32 :=
  0x67#32 ||| (rd <<< 7) ||| (0#32 <<< 12) ||| (rs1 <<< 15) ||| ((offset &&& 0xFFF#32) <<< 20)

def encodeCsr (funct3 rd rs1OrImm csr : U32) : U32 :=
  0x73#32 ||| (rd <<< 7) ||| (funct3 <<< 12) ||| (rs1OrImm <<< 15) ||| (csr <<< 20)

/-! ## Instructions -/

/-- The layouts; `unknown` has none. -/
inductive Format where
  | r | shift | i | jalr | s | b | u | j | fenceI | csr | csrImm | system | unknown
  deriving DecidableEq, Repr

/-- The operands of a layout.  A branch or jump offset is even: `half` is its upper part. -/
inductive Args : Format → Type where
  | r (rd rs1 rs2 : BitVec 5) : Args .r
  | shift (rd rs1 shamt : BitVec 5) : Args .shift
  | i (rd rs1 : BitVec 5) (imm : BitVec 12) : Args .i
  | jalr (rd rs1 : BitVec 5) (offset : BitVec 12) : Args .jalr
  | s (rs1 rs2 : BitVec 5) (offset : BitVec 12) : Args .s
  | b (rs1 rs2 : BitVec 5) (half : BitVec 12) : Args .b
  | u (rd : BitVec 5) (imm : BitVec 20) : Args .u
  | j (rd : BitVec 5) (half : BitVec 20) : Args .j
  | fenceI (rd rs1 : BitVec 5) : Args .fenceI
  | csr (rd rs1 : BitVec 5) (number : BitVec 12) : Args .csr
  | csrImm (rd uimm : BitVec 5) (number : BitVec 12) : Args .csrImm
  | system : Args .system

namespace InstType

def format : InstType → Format
  | .add | .sub | .sll | .slt | .sltu | .xor | .srl | .sra | .or | .and => .r
  | .slli | .srli | .srai => .shift
  | .addi | .slti | .sltiu | .xori | .ori | .andi | .lb | .lh | .lw | .lbu | .lhu | .fence => .i
  | .jalr => .jalr
  | .sb | .sh | .sw => .s
  | .beq | .bne | .blt | .bge | .bltu | .bgeu => .b
  | .lui | .auipc => .u
  | .jal => .j
  | .fenceI => .fenceI
  | .csrrw | .csrrs | .csrrc => .csr
  | .csrrwi | .csrrsi | .csrrci => .csrImm
  | .ecall | .ebreak | .mret | .wfi => .system
  | .unknown => .unknown

/-- The major opcode. -/
def code : InstType → BitVec 7
  | .addi | .slti | .sltiu | .xori | .ori | .andi | .slli | .srli | .srai => 0x13#7
  | .add | .sub | .sll | .slt | .sltu | .xor | .srl | .sra | .or | .and => 0x33#7
  | .lui => 0x37#7
  | .auipc => 0x17#7
  | .jal => 0x6F#7
  | .jalr => 0x67#7
  | .beq | .bne | .blt | .bge | .bltu | .bgeu => 0x63#7
  | .lb | .lh | .lw | .lbu | .lhu => 0x03#7
  | .sb | .sh | .sw => 0x23#7
  | .fence | .fenceI => 0x0F#7
  | .ecall | .ebreak | .mret | .wfi | .csrrw | .csrrs | .csrrc | .csrrwi | .csrrsi | .csrrci => 0x73#7
  | .unknown => 0#7

def f3 : InstType → BitVec 3
  | .addi | .add | .sub | .jalr | .beq | .lb | .sb | .fence => 0#3
  | .slli | .sll | .bne | .lh | .sh | .fenceI | .csrrw => 1#3
  | .slti | .slt | .lw | .sw | .csrrs => 2#3
  | .sltiu | .sltu | .csrrc => 3#3
  | .xori | .xor | .blt | .lbu => 4#3
  | .srli | .srai | .srl | .sra | .bge | .lhu | .csrrwi => 5#3
  | .ori | .or | .bltu | .csrrsi => 6#3
  | .andi | .and | .bgeu | .csrrci => 7#3
  | .lui | .auipc | .jal | .ecall | .ebreak | .mret | .wfi | .unknown => 0#3

def f7 : InstType → BitVec 7
  | .sub | .sra | .srai => 0x20#7
  | _ => 0x00#7

def f12 : InstType → BitVec 12
  | .ebreak => 0x001#12
  | .mret => 0x302#12
  | .wfi => 0x105#12
  | _ => 0x000#12

end InstType

/-- The word of a type with the operands of a layout. -/
def encodeAs (t : InstType) : {f : Format} → Args f → U32
  | _, .r rd rs1 rs2 => encodeR (t.code.setWidth 32) (t.f3.setWidth 32) (t.f7.setWidth 32)
      (rd.setWidth 32) (rs1.setWidth 32) (rs2.setWidth 32)
  | _, .shift rd rs1 shamt => encodeR (t.code.setWidth 32) (t.f3.setWidth 32)
      (t.f7.setWidth 32) (rd.setWidth 32) (rs1.setWidth 32) (shamt.setWidth 32)
  | _, .i rd rs1 imm => encodeI (t.code.setWidth 32) (t.f3.setWidth 32) (rd.setWidth 32)
      (rs1.setWidth 32) (imm.signExtend 32)
  | _, .jalr rd rs1 offset =>
      encodeJalr (rd.setWidth 32) (rs1.setWidth 32) (offset.signExtend 32)
  | _, .s rs1 rs2 offset =>
      encodeS (t.f3.setWidth 32) (rs1.setWidth 32) (rs2.setWidth 32) (offset.signExtend 32)
  | _, .b rs1 rs2 half => encodeB (t.f3.setWidth 32) (rs1.setWidth 32) (rs2.setWidth 32)
      ((half ++ 0#1).signExtend 32)
  | _, .u rd imm => encodeU (t.code.setWidth 32) (rd.setWidth 32) (imm ++ 0#12)
  | _, .j rd half => encodeJ (rd.setWidth 32) ((half ++ 0#1).signExtend 32)
  | _, .fenceI rd rs1 => encodeI (t.code.setWidth 32) (t.f3.setWidth 32) (rd.setWidth 32)
      (rs1.setWidth 32) 0#32
  | _, .csr rd rs1 number =>
      encodeCsr (t.f3.setWidth 32) (rd.setWidth 32) (rs1.setWidth 32) (number.setWidth 32)
  | _, .csrImm rd uimm number =>
      encodeCsr (t.f3.setWidth 32) (rd.setWidth 32) (uimm.setWidth 32) (number.setWidth 32)
  | _, .system => encodeI (t.code.setWidth 32) 0#32 0#32 0#32 (t.f12.setWidth 32)

/-- The word of an instruction. -/
def encode (t : InstType) (o : Args t.format) : U32 := encodeAs t o

/-! ## The pieces of a word -/

section Pieces

variable {op f7 : BitVec 7} {f3 : BitVec 3} {rd rs1 rs2 : BitVec 5} {v w : U32}

theorem low12_shift (v : U32) : (v &&& 0xFFF#32) <<< 20 = (v.extractLsb' 0 12).setWidth 32 <<< 20 :=
  and_mask_shift 0 12 20 (by decide) v

theorem encodeI_fields (encodes : encodeI (op.setWidth 32) (f3.setWidth 32) (rd.setWidth 32)
    (rs1.setWidth 32) v = w) :
    opcode w = op ∧ funct3 w = f3 ∧ w.extractLsb' 7 5 = rd ∧ w.extractLsb' 15 5 = rs1 ∧
      w.extractLsb' 20 12 = v.extractLsb' 0 12 := by
  rw [← encodes, encodeI, low12_shift]
  refine ⟨?_, ?_, ?_, ?_, ?_⟩ <;>
    simp [opcode, funct3, BitVec.extractLsb'_or, BitVec.extractLsb'_setWidth_of_le]

theorem encodeR_fields (encodes : encodeR (op.setWidth 32) (f3.setWidth 32) (f7.setWidth 32)
    (rd.setWidth 32) (rs1.setWidth 32) (rs2.setWidth 32) = w) :
    opcode w = op ∧ funct3 w = f3 ∧ funct7 w = f7 ∧ w.extractLsb' 7 5 = rd ∧
      w.extractLsb' 15 5 = rs1 ∧ w.extractLsb' 20 5 = rs2 := by
  rw [← encodes, encodeR]
  refine ⟨?_, ?_, ?_, ?_, ?_, ?_⟩ <;>
    simp [opcode, funct3, funct7, BitVec.extractLsb'_or, BitVec.extractLsb'_setWidth_of_le]

theorem encodeU_fields (encodes : encodeU (op.setWidth 32) (rd.setWidth 32) v = w) :
    opcode w = op ∧ w.extractLsb' 7 5 = rd ∧ w.extractLsb' 12 20 = v.extractLsb' 12 20 := by
  have high : v &&& 0xFFFFF000#32 = (v.extractLsb' 12 20).setWidth 32 <<< 12 := by
    have piece : (v &&& 0xFFFFF000#32) <<< 0 = (v.extractLsb' 12 20).setWidth 32 <<< 12 :=
      and_mask_shift 12 20 0 (by decide) v
    rwa [BitVec.shiftLeft_zero] at piece
  rw [← encodes, encodeU, high]
  refine ⟨?_, ?_, ?_⟩ <;>
    simp [opcode, BitVec.extractLsb'_or, BitVec.extractLsb'_setWidth_of_le]

theorem encodeS_fields
    (encodes : encodeS (f3.setWidth 32) (rs1.setWidth 32) (rs2.setWidth 32) v = w) :
    opcode w = 0x23#7 ∧ funct3 w = f3 ∧ w.extractLsb' 15 5 = rs1 ∧ w.extractLsb' 20 5 = rs2 ∧
      w.extractLsb' 7 5 = v.extractLsb' 0 5 ∧ w.extractLsb' 25 7 = v.extractLsb' 5 7 := by
  have code : 0x23#32 = (0x23#7).setWidth 32 := rfl
  have low : (v &&& 0x1F#32) <<< 7 = (v.extractLsb' 0 5).setWidth 32 <<< 7 :=
    and_mask_shift 0 5 7 (by decide) v
  have high : (v >>> 5) &&& 0x7F#32 = (v.extractLsb' 5 7).setWidth 32 :=
    extract_eq_setWidth v 5 7 (by omega)
  rw [← encodes, encodeS, code, low, high]
  refine ⟨?_, ?_, ?_, ?_, ?_, ?_⟩ <;>
    simp [opcode, funct3, BitVec.extractLsb'_or]

theorem encodeB_fields
    (encodes : encodeB (f3.setWidth 32) (rs1.setWidth 32) (rs2.setWidth 32) v = w) :
    opcode w = 0x63#7 ∧ funct3 w = f3 ∧ w.extractLsb' 15 5 = rs1 ∧ w.extractLsb' 20 5 = rs2 ∧
      w.extractLsb' 7 1 = v.extractLsb' 11 1 ∧ w.extractLsb' 8 4 = v.extractLsb' 1 4 ∧
        w.extractLsb' 25 6 = v.extractLsb' 5 6 ∧ w.extractLsb' 31 1 = v.extractLsb' 12 1 := by
  have code : 0x63#32 = (0x63#7).setWidth 32 := rfl
  have bit (lo : Nat) : (v >>> lo) &&& 1#32 = (v.extractLsb' lo 1).setWidth 32 :=
    extract_eq_setWidth v lo 1 (by omega)
  have low : (v >>> 1) &&& 0xF#32 = (v.extractLsb' 1 4).setWidth 32 :=
    extract_eq_setWidth v 1 4 (by omega)
  have high : (v >>> 5) &&& 0x3F#32 = (v.extractLsb' 5 6).setWidth 32 :=
    extract_eq_setWidth v 5 6 (by omega)
  rw [← encodes, encodeB, code, bit, low, high, bit]
  refine ⟨?_, ?_, ?_, ?_, ?_, ?_, ?_, ?_⟩ <;>
    simp [opcode, funct3, BitVec.extractLsb'_or]

theorem encodeJ_fields (encodes : encodeJ (rd.setWidth 32) v = w) :
    opcode w = 0x6F#7 ∧ w.extractLsb' 7 5 = rd ∧ w.extractLsb' 12 8 = v.extractLsb' 12 8 ∧
      w.extractLsb' 20 1 = v.extractLsb' 11 1 ∧ w.extractLsb' 21 10 = v.extractLsb' 1 10 ∧
        w.extractLsb' 31 1 = v.extractLsb' 20 1 := by
  have code : 0x6F#32 = (0x6F#7).setWidth 32 := rfl
  have sign : (v &&& 0x100000#32) <<< 11 = (v.extractLsb' 20 1).setWidth 32 <<< 31 :=
    and_mask_shift 20 1 11 (by decide) v
  have top : (v &&& 0x0FF000#32) <<< 0 = (v.extractLsb' 12 8).setWidth 32 <<< 12 :=
    and_mask_shift 12 8 0 (by decide) v
  have mid : (v &&& 0x000800#32) <<< 9 = (v.extractLsb' 11 1).setWidth 32 <<< 20 :=
    and_mask_shift 11 1 9 (by decide) v
  have low : (v &&& 0x0007FE#32) <<< 20 = (v.extractLsb' 1 10).setWidth 32 <<< 21 :=
    and_mask_shift 1 10 20 (by decide) v
  rw [← encodes, encodeJ, code, sign, top, mid, low]
  refine ⟨?_, ?_, ?_, ?_, ?_, ?_⟩ <;>
    simp [opcode, BitVec.extractLsb'_or]

/-- `encode_jalr` is `encode_i` at its opcode. -/
theorem encodeJalr_fields (encodes : encodeJalr (rd.setWidth 32) (rs1.setWidth 32) v = w) :
    opcode w = 0x67#7 ∧ funct3 w = 0#3 ∧ w.extractLsb' 7 5 = rd ∧ w.extractLsb' 15 5 = rs1 ∧
      w.extractLsb' 20 12 = v.extractLsb' 0 12 := by
  have same : encodeI ((0x67#7).setWidth 32) ((0#3).setWidth 32) (rd.setWidth 32)
      (rs1.setWidth 32) v = w := encodes
  exact encodeI_fields same

/-- `encode_csr` is `encode_i` at its opcode, as a CSR number has twelve bits. -/
theorem encodeCsr_fields (number : BitVec 12) (encodes : encodeCsr (f3.setWidth 32)
    (rd.setWidth 32) (rs1.setWidth 32) (number.setWidth 32) = w) :
    opcode w = 0x73#7 ∧ funct3 w = f3 ∧ w.extractLsb' 7 5 = rd ∧ w.extractLsb' 15 5 = rs1 ∧
      w.extractLsb' 20 12 = number := by
  have low : (number.setWidth 32 : U32).extractLsb' 0 12 = number := low_setWidth number (by omega)
  have same : encodeI ((0x73#7).setWidth 32) (f3.setWidth 32) (rd.setWidth 32) (rs1.setWidth 32)
      (number.setWidth 32) = w := by
    rw [← encodes, encodeI, low12_shift, low]
    rfl
  have fields := encodeI_fields same
  rwa [low] at fields

end Pieces

end NpcMachine.Emulator
