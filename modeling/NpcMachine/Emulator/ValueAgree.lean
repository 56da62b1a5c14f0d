/-
# Emulator.ValueAgree -- the two datapaths on one instruction

For every base type the values of `execute` are the values of the RTL's units: register
numbers and register reads, ALU results, branch conditions, access sizes and loaded
words.
-/
import NpcMachine.Emulator.DecodeAgree
import NpcMachine.Emulator.EmulatorIss
import NpcMachine.Emulator.RtlIss
import NpcMachine.Rtl.Outcome

namespace NpcMachine.Emulator

open NpcMachine.Rtl NpcMachine.Machine

set_option autoImplicit false

/-! ## Registers -/

/-- A register by its four-bit number. -/
def Hart.reg (h : Hart) (r : BitVec 4) : U32 := if r = 0#4 then 0#32 else h.x r

theorem gprCount_ule : ∀ x : BitVec 5, gprCount.ule (x.setWidth 32) = x.getLsbD 4 := by decide

theorem register_zero : ∀ x : BitVec 5, x.getLsbD 4 = false →
    (x.setWidth 32 = 0#32 ↔ x.setWidth 4 = 0#4) := by decide

theorem register_number : ∀ x : BitVec 5, (x.setWidth 32 : U32).setWidth 4 = x.setWidth 4 := by
  decide

theorem readReg_register (h : Hart) {x : BitVec 5} (real : x.getLsbD 4 = false) :
    h.readReg (x.setWidth 32) = h.reg (x.setWidth 4) := by
  rw [Hart.readReg, gprCount_ule, real, Hart.reg, register_number]
  simp only [register_zero x real, Bool.false_eq_true, if_false]

theorem writeReg_register (h : Hart) {x : BitVec 5} (real : x.getLsbD 4 = false) (value : U32)
    (r : BitVec 4) : (h.writeReg (x.setWidth 32) value).reg r =
      if r ≠ 0#4 ∧ r = x.setWidth 4 then value else h.reg r := by
  rw [Hart.writeReg, gprCount_ule, real, Bool.or_false]
  by_cases zero : x.setWidth 4 = 0#4
  · have none : (x.setWidth 32 : U32) = 0#32 := (register_zero x real).mpr zero
    simp only [none, beq_self_eq_true, if_true, zero]
    rw [if_neg (fun both => both.1 both.2)]
  · have other : ((x.setWidth 32 : U32) == 0#32) = false := by
      simpa using fun none => zero ((register_zero x real).mp none)
    simp only [other, Bool.false_eq_true, if_false, Hart.reg, register_number,
      Function.update_apply]
    by_cases none : r = 0#4
    · rw [if_pos none, if_neg (fun both => both.1 none), if_pos none]
    · rw [if_neg none, if_neg none]
      by_cases same : r = x.setWidth 4
      · rw [if_pos same, if_pos ⟨none, same⟩]
      · rw [if_neg same, if_neg (fun both => same both.2)]

section

variable (w : U32)

theorem decode_rd : (decode w).rd = (w.extractLsb' 7 5).setWidth 32 :=
  extract_eq w (by omega) (by omega)

theorem decode_rs1 : (decode w).rs1 = (w.extractLsb' 15 5).setWidth 32 :=
  extract_eq w (by omega) (by omega)

theorem decode_rs2 : (decode w).rs2 = (w.extractLsb' 20 5).setWidth 32 :=
  extract_eq w (by omega) (by omega)

end

/-- The low four bits of a register field. -/
theorem register_low (w : U32) (lo : Nat) :
    (w.extractLsb' lo 5).setWidth 4 = w.extractLsb' lo 4 := by
  apply BitVec.eq_of_getLsbD_eq
  intro i small
  have field : i < 5 := by omega
  simp only [BitVec.getLsbD_setWidth, BitVec.getLsbD_extractLsb', small, field, decide_true,
    Bool.true_and]

/-! ## Register validation -/

theorem hasRd_base {t : InstType} (base : isBase t = true) : hasRd t = (control t).hasRd := by
  revert base
  cases t <;> decide

theorem hasRs2_base {t : InstType} (base : isBase t = true) :
    hasRs2Reg t = (control t).hasRs2 := by
  revert base
  cases t <;> decide

/-- The types that read `rs1` without checking it. -/
theorem hasRs1_base {t : InstType} (base : isBase t = true) (used : (control t).hasRs1 = true) :
    hasRs1Reg t = true ∨ control t = .op (control t).aluOp := by
  revert base used
  cases t <;> decide

theorem opcode_op {w : U32} (arm : control (decodeType w) = .op (control (decodeType w)).aluOp) :
    opcode w = 0b0110011#7 := by
  have known : ∀ t : InstType, control t = .op (control t).aluOp →
      ∃ e, entryOf t = some e ∧ opcode e.code = 0b0110011#7 := by
    intro t arm
    cases t with
    | add | sub | sll | slt | sltu | xor | srl | sra | or | and => exact ⟨_, rfl, by decide⟩
    | _ => exact absurd arm (by decide)
  obtain ⟨e, entry, code⟩ := known _ arm
  rw [(decodeType_fields entry).1, code]

/-! ## The ALU -/

section

variable {w pc v1 v2 : U32}

theorem aluOf_base (base : isBase (decodeType w) = true) : aluOf w pc v1 v2 =
    alu v1 v2 pc (imm w (control (decodeType w)).immSel) (control (decodeType w)).aluOp
      (control (decodeType w)).aluSrcA (control (decodeType w)).aluSrcB := by
  rw [← decoder_of_base base]
  rfl

theorem targetOf_base (base : isBase (decodeType w) = true) : targetOf w pc v1 v2 =
    if (control (decodeType w)).jump then
      some (jumpTarget pc (imm w (control (decodeType w)).immSel) v1
        (control (decodeType w)).jumpReg)
    else if branchTaken v1 v2 (control (decodeType w)).branchType then
      some (branchTarget pc (imm w (control (decodeType w)).immSel))
    else none := by
  rw [← decoder_of_base base]
  rfl

theorem opImmValue_eq {t : InstType} (arm : control t = .opImm (control t).aluOp) :
    opImmValue t v1 (decodeImm w t) = aluCompute v1 (imm w .i) (control t).aluOp := by
  cases t with
  | addi | slti | sltiu | xori | ori | andi =>
      simp only [opImmValue, decodeImm, immI_eq]
      rfl
  | slli =>
      show v1 <<< (extract w 20 24 &&& 0x1F#32) = v1 <<< shamt (imm w .i)
      rw [BitVec.shiftLeft_eq', shamt_and, shamt_imm]
  | srli =>
      show v1 >>> (extract w 20 24 &&& 0x1F#32) = v1 >>> shamt (imm w .i)
      rw [BitVec.ushiftRight_eq', shamt_and, shamt_imm]
  | srai =>
      show v1.sshiftRight (extract w 20 24 &&& 0x1F#32).toNat = v1.sshiftRight (shamt (imm w .i))
      rw [shamt_and, shamt_imm]
  | _ => exact absurd arm (by decide)

theorem opValue_eq {t : InstType} (arm : control t = .op (control t).aluOp) :
    opValue t v1 v2 = aluCompute v1 v2 (control t).aluOp := by
  cases t with
  | add | sub | slt | sltu | xor | or | and => rfl
  | sll =>
      show v1 <<< (v2 &&& 0x1F#32) = v1 <<< shamt v2
      rw [BitVec.shiftLeft_eq', shamt_and]
  | srl =>
      show v1 >>> (v2 &&& 0x1F#32) = v1 >>> shamt v2
      rw [BitVec.ushiftRight_eq', shamt_and]
  | sra =>
      show v1.sshiftRight (v2 &&& 0x1F#32).toNat = v1.sshiftRight (shamt v2)
      rw [shamt_and]
  | _ => exact absurd arm (by decide)

theorem aluOf_opImm (base : isBase (decodeType w) = true)
    (arm : control (decodeType w) = .opImm (control (decodeType w)).aluOp) :
    aluOf w pc v1 v2 = opImmValue (decodeType w) v1 (decode w).imm := by
  rw [aluOf_base base, arm]
  exact (opImmValue_eq arm).symm

theorem aluOf_op (base : isBase (decodeType w) = true)
    (arm : control (decodeType w) = .op (control (decodeType w)).aluOp) :
    aluOf w pc v1 v2 = opValue (decodeType w) v1 v2 := by
  rw [aluOf_base base, arm]
  exact (opValue_eq arm).symm

theorem aluOf_lui (type : decodeType w = .lui) : aluOf w pc v1 v2 = (decode w).imm := by
  rw [aluOf_base (by rw [type]; rfl), type]
  show 0#32 + imm w .u = decodeImm w (decodeType w)
  rw [type, BitVec.zero_add]
  exact (immU_eq w).symm

theorem aluOf_auipc (type : decodeType w = .auipc) : aluOf w pc v1 v2 = pc + (decode w).imm := by
  rw [aluOf_base (by rw [type]; rfl), type]
  show pc + imm w .u = pc + decodeImm w (decodeType w)
  rw [type]
  exact congrArg (pc + ·) (immU_eq w).symm

/-- The address of a load or a store. -/
theorem aluOf_access (base : isBase (decodeType w) = true)
    (access : (control (decodeType w)).memRead = true ∨ (control (decodeType w)).memWrite = true) :
    aluOf w pc v1 v2 = v1 + (decode w).imm := by
  have word : (decode w).imm = decodeImm w (decodeType w) := rfl
  rw [aluOf_base base, word]
  generalize decodeType w = t at access
  cases t with
  | lb | lh | lw | lbu | lhu => exact congrArg (v1 + ·) (immI_eq w).symm
  | sb | sh | sw => exact congrArg (v1 + ·) (immS_eq w).symm
  | _ => exact absurd access (by decide)

theorem branchCondition_eq (t : InstType) (v1 v2 : U32) :
    branchCondition t v1 v2 = branchTaken v1 v2 (control t).branchType := by
  cases t <;> rfl

end

/-! ## Loads and stores -/

theorem accessSize_load {w : U32} (base : isBase (decodeType w) = true)
    (access : (control (decodeType w)).memRead = true ∨ (control (decodeType w)).memWrite = true) :
    axiSizeBytes ((decoder w).memSize.setWidth 3) = accessSize (decodeType w) := by
  have same : (decoder w).memSize = (control (decodeType w)).memSize :=
    congrArg Control.memSize (decoder_of_base base)
  rw [same]
  revert access
  cases decodeType w <;> decide

/-- A narrow load leaves the upper bits zero. -/
theorem load_byte (m : Memory) (addr : U32) : ∃ b : BitVec 8,
    (m.load addr 1#32 0#32).2 = b.setWidth 32 := by
  unfold Memory.load
  split_ifs
  · exact ⟨0#8, rfl⟩
  · exact ⟨0#8, rfl⟩
  · exact ⟨_, rfl⟩
  · contradiction
  · contradiction
  · exact ⟨0#8, rfl⟩
  · exact ⟨0#8, rfl⟩

theorem load_half (m : Memory) (addr : U32) : ∃ h : BitVec 16,
    (m.load addr 2#32 0#32).2 = h.setWidth 32 := by
  unfold Memory.load
  split_ifs
  · exact ⟨0#16, rfl⟩
  · exact ⟨0#16, rfl⟩
  · contradiction
  · exact ⟨_, rfl⟩
  · contradiction
  · exact ⟨0#16, rfl⟩
  · exact ⟨0#16, rfl⟩

/-- Both models widen a loaded word in the same way. -/
theorem loadValue_type {t : InstType} (reads : (control t).memRead = true) (m : Memory) (addr : U32) :
    EmulatorIss.loadValue t (m.load addr (accessSize t) 0#32).2 =
      LsuIn.loadAlignedData ⟨0#32, 0#32, true, false, (control t).memSize, (control t).memSext⟩
        (m.load addr (accessSize t) 0#32).2 := by
  have byte : ∀ v : U32, v &&& 0xFF#32 = (v.extractLsb' 0 8).setWidth 32 := fun v =>
    and_low v 8 (by omega)
  have half : ∀ v : U32, v &&& 0xFFFF#32 = (v.extractLsb' 0 16).setWidth 32 := fun v =>
    and_low v 16 (by omega)
  cases t with
  | lb =>
      show signExtend (_ &&& 0xFF#32) 8 = BitVec.signExtend 32 _
      rw [byte]
      exact signExtend_eq (n := 7) _ (by omega)
  | lh =>
      show signExtend (_ &&& 0xFFFF#32) 16 = BitVec.signExtend 32 _
      rw [half]
      exact signExtend_eq (n := 15) _ (by omega)
  | lw => rfl
  | lbu =>
      obtain ⟨b, narrow⟩ := load_byte m addr
      show (m.load addr 1#32 0#32).2 =
        BitVec.signExtend 32 ((m.load addr 1#32 0#32).2.extractLsb' 0 8) &&& 0xFF#32
      rw [narrow, byte, low_setWidth b (by omega), low_signExtend b (by omega)]
  | lhu =>
      obtain ⟨h, narrow⟩ := load_half m addr
      show (m.load addr 2#32 0#32).2 =
        BitVec.signExtend 32 ((m.load addr 2#32 0#32).2.extractLsb' 0 16) &&& 0xFFFF#32
      rw [narrow, half, low_setWidth h (by omega), low_signExtend h (by omega)]
  | _ => exact absurd reads (by decide)

theorem loadValue_eq {w : U32} (base : isBase (decodeType w) = true)
    (reads : (control (decodeType w)).memRead = true) (m : Memory) (addr : U32) :
    EmulatorIss.loadValue (decodeType w) (m.load addr (accessSize (decodeType w)) 0#32).2 =
      loadedOf w (m.load addr (accessSize (decodeType w)) 0#32).2 := by
  have size : (decoder w).memSize = (control (decodeType w)).memSize :=
    congrArg Control.memSize (decoder_of_base base)
  have sext : (decoder w).memSext = (control (decodeType w)).memSext :=
    congrArg Control.memSext (decoder_of_base base)
  rw [loadedOf, size, sext]
  exact loadValue_type reads m addr

end NpcMachine.Emulator
