/-
# Emulator.DatapathAgree -- EX of the core and `execute` on one instruction

Both sides get the same word, pc, operand values and CSR values.  `ExecuteBase` lists what
`execute` does with a base instruction in the words of the RTL; the `SYSTEM` and
`MISC-MEM` instructions follow one by one.

* `datapath_agrees`: at an aligned pc, on every word that both decoders accept, the two
  agree in result, CSR update, data access, next pc and exception.
-/
import NpcMachine.Emulator.Accept
import NpcMachine.Emulator.StepEvent

namespace NpcMachine.Emulator

open NpcMachine.Rtl NpcMachine.Machine

set_option autoImplicit false

/-! ## What EX does with an accepted word -/

section

variable {w pc v1 v2 : U32}

theorem jump_noBranch (jumps : (decoder w).jump = true) : (decoder w).branchType = .none := by
  refine decoder_branchType w fun branch => ?_
  rw [decoder_jump, branch] at jumps
  contradiction

/-- The two alignment checks of EX are one check of the target. -/
theorem target_misaligned (w pc v1 v2 : U32) :
    (((decoder w).jump && jumpTargetMisaligned pc (immOf w) v1 (decoder w).jumpReg) ||
      branchTargetMisaligned pc (immOf w) v1 v2 (decoder w).branchType) =
        (targetOf w pc v1 v2).any misaligned4 := by
  unfold targetOf
  by_cases jumps : (decoder w).jump = true
  · rw [if_pos jumps, jumps, jump_noBranch jumps]
    simp [branchTargetMisaligned, branchTaken, jumpTargetMisaligned]
  · rw [if_neg jumps]
    rw [Bool.not_eq_true] at jumps
    by_cases taken : takenOf w v1 v2 = true
    · have taken' : branchTaken v1 v2 (decoder w).branchType = true := taken
      rw [if_pos taken, jumps]
      simp [branchTargetMisaligned, taken']
    · rw [if_neg taken, jumps]
      rw [Bool.not_eq_true] at taken
      have straight : branchTaken v1 v2 (decoder w).branchType = false := taken
      simp [branchTargetMisaligned, straight]

end

/-- EX holds a fetched instruction at an aligned pc, which the RTL decoder accepts. -/
structure ExAccepts (p : Pipeline) : Prop where
  decoded : p.idEx.Decoded
  fetchFault : p.idEx.fetchFault = false
  fetchMisaligned : p.idEx.fetchMisaligned = false
  aligned : misaligned4 p.idEx.pc = false
  legal : rtlIllegal p.idEx.inst = false

namespace ExAccepts

variable {p : Pipeline}

/-- The target of the instruction in EX. -/
theorem target (accepts : ExAccepts p) :
    ((p.idEx.ctl.jump && p.exJumpTargetMisaligned) || p.exBranchTargetMisaligned) =
      (targetOf p.idEx.inst p.idEx.pc p.exRs1Value p.exRs2Value).any misaligned4 := by
  rw [← target_misaligned, Pipeline.exJumpTargetMisaligned, Pipeline.exBranchTargetMisaligned,
    accepts.decoded.ctl, accepts.decoded.imm]
  rfl

theorem exFault_eq (accepts : ExAccepts p) : p.exFault =
    if p.idExCsrIllegal then some causeIllegalInst
    else if (targetOf p.idEx.inst p.idEx.pc p.exRs1Value p.exRs2Value).any misaligned4 then
      some causeInstMisaligned
    else if (decoder p.idEx.inst).ecall then some causeEcallM
    else if (decoder p.idEx.inst).ebreak then some causeBreakpoint
    else none := by
  have legal := rtlIllegal_idEx accepts.decoded
  rw [accepts.legal] at legal
  have ecall : p.idEx.ctl.ecall = (decoder p.idEx.inst).ecall := by rw [accepts.decoded.ctl]
  have ebreak : p.idEx.ctl.ebreak = (decoder p.idEx.inst).ebreak := by rw [accepts.decoded.ctl]
  rw [Pipeline.exFault, accepts.aligned, accepts.fetchFault, accepts.fetchMisaligned, legal,
    ← accepts.target, ecall, ebreak]
  cases p.idExCsrIllegal <;> cases p.idEx.ctl.jump && p.exJumpTargetMisaligned <;>
    cases p.exBranchTargetMisaligned <;> rfl

theorem exNextPc_eq (accepts : ExAccepts p) : p.exNextPc =
    if p.exException then p.csrFile.mtvec
    else if (decoder p.idEx.inst).mret then p.csrFile.mepc
    else nextPcOf p.idEx.inst p.idEx.pc p.exRs1Value p.exRs2Value := by
  have mret : p.idEx.ctl.mret = (decoder p.idEx.inst).mret := by rw [accepts.decoded.ctl]
  rw [Pipeline.exNextPc, mret]
  by_cases traps : p.exException = true
  · rw [if_pos traps, if_pos traps]
  · rw [if_neg traps, if_neg traps]
    by_cases returns : (decoder p.idEx.inst).mret = true
    · rw [if_pos returns, if_pos returns]
    · have jump : p.idEx.ctl.jump = (decoder p.idEx.inst).jump := by rw [accepts.decoded.ctl]
      rw [if_neg returns, if_neg returns, nextPcOf, targetOf, jump]
      by_cases jumps : (decoder p.idEx.inst).jump = true
      · rw [if_pos jumps, if_pos jumps, Pipeline.exJumpTarget, accepts.decoded.ctl,
          accepts.decoded.imm]
        rfl
      · have taken : p.exBranchTaken = takenOf p.idEx.inst p.exRs1Value p.exRs2Value := by
          rw [Pipeline.exBranchTaken, accepts.decoded.ctl]
          rfl
        rw [if_neg jumps, if_neg jumps, taken, Pipeline.exBranchTarget, accepts.decoded.imm]
        by_cases takes : takenOf p.idEx.inst p.exRs1Value p.exRs2Value = true
        · rw [if_pos takes, if_pos takes]
          rfl
        · rw [if_neg takes, if_neg takes]
          rfl

end ExAccepts

/-! ## What `execute` does with a base word -/

/-- The arms of `execute`, in the words of the RTL. -/
inductive ExecuteBase (s : EmulatorIss) (w v1 v2 : U32) : Prop where
  | off (target : (targetOf w s.hart.pc v1 v2).any misaligned4 = true)
      (noRead : (decoder w).memRead = false) (noWrite : (decoder w).memWrite = false)
      (leaves : s.execute (decode w) = s.trap (decode w) causeInstMisaligned)
  | value (value : U32) (target : (targetOf w s.hart.pc v1 v2).any misaligned4 = false)
      (noRead : (decoder w).memRead = false) (noWrite : (decoder w).memWrite = false)
      (result : (decoder w).regWrite = true →
        value = if (decoder w).jump then s.hart.pc + 4#32 else aluOf w s.hart.pc v1 v2)
      (leaves : s.execute (decode w) = s.retire (decode w)
        (if (decoder w).regWrite then (decode w).rd else 0#32) value
        (nextPcOf w s.hart.pc v1 v2))
  | load (reads : (decoder w).memRead = true) (target : targetOf w s.hart.pc v1 v2 = none)
      (leaves : s.execute (decode w) = s.executeLoad (decode w) (aluOf w s.hart.pc v1 v2))
  | store (writes : (decoder w).memWrite = true) (target : targetOf w s.hart.pc v1 v2 = none)
      (leaves : s.execute (decode w) = s.executeStore (decode w) (aluOf w s.hart.pc v1 v2) v2)

namespace Operands

variable {s : EmulatorIss} {w v1 v2 : U32}

/-- The types that only write `rd`. -/
theorem base_value (ops : Operands s w v1 v2) {value : U32}
    (writes : (control (decodeType w)).regWrite = true)
    (noRead : (control (decodeType w)).memRead = false)
    (noWrite : (control (decodeType w)).memWrite = false)
    (noJump : (control (decodeType w)).jump = false)
    (noBranch : (control (decodeType w)).branchType = .none)
    (result : value = aluOf w s.hart.pc v1 v2)
    (leaves : s.execute (decode w) =
      s.retire (decode w) (decode w).rd value (s.hart.pc + 4#32)) : ExecuteBase s w v1 v2 := by
  have straight := targetOf_straight ops.base noJump noBranch s.hart.pc v1 v2
  have regWrite : (decoder w).regWrite = true := (congrArg Control.regWrite ops.ctl).trans writes
  have jump : (decoder w).jump = false := (congrArg Control.jump ops.ctl).trans noJump
  refine .value value (by rw [straight]; rfl) ((congrArg Control.memRead ops.ctl).trans noRead)
    ((congrArg Control.memWrite ops.ctl).trans noWrite) ?_ ?_
  · intro _
    rw [result, jump, if_neg (by decide)]
  · rw [leaves, regWrite, if_pos rfl, nextPcOf, straight]
    rfl

theorem base_jump (ops : Operands s w v1 v2) {target : U32}
    (jumps : (control (decodeType w)).jump = true)
    (writes : (control (decodeType w)).regWrite = true)
    (noRead : (control (decodeType w)).memRead = false)
    (noWrite : (control (decodeType w)).memWrite = false)
    (goes : jumpTarget s.hart.pc (imm w (control (decodeType w)).immSel) v1
      (control (decodeType w)).jumpReg = target)
    (leaves : s.execute (decode w) = s.jump (decode w) target) : ExecuteBase s w v1 v2 := by
  have there : targetOf w s.hart.pc v1 v2 = some target := by
    rw [targetOf_base ops.base, if_pos jumps, goes]
  have regWrite : (decoder w).regWrite = true := (congrArg Control.regWrite ops.ctl).trans writes
  have memRead : (decoder w).memRead = false := (congrArg Control.memRead ops.ctl).trans noRead
  have memWrite : (decoder w).memWrite = false := (congrArg Control.memWrite ops.ctl).trans noWrite
  have jump : (decoder w).jump = true := (congrArg Control.jump ops.ctl).trans jumps
  rw [EmulatorIss.jump] at leaves
  split_ifs at leaves with off
  · refine .off ?_ memRead memWrite leaves
    rw [there, Option.any_some]
    by_contra on
    rw [Bool.not_eq_true] at on
    exact off ((misaligned4_iff target).mp on)
  · refine .value (s.hart.pc + 4#32) ?_ memRead memWrite ?_ ?_
    · rw [there, Option.any_some]
      exact (misaligned4_iff target).mpr (not_not.mp off)
    · intro _
      rw [jump, if_pos rfl]
    · rw [leaves, regWrite, if_pos rfl, nextPcOf, there]
      rfl

theorem base_branch (ops : Operands s w v1 v2) (aligned : misaligned4 s.hart.pc = false)
    (arm : control (decodeType w) = .branch (control (decodeType w)).branchType)
    {taken : Bool} (condition : branchTaken v1 v2 (control (decodeType w)).branchType = taken)
    (offset : (decode w).imm = imm w .b)
    (leaves : s.execute (decode w) = s.branch (decode w) taken) : ExecuteBase s w v1 v2 := by
  have noJump : (control (decodeType w)).jump = false := by rw [arm]; rfl
  have there : targetOf w s.hart.pc v1 v2 =
      if taken then some (s.hart.pc + (decode w).imm) else none := by
    have select : (control (decodeType w)).immSel = .b := by rw [arm]; rfl
    rw [targetOf_base ops.base, noJump, condition, select, offset]
    rfl
  have regWrite : (decoder w).regWrite = false :=
    (congrArg Control.regWrite ops.ctl).trans (by rw [arm]; rfl)
  have memRead : (decoder w).memRead = false :=
    (congrArg Control.memRead ops.ctl).trans (by rw [arm]; rfl)
  have memWrite : (decoder w).memWrite = false :=
    (congrArg Control.memWrite ops.ctl).trans (by rw [arm]; rfl)
  have retired (on : (targetOf w s.hart.pc v1 v2).any misaligned4 = false)
      (next : s.execute (decode w) =
        s.retire (decode w) 0#32 0#32 (nextPcOf w s.hart.pc v1 v2)) : ExecuteBase s w v1 v2 := by
    refine .value 0#32 on memRead memWrite (by simp [regWrite]) ?_
    rw [next, regWrite]
    rfl
  rw [EmulatorIss.branch] at leaves
  cases taken with
  | false =>
      rw [if_neg (by simp)] at leaves
      refine retired (by rw [there]; rfl) ?_
      rw [leaves, nextPcOf, there]
      rfl
  | true =>
      have target : targetOf w s.hart.pc v1 v2 = some (s.hart.pc + (decode w).imm) := there
      simp only [if_true] at leaves
      by_cases off : (s.hart.pc + (decode w).imm) &&& 3#32 = 0#32
      · rw [if_neg (fun both => both.2 off)] at leaves
        refine retired ?_ ?_
        · rw [target, Option.any_some]
          exact (misaligned4_iff _).mpr off
        · rw [leaves, nextPcOf, target]
          rfl
      · -- The straight line is aligned, so a target that is not differs from it.
        have away : s.hart.pc + (decode w).imm ≠ s.hart.pc + 4#32 := by
          intro same
          rw [same] at off
          refine off ((misaligned4_iff _).mp ?_)
          rw [misaligned4_add_four, aligned]
        rw [if_pos ⟨away, off⟩] at leaves
        refine .off ?_ memRead memWrite leaves
        rw [target, Option.any_some]
        by_contra on
        rw [Bool.not_eq_true] at on
        exact off ((misaligned4_iff _).mp on)

/-- Every base word that both models accept. -/
theorem executeBase (ops : Operands s w v1 v2) (aligned : misaligned4 s.hart.pc = false) :
    ExecuteBase s w v1 v2 := by
  have typed : (decode w).type = decodeType w := rfl
  have offset : (decode w).imm = decodeImm w (decodeType w) := rfl
  have leaves : s.execute (decode w) = s.execute (decode w) := rfl
  conv_rhs at leaves => unfold EmulatorIss.execute
  simp only [ops.checked, Bool.false_eq_true, if_false, typed] at leaves
  have access (used : (control (decodeType w)).hasRs1 = true)
      (reads : (control (decodeType w)).memRead = true ∨
        (control (decodeType w)).memWrite = true) :
      s.hart.readReg (decode w).rs1 + (decode w).imm = aluOf w s.hart.pc v1 v2 := by
    rw [ops.readReg_rs1 used, aluOf_access ops.base reads]
  cases type : decodeType w with
  | addi | slti | sltiu | xori | ori | andi | slli | srli | srai =>
      simp only [type] at leaves
      refine ops.base_value ?_ ?_ ?_ ?_ ?_ ?_ leaves
      iterate 5 rw [type]; rfl
      rw [aluOf_opImm ops.base (by rw [type]; rfl), type, ops.readReg_rs1 (by rw [type]; rfl)]
  | add | sub | sll | slt | sltu | xor | srl | sra | or | and =>
      simp only [type] at leaves
      refine ops.base_value ?_ ?_ ?_ ?_ ?_ ?_ leaves
      iterate 5 rw [type]; rfl
      rw [aluOf_op ops.base (by rw [type]; rfl), type, ops.readReg_rs1 (by rw [type]; rfl),
        ops.readReg_rs2 (by rw [type]; rfl)]
  | lui =>
      simp only [type] at leaves
      refine ops.base_value ?_ ?_ ?_ ?_ ?_ (aluOf_lui type).symm leaves
      iterate 5 rw [type]; rfl
  | auipc =>
      simp only [type] at leaves
      refine ops.base_value ?_ ?_ ?_ ?_ ?_ (aluOf_auipc type).symm leaves
      iterate 5 rw [type]; rfl
  | jal =>
      simp only [type] at leaves
      refine ops.base_jump ?_ ?_ ?_ ?_ ?_ leaves
      iterate 4 rw [type]; rfl
      rw [type, offset, type]
      exact congrArg (s.hart.pc + ·) (immJ_eq w).symm
  | jalr =>
      simp only [type] at leaves
      refine ops.base_jump ?_ ?_ ?_ ?_ ?_ leaves
      iterate 4 rw [type]; rfl
      rw [type, offset, type, ops.readReg_rs1 (by rw [type]; rfl)]
      exact congrArg (fun i => (v1 + i) &&& 0xFFFFFFFE#32) (immI_eq w).symm
  | beq | bne | blt | bge | bltu | bgeu =>
      simp only [type] at leaves
      have condition := branchCondition_eq (decodeType w) v1 v2
      rw [ops.readReg_rs1 (by rw [type]; rfl), ops.readReg_rs2 (by rw [type]; rfl)] at leaves
      rw [type] at condition
      refine ops.base_branch aligned ?_ ?_ ?_ leaves
      · rw [type]
        rfl
      · rw [type]
        exact condition.symm
      · rw [offset, type]
        exact immB_eq w
  | lb | lh | lw | lbu | lhu =>
      simp only [type] at leaves
      refine .load ((congrArg Control.memRead ops.ctl).trans (by rw [type]; rfl))
        (targetOf_straight ops.base (by rw [type]; rfl) (by rw [type]; rfl) _ _ _) ?_
      rw [leaves, access (by rw [type]; rfl) (.inl (by rw [type]; rfl))]
  | sb | sh | sw =>
      simp only [type] at leaves
      refine .store ((congrArg Control.memWrite ops.ctl).trans (by rw [type]; rfl))
        (targetOf_straight ops.base (by rw [type]; rfl) (by rw [type]; rfl) _ _ _) ?_
      rw [leaves, access (by rw [type]; rfl) (.inr (by rw [type]; rfl)),
        ops.readReg_rs2 (by rw [type]; rfl)]
  | _ =>
      have base := ops.base
      rw [type] at base
      contradiction

end Operands

/-! ## CSR instructions -/

theorem decode_csr (w : U32) : (decode w).csr = (decoder w).csrAddr.setWidth 32 := by
  rw [decoder_csrAddr]
  exact extract_eq w (by omega) (by omega)

/-- The emulator's CSR numbers are those of the core, a word wide. -/
theorem csr_number {x number : BitVec 12} {wide : U32} (same : wide = number.setWidth 32) :
    x.setWidth 32 = wide ↔ x = number := by
  rw [same]
  constructor
  · intro equal
    apply BitVec.eq_of_toNat_eq
    have values := congrArg BitVec.toNat equal
    have small := x.isLt
    have bound := number.isLt
    rw [BitVec.toNat_setWidth, BitVec.toNat_setWidth] at values
    omega
  · rintro rfl
    rfl

/-- Both models implement the same CSRs. -/
theorem readCsr_none_iff (h : Hart) (x : BitVec 12) :
    h.readCsr (x.setWidth 32) = none ↔ CsrFile.readFault x = true := by
  have mvendorid : x.setWidth 32 = csrMvendorid ↔ x = Rtl.csrMvendorid := csr_number rfl
  have marchid : x.setWidth 32 = csrMarchid ↔ x = Rtl.csrMarchid := csr_number rfl
  have mstatus : x.setWidth 32 = csrMstatus ↔ x = Rtl.csrMstatus := csr_number rfl
  have mtvec : x.setWidth 32 = csrMtvec ↔ x = Rtl.csrMtvec := csr_number rfl
  have mepc : x.setWidth 32 = csrMepc ↔ x = Rtl.csrMepc := csr_number rfl
  have mcause : x.setWidth 32 = csrMcause ↔ x = Rtl.csrMcause := csr_number rfl
  unfold Hart.readCsr CsrFile.readFault
  simp only [mvendorid, marchid, mstatus, mtvec, mepc, mcause]
  split_ifs with a b c d e f <;> simp_all

section

variable {w : U32}

/-- The immediate of the immediate forms. -/
theorem decode_zimm (immediate : (decode w).isCsrImm = true) : (decode w).imm = imm w .z := by
  have types : decodeType w = .csrrwi ∨ decodeType w = .csrrsi ∨ decodeType w = .csrrci := by
    simpa [decode, or_assoc] using immediate
  have field : decodeImm w (decodeType w) = extract w 15 19 := by
    rcases types with type | type | type <;> rw [type] <;> rfl
  have word : (decode w).imm = decodeImm w (decodeType w) := rfl
  rw [word, field]
  exact extract_eq w (by omega) (by omega)

theorem zimm_zero : ∀ x : BitVec 5,
    ((x.setWidth 32 : U32).extractLsb' 0 5 == 0#5) = !((x.setWidth 32 : U32) != 0#32) := by
  decide

theorem rs1_zero : ∀ x : BitVec 5, x.getLsbD 4 = false →
    ((x.setWidth 32 : U32) == 0#32) = (x.setWidth 4 == 0#4) := by
  decide

/-- The new value and the write decision of a CSR instruction. -/
theorem csrUpdate_eq (csr : csrOpOf (decodeType w) ≠ .none)
    (real : hasRs1Reg (decodeType w) = true → (w.extractLsb' 15 5).getLsbD 4 = false)
    (old v1 : U32) :
    csrUpdate (decode w) old (if (decode w).isCsrImm then (decode w).imm else v1) =
      (csrNewValue old (if (decode w).isCsrImm then imm w .z else v1) (csrOpOf (decodeType w)),
        csrDoWrite (decode w).isCsrImm (immOf w) (decoder w).rs1 (csrOpOf (decodeType w))) := by
  obtain ⟨-, -, -, -, -, -, zimm⟩ := decoder_of_csrType csr
  have typed : (decode w).type = decodeType w := rfl
  have source : (if (decode w).isCsrImm then (decode w).imm else v1) =
      if (decode w).isCsrImm then imm w .z else v1 := by
    split_ifs with immediate
    · exact decode_zimm immediate
    · rfl
  have immediate : (decode w).isCsrImm = (decodeType w == .csrrwi || decodeType w == .csrrsi ||
      decodeType w == .csrrci) := rfl
  rw [source]
  cases type : decodeType w with
  | csrrw | csrrwi =>
      rw [csrUpdate, typed, type]
      rfl
  | csrrs | csrrc =>
      rw [type] at real immediate
      have field := rs1_zero _ (real rfl)
      have notImm : (decode w).isCsrImm = false := immediate
      rw [csrUpdate, typed, type, decode_rs1, field, notImm, register_low, decoder_rs1]
      simp [csrNewValue, csrDoWrite, csrOpOf]
  | csrrsi | csrrci =>
      rw [type] at immediate
      have isImm : (decode w).isCsrImm = true := immediate
      have zero : ((immOf w).extractLsb' 0 5 == 0#5) = !((decode w).imm != 0#32) := by
        rw [immOf, zimm isImm, decode_zimm isImm]
        exact zimm_zero _
      rw [csrUpdate, typed, type, isImm]
      simp [csrNewValue, csrDoWrite, csrOpOf, zero]
  | _ =>
      rw [type] at csr
      exact absurd rfl csr

end

/-- Only the CSR instructions write a CSR. -/
theorem csrHart_plain {h : Hart} {d : DecodedInst} (plain : csrOpOf d.type = .none) : csrHart h d = h := by
  cases type : d.type <;> simp_all [csrHart, csrOpOf]

theorem csrHart_csr {h : Hart} {d : DecodedInst} (csr : csrOpOf d.type ≠ .none) {old : U32}
    (read : h.readCsr d.csr = some old) : csrHart h d =
      if (csrUpdate d old (if d.isCsrImm then d.imm else h.readReg d.rs1)).2 then
        (h.writeCsr d.csr
          (csrUpdate d old (if d.isCsrImm then d.imm else h.readReg d.rs1)).1).getD h
      else h := by
  cases type : d.type <;> simp_all [csrHart, csrOpOf]

/-- Without an exception the CSRs are those of the CSR write. -/
theorem executed_csrs {s : EmulatorIss} {d : DecodedInst}
    (quiet : (s.execute d).2.exception = false) (x : U32) :
    (s.execute d).1.hart.readCsr x = (csrHart s.hart d).readCsr x := by
  cases s.execute_cases d with
  | trap from_ cause hart raises leaves =>
      rw [leaves] at quiet
      exact Bool.noConfusion quiet
  | retire from_ rd value next hart quiet real leaves =>
      rw [leaves, ← hart]
      show ({ from_.hart.writeReg rd value with pc := next } : Hart).readCsr x = _
      unfold Hart.writeReg
      split_ifs <;> rfl

/-! ## The two sides of one instruction -/

/-- EX and the hart hold the same instruction, operands and CSRs. -/
structure SameInputs (p : Pipeline) (s : EmulatorIss) : Prop where
  decoded : p.idEx.Decoded
  fetchFault : p.idEx.fetchFault = false
  fetchMisaligned : p.idEx.fetchMisaligned = false
  pc : p.idEx.pc = s.hart.pc
  rs1 : (decoder p.idEx.inst).hasRs1 = true →
    p.exRs1Value = s.hart.readReg (decode p.idEx.inst).rs1
  rs2 : (decoder p.idEx.inst).hasRs2 = true →
    p.exRs2Value = s.hart.readReg (decode p.idEx.inst).rs2
  csrData : ∀ old, s.hart.readCsr (decode p.idEx.inst).csr = some old → p.idEx.csrData = old
  mtvec : p.csrFile.mtvec = s.hart.mtvec
  mepc : p.csrFile.mepc = s.hart.mepc

/-- The value for `rd` of the instruction in EX, outside loads. -/
def exResult (p : Pipeline) : Word := { p with exMem := p.executed }.exForwardValue

/-- A hart after the CSR write of the instruction in EX. -/
def exCsrHart (p : Pipeline) (h : Hart) : Hart :=
  if p.exCsrDoWrite then
    (h.writeCsr (p.idEx.ctl.csrAddr.setWidth 32) p.exCsrNewValue).getD h
  else h

/-- The outcomes of the instruction in EX and of `execute`. -/
structure DatapathAgrees (p : Pipeline) (s : EmulatorIss) : Prop where
  target : ((p.idEx.ctl.jump && p.exJumpTargetMisaligned) || p.exBranchTargetMisaligned) = true ↔
    (s.execute (decode p.idEx.inst)).2.exception = true ∧
      (s.execute (decode p.idEx.inst)).2.cause = causeInstMisaligned
  fault : p.idEx.ctl.memRead = false → p.idEx.ctl.memWrite = false →
    p.exFault = if (s.execute (decode p.idEx.inst)).2.exception then
      some (s.execute (decode p.idEx.inst)).2.cause else none
  nextPc : ((p.idEx.ctl.memRead = false ∧ p.idEx.ctl.memWrite = false) ∨
      (s.execute (decode p.idEx.inst)).2.exception = false) →
    p.exNextPc = (s.execute (decode p.idEx.inst)).2.nextPc
  rd : (s.execute (decode p.idEx.inst)).2.exception = false →
    (s.execute (decode p.idEx.inst)).2.rd =
      if p.idEx.ctl.regWrite then p.idEx.ctl.rd5.setWidth 32 else 0#32
  rdValue : (s.execute (decode p.idEx.inst)).2.exception = false → p.idEx.ctl.memRead = false →
    p.idEx.ctl.regWrite = true → (p.idEx.ctl.csrOp = .none ∨ p.idEx.ctl.rd5 ≠ 0#5) →
      exResult p = (s.execute (decode p.idEx.inst)).2.rdValue
  csrs : (s.execute (decode p.idEx.inst)).2.exception = false → ∀ x,
    (s.execute (decode p.idEx.inst)).1.hart.readCsr x = (exCsrHart p s.hart).readCsr x
  csr : p.idEx.ctl.csrOp ≠ .none → ∀ old, s.hart.readCsr (decode p.idEx.inst).csr = some old →
    csrUpdate (decode p.idEx.inst) old
        (if (decode p.idEx.inst).isCsrImm then (decode p.idEx.inst).imm
          else s.hart.readReg (decode p.idEx.inst).rs1) =
      (p.exCsrNewValue, p.exCsrDoWrite)
  load : p.idEx.ctl.memRead = true →
    s.execute (decode p.idEx.inst) = s.executeLoad (decode p.idEx.inst) p.exAluResult ∧
      accessSize (decode p.idEx.inst).type = axiSizeBytes (p.idEx.ctl.memSize.setWidth 3) ∧
      ∀ data : U32, data.toNat < 2 ^ (8 * (accessSize (decode p.idEx.inst).type).toNat) →
        EmulatorIss.loadValue (decode p.idEx.inst).type data = loadedOf p.idEx.inst data
  store : p.idEx.ctl.memWrite = true →
    s.execute (decode p.idEx.inst) =
        s.executeStore (decode p.idEx.inst) p.exAluResult p.exRs2Value ∧
      accessSize (decode p.idEx.inst).type = axiSizeBytes (p.idEx.ctl.memSize.setWidth 3)

/-- The value of an instruction that names a register. -/
theorem DatapathAgrees.rdValue_of_rd {p : Pipeline} {s : EmulatorIss} (agrees : DatapathAgrees p s)
    (quiet : (s.execute (decode p.idEx.inst)).2.exception = false)
    (noRead : p.idEx.ctl.memRead = false) (some_ : (s.execute (decode p.idEx.inst)).2.rd ≠ 0#32) :
    exResult p = (s.execute (decode p.idEx.inst)).2.rdValue := by
  rw [agrees.rd quiet] at some_
  by_cases writes : p.idEx.ctl.regWrite = true
  · rw [if_pos writes] at some_
    refine agrees.rdValue quiet noRead writes (.inr fun zero => some_ ?_)
    rw [zero]
    rfl
  · exact absurd (if_neg writes) some_

/-- What every load makes of the data of its size. -/
theorem loadValue_fits {w : U32} (base : isBase (decodeType w) = true)
    (reads : (control (decodeType w)).memRead = true) {data : U32}
    (fits : data.toNat < 2 ^ (8 * (accessSize (decodeType w)).toNat)) :
    EmulatorIss.loadValue (decodeType w) data = loadedOf w data := by
  have size : (decoder w).memSize = (control (decodeType w)).memSize :=
    congrArg Control.memSize (decoder_of_base base)
  have sext : (decoder w).memSext = (control (decodeType w)).memSext :=
    congrArg Control.memSext (decoder_of_base base)
  rw [loadedOf, size, sext]
  generalize decodeType w = t at reads fits
  have narrow (n : Nat) (whole : n ≤ 32) (small : data.toNat < 2 ^ n) :
      data = (data.extractLsb' 0 n).setWidth 32 := by
    apply BitVec.eq_of_toNat_eq
    rw [BitVec.toNat_setWidth, BitVec.extractLsb'_toNat, Nat.shiftRight_zero,
      Nat.mod_eq_of_lt small, Nat.mod_eq_of_lt data.isLt]
  cases t with
  | lb =>
      show signExtend (data &&& 0xFF#32) 8 = BitVec.signExtend 32 _
      rw [show data &&& 0xFF#32 = _ from and_low data 8 (by omega)]
      exact signExtend_eq (n := 7) _ (by omega)
  | lh =>
      show signExtend (data &&& 0xFFFF#32) 16 = BitVec.signExtend 32 _
      rw [show data &&& 0xFFFF#32 = _ from and_low data 16 (by omega)]
      exact signExtend_eq (n := 15) _ (by omega)
  | lw => rfl
  | lbu =>
      show data = BitVec.signExtend 32 (data.extractLsb' 0 8) &&& 0xFF#32
      rw [show _ &&& 0xFF#32 = _ from and_low _ 8 (by omega), low_signExtend _ (by omega)]
      exact narrow 8 (by omega) fits
  | lhu =>
      show data = BitVec.signExtend 32 (data.extractLsb' 0 16) &&& 0xFFFF#32
      rw [show _ &&& 0xFFFF#32 = _ from and_low _ 16 (by omega), low_signExtend _ (by omega)]
      exact narrow 16 (by omega) fits
  | _ => exact absurd reads (by decide)

section

variable {p : Pipeline} {s : EmulatorIss}

theorem exResult_eq (decoded : p.idEx.Decoded) : exResult p =
    if (decoder p.idEx.inst).csrOp ≠ .none then p.idEx.csrData
    else if (decoder p.idEx.inst).jump then p.idEx.pc + 4#32
    else aluOf p.idEx.inst p.idEx.pc p.exRs1Value p.exRs2Value := by
  rw [← Pipeline.exAluResult_eq decoded]
  simp only [exResult, Pipeline.exForwardValue, Pipeline.executed, decoded.ctl]

theorem rd_some (w : U32) (some_ : (decoder w).rd5 ≠ 0#5) : (decode w).rd ≠ 0#32 := by
  intro zero
  rw [decode_rd, ← decoder_rd5] at zero
  refine some_ (BitVec.eq_of_toNat_eq ?_)
  have value := congrArg BitVec.toNat zero
  rwa [BitVec.toNat_setWidth_of_le (by decide)] at value

/-- An instruction that is no CSR instruction on either side writes no CSR. -/
theorem csrs_plain (decoded : p.idEx.Decoded) (noCsr : (decoder p.idEx.inst).csrOp = .none)
    (plain : csrOpOf (decodeType p.idEx.inst) = .none) :
    csrHart s.hart (decode p.idEx.inst) = exCsrHart p s.hart := by
  have silent : p.exCsrDoWrite = false := by
    rw [Pipeline.exCsrDoWrite, decoded.ctl, noCsr]
    rfl
  rw [csrHart_plain plain, exCsrHart, silent, if_neg Bool.false_ne_true]

/-- Both sides trap with one cause. -/
theorem agrees_of_trap (same : SameInputs p s) (noRead : (decoder p.idEx.inst).memRead = false)
    (noWrite : (decoder p.idEx.inst).memWrite = false) {from_ : EmulatorIss} {cause : U32}
    (leaves : s.execute (decode p.idEx.inst) = from_.trap (decode p.idEx.inst) cause)
    (mtvec : from_.hart.mtvec = s.hart.mtvec) (fault : p.exFault = some cause)
    (target : ((p.idEx.ctl.jump && p.exJumpTargetMisaligned) || p.exBranchTargetMisaligned) = true ↔
      cause = causeInstMisaligned)
    (csr : ∀ old, s.hart.readCsr (decode p.idEx.inst).csr = some old →
      (decoder p.idEx.inst).csrOp = .none) : DatapathAgrees p s := by
  have ctl := same.decoded.ctl
  have traps : (s.execute (decode p.idEx.inst)).2.exception = true := by rw [leaves]; rfl
  have raised : (s.execute (decode p.idEx.inst)).2.cause = cause := by rw [leaves]; rfl
  have goes : (s.execute (decode p.idEx.inst)).2.nextPc = s.hart.mtvec := by
    rw [leaves, ← mtvec]
    rfl
  have taken : p.exException = true := by rw [Pipeline.exException, fault]; rfl
  constructor
  · rw [target, traps, raised]
    simp
  · intro _ _
    rw [traps, if_pos rfl, raised, fault]
  · intro _
    rw [goes, Pipeline.exNextPc, if_pos taken, same.mtvec]
  · intro quiet
    rw [traps] at quiet
    contradiction
  · intro quiet
    rw [traps] at quiet
    contradiction
  · intro quiet
    rw [traps] at quiet
    contradiction
  · intro some_ old read
    rw [ctl] at some_
    exact absurd (csr old read) some_
  · intro reads
    rw [ctl] at reads
    exact absurd (noRead.symm.trans reads) (by decide)
  · intro writes
    rw [ctl] at writes
    exact absurd (noWrite.symm.trans writes) (by decide)

/-- Both sides retire, and neither accesses memory. -/
theorem agrees_of_retire (same : SameInputs p s) (noRead : (decoder p.idEx.inst).memRead = false)
    (noWrite : (decoder p.idEx.inst).memWrite = false) {from_ : EmulatorIss}
    {rd value next : U32}
    (leaves : s.execute (decode p.idEx.inst) = from_.retire (decode p.idEx.inst) rd value next)
    (fault : p.exFault = none)
    (target : ((p.idEx.ctl.jump && p.exJumpTargetMisaligned) || p.exBranchTargetMisaligned) = false)
    (goes : p.exNextPc = next)
    (number : rd = if (decoder p.idEx.inst).regWrite then (decode p.idEx.inst).rd else 0#32)
    (result : (decoder p.idEx.inst).regWrite = true →
      ((decoder p.idEx.inst).csrOp = .none ∨ (decode p.idEx.inst).rd ≠ 0#32) → exResult p = value)
    (csrs : csrHart s.hart (decode p.idEx.inst) = exCsrHart p s.hart)
    (csr : (decoder p.idEx.inst).csrOp ≠ .none → ∀ old,
      s.hart.readCsr (decode p.idEx.inst).csr = some old →
        csrUpdate (decode p.idEx.inst) old
          (if (decode p.idEx.inst).isCsrImm then (decode p.idEx.inst).imm
            else s.hart.readReg (decode p.idEx.inst).rs1) = (p.exCsrNewValue, p.exCsrDoWrite)) :
    DatapathAgrees p s := by
  have ctl := same.decoded.ctl
  have quiet : (s.execute (decode p.idEx.inst)).2.exception = false := by rw [leaves]; rfl
  have field : (decode p.idEx.inst).rd = (decoder p.idEx.inst).rd5.setWidth 32 := by
    rw [decode_rd, decoder_rd5]
  have names : (s.execute (decode p.idEx.inst)).2.rd = rd := by rw [leaves]; rfl
  constructor
  · rw [target, quiet]
    simp
  · intro _ _
    rw [quiet, if_neg (by decide), fault]
  · intro _
    rw [leaves, goes]
    rfl
  · intro _
    rw [names, number, ctl, field]
  · intro _ _ writes used
    rw [ctl] at writes used
    rw [result writes (used.imp_right (rd_some p.idEx.inst)), leaves]
    rfl
  · intro _ x
    rw [executed_csrs quiet, csrs]
  · intro some_
    rw [ctl] at some_
    exact csr some_
  · intro reads
    rw [ctl] at reads
    exact absurd (noRead.symm.trans reads) (by decide)
  · intro writes
    rw [ctl] at writes
    exact absurd (noWrite.symm.trans writes) (by decide)

/-- What a load or a store shows of itself, besides its access. -/
structure AccessEvent (s : EmulatorIss) (rd : U32) (ev : CommitEvent) : Prop where
  nextPc : ev.exception = false → ev.nextPc = s.hart.pc + 4#32
  rd : ev.exception = false → ev.rd = rd
  cause : ev.exception = true → ev.cause ≠ causeInstMisaligned

theorem trap_event {s from_ : EmulatorIss} {d : DecodedInst} {rd cause : U32}
    (other : cause ≠ causeInstMisaligned) : AccessEvent s rd (from_.trap d cause).2 :=
  ⟨nofun, nofun, fun _ => other⟩

theorem executeLoad_event (s : EmulatorIss) (d : DecodedInst) (addr : U32) :
    AccessEvent s d.rd (s.executeLoad d addr).2 := by
  have hart := s.loadMem_hart addr (accessSize d.type)
  unfold EmulatorIss.executeLoad
  rcases answer : s.loadMem addr (accessSize d.type) with ⟨result, value, after⟩
  rw [answer] at hart
  cases result with
  | ok => exact ⟨fun _ => congrArg (fun h : Hart => h.pc + 4#32) hart, fun _ => rfl, nofun⟩
  | misaligned => exact trap_event (by decide)
  | accessFault => exact trap_event (by decide)

theorem executeStore_event (s : EmulatorIss) (d : DecodedInst) (addr data : U32) :
    AccessEvent s 0#32 (s.executeStore d addr data).2 := by
  have hart := s.storeMem_hart addr (accessSize d.type) data
  unfold EmulatorIss.executeStore
  rcases answer : s.storeMem addr (accessSize d.type) data with ⟨result, after⟩
  rw [answer] at hart
  cases result with
  | ok => exact ⟨fun _ => congrArg (fun h : Hart => h.pc + 4#32) hart, fun _ => rfl, nofun⟩
  | misaligned => exact trap_event (by decide)
  | accessFault => exact trap_event (by decide)

/-- Both sides make the same access. -/
theorem agrees_of_access (same : SameInputs p s) {ev : CommitEvent} {rd : U32}
    (leaves : (s.execute (decode p.idEx.inst)).2 = ev) (event : AccessEvent s rd ev)
    (access : (decoder p.idEx.inst).memRead = true ∨ (decoder p.idEx.inst).memWrite = true)
    (noCsr : (decoder p.idEx.inst).csrOp = .none)
    (plain : csrOpOf (decodeType p.idEx.inst) = .none)
    (target : ((p.idEx.ctl.jump && p.exJumpTargetMisaligned) || p.exBranchTargetMisaligned) = false)
    (goes : p.exNextPc = s.hart.pc + 4#32)
    (number : rd = if (decoder p.idEx.inst).regWrite then (decode p.idEx.inst).rd else 0#32)
    (store : (decoder p.idEx.inst).memRead = false → (decoder p.idEx.inst).regWrite = false)
    (loads : (decoder p.idEx.inst).memRead = true →
      s.execute (decode p.idEx.inst) = s.executeLoad (decode p.idEx.inst) p.exAluResult ∧
        accessSize (decode p.idEx.inst).type =
          axiSizeBytes ((decoder p.idEx.inst).memSize.setWidth 3) ∧
        ∀ data : U32, data.toNat < 2 ^ (8 * (accessSize (decode p.idEx.inst).type).toNat) →
          EmulatorIss.loadValue (decode p.idEx.inst).type data = loadedOf p.idEx.inst data)
    (stores : (decoder p.idEx.inst).memWrite = true →
      s.execute (decode p.idEx.inst) =
          s.executeStore (decode p.idEx.inst) p.exAluResult p.exRs2Value ∧
        accessSize (decode p.idEx.inst).type =
          axiSizeBytes ((decoder p.idEx.inst).memSize.setWidth 3)) : DatapathAgrees p s := by
  have ctl := same.decoded.ctl
  have field : (decode p.idEx.inst).rd = (decoder p.idEx.inst).rd5.setWidth 32 := by
    rw [decode_rd, decoder_rd5]
  constructor
  · rw [target, leaves]
    refine iff_of_false (by decide) ?_
    rintro ⟨traps, cause⟩
    exact event.cause traps cause
  · intro noRead noWrite
    rw [ctl] at noRead noWrite
    rcases access with reads | writes
    · exact absurd (noRead.symm.trans reads) (by decide)
    · exact absurd (noWrite.symm.trans writes) (by decide)
  · rw [leaves]
    rintro (⟨noRead, noWrite⟩ | quiet)
    · rw [ctl] at noRead noWrite
      rcases access with reads | writes
      · exact absurd (noRead.symm.trans reads) (by decide)
      · exact absurd (noWrite.symm.trans writes) (by decide)
    · rw [goes, event.nextPc quiet]
  · rw [leaves]
    intro quiet
    rw [event.rd quiet, number, ctl, field]
  · intro _ noRead writes _
    rw [ctl] at noRead writes
    exact Bool.noConfusion ((store noRead).symm.trans writes)
  · intro quiet x
    rw [executed_csrs quiet, csrs_plain same.decoded noCsr plain]
  · intro some_
    rw [ctl] at some_
    exact absurd noCsr some_
  · rw [ctl]
    exact loads
  · rw [ctl]
    exact stores

/-! ## Every accepted word -/

/-- The registers of a word that the RTL accepts. -/
theorem registers_of_legal {w : U32} (legal : rtlIllegal w = false) :
    (decoder w).illegal = false ∧ ((decoder w).hasRd && (w.extractLsb' 7 5).getLsbD 4) = false ∧
      ((decoder w).hasRs1 && (w.extractLsb' 15 5).getLsbD 4) = false ∧
      ((decoder w).hasRs2 && (w.extractLsb' 20 5).getLsbD 4) = false := by
  rw [rtlIllegal_eq, Bool.or_eq_false_iff, Bool.or_eq_false_iff, Bool.or_eq_false_iff] at legal
  exact ⟨legal.1.1.1, legal.1.1.2, legal.1.2, legal.2⟩

/-- A register operand that the RTL accepts. -/
theorem readReg_legal {lo : Nat} {w : U32} (h : Hart) (real : (w.extractLsb' lo 5).getLsbD 4 = false) :
    h.readReg ((w.extractLsb' lo 5).setWidth 32) = h.reg (w.extractLsb' lo 4) := by
  rw [readReg_register _ real, register_low]

theorem exAccepts (same : SameInputs p s) (aligned : misaligned4 s.hart.pc = false)
    (legal : rtlIllegal p.idEx.inst = false) : ExAccepts p :=
  ⟨same.decoded, same.fetchFault, same.fetchMisaligned, same.pc ▸ aligned, legal⟩

theorem operands_of_accepted (same : SameInputs p s) (legal : rtlIllegal p.idEx.inst = false)
    (checked : reservedReg (decode p.idEx.inst) = false)
    (base : isBase (decodeType p.idEx.inst) = true) :
    Operands s p.idEx.inst p.exRs1Value p.exRs2Value := by
  obtain ⟨-, -, rs1, rs2⟩ := registers_of_legal legal
  refine ⟨base, checked, ?_, ?_, ?_⟩
  · intro op
    have has : (decoder p.idEx.inst).hasRs1 = true := by
      have arm : major p.idEx.inst = .op := by
        unfold major
        rw [op]
        rfl
      rw [decoder, arm]
      rfl
    rwa [has, Bool.true_and] at rs1
  · intro has
    rw [has, Bool.true_and] at rs1
    rw [same.rs1 has, decode_rs1, readReg_legal _ rs1, decoder_rs1]
  · intro has
    rw [has, Bool.true_and] at rs2
    rw [same.rs2 has, decode_rs2, readReg_legal _ rs2, decoder_rs2]

/-- The target of a base instruction decides between the exception and the next pc. -/
structure BaseExit (p : Pipeline) (s : EmulatorIss) : Prop where
  noCsr : (decoder p.idEx.inst).csrOp = .none
  target : ((p.idEx.ctl.jump && p.exJumpTargetMisaligned) || p.exBranchTargetMisaligned) =
    (targetOf p.idEx.inst s.hart.pc p.exRs1Value p.exRs2Value).any misaligned4
  off : (targetOf p.idEx.inst s.hart.pc p.exRs1Value p.exRs2Value).any misaligned4 = true →
    p.exFault = some causeInstMisaligned
  on : (targetOf p.idEx.inst s.hart.pc p.exRs1Value p.exRs2Value).any misaligned4 = false →
    p.exFault = none ∧ p.exNextPc = nextPcOf p.idEx.inst s.hart.pc p.exRs1Value p.exRs2Value

theorem base_exit (same : SameInputs p s) (aligned : misaligned4 s.hart.pc = false)
    (legal : rtlIllegal p.idEx.inst = false)
    (ops : Operands s p.idEx.inst p.exRs1Value p.exRs2Value) : BaseExit p s := by
  have accepts := exAccepts same aligned legal
  have ctl := ops.ctl
  obtain ⟨-, ecall, ebreak, mret, -, csrOp⟩ := control_plain ops.base
  have noEcall : (decoder p.idEx.inst).ecall = false := (congrArg Control.ecall ctl).trans ecall
  have noEbreak : (decoder p.idEx.inst).ebreak = false := (congrArg Control.ebreak ctl).trans ebreak
  have noMret : (decoder p.idEx.inst).mret = false := (congrArg Control.mret ctl).trans mret
  have noCsr : (decoder p.idEx.inst).csrOp = .none := (congrArg Control.csrOp ctl).trans csrOp
  have noIllegal : p.idExCsrIllegal = false := by
    rw [Pipeline.idExCsrIllegal, same.decoded.ctl, noCsr]
    rfl
  have fault := accepts.exFault_eq
  have target := accepts.target
  have next := accepts.exNextPc_eq
  rw [noIllegal, noEcall, noEbreak, if_neg (by decide), if_neg (by decide : ¬ false = true),
    if_neg (by decide : ¬ false = true)] at fault
  rw [noMret, if_neg (by decide : ¬ false = true)] at next
  rw [same.pc] at fault target next
  refine ⟨noCsr, target, fun off => ?_, fun on => ?_⟩
  · rw [fault, off, if_pos rfl]
  · rw [on, if_neg (by decide)] at fault
    have quiet : p.exException = false := by rw [Pipeline.exException, fault]; rfl
    rw [quiet, if_neg (by decide)] at next
    exact ⟨fault, next⟩

theorem base_agrees (same : SameInputs p s) (aligned : misaligned4 s.hart.pc = false)
    (legal : rtlIllegal p.idEx.inst = false)
    (checked : reservedReg (decode p.idEx.inst) = false)
    (base : isBase (decodeType p.idEx.inst) = true) : DatapathAgrees p s := by
  have ops := operands_of_accepted same legal checked base
  have exit := base_exit same aligned legal ops
  have ctl := ops.ctl
  have plain : csrOpOf (decodeType p.idEx.inst) = .none := by
    revert base
    cases decodeType p.idEx.inst <;> decide
  cases ops.executeBase aligned with
  | off off noRead noWrite leaves =>
      refine agrees_of_trap same noRead noWrite leaves rfl (exit.off off) ?_ fun _ _ => exit.noCsr
      rw [exit.target, off]
      simp
  | value value on noRead noWrite result leaves =>
      obtain ⟨quiet, goes⟩ := exit.on on
      refine agrees_of_retire same noRead noWrite leaves quiet (exit.target.trans on) goes rfl ?_
        (csrs_plain same.decoded exit.noCsr plain) ?_
      · intro writes _
        rw [result writes, exResult_eq same.decoded, exit.noCsr, same.pc]
        rfl
      · exact fun some_ => absurd exit.noCsr some_
  | load reads there leaves =>
      obtain ⟨quiet, goes⟩ := exit.on (by rw [there]; rfl)
      have ctlReads : (control (decodeType p.idEx.inst)).memRead = true :=
        (congrArg Control.memRead ctl).symm.trans reads
      have addr : p.exAluResult = aluOf p.idEx.inst s.hart.pc p.exRs1Value p.exRs2Value := by
        rw [Pipeline.exAluResult_eq same.decoded, same.pc]
      have writes : (decoder p.idEx.inst).regWrite = true :=
        (congrArg Control.regWrite ctl).trans (control_load ctlReads)
      have size : accessSize (decode p.idEx.inst).type = _ :=
        (accessSize_load base (.inl ctlReads)).symm
      refine agrees_of_access same (congrArg Prod.snd leaves) (executeLoad_event _ _ _) (.inl reads)
        exit.noCsr plain (exit.target.trans (by rw [there]; rfl)) ?_ ?_ ?_ ?_ ?_
      · rw [goes, nextPcOf, there]
        rfl
      · rw [writes, if_pos rfl]
      · exact fun noRead => absurd (noRead.symm.trans reads) (by decide)
      · intro _
        rw [leaves, addr]
        exact ⟨rfl, size, fun data fits => loadValue_fits base ctlReads fits⟩
      · intro stores
        rw [(decoder_of_memWrite stores).1] at reads
        contradiction
  | store stores there leaves =>
      obtain ⟨quiet, goes⟩ := exit.on (by rw [there]; rfl)
      have ctlWrites : (control (decodeType p.idEx.inst)).memWrite = true :=
        (congrArg Control.memWrite ctl).symm.trans stores
      have addr : p.exAluResult = aluOf p.idEx.inst s.hart.pc p.exRs1Value p.exRs2Value := by
        rw [Pipeline.exAluResult_eq same.decoded, same.pc]
      have noRd : (decoder p.idEx.inst).regWrite = false :=
        (congrArg Control.regWrite ctl).trans (control_store ctlWrites)
      have size : accessSize (decode p.idEx.inst).type = _ :=
        (accessSize_load base (.inr ctlWrites)).symm
      refine agrees_of_access same (congrArg Prod.snd leaves) (executeStore_event _ _ _ _)
        (.inr stores) exit.noCsr plain (exit.target.trans (by rw [there]; rfl)) ?_ ?_ ?_ ?_ ?_
      · rw [goes, nextPcOf, there]
        rfl
      · rw [noRd]
        rfl
      · exact fun _ => noRd
      · intro reads
        rw [(decoder_of_memWrite stores).1] at reads
        contradiction
      · intro _
        rw [leaves, addr]
        exact ⟨rfl, size⟩

/-- The new value and the write decision that EX computes for a CSR instruction. -/
theorem exCsr_eq (same : SameInputs p s) (legal : rtlIllegal p.idEx.inst = false)
    (csr : csrOpOf (decodeType p.idEx.inst) ≠ .none) {old : U32}
    (read : s.hart.readCsr (decode p.idEx.inst).csr = some old) :
    csrUpdate (decode p.idEx.inst) old
        (if (decode p.idEx.inst).isCsrImm then (decode p.idEx.inst).imm
          else s.hart.readReg (decode p.idEx.inst).rs1) =
      (p.exCsrNewValue, p.exCsrDoWrite) := by
  obtain ⟨-, op, src, -, hasRs1, -, zimm⟩ := decoder_of_csrType csr
  obtain ⟨-, -, rs1, -⟩ := registers_of_legal legal
  have some_ : (decoder p.idEx.inst).csrOp ≠ .none := by rwa [op]
  obtain ⟨-, -, -, -, -, -, -, uses⟩ := decoder_of_csr some_
  have real : hasRs1Reg (decodeType p.idEx.inst) = true →
      (p.idEx.inst.extractLsb' 15 5).getLsbD 4 = false := by
    intro has
    rwa [hasRs1, has, Bool.true_and] at rs1
  have operand : p.exCsrOperand = if (decode p.idEx.inst).isCsrImm then imm p.idEx.inst .z
      else s.hart.readReg (decode p.idEx.inst).rs1 := by
    have select : p.idEx.ctl.csrSrc = (decode p.idEx.inst).isCsrImm := by
      rw [same.decoded.ctl]
      exact src
    rw [Pipeline.exCsrOperand, select]
    split_ifs with immediate
    · rw [same.decoded.imm, zimm immediate]
    · refine same.rs1 ?_
      rw [uses, src]
      simpa using immediate
  have decision : p.exCsrDoWrite = csrDoWrite (decode p.idEx.inst).isCsrImm (immOf p.idEx.inst)
      (decoder p.idEx.inst).rs1 (csrOpOf (decodeType p.idEx.inst)) := by
    rw [Pipeline.exCsrDoWrite, same.decoded.ctl, same.decoded.imm, ← src, ← op]
    rfl
  have value : p.exCsrNewValue = csrNewValue old (if (decode p.idEx.inst).isCsrImm then
      imm p.idEx.inst .z else s.hart.readReg (decode p.idEx.inst).rs1)
        (csrOpOf (decodeType p.idEx.inst)) := by
    rw [Pipeline.exCsrNewValue, same.csrData old read, operand, same.decoded.ctl, ← op]
  rw [csrUpdate_eq csr real, decision, value]

theorem csr_agrees (same : SameInputs p s) (aligned : misaligned4 s.hart.pc = false)
    (legal : rtlIllegal p.idEx.inst = false) (checked : reservedReg (decode p.idEx.inst) = false)
    (csr : csrOpOf (decodeType p.idEx.inst) ≠ .none) : DatapathAgrees p s := by
  have accepts := exAccepts same aligned legal
  obtain ⟨-, op, -, hasRd, -, -, -⟩ := decoder_of_csrType csr
  have some_ : (decoder p.idEx.inst).csrOp ≠ .none := by rwa [op]
  obtain ⟨-, jump, mret, ecall, ebreak, branch, -, -⟩ := decoder_of_csr some_
  obtain ⟨noRead, noWrite⟩ := decoder_of_csrOp some_
  have straight (pc v1 v2 : U32) : targetOf p.idEx.inst pc v1 v2 = none := by
    rw [targetOf, jump, takenOf, branch]
    rfl
  have fault := accepts.exFault_eq
  have target := accepts.target
  have next := accepts.exNextPc_eq
  rw [straight, ecall, ebreak] at fault
  rw [straight] at target
  rw [mret, nextPcOf, straight, same.pc] at next
  have illegal : p.idExCsrIllegal = CsrFile.readFault (decoder p.idEx.inst).csrAddr := by
    have opBit : ((decoder p.idEx.inst).csrOp != .none) = true := by simpa using some_
    rw [Pipeline.idExCsrIllegal, same.decoded.ctl, same.decoded.csrFault]
    show ((decoder p.idEx.inst).csrOp != .none && _) = _
    rw [opBit, Bool.true_and]
  have typed : (decode p.idEx.inst).type = decodeType p.idEx.inst := rfl
  have leaves : s.execute (decode p.idEx.inst) = s.executeCsr (decode p.idEx.inst) := by
    rw [EmulatorIss.execute, checked, typed]
    revert csr
    cases decodeType p.idEx.inst <;> intro csr <;> first | rfl | exact absurd rfl csr
  rw [EmulatorIss.executeCsr] at leaves
  cases read : s.hart.readCsr (decode p.idEx.inst).csr with
  | none =>
      have unknown : CsrFile.readFault (decoder p.idEx.inst).csrAddr = true := by
        rw [decode_csr] at read
        exact (readCsr_none_iff s.hart _).mp read
      rw [read] at leaves
      rw [illegal, unknown, if_pos rfl] at fault
      refine agrees_of_trap same noRead noWrite leaves rfl fault ?_ ?_
      · rw [target]
        decide
      · intro old found
        rw [read] at found
        contradiction
  | some old =>
      have known : CsrFile.readFault (decoder p.idEx.inst).csrAddr = false := by
        rw [← Bool.not_eq_true, ← readCsr_none_iff s.hart, ← decode_csr, read]
        simp
      have quiet : p.exFault = none := by
        rw [fault, illegal, known]
        rfl
      have goes : p.exNextPc = s.hart.pc + 4#32 := by
        have noTrap : p.exException = false := by rw [Pipeline.exException, quiet]; rfl
        rw [next, noTrap]
        rfl
      have update := exCsr_eq same legal csr read
      have number : (decode p.idEx.inst).rd =
          if (decoder p.idEx.inst).regWrite then (decode p.idEx.inst).rd else 0#32 := by
        rw [decoder_regWrite, hasRd, if_pos rfl]
      have result (_ : (decoder p.idEx.inst).regWrite = true)
          (used : (decoder p.idEx.inst).csrOp = .none ∨ (decode p.idEx.inst).rd ≠ 0#32) :
          exResult p = if (decode p.idEx.inst).rd ≠ 0#32 then old else 0#32 := by
        rw [exResult_eq same.decoded, if_pos some_, if_pos (used.resolve_left some_)]
        exact same.csrData old read
      have csrs : csrHart s.hart (decode p.idEx.inst) = exCsrHart p s.hart := by
        rw [csrHart_csr csr read, update, exCsrHart, decode_csr, same.decoded.ctl]
      have updates (_ : (decoder p.idEx.inst).csrOp ≠ .none) (other : U32)
          (found : s.hart.readCsr (decode p.idEx.inst).csr = some other) :=
        exCsr_eq same legal csr found
      simp only [read, update] at leaves
      cases writes : p.exCsrDoWrite with
      | false =>
          rw [writes, if_neg (by decide)] at leaves
          exact agrees_of_retire same noRead noWrite leaves quiet target goes number result csrs
            updates
      | true =>
          obtain ⟨after, written⟩ := writeCsr_of_read read p.exCsrNewValue
          rw [writes, if_pos rfl, written] at leaves
          exact agrees_of_retire same noRead noWrite leaves quiet target goes number result csrs
            updates

/-- The words that neither compute nor access anything. -/
structure Bare (w : U32) : Prop where
  jump : (decoder w).jump = false
  branchType : (decoder w).branchType = .none
  memRead : (decoder w).memRead = false
  memWrite : (decoder w).memWrite = false
  csrOp : (decoder w).csrOp = .none
  regWrite : (decoder w).regWrite = false

theorem Bare.targetOf {w : U32} (bare : Bare w) (pc v1 v2 : U32) : targetOf w pc v1 v2 = none := by
  rw [Rtl.targetOf, bare.jump, takenOf, bare.branchType]
  rfl

theorem bare_miscMem {w : U32} (code : opcode w = 0b0001111#7) :
    Bare w ∧ (decoder w).ecall = false ∧ (decoder w).ebreak = false ∧ (decoder w).mret = false := by
  have body : decoder w = decodeMiscMem w := by rw [decoder, major_miscMem code]
  rw [body]
  exact ⟨⟨by rw [body]; rfl, by rw [body]; rfl, by rw [body]; rfl, by rw [body]; rfl,
    by rw [body]; rfl, by rw [body]; rfl⟩, rfl, rfl, rfl⟩

theorem bare_of_code {w code : U32} (same : w = code)
    (flags : (decoder code).jump = false ∧ (decoder code).branchType = .none ∧
      (decoder code).memRead = false ∧ (decoder code).memWrite = false ∧
        (decoder code).csrOp = .none ∧ (decoder code).regWrite = false) : Bare w := by
  subst same
  exact ⟨flags.1, flags.2.1, flags.2.2.1, flags.2.2.2.1, flags.2.2.2.2.1, flags.2.2.2.2.2⟩

/-- A type whose entry compares all bits is one word. -/
theorem word_of_type {w : U32} {e : Entry} (entry : entryOf (decodeType w) = some e)
    (full : e.mask = 0xFFFFFFFF#32) : w = e.code := by
  have known : decodeType w ≠ .unknown := by
    intro missing
    have noEntry : entryOf .unknown = none := by decide
    rw [missing, noEntry] at entry
    contradiction
  obtain ⟨f, mem, type, hit⟩ := decodeType_entry known
  have unique : ∀ g ∈ decodeTable, entryOf g.type = some g := by decide
  have found := unique f mem
  rw [type, entry] at found
  cases found
  rw [← hit, full]
  exact BitVec.and_allOnes.symm

/-- EX raises what a bare word asks for, or goes on. -/
theorem bare_ex (accepts : ExAccepts p) (bare : Bare p.idEx.inst) :
    p.exFault = (if (decoder p.idEx.inst).ecall then some causeEcallM
      else if (decoder p.idEx.inst).ebreak then some causeBreakpoint else none) ∧
      ((p.idEx.ctl.jump && p.exJumpTargetMisaligned) || p.exBranchTargetMisaligned) = false ∧
      (p.exFault = none → p.exNextPc =
        if (decoder p.idEx.inst).mret then p.csrFile.mepc else p.idEx.pc + 4#32) := by
  have noIllegal : p.idExCsrIllegal = false := by
    rw [Pipeline.idExCsrIllegal, accepts.decoded.ctl, bare.csrOp]
    rfl
  have fault := accepts.exFault_eq
  rw [noIllegal, bare.targetOf] at fault
  refine ⟨fault, ?_, ?_⟩
  · rw [accepts.target, bare.targetOf]
    rfl
  · intro quiet
    have noTrap : p.exException = false := by rw [Pipeline.exException, quiet]; rfl
    rw [accepts.exNextPc_eq, noTrap, nextPcOf, bare.targetOf]
    rfl

theorem bare_retires (same : SameInputs p s) (accepts : ExAccepts p) (bare : Bare p.idEx.inst)
    (plain : csrOpOf (decodeType p.idEx.inst) = .none)
    (noEcall : (decoder p.idEx.inst).ecall = false)
    (noEbreak : (decoder p.idEx.inst).ebreak = false) {next : U32}
    (leaves : s.execute (decode p.idEx.inst) = s.retire (decode p.idEx.inst) 0#32 0#32 next)
    (goes : next = if (decoder p.idEx.inst).mret then s.hart.mepc else s.hart.pc + 4#32) :
    DatapathAgrees p s := by
  obtain ⟨fault, target, flows⟩ := bare_ex accepts bare
  rw [noEcall, noEbreak] at fault
  refine agrees_of_retire same bare.memRead bare.memWrite leaves fault target ?_ ?_ ?_
    (csrs_plain same.decoded bare.csrOp plain) ?_
  · rw [flows fault, goes, same.mepc, same.pc]
  · rw [bare.regWrite]
    rfl
  · exact fun writes => Bool.noConfusion (bare.regWrite.symm.trans writes)
  · exact fun some_ => absurd bare.csrOp some_

theorem bare_traps (same : SameInputs p s) (accepts : ExAccepts p) (bare : Bare p.idEx.inst)
    {from_ : EmulatorIss} {cause : U32} (mtvec : from_.hart.mtvec = s.hart.mtvec)
    (leaves : s.execute (decode p.idEx.inst) = from_.trap (decode p.idEx.inst) cause)
    (raises : (if (decoder p.idEx.inst).ecall then some causeEcallM
      else if (decoder p.idEx.inst).ebreak then some causeBreakpoint else none) = some cause)
    (other : cause ≠ causeInstMisaligned) : DatapathAgrees p s := by
  obtain ⟨fault, target, -⟩ := bare_ex accepts bare
  refine agrees_of_trap same bare.memRead bare.memWrite leaves mtvec (fault.trans raises) ?_ ?_
  · rw [target]
    exact iff_of_false (by decide) other
  · exact fun _ _ => bare.csrOp

theorem bare_agrees (same : SameInputs p s) (aligned : misaligned4 s.hart.pc = false)
    (legal : rtlIllegal p.idEx.inst = false) (checked : reservedReg (decode p.idEx.inst) = false)
    (known : decodeType p.idEx.inst ≠ .unknown)
    (rest : isBase (decodeType p.idEx.inst) = false ∧ csrOpOf (decodeType p.idEx.inst) = .none) :
    DatapathAgrees p s := by
  have accepts := exAccepts same aligned legal
  have typed : (decode p.idEx.inst).type = decodeType p.idEx.inst := rfl
  have leaves : s.execute (decode p.idEx.inst) = s.execute (decode p.idEx.inst) := rfl
  conv_rhs at leaves => unfold EmulatorIss.execute
  simp only [checked, Bool.false_eq_true, if_false, typed] at leaves
  cases type : decodeType p.idEx.inst with
  | fence | fenceI =>
      simp only [type] at leaves
      have code := (decodeType_fields (w := p.idEx.inst) (by rw [type]; exact rfl)).1
      obtain ⟨bare, noEcall, noEbreak, noMret⟩ := bare_miscMem code
      refine bare_retires same accepts bare rest.2 noEcall noEbreak leaves ?_
      rw [noMret]
      rfl
  | wfi | mret =>
      simp only [type] at leaves
      have word := word_of_type (w := p.idEx.inst) (by rw [type]; exact rfl) rfl
      have bare := bare_of_code word (by decide)
      refine bare_retires same accepts bare rest.2 ?_ ?_ leaves ?_
      iterate 3 rw [word]; rfl
  | ecall =>
      simp only [type] at leaves
      have word := word_of_type (w := p.idEx.inst) (by rw [type]; exact rfl) rfl
      have bare := bare_of_code word (by decide)
      refine bare_traps same accepts bare ?_ leaves ?_ (by decide)
      · rfl
      · rw [word]
        rfl
  | ebreak =>
      simp only [type] at leaves
      have word := word_of_type (w := p.idEx.inst) (by rw [type]; exact rfl) rfl
      have bare := bare_of_code word (by decide)
      refine bare_traps same accepts bare ?_ leaves ?_ (by decide)
      · rfl
      · rw [word]
        rfl
  | unknown => exact absurd type known
  | _ =>
      rw [type] at rest
      exact absurd rest (by decide)

end

/-- A pipeline whose EX holds a word with the registers and CSRs of a hart. -/
def exAt (inst : U32) (h : Hart) : Pipeline :=
  { Pipeline.reset default with
    idEx :=
      { valid := true
        pc := h.pc
        inst := inst
        ctl := (decoder inst).toCtl
        rs1Data := h.readReg (decode inst).rs1
        rs2Data := h.readReg (decode inst).rs2
        imm := immOf inst
        csrData := (h.readCsr (decode inst).csr).getD 0#32
        csrFault := CsrFile.readFault (decoder inst).csrAddr
        fetchFault := false
        fetchMisaligned := false }
    csrFile := ⟨h.mstatus, h.mtvec, h.mepc, h.mcause⟩ }

end NpcMachine.Emulator
