/-
# Emulator.StepAgree -- one instruction of the reference model in the words of the RTL

`Retires` says what an instruction that raises nothing does: the word is legal for EX,
the next pc, the value for `rd` and the store are those of the RTL's datapath on the same
operands.  `execute_retires`: every base instruction does that, but for an `OP` word with
a reserved `rs1`, which the reference model lets pass.
-/
import NpcMachine.Emulator.ValueAgree
import NpcMachine.Emulator.StoreOrder

namespace NpcMachine.Emulator

open NpcMachine.Rtl NpcMachine.Machine

set_option autoImplicit false

/-! ## Data addresses -/

/-- The address of a load or a store. -/
def EmulatorIss.dataAddr (e : EmulatorIss) (d : DecodedInst) : Option U32 :=
  if accessSize d.type = 0#32 then none else some (e.hart.readReg d.rs1 + d.imm)

/-- An `OP` word whose `rs1` field names one of the sixteen registers. -/
def OpRs1Real (w : U32) : Prop :=
  opcode w = 0b0110011#7 → (w.extractLsb' 15 5).getLsbD 4 = false

instance (w : U32) : Decidable (OpRs1Real w) := inferInstanceAs (Decidable (_ → _))

/-! ## What a retired instruction does -/

/-- The store of a word. -/
def storeOf (w pc v1 v2 : U32) : Option StoreOp :=
  if (decoder w).memWrite then some ⟨aluOf w pc v1 v2, (decoder w).memSize, v2⟩ else none

/-- The answer to the load of a word. -/
def loadOf (m : Memory) (w pc v1 v2 : U32) : MemResult × U32 :=
  m.load (aluOf w pc v1 v2) (axiSizeBytes ((decoder w).memSize.setWidth 3)) 0#32

structure Retires (e : EmulatorIss) (w v1 v2 : U32) (out : EmulatorIss × CommitEvent) : Prop where
  legal : Legal w e.hart.pc v1 v2
  pc : out.2.pc = e.hart.pc
  inst : out.2.inst = w
  exception : out.2.exception = false
  nextPc : out.2.nextPc = nextPcOf w e.hart.pc v1 v2
  hartPc : out.1.hart.pc = nextPcOf w e.hart.pc v1 v2
  rd : out.2.rd = if (decoder w).regWrite then (w.extractLsb' 7 5).setWidth 32 else 0#32
  rdValue : (decoder w).regWrite = true → out.2.rdValue =
    resultOf w e.hart.pc v1 v2 (loadedOf w (loadOf e.memory w e.hart.pc v1 v2).2)
  regs : ∀ r, out.1.hart.reg r =
    if (decoder w).regWrite = true ∧ r ≠ 0#4 ∧ r = (decoder w).rd then out.2.rdValue
    else e.hart.reg r
  access : (decoder w).memRead = true ∨ (decoder w).memWrite = true →
    Rtl.inClint (aluOf w e.hart.pc v1 v2) = false
  load : (decoder w).memRead = true → (loadOf e.memory w e.hart.pc v1 v2).1 = .ok
  store : (decoder w).memWrite = true → (e.memory.store (aluOf w e.hart.pc v1 v2)
    (axiSizeBytes ((decoder w).memSize.setWidth 3)) v2).1 = .ok
  memory : out.1.memory = performOption (storeOf w e.hart.pc v1 v2) e.memory
  cfg : out.1.cfg = e.cfg

/-! ## Alignment -/

theorem misaligned4_iff (a : U32) : misaligned4 a = false ↔ a &&& 3#32 = 0#32 := by
  have low : a &&& 3#32 = (a.extractLsb' 0 2).setWidth 32 := and_low a 2 (by omega)
  have zero : ∀ x : BitVec 2, (x != 0#2) = false ↔ x.setWidth 32 = 0#32 := by decide
  rw [low, misaligned4]
  exact zero _

/-! ## Legal words -/

section

variable {e : EmulatorIss} {w v1 v2 : U32}

/-- The register checks of both models, but for `rs1` of the `OP` words. -/
theorem registers_of_base (base : isBase (decodeType w) = true)
    (checked : reservedReg (decode w) = false) (real : OpRs1Real w) :
    ((decoder w).hasRd && (decoder w).rd5.getLsbD 4) = false ∧
      ((decoder w).hasRs1 && (decoder w).rs15.getLsbD 4) = false ∧
      ((decoder w).hasRs2 && (decoder w).rs25.getLsbD 4) = false := by
  have ctl := decoder_of_base base
  have known : ((decode w).type != .unknown) = true := by
    rw [bne_iff_ne]
    intro none
    have same : decodeType w = .unknown := none
    rw [same] at base
    contradiction
  rw [reservedReg, known, Bool.true_and, Bool.or_eq_false_iff, Bool.or_eq_false_iff, decode_rd,
    decode_rs1, decode_rs2, gprCount_ule, gprCount_ule, gprCount_ule] at checked
  obtain ⟨⟨rd, rs1⟩, rs2⟩ := checked
  refine ⟨?_, ?_, ?_⟩
  · have has : (decoder w).hasRd = hasRd (decodeType w) :=
      (congrArg Control.hasRd ctl).trans (hasRd_base base).symm
    rw [has, decoder_rd5]
    exact rd
  · cases has : (decoder w).hasRs1 with
    | false => rfl
    | true =>
        rw [Bool.true_and, decoder_rs15]
        rcases hasRs1_base base ((congrArg Control.hasRs1 ctl).symm.trans has) with checks | op
        · have field := rs1
          rw [show hasRs1Reg (decode w).type = true from checks, Bool.true_and] at field
          exact field
        · exact real (opcode_op op)
  · have has : (decoder w).hasRs2 = hasRs2Reg (decodeType w) :=
      (congrArg Control.hasRs2 ctl).trans (hasRs2_base base).symm
    rw [has, decoder_rs25]
    exact rs2

theorem legal_of_base (base : isBase (decodeType w) = true)
    (checked : reservedReg (decode w) = false) (real : OpRs1Real w) {pc : U32}
    (target : ∀ target, targetOf w pc v1 v2 = some target → misaligned4 target = false) :
    Legal w pc v1 v2 := by
  have ctl := decoder_of_base base
  obtain ⟨illegal, ecall, ebreak, mret, -, csrOp⟩ := control_plain base
  obtain ⟨rd, rs1, rs2⟩ := registers_of_base base checked real
  exact ⟨(congrArg Control.illegal ctl).trans illegal, rd, rs1, rs2,
    (congrArg Control.csrOp ctl).trans csrOp, target, (congrArg Control.ecall ctl).trans ecall,
    (congrArg Control.ebreak ctl).trans ebreak, (congrArg Control.mret ctl).trans mret⟩

/-- A type that neither jumps nor branches. -/
theorem targetOf_straight (base : isBase (decodeType w) = true)
    (noJump : (control (decodeType w)).jump = false)
    (noBranch : (control (decodeType w)).branchType = .none) (pc v1 v2 : U32) :
    targetOf w pc v1 v2 = none := by
  rw [targetOf_base base, noJump, noBranch]
  rfl

/-- The way out of `execute` without an exception. -/
theorem Retires.of_retire {e0 : EmulatorIss} {rd value next : U32}
    (legal : Legal w e.hart.pc v1 v2) (hart : e0.hart = e.hart) (cfg : e0.cfg = e.cfg)
    (number : rd = if (decoder w).regWrite then (decode w).rd else 0#32)
    (result : (decoder w).regWrite = true → value =
      resultOf w e.hart.pc v1 v2 (loadedOf w (loadOf e.memory w e.hart.pc v1 v2).2))
    (goes : next = nextPcOf w e.hart.pc v1 v2)
    (access : (decoder w).memRead = true ∨ (decoder w).memWrite = true →
      Rtl.inClint (aluOf w e.hart.pc v1 v2) = false)
    (load : (decoder w).memRead = true → (loadOf e.memory w e.hart.pc v1 v2).1 = .ok)
    (store : (decoder w).memWrite = true → (e.memory.store (aluOf w e.hart.pc v1 v2)
      (axiSizeBytes ((decoder w).memSize.setWidth 3)) v2).1 = .ok)
    (memory : e0.memory = performOption (storeOf w e.hart.pc v1 v2) e.memory) :
    Retires e w v1 v2 (e0.retire (decode w) rd value next) where
  legal := legal
  pc := congrArg Hart.pc hart
  inst := rfl
  exception := rfl
  nextPc := goes
  hartPc := goes
  rd := by
    rw [← decode_rd]
    exact number
  rdValue := result
  regs := by
    intro r
    show ({ e0.hart.writeReg rd value with pc := next } : Hart).reg r = _
    have same : ({ e0.hart.writeReg rd value with pc := next } : Hart).reg r =
        (e0.hart.writeReg rd value).reg r := rfl
    rw [same, hart, number]
    cases writes : (decoder w).regWrite with
    | false =>
        rw [if_neg (by simp), if_neg (by simp)]
        rfl
    | true =>
        have has : (decoder w).hasRd = true := (decoder_regWrite w).symm.trans writes
        have field := legal.rd
        rw [has, Bool.true_and, decoder_rd5] at field
        rw [if_pos rfl, decode_rd, writeReg_register _ field, register_low, decoder_rd]
        simp only [true_and]
        rfl
  access := access
  load := load
  store := store
  memory := memory
  cfg := cfg

/-! ## The arms of `execute` -/

/-- What the theorems of this section share: a base word whose registers both models
accept, and operand values for it. -/
structure Operands (e : EmulatorIss) (w v1 v2 : U32) : Prop where
  base : isBase (decodeType w) = true
  checked : reservedReg (decode w) = false
  real : OpRs1Real w
  rs1 : (decoder w).hasRs1 = true → v1 = e.hart.reg (decoder w).rs1
  rs2 : (decoder w).hasRs2 = true → v2 = e.hart.reg (decoder w).rs2

namespace Operands

theorem ctl (ops : Operands e w v1 v2) : Control.of (decoder w) = control (decodeType w) :=
  decoder_of_base ops.base

theorem readReg_rs1 (ops : Operands e w v1 v2)
    (used : (control (decodeType w)).hasRs1 = true) : e.hart.readReg (decode w).rs1 = v1 := by
  have has : (decoder w).hasRs1 = true := (congrArg Control.hasRs1 ops.ctl).trans used
  have field := (registers_of_base ops.base ops.checked ops.real).2.1
  rw [has, Bool.true_and, decoder_rs15] at field
  rw [decode_rs1, readReg_register _ field, register_low, ops.rs1 has, decoder_rs1]

theorem readReg_rs2 (ops : Operands e w v1 v2)
    (used : (control (decodeType w)).hasRs2 = true) : e.hart.readReg (decode w).rs2 = v2 := by
  have has : (decoder w).hasRs2 = true := (congrArg Control.hasRs2 ops.ctl).trans used
  have field := (registers_of_base ops.base ops.checked ops.real).2.2
  rw [has, Bool.true_and, decoder_rs25] at field
  rw [decode_rs2, readReg_register _ field, register_low, ops.rs2 has, decoder_rs2]

/-- The types that only write `rd`. -/
theorem retires_value (ops : Operands e w v1 v2) {value : U32}
    (writes : (control (decodeType w)).regWrite = true)
    (noRead : (control (decodeType w)).memRead = false)
    (noWrite : (control (decodeType w)).memWrite = false)
    (noJump : (control (decodeType w)).jump = false)
    (noBranch : (control (decodeType w)).branchType = .none)
    (result : value = aluOf w e.hart.pc v1 v2) :
    Retires e w v1 v2 (e.retire (decode w) (decode w).rd value (e.hart.pc + 4#32)) := by
  have straight := targetOf_straight ops.base noJump noBranch e.hart.pc v1 v2
  have regWrite : (decoder w).regWrite = true := (congrArg Control.regWrite ops.ctl).trans writes
  have memRead : (decoder w).memRead = false := (congrArg Control.memRead ops.ctl).trans noRead
  have memWrite : (decoder w).memWrite = false := (congrArg Control.memWrite ops.ctl).trans noWrite
  have jump : (decoder w).jump = false := (congrArg Control.jump ops.ctl).trans noJump
  refine Retires.of_retire ?_ rfl rfl ?_ ?_ ?_ ?_ ?_ ?_ ?_
  · exact legal_of_base ops.base ops.checked ops.real (by simp [straight])
  · rw [if_pos regWrite]
  · intro _
    rw [result, resultOf, memRead, jump]
    rfl
  · rw [nextPcOf, straight]
    rfl
  · simp [memRead, memWrite]
  · simp [memRead]
  · simp [memWrite]
  · simp [storeOf, memWrite]

/-- The jumps. -/
theorem retires_jump (ops : Operands e w v1 v2) {target : U32}
    (jumps : (control (decodeType w)).jump = true)
    (writes : (control (decodeType w)).regWrite = true)
    (noRead : (control (decodeType w)).memRead = false)
    (noWrite : (control (decodeType w)).memWrite = false)
    (goes : jumpTarget e.hart.pc (imm w (control (decodeType w)).immSel) v1
      (control (decodeType w)).jumpReg = target)
    (quiet : (e.jump (decode w) target).2.exception = false) :
    Retires e w v1 v2 (e.jump (decode w) target) := by
  have leaves : targetOf w e.hart.pc v1 v2 = some target := by
    rw [targetOf_base ops.base, if_pos jumps, goes]
  have regWrite : (decoder w).regWrite = true := (congrArg Control.regWrite ops.ctl).trans writes
  have memRead : (decoder w).memRead = false := (congrArg Control.memRead ops.ctl).trans noRead
  have memWrite : (decoder w).memWrite = false := (congrArg Control.memWrite ops.ctl).trans noWrite
  have jump : (decoder w).jump = true := (congrArg Control.jump ops.ctl).trans jumps
  unfold EmulatorIss.jump at quiet ⊢
  split_ifs at quiet ⊢ with off
  · contradiction
  · have aligned : misaligned4 target = false := (misaligned4_iff target).mpr (not_not.mp off)
    refine Retires.of_retire ?_ rfl rfl ?_ ?_ ?_ ?_ ?_ ?_ ?_
    · refine legal_of_base ops.base ops.checked ops.real ?_
      intro other same
      rw [leaves] at same
      cases same
      exact aligned
    · rw [if_pos regWrite]
    · intro _
      rw [resultOf, memRead, jump]
      rfl
    · rw [nextPcOf, leaves]
      rfl
    · simp [memRead, memWrite]
    · simp [memRead]
    · simp [memWrite]
    · simp [storeOf, memWrite]

/-- The branches; `taken` is the condition of both models. -/
theorem retires_branch (ops : Operands e w v1 v2) (aligned : misaligned4 e.hart.pc = false)
    (arm : control (decodeType w) = .branch (control (decodeType w)).branchType)
    {taken : Bool} (condition : branchTaken v1 v2 (control (decodeType w)).branchType = taken)
    (offset : (decode w).imm = imm w .b)
    (quiet : (e.branch (decode w) taken).2.exception = false) :
    Retires e w v1 v2 (e.branch (decode w) taken) := by
  have noJump : (control (decodeType w)).jump = false := by rw [arm]; rfl
  have leaves : targetOf w e.hart.pc v1 v2 =
      if taken then some (e.hart.pc + (decode w).imm) else none := by
    have select : (control (decodeType w)).immSel = .b := by rw [arm]; rfl
    rw [targetOf_base ops.base, noJump, condition, select, offset]
    rfl
  have next : (if taken then e.hart.pc + (decode w).imm else e.hart.pc + 4#32) =
      nextPcOf w e.hart.pc v1 v2 := by
    rw [nextPcOf, leaves]
    cases taken <;> rfl
  have regWrite : (decoder w).regWrite = false :=
    (congrArg Control.regWrite ops.ctl).trans (by rw [arm]; rfl)
  have memRead : (decoder w).memRead = false :=
    (congrArg Control.memRead ops.ctl).trans (by rw [arm]; rfl)
  have memWrite : (decoder w).memWrite = false :=
    (congrArg Control.memWrite ops.ctl).trans (by rw [arm]; rfl)
  unfold EmulatorIss.branch at quiet ⊢
  simp only [next] at quiet ⊢
  split_ifs at quiet ⊢ with off
  · contradiction
  · refine Retires.of_retire ?_ rfl rfl ?_ ?_ rfl ?_ ?_ ?_ ?_
    · refine legal_of_base ops.base ops.checked ops.real ?_
      intro target same
      have there : nextPcOf w e.hart.pc v1 v2 = target := by rw [nextPcOf, same]; rfl
      rw [there] at off
      -- A target that is not checked is the next word.
      by_cases near : target = e.hart.pc + 4#32
      · rw [near, misaligned4_add_four]
        exact aligned
      · refine (misaligned4_iff target).mpr ?_
        by_contra bad
        exact off ⟨near, bad⟩
    · rw [regWrite]
      rfl
    · simp [regWrite]
    · simp [memRead, memWrite]
    · simp [memRead]
    · simp [memWrite]
    · simp [storeOf, memWrite]

/-- The access of a load or a store goes to the RAM in both models. -/
theorem access_ram (ops : Operands e w v1 v2) (cfg : e.cfg = {})
    (away : ∀ a, e.dataAddr (decode w) = some a →
      e.cfg.inClint a = false ∧ e.cfg.inUart a = false)
    (reads : (control (decodeType w)).memRead = true ∨ (control (decodeType w)).memWrite = true)
    (used : (control (decodeType w)).hasRs1 = true) :
    e.hart.readReg (decode w).rs1 + (decode w).imm = aluOf w e.hart.pc v1 v2 ∧
      e.cfg.inClint (aluOf w e.hart.pc v1 v2) = false ∧
      e.cfg.inUart (aluOf w e.hart.pc v1 v2) = false ∧
      Rtl.inClint (aluOf w e.hart.pc v1 v2) = false := by
  have addr : e.hart.readReg (decode w).rs1 + (decode w).imm = aluOf w e.hart.pc v1 v2 := by
    rw [ops.readReg_rs1 used, aluOf_access ops.base reads]
  have sized : accessSize (decode w).type ≠ 0#32 := by
    show accessSize (decodeType w) ≠ 0#32
    revert reads
    cases decodeType w <;> decide
  have data : e.dataAddr (decode w) = some (aluOf w e.hart.pc v1 v2) := by
    rw [EmulatorIss.dataAddr, if_neg sized, addr]
  obtain ⟨clint, uart⟩ := away _ data
  refine ⟨addr, clint, uart, ?_⟩
  rw [cfg] at clint
  exact clint

theorem retires_load (ops : Operands e w v1 v2) (cfg : e.cfg = {})
    (away : ∀ a, e.dataAddr (decode w) = some a →
      e.cfg.inClint a = false ∧ e.cfg.inUart a = false)
    (arm : control (decodeType w) =
      .load (control (decodeType w)).memSize (control (decodeType w)).memSext)
    (quiet : (e.executeLoad (decode w) (e.hart.readReg (decode w).rs1 + (decode w).imm)).2.exception
      = false) :
    Retires e w v1 v2
      (e.executeLoad (decode w) (e.hart.readReg (decode w).rs1 + (decode w).imm)) := by
  have reads : (control (decodeType w)).memRead = true := by rw [arm]; rfl
  obtain ⟨addr, clint, uart, outside⟩ :=
    ops.access_ram cfg away (Or.inl reads) (by rw [arm]; rfl)
  have regWrite : (decoder w).regWrite = true :=
    (congrArg Control.regWrite ops.ctl).trans (by rw [arm]; rfl)
  have memRead : (decoder w).memRead = true := (congrArg Control.memRead ops.ctl).trans reads
  have memWrite : (decoder w).memWrite = false :=
    (congrArg Control.memWrite ops.ctl).trans (by rw [arm]; rfl)
  have straight := targetOf_straight ops.base (by rw [arm]; rfl) (by rw [arm]; rfl)
    e.hart.pc v1 v2
  have size := accessSize_load ops.base (Or.inl reads)
  have same : (decode w).type = decodeType w := rfl
  have answer : e.loadMem (aluOf w e.hart.pc v1 v2) (accessSize (decodeType w)) =
      ((loadOf e.memory w e.hart.pc v1 v2).1, (loadOf e.memory w e.hart.pc v1 v2).2, e) := by
    simp only [EmulatorIss.loadMem, clint, uart, Bool.false_eq_true, if_false, loadOf, size]
  have value : EmulatorIss.loadValue (decodeType w) (loadOf e.memory w e.hart.pc v1 v2).2 =
      loadedOf w (loadOf e.memory w e.hart.pc v1 v2).2 := by
    rw [loadOf, size]
    exact loadValue_eq ops.base reads e.memory _
  unfold EmulatorIss.executeLoad at quiet ⊢
  rw [addr, same, answer] at quiet ⊢
  cases result : (loadOf e.memory w e.hart.pc v1 v2).1 with
  | misaligned => rw [result] at quiet; contradiction
  | accessFault => rw [result] at quiet; contradiction
  | ok =>
      rw [result] at quiet
      simp only [value]
      refine Retires.of_retire ?_ rfl rfl ?_ ?_ ?_ (fun _ => outside) (fun _ => result) ?_ ?_
      · exact legal_of_base ops.base ops.checked ops.real (by simp [straight])
      · rw [if_pos regWrite]
      · intro _
        rw [resultOf, if_pos memRead]
      · rw [nextPcOf, straight]
        rfl
      · simp [memWrite]
      · simp [storeOf, memWrite]

theorem retires_store (ops : Operands e w v1 v2) (cfg : e.cfg = {})
    (away : ∀ a, e.dataAddr (decode w) = some a →
      e.cfg.inClint a = false ∧ e.cfg.inUart a = false)
    (arm : control (decodeType w) = .store (control (decodeType w)).memSize)
    (quiet : (e.executeStore (decode w) (e.hart.readReg (decode w).rs1 + (decode w).imm)
      (e.hart.readReg (decode w).rs2)).2.exception = false) :
    Retires e w v1 v2
      (e.executeStore (decode w) (e.hart.readReg (decode w).rs1 + (decode w).imm)
        (e.hart.readReg (decode w).rs2)) := by
  have writes : (control (decodeType w)).memWrite = true := by rw [arm]; rfl
  obtain ⟨addr, clint, uart, outside⟩ :=
    ops.access_ram cfg away (Or.inr writes) (by rw [arm]; rfl)
  have data := ops.readReg_rs2 (by rw [arm]; rfl)
  have regWrite : (decoder w).regWrite = false :=
    (congrArg Control.regWrite ops.ctl).trans (by rw [arm]; rfl)
  have memRead : (decoder w).memRead = false :=
    (congrArg Control.memRead ops.ctl).trans (by rw [arm]; rfl)
  have memWrite : (decoder w).memWrite = true := (congrArg Control.memWrite ops.ctl).trans writes
  have straight := targetOf_straight ops.base (by rw [arm]; rfl) (by rw [arm]; rfl)
    e.hart.pc v1 v2
  have size := accessSize_load ops.base (Or.inr writes)
  have same : (decode w).type = decodeType w := rfl
  have answer : e.storeMem (aluOf w e.hart.pc v1 v2) (accessSize (decodeType w)) v2 =
      ((e.memory.store (aluOf w e.hart.pc v1 v2) (accessSize (decodeType w)) v2).1,
        { e with
          memory := (e.memory.store (aluOf w e.hart.pc v1 v2) (accessSize (decodeType w)) v2).2 }) := by
    simp only [EmulatorIss.storeMem, clint, uart, Bool.false_eq_true, if_false]
  unfold EmulatorIss.executeStore at quiet ⊢
  rw [addr, same, data, answer] at quiet ⊢
  cases result : (e.memory.store (aluOf w e.hart.pc v1 v2) (accessSize (decodeType w)) v2).1 with
  | misaligned => rw [result] at quiet; contradiction
  | accessFault => rw [result] at quiet; contradiction
  | ok =>
      refine Retires.of_retire ?_ rfl rfl ?_ ?_ ?_ (fun _ => outside) ?_ ?_ ?_
      · exact legal_of_base ops.base ops.checked ops.real (by simp [straight])
      · rw [regWrite]
        rfl
      · simp [regWrite]
      · rw [nextPcOf, straight]
        rfl
      · simp [memRead]
      · intro _
        rw [size]
        exact result
      · rw [storeOf, if_pos memWrite, performOption_some, StoreOp.perform, size]

end Operands

/-! ## Every base instruction -/

/-- `execute` without an exception of a word outside `SYSTEM` and `MISC-MEM`. -/
theorem base_of_quiet (quiet : (e.execute (decode w)).2.exception = false)
    (noSystem : opcode w ≠ 0b1110011#7) (noMiscMem : opcode w ≠ 0b0001111#7) :
    isBase (decodeType w) = true ∧ reservedReg (decode w) = false := by
  have checked : reservedReg (decode w) = false := by
    by_contra reserved
    rw [Bool.not_eq_false] at reserved
    rw [EmulatorIss.execute, if_pos reserved] at quiet
    contradiction
  refine ⟨?_, checked⟩
  have typed : (decode w).type = decodeType w := rfl
  rw [EmulatorIss.execute, checked, typed] at quiet
  cases type : decodeType w with
  | unknown => rw [type] at quiet; contradiction
  | fence | fenceI =>
      have code := (decodeType_fields (w := w) (by rw [type]; exact rfl)).1
      exact absurd code noMiscMem
  | ecall | ebreak | mret | wfi | csrrw | csrrs | csrrc | csrrwi | csrrsi | csrrci =>
      have code := (decodeType_fields (w := w) (by rw [type]; exact rfl)).1
      exact absurd code noSystem
  | _ => rfl

/-- A word outside `SYSTEM` and `MISC-MEM` that raises nothing, accesses no device and is
no `OP` word with a reserved `rs1` retires as the RTL's datapath has it. -/
theorem execute_retires (cfg : e.cfg = {}) (aligned : misaligned4 e.hart.pc = false)
    (quiet : (e.execute (decode w)).2.exception = false)
    (noSystem : opcode w ≠ 0b1110011#7) (noMiscMem : opcode w ≠ 0b0001111#7)
    (away : ∀ a, e.dataAddr (decode w) = some a →
      e.cfg.inClint a = false ∧ e.cfg.inUart a = false)
    (real : OpRs1Real w) (rs1 : (decoder w).hasRs1 = true → v1 = e.hart.reg (decoder w).rs1)
    (rs2 : (decoder w).hasRs2 = true → v2 = e.hart.reg (decoder w).rs2) :
    Retires e w v1 v2 (e.execute (decode w)) := by
  obtain ⟨base, checked⟩ := base_of_quiet quiet noSystem noMiscMem
  have ops : Operands e w v1 v2 := ⟨base, checked, real, rs1, rs2⟩
  have typed : (decode w).type = decodeType w := rfl
  have offset : (decode w).imm = decodeImm w (decodeType w) := rfl
  unfold EmulatorIss.execute at quiet ⊢
  simp only [checked, Bool.false_eq_true, if_false, typed] at quiet ⊢
  cases type : decodeType w with
  | addi | slti | sltiu | xori | ori | andi | slli | srli | srai =>
      refine ops.retires_value ?_ ?_ ?_ ?_ ?_ ?_
      iterate 5 rw [type]; rfl
      rw [aluOf_opImm base (by rw [type]; rfl), type, ops.readReg_rs1 (by rw [type]; rfl)]
  | add | sub | sll | slt | sltu | xor | srl | sra | or | and =>
      refine ops.retires_value ?_ ?_ ?_ ?_ ?_ ?_
      iterate 5 rw [type]; rfl
      rw [aluOf_op base (by rw [type]; rfl), type, ops.readReg_rs1 (by rw [type]; rfl),
        ops.readReg_rs2 (by rw [type]; rfl)]
  | lui =>
      refine ops.retires_value ?_ ?_ ?_ ?_ ?_ (aluOf_lui type).symm
      iterate 5 rw [type]; rfl
  | auipc =>
      refine ops.retires_value ?_ ?_ ?_ ?_ ?_ (aluOf_auipc type).symm
      iterate 5 rw [type]; rfl
  | jal =>
      simp only [type] at quiet
      refine ops.retires_jump ?_ ?_ ?_ ?_ ?_ quiet
      iterate 4 rw [type]; rfl
      rw [type, offset, type]
      exact congrArg (e.hart.pc + ·) (immJ_eq w).symm
  | jalr =>
      simp only [type] at quiet
      refine ops.retires_jump ?_ ?_ ?_ ?_ ?_ quiet
      iterate 4 rw [type]; rfl
      rw [type, offset, type, ops.readReg_rs1 (by rw [type]; rfl)]
      exact congrArg (fun i => (v1 + i) &&& 0xFFFFFFFE#32) (immI_eq w).symm
  | beq | bne | blt | bge | bltu | bgeu =>
      simp only [type] at quiet
      have condition := branchCondition_eq (decodeType w) v1 v2
      rw [ops.readReg_rs1 (by rw [type]; rfl), ops.readReg_rs2 (by rw [type]; rfl)] at quiet ⊢
      rw [type] at condition
      refine ops.retires_branch aligned ?_ ?_ ?_ quiet
      · rw [type]
        rfl
      · rw [type]
        exact condition.symm
      · rw [offset, type]
        exact immB_eq w
  | lb | lh | lw | lbu | lhu =>
      simp only [type] at quiet
      exact ops.retires_load cfg away (by rw [type]; rfl) quiet
  | sb | sh | sw =>
      simp only [type] at quiet
      exact ops.retires_store cfg away (by rw [type]; rfl) quiet
  | _ =>
      rw [type] at base
      contradiction

end

end NpcMachine.Emulator
