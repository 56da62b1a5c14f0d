/-
# Emulator.PreciseTrap -- a trap of the reference model moves nothing but the trap state

Whatever the way into the trap, the step leaves `mepc`, `mcause` and `pc` as the exception
sets them, one tick and a commit.
-/
import NpcMachine.Emulator.Outcome
import NpcMachine.Emulator.DecodeAgree

namespace NpcMachine.Emulator

set_option autoImplicit false

namespace EmulatorIss

variable {s : EmulatorIss} {d : DecodedInst}

/-! ## What a trap leaves alone -/

/-- Equal but for the hart, the event ring and the count of events. -/
structure SameMachine (s after : EmulatorIss) : Prop where
  cfg : after.cfg = s.cfg
  memory : after.memory = s.memory
  clint : after.clint = s.clint
  uart : after.uart = s.uart
  cycle : after.cycle = s.cycle

theorem Outcome.quiet {out : EmulatorIss × CommitEvent} (outcome : Outcome s d out)
    (raised : out.2.exception = true) : SameMachine s out.1 := by
  cases outcome with
  | trap cause => exact ⟨rfl, rfl, rfl, rfl, rfl⟩
  | halt => exact ⟨rfl, rfl, rfl, rfl, rfl⟩
  | retire moved rd value next => cases raised

theorem stepBody_quiet (raised : s.stepBody.2.exception = true) :
    SameMachine s s.stepBody.1 := by
  have ways := s.stepBody_cases
  generalize s.stepBody = out at ways raised ⊢
  cases ways with
  | fetch inst cause => exact ⟨rfl, rfl, rfl, rfl, rfl⟩
  | execute outcome => exact outcome.quiet raised

/-! ## Breakpoints -/

theorem decodeType_ebreak {w : U32} : decodeType w = .ebreak ↔ w = 0x00100073#32 := by
  constructor
  · intro type
    have whole : ∀ e ∈ decodeTable, e.type = .ebreak →
        e.mask = 0xFFFFFFFF#32 ∧ e.code = 0x00100073#32 := by decide
    obtain ⟨e, mem, same, hit⟩ := decodeType_entry (w := w) (by rw [type]; simp)
    obtain ⟨mask, code⟩ := whole e mem (same.trans type)
    rw [mask, code] at hit
    calc w = w &&& 0xFFFFFFFF#32 := (BitVec.and_allOnes (w := 32)).symm
      _ = 0x00100073#32 := hit
  · rintro rfl
    decide

theorem executeCause_breakpoint :
    s.executeCause d = some causeBreakpoint ↔ reservedReg d = false ∧ d.type = .ebreak := by
  have others : some causeIllegalInst ≠ some causeBreakpoint ∧
      some causeInstMisaligned ≠ some causeBreakpoint ∧
      some causeLoadMisaligned ≠ some causeBreakpoint ∧
      some causeLoadAccessFault ≠ some causeBreakpoint ∧
      some causeStoreMisaligned ≠ some causeBreakpoint ∧
      some causeStoreAccessFault ≠ some causeBreakpoint ∧
      some causeEcallM ≠ some causeBreakpoint := by decide
  obtain ⟨illegal, jump, loadOff, loadFault, storeOff, storeFault, ecall⟩ := others
  cases checked : reservedReg d with
  | true => simp [executeCause, checked, illegal]
  | false =>
      unfold executeCause
      rw [checked]
      cases type : d.type with
      | lb | lh | lw | lbu | lhu =>
          simp only [Bool.false_eq_true, if_false]
          split <;> simp [loadOff, loadFault]
      | sb | sh | sw =>
          simp only [Bool.false_eq_true, if_false]
          split <;> simp [storeOff, storeFault]
      | csrrw | csrrs | csrrc | csrrwi | csrrsi | csrrci =>
          simp only [Bool.false_eq_true, if_false]
          split
          · simp [illegal]
          · split_ifs <;> simp [illegal]
      | jal | jalr | beq | bne | blt | bge | bltu | bgeu =>
          simp only [Bool.false_eq_true, if_false]
          split_ifs <;> simp [jump]
      | _ => simp [illegal, ecall]

/-- A step breaks on the word of EBREAK and on no other. -/
theorem stepCause_breakpoint : s.stepCause = some causeBreakpoint ↔
    s.memory.fetch s.hart.pc 0#32 = (.ok, 0x00100073#32) := by
  unfold stepCause
  rcases s.memory.fetch s.hart.pc 0#32 with ⟨result, inst⟩
  cases result with
  | misaligned =>
      have other : some causeInstMisaligned ≠ some causeBreakpoint := by decide
      simp [other]
  | accessFault =>
      have other : some causeInstAccessFault ≠ some causeBreakpoint := by decide
      simp [other]
  | ok =>
      have type : (decode inst).type = decodeType inst := rfl
      rw [executeCause_breakpoint, type, decodeType_ebreak, Prod.mk.injEq]
      constructor
      · exact fun ⟨_, word⟩ => ⟨rfl, word⟩
      · rintro ⟨-, rfl⟩
        exact ⟨by decide, rfl⟩

/-! ## Precise traps -/

/-- What a trap did to the state. -/
structure TrapPrecise (s after : EmulatorIss) (ev : CommitEvent) : Prop where
  regs : after.hart.x = s.hart.x
  mstatus : after.hart.mstatus = s.hart.mstatus
  mtvec : after.hart.mtvec = s.hart.mtvec
  memory : after.memory = s.memory
  uart : after.uart = s.uart
  clint : after.clint = s.clint.tick
  mepc : after.hart.mepc = s.hart.pc
  mcause : s.stepCause = some after.hart.mcause
  reported : ev.cause = after.hart.mcause
  pc : after.hart.pc = s.hart.mtvec
  halted : after.hart.halted = true ↔ s.memory.fetch s.hart.pc 0#32 = (.ok, 0x00100073#32)

theorem trap_precise {after : EmulatorIss} {ev : CommitEvent}
    (step : s.stepInst = some (after, ev)) (trap : ev.exception = true) :
    TrapPrecise s after ev := by
  have running : s.hart.halted = false := by
    cases halted : s.hart.halted with
    | false => rfl
    | true => simp [stepInst, halted] at step
  obtain ⟨cause, raises, hart, causes⟩ : ∃ cause, s.stepCause = some cause ∧
      after.hart = (haltOn s.hart cause).takeException cause ∧ ev.cause = cause := by
    cases s.step_cases step with
    | fetch cause _ raises hart _ _ causes => exact ⟨cause, raises, hart, causes⟩
    | trap cause _ raises hart _ _ causes => exact ⟨cause, raises, hart, causes⟩
    | retire _ _ _ _ exception => rw [exception] at trap; contradiction
  have same : SameMachine s s.stepBody.1 ∧ after = s.stepBody.1.tick := by
    rw [stepInst, running, if_neg (by simp)] at step
    cases step
    exact ⟨stepBody_quiet trap, rfl⟩
  obtain ⟨machine, ticked⟩ := same
  refine
    { regs := by rw [hart]; rfl
      mstatus := by rw [hart]; rfl
      mtvec := by rw [hart]; rfl
      memory := by rw [ticked]; exact machine.memory
      uart := by rw [ticked]; exact machine.uart
      clint := ?_
      mepc := by rw [hart]; rfl
      mcause := by rw [hart]; exact raises
      reported := by rw [hart]; exact causes
      pc := by rw [hart]; rfl
      halted := ?_ }
  · rw [ticked]
    exact congrArg Clint.tick machine.clint
  · rw [← stepCause_breakpoint, raises, hart]
    show (s.hart.halted || cause == causeBreakpoint) = true ↔ _
    rw [running, Bool.false_or, beq_iff_eq, Option.some_inj]

/-- `lw x2, 0(x1)` with `x1` off a word, amid a run. -/
def strayLoad : EmulatorIss :=
  { EmulatorIss.create {} with
    hart :=
      { pc := 0x20000004#32
        x := fun r => if r = 0#4 then 0#32 else 0x20000100#32 + r.setWidth 32
        halted := false
        mstatus := 0x8#32
        mepc := 0x20000040#32
        mtvec := 0x20000080#32
        mcause := 11#32 }
    memory := Memory.ofWords [0x00000013#32, 0x0000A103#32]
    clint := ⟨{}, 41#64⟩
    uart := ⟨[0x61#8], [0x62#8]⟩ }

theorem trap_precise_strayLoad :
    TrapPrecise strayLoad strayLoad.stepBody.1.tick strayLoad.stepBody.2 :=
  trap_precise rfl (by decide)

end EmulatorIss

end NpcMachine.Emulator
