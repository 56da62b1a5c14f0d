/-
# Emulator.StepEvent -- what a commit event of the reference model says about its step

`step_cases` lists the ways through `step_inst`: a failed fetch, an exception of
`execute`, or a retired instruction.

* `eventDescribes_iff`: the event describes the step in every field, but for a failed
  fetch, whose event carries the handler's pc;
* `hart_determined`: two runs from one reset address whose events match pairwise have
  equal harts, whatever their memories and devices hold.
-/
import NpcMachine.Emulator.Difftest

namespace NpcMachine.Emulator

set_option autoImplicit false

/-! ## The exception of a step -/

/-- The exception that `execute` raises for an instruction, and with which cause. -/
def EmulatorIss.executeCause (s : EmulatorIss) (d : DecodedInst) : Option U32 :=
  let op1 := s.hart.readReg d.rs1
  let op2 := s.hart.readReg d.rs2
  if reservedReg d then some causeIllegalInst
  else
    match d.type with
    | .jal => if (s.hart.pc + d.imm) &&& 3#32 ≠ 0#32 then some causeInstMisaligned else none
    | .jalr =>
        if ((op1 + d.imm) &&& 0xFFFFFFFE#32) &&& 3#32 ≠ 0#32 then some causeInstMisaligned
        else none
    | .beq | .bne | .blt | .bge | .bltu | .bgeu =>
        if branchCondition d.type op1 op2 = true ∧ s.hart.pc + d.imm ≠ s.hart.pc + 4#32 ∧
            (s.hart.pc + d.imm) &&& 3#32 ≠ 0#32 then some causeInstMisaligned
        else none
    | .lb | .lh | .lw | .lbu | .lhu =>
        match (s.loadMem (op1 + d.imm) (accessSize d.type)).1 with
        | .ok => none
        | .misaligned => some causeLoadMisaligned
        | .accessFault => some causeLoadAccessFault
    | .sb | .sh | .sw =>
        match (s.storeMem (op1 + d.imm) (accessSize d.type) op2).1 with
        | .ok => none
        | .misaligned => some causeStoreMisaligned
        | .accessFault => some causeStoreAccessFault
    | .ecall => some causeEcallM
    | .ebreak => some causeBreakpoint
    | .csrrw | .csrrs | .csrrc | .csrrwi | .csrrsi | .csrrci =>
        match s.hart.readCsr d.csr with
        | none => some causeIllegalInst
        | some old =>
            let update := csrUpdate d old (if d.isCsrImm then d.imm else op1)
            if update.2 = true ∧ s.hart.writeCsr d.csr update.1 = none then
              some causeIllegalInst
            else none
    | .unknown => some causeIllegalInst
    | _ => none

/-- The exception of a step: of the fetch or of the fetched instruction. -/
def EmulatorIss.stepCause (s : EmulatorIss) : Option U32 :=
  match s.memory.fetch s.hart.pc 0#32 with
  | (.misaligned, _) => some causeInstMisaligned
  | (.accessFault, _) => some causeInstAccessFault
  | (.ok, inst) => s.executeCause (decode inst)

/-- The hart after the CSR write of an instruction. -/
def csrHart (h : Hart) (d : DecodedInst) : Hart :=
  match d.type with
  | .csrrw | .csrrs | .csrrc | .csrrwi | .csrrsi | .csrrci =>
      match h.readCsr d.csr with
      | none => h
      | some old =>
          let update := csrUpdate d old (if d.isCsrImm then d.imm else h.readReg d.rs1)
          if update.2 then (h.writeCsr d.csr update.1).getD h else h
  | _ => h

/-- An EBREAK halts the hart before it traps. -/
def haltOn (h : Hart) (cause : U32) : Hart :=
  { h with halted := h.halted || cause == causeBreakpoint }

theorem haltOn_other {h : Hart} {cause : U32} (other : cause ≠ causeBreakpoint) :
    haltOn h cause = h := by
  have none : (cause == causeBreakpoint) = false := by simpa using other
  rw [haltOn, none, Bool.or_false]

theorem writeCsr_keeps {h after : Hart} {addr value : U32}
    (writes : h.writeCsr addr value = some after) :
    after.x = h.x ∧ after.pc = h.pc ∧ after.halted = h.halted := by
  unfold Hart.writeCsr at writes
  split_ifs at writes <;> cases writes <;> exact ⟨rfl, rfl, rfl⟩

theorem csrHart_keeps (h : Hart) (d : DecodedInst) :
    (csrHart h d).x = h.x ∧ (csrHart h d).pc = h.pc ∧ (csrHart h d).halted = h.halted := by
  unfold csrHart
  split
  case h_7 => exact ⟨rfl, rfl, rfl⟩
  all_goals
    cases h.readCsr d.csr with
    | none => exact ⟨rfl, rfl, rfl⟩
    | some old =>
        simp only
        generalize csrUpdate d old (if d.isCsrImm then d.imm else h.readReg d.rs1) = update
        cases update.2 with
        | false => exact ⟨rfl, rfl, rfl⟩
        | true =>
            cases writes : h.writeCsr d.csr update.1 with
            | none => exact ⟨rfl, rfl, rfl⟩
            | some after => exact writeCsr_keeps writes

namespace EmulatorIss

variable {s : EmulatorIss} {d : DecodedInst}

/-! ## The ways through `execute` -/

/-- `execute` traps, or it retires an instruction that names a register or none. -/
inductive ExecCase (s : EmulatorIss) (d : DecodedInst) (out : EmulatorIss × CommitEvent) : Prop where
  | trap (from_ : EmulatorIss) (cause : U32) (hart : from_.hart = haltOn s.hart cause)
      (raises : s.executeCause d = some cause) (leaves : out = from_.trap d cause)
  | retire (from_ : EmulatorIss) (rd value next : U32) (hart : from_.hart = csrHart s.hart d)
      (quiet : s.executeCause d = none) (real : rd.ult gprCount = true)
      (leaves : out = from_.retire d rd value next)

/-- The checked destination of a type that has one. -/
theorem rd_real (checked : reservedReg d = false) (known : d.type ≠ .unknown)
    (has : hasRd d.type = true) : d.rd.ult gprCount = true := by
  have type : (d.type != .unknown) = true := by simpa using known
  rw [reservedReg, type, has, Bool.true_and, Bool.true_and, Bool.or_eq_false_iff,
    Bool.or_eq_false_iff] at checked
  have small := checked.1.1
  rw [BitVec.ule_eq_decide, decide_eq_false_iff_not, Nat.not_le] at small
  simpa [BitVec.ult_eq_decide] using small

theorem zero_real : (0#32).ult gprCount = true := by decide

theorem jump_cases {target : U32}
    (cause : s.executeCause d =
      if target &&& 3#32 ≠ 0#32 then some causeInstMisaligned else none)
    (keeps : csrHart s.hart d = s.hart) (real : d.rd.ult gprCount = true) :
    ExecCase s d (s.jump d target) := by
  unfold EmulatorIss.jump
  split_ifs with off
  · rw [if_pos off] at cause
    exact .trap s causeInstMisaligned (haltOn_other (by decide)).symm cause rfl
  · rw [if_neg off] at cause
    exact .retire s _ _ _ keeps.symm cause real rfl

theorem branch_cases {taken : Bool}
    (cause : s.executeCause d =
      if taken = true ∧ s.hart.pc + d.imm ≠ s.hart.pc + 4#32 ∧
        (s.hart.pc + d.imm) &&& 3#32 ≠ 0#32 then some causeInstMisaligned else none)
    (keeps : csrHart s.hart d = s.hart) : ExecCase s d (s.branch d taken) := by
  unfold EmulatorIss.branch
  cases taken with
  | false =>
      rw [if_neg (by simp)] at cause
      simp only [Bool.false_eq_true, if_false]
      rw [if_neg (by simp)]
      exact .retire s _ _ _ keeps.symm cause zero_real rfl
  | true =>
      simp only [if_true]
      by_cases off : s.hart.pc + d.imm ≠ s.hart.pc + 4#32 ∧ (s.hart.pc + d.imm) &&& 3#32 ≠ 0#32
      · rw [if_pos ⟨rfl, off⟩] at cause
        rw [if_pos off]
        exact .trap s causeInstMisaligned (haltOn_other (by decide)).symm cause rfl
      · rw [if_neg (fun both => off both.2)] at cause
        rw [if_neg off]
        exact .retire s _ _ _ keeps.symm cause zero_real rfl

/-- A load does not touch the hart. -/
theorem loadMem_hart (addr size : U32) : (s.loadMem addr size).2.2.hart = s.hart := by
  unfold loadMem
  split_ifs
  · rfl
  · split <;> rfl
  · split <;> rfl
  · rfl

theorem storeMem_hart (addr size data : U32) : (s.storeMem addr size data).2.hart = s.hart := by
  unfold storeMem
  split_ifs
  · rfl
  · split <;> rfl
  · split <;> rfl
  · rfl

theorem load_cases {addr : U32}
    (cause : s.executeCause d = match (s.loadMem addr (accessSize d.type)).1 with
      | .ok => none
      | .misaligned => some causeLoadMisaligned
      | .accessFault => some causeLoadAccessFault)
    (keeps : csrHart s.hart d = s.hart) (real : d.rd.ult gprCount = true) :
    ExecCase s d (s.executeLoad d addr) := by
  have hart := s.loadMem_hart addr (accessSize d.type)
  unfold executeLoad
  rcases answer : s.loadMem addr (accessSize d.type) with ⟨result, value, after⟩
  rw [answer] at cause hart
  cases result with
  | ok => exact .retire after _ _ _ (hart.trans keeps.symm) cause real rfl
  | misaligned =>
      exact .trap after causeLoadMisaligned (hart.trans (haltOn_other (by decide)).symm) cause rfl
  | accessFault =>
      exact .trap after causeLoadAccessFault (hart.trans (haltOn_other (by decide)).symm) cause rfl

theorem store_cases {addr data : U32}
    (cause : s.executeCause d = match (s.storeMem addr (accessSize d.type) data).1 with
      | .ok => none
      | .misaligned => some causeStoreMisaligned
      | .accessFault => some causeStoreAccessFault)
    (keeps : csrHart s.hart d = s.hart) : ExecCase s d (s.executeStore d addr data) := by
  have hart := s.storeMem_hart addr (accessSize d.type) data
  unfold executeStore
  rcases answer : s.storeMem addr (accessSize d.type) data with ⟨result, after⟩
  rw [answer] at cause hart
  cases result with
  | ok => exact .retire after _ _ _ (hart.trans keeps.symm) cause zero_real rfl
  | misaligned =>
      exact .trap after causeStoreMisaligned (hart.trans (haltOn_other (by decide)).symm) cause rfl
  | accessFault =>
      exact .trap after causeStoreAccessFault (hart.trans (haltOn_other (by decide)).symm) cause
        rfl

theorem csr_cases
    (cause : s.executeCause d = match s.hart.readCsr d.csr with
      | none => some causeIllegalInst
      | some old =>
          let update := csrUpdate d old (if d.isCsrImm then d.imm else s.hart.readReg d.rs1)
          if update.2 = true ∧ s.hart.writeCsr d.csr update.1 = none then some causeIllegalInst
          else none)
    (writes : csrHart s.hart d = match s.hart.readCsr d.csr with
      | none => s.hart
      | some old =>
          let update := csrUpdate d old (if d.isCsrImm then d.imm else s.hart.readReg d.rs1)
          if update.2 then (s.hart.writeCsr d.csr update.1).getD s.hart else s.hart)
    (real : d.rd.ult gprCount = true) : ExecCase s d (s.executeCsr d) := by
  unfold executeCsr
  cases read : s.hart.readCsr d.csr with
  | none =>
      rw [read] at cause
      exact .trap s causeIllegalInst (haltOn_other (by decide)).symm cause rfl
  | some old =>
      rw [read] at cause writes
      simp only at cause writes ⊢
      generalize csrUpdate d old (if d.isCsrImm then d.imm else s.hart.readReg d.rs1) = update
        at cause writes ⊢
      cases does : update.2 with
      | false =>
          rw [does] at cause writes
          rw [if_neg (by simp)] at cause writes
          exact .retire s _ _ _ writes.symm cause real rfl
      | true =>
          rw [does, if_pos rfl] at writes
          cases written : s.hart.writeCsr d.csr update.1 with
          | none =>
              rw [does, written, if_pos ⟨rfl, rfl⟩] at cause
              exact .trap s causeIllegalInst (haltOn_other (by decide)).symm cause rfl
          | some hart =>
              rw [written] at cause writes
              rw [if_neg (by simp)] at cause
              exact .retire { s with hart := hart } _ _ _ writes.symm cause real rfl

theorem execute_cases (s : EmulatorIss) (d : DecodedInst) : ExecCase s d (s.execute d) := by
  cases checked : reservedReg d with
  | true =>
      have cause : s.executeCause d = some causeIllegalInst := by
        rw [executeCause, if_pos checked]
      rw [execute, if_pos checked]
      exact .trap s causeIllegalInst (haltOn_other (by decide)).symm cause rfl
  | false =>
      have real := rd_real checked
      cases type : d.type with
      | addi | slti | sltiu | xori | ori | andi | slli | srli | srai | add | sub | sll | slt
      | sltu | xor | srl | sra | or | and | lui | auipc =>
          simp only [execute, checked, type, Bool.false_eq_true, if_false]
          refine .retire s _ _ _ (by rw [csrHart, type]) ?_
            (real (by rw [type]; decide) (by rw [type]; rfl)) rfl
          simp only [executeCause, checked, type, Bool.false_eq_true, if_false]
      | jal | jalr =>
          simp only [execute, checked, type, Bool.false_eq_true, if_false]
          refine jump_cases ?_ (by rw [csrHart, type])
            (real (by rw [type]; decide) (by rw [type]; rfl))
          simp only [executeCause, checked, type, Bool.false_eq_true, if_false]
      | beq | bne | blt | bge | bltu | bgeu =>
          simp only [execute, checked, type, Bool.false_eq_true, if_false]
          refine branch_cases ?_ (by rw [csrHart, type])
          simp only [executeCause, checked, type, Bool.false_eq_true, if_false]
      | lb | lh | lw | lbu | lhu =>
          simp only [execute, checked, type, Bool.false_eq_true, if_false]
          refine load_cases ?_ (by rw [csrHart, type])
            (real (by rw [type]; decide) (by rw [type]; rfl))
          simp only [executeCause, checked, type, Bool.false_eq_true, if_false]
      | sb | sh | sw =>
          simp only [execute, checked, type, Bool.false_eq_true, if_false]
          refine store_cases ?_ (by rw [csrHart, type])
          simp only [executeCause, checked, type, Bool.false_eq_true, if_false]
      | fence | fenceI | wfi | mret =>
          simp only [execute, checked, type, Bool.false_eq_true, if_false]
          refine .retire s _ _ _ (by rw [csrHart, type]) ?_ zero_real rfl
          simp only [executeCause, checked, type, Bool.false_eq_true, if_false]
      | ecall =>
          simp only [execute, checked, type, Bool.false_eq_true, if_false]
          refine .trap s causeEcallM (haltOn_other (by decide)).symm ?_ rfl
          simp only [executeCause, checked, type, Bool.false_eq_true, if_false]
      | ebreak =>
          simp only [execute, checked, type, Bool.false_eq_true, if_false]
          refine .trap { s with hart := { s.hart with halted := true } } causeBreakpoint ?_ ?_ rfl
          · simp [haltOn]
          · simp only [executeCause, checked, type, Bool.false_eq_true, if_false]
      | csrrw | csrrs | csrrc | csrrwi | csrrsi | csrrci =>
          simp only [execute, checked, type, Bool.false_eq_true, if_false]
          refine csr_cases ?_ (by rw [csrHart, type])
            (real (by rw [type]; decide) (by rw [type]; rfl))
          simp only [executeCause, checked, type, Bool.false_eq_true, if_false]
      | unknown =>
          simp only [execute, checked, type, Bool.false_eq_true, if_false]
          refine .trap s causeIllegalInst (haltOn_other (by decide)).symm ?_ rfl
          simp only [executeCause, checked, type, Bool.false_eq_true, if_false]

/-! ## The ways through `step_inst` -/

/-- What the event and the hart after the step are, by the way through `step_inst`. -/
inductive StepCase (s after : EmulatorIss) (ev : CommitEvent) : Prop where
  | fetch (cause : U32) (failed : (s.memory.fetch s.hart.pc 0#32).1 ≠ .ok)
      (raises : s.stepCause = some cause)
      (hart : after.hart = (haltOn s.hart cause).takeException cause)
      (pc : ev.pc = after.hart.pc) (exception : ev.exception = true) (causes : ev.cause = cause)
      (rd : ev.rd = 0#32) (nextPc : ev.nextPc = after.hart.pc)
  | trap (cause : U32) (fetched : (s.memory.fetch s.hart.pc 0#32).1 = .ok)
      (raises : s.stepCause = some cause)
      (hart : after.hart = (haltOn s.hart cause).takeException cause)
      (pc : ev.pc = s.hart.pc) (exception : ev.exception = true) (causes : ev.cause = cause)
      (rd : ev.rd = 0#32) (nextPc : ev.nextPc = after.hart.pc)
  | retire (fetched : (s.memory.fetch s.hart.pc 0#32).1 = .ok) (quiet : s.stepCause = none)
      (hart : after.hart = { (csrHart s.hart (decode ev.inst)).writeReg ev.rd ev.rdValue with
        pc := ev.nextPc })
      (pc : ev.pc = s.hart.pc) (exception : ev.exception = false)
      (real : ev.rd.ult gprCount = true)

theorem step_cases {after : EmulatorIss} {ev : CommitEvent}
    (step : s.stepInst = some (after, ev)) : StepCase s after ev := by
  obtain ⟨-, rfl, rfl⟩ := stepInst_some step
  unfold stepBody
  rcases fetched : s.memory.fetch s.hart.pc 0#32 with ⟨result, inst⟩
  have raises : s.stepCause = match (result, inst) with
      | (.misaligned, _) => some causeInstMisaligned
      | (.accessFault, _) => some causeInstAccessFault
      | (.ok, inst) => s.executeCause (decode inst) := by rw [stepCause, fetched]
  have first := congrArg Prod.fst fetched
  cases result with
  | misaligned =>
      refine .fetch causeInstMisaligned (by rw [first]; simp) raises ?_ rfl rfl rfl rfl rfl
      rw [haltOn_other (by decide)]
      rfl
  | accessFault =>
      refine .fetch causeInstAccessFault (by rw [first]; simp) raises ?_ rfl rfl rfl rfl rfl
      rw [haltOn_other (by decide)]
      rfl
  | ok =>
      simp only at raises ⊢
      cases s.execute_cases (decode inst) with
      | trap from_ cause hart fails leaves =>
          rw [leaves]
          refine .trap cause first (raises.trans fails) ?_ ?_ rfl rfl rfl rfl
          · show from_.hart.takeException cause = _
            rw [hart]
          · show from_.hart.pc = _
            rw [hart]
            rfl
      | retire from_ rd value next hart quiet real leaves =>
          rw [leaves]
          have word : (decode inst).inst = inst := rfl
          refine .retire first (raises.trans quiet) ?_ ?_ rfl real
          · show { from_.hart.writeReg rd value with pc := next } = _
            rw [hart]
            rfl
          · show from_.hart.pc = _
            rw [hart]
            exact (csrHart_keeps s.hart _).2.1

end EmulatorIss

/-! ## The event describes the step -/

structure EventDescribes (s after : EmulatorIss) (ev : CommitEvent) : Prop where
  pc : ev.pc = s.hart.pc
  nextPc : ev.nextPc = after.hart.pc
  exception : ev.exception = s.stepCause.isSome
  trap : ev.exception = true → ev.cause = after.hart.mcause ∧ after.hart.mepc = ev.pc ∧
    ev.nextPc = after.hart.mtvec
  regs : after.hart.x =
    if ev.rd = 0#32 then s.hart.x else Function.update s.hart.x (ev.rd.setWidth 4) ev.rdValue

/-- A failed fetch reports the handler's pc; every other step reports its own. -/
theorem eventDescribes_iff {s after : EmulatorIss} {ev : CommitEvent}
    (step : s.stepInst = some (after, ev)) :
    EventDescribes s after ev ↔
      (s.memory.fetch s.hart.pc 0#32).1 = .ok ∨ s.hart.mtvec = s.hart.pc := by
  have trapHart : ∀ cause, ((haltOn s.hart cause).takeException cause).pc = s.hart.mtvec :=
    fun _ => rfl
  cases s.step_cases step with
  | fetch cause failed raises hart pc exception causes rd nextPc =>
      rw [hart, trapHart] at pc nextPc
      constructor
      · intro describes
        exact .inr (pc.symm.trans describes.pc)
      · intro meets
        have same := meets.resolve_left failed
        refine ⟨pc.trans same, ?_, ?_, ?_, ?_⟩
        · rw [hart, trapHart, nextPc]
        · rw [raises, exception]
          rfl
        · intro _
          rw [hart, pc, nextPc, causes, same]
          exact ⟨rfl, rfl, same.symm⟩
        · rw [if_pos rd, hart]
          rfl
  | trap cause fetched raises hart pc exception causes rd nextPc =>
      refine iff_of_true ⟨pc, nextPc, ?_, ?_, ?_⟩ (.inl fetched)
      · rw [raises, exception]
        rfl
      · intro _
        rw [nextPc, hart, pc, causes]
        exact ⟨rfl, rfl, rfl⟩
      · rw [if_pos rd, hart]
        rfl
  | retire fetched quiet hart pc exception real =>
      refine iff_of_true ⟨pc, ?_, ?_, ?_, ?_⟩ (.inl fetched)
      · rw [hart]
      · rw [quiet, exception]
        rfl
      · rw [exception]
        intro never
        contradiction
      · have small : gprCount.ule ev.rd = false := by
          rw [BitVec.ule_eq_not_ult, real]
          rfl
        rw [hart]
        simp only [Hart.writeReg, small, Bool.or_false, beq_iff_eq, (csrHart_keeps s.hart _).1]
        split_ifs with zero
        · exact (csrHart_keeps s.hart _).1
        · rfl

/-- A word of zeros at the reset vector is illegal, and its event says so. -/
theorem eventDescribes_zeros :
    EventDescribes (.create {}) (EmulatorIss.create {}).stepBody.1.tick
        (EmulatorIss.create {}).stepBody.2 ↔
      ((EmulatorIss.create {}).memory.fetch (EmulatorIss.create {}).hart.pc 0#32).1 = .ok ∨
        (EmulatorIss.create {}).hart.mtvec = (EmulatorIss.create {}).hart.pc :=
  eventDescribes_iff rfl

/-- Reset outside the RAM: the event of the fetch fault has the handler's pc 0. -/
theorem fetchFault_reports_handler :
    ((EmulatorIss.create {}).reset 0x10#32).hart.halted = false ∧
      ∃ after ev, ((EmulatorIss.create {}).reset 0x10#32).stepInst = some (after, ev) ∧
        ev.pc = 0#32 ∧ ((EmulatorIss.create {}).reset 0x10#32).hart.pc = 0x10#32 ∧
        ¬ EventDescribes ((EmulatorIss.create {}).reset 0x10#32) after ev :=
  ⟨rfl, _, _, rfl, by decide, rfl, fun describes => absurd describes.pc (by decide)⟩

/-! ## Matching events determine the hart -/

/-- The hart after a step, from the hart before it and the event. -/
def hartAfter (h : Hart) (ev : CommitEvent) : Hart :=
  if ev.exception then (haltOn h ev.cause).takeException ev.cause
  else { (csrHart h (decode ev.inst)).writeReg ev.rd ev.rdValue with pc := ev.nextPc }

theorem step_hart {s after : EmulatorIss} {ev : CommitEvent}
    (step : s.stepInst = some (after, ev)) : after.hart = hartAfter s.hart ev := by
  cases s.step_cases step with
  | fetch cause failed raises hart pc exception causes rd nextPc =>
      rw [hartAfter, if_pos exception, causes]
      exact hart
  | trap cause fetched raises hart pc exception causes rd nextPc =>
      rw [hartAfter, if_pos exception, causes]
      exact hart
  | retire fetched quiet hart pc exception real =>
      rw [hartAfter, exception, if_neg (by decide)]
      exact hart

/-- The fields that `events_match` leaves out are those that `hartAfter` does not read. -/
theorem hartAfter_match {h : Hart} {a b : CommitEvent} (agree : eventsMatch a b = true) :
    hartAfter h a = hartAfter h b := by
  obtain ⟨-, exception, nextPc, cause, retired⟩ := (eventsMatch_iff a b).mp agree
  unfold hartAfter
  rw [← exception]
  cases raised : a.exception with
  | true =>
      rw [if_pos rfl, if_pos rfl, cause raised]
  | false =>
      obtain ⟨inst, rd, value⟩ := retired raised
      rw [if_neg (by decide), if_neg (by decide), ← inst, ← rd, ← nextPc]
      by_cases zero : a.rd = 0#32
      · simp [Hart.writeReg, zero]
      · rw [value zero]

theorem step_determined {a b : EmulatorIss} (same : a.hart = b.hart)
    (agree : EventsAgree (a.stepInst.map Prod.snd) (b.stepInst.map Prod.snd)) :
    ((a.stepInst.map Prod.fst).getD a).hart = ((b.stepInst.map Prod.fst).getD b).hart := by
  cases stepA : a.stepInst with
  | none =>
      cases stepB : b.stepInst with
      | none => exact same
      | some out =>
          rw [stepA, stepB] at agree
          cases agree
  | some outA =>
      cases stepB : b.stepInst with
      | none =>
          rw [stepA, stepB] at agree
          cases agree
      | some outB =>
          rw [stepA, stepB] at agree
          cases agree with
          | some matched =>
              calc outA.1.hart = hartAfter a.hart outA.2 := step_hart stepA
                _ = hartAfter b.hart outB.2 := by rw [same, hartAfter_match matched]
                _ = outB.1.hart := (step_hart stepB).symm

/-- Two models that were reset to one address, with whatever memory and devices, have
equal harts as long as their events match. -/
theorem hart_determined {a b : EmulatorIss} {resetAddr : U32} {n : Nat}
    (startA : a.hart = Hart.reset resetAddr) (startB : b.hart = Hart.reset resetAddr)
    (agree : ∀ k, k < n → EventsAgree (a.event k) (b.event k)) :
    (a.run n).hart = (b.run n).hart := by
  induction n with
  | zero => exact startA.trans startB.symm
  | succ n ih =>
      have before := ih fun k early => agree k (Nat.lt_succ_of_lt early)
      rw [a.run_succ, b.run_succ]
      exact step_determined before (agree n (Nat.lt_succ_self n))

/-- The same two instructions in front of different RAM contents. -/
theorem hart_determined_addi :
    (EmulatorIss.run { EmulatorIss.create {} with
        memory := .ofWords [0x00500093#32, 0x00308113#32] } 2).hart =
      (EmulatorIss.run { EmulatorIss.create {} with
        memory := .ofWords [0x00500093#32, 0x00308113#32, 0x0000006F#32] } 2).hart :=
  hart_determined rfl rfl (by decide +kernel)

end NpcMachine.Emulator
