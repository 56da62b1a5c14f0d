/-
# Rtl.Operands -- the operands of the instruction in EX

An operand comes from the register file, from the WB bypass in ID, or from one of
the two forwards.  The forward of MEM/WB lasts one cycle; a memory wait may hold its
consumer longer, and ID/EX does not take the value over.

* `Fresh`: each used source is forwarded or was captured up to date;
* `Fresh.next`: an edge keeps this unless it drops a forward the held instruction
  needs (`forwardMissed`);
* `operands_retired`: then every instruction leaves EX with the values its sources
  have once everything older has retired.
-/
import NpcMachine.Rtl.Invariant
import NpcMachine.Rtl.Environment

namespace NpcMachine.Rtl

set_option autoImplicit false

/-- The two register sources of an instruction. -/
inductive Source where
  | rs1 | rs2
  deriving DecidableEq, Repr

namespace IdEx

def uses (r : IdEx) : Source → Bool
  | .rs1 => r.ctl.hasRs1
  | .rs2 => r.ctl.hasRs2

def reg (r : IdEx) : Source → BitVec 4
  | .rs1 => r.ctl.rs1
  | .rs2 => r.ctl.rs2

def data (r : IdEx) : Source → Word
  | .rs1 => r.rs1Data
  | .rs2 => r.rs2Data

end IdEx

namespace Pipeline

/-- `ex_rs1_value` or `ex_rs2_value`. -/
def exValue (p : Pipeline) (s : Source) : Word := p.exSource (p.idEx.reg s) (p.idEx.data s)

@[simp] theorem exValue_rs1 (p : Pipeline) : p.exValue .rs1 = p.exRs1Value := rfl
@[simp] theorem exValue_rs2 (p : Pipeline) : p.exValue .rs2 = p.exRs2Value := rfl

/-- The instruction stays in ID/EX. -/
def exHeld (p : Pipeline) (i : PipelineIn) : Bool :=
  p.idEx.valid && p.memAccessWait i && !p.exRedirect && !p.memRedirect i && !p.wbWillHalt

/-- EX is held in the one cycle in which MEM/WB forwards a value that a used source
did not capture. -/
def forwardMissed (p : Pipeline) (i : PipelineIn) (s : Source) : Bool :=
  p.exHeld i && p.idEx.uses s && p.idEx.reg s != 0#4 && p.memWbCanForward &&
    p.memWb.rd == p.idEx.reg s && p.memWb.rdValue != p.idEx.data s

/-! ## The sources are fresh -/

/-- A used source of a valid ID/EX: no load is about to write it, and its value is
forwarded or was captured up to date. -/
structure Fresh (p : Pipeline) : Prop where
  zero : ∀ s, p.idEx.valid = true → p.idEx.reg s = 0#4 → p.idEx.data s = 0#32
  noLoad : ∀ s, p.idEx.valid = true → p.idEx.uses s = true → p.idEx.reg s ≠ 0#4 →
    p.exMem.valid = true → p.exMem.regWrite = true → p.exMem.memRead = true →
    p.exMem.rd ≠ p.idEx.reg s
  source : ∀ s, p.idEx.valid = true → p.idEx.uses s = true → p.idEx.reg s ≠ 0#4 →
    (p.exMemCanForward = true ∧ p.exMem.rd = p.idEx.reg s) ∨
      (p.memWbCanForward = true ∧ p.memWb.rd = p.idEx.reg s) ∨
      p.idEx.data s = p.regfile.read (p.idEx.reg s)

theorem fresh_of_empty {p : Pipeline} (empty : p.idEx.valid = false) : p.Fresh := by
  constructor <;> intro s valid <;> simp [empty] at valid

theorem memWbCanForward_eq (p : Pipeline) : p.memWbCanForward = p.regWen := rfl

/-- The register file after one edge. -/
theorem read_next_regfile (p : Pipeline) (i : PipelineIn) (rs : BitVec 4) (real : rs ≠ 0#4) :
    (p.next i).regfile.read rs =
      if p.regWen = true ∧ rs = p.memWb.rd then p.memWb.rdValue else p.regfile.read rs := by
  rw [next_regfile, Regfile.read_next]
  simp [real]

theorem exSource_eq (p : Pipeline) {rs : BitVec 4} (real : rs ≠ 0#4) (data : Word) :
    p.exSource rs data =
      if p.exMemCanForward = true ∧ p.exMem.rd = rs then p.exForwardValue
      else if p.regWen = true ∧ rs = p.memWb.rd then p.memWb.rdValue
      else data := by
  simp only [exSource, memWbCanForward_eq, bne_iff_ne, Bool.and_eq_true, beq_iff_eq, ne_eq, real,
    not_false_eq_true, true_and, eq_comm (a := rs)]

/-- What ID reads is what the register file holds after the edge. -/
theorem decSource_eq (p : Pipeline) (i : PipelineIn) (rs : BitVec 4) :
    p.decSource rs = (p.next i).regfile.read rs := by
  by_cases real : rs = 0#4
  · simp [decSource, real]
  · rw [read_next_regfile p i rs real, decSource]
    simp only [bne_iff_ne, Bool.and_eq_true, beq_iff_eq, ne_eq, real, not_false_eq_true, true_and,
      eq_comm (a := rs)]

theorem decoded_data (p : Pipeline) (i : PipelineIn) (s : Source) :
    p.decoded.data s = (p.next i).regfile.read (p.decoded.reg s) := by
  cases s with
  | rs1 => exact decSource_eq p i _
  | rs2 => exact decSource_eq p i _

/-- ID hands on no instruction that uses the result of a load in EX. -/
theorem decoded_noLoad {p : Pipeline} {i : PipelineIn} (ready : p.idStall i = false)
    (s : Source) (valid : p.ifId.valid = true) (uses : p.decoded.uses s = true)
    (real : p.decoded.reg s ≠ 0#4) (held : p.idEx.valid = true)
    (writes : p.idEx.ctl.regWrite = true) (reads : p.idEx.ctl.memRead = true) :
    p.idEx.ctl.rd ≠ p.decoded.reg s := by
  intro same
  have quiet : p.loadUseStall = false := by
    simp only [idStall, Bool.or_eq_false_iff] at ready
    exact ready.1.1.1.2
  have named : p.idEx.ctl.rd ≠ 0#4 := by
    rw [same]
    exact real
  cases s with
  | rs1 =>
      have uses' : p.dec.hasRs1 = true := uses
      have same' : p.idEx.ctl.rd = p.dec.rs1 := same
      rw [same'] at named
      simp [loadUseStall, valid, held, writes, reads, decUsesRs1, uses', same', named] at quiet
  | rs2 =>
      have uses' : p.dec.hasRs2 = true := uses
      have same' : p.idEx.ctl.rd = p.dec.rs2 := same
      rw [same'] at named
      simp [loadUseStall, valid, held, writes, reads, decUsesRs2, uses', same', named] at quiet

theorem Fresh.next {p : Pipeline} (fresh : p.Fresh) (i : PipelineIn)
    (kept : ∀ s, p.forwardMissed i s = false) : (p.next i).Fresh := by
  cases step_cases p i with
  | halt _ _ idEx => exact fresh_of_empty (by simp [idEx])
  | trap _ _ _ idEx => exact fresh_of_empty (by simp [idEx])
  | redirect _ _ _ _ _ idEx => exact fresh_of_empty (by simp [idEx])
  | lost _ _ _ _ _ idEx => exact fresh_of_empty (by simp [idEx])
  | stall _ _ _ _ _ _ idEx => exact fresh_of_empty (by simp [idEx])
  | wait runs fine straight waits ifId idEx exMem memWb pc =>
      constructor
      · intro s valid
        rw [idEx] at valid ⊢
        exact fresh.zero s valid
      · intro s valid uses real
        rw [idEx] at valid uses real ⊢
        rw [exMem]
        exact fresh.noLoad s valid uses real
      · intro s valid uses real
        rw [idEx] at valid uses real ⊢
        have memForward : (p.next i).exMemCanForward = p.exMemCanForward := by
          simp [exMemCanForward, exMem]
        rw [exMem, memForward, read_next_regfile p i _ real]
        by_cases written : p.regWen = true ∧ p.idEx.reg s = p.memWb.rd
        · -- The only cycle of this forward: the captured value must already be it.
          have taken : p.memWb.rdValue = p.idEx.data s := by
            have same := kept s
            have named : p.memWb.rd ≠ 0#4 := written.2 ▸ real
            simpa [forwardMissed, exHeld, valid, uses, waits, straight, fine, runs,
              memWbCanForward_eq, written.1, written.2, named] using same
          right; right
          rw [if_pos written]
          exact taken.symm
        · rw [if_neg written]
          rcases fresh.source s valid uses real with ahead | wb | captured
          · exact Or.inl ahead
          · exact absurd ⟨wb.1, wb.2.symm⟩ written
          · exact Or.inr (Or.inr captured)
  | flow runs fine straight goes ready ifId idEx exMem memWb pc =>
      constructor
      · intro s valid zero
        rw [idEx] at zero ⊢
        rw [decoded_data p i s, zero, Regfile.read_zero]
      · intro s valid uses real held writes reads
        rw [idEx] at valid uses real ⊢
        rw [exMem] at held writes reads ⊢
        exact decoded_noLoad ready s valid uses real held writes reads
      · intro s valid uses real
        right; right
        rw [idEx]
        exact decoded_data p i s

/-! ## Leaving EX -/

/-- Two edges retire what MEM and WB held: the operand is the register value then. -/
theorem Fresh.exValue_eq {p : Pipeline} {i : PipelineIn} (fresh : p.Fresh)
    (advances : p.exAdvances i = true) (j : PipelineIn) (s : Source)
    (uses : p.idEx.uses s = true) :
    p.exValue s = ((p.next i).next j).regfile.read (p.idEx.reg s) := by
  have memWb := (next_of_exAdvances advances).2
  obtain ⟨valid, goes, fine, runs⟩ := exAdvances_iff.mp advances
  by_cases real : p.idEx.reg s = 0#4
  · rw [real, Regfile.read_zero]
    simp [exValue, exSource, real, fresh.zero s valid real]
  · rw [read_next_regfile _ _ _ real, read_next_regfile _ _ _ real]
    have writes : ((p.next i).regWen = true ∧ p.idEx.reg s = (p.next i).memWb.rd) ↔
        (p.exMemCanForward = true ∧ p.exMem.rd = p.idEx.reg s) := by
      have raised : p.exMem.valid = true → (p.accessed i).exception = p.exMem.exception :=
        accessed_exception fine
      have wen : (p.next i).regWen = true ↔ p.exMem.valid = true ∧ p.exMem.regWrite = true ∧
          (p.accessed i).exception = false ∧ p.exMem.rd ≠ 0#4 := by
        simp [regWen, memWb, accessed, and_assoc]
      rw [wen, memWb]
      show _ ∧ p.idEx.reg s = p.exMem.rd ↔ _
      constructor
      · rintro ⟨⟨mem, regWrite, clean, named⟩, same⟩
        rw [raised mem] at clean
        have noRead : p.exMem.memRead = false := by
          by_contra reads
          exact fresh.noLoad s valid uses real mem regWrite (by simpa using reads) same.symm
        exact ⟨by simp [exMemCanForward, mem, regWrite, clean, noRead, named], same.symm⟩
      · rintro ⟨forwards, same⟩
        simp only [exMemCanForward, Bool.and_eq_true, Bool.not_eq_true', bne_iff_ne] at forwards
        obtain ⟨⟨⟨⟨mem, regWrite⟩, noRead⟩, clean⟩, named⟩ := forwards
        exact ⟨⟨mem, regWrite, by rw [raised mem]; exact clean, named⟩, same.symm⟩
    rw [exValue, exSource_eq p real]
    by_cases ahead : p.exMemCanForward = true ∧ p.exMem.rd = p.idEx.reg s
    · rw [if_pos ahead, if_pos (writes.mpr ahead), memWb]
      have noRead : p.exMem.memRead = false := by
        have forwards := ahead.1
        simp only [exMemCanForward, Bool.and_eq_true, Bool.not_eq_true'] at forwards
        exact forwards.1.1.2
      simp [accessed, memStageRdValue, noRead]
    · rw [if_neg ahead, if_neg (fun both => ahead (writes.mp both))]
      by_cases wb : p.regWen = true ∧ p.idEx.reg s = p.memWb.rd
      · rw [if_pos wb, if_pos wb]
      · rw [if_neg wb, if_neg wb]
        rcases fresh.source s valid uses real with mem | forwards | captured
        · exact absurd mem ahead
        · exact absurd ⟨forwards.1, forwards.2.symm⟩ wb
        · exact captured

end Pipeline

/-- Every instruction that leaves EX does so with the register values that its used
sources have two edges later, when the instructions in MEM and WB have retired and
it has not yet. -/
structure OperandsRetired (p : Pipeline) (ins : Nat → PipelineIn) : Prop where
  rs1 : ∀ n, (p.run ins n).exAdvances (ins n) = true → (p.run ins n).idEx.ctl.hasRs1 = true →
    (p.run ins n).exRs1Value = (p.run ins (n + 2)).regfile.read (p.run ins n).idEx.ctl.rs1
  rs2 : ∀ n, (p.run ins n).exAdvances (ins n) = true → (p.run ins n).idEx.ctl.hasRs2 = true →
    (p.run ins n).exRs2Value = (p.run ins (n + 2)).regfile.read (p.run ins n).idEx.ctl.rs2

theorem fresh_run (p : Pipeline) (ins : Nat → PipelineIn)
    (kept : ∀ n s, (p.reset.run ins n).forwardMissed (ins n) s = false) (n : Nat) :
    (p.reset.run ins n).Fresh := by
  induction n with
  | zero => exact Pipeline.fresh_of_empty rfl
  | succ n fresh => exact fresh.next (ins n) (kept n)

/-- In every environment: a run that never holds EX through a forward of MEM/WB that
it needs gives every instruction its program-order operands. -/
theorem operands_retired (p : Pipeline) (ins : Nat → PipelineIn)
    (kept : ∀ n s, (p.reset.run ins n).forwardMissed (ins n) s = false) :
    OperandsRetired p.reset ins where
  rs1 n advances uses :=
    (fresh_run p ins kept n).exValue_eq advances (ins (n + 1)) .rs1 uses
  rs2 n advances uses :=
    (fresh_run p ins kept n).exValue_eq advances (ins (n + 1)) .rs2 uses

/-! ## A wait that drops nothing -/

/-- A ready memory never makes MEM wait. -/
theorem exHeld_of_ready {p : Pipeline} {i : PipelineIn} (load : i.reqLoadReady = true)
    (store : i.reqStoreReady = true) : p.exHeld i = false := by
  simp [Pipeline.exHeld, Pipeline.memAccessWait, load, store]

def spacedProgram (pc : Word) : Word :=
  if pc = 0x20000000#32 then 0x00500093#32  -- addi x1, x0, 5
  else if pc = 0x20000008#32 then 0x00002103#32  -- lw x2, 0(x0)
  else if pc = 0x2000000C#32 then 0x000081B3#32  -- add x3, x1, x0
  else if pc = 0x20000010#32 then 0x00218233#32  -- add x4, x3, x2
  else 0x00000013#32

/-- The load waits for three cycles. -/
def spacedInputs : Nat → PipelineIn :=
  Machine.feedback Pipeline.next (slowMemory spacedProgram 8) (default : Pipeline).reset

/-- The first `add` waits in EX with its operand captured; the second one takes the forwards of
the first and of the load. -/
theorem operands_retired_spaced :
    (∀ n, n < 12 → (((default : Pipeline).reset.run spacedInputs n).exHeld (spacedInputs n) = true ↔
      5 ≤ n ∧ n < 8)) ∧ OperandsRetired (default : Pipeline).reset spacedInputs := by
  refine ⟨by decide +kernel, operands_retired default spacedInputs fun n s => ?_⟩
  by_cases later : 8 ≤ n
  · have held : ((default : Pipeline).reset.run spacedInputs n).exHeld (spacedInputs n) = false :=
      exHeld_of_ready (decide_eq_true later) (decide_eq_true later)
    simp [Pipeline.forwardMissed, held]
  · have early : ∀ n, n < 8 →
        ((default : Pipeline).reset.run spacedInputs n).forwardMissed (spacedInputs n) .rs1 = false ∧
        ((default : Pipeline).reset.run spacedInputs n).forwardMissed (spacedInputs n) .rs2 = false := by
      decide +kernel
    cases s with
    | rs1 => exact (early n (by omega)).1
    | rs2 => exact (early n (by omega)).2

/-! ## A forward dropped -/

def operandProgram (pc : Word) : Word :=
  if pc = 0x20000000#32 then 0x00500093#32  -- addi x1, x0, 5
  else if pc = 0x20000004#32 then 0x00002103#32  -- lw x2, 0(x0)
  else if pc = 0x20000008#32 then 0x000081B3#32  -- add x3, x1, x0
  else 0x00000013#32

def operandInputs (readyAt : Nat) : Nat → PipelineIn :=
  Machine.feedback Pipeline.next (slowMemory operandProgram readyAt) (default : Pipeline).reset

/-- The load waits in cycles 4 and 5 while `add` is in EX: `add` leaves EX with the
old value 0 of `x1`, which is 5. -/
theorem operandInputs_lose_forward :
    Serves operandProgram (default : Pipeline).reset (operandInputs 6) ∧
      ¬ OperandsRetired (default : Pipeline).reset (operandInputs 6) := by
  refine ⟨slowMemory_serves _ _ _, ?_⟩
  intro retired
  have operand := retired.rs1 6 (by decide +kernel) (by decide +kernel)
  have stale : ((default : Pipeline).reset.run (operandInputs 6) 6).exRs1Value = 0#32 := by
    decide +kernel
  have real : ((default : Pipeline).reset.run (operandInputs 6) 8).regfile.read
      ((default : Pipeline).reset.run (operandInputs 6) 6).idEx.ctl.rs1 = 5#32 := by
    decide +kernel
  rw [stale, real] at operand
  contradiction

end NpcMachine.Rtl
