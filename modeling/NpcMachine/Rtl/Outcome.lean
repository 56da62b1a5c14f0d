/-
# Rtl.Outcome -- what one instruction computes

EX and MEM compute from a word, its pc and its two operand values: the ALU result, the
next pc and the value for `rd`.  `aluOf`, `nextPcOf` and `resultOf` are these functions
by themselves; a decoded ID/EX register computes exactly them.
-/
import NpcMachine.Rtl.Invariant

namespace NpcMachine.Rtl

set_option autoImplicit false

section

variable (w pc v1 v2 : Word)

def immOf : Word := imm w (decoder w).immSel

def aluOf : Word :=
  alu v1 v2 pc (immOf w) (decoder w).aluOp (decoder w).aluSrcA (decoder w).aluSrcB

def takenOf : Bool := branchTaken v1 v2 (decoder w).branchType

/-- The target of a jump or a taken branch, if the instruction leaves the straight line. -/
def targetOf : Option Word :=
  if (decoder w).jump then some (jumpTarget pc (immOf w) v1 (decoder w).jumpReg)
  else if takenOf w v1 v2 then some (branchTarget pc (immOf w))
  else none

def nextPcOf : Word := (targetOf w pc v1 v2).getD (pc + 4#32)

/-- The value for `rd`, with the word that a load gets. -/
def resultOf (loaded : Word) : Word :=
  if (decoder w).memRead then loaded
  else if (decoder w).jump then pc + 4#32
  else aluOf w pc v1 v2

/-- The word that a load makes of the data it gets. -/
def loadedOf (data : Word) : Word :=
  LsuIn.loadAlignedData ⟨0#32, 0#32, true, false, (decoder w).memSize, (decoder w).memSext⟩ data

/-- A word that EX executes without an exception, given its operands. -/
structure Legal : Prop where
  legal : (decoder w).illegal = false
  rd : ((decoder w).hasRd && (decoder w).rd5.getLsbD 4) = false
  rs1 : ((decoder w).hasRs1 && (decoder w).rs15.getLsbD 4) = false
  rs2 : ((decoder w).hasRs2 && (decoder w).rs25.getLsbD 4) = false
  csrOp : (decoder w).csrOp = .none
  target : ∀ target, targetOf w pc v1 v2 = some target → misaligned4 target = false
  ecall : (decoder w).ecall = false
  ebreak : (decoder w).ebreak = false
  mret : (decoder w).mret = false

end

namespace Pipeline

variable {p : Pipeline}

theorem exAluResult_eq (decoded : p.idEx.Decoded) :
    p.exAluResult = aluOf p.idEx.inst p.idEx.pc p.exRs1Value p.exRs2Value := by
  rw [exAluResult, aluOf, immOf, decoded.ctl, decoded.imm]

/-- A legal instruction whose fetch was fine raises nothing in EX. -/
theorem exFault_of_legal (decoded : p.idEx.Decoded) (aligned : misaligned4 p.idEx.pc = false)
    (fetched : p.idEx.fetchFault = false) (fetched' : p.idEx.fetchMisaligned = false)
    (legal : Legal p.idEx.inst p.idEx.pc p.exRs1Value p.exRs2Value) : p.exFault = none := by
  have ctl := decoded.ctl
  have rd : p.idExReservedRd = false := by rw [idExReservedRd, ctl]; exact legal.rd
  have rs1 : p.idExReservedRs1 = false := by rw [idExReservedRs1, ctl]; exact legal.rs1
  have rs2 : p.idExReservedRs2 = false := by rw [idExReservedRs2, ctl]; exact legal.rs2
  have csr : p.idExCsrIllegal = false := by simp [idExCsrIllegal, ctl, legal.csrOp]
  have jump : (p.idEx.ctl.jump && p.exJumpTargetMisaligned) = false := by
    cases jumps : (decoder p.idEx.inst).jump with
    | false => simp [ctl, jumps]
    | true =>
        have target := legal.target (p.exJumpTarget) (by
          simp [targetOf, jumps, exJumpTarget, immOf, ctl, decoded.imm])
        have off : p.exJumpTargetMisaligned = false := target
        simp [off]
  have branch : p.exBranchTargetMisaligned = false := by
    cases taken : takenOf p.idEx.inst p.exRs1Value p.exRs2Value with
    | false =>
        have straight : branchTaken p.exRs1Value p.exRs2Value p.idEx.ctl.branchType = false := by
          rw [ctl]
          exact taken
        simp [exBranchTargetMisaligned, branchTargetMisaligned, straight]
    | true =>
        have noJump : (decoder p.idEx.inst).jump = false := by
          have arm : major p.idEx.inst = .branch := by
            by_contra other
            rw [takenOf, decoder_branchType _ other] at taken
            contradiction
          simp [decoder_jump, arm]
        have target := legal.target p.exBranchTarget (by
          simp [targetOf, noJump, taken, exBranchTarget, immOf, decoded.imm])
        have off : misaligned4 (branchTarget p.idEx.pc p.idEx.imm) = false := target
        simp [exBranchTargetMisaligned, branchTargetMisaligned, off]
  simp [exFault, aligned, fetched, fetched', ctl, legal.legal, rd, rs1, rs2, csr, branch,
    legal.ecall, legal.ebreak]
  simpa [ctl] using jump

theorem exNextPc_of_legal (decoded : p.idEx.Decoded) (aligned : misaligned4 p.idEx.pc = false)
    (fetched : p.idEx.fetchFault = false) (fetched' : p.idEx.fetchMisaligned = false)
    (legal : Legal p.idEx.inst p.idEx.pc p.exRs1Value p.exRs2Value) :
    p.exNextPc = nextPcOf p.idEx.inst p.idEx.pc p.exRs1Value p.exRs2Value := by
  have fine := exFault_of_legal decoded aligned fetched fetched' legal
  have ctl := decoded.ctl
  have quiet : p.exException = false := by rw [exException, fine]; rfl
  have noMret : p.idEx.ctl.mret = false := by rw [ctl]; exact legal.mret
  simp only [exNextPc, quiet, noMret, Bool.false_eq_true, if_false, nextPcOf, targetOf]
  by_cases jumps : (decoder p.idEx.inst).jump = true
  · simp [jumps, exJumpTarget, immOf, ctl, decoded.imm]
  · by_cases taken : takenOf p.idEx.inst p.exRs1Value p.exRs2Value = true
    · have taken' : p.exBranchTaken = true := by rw [exBranchTaken, ctl]; exact taken
      simp [jumps, taken, taken', exBranchTarget, immOf, ctl, decoded.imm]
    · have straight : ¬ p.exBranchTaken = true := by rw [exBranchTaken, ctl]; exact taken
      simp [jumps, taken, straight, ctl]

/-- Such an instruction stays on the straight line unless it redirects. -/
theorem nextPcOf_of_straight (decoded : p.idEx.Decoded) (valid : p.idEx.valid = true)
    (straight : p.exRedirect = false) :
    nextPcOf p.idEx.inst p.idEx.pc p.exRs1Value p.exRs2Value = p.idEx.pc + 4#32 := by
  simp only [exRedirect, valid, Bool.true_and, Bool.or_eq_false_iff] at straight
  obtain ⟨⟨-, noJump⟩, notTaken⟩ := straight
  rw [decoded.ctl] at noJump
  have notTaken' : takenOf p.idEx.inst p.exRs1Value p.exRs2Value = false := by
    rw [takenOf, ← notTaken, exBranchTaken, decoded.ctl]
  have noJump' : (decoder p.idEx.inst).jump = false := noJump
  simp [nextPcOf, targetOf, noJump', notTaken']

end Pipeline

end NpcMachine.Rtl
