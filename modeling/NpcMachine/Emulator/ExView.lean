/-
# Emulator.ExView -- the execute phase of `npc_single_cycle` as EX of the pipeline

Both cores build the same checks and results around the same blocks.  `exView` is a
pipeline whose EX holds what the single-cycle core executes; the wires of the core are those
of EX (`exc_noAccess`, `nextPc_view`, `rdValue_view`), but for the checks of an access, which
the pipeline makes one stage later (`exc_access`).  `viewAgrees` is the agreement of EX and
`execute` on this view.
-/
import NpcMachine.Emulator.DatapathAgree
import NpcMachine.Rtl.SingleCycle
import NpcMachine.Rtl.Halt

namespace NpcMachine.Rtl.SingleCycle

open NpcMachine.Emulator

set_option autoImplicit false

variable (s : SingleCycle) (i : SingleCycleIn)

/-- The pipeline with the instruction of the execute phase in EX and empty stages behind. -/
def exView : Pipeline :=
  { Pipeline.reset default with
    idEx :=
      { valid := true
        pc := s.pc
        inst := s.instReg
        ctl := s.dec.toCtl
        rs1Data := s.rs1Data
        rs2Data := s.rs2Data
        imm := s.immOut
        csrData := s.csrReadData
        csrFault := s.csrReadFault
        fetchFault := s.fetchFaultReg
        fetchMisaligned := s.fetchMisalignedReg }
    csrFile := s.csrFile }

/-- The checks of an access, which come before those of ECALL and EBREAK. -/
def accessFault : Option Word :=
  if s.dec.memRead && s.lsu.loadMisaligned then some causeLoadMisaligned
  else if s.dec.memRead && i.respLoadFault then some causeLoadAccessFault
  else if s.dec.memRead && i.respLoadMisaligned then some causeLoadMisaligned
  else if s.dec.memWrite && s.lsu.storeMisaligned then some causeStoreMisaligned
  else none

variable {s i}

/-! ## Wires -/

theorem exSource_view (rs : BitVec 4) (data : Word) : s.exView.exSource rs data = data := by
  have mem : s.exView.exMemCanForward = false := rfl
  have wb : s.exView.memWbCanForward = false := rfl
  simp [Pipeline.exSource, mem, wb]

@[simp] theorem exRs1Value_view : s.exView.exRs1Value = s.rs1Data := exSource_view _ _
@[simp] theorem exRs2Value_view : s.exView.exRs2Value = s.rs2Data := exSource_view _ _

theorem decoded_view : s.exView.idEx.Decoded := ⟨rfl, rfl, rfl⟩

theorem aluResult_view : s.exView.exAluResult = s.aluResult := by
  rw [Pipeline.exAluResult, exRs1Value_view, exRs2Value_view]
  rfl

theorem branchOff_view : s.exView.exBranchTargetMisaligned = s.branchOff := by
  rw [Pipeline.exBranchTargetMisaligned, exRs1Value_view, exRs2Value_view]
  rfl

theorem jumpOff_view : s.exView.exJumpTargetMisaligned = s.jumpOff := by
  rw [Pipeline.exJumpTargetMisaligned, exRs1Value_view]
  rfl

theorem exFault_view : s.exView.exFault =
    if misaligned4 s.pc then some causeInstMisaligned
    else if s.fetchFaultReg then some causeInstAccessFault
    else if s.fetchMisalignedReg then some causeInstMisaligned
    else if s.dec.illegal || s.reservedRd || s.reservedRs1 || s.reservedRs2 || s.csrIllegal then
      some causeIllegalInst
    else if s.dec.jump && s.jumpOff then some causeInstMisaligned
    else if s.branchOff then some causeInstMisaligned
    else if s.dec.ecall then some causeEcallM
    else if s.dec.ebreak then some causeBreakpoint
    else none := by
  rw [Pipeline.exFault, branchOff_view, jumpOff_view]
  rfl

section

variable (here : s.fetchPcReg = s.pc)

include here

/-- Without an access the checks are those of EX. -/
theorem exc_noAccess (noRead : s.dec.memRead = false) (noWrite : s.dec.memWrite = false) :
    s.exc i = s.exView.exFault := by
  rw [exFault_view, exc, here, noRead, noWrite]
  simp only [Bool.false_and, Bool.false_eq_true, if_false]

/-- When EX has nothing to raise, the checks of the access remain. -/
theorem exc_access (quiet : s.exView.exFault = none) : s.exc i = s.accessFault i := by
  rw [exFault_view] at quiet
  split_ifs at quiet with pc fault misaligned illegal jump branch ecall ebreak
  rw [exc, here, if_neg pc, if_neg fault, if_neg misaligned, if_neg illegal, if_neg jump,
    if_neg branch, if_neg ecall, if_neg ebreak, accessFault]

end

theorem nextPc_view (same : s.excTake i = s.exView.exException) :
    s.nextPc i = s.exView.exNextPc := by
  rw [nextPc, Pipeline.exNextPc, same, Pipeline.exBranchTaken, exRs1Value_view, exRs2Value_view,
    Pipeline.exJumpTarget, exRs1Value_view]
  rfl

theorem rdValue_view (noRead : s.dec.memRead = false) : s.rdValue i = exResult s.exView := by
  rw [rdValue, noRead, if_neg (by decide), exResult, Pipeline.exForwardValue, Pipeline.executed,
    aluResult_view]
  rfl

/-- A check that fires with another cause. -/
theorem ite_cause_ne {c : Prop} [Decidable c] {a b : Word} {rest : Option Word} (other : a ≠ b)
    (tail : rest ≠ some b) : (if c then some a else rest) ≠ some b := by
  split_ifs
  · simpa using other
  · exact tail

theorem exc_ne_breakpoint (noEbreak : s.dec.ebreak = false) : s.exc i ≠ some causeBreakpoint := by
  rw [exc, noEbreak]
  iterate 11 refine ite_cause_ne (by decide) ?_
  simp

/-- An EBREAK that was fetched without fault raises a breakpoint, and nothing else does. -/
theorem exc_breakpoint (here : s.fetchPcReg = s.pc) (aligned : misaligned4 s.pc = false)
    (fetchFault : s.fetchFaultReg = false) (fetchMisaligned : s.fetchMisalignedReg = false)
    {cause : Word} (raises : s.exc i = some cause) :
    s.dec.ebreak = (cause == causeBreakpoint) := by
  cases ebreak : s.dec.ebreak with
  | true =>
      have priv : (decoder s.instReg).ebreak = true := ebreak
      rw [decoder_ebreak, Bool.and_eq_true, beq_iff_eq] at priv
      have noRead : s.dec.memRead = false := by simp [dec, decoder_memRead, priv.1]
      have noWrite : s.dec.memWrite = false := by simp [dec, decoder_memWrite, priv.1]
      rw [exc_noAccess here noRead noWrite, Pipeline.exFault_of_ebreak decoded_view ebreak aligned
        fetchFault fetchMisaligned] at raises
      cases raises
      rfl
  | false =>
      have other := exc_ne_breakpoint (i := i) ebreak
      rw [raises] at other
      simpa using other

/-! ## Accepted words -/

/-- The words that are neither base instructions nor CSR instructions. -/
theorem bare_of_rest {w : U32} (known : decodeType w ≠ .unknown)
    (rest : isBase (decodeType w) = false) (plain : csrOpOf (decodeType w) = .none) : Bare w := by
  cases type : decodeType w with
  | fence | fenceI => exact (bare_miscMem (decodeType_fields (by rw [type]; exact rfl)).1).1
  | wfi | mret | ecall | ebreak =>
      exact bare_of_code (word_of_type (by rw [type]; exact rfl) rfl) (by decide)
  | unknown => exact absurd type known
  | csrrw | csrrs | csrrc | csrrwi | csrrsi | csrrci =>
      rw [type] at plain
      exact absurd plain (by decide)
  | _ =>
      rw [type] at rest
      exact absurd rest (by decide)

section Accepted

variable {e : EmulatorIss} (legal : rtlIllegal s.instReg = false)
  (accepted : emulatorIllegal s.instReg = false)

include accepted

theorem known_of_accepted : decodeType s.instReg ≠ .unknown ∧
    reservedReg (decode s.instReg) = false := by
  rw [emulatorIllegal, Bool.or_eq_false_iff] at accepted
  have type : (decodeType s.instReg == .unknown) = false := accepted.1
  exact ⟨by simpa using type, accepted.2⟩

/-- Both decoders name one CSR operation. -/
theorem csrOp_of_accepted : s.dec.csrOp = csrOpOf (decodeType s.instReg) := by
  obtain ⟨known, -⟩ := known_of_accepted accepted
  by_cases csr : csrOpOf (decodeType s.instReg) = .none
  · rw [csr]
    cases base : isBase (decodeType s.instReg) with
    | true => exact (congrArg Control.csrOp (decoder_of_base base)).trans (control_plain base).2.2.2.2.2
    | false => exact (bare_of_rest known base csr).csrOp
  · exact (decoder_of_csrType csr).2.1

/-- Loads and stores are base instructions. -/
theorem base_of_access (access : s.dec.memRead = true ∨ s.dec.memWrite = true) :
    isBase (decodeType s.instReg) = true := by
  obtain ⟨known, -⟩ := known_of_accepted accepted
  by_contra other
  rw [Bool.not_eq_true] at other
  have silent : s.dec.memRead = false ∧ s.dec.memWrite = false := by
    by_cases csr : csrOpOf (decodeType s.instReg) = .none
    · have bare := bare_of_rest known other csr
      exact ⟨bare.memRead, bare.memWrite⟩
    · have some_ : (decoder s.instReg).csrOp ≠ .none := by rwa [(decoder_of_csrType csr).2.1]
      exact decoder_of_csrOp some_
  rcases access with reads | writes
  · exact absurd (silent.1.symm.trans reads) (by decide)
  · exact absurd (silent.2.symm.trans writes) (by decide)

include legal

/-- EX and `execute` agree on every word that both accept. -/
theorem viewAgrees (same : SameInputs s.exView e) (aligned : misaligned4 e.hart.pc = false) :
    DatapathAgrees s.exView e := by
  obtain ⟨known, checked⟩ := known_of_accepted accepted
  cases base : isBase (decodeType s.instReg) with
  | true => exact base_agrees same aligned legal checked base
  | false =>
      by_cases csr : csrOpOf (decodeType s.instReg) = .none
      · exact bare_agrees same aligned legal checked known ⟨base, csr⟩
      · exact csr_agrees same aligned legal checked csr

/-- EX has nothing to raise for an access, and the address is that of `execute`. -/
theorem access_view (same : SameInputs s.exView e) (aligned : misaligned4 e.hart.pc = false)
    (access : s.dec.memRead = true ∨ s.dec.memWrite = true) :
    s.exView.exFault = none ∧ e.dataAddr (decode s.instReg) = some s.aluResult := by
  have base := base_of_access accepted access
  obtain ⟨-, checked⟩ := known_of_accepted accepted
  have ops : Operands e s.instReg s.exView.exRs1Value s.exView.exRs2Value :=
    operands_of_accepted same legal checked base
  have exit := base_exit same aligned legal ops
  have ctl := ops.ctl
  have reads : (control (decodeType s.instReg)).memRead = true ∨
      (control (decodeType s.instReg)).memWrite = true := by
    rcases access with reads | writes
    · exact .inl ((congrArg Control.memRead ctl).symm.trans reads)
    · exact .inr ((congrArg Control.memWrite ctl).symm.trans writes)
  have shape : (control (decodeType s.instReg)).jump = false ∧
      (control (decodeType s.instReg)).branchType = .none ∧
      (control (decodeType s.instReg)).hasRs1 = true ∧ accessSize (decodeType s.instReg) ≠ 0#32 := by
    revert reads
    cases decodeType s.instReg <;> decide
  obtain ⟨noJump, noBranch, used, sized⟩ := shape
  have straight : targetOf s.exView.idEx.inst e.hart.pc s.exView.exRs1Value s.exView.exRs2Value = none :=
    targetOf_straight base noJump noBranch _ _ _
  refine ⟨(exit.on (by rw [straight]; rfl)).1, ?_⟩
  have addr : s.aluResult = aluOf s.instReg e.hart.pc s.exView.exRs1Value s.exView.exRs2Value := by
    rw [← aluResult_view, Pipeline.exAluResult_eq decoded_view, same.pc]
    rfl
  have typed : (decode s.instReg).type = decodeType s.instReg := rfl
  rw [EmulatorIss.dataAddr, typed, if_neg sized, addr, ops.readReg_rs1 used, aluOf_access base reads]

end Accepted

end NpcMachine.Rtl.SingleCycle
