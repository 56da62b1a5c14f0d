/-
# Rtl.CsrRead -- the CSR value an instruction reads

A CSR is read in ID and written in WB.  `csr_stall` keeps CSR instructions apart, but
the trap port writes `mepc` and `mcause` from WB as well, and nothing keeps the first
instruction of the handler out of ID in that cycle.

* `CsrFresh.next`: an edge keeps the CSR values in flight up to date unless a CSR
  instruction leaves ID while a trap changes what it reads (`csrReadMissed`);
* `csrReadMissed_commits`: after such an edge a wrong value commits.
-/
import NpcMachine.Rtl.Operands

namespace NpcMachine.Rtl

set_option autoImplicit false

/-- The operand of a CSR instruction, from the value of its `rs1`. -/
def csrOperand (inst rs1 : Word) : Word :=
  if (decoder inst).csrSrc then imm inst (decoder inst).immSel else rs1

/-- Neither the fetch nor a register number of the instruction raises an exception. -/
def IdEx.plain (r : IdEx) : Bool :=
  !r.fetchFault && !r.fetchMisaligned && !(r.ctl.hasRd && r.ctl.rd5.getLsbD 4) &&
    !(r.ctl.hasRs1 && r.ctl.rs15.getLsbD 4)

theorem IdEx.plain_iff (r : IdEx) : r.plain = true ↔
    r.fetchFault = false ∧ r.fetchMisaligned = false ∧
      (r.ctl.hasRd && r.ctl.rd5.getLsbD 4) = false ∧
      (r.ctl.hasRs1 && r.ctl.rs15.getLsbD 4) = false := by
  simp only [IdEx.plain, Bool.and_eq_true, Bool.not_eq_true', and_assoc]

/-- What a trap leaves of a CSR read. -/
theorem CsrFile.readData_trap (c : CsrFile) (pc cause : Word) (addr : BitVec 12) :
    CsrFile.readData { c with mepc := pc, mcause := cause } addr =
      if addr = csrMepc then pc else if addr = csrMcause then cause else c.readData addr := by
  by_cases mepc : addr = csrMepc
  · subst mepc
    rfl
  · by_cases mcause : addr = csrMcause
    · subst mcause
      rfl
    · simp [CsrFile.readData, mepc, mcause]

namespace Pipeline

/-- A trap in WB changes the CSR at `addr`. -/
def trapChanges (p : Pipeline) (addr : BitVec 12) : Bool :=
  p.memWb.valid && p.memWb.exception &&
    ((addr == csrMepc && p.csrFile.mepc != p.memWb.pc) ||
      (addr == csrMcause && p.csrFile.mcause != p.memWb.cause))

/-- A CSR instruction passes from ID to EX while a trap changes the CSR it reads. -/
def csrReadMissed (p : Pipeline) (i : PipelineIn) : Bool :=
  p.ifId.valid && !p.idStall i && !p.exRedirect && !p.memRedirect i && !p.wbWillHalt &&
    p.decoded.plain && p.dec.csrOp != .none && p.trapChanges p.dec.csrAddr

/-- The CSR values in flight: `csr_read_data` in EX, and the operand and the new value
as well in MEM and WB. -/
structure CsrFresh (p : Pipeline) : Prop where
  idEx : p.idEx.valid = true → p.idEx.ctl.csrOp ≠ .none → p.idEx.plain = true →
    p.idEx.csrData = p.csrFile.readData p.idEx.ctl.csrAddr
  exMem : p.exMem.valid = true → p.exMem.csrOp ≠ .none → p.exMem.exception = false →
    p.exMem.csrData = p.csrFile.readData p.exMem.csrAddr ∧
      p.exMem.csrNewValue = Rtl.csrNewValue p.exMem.csrData
        (csrOperand p.exMem.inst (p.decSource (decoder p.exMem.inst).rs1)) p.exMem.csrOp
  memWb : p.memWb.valid = true → p.memWb.csrOp ≠ .none → p.memWb.exception = false →
    p.memWb.rdValue = p.csrFile.readData p.memWb.csrAddr ∧
      p.memWb.csrNewValue = Rtl.csrNewValue p.memWb.rdValue
        (csrOperand p.memWb.inst (p.regfile.read (decoder p.memWb.inst).rs1)) p.memWb.csrOp

theorem csrFresh_reset (p : Pipeline) : p.reset.CsrFresh := by
  constructor <;> intro valid <;> simp [reset] at valid

variable {p : Pipeline} {i : PipelineIn}

theorem trapChanges_readData {addr : BitVec 12} (i : PipelineIn) (quiet : p.csrBusy = false)
    (same : p.trapChanges addr = false) :
    (p.next i).csrFile.readData addr = p.csrFile.readData addr := by
  have noWrite : p.csrWrite.writeEn = false := by
    simp only [csrBusy, Bool.or_eq_false_iff] at quiet
    have wb := quiet.2
    cases valid : p.memWb.valid with
    | false => simp [csrWrite, valid]
    | true =>
        simp only [valid, Bool.true_and] at wb
        simp [csrWrite, valid, wb]
  rw [next_csrFile, CsrFile.next, noWrite]
  cases traps : p.csrWrite.excEn with
  | false => rfl
  | true =>
      have raised : p.memWb.valid = true ∧ p.memWb.exception = true := by
        simpa [csrWrite] using traps
      simp only [trapChanges, raised.1, raised.2, Bool.and_self, Bool.true_and,
        Bool.or_eq_false_iff, Bool.and_eq_false_iff, beq_eq_false_iff_ne, bne_eq_false_iff_eq]
        at same
      show CsrFile.readData { p.csrFile with mepc := p.memWb.pc, mcause := p.memWb.cause } addr = _
      rw [CsrFile.readData_trap]
      split_ifs with mepc mcause
      · rcases same.1 with other | equal
        · exact absurd mepc other
        · rw [← equal, mepc]
          rfl
      · rcases same.2 with other | equal
        · exact absurd mcause other
        · rw [← equal, mcause]
          rfl
      · rfl

/-- MEM never waits for a CSR instruction. -/
theorem csrOp_of_wait (wf : p.Wf) (waits : p.memAccessWait i = true) :
    p.exMem.csrOp = .none := by
  obtain ⟨valid, -, access⟩ := memAccessWait_valid waits
  have decoded := wf.exMem valid
  rw [decoded.csrOp]
  rcases access with reads | writes
  · exact (decoder_of_memRead (decoded.memRead.symm.trans reads)).2.1
  · exact (decoder_of_memWrite (decoded.memWrite.symm.trans writes)).2.1

/-- An instruction that raises nothing in EX is plain. -/
theorem plain_of_exException (clean : p.exException = false) : p.idEx.plain = true := by
  rw [IdEx.plain_iff]
  have none : p.exFault = none := by simpa [exException] using clean
  unfold exFault at none
  split_ifs at none with aligned fault misaligned illegal
  simp only [Bool.or_eq_true, not_or, Bool.not_eq_true] at illegal fault misaligned
  exact ⟨fault, misaligned, illegal.1.1.1.2, illegal.1.1.2⟩

/-- EX computes the new CSR value from the operand that the register file will hold. -/
theorem executed_csr (wf : p.Wf) (fresh : p.Fresh) (advances : p.exAdvances i = true)
    (csr : p.idEx.ctl.csrOp ≠ .none) :
    p.executed.csrNewValue = Rtl.csrNewValue p.idEx.csrData
      (csrOperand p.idEx.inst ((p.next i).decSource (decoder p.idEx.inst).rs1))
      p.idEx.ctl.csrOp := by
  have valid := (exAdvances_iff.mp advances).1
  have decoded := wf.idEx valid
  have word : (decoder p.idEx.inst).csrOp ≠ .none := by
    rw [decoded.ctl] at csr
    exact csr
  obtain ⟨-, -, -, -, -, -, -, source⟩ := decoder_of_csr word
  have operand : p.exCsrOperand =
      csrOperand p.idEx.inst ((p.next i).decSource (decoder p.idEx.inst).rs1) := by
    simp only [exCsrOperand, csrOperand, decoded.ctl, decoded.imm]
    cases src : (decoder p.idEx.inst).csrSrc with
    | true => rfl
    | false =>
        have uses : p.idEx.uses .rs1 = true := by
          show p.idEx.ctl.hasRs1 = true
          rw [decoded.ctl]
          simpa [src] using source
        have reg : p.idEx.reg .rs1 = (decoder p.idEx.inst).rs1 := by
          show p.idEx.ctl.rs1 = _
          rw [decoded.ctl]
        have value := fresh.exValue_eq advances i .rs1 uses
        rw [reg, exValue_rs1, ← decSource_eq] at value
        simpa using value
  show Rtl.csrNewValue p.idEx.csrData p.exCsrOperand p.idEx.ctl.csrOp = _
  rw [operand]

theorem memStageRdValue_csr (decoded : p.exMem.Decoded) (csr : p.exMem.csrOp ≠ .none) :
    p.memStageRdValue i = p.exMem.csrData := by
  have word : (decoder p.exMem.inst).csrOp ≠ .none := by
    rw [← decoded.csrOp]
    exact csr
  have noRead : p.exMem.memRead = false := decoded.memRead.trans (decoder_of_csrOp word).1
  simp [memStageRdValue, exForwardValue, noRead, csr]

/-- EX and MEM move: their CSR values stay up to date, whatever ID hands to EX. -/
theorem CsrFresh.advance (csrs : p.CsrFresh) (wf : p.Wf) (fresh : p.Fresh)
    (goes : p.memAccessWait i = false) (fine : p.memRedirect i = false)
    (runs : p.wbWillHalt = false)
    (exMem : (p.next i).exMem = p.executed) (memWb : (p.next i).memWb = p.accessed i)
    (idEx : (p.next i).idEx.valid = true → (p.next i).idEx.ctl.csrOp ≠ .none →
      (p.next i).idEx.plain = true →
      (p.next i).idEx.csrData = (p.next i).csrFile.readData (p.next i).idEx.ctl.csrAddr) :
    (p.next i).CsrFresh where
  idEx := idEx
  exMem valid csr clean := by
    rw [exMem] at valid csr clean ⊢
    have held : p.idEx.valid = true := valid
    have advances := exAdvances_iff.mpr ⟨held, goes, fine, runs⟩
    rw [wf.csrFile_of_busy i (.inl held)]
    exact ⟨csrs.idEx held csr (plain_of_exException clean),
      executed_csr wf fresh advances csr⟩
  memWb valid csr clean := by
    rw [memWb] at valid csr clean ⊢
    have held : p.exMem.valid = true := valid
    have csr' : p.exMem.csrOp ≠ .none := csr
    rw [accessed_exception fine held] at clean
    obtain ⟨read, new⟩ := csrs.exMem held csr' clean
    have value : (p.accessed i).rdValue = p.exMem.csrData :=
      memStageRdValue_csr (wf.exMem held) csr'
    rw [value, wf.csrFile_of_busy i (.inr held)]
    refine ⟨read, ?_⟩
    rw [← decSource_eq]
    exact new

theorem CsrFresh.next (csrs : p.CsrFresh) (wf : p.Wf) (fresh : p.Fresh)
    (kept : p.csrReadMissed i = false) : (p.next i).CsrFresh := by
  cases step_cases p i with
  | halt halts ifId idEx exMem memWb =>
      constructor <;> intro valid <;> simp [idEx, exMem, memWb] at valid
  | trap runs faults ifId idEx exMem memWb =>
      refine ⟨by simp [idEx], by simp [exMem], ?_⟩
      intro _ _ clean
      have raises : p.memNewException i = true := faults
      simp only [memNewException, Bool.and_eq_true] at raises
      rw [memWb] at clean
      exact absurd raises.2 (by simpa [accessed] using clean)
  | redirect runs fine redirects goes ifId idEx exMem memWb =>
      exact csrs.advance wf fresh goes fine runs exMem memWb (by simp [idEx])
  | lost runs fine redirects waits ifId idEx exMem memWb =>
      refine ⟨by simp [idEx], ?_, by simp [memWb]⟩
      intro _ csr
      rw [exMem] at csr
      exact absurd (csrOp_of_wait wf waits) csr
  | wait runs fine straight waits ifId idEx exMem memWb =>
      have held := (memAccessWait_valid waits).1
      refine ⟨?_, ?_, by simp [memWb]⟩
      · rw [idEx, wf.csrFile_of_busy i (.inr held)]
        exact csrs.idEx
      · intro _ csr
        rw [exMem] at csr
        exact absurd (csrOp_of_wait wf waits) csr
  | stall runs fine straight goes stalls ifId idEx exMem memWb =>
      exact csrs.advance wf fresh goes fine runs exMem memWb (by simp [idEx])
  | flow runs fine straight goes ready ifId idEx exMem memWb =>
      refine csrs.advance wf fresh goes fine runs exMem memWb ?_
      intro valid csr plain
      rw [idEx] at valid csr plain ⊢
      have csr' : p.dec.csrOp ≠ .none := csr
      have held : p.ifId.valid = true := valid
      have quiet : p.csrBusy = false := by
        cases busy : p.csrBusy with
        | false => rfl
        | true => rw [csrStall_idle ready busy] at valid; contradiction
      have same : p.trapChanges p.dec.csrAddr = false := by
        simpa [csrReadMissed, held, ready, straight, fine, runs, plain, csr'] using kept
      exact (trapChanges_readData i quiet same).symm

/-! ## A missed read commits -/

/-- A plain CSR instruction with an implemented address raises nothing in EX. -/
theorem exException_of_csr (wf : p.Wf) (aligned : p.Aligned) (valid : p.idEx.valid = true)
    (csr : p.idEx.ctl.csrOp ≠ .none) (plain : p.idEx.plain = true)
    (known : CsrFile.readFault p.idEx.ctl.csrAddr = false) :
    p.exException = false ∧ p.exRedirect = false := by
  have decoded := wf.idEx valid
  rw [decoded.ctl] at csr known
  obtain ⟨legal, noJump, noMret, noEcall, noEbreak, noBranch, noRs2, -⟩ := decoder_of_csr csr
  obtain ⟨noFault, noMisaligned, rd, rs1⟩ := (IdEx.plain_iff _).mp plain
  have straight : p.exBranchTaken = false := by
    simp [exBranchTaken, decoded.ctl, noBranch, branchTaken]
  have clean : p.exException = false := by
    have target : p.exBranchTargetMisaligned = false := by
      simp [exBranchTargetMisaligned, branchTargetMisaligned, decoded.ctl, noBranch, branchTaken]
    have reservedRd : p.idExReservedRd = false := rd
    have reservedRs1 : p.idExReservedRs1 = false := rs1
    have reservedRs2 : p.idExReservedRs2 = false := by
      simp [idExReservedRs2, decoded.ctl, noRs2]
    have implemented : p.idExCsrIllegal = false := by
      have fault : p.idEx.csrFault = false := by
        rw [decoded.csrFault]
        exact known
      simp [idExCsrIllegal, fault]
    simp [exException, exFault, aligned.idEx valid, noFault, noMisaligned, reservedRd,
      reservedRs1, reservedRs2, implemented, target, decoded.ctl, legal, noJump, noEcall, noEbreak]
  refine ⟨clean, ?_⟩
  simp [exRedirect, clean, straight, decoded.ctl, noMret, noJump]

theorem trapChanges_known {addr : BitVec 12} (changes : p.trapChanges addr = true) :
    CsrFile.readFault addr = false ∧ p.memWb.valid = true ∧ p.memWb.exception = true ∧
      (p.next i).csrFile.readData addr ≠ p.csrFile.readData addr := by
  simp only [trapChanges, Bool.and_eq_true, Bool.or_eq_true, beq_iff_eq, bne_iff_ne] at changes
  obtain ⟨⟨valid, raised⟩, csr⟩ := changes
  have next : (p.next i).csrFile =
      { p.csrFile with mepc := p.memWb.pc, mcause := p.memWb.cause } := by
    simp [CsrFile.next, csrWrite, valid, raised]
  rcases csr with ⟨rfl, other⟩ | ⟨rfl, other⟩
  · refine ⟨by decide, valid, raised, ?_⟩
    rw [next]
    exact fun same => other same.symm
  · refine ⟨by decide, valid, raised, ?_⟩
    rw [next]
    exact fun same => other same.symm

/-- An empty WB leaves the CSRs alone. -/
theorem csrFile_of_empty (i : PipelineIn) (empty : p.memWb.valid = false) :
    (p.next i).csrFile = p.csrFile := by
  simp [CsrFile.next, csrWrite, empty]

/-- A CSR instruction alone in EX commits two edges later with what it read in ID, and no
CSR has changed by then. -/
theorem csrRead_commits (p : Pipeline) (ins : Nat → PipelineIn) (n : Nat)
    (valid : (p.reset.run ins n).idEx.valid = true)
    (csr : (p.reset.run ins n).idEx.ctl.csrOp ≠ .none)
    (clean : (p.reset.run ins n).exException = false)
    (noMem : (p.reset.run ins n).exMem.valid = false)
    (noWb : (p.reset.run ins n).memWb.valid = false) :
    (p.reset.run ins (n + 2)).memWb.valid = true ∧
      (p.reset.run ins (n + 2)).memWb.csrOp ≠ .none ∧
      (p.reset.run ins (n + 2)).memWb.exception = false ∧
      (p.reset.run ins (n + 2)).memWb.rdValue = (p.reset.run ins n).idEx.csrData ∧
      (p.reset.run ins (n + 2)).memWb.csrAddr = (p.reset.run ins n).idEx.ctl.csrAddr ∧
      (p.reset.run ins (n + 2)).csrFile = (p.reset.run ins n).csrFile := by
  have wf := wf_run p ins (n + 1)
  have advances : (p.reset.run ins n).exAdvances (ins n) = true := by
    refine exAdvances_iff.mpr ⟨valid, ?_, ?_, ?_⟩
    · simp [memAccessWait, noMem]
    · simp [memRedirect, memNewException, noMem]
    · simp [wbWillHalt, noWb]
  -- One edge: it is in MEM, where a CSR instruction never stays.
  obtain ⟨exMem, memWb⟩ : (p.reset.run ins (n + 1)).exMem = (p.reset.run ins n).executed ∧
      (p.reset.run ins (n + 1)).memWb = (p.reset.run ins n).accessed (ins n) :=
    next_of_exAdvances advances
  have noWb' : (p.reset.run ins (n + 1)).memWb.valid = false := by
    rw [memWb]
    exact noMem
  have valid' : (p.reset.run ins (n + 1)).exMem.valid = true := by
    rw [exMem]
    exact valid
  have csr' : (p.reset.run ins (n + 1)).exMem.csrOp ≠ .none := by
    rw [exMem]
    exact csr
  have decoded := wf.exMem valid'
  have access := decoder_of_csrOp (decoded.csrOp ▸ csr')
  have noRead : (p.reset.run ins (n + 1)).exMem.memRead = false := decoded.memRead.trans access.1
  have noWrite : (p.reset.run ins (n + 1)).exMem.memWrite = false :=
    decoded.memWrite.trans access.2
  have clean' : (p.reset.run ins (n + 1)).exMem.exception = false := by
    rw [exMem]
    exact clean
  -- Two edges: it is in WB.
  have leaves : (p.reset.run ins (n + 2)).memWb =
      (p.reset.run ins (n + 1)).accessed (ins (n + 1)) :=
    exMem_passes wf valid' (Or.inr ⟨noRead, noWrite⟩)
  rw [leaves]
  refine ⟨valid', csr', ?_, ?_, ?_, ?_⟩
  · show (p.reset.run ins (n + 1)).memException (ins (n + 1)) = false
    simp [memException, memFault, clean', noRead, noWrite]
  · show (p.reset.run ins (n + 1)).memStageRdValue (ins (n + 1)) = _
    rw [memStageRdValue_csr decoded csr', exMem]
    rfl
  · show (p.reset.run ins (n + 1)).exMem.csrAddr = _
    rw [exMem]
    rfl
  · rw [run_succ p.reset ins (n + 1), csrFile_of_empty _ noWb', run_succ p.reset ins n,
      csrFile_of_empty _ noWb]

/-- The missed read commits three edges later, with a value the CSR no longer has. -/
theorem csrReadMissed_commits (p : Pipeline) (ins : Nat → PipelineIn) (n : Nat)
    (missed : (p.reset.run ins n).csrReadMissed (ins n) = true) :
    (p.reset.run ins (n + 3)).memWb.valid = true ∧
      (p.reset.run ins (n + 3)).memWb.csrOp ≠ .none ∧
      (p.reset.run ins (n + 3)).memWb.exception = false ∧
      (p.reset.run ins (n + 3)).memWb.rdValue ≠
        (p.reset.run ins (n + 3)).csrFile.readData (p.reset.run ins (n + 3)).memWb.csrAddr := by
  have wf := wf_run p ins n
  simp only [csrReadMissed, Bool.and_eq_true, Bool.not_eq_true', bne_iff_ne] at missed
  obtain ⟨⟨⟨⟨⟨⟨⟨valid, ready⟩, straight⟩, fine⟩, runs⟩, plain⟩, csr⟩, changes⟩ := missed
  obtain ⟨known, wbValid, wbRaised, stale⟩ := trapChanges_known (i := ins n) changes
  obtain ⟨noEx, noMem⟩ := wf.wbTrap wbValid wbRaised
  have goes : (p.reset.run ins n).memAccessWait (ins n) = false := by
    simp [memAccessWait, noMem]
  -- One edge: the instruction is in EX, with nothing ahead of it.
  obtain ⟨-, idEx, exMem, memWb⟩ : (p.reset.run ins (n + 1)).ifId =
      (p.reset.run ins n).fetched (ins n) ∧
      (p.reset.run ins (n + 1)).idEx = (p.reset.run ins n).decoded ∧
      (p.reset.run ins (n + 1)).exMem = (p.reset.run ins n).executed ∧
      (p.reset.run ins (n + 1)).memWb = (p.reset.run ins n).accessed (ins n) :=
    next_of_flows runs fine straight goes ready
  have valid' : (p.reset.run ins (n + 1)).idEx.valid = true := by
    rw [idEx]
    exact valid
  have csr' : (p.reset.run ins (n + 1)).idEx.ctl.csrOp ≠ .none := by
    rw [idEx]
    exact csr
  have clean := exException_of_csr (wf_run p ins (n + 1)) (aligned_run p ins (n + 1)) valid' csr'
    (by rw [idEx]; exact plain) (by rw [idEx]; exact known)
  obtain ⟨commits, op, quiet, value, addr, csrFile⟩ := csrRead_commits p ins (n + 1) valid' csr'
    clean.1 (by rw [exMem]; exact noEx) (by rw [memWb]; exact noMem)
  refine ⟨commits, op, quiet, ?_⟩
  rw [value, addr, csrFile, idEx]
  exact stale.symm

end Pipeline

end NpcMachine.Rtl
