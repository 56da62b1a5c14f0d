/-
# Rtl.Invariant -- the inductive invariant of the pipeline

`Pipeline.Wf` holds after reset and over every run in every environment:

* a valid stage carries the decoder outputs of its own instruction;
* behind an exception in MEM or WB, and behind a CSR instruction, EX is empty;
* an instruction with the EBREAK bit that left EX carries an exception;
* the next pc recorded for an exception is the current `mtvec`.

`Pipeline.Aligned` adds that every pc held anywhere is a multiple of four.
-/
import NpcMachine.Rtl.PipelineStep

namespace NpcMachine.Rtl

set_option autoImplicit false

/-! ## Decoded stages -/

structure IdEx.Decoded (r : IdEx) : Prop where
  ctl : r.ctl = (decoder r.inst).toCtl
  imm : r.imm = Rtl.imm r.inst (decoder r.inst).immSel
  csrFault : r.csrFault = CsrFile.readFault (decoder r.inst).csrAddr

structure ExMem.Decoded (r : ExMem) : Prop where
  rd : r.rd = (decoder r.inst).rd
  csrAddr : r.csrAddr = (decoder r.inst).csrAddr
  regWrite : r.regWrite = (decoder r.inst).regWrite
  memRead : r.memRead = (decoder r.inst).memRead
  memWrite : r.memWrite = (decoder r.inst).memWrite
  memSize : r.memSize = (decoder r.inst).memSize
  memSext : r.memSext = (decoder r.inst).memSext
  csrOp : r.csrOp = (decoder r.inst).csrOp
  jump : r.jump = (decoder r.inst).jump
  fenceI : r.fenceI = (decoder r.inst).fenceI
  ebreak : r.ebreak = (decoder r.inst).ebreak

structure MemWb.Decoded (r : MemWb) : Prop where
  rd : r.rd = (decoder r.inst).rd
  csrAddr : r.csrAddr = (decoder r.inst).csrAddr
  regWrite : r.regWrite = (decoder r.inst).regWrite
  csrOp : r.csrOp = (decoder r.inst).csrOp
  fenceI : r.fenceI = (decoder r.inst).fenceI
  ebreak : r.ebreak = (decoder r.inst).ebreak

namespace Pipeline

theorem decoded_decoded (p : Pipeline) : p.decoded.Decoded := ⟨rfl, rfl, rfl⟩

theorem executed_decoded {p : Pipeline} (source : p.idEx.Decoded) : p.executed.Decoded := by
  constructor <;> simp [executed, source.ctl]

theorem accessed_decoded {p : Pipeline} (source : p.exMem.Decoded) (i : PipelineIn) :
    (p.accessed i).Decoded :=
  ⟨source.rd, source.csrAddr, source.regWrite, source.csrOp, source.fenceI, source.ebreak⟩

/-! ## The invariant -/

structure Wf (p : Pipeline) : Prop where
  idEx : p.idEx.valid = true → p.idEx.Decoded
  exMem : p.exMem.valid = true → p.exMem.Decoded
  memWb : p.memWb.valid = true → p.memWb.Decoded
  exTrap : p.exMem.valid = true → p.exMem.exception = true →
    p.ifId.valid = false ∧ p.idEx.valid = false
  wbTrap : p.memWb.valid = true → p.memWb.exception = true →
    p.idEx.valid = false ∧ p.exMem.valid = false
  exCsr : p.exMem.valid = true → p.exMem.csrOp ≠ .none → p.idEx.valid = false
  wbCsr : p.memWb.valid = true → p.memWb.csrOp ≠ .none →
    p.idEx.valid = false ∧ p.exMem.valid = false
  exEbreak : p.exMem.valid = true → p.exMem.ebreak = true → p.exMem.exception = true
  wbEbreak : p.memWb.valid = true → p.memWb.ebreak = true → p.memWb.exception = true
  exMtvec : p.exMem.valid = true → p.exMem.exception = true →
    p.exMem.nextPc = p.csrFile.mtvec
  wbMtvec : p.memWb.valid = true → p.memWb.exception = true →
    p.memWb.nextPc = p.csrFile.mtvec

theorem wf_reset (p : Pipeline) : p.reset.Wf := by
  constructor <;> intro valid <;> simp [reset] at valid

/-- WB writes CSRs only when EX and MEM are empty. -/
theorem Wf.csrFile_of_busy {p : Pipeline} (wf : p.Wf) (i : PipelineIn)
    (busy : p.idEx.valid = true ∨ p.exMem.valid = true) : (p.next i).csrFile = p.csrFile := by
  have noTrap : p.csrWrite.excEn = false := by
    by_contra traps
    simp only [csrWrite, Bool.not_eq_false, Bool.and_eq_true] at traps
    obtain ⟨noEx, noMem⟩ := wf.wbTrap traps.1 traps.2
    simp [noEx, noMem] at busy
  have noWrite : p.csrWrite.writeEn = false := by
    by_contra writes
    simp only [csrWrite, Bool.not_eq_false, Bool.and_eq_true, bne_iff_ne] at writes
    obtain ⟨noEx, noMem⟩ := wf.wbCsr writes.1.1.1 writes.1.1.2
    simp [noEx, noMem] at busy
  rw [next_csrFile, CsrFile.next, noTrap, noWrite]
  rfl

theorem exNextPc_of_exException {p : Pipeline} (raises : p.exException = true) :
    p.exNextPc = p.csrFile.mtvec := by
  simp [exNextPc, raises]

/-- An EBREAK in EX always raises: its own cause is the last of the chain. -/
theorem exException_of_ebreak {p : Pipeline} (ebreak : p.idEx.ctl.ebreak = true) :
    p.exException = true := by
  unfold exException exFault
  split_ifs <;> rfl

theorem accessed_exception {p : Pipeline} {i : PipelineIn} (fine : p.memRedirect i = false)
    (valid : p.exMem.valid = true) : (p.accessed i).exception = p.exMem.exception := by
  have none := fine
  simp only [memRedirect, memNewException, valid, Bool.true_and] at none
  show p.memException i = _
  cases raised : p.exMem.exception with
  | true => simp [memException, raised]
  | false => simpa [raised] using none

theorem accessed_nextPc {p : Pipeline} {i : PipelineIn} (fine : p.memRedirect i = false) :
    (p.accessed i).nextPc = p.exMem.nextPc := by
  have none : p.memNewException i = false := fine
  simp [accessed, none]

/-- In a CSR cycle ID hands nothing to EX. -/
theorem csrStall_idle {p : Pipeline} {i : PipelineIn} (ready : p.idStall i = false)
    (busy : p.csrBusy = true) : p.decoded.valid = false := by
  simp only [idStall, csrStall, Bool.or_eq_false_iff, busy, Bool.and_true] at ready
  exact ready.2

/-- EX and MEM move: what they hand on keeps the invariant, whatever ID hands to EX. -/
theorem Wf.advance {p : Pipeline} {i : PipelineIn} (wf : p.Wf) (fine : p.memRedirect i = false)
    {q : Pipeline} (exMem : q.exMem = p.executed) (memWb : q.memWb = p.accessed i)
    (mtvec : p.idEx.valid = true ∨ p.exMem.valid = true → q.csrFile.mtvec = p.csrFile.mtvec)
    (decodes : q.idEx.valid = true → q.idEx.Decoded)
    (squashed : p.idEx.valid = true → p.exException = true →
      q.ifId.valid = false ∧ q.idEx.valid = false)
    (behind : q.idEx.valid = true →
      p.ifId.valid = true ∧ p.csrBusy = false) : q.Wf where
  idEx := decodes
  exMem valid := by
    rw [exMem] at valid ⊢
    exact executed_decoded (wf.idEx valid)
  memWb valid := by
    rw [memWb] at valid ⊢
    exact accessed_decoded (wf.exMem valid) i
  exTrap valid raised := by
    rw [exMem] at valid raised
    exact squashed valid raised
  wbTrap valid raised := by
    rw [memWb] at valid raised
    rw [accessed_exception fine valid] at raised
    obtain ⟨noIfId, noIdEx⟩ := wf.exTrap valid raised
    refine ⟨?_, by rw [exMem]; exact noIdEx⟩
    cases taken : q.idEx.valid with
    | false => rfl
    | true => simp [noIfId] at behind; simp [behind] at taken
  exCsr valid csr := by
    rw [exMem] at valid csr
    cases taken : q.idEx.valid with
    | false => rfl
    | true =>
        have busy := (behind taken).2
        simp only [csrBusy, Bool.or_eq_false_iff] at busy
        have valid' : p.idEx.valid = true := valid
        have csr' : p.idEx.ctl.csrOp ≠ .none := csr
        simp [valid', csr'] at busy
  wbCsr valid csr := by
    rw [memWb] at valid csr
    have valid' : p.exMem.valid = true := valid
    have csr' : p.exMem.csrOp ≠ .none := csr
    refine ⟨?_, by rw [exMem]; exact wf.exCsr valid' csr'⟩
    cases taken : q.idEx.valid with
    | false => rfl
    | true =>
        have busy := (behind taken).2
        simp [csrBusy, valid', csr'] at busy
  exEbreak valid ebreak := by
    rw [exMem] at ebreak ⊢
    exact exException_of_ebreak ebreak
  wbEbreak valid ebreak := by
    rw [memWb] at valid ebreak ⊢
    rw [accessed_exception fine valid]
    exact wf.exEbreak valid ebreak
  exMtvec valid raised := by
    rw [exMem] at valid raised ⊢
    rw [mtvec (.inl valid)]
    exact exNextPc_of_exException raised
  wbMtvec valid raised := by
    rw [memWb] at valid raised ⊢
    rw [accessed_exception fine valid] at raised
    rw [accessed_nextPc fine, mtvec (.inr valid)]
    exact wf.exMtvec valid raised

/-- MEM waits with an instruction that raised nothing: WB becomes empty, and EX keeps its
instruction or loses it. -/
theorem Wf.hold {p : Pipeline} {i : PipelineIn} (wf : p.Wf) (waits : p.memAccessWait i = true)
    {q : Pipeline} (exMem : q.exMem = p.exMem) (memWb : q.memWb = p.memWb.clear)
    (idEx : q.idEx.valid = true → q.idEx = p.idEx) : q.Wf := by
  obtain ⟨valid, clean, -⟩ := memAccessWait_valid waits
  have noWb : q.memWb.valid = false := by simp [memWb]
  constructor
  case idEx =>
    intro held
    have same := idEx held
    rw [same] at held ⊢
    exact wf.idEx held
  case exMem =>
    intro _
    rw [exMem]
    exact wf.exMem valid
  case exCsr =>
    rw [exMem]
    intro _ csr
    by_contra held
    rw [Bool.not_eq_false] at held
    have same := idEx held
    rw [same, wf.exCsr valid csr] at held
    contradiction
  case exEbreak =>
    intro _
    rw [exMem]
    exact wf.exEbreak valid
  case exTrap | exMtvec =>
    intro _ raised
    rw [exMem, clean] at raised
    contradiction
  case memWb | wbTrap | wbCsr | wbEbreak | wbMtvec =>
    intro held
    rw [noWb] at held
    contradiction

theorem Wf.next {p : Pipeline} (wf : p.Wf) (i : PipelineIn) : (p.next i).Wf := by
  have mtvec : p.idEx.valid = true ∨ p.exMem.valid = true →
      (p.next i).csrFile.mtvec = p.csrFile.mtvec := fun busy => by rw [wf.csrFile_of_busy i busy]
  cases step_cases p i with
  | halt halts ifId idEx exMem memWb pc =>
      constructor <;> intro valid <;> simp [idEx, exMem, memWb] at valid
  | trap runs faults ifId idEx exMem memWb pc =>
      have valid : p.exMem.valid = true := ((memRedirect_iff p i).mp faults).1
      have raises : p.memNewException i = true := faults
      constructor
      case idEx => intro valid; simp [idEx] at valid
      case exMem => intro valid; simp [exMem] at valid
      case memWb => intro _; rw [memWb]; exact accessed_decoded (wf.exMem valid) i
      case exTrap => intro valid; simp [exMem] at valid
      case wbTrap => intro _ _; simp [idEx, exMem]
      case exCsr => intro valid; simp [exMem] at valid
      case wbCsr => intro _ _; simp [idEx, exMem]
      case exEbreak => intro valid; simp [exMem] at valid
      case wbEbreak =>
        intro _ _
        rw [memWb]
        simp only [memNewException, Bool.and_eq_true] at raises
        exact raises.2
      case exMtvec => intro valid; simp [exMem] at valid
      case wbMtvec =>
        intro _ _
        rw [memWb, mtvec (.inr valid)]
        simp [accessed, raises]
  | redirect runs fine redirects goes ifId idEx exMem memWb pc =>
      exact wf.advance fine exMem memWb mtvec (by simp [idEx]) (by simp [ifId, idEx])
        (by simp [idEx])
  | lost runs fine redirects waits ifId idEx exMem memWb pc =>
      exact wf.hold waits exMem memWb (by simp [idEx])
  | wait runs fine straight waits ifId idEx exMem memWb pc =>
      exact wf.hold waits exMem memWb (fun _ => idEx)
  | stall runs fine straight goes stalls ifId idEx exMem memWb pc =>
      refine wf.advance fine exMem memWb mtvec (by simp [idEx]) ?_ (by simp [idEx])
      intro valid raises
      rw [exRedirect_of_exException valid raises] at straight
      contradiction
  | flow runs fine straight goes ready ifId idEx exMem memWb pc =>
      refine wf.advance fine exMem memWb mtvec (fun _ => idEx ▸ decoded_decoded p) ?_ ?_
      · intro valid raises
        rw [exRedirect_of_exException valid raises] at straight
        contradiction
      · intro valid
        rw [idEx] at valid
        refine ⟨valid, ?_⟩
        cases busy : p.csrBusy with
        | false => rfl
        | true => rw [csrStall_idle ready busy] at valid; contradiction

/-- The invariant over every run from reset, in every environment. -/
theorem wf_run (p : Pipeline) (ins : Nat → PipelineIn) (n : Nat) : (p.reset.run ins n).Wf := by
  induction n with
  | zero => exact wf_reset p
  | succ n wf => exact wf.next (ins n)

/-- An instruction leaves MEM when it does not wait, and when it faults. -/
theorem exMem_moves {p : Pipeline} {i : PipelineIn} (wf : p.Wf) (valid : p.exMem.valid = true)
    (moves : p.memAccessWait i = false ∨ p.memRedirect i = true) :
    (p.next i).memWb = p.accessed i := by
  have held (waits : p.memAccessWait i = true) (fine : p.memRedirect i = false) : False := by
    rcases moves with goes | faults
    · simp [goes] at waits
    · simp [faults] at fine
  cases step_cases p i with
  | halt halts =>
      obtain ⟨wb, raised, -⟩ := wbWillHalt_valid halts
      rw [(wf.wbTrap wb raised).2] at valid
      contradiction
  | trap _ _ _ _ _ memWb => exact memWb
  | redirect _ _ _ _ _ _ _ memWb => exact memWb
  | lost _ fine _ waits => exact (held waits fine).elim
  | wait _ fine _ waits => exact (held waits fine).elim
  | stall _ _ _ _ _ _ _ _ memWb => exact memWb
  | flow _ _ _ _ _ _ _ _ memWb => exact memWb

/-- MEM holds an instruction that raised in EX or makes no data access for one cycle. -/
theorem exMem_passes {p : Pipeline} {i : PipelineIn} (wf : p.Wf) (valid : p.exMem.valid = true)
    (plain : p.exMem.exception = true ∨ (p.exMem.memRead = false ∧ p.exMem.memWrite = false)) :
    (p.next i).memWb = p.accessed i := by
  apply exMem_moves wf valid
  left
  by_contra waits
  obtain ⟨-, clean, access⟩ := memAccessWait_valid (Bool.not_eq_false _ |>.mp waits)
  rcases plain with raised | ⟨noRead, noWrite⟩
  · rw [clean] at raised
    contradiction
  · simp [noRead, noWrite] at access

/-! ## The fetch registers -/

/-- A pending fetch asks for `pc` and leaves IF/ID empty. -/
structure FetchWf (p : Pipeline) : Prop where
  addr : p.fetchPending = true → p.fetchPc = p.pc
  empty : p.fetchPending = true → p.ifId.valid = false

theorem FetchWf.reqFetchAddr {p : Pipeline} (wf : p.FetchWf) : p.reqFetchAddr = p.pc := by
  cases pending : p.fetchPending with
  | true => simp [Pipeline.reqFetchAddr, pending, wf.addr pending]
  | false => simp [Pipeline.reqFetchAddr, pending]

theorem fetchWf_resetAt (p : Pipeline) (vector : Word) : (p.resetAt vector).FetchWf := by
  constructor <;> intro pending <;> simp [resetAt, reset] at pending

/-- A fetch is pending after an edge only if nothing moved `pc`. -/
theorem next_fetchPending {p : Pipeline} {i : PipelineIn}
    (pending : (p.next i).fetchPending = true) :
    p.wbWillHalt = false ∧ p.memRedirect i = false ∧ p.exRedirect = false ∧
      p.fetchCapture i = false ∧ (p.fetchCanStart i = true ∨ p.fetchPending = true) := by
  have next : p.nextFetchPending i = true := pending
  unfold nextFetchPending at next
  split_ifs at next with halts faults redirects captures starts
  · exact ⟨by simpa using halts, by simpa using faults, by simpa using redirects,
      by simpa using captures, .inl starts⟩
  · exact ⟨by simpa using halts, by simpa using faults, by simpa using redirects,
      by simpa using captures, .inr next⟩

theorem FetchWf.next {p : Pipeline} (wf : p.FetchWf) (i : PipelineIn) : (p.next i).FetchWf where
  addr pending := by
    obtain ⟨halts, faults, redirects, captures, starts⟩ := next_fetchPending pending
    show p.nextFetchPc i = p.nextPc i
    simp only [nextFetchPc, nextPc, halts, faults, redirects, captures]
    rcases starts with starts | waiting
    · simp [starts]
    · simp [wf.addr waiting]
  empty pending := by
    obtain ⟨halts, faults, redirects, captures, starts⟩ := next_fetchPending pending
    show (p.nextIfId i).valid = false
    simp only [nextIfId, halts, faults, redirects, captures]
    rcases starts with starts | waiting
    · cases valid : p.ifId.valid with
      | false => simp [valid]
      | true =>
          have ready : p.idStall i = false :=
            (ifIdAccept_of_valid (fetchCanStart_accepts starts) valid).1
          simp [ready]
    · simp [wf.empty waiting]

theorem fetchWf_run_resetAt (p : Pipeline) (vector : Word) (ins : Nat → PipelineIn) (n : Nat) :
    ((p.resetAt vector).run ins n).FetchWf := by
  induction n with
  | zero => exact fetchWf_resetAt p vector
  | succ n wf => exact wf.next (ins n)

theorem fetchWf_run (p : Pipeline) (ins : Nat → PipelineIn) (n : Nat) :
    (p.reset.run ins n).FetchWf :=
  fetchWf_run_resetAt p resetVector ins n

/-! ## Alignment -/

/-- Every pc that the pipeline holds is a multiple of four. -/
structure Aligned (p : Pipeline) : Prop where
  pc : misaligned4 p.pc = false
  ifId : p.ifId.valid = true → misaligned4 p.ifId.pc = false
  idEx : p.idEx.valid = true → misaligned4 p.idEx.pc = false
  exMem : p.exMem.valid = true → misaligned4 p.exMem.pc = false
  memWb : p.memWb.valid = true → misaligned4 p.memWb.pc = false
  mtvec : misaligned4 p.csrFile.mtvec = false
  mepc : misaligned4 p.csrFile.mepc = false

theorem aligned_resetAt (p : Pipeline) {vector : Word} (multiple : misaligned4 vector = false) :
    (p.resetAt vector).Aligned where
  pc := multiple
  ifId valid := by simp [resetAt, reset] at valid
  idEx valid := by simp [resetAt, reset] at valid
  exMem valid := by simp [resetAt, reset] at valid
  memWb valid := by simp [resetAt, reset] at valid
  mtvec := rfl
  mepc := rfl

theorem write_mtvec_aligned {c : CsrFile} (aligned : misaligned4 c.mtvec = false)
    (addr : BitVec 12) (data : Word) : misaligned4 (c.write addr data).mtvec = false := by
  unfold CsrFile.write
  split_ifs <;> first | exact aligned | exact misaligned4_mask data

theorem write_mepc_aligned {c : CsrFile} (aligned : misaligned4 c.mepc = false)
    (addr : BitVec 12) (data : Word) : misaligned4 (c.write addr data).mepc = false := by
  unfold CsrFile.write
  split_ifs <;> first | exact aligned | exact misaligned4_mask data

/-- EX never redirects to a misaligned pc: a misaligned target is an exception. -/
theorem Aligned.exNextPc {p : Pipeline} (aligned : p.Aligned)
    (redirects : p.exRedirect = true) : misaligned4 p.exNextPc = false := by
  unfold Pipeline.exNextPc
  have silent : p.exException ≠ true → p.exFault = none := by simp [exException]
  split_ifs with raises mret jump taken
  · exact aligned.mtvec
  · exact aligned.mepc
  · cases off : misaligned4 p.exJumpTarget with
    | false => rfl
    | true =>
        have clean := silent raises
        have off' : p.exJumpTargetMisaligned = true := off
        unfold exFault at clean
        split_ifs at clean with _ _ _ _ target
        simp [jump, off'] at target
  · cases off : misaligned4 p.exBranchTarget with
    | false => rfl
    | true =>
        have clean := silent raises
        have off' : p.exBranchTargetMisaligned = true := by
          unfold exBranchTargetMisaligned branchTargetMisaligned
          simp only [Bool.and_eq_true]
          exact ⟨taken, off⟩
        unfold exFault at clean
        split_ifs at clean
  · simp_all [exRedirect]

/-- What IF/ID holds when nothing clears it is fetched from an aligned pc. -/
theorem Aligned.fetched {p : Pipeline} (aligned : p.Aligned) (wf : p.FetchWf) (i : PipelineIn)
    (valid : (p.fetched i).valid = true) : misaligned4 (p.fetched i).pc = false := by
  unfold Pipeline.fetched at valid ⊢
  split_ifs at valid ⊢
  · rw [wf.reqFetchAddr]
    exact aligned.pc
  · simp at valid
  · exact aligned.ifId valid

theorem Aligned.straight {p : Pipeline} (aligned : p.Aligned) (wf : p.FetchWf) (i : PipelineIn) :
    misaligned4 (if p.fetchCapture i then p.reqFetchAddr + 4#32 else p.pc) = false := by
  split_ifs
  · rw [misaligned4_add_four, wf.reqFetchAddr]
    exact aligned.pc
  · exact aligned.pc

theorem Aligned.next_mtvec {p : Pipeline} (aligned : p.Aligned) (i : PipelineIn) :
    misaligned4 (p.next i).csrFile.mtvec = false := by
  rw [next_csrFile, CsrFile.next]
  split_ifs
  · exact aligned.mtvec
  · exact write_mtvec_aligned aligned.mtvec _ _
  · exact aligned.mtvec

theorem Aligned.next_mepc {p : Pipeline} (aligned : p.Aligned) (i : PipelineIn) :
    misaligned4 (p.next i).csrFile.mepc = false := by
  rw [next_csrFile, CsrFile.next]
  split_ifs with traps
  · simp only [csrWrite, Bool.and_eq_true] at traps
    exact aligned.memWb traps.1
  · exact write_mepc_aligned aligned.mepc _ _
  · exact aligned.mepc

theorem Aligned.next {p : Pipeline} (aligned : p.Aligned) (wf : p.FetchWf) (i : PipelineIn) :
    (p.next i).Aligned := by
  have fetched := aligned.fetched wf i
  have straight := aligned.straight wf i
  have mtvec := aligned.next_mtvec i
  have mepc := aligned.next_mepc i
  have decoded : p.decoded.valid = true → misaligned4 p.decoded.pc = false := aligned.ifId
  have executed : p.executed.valid = true → misaligned4 p.executed.pc = false := aligned.idEx
  have accessed : (p.accessed i).valid = true → misaligned4 (p.accessed i).pc = false :=
    aligned.exMem
  cases step_cases p i with
  | halt _ ifId idEx exMem memWb pc =>
      exact ⟨pc ▸ aligned.pc, by simp [ifId], by simp [idEx], by simp [exMem], by simp [memWb],
        mtvec, mepc⟩
  | trap _ _ ifId idEx exMem memWb pc =>
      exact ⟨pc ▸ aligned.mtvec, by simp [ifId], by simp [idEx], by simp [exMem],
        memWb ▸ accessed, mtvec, mepc⟩
  | redirect _ _ redirects _ ifId idEx exMem memWb pc =>
      exact ⟨pc ▸ aligned.exNextPc redirects, by simp [ifId], by simp [idEx], exMem ▸ executed,
        memWb ▸ accessed, mtvec, mepc⟩
  | lost _ _ redirects _ ifId idEx exMem memWb pc =>
      exact ⟨pc ▸ aligned.exNextPc redirects, by simp [ifId], by simp [idEx],
        exMem ▸ aligned.exMem, by simp [memWb], mtvec, mepc⟩
  | wait _ _ _ _ ifId idEx exMem memWb pc =>
      exact ⟨pc ▸ straight, ifId ▸ fetched, idEx ▸ aligned.idEx, exMem ▸ aligned.exMem,
        by simp [memWb], mtvec, mepc⟩
  | stall _ _ _ _ _ ifId idEx exMem memWb pc =>
      exact ⟨pc ▸ straight, ifId ▸ fetched, by simp [idEx], exMem ▸ executed, memWb ▸ accessed,
        mtvec, mepc⟩
  | flow _ _ _ _ _ ifId idEx exMem memWb pc =>
      exact ⟨pc ▸ straight, ifId ▸ fetched, idEx ▸ decoded, exMem ▸ executed, memWb ▸ accessed,
        mtvec, mepc⟩

theorem aligned_run_resetAt (p : Pipeline) {vector : Word} (multiple : misaligned4 vector = false)
    (ins : Nat → PipelineIn) (n : Nat) : ((p.resetAt vector).run ins n).Aligned := by
  induction n with
  | zero => exact aligned_resetAt p multiple
  | succ n aligned => exact aligned.next (fetchWf_run_resetAt p vector ins n) (ins n)

theorem aligned_run (p : Pipeline) (ins : Nat → PipelineIn) (n : Nat) :
    (p.reset.run ins n).Aligned :=
  aligned_run_resetAt p (by decide) ins n

end Pipeline

end NpcMachine.Rtl
