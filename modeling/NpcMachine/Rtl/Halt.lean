/-
# Rtl.Halt -- entering the halted state and staying in it

`wb_will_halt` reads an EBREAK bit that the decoder set from the fetched word; the
cause beside it says what really happened.  The two disagree on an instruction whose
fetch failed and whose leftover word encodes EBREAK.  Once halted, nothing asks for
an instruction any more, but the I-cache may still answer: the pulse of a fill that
was under way is captured and commits.

* `haltsOnBreakpoint_iff`: the core halts on breakpoints only, exactly in the runs
  in which no such faulted EBREAK passes from EX to MEM;
* `silentAfter_iff`: it stays silent after a halt exactly when no fill fails any more.
-/
import NpcMachine.Rtl.CoreRun
import NpcMachine.Rtl.RedirectCommit

namespace NpcMachine.Rtl

set_option autoImplicit false

namespace Pipeline

/-- An instruction passes from EX to MEM whose fetch failed and whose word is EBREAK. -/
def faultedEbreak (p : Pipeline) (i : PipelineIn) : Bool :=
  p.exAdvances i && p.idEx.fetchFault && p.idEx.ctl.ebreak

/-! ## The cause beside the EBREAK bit -/

/-- The cause of an EBREAK whose fetch was good. -/
theorem exFault_of_ebreak {p : Pipeline} (decoded : p.idEx.Decoded)
    (ebreak : p.idEx.ctl.ebreak = true) (aligned : misaligned4 p.idEx.pc = false)
    (noFault : p.idEx.fetchFault = false) (noMisaligned : p.idEx.fetchMisaligned = false) :
    p.exFault = some causeBreakpoint := by
  have word : (decoder p.idEx.inst).ebreak = true := by
    rw [← decoded.ctl]
    exact ebreak
  obtain ⟨legal, noRd, noRs1, noRs2, noCsr, noJump, noBranch, noEcall⟩ := decoder_of_ebreak word
  have straight : p.exBranchTargetMisaligned = false := by
    simp [exBranchTargetMisaligned, branchTargetMisaligned, decoded.ctl, noBranch, branchTaken]
  simp [exFault, aligned, noFault, noMisaligned, straight, idExReservedRd, idExReservedRs1,
    idExReservedRs2, idExCsrIllegal, decoded.ctl, legal, noRd, noRs1, noRs2, noCsr, noJump,
    noEcall, word]

theorem exFault_of_fetchFault {p : Pipeline} (aligned : misaligned4 p.idEx.pc = false)
    (fault : p.idEx.fetchFault = true) : p.exFault = some causeInstAccessFault := by
  simp [exFault, aligned, fault]

theorem accessed_cause {p : Pipeline} (i : PipelineIn) (raised : p.exMem.exception = true) :
    (p.accessed i).exception = true ∧ (p.accessed i).cause = p.exMem.cause := by
  simp [accessed, memException, memCause, memFault, raised]

/-- Beside the EBREAK bit MEM and WB hold the breakpoint cause. -/
structure BreakpointCause (p : Pipeline) : Prop where
  ifId : p.ifId.valid = true → p.ifId.fetchMisaligned = false
  idEx : p.idEx.valid = true → p.idEx.fetchMisaligned = false
  exMem : p.exMem.valid = true → p.exMem.ebreak = true → p.exMem.cause = causeBreakpoint
  memWb : p.memWb.valid = true → p.memWb.ebreak = true → p.memWb.cause = causeBreakpoint

theorem breakpointCause_reset (p : Pipeline) : p.reset.BreakpointCause := by
  constructor <;> intro valid <;> simp [reset] at valid

theorem BreakpointCause.next {p : Pipeline} (causes : p.BreakpointCause) (wf : p.Wf)
    (aligned : p.Aligned) {i : PipelineIn} (noMisaligned : i.respFetchMisaligned = false)
    (good : p.faultedEbreak i = false) : (p.next i).BreakpointCause := by
  have fetched : (p.fetched i).valid = true → (p.fetched i).fetchMisaligned = false := by
    unfold Pipeline.fetched
    split_ifs
    · exact fun _ => noMisaligned
    · exact fun valid => absurd valid (by simp)
    · exact causes.ifId
  have decoded : p.decoded.valid = true → p.decoded.fetchMisaligned = false := causes.ifId
  have accessed : (p.accessed i).valid = true → (p.accessed i).ebreak = true →
      (p.accessed i).cause = causeBreakpoint := by
    intro valid ebreak
    rw [(accessed_cause i (wf.exEbreak valid ebreak)).2]
    exact causes.exMem valid ebreak
  have executed : p.memAccessWait i = false → p.memRedirect i = false → p.wbWillHalt = false →
      p.executed.valid = true → p.executed.ebreak = true →
      p.executed.cause = causeBreakpoint := by
    intro goes fine runs valid ebreak
    have held : p.idEx.valid = true := valid
    have bit : p.idEx.ctl.ebreak = true := ebreak
    have noFault : p.idEx.fetchFault = false := by
      simpa [faultedEbreak, exAdvances, held, goes, fine, runs, bit] using good
    show p.exFault.getD 0#32 = causeBreakpoint
    rw [exFault_of_ebreak (wf.idEx held) bit (aligned.idEx held) noFault (causes.idEx held)]
    rfl
  cases step_cases p i with
  | halt halts ifId idEx exMem memWb =>
      constructor <;> intro valid <;> simp [ifId, idEx, exMem, memWb] at valid
  | trap runs faults ifId idEx exMem memWb =>
      exact ⟨by simp [ifId], by simp [idEx], by simp [exMem], memWb ▸ accessed⟩
  | redirect runs fine redirects goes ifId idEx exMem memWb =>
      exact ⟨by simp [ifId], by simp [idEx], exMem ▸ executed goes fine runs, memWb ▸ accessed⟩
  | lost runs fine redirects waits ifId idEx exMem memWb =>
      exact ⟨by simp [ifId], by simp [idEx], exMem ▸ causes.exMem, by simp [memWb]⟩
  | wait runs fine straight waits ifId idEx exMem memWb =>
      exact ⟨ifId ▸ fetched, idEx ▸ causes.idEx, exMem ▸ causes.exMem, by simp [memWb]⟩
  | stall runs fine straight goes stalls ifId idEx exMem memWb =>
      exact ⟨ifId ▸ fetched, by simp [idEx], exMem ▸ executed goes fine runs, memWb ▸ accessed⟩
  | flow runs fine straight goes ready ifId idEx exMem memWb =>
      exact ⟨ifId ▸ fetched, idEx ▸ decoded, exMem ▸ executed goes fine runs, memWb ▸ accessed⟩

end Pipeline

/-! ## Entering the halted state -/

/-- The core halts only with a committed breakpoint. -/
structure HaltsOnBreakpoint (c : Core) (ins : Nat → AxiIn) : Prop where
  enters : ∀ n, (c.run ins n).pipeline.halted = false →
    (c.run ins (n + 1)).pipeline.halted = true →
    (c.run ins n).pipeline.commitValid = true ∧ (c.run ins n).pipeline.commitException = true ∧
      (c.run ins n).pipeline.commitCause = causeBreakpoint
  /-- A commit that is no breakpoint does not halt, and an exception goes to `mtvec`. -/
  others : ∀ n, (c.run ins n).pipeline.commitValid = true →
    ¬ ((c.run ins n).pipeline.commitException = true ∧
      (c.run ins n).pipeline.commitCause = causeBreakpoint) →
    (c.run ins n).pipeline.wbWillHalt = false ∧
      ((c.run ins n).pipeline.commitException = true →
        (c.run ins n).pipeline.commitNextPc = (c.run ins n).pipeline.csrFile.mtvec)

theorem breakpointCause_run (c : Core) (ins : Nat → AxiIn)
    (good : ∀ n, (c.reset.run ins n).pipeline.faultedEbreak (c.reset.pipelineFeed ins n) = false)
    (n : Nat) : (c.reset.run ins n).pipeline.BreakpointCause := by
  induction n with
  | zero => exact Pipeline.breakpointCause_reset c.pipeline
  | succ n causes =>
      have aligned := Core.aligned_run c ins n
      exact causes.next (Core.wf_run c ins n) aligned
        (Core.respMisaligned_of_aligned (Core.fetchWf_run c ins n) aligned (ins n)) (good n)

/-- A faulted EBREAK that passes EX halts the core two edges later, with the cause of
an access fault. -/
theorem faultedEbreak_halts (c : Core) (ins : Nat → AxiIn) (n : Nat)
    (faulted : (c.reset.run ins n).pipeline.faultedEbreak (c.reset.pipelineFeed ins n) = true) :
    (c.reset.run ins (n + 2)).pipeline.wbWillHalt = true ∧
      (c.reset.run ins (n + 2)).pipeline.commitCause = causeInstAccessFault := by
  simp only [Pipeline.faultedEbreak, Bool.and_eq_true] at faulted
  obtain ⟨⟨advances, fault⟩, ebreak⟩ := faulted
  have valid := (Pipeline.exAdvances_iff.mp advances).1
  have raises := Pipeline.exFault_of_fetchFault ((Core.aligned_run c ins n).idEx valid) fault
  have exMem : (c.reset.run ins (n + 1)).pipeline.exMem =
      (c.reset.run ins n).pipeline.executed := (Pipeline.next_of_exAdvances advances).1
  have held : (c.reset.run ins (n + 1)).pipeline.exMem.valid = true := by
    rw [exMem]
    exact valid
  have raised : (c.reset.run ins (n + 1)).pipeline.exMem.exception = true := by
    rw [exMem]
    show (c.reset.run ins n).pipeline.exFault.isSome = true
    rw [raises]
    rfl
  have memWb : (c.reset.run ins (n + 2)).pipeline.memWb =
      (c.reset.run ins (n + 1)).pipeline.accessed (c.reset.pipelineFeed ins (n + 1)) :=
    Pipeline.exMem_passes (Core.wf_run c ins (n + 1)) held (Or.inl raised)
  have wb := Pipeline.accessed_cause (c.reset.pipelineFeed ins (n + 1)) raised
  constructor
  · simp only [Pipeline.wbWillHalt, memWb, wb.1, Bool.and_true, Bool.and_eq_true]
    refine ⟨held, ?_⟩
    show (c.reset.run ins (n + 1)).pipeline.exMem.ebreak = true
    rw [exMem]
    exact ebreak
  · rw [Pipeline.commitCause, memWb, wb.2, exMem]
    show (c.reset.run ins n).pipeline.exFault.getD 0#32 = causeInstAccessFault
    rw [raises]
    rfl

/-- With any AXI slave: the core halts on breakpoints only, exactly in the runs in
which no EBREAK word with a failed fetch passes from EX to MEM. -/
theorem haltsOnBreakpoint_iff (c : Core) (ins : Nat → AxiIn) :
    HaltsOnBreakpoint c.reset ins ↔
      ∀ n, (c.reset.run ins n).pipeline.faultedEbreak (c.reset.pipelineFeed ins n) = false := by
  constructor
  · intro halts n
    by_contra faulted
    rw [Bool.not_eq_false] at faulted
    obtain ⟨halted, cause⟩ := faultedEbreak_halts c ins n faulted
    have commit : (c.reset.run ins (n + 2)).pipeline.commitValid = true :=
      (Pipeline.wbWillHalt_valid halted).1
    have other := halts.others (n + 2) commit (by
      rintro ⟨-, breakpoint⟩
      rw [cause] at breakpoint
      exact absurd breakpoint (by decide))
    rw [halted] at other
    exact absurd other.1 (by simp)
  · intro good
    have causes := breakpointCause_run c ins good
    have halting : ∀ n, (c.reset.run ins n).pipeline.wbWillHalt = true →
        (c.reset.run ins n).pipeline.commitValid = true ∧
          (c.reset.run ins n).pipeline.commitException = true ∧
          (c.reset.run ins n).pipeline.commitCause = causeBreakpoint := by
      intro n halts
      obtain ⟨valid, raised, ebreak⟩ := Pipeline.wbWillHalt_valid halts
      exact ⟨valid, raised, (causes n).memWb valid ebreak⟩
    constructor
    · intro n before after
      apply halting n
      have next : (c.reset.run ins n).pipeline.nextHalted = true := after
      by_contra runs
      simp [Pipeline.nextHalted, runs, before] at next
    · intro n commit other
      constructor
      · by_contra halts
        rw [Bool.not_eq_false] at halts
        exact other (halting n halts).2
      · intro raised
        exact (Core.wf_run c ins n).wbMtvec commit raised

/-! Every beat of the first fill is an error and carries the EBREAK word. -/

def faultedEbreakBeats (n : Nat) : AxiIn :=
  { nopBeats with rresp := axrespSlverr, rdata := 0x00100073#32, rlast := n == 6 }

/-- The access fault commits in cycle 11 and halts the core. -/
theorem faultedEbreakBeats_halt : ¬ HaltsOnBreakpoint (default : Core).reset faultedEbreakBeats := by
  intro halts
  have entered := halts.enters 11 (by decide +kernel) (by decide +kernel)
  have cause : ((default : Core).reset.run faultedEbreakBeats 11).pipeline.commitCause =
      causeInstAccessFault := by decide +kernel
  rw [cause] at entered
  exact absurd entered.2.2 (by decide)

/-! ## Staying in the halted state -/

/-- After cycle `h` nothing commits and nothing changes. -/
structure SilentAfter (c : Core) (ins : Nat → AxiIn) (h : Nat) : Prop where
  commits : ∀ n, h < n → (c.run ins n).pipeline.commitValid = false
  regfile : ∀ n, h < n →
    (c.run ins n).pipeline.regfile = (c.run ins (h + 1)).pipeline.regfile
  csrFile : ∀ n, h < n →
    (c.run ins n).pipeline.csrFile = (c.run ins (h + 1)).pipeline.csrFile
  clint : ∀ n, h < n → (c.run ins n).pipeline.clint = (c.run ins (h + 1)).pipeline.clint
  writes : ∀ n, h < n → (c.run ins n).axiOut.awvalid = false

namespace Pipeline

/-- Halted with every stage empty and no fetch pending. -/
structure Quiescent (p : Pipeline) : Prop where
  halted : p.halted = true
  fetchPending : p.fetchPending = false
  ifId : p.ifId.valid = false
  back : p.BackEmpty

theorem quiescent_of_halt {p : Pipeline} (halts : p.wbWillHalt = true) (i : PipelineIn) :
    (p.next i).Quiescent := by
  have halted : (p.next i).halted = true := by simp [next, nextHalted, halts]
  have pending : (p.next i).fetchPending = false := by simp [next, nextFetchPending, halts]
  cases step_cases p i with
  | halt _ ifId idEx exMem memWb =>
      exact ⟨halted, pending, by simp [ifId], ⟨by simp [idEx], by simp [exMem], by simp [memWb]⟩⟩
  | trap runs => simp [halts] at runs
  | redirect runs => simp [halts] at runs
  | lost runs => simp [halts] at runs
  | wait runs => simp [halts] at runs
  | stall runs => simp [halts] at runs
  | flow runs => simp [halts] at runs

theorem Quiescent.noRequest {p : Pipeline} (quiet : p.Quiescent) (i : PipelineIn) :
    p.reqFetchValid i = false := by
  simp [reqFetchValid, fetchCanStart, quiet.halted, quiet.fetchPending]

/-- A quiescent pipeline captures whatever answers. -/
theorem Quiescent.fetchCapture {p : Pipeline} (quiet : p.Quiescent) (i : PipelineIn) :
    p.fetchCapture i = i.respFetchValid := by
  obtain ⟨runs, -, straight, -, -⟩ := quiet.back.control i
  simp [Pipeline.fetchCapture, ifIdAccept, quiet.ifId, straight, runs]

theorem Quiescent.next {p : Pipeline} (quiet : p.Quiescent) {i : PipelineIn}
    (silent : i.respFetchValid = false) :
    (p.next i).Quiescent ∧ (p.next i).regfile = p.regfile ∧
      (p.next i).csrFile = p.csrFile ∧ (p.next i).clint = p.clint := by
  obtain ⟨runs, fine, straight, goes, -⟩ := quiet.back.control i
  obtain ⟨ifId, idEx, exMem, memWb⟩ := quiet.back.next i
  have noCapture : p.fetchCapture i = false := by rw [quiet.fetchCapture, silent]
  have noStart : p.fetchCanStart i = false := by simp [fetchCanStart, quiet.halted]
  refine ⟨⟨?_, ?_, ?_, ?_, exMem, memWb⟩, ?_, ?_, ?_⟩
  · simp [Pipeline.next, nextHalted, quiet.halted]
  · simp [Pipeline.next, nextFetchPending, runs, fine, straight, noCapture, noStart,
      quiet.fetchPending]
  · simp [ifId, Pipeline.fetched, noCapture, quiet.ifId]
  · rw [idEx]
    exact quiet.ifId
  · simp [regWen, quiet.back.memWb]
  · simp [CsrFile.next, csrWrite, quiet.back.memWb]
  · simp [Pipeline.next, Clint.next, commitValid, quiet.back.memWb]

end Pipeline

/-- To a pipeline that asks for nothing the I-cache answers with the pulse only. -/
theorem respFetchValid_of_quiescent {c : Core} (quiet : c.pipeline.Quiescent) (i : AxiIn) :
    (c.pipelineIn i).respFetchValid = c.icache.faultRespValid := by
  have noLookup : (c.icacheIn i).lookupValid = false := quiet.noRequest _
  show c.icache.respValid (c.icacheIn i) = _
  simp [Icache.respValid, Icache.respMisaligned, Icache.hit, noLookup]

/-- Halted, with nothing held, no fill under way and no answer to come. -/
structure Core.Asleep (c : Core) : Prop where
  quiet : c.pipeline.Quiescent
  icache : c.icache.state = .idle
  silent : c.icache.faultRespValid = false

/-- Such a core stays as it is with any slave. -/
theorem Core.Asleep.next {c : Core} (asleep : c.Asleep) (i : AxiIn) : (c.next i).Asleep := by
  have noLookup : (c.icacheIn i).lookupValid = false := asleep.quiet.noRequest _
  have answered := respFetchValid_of_quiescent asleep.quiet i
  rw [asleep.silent] at answered
  have state : (c.next i).icache.state = .idle := by
    show (c.icache.next (c.icacheIn i)).state = .idle
    simp [Icache.next, asleep.icache, Icache.nextIdle, noLookup]
  have silent : (c.next i).icache.faultRespValid = false := by
    rw [Core.next_faultRespValid]
    simp [Core.fillFails, Icache.fillFails, asleep.icache]
  exact ⟨(asleep.quiet.next answered).1, state, silent⟩

/-- Up to the first failing fill a halted core keeps its state. -/
theorem quiescent_until (c : Core) (ins : Nat → AxiIn) {h : Nat}
    (halts : (c.run ins h).pipeline.wbWillHalt = true) (m : Nat)
    (good : ∀ k, k < m → (c.run ins (h + k)).fillFails (ins (h + k)) = false) :
    (c.run ins (h + 1 + m)).pipeline.Quiescent ∧
      (c.run ins (h + 1 + m)).pipeline.regfile = (c.run ins (h + 1)).pipeline.regfile ∧
      (c.run ins (h + 1 + m)).pipeline.csrFile = (c.run ins (h + 1)).pipeline.csrFile ∧
      (c.run ins (h + 1 + m)).pipeline.clint = (c.run ins (h + 1)).pipeline.clint := by
  induction m with
  | zero => exact ⟨Pipeline.quiescent_of_halt halts _, rfl, rfl, rfl⟩
  | succ m ih =>
      obtain ⟨quiet, regfile, csrFile, clint⟩ := ih fun k less => good k (Nat.lt_succ_of_lt less)
      have pulse : (c.run ins (h + 1 + m)).icache.faultRespValid = false := by
        rw [show h + 1 + m = h + m + 1 by omega, Core.run_succ, Core.next_faultRespValid]
        exact good m (Nat.lt_succ_self m)
      have silent := respFetchValid_of_quiescent quiet (ins (h + 1 + m))
      rw [pulse] at silent
      have next := quiet.next silent
      exact ⟨next.1, next.2.1.trans regfile, next.2.2.1.trans csrFile, next.2.2.2.trans clint⟩

/-- The pulse of a fill that fails after the halt commits as an instruction. -/
theorem pulse_commits (c : Core) (ins : Nat → AxiIn) {n : Nat}
    (quiet : (c.reset.run ins n).pipeline.Quiescent)
    (pulse : (c.reset.run ins n).icache.faultRespValid = true) :
    (c.reset.run ins (n + 4)).pipeline.commitValid = true := by
  have answered := respFetchValid_of_quiescent quiet (ins n)
  rw [pulse] at answered
  have captures := (quiet.fetchCapture _).trans answered
  obtain ⟨ifId, idEx, exMem, memWb⟩ := quiet.back.next ((c.reset.run ins n).pipelineIn (ins n))
  -- IF/ID holds the faulted fetch, and nothing is ahead of it.
  have fetched : (c.reset.run ins (n + 1)).pipeline.ifId.valid = true ∧
      (c.reset.run ins (n + 1)).pipeline.ifId.fetchFault = true := by
    have loaded : (c.reset.run ins (n + 1)).pipeline.ifId =
        (c.reset.run ins n).pipeline.fetched ((c.reset.run ins n).pipelineIn (ins n)) := ifId
    rw [loaded, Pipeline.fetched, if_pos captures]
    exact ⟨rfl, pulse⟩
  have back : (c.reset.run ins (n + 1)).pipeline.BackEmpty :=
    ⟨by rw [Core.run_succ]; exact (congrArg IdEx.valid idEx).trans quiet.ifId, exMem, memWb⟩
  obtain ⟨-, idEx', exMem', memWb'⟩ :=
    back.next ((c.reset.run ins (n + 1)).pipelineIn (ins (n + 1)))
  have decoded : (c.reset.run ins (n + 2)).pipeline.idEx =
      (c.reset.run ins (n + 1)).pipeline.decoded := idEx'
  have noMem : (c.reset.run ins (n + 2)).pipeline.exMem.valid = false := exMem'
  have noWb : (c.reset.run ins (n + 2)).pipeline.memWb.valid = false := memWb'
  -- EX raises the access fault, so the instruction redirects, and MEM is free.
  have valid : (c.reset.run ins (n + 2)).pipeline.idEx.valid = true := by
    rw [decoded]
    exact fetched.1
  have raises : (c.reset.run ins (n + 2)).pipeline.exException = true := by
    have fault : (c.reset.run ins (n + 2)).pipeline.idEx.fetchFault = true := by
      rw [decoded]
      exact fetched.2
    have aligned := (Core.aligned_run c ins (n + 2)).idEx valid
    simp [Pipeline.exException, Pipeline.exFault_of_fetchFault aligned fault]
  have redirects := Pipeline.exRedirect_of_exException valid raises
  rw [Core.pipeline_run_reset] at redirects noMem noWb ⊢
  refine (redirect_commits c.pipeline (c.reset.pipelineFeed ins) (n + 2) ?_ ?_).1
  · refine Pipeline.redirectApplied_iff.mpr ⟨redirects, ?_, ?_⟩
    · simp [Pipeline.memRedirect, Pipeline.memNewException, noMem]
    · simp [Pipeline.wbWillHalt, noWb]
  · simp [Pipeline.memAccessWait, noMem]

/-- With any AXI slave: after a halt the core stays silent exactly when no fill fails
in the halting cycle or later. -/
theorem silentAfter_iff (c : Core) (ins : Nat → AxiIn) (h : Nat)
    (halts : (c.reset.run ins h).pipeline.wbWillHalt = true) :
    SilentAfter c.reset ins h ↔
      ∀ n, h ≤ n → (c.reset.run ins n).fillFails (ins n) = false := by
  constructor
  · intro silent n
    -- The first failing fill meets a quiescent pipeline.
    induction n using Nat.strong_induction_on with
    | _ n earlier =>
        intro after
        by_contra fails
        rw [Bool.not_eq_false] at fails
        obtain ⟨m, rfl⟩ := Nat.exists_eq_add_of_le after
        have quiet := (quiescent_until c.reset ins halts m
          (fun k less => earlier (h + k) (by omega) (by omega))).1
        rw [show h + 1 + m = h + m + 1 by omega] at quiet
        have pulse : (c.reset.run ins (h + m + 1)).icache.faultRespValid = true := by
          rw [Core.run_succ, Core.next_faultRespValid]
          exact fails
        have commit := pulse_commits c ins quiet pulse
        rw [silent.commits (h + m + 1 + 4) (by omega)] at commit
        contradiction
  · intro good
    have quiet : ∀ n, h < n → _ := fun n after => by
      have kept := quiescent_until c.reset ins halts (n - (h + 1))
        (fun k _ => good (h + k) (by omega))
      rw [show h + 1 + (n - (h + 1)) = n by omega] at kept
      exact kept
    constructor
    · intro n after
      exact (quiet n after).1.back.memWb
    · intro n after
      exact (quiet n after).2.1
    · intro n after
      exact (quiet n after).2.2.1
    · intro n after
      exact (quiet n after).2.2.2
    · intro n after
      have noMem := (quiet n after).1.back.exMem
      simp [Core.axiOut, AxiMaster.out, AxiReq.dataStoreActive, Core.axiReq,
        Pipeline.reqStoreValid, LsuIn.reqStoreValid, Pipeline.lsu, noMem]

/-! EBREAK is the last word of its line; the fill of the next line is under way when
it commits in cycle 14. -/

def pendingFillBeats (bad : Bool) (n : Nat) : AxiIn :=
  { nopBeats with
    rdata := if n = 6 then 0x00100073#32 else 0x00000013#32
    rresp := if bad && decide (7 ≤ n) then axrespSlverr else axrespOkay
    rlast := n == 6 || n == 17 }

/-- The next line arrives without an error, and the core stays silent. -/
theorem pendingFillBeats_silent :
    SilentAfter (default : Core).reset (pendingFillBeats false) 14 :=
  (silentAfter_iff default (pendingFillBeats false) 14 (by decide +kernel)).mpr fun n _ =>
    Core.fillFails_of_noFault default (pendingFillBeats false) (fun _ => rfl) n

/-- The next line fails: the pulse commits in cycle 22 with the cause of an access
fault, after the core has halted. -/
theorem pendingFillBeats_commit :
    ((default : Core).reset.run (pendingFillBeats true) 14).pipeline.wbWillHalt = true ∧
      ((default : Core).reset.run (pendingFillBeats true) 14).pipeline.commitCause =
        causeBreakpoint ∧
      ¬ SilentAfter (default : Core).reset (pendingFillBeats true) 14 := by
  refine ⟨by decide +kernel, by decide +kernel, ?_⟩
  intro silent
  have commit : ((default : Core).reset.run (pendingFillBeats true) 22).pipeline.commitValid =
      true := by decide +kernel
  rw [silent.commits 22 (by omega)] at commit
  contradiction

end NpcMachine.Rtl
