/-
# Rtl.RedirectCommit -- what happens to an instruction that redirects the fetch

A redirect of EX clears ID/EX; a memory wait freezes EX/MEM.  The two blocks do not
look at each other: when both happen in one cycle, the redirecting instruction is in
neither register afterwards.  In every other cycle it moves on and commits two
edges later.

* `redirect_commits`: without a wait the redirecting instruction commits;
* `redirectLost_never_commits`: with a wait it never does;
* `redirectsCommit_iff`: so a run is free of lost instructions exactly when no
  redirect is applied while MEM waits.
-/
import NpcMachine.Rtl.Tags
import NpcMachine.Rtl.Environment

namespace NpcMachine.Rtl

set_option autoImplicit false

namespace Pipeline

/-- The redirect of EX reaches `pc`. -/
def redirectApplied (p : Pipeline) (i : PipelineIn) : Bool :=
  p.exRedirect && !p.memRedirect i && !p.wbWillHalt

/-- A redirect is applied while MEM waits. -/
def redirectLost (p : Pipeline) (i : PipelineIn) : Bool :=
  p.redirectApplied i && p.memAccessWait i

end Pipeline

/-- The instruction numbered `tag` is in ID/EX or in EX/MEM. -/
def Tags.InExOrMem (g : Tags) (p : Pipeline) (tag : Nat) : Prop :=
  (p.idEx.valid = true ∧ g.idEx = tag) ∨ (p.exMem.valid = true ∧ g.exMem = tag)

/-- No instruction of the run gets lost on its way from ID/EX to EX/MEM. -/
structure RedirectsCommit (p : Pipeline) (ins : Nat → PipelineIn) : Prop where
  /-- A redirecting instruction commits exactly once, or an older one raises an exception. -/
  once : ∀ n, (p.run ins n).redirectApplied (ins n) = true →
    (∃! m, (p.run ins m).commitValid = true ∧
      (Tags.run p ins m).memWb = (Tags.run p ins n).idEx) ∨
    ∃ m, (p.run ins m).commitValid = true ∧ (p.run ins m).commitException = true ∧
      (Tags.run p ins m).memWb < (Tags.run p ins n).idEx
  /-- What an edge does not squash for an older exception stays or moves on. -/
  kept : ∀ n, (p.run ins n).idEx.valid = true → (p.run ins n).memRedirect (ins n) = false →
    (p.run ins n).wbWillHalt = false →
    (Tags.run p ins (n + 1)).InExOrMem (p.run ins (n + 1)) (Tags.run p ins n).idEx

namespace Pipeline

variable {p : Pipeline} {i : PipelineIn}

theorem redirectApplied_iff : p.redirectApplied i = true ↔
    p.exRedirect = true ∧ p.memRedirect i = false ∧ p.wbWillHalt = false := by
  simp [redirectApplied, and_assoc]

/-! ## Without a wait the instruction commits -/

/-- A redirecting instruction that raises nothing itself makes no data access. -/
theorem executed_of_redirect (wf : p.Wf) (redirects : p.exRedirect = true) :
    p.executed.exception = true ∨
      (p.executed.memRead = false ∧ p.executed.memWrite = false) := by
  have valid := exRedirect_valid redirects
  have decoded := (wf.idEx valid).ctl
  cases raises : p.exException with
  | true => exact Or.inl raises
  | false =>
      right
      have source : p.idEx.ctl.mret = true ∨ p.idEx.ctl.jump = true ∨ p.exBranchTaken = true := by
        simpa [exRedirect, valid, raises, or_assoc] using redirects
      show p.idEx.ctl.memRead = false ∧ p.idEx.ctl.memWrite = false
      rw [decoded]
      simp only [decoder_memRead, decoder_memWrite]
      rcases source with mret | jump | taken
      · rw [decoded] at mret
        simp only [decoder_mret, Bool.and_eq_true, beq_iff_eq] at mret
        simp [mret.1]
      · rw [decoded] at jump
        simp only [decoder_jump, Bool.or_eq_true, Bool.and_eq_true, beq_iff_eq] at jump
        rcases jump with jal | jalr
        · simp [jal]
        · simp [jalr.1]
      · have branch : major p.idEx.inst = .branch := by
          by_contra other
          rw [exBranchTaken, decoded, decoder_branchType _ other] at taken
          contradiction
        simp [branch]

end Pipeline

/-- A redirect applied while MEM goes on commits its instruction two edges later. -/
theorem redirect_commits (p : Pipeline) (ins : Nat → PipelineIn) (n : Nat)
    (applied : (p.reset.run ins n).redirectApplied (ins n) = true)
    (goes : (p.reset.run ins n).memAccessWait (ins n) = false) :
    (p.reset.run ins (n + 2)).commitValid = true ∧
      (Tags.run p.reset ins (n + 2)).memWb = (Tags.run p.reset ins n).idEx := by
  have wf := Pipeline.wf_run p ins n
  have wf' := Pipeline.wf_run p ins (n + 1)
  obtain ⟨redirects, fine, runs⟩ := Pipeline.redirectApplied_iff.mp applied
  have advances : (p.reset.run ins n).exAdvances (ins n) = true :=
    Pipeline.exAdvances_iff.mpr ⟨Pipeline.exRedirect_valid redirects, goes, fine, runs⟩
  have exMem : (p.reset.run ins (n + 1)).exMem = (p.reset.run ins n).executed :=
    (Pipeline.next_of_exAdvances advances).1
  have valid : (p.reset.run ins (n + 1)).exMem.valid = true := by
    rw [exMem]
    exact Pipeline.exRedirect_valid redirects
  have memWb : (p.reset.run ins (n + 2)).memWb =
      (p.reset.run ins (n + 1)).accessed (ins (n + 1)) := by
    refine Pipeline.exMem_passes wf' valid ?_
    rw [exMem]
    exact Pipeline.executed_of_redirect wf redirects
  constructor
  · show (p.reset.run ins (n + 2)).memWb.valid = true
    rw [memWb]
    exact valid
  · rw [Tags.run_succ, Tags.run_succ]
    simp [Tags.next, goes]

/-! ## With a wait it never does -/

theorem redirectLost_never_commits (p : Pipeline) (ins : Nat → PipelineIn) (n : Nat)
    (lost : (p.reset.run ins n).redirectLost (ins n) = true) :
    ∀ m, (p.reset.run ins m).commitValid = true →
      (Tags.run p.reset ins m).memWb ≠ (Tags.run p.reset ins n).idEx := by
  simp only [Pipeline.redirectLost, Bool.and_eq_true] at lost
  obtain ⟨applied, waits⟩ := lost
  obtain ⟨redirects, fine, runs⟩ := Pipeline.redirectApplied_iff.mp applied
  have held := Pipeline.exRedirect_valid redirects
  have ordered := Tags.ordered_run p ins n
  have place := Tags.exEntry_mem (g := Tags.run p.reset ins n) held
  have given := (List.getElem?_eq_some_iff.mp (ordered.named _ place.2)).1
  intro m commits same
  rcases Nat.lt_trichotomy m n with before | rfl | after
  · -- It would have committed before the cycle in which EX still holds it.
    obtain ⟨k, rfl⟩ := Nat.exists_eq_add_of_lt before
    have younger := Tags.younger_after_commit p ins m commits k
    rw [show m + 1 + k = m + k + 1 by omega] at younger
    have less := younger _ place.2
    rw [same] at less
    exact Nat.lt_irrefl _ less
  · have sorted := ordered.sorted
    rw [Tags.inFlight, List.pairwise_append] at sorted
    have less := sorted.2.2 _ (Tags.wbEntry_mem commits).1 _
      (List.mem_append_right _ (List.mem_append_left _ place.1))
    exact Nat.ne_of_lt less same
  · -- After the edge only the waiting instruction is left, and that one is older.
    obtain ⟨k, rfl⟩ := Nat.exists_eq_add_of_lt after
    have gone : ∀ entry ∈ (Tags.run p.reset ins (n + 1)).inFlight (p.reset.run ins (n + 1)),
        entry.tag ≠ (Tags.run p.reset ins n).idEx := by
      have left : (Tags.run p.reset ins (n + 1)).inFlight (p.reset.run ins (n + 1)) =
          (Tags.run p.reset ins n).inMem (p.reset.run ins n) := by
        rw [Tags.run_succ]
        cases Pipeline.step_cases (p.reset.run ins n) (ins n) with
        | halt halts => simp [runs] at halts
        | trap _ faults => simp [fine] at faults
        | redirect _ _ _ goes => simp [waits] at goes
        | lost _ _ _ _ ifId idEx exMem memWb =>
            simp [Pipeline.run_succ, Tags.inFlight, Tags.behindWb, Tags.inWb, Tags.inMem,
              Tags.memEntry, Tags.inEx, Tags.inFetch, Tags.next, waits, ifId, idEx, exMem, memWb]
        | wait _ _ straight => simp [redirects] at straight
        | stall _ _ straight => simp [redirects] at straight
        | flow _ _ straight => simp [redirects] at straight
      intro entry mem
      rw [left] at mem
      have sorted := ordered.sorted
      rw [Tags.inFlight, List.pairwise_append, Tags.behindWb, List.pairwise_append] at sorted
      exact Nat.ne_of_lt (sorted.2.1.2.2 _ mem _ (List.mem_append_left _ place.1))
    have never := Tags.gone_never_commits p ins
      (Nat.lt_of_lt_of_le given (Tags.fetched_grows _ _ _)) gone k
    rw [show n + 1 + k = n + k + 1 by omega] at never
    exact never commits same

/-! ## The runs without a lost instruction -/

/-- Where no redirect meets a wait, EX keeps its instruction or hands it to MEM. -/
theorem kept_of_not_lost (p : Pipeline) (ins : Nat → PipelineIn) (n : Nat)
    (valid : (p.run ins n).idEx.valid = true)
    (fine : (p.run ins n).memRedirect (ins n) = false)
    (runs : (p.run ins n).wbWillHalt = false)
    (safe : (p.run ins n).redirectLost (ins n) = false) :
    (Tags.run p ins (n + 1)).InExOrMem (p.run ins (n + 1)) (Tags.run p ins n).idEx := by
  rw [Tags.run_succ, Pipeline.run_succ]
  have moved : (p.run ins n).memAccessWait (ins n) = false →
      ((p.run ins n).next (ins n)).exMem = (p.run ins n).executed →
      ((Tags.run p ins n).next (p.run ins n) (ins n)).InExOrMem ((p.run ins n).next (ins n))
        (Tags.run p ins n).idEx := by
    intro goes exMem
    right
    rw [exMem]
    exact ⟨valid, by simp [Tags.next, goes]⟩
  cases Pipeline.step_cases (p.run ins n) (ins n) with
  | halt halts => simp [runs] at halts
  | trap _ faults => simp [fine] at faults
  | redirect _ _ _ goes _ _ exMem => exact moved goes exMem
  | lost _ _ redirects waits =>
      simp [Pipeline.redirectLost, Pipeline.redirectApplied, redirects, waits, fine, runs] at safe
  | wait _ _ _ waits _ idEx =>
      left
      rw [idEx]
      exact ⟨valid, by simp [Tags.next, waits]⟩
  | stall _ _ _ goes _ _ _ exMem => exact moved goes exMem
  | flow _ _ _ goes _ _ _ exMem => exact moved goes exMem

/-- In every environment: no redirecting instruction is lost exactly in the runs in
which no redirect is applied while MEM waits. -/
theorem redirectsCommit_iff (p : Pipeline) (ins : Nat → PipelineIn) :
    RedirectsCommit p.reset ins ↔ ∀ n, (p.reset.run ins n).redirectLost (ins n) = false := by
  constructor
  · intro commits n
    by_contra lost
    rw [Bool.not_eq_false] at lost
    have goes := lost
    simp only [Pipeline.redirectLost, Bool.and_eq_true] at goes
    obtain ⟨applied, waits⟩ := goes
    obtain ⟨redirects, fine, runs⟩ := Pipeline.redirectApplied_iff.mp applied
    have less : (Tags.run p.reset ins n).exMem < (Tags.run p.reset ins n).idEx := by
      have sorted := (Tags.ordered_run p ins n).sorted
      rw [Tags.inFlight, List.pairwise_append, Tags.behindWb, List.pairwise_append] at sorted
      exact sorted.2.1.2.2 _ (Tags.memEntry_mem (Pipeline.memAccessWait_valid waits).1).1 _
        (List.mem_append_left _ (Tags.exEntry_mem (Pipeline.exRedirect_valid redirects)).1)
    have kept := commits.kept n (Pipeline.exRedirect_valid redirects) fine runs
    rw [Tags.run_succ, Pipeline.run_succ] at kept
    cases Pipeline.step_cases (p.reset.run ins n) (ins n) with
    | halt halts => simp [runs] at halts
    | trap _ faults => simp [fine] at faults
    | redirect _ _ _ goes => simp [waits] at goes
    | lost _ _ _ _ _ idEx =>
        rcases kept with ⟨held, -⟩ | ⟨-, same⟩
        · rw [idEx] at held
          contradiction
        · simp only [Tags.next, waits, if_true] at same
          exact Nat.ne_of_lt less same
    | wait _ _ straight => simp [redirects] at straight
    | stall _ _ straight => simp [redirects] at straight
    | flow _ _ straight => simp [redirects] at straight
  · intro safe
    constructor
    · intro n applied
      left
      have goes : (p.reset.run ins n).memAccessWait (ins n) = false := by
        simpa [Pipeline.redirectLost, applied] using safe n
      have commit := redirect_commits p ins n applied goes
      refine ⟨n + 2, commit, ?_⟩
      intro m other
      exact Tags.tags_commit_unique p ins other.1 commit.1 (other.2.trans commit.2.symm)
    · intro n valid fine runs
      exact kept_of_not_lost p.reset ins n valid fine runs (safe n)

/-! `lw x2, 0(x0)` waits in MEM when `jal x0, 8` redirects in EX. -/

def redirectProgram (pc : Word) : Word :=
  if pc = 0x20000000#32 then 0x00002103#32
  else if pc = 0x20000004#32 then 0x0080006F#32
  else 0x00000013#32

def redirectInputs : Nat → PipelineIn :=
  Machine.feedback Pipeline.next (slowMemory redirectProgram 5) (default : Pipeline).reset

/-- The jump is applied to `pc` in cycle 3 and never commits; the load does, without
an exception. -/
theorem redirectInputs_lose_jump :
    Serves redirectProgram (default : Pipeline).reset redirectInputs ∧
      ¬ RedirectsCommit (default : Pipeline).reset redirectInputs := by
  refine ⟨slowMemory_serves _ _ _, ?_⟩
  intro commits
  have lost : ((default : Pipeline).reset.run redirectInputs 3).redirectLost (redirectInputs 3) =
      true := by decide +kernel
  have jump : (Tags.run (default : Pipeline).reset redirectInputs 3).idEx = 1 := by
    decide +kernel
  have load : ((default : Pipeline).reset.run redirectInputs 6).commitValid = true ∧
      ((default : Pipeline).reset.run redirectInputs 6).commitException = false ∧
      (Tags.run (default : Pipeline).reset redirectInputs 6).memWb = 0 := by decide +kernel
  have applied := lost
  simp only [Pipeline.redirectLost, Bool.and_eq_true] at applied
  rcases commits.once 3 applied.1 with ⟨m, commit, -⟩ | ⟨m, commit, raised, older⟩
  · exact redirectLost_never_commits default redirectInputs 3 lost m commit.1 commit.2
  · have first : (Tags.run (default : Pipeline).reset redirectInputs m).memWb = 0 := by omega
    have same := Tags.tags_commit_unique default redirectInputs commit load.1
      (first.trans load.2.2.symm)
    rw [same, load.2.1] at raised
    exact Bool.noConfusion raised

end NpcMachine.Rtl
