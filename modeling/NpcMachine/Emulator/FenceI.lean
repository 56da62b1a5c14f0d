/-
# Emulator.FenceI -- stores, FENCE.I and the words that commit

A committing FENCE.I empties the I-cache and nothing else: what the pipeline fetched
behind it, and what a fill under way has received, stays.  `fenceI_commits`: in a run in
which every store to a word that is executed later is followed by a FENCE.I, and in
which every committing FENCE.I finds only current words behind it (`FlushClean`), every
instruction that commits without exception is the RAM word at its pc.
-/
import NpcMachine.Machine.Barrier
import NpcMachine.Emulator.Lockstep
import NpcMachine.Emulator.StoreOrder
import NpcMachine.Rtl.Halt

namespace NpcMachine.Emulator

open NpcMachine.Rtl

set_option autoImplicit false

namespace RtlIss

variable (s : RtlIss)

/-- The store that commits in cycle `n` of the run. -/
def storeCommittedAt (n : Nat) : Option StoreEvent :=
  (s.run n).top.pipeline.storeCommitted (s.run n).pipelineIn

/-- The RAM as left by the stores that commit before cycle `n`: a store commits one
cycle after it is accepted. -/
def ramAt (n : Nat) : Memory := performAll (s.storesAccepted (n - 1)) s.memory

/-- The instruction of cycle `n` commits without exception. -/
def commitsAt (n : Nat) : Prop :=
  (s.run n).top.pipeline.commitValid = true ∧ (s.run n).top.pipeline.commitException = false

end RtlIss

/-- Every store to the word of a later commit is followed by a FENCE.I before it. -/
def StoresFenced (s : RtlIss) : Prop :=
  ∀ n, s.commitsAt n → ∀ m, m < n → ∀ e, s.storeCommittedAt m = some e →
    Memory.SameWord e.addr (s.run n).top.pipeline.commitPc →
    ∃ k, m < k ∧ k < n ∧ (s.run k).top.pipeline.fenceICommit = true

/-- Every instruction that commits without exception is the RAM word at its pc. -/
def CommitsRam (s : RtlIss) : Prop :=
  ∀ n, s.commitsAt n → (s.ramAt n).fetch (s.run n).top.pipeline.commitPc 0#32 =
    (.ok, (s.run n).top.pipeline.commitInst)

/-- Every word that the pipeline has fetched and may still execute satisfies `P` at its
address. -/
structure PipelineClean (p : Pipeline) (i : PipelineIn) (P : Word → Word → Prop) : Prop where
  exMem : p.exMem.valid = true → p.exMem.exception = false → p.memRedirect i = false →
    P p.exMem.pc p.exMem.inst
  idEx : p.idEx.valid = true → p.exException = false → p.memRedirect i = false →
    P p.idEx.pc p.idEx.inst
  ifId : p.ifId.valid = true → p.ifId.fetchFault = false → p.exRedirect = false →
    p.memRedirect i = false → P p.ifId.pc p.ifId.inst
  captured : p.captured i = true → i.respFetchFault = false → P p.reqFetchAddr i.respFetchInst

/-- Every word that the core has fetched and may still execute, those of a fill under way
included, is the RAM word at its address. -/
structure FlushClean (s : RtlIss) (ram : Memory) : Prop where
  pipeline : PipelineClean s.top.pipeline s.pipelineIn fun a v => ram.fetch a 0#32 = (.ok, v)
  fill : s.top.icache.state = .data → s.top.icache.fillFaultSeen = false → ∀ word,
    word.toNat < s.top.icache.fillBeat.toNat →
    ram.fetch (wordAddr s.top.icache.missTag s.top.icache.missIndex word) 0#32 =
      (.ok, s.top.icache.fill.get word)

/-! ## The timeline of a run -/

section Run

variable (s : RtlIss) (image : Memory)

theorem storeCommittedAt_succ (n : Nat) : (s.boot image).storeCommittedAt (n + 1) =
    ((s.boot image).run n).top.pipeline.storeAccepted ((s.boot image).run n).pipelineIn := by
  have wf := (coreWf_run s image n).pipeline
  rw [RtlIss.storeCommittedAt, RtlIss.run_succ, RtlIss.toggleClock_pipeline]
  exact Pipeline.storeCommitted_next wf _ _

/-- Only the store that commits in a cycle changes the RAM of the committed stores. -/
theorem ramAt_succ (n : Nat) (a : Word)
    (apart : ∀ e, (s.boot image).storeCommittedAt n = some e → ¬ Memory.SameWord e.addr a) :
    ((s.boot image).ramAt (n + 1)).fetch a 0#32 = ((s.boot image).ramAt n).fetch a 0#32 := by
  cases n with
  | zero => rfl
  | succ n =>
      rw [storeCommittedAt_succ] at apart
      unfold RtlIss.ramAt
      rw [Nat.add_sub_cancel, Nat.add_sub_cancel, RtlIss.storesAccepted_succ, performAll_append]
      unfold storeOp
      cases accepted : ((s.boot image).run n).top.pipeline.storeAccepted
          ((s.boot image).run n).pipelineIn with
      | none => rfl
      | some e => exact Memory.fetch_store (apart e accepted) 0#32

/-- Words, stores and FENCE.I of a run, by the cycle in which they commit. -/
def timeline : Machine.Timeline Word Word where
  holds n a v := ((s.boot image).ramAt n).fetch a 0#32 = (.ok, v)
  writes n a := ∃ e, (s.boot image).storeCommittedAt n = some e ∧ Memory.SameWord e.addr a
  barrier n := ((s.boot image).run n).top.pipeline.fenceICommit = true
  kept := by
    intro n a v now untouched
    rw [ramAt_succ s image n a]
    · exact now
    · intro e commits same
      exact untouched ⟨e, commits, same⟩

theorem memory_ramAt (n : Nat) : ((s.boot image).run n).memory = (s.boot image).ramAt (n + 2) :=
  memory_run s image n

end Run

/-! ## What the stages hold -/

/-- The words in the stages: one turn ahead for each stage that is left. -/
structure Tracked (t : Machine.Timeline Word Word) (n : Nat) (p : Pipeline) : Prop where
  ifId : p.ifId.valid = true → p.ifId.fetchFault = false → t.Known 2 n p.ifId.pc p.ifId.inst
  idEx : p.idEx.valid = true → p.idEx.fetchFault = false → t.Known 2 n p.idEx.pc p.idEx.inst
  exMem : p.exMem.valid = true → p.exMem.exception = false →
    t.Known 1 n p.exMem.pc p.exMem.inst
  memWb : p.memWb.valid = true → p.memWb.exception = false →
    t.Known 0 n p.memWb.pc p.memWb.inst

/-- An instruction that raises nothing in EX was fetched without a fault. -/
theorem fetchFault_of_exException {p : Pipeline} (fine : p.exException = false) :
    p.idEx.fetchFault = false := by
  by_contra fault
  rw [Bool.not_eq_false] at fault
  simp only [Pipeline.exException, Pipeline.exFault, fault, if_true] at fine
  split_ifs at fine <;> contradiction

namespace Tracked

variable {t : Machine.Timeline Word Word} {n : Nat} {p : Pipeline} {i : PipelineIn}

theorem next_ifId (tracked : Tracked t n p)
    (captured : p.fetchCapture i = true → i.respFetchFault = false →
      t.Known 2 n p.reqFetchAddr i.respFetchInst)
    (clean : t.barrier n → PipelineClean p i (t.holds n)) (fine : p.memRedirect i = false)
    (straight : p.exRedirect = false) (valid : (p.fetched i).valid = true)
    (good : (p.fetched i).fetchFault = false) :
    t.Known 2 (n + 1) (p.fetched i).pc (p.fetched i).inst := by
  unfold Pipeline.fetched at valid good ⊢
  split_ifs at valid good ⊢ with captures leaves
  · refine (captured captures good).next (by omega) fun fence => ?_
    exact (clean fence).captured (by simp [Pipeline.captured, captures, fine]) good
  · simp at valid
  · exact (tracked.ifId valid good).next (by omega) fun fence =>
      (clean fence).ifId valid good straight fine

theorem next_idEx (tracked : Tracked t n p)
    (clean : t.barrier n → PipelineClean p i (t.holds n)) (fine : p.memRedirect i = false)
    (straight : p.exRedirect = false) (valid : p.decoded.valid = true)
    (good : p.decoded.fetchFault = false) :
    t.Known 2 (n + 1) p.decoded.pc p.decoded.inst :=
  (tracked.ifId valid good).next (by omega) fun fence =>
    (clean fence).ifId valid good straight fine

theorem next_exMem (tracked : Tracked t n p)
    (clean : t.barrier n → PipelineClean p i (t.holds n)) (fine : p.memRedirect i = false)
    (valid : p.executed.valid = true) (quiet : p.executed.exception = false) :
    t.Known 1 (n + 1) p.executed.pc p.executed.inst :=
  (tracked.idEx valid (fetchFault_of_exException quiet)).next (by omega) fun fence =>
    (clean fence).idEx valid quiet fine

theorem next_memWb (tracked : Tracked t n p)
    (clean : t.barrier n → PipelineClean p i (t.holds n)) (fine : p.memRedirect i = false)
    (valid : (p.accessed i).valid = true) (quiet : (p.accessed i).exception = false) :
    t.Known 0 (n + 1) (p.accessed i).pc (p.accessed i).inst := by
  rw [Pipeline.accessed_exception fine valid] at quiet
  exact (tracked.exMem valid quiet).next (by omega) fun fence =>
    (clean fence).exMem valid quiet fine

/-- One edge.  No instruction is held in EX. -/
theorem next (tracked : Tracked t n p)
    (captured : p.fetchCapture i = true → i.respFetchFault = false →
      t.Known 2 n p.reqFetchAddr i.respFetchInst)
    (clean : t.barrier n → PipelineClean p i (t.holds n))
    (free : p.memAccessWait i = true → p.idEx.valid = false) : Tracked t (n + 1) (p.next i) := by
  have held : p.memRedirect i = false → p.exMem.valid = true → p.exMem.exception = false →
      t.Known 1 (n + 1) p.exMem.pc p.exMem.inst := fun fine valid quiet =>
    (tracked.exMem valid quiet).next (by omega) fun fence => (clean fence).exMem valid quiet fine
  cases Pipeline.step_cases p i with
  | halt _ ifId idEx exMem memWb =>
      constructor <;> intro valid <;> simp [ifId, idEx, exMem, memWb] at valid
  | trap _ faults ifId idEx exMem memWb =>
      refine ⟨by simp [ifId], by simp [idEx], by simp [exMem], ?_⟩
      rw [memWb]
      intro _ quiet
      have raises : p.memNewException i = true := faults
      simp only [Pipeline.memNewException, Bool.and_eq_true] at raises
      have raised : (p.accessed i).exception = true := raises.2
      rw [raised] at quiet
      contradiction
  | redirect _ fine redirects goes ifId idEx exMem memWb =>
      refine ⟨by simp [ifId], by simp [idEx], ?_, ?_⟩
      · rw [exMem]
        exact tracked.next_exMem clean fine
      · rw [memWb]
        exact tracked.next_memWb clean fine
  | lost _ fine redirects waits ifId idEx exMem memWb =>
      refine ⟨by simp [ifId], by simp [idEx], ?_, by simp [memWb]⟩
      rw [exMem]
      exact held fine
  | wait _ fine straight waits ifId idEx exMem memWb =>
      refine ⟨?_, ?_, ?_, by simp [memWb]⟩
      · rw [ifId]
        exact tracked.next_ifId captured clean fine straight
      · rw [idEx, free waits]
        exact fun valid => absurd valid (by simp)
      · rw [exMem]
        exact held fine
  | stall _ fine straight goes stalls ifId idEx exMem memWb =>
      refine ⟨?_, by simp [idEx], ?_, ?_⟩
      · rw [ifId]
        exact tracked.next_ifId captured clean fine straight
      · rw [exMem]
        exact tracked.next_exMem clean fine
      · rw [memWb]
        exact tracked.next_memWb clean fine
  | flow _ fine straight goes ready ifId idEx exMem memWb =>
      refine ⟨?_, ?_, ?_, ?_⟩
      · rw [ifId]
        exact tracked.next_ifId captured clean fine straight
      · rw [idEx]
        exact tracked.next_idEx clean fine straight
      · rw [exMem]
        exact tracked.next_exMem clean fine
      · rw [memWb]
        exact tracked.next_memWb clean fine

end Tracked

/-! ## What the I-cache holds -/

section Run

variable (s : RtlIss) (image : Memory)

/-- The I-cache over one cycle: a flush drops the lines, a beat brings the RAM word. -/
theorem cache_known {n : Nat}
    (cache : ((s.boot image).run n).top.icache.Holds ((timeline s image).Known 2 n))
    (clean : ((s.boot image).run n).top.pipeline.fenceICommit = true →
      FlushClean ((s.boot image).run n) ((s.boot image).ramAt n)) :
    ((s.boot image).run (n + 1)).top.icache.Holds ((timeline s image).Known 2 (n + 1)) := by
  refine cache_next s image cache ?_ ?_ ?_
  · intro keeps addr word known
    refine known.next (by omega) fun fence => ?_
    have flushes : ((s.boot image).run n).top.pipeline.fenceICommit = true := fence
    rw [keeps] at flushes
    contradiction
  · intro data unseen word received known
    exact known.next (by omega) fun fence => (clean fence).fill data unseen word received
  · intro addr word fetched
    refine Machine.Timeline.known_of_holds (j := n + 2) ?_ (by omega) (by omega)
    rw [memory_ramAt] at fetched
    exact fetched

/-! ## Every run -/

theorem tracked_run
    (clean : ∀ n, ((s.boot image).run n).top.pipeline.fenceICommit = true →
      FlushClean ((s.boot image).run n) ((s.boot image).ramAt n)) (n : Nat) :
    ((s.boot image).run n).top.icache.Holds ((timeline s image).Known 2 n) ∧
      Tracked (timeline s image) n ((s.boot image).run n).top.pipeline := by
  induction n with
  | zero =>
      obtain ⟨c, reset⟩ := s.boot_top image
      rw [RtlIss.run_zero, reset]
      refine ⟨Icache.reset_holds _, ?_⟩
      constructor <;> intro valid <;> simp [Core.reset, Pipeline.reset] at valid
  | succ n ih =>
      obtain ⟨cache, tracked⟩ := ih
      have wf := coreWf_run s image n
      refine ⟨cache_known s image cache (clean n), ?_⟩
      rw [RtlIss.run_succ, RtlIss.toggleClock_pipeline]
      refine tracked.next ?_ (fun fence => (clean n fence).pipeline) ?_
      · intro captures good
        exact cache.hit (hit_of_respFetch wf (Pipeline.fetchCapture_accepts captures).1 good)
      · intro waits
        exact (idEx_of_wait wf (RtlIss.run_answers s image n).2 waits).2

/-- Every run with every slave state before the boot: where stores to executed words are
fenced and every committing FENCE.I finds only current words behind it, each commit
without exception is the RAM word as left by the older stores. -/
theorem fenceI_commits (fenced : StoresFenced (s.boot image))
    (clean : ∀ n, ((s.boot image).run n).top.pipeline.fenceICommit = true →
      FlushClean ((s.boot image).run n) ((s.boot image).ramAt n)) :
    CommitsRam (s.boot image) := by
  intro n commits
  have known := (tracked_run s image clean n).2.memWb commits.1 commits.2
  refine known.holds ?_
  rintro ⟨m, before, ⟨e, stores, same⟩, open_⟩
  obtain ⟨k, after, early, fence⟩ := fenced n commits m before e stores same
  exact open_ k after early fence

end Run

/-! ## Two runs that end asleep -/

/-- A core that sleeps goes on sleeping. -/
theorem asleep_kept {s : RtlIss} {h : Nat} (asleep : (s.run h).top.Asleep) (n : Nat)
    (after : h ≤ n) : (s.run n).top.Asleep := by
  obtain ⟨k, rfl⟩ := Nat.exists_eq_add_of_le after
  induction k with
  | zero => exact asleep
  | succ k ih =>
      rw [← Nat.add_assoc, RtlIss.run_succ, RtlIss.toggleClock_top]
      exact (ih (Nat.le_add_right h k)).next _

/-- It commits nothing any more. -/
theorem asleep_run {s : RtlIss} {h : Nat} (asleep : (s.run h).top.Asleep) (n : Nat) (after : h ≤ n) :
    (s.run n).top.pipeline.memWb.valid = false :=
  (asleep_kept asleep n after).quiet.back.memWb

/-- In a run that falls asleep only finitely many cycles have to be looked at: here for
one store, with its word not committed before the FENCE.I. -/
theorem storesFenced_of_asleep {s : RtlIss} {h m k : Nat} {e : StoreEvent}
    (asleep : (s.run h).top.Asleep) (store : s.storeCommittedAt m = some e)
    (one : ∀ n, n < h → n ≠ m → s.storeCommittedAt n = none)
    (fence : (s.run k).top.pipeline.fenceICommit = true) (after : m < k)
    (later : ∀ n, n < h → m < n → n ≤ k → (s.run n).top.pipeline.commitValid = true →
      ¬ Memory.SameWord e.addr (s.run n).top.pipeline.commitPc) : StoresFenced s := by
  intro n commits j before e' stores same
  have awake : n < h := by
    by_contra late
    have valid := commits.1
    rw [Pipeline.commitValid, asleep_run asleep n (Nat.le_of_not_lt late)] at valid
    contradiction
  have only : j = m := by
    by_contra other
    rw [one j (Nat.lt_trans before awake) other] at stores
    contradiction
  subst only
  rw [store] at stores
  cases stores
  refine ⟨k, after, ?_, fence⟩
  by_contra early
  exact later n awake before (Nat.le_of_not_lt early) commits.1 same

/-- The word at 0x20 becomes `addi x3, x0, 1` while the fetch is still in the line ahead. -/
def patchAhead : List U32 :=
  [0x200000B7#32,  -- lui x1, 0x20000
   0x00100137#32,  -- lui x2, 0x100
   0x19310113#32,  -- addi x2, x2, 0x193
   0x0220A023#32,  -- sw x2, 0x20(x1)
   0x0000100F#32,  -- fence.i
   0x00000013#32, 0x00000013#32, 0x00000013#32,
   0x00000013#32,
   0x00100073#32]  -- ebreak

def patchAheadRun : RtlIss := (default : RtlIss).boot (Memory.ofWords patchAhead)

set_option maxRecDepth 100000 in
theorem patchAheadRun_asleep : (patchAheadRun.run 41).top.Asleep :=
  ⟨⟨by decide +kernel, by decide +kernel, by decide +kernel,
    ⟨by decide +kernel, by decide +kernel, by decide +kernel⟩⟩, by decide +kernel,
    by decide +kernel⟩

set_option maxRecDepth 100000 in
theorem patchAheadRun_fenced : StoresFenced patchAheadRun :=
  storesFenced_of_asleep (m := 17) (k := 26) patchAheadRun_asleep
    (e := ⟨0x2000000C#32, 0x0220A023#32, 0x20000020#32⟩) (by decide +kernel) (by decide +kernel)
    (by decide +kernel) (by omega) (by decide +kernel)

set_option maxRecDepth 100000 in
/-- The FENCE.I commits in cycle 26, before the new word is fetched. -/
theorem patchAheadRun_clean (n : Nat)
    (fence : (patchAheadRun.run n).top.pipeline.fenceICommit = true) :
    FlushClean (patchAheadRun.run n) (patchAheadRun.ramAt n) := by
  have awake : n < 41 := by
    by_contra late
    have empty := asleep_run patchAheadRun_asleep n (Nat.le_of_not_lt late)
    simp [Pipeline.fenceICommit, empty] at fence
  have only : ∀ k, k < 41 → (patchAheadRun.run k).top.pipeline.fenceICommit = true → k = 26 := by
    decide +kernel
  rw [only n awake fence]
  exact ⟨⟨by decide +kernel, by decide +kernel, by decide +kernel, by decide +kernel⟩,
    by decide +kernel⟩

/-- So the new word commits. -/
theorem patchAheadRun_commits : CommitsRam patchAheadRun :=
  fenceI_commits default (Memory.ofWords patchAhead) patchAheadRun_fenced patchAheadRun_clean

/-- The word behind the FENCE.I becomes 0x20000000. -/
def patchBehind : List U32 :=
  [0x200000B7#32,  -- lui x1, 0x20000
   0x0010A623#32,  -- sw x1, 0xC(x1)
   0x0000100F#32,  -- fence.i
   0x00000013#32,
   0x00100073#32]  -- ebreak

def patchBehindRun : RtlIss := (default : RtlIss).boot (Memory.ofWords patchBehind)

set_option maxRecDepth 100000 in
theorem patchBehindRun_asleep : (patchBehindRun.run 28).top.Asleep :=
  ⟨⟨by decide +kernel, by decide +kernel, by decide +kernel,
    ⟨by decide +kernel, by decide +kernel, by decide +kernel⟩⟩, by decide +kernel,
    by decide +kernel⟩

set_option maxRecDepth 100000 in
/-- The store is fenced, but the old word is in MEM when the FENCE.I commits in cycle 16,
and it commits in cycle 17. -/
theorem patchBehindRun_stale :
    StoresFenced ((default : RtlIss).boot (Memory.ofWords patchBehind)) ∧
      ¬ CommitsRam ((default : RtlIss).boot (Memory.ofWords patchBehind)) := by
  constructor
  · exact storesFenced_of_asleep (m := 15) (k := 16) patchBehindRun_asleep
      (e := ⟨0x20000004#32, 0x0010A623#32, 0x2000000C#32⟩) (by decide +kernel)
      (by decide +kernel) (by decide +kernel) (by omega) (by decide +kernel)
  · intro commits
    have word := commits 17 (by unfold RtlIss.commitsAt; decide +kernel)
    have ram : (patchBehindRun.ramAt 17).fetch (patchBehindRun.run 17).top.pipeline.commitPc 0#32 =
        (.ok, 0x20000000#32) := by decide +kernel
    have inst : (patchBehindRun.run 17).top.pipeline.commitInst = 0x00000013#32 := by
      decide +kernel
    have both : (patchBehindRun.ramAt 17).fetch (patchBehindRun.run 17).top.pipeline.commitPc
        0#32 = (.ok, (patchBehindRun.run 17).top.pipeline.commitInst) := word
    rw [ram, inst] at both
    exact absurd (congrArg Prod.snd both) (by decide)

end NpcMachine.Emulator
