/-
# Rtl.ClintWrite -- stores to `mtime` and the tick

The CLINT takes a write only in a cycle with `tick_en`, and the pipeline drives
`tick_en` with the `commit_valid` of whatever older instruction is in WB.  A store to
one half of `mtime` is in MEM for a single cycle, so behind a bubble in WB it commits
and leaves the counter as it was.  `storesTakeEffect_iff` says that nothing else can
lose such a store.
-/
import NpcMachine.Rtl.Environment
import NpcMachine.Rtl.StoreCommit
import NpcMachine.Machine.Bits

namespace NpcMachine.Rtl

set_option autoImplicit false

/-! ## The halves of the counter -/

inductive MtimeHalf where
  | mtime | mtimeh
  deriving DecidableEq, Repr

def MtimeHalf.addr : MtimeHalf → Word
  | .mtime => clintBase + clintMtimeOffset
  | .mtimeh => clintBase + clintMtimehOffset

theorem MtimeHalf.inside (h : MtimeHalf) : inClint h.addr = true := by
  cases h <;> decide

/-- A word access to a half is aligned. -/
theorem MtimeHalf.aligned (h : MtimeHalf) {u : LsuIn} (size : u.memSize = memSizeWord)
    (addr : u.memAddr = h.addr) : u.addrMisaligned = false := by
  rw [LsuIn.addrMisaligned, size, addr]
  cases h <;> decide

namespace Clint

variable (c : Clint)

def half : MtimeHalf → Word
  | .mtime => c.mtime.extractLsb' 0 32
  | .mtimeh => c.mtime.extractLsb' 32 32

/-- The counter with one half replaced. -/
def withHalf (data : Word) : MtimeHalf → BitVec 64
  | .mtime => c.mtime.extractLsb' 32 32 ++ data
  | .mtimeh => data ++ c.mtime.extractLsb' 0 32

theorem append_eq_iff (x : BitVec 64) (high low : Word) :
    high ++ low = x ↔ high = x.extractLsb' 32 32 ∧ low = x.extractLsb' 0 32 := by
  have highSmall := high.isLt
  have lowSmall := low.isLt
  rw [← BitVec.toNat_inj, ← BitVec.toNat_inj, ← BitVec.toNat_inj, Machine.toNat_append_mul,
    Machine.toNat_extract, Machine.toNat_extract]
  omega

/-- Replacing a half by what it holds is no change, and only that. -/
theorem withHalf_eq_iff (data : Word) (h : MtimeHalf) :
    c.withHalf data h = c.mtime ↔ data = c.half h := by
  cases h with
  | mtime => simp [withHalf, half, append_eq_iff]
  | mtimeh => simp [withHalf, half, append_eq_iff]

/-- Without a tick a write is ignored. -/
theorem next_write (tick : Bool) (data : Word) (h : MtimeHalf) :
    (c.next tick true true h.addr data).mtime =
      if tick then c.withHalf data h + 1#64 else c.mtime := by
  cases tick with
  | false => rfl
  | true =>
      cases h with
      | mtime =>
          have hit : isMtime MtimeHalf.mtime.addr = true := by decide
          simp [next, withHalf, hit]
      | mtimeh =>
          have miss : isMtime MtimeHalf.mtimeh.addr = false := by decide
          have hit : isMtimeh MtimeHalf.mtimeh.addr = true := by decide
          simp [next, withHalf, hit, miss]

end Clint

/-! ## Stores to a half -/

namespace Pipeline

/-- MEM holds a word store to the half `h`. -/
structure StoresMtime (p : Pipeline) (h : MtimeHalf) : Prop where
  writes : p.lsu.memWrite = true
  size : p.lsu.memSize = memSizeWord
  addr : p.lsu.memAddr = h.addr

/-- The tick of the cycle, 0 or 1. -/
def tick (p : Pipeline) : BitVec 64 := (BitVec.ofBool p.commitValid).setWidth 64

/-- Every word store to `mtime` or `mtimeh` that leaves MEM in a cycle and then commits
without an exception has written its half at the end of that cycle. -/
def StoresTakeEffect (p : Pipeline) (ins : Nat → PipelineIn) : Prop :=
  ∀ n h, (p.run ins n).StoresMtime h →
    (p.run ins (n + 1)).commitValid = true → (p.run ins (n + 1)).commitException = false →
    (p.run ins (n + 1)).clint.mtime =
      (p.run ins n).clint.withHalf (p.run ins n).lsu.storeData h + (p.run ins n).tick

variable {p : Pipeline} {i : PipelineIn} {h : MtimeHalf}

namespace StoresMtime

variable (stores : p.StoresMtime h)

include stores

theorem held : p.exMem.valid = true ∧ p.exMem.memWrite = true ∧ p.exMem.exception = false := by
  have writes := stores.writes
  simp only [lsu, Bool.and_eq_true, Bool.not_eq_true'] at writes
  exact ⟨writes.1.1, writes.1.2, writes.2⟩

theorem inside : inClint p.lsu.memAddr = true := by
  rw [stores.addr]
  exact h.inside

theorem aligned : p.lsu.storeMisaligned = false := by
  rw [LsuIn.storeMisaligned, h.aligned stores.size stores.addr, Bool.and_false]

/-- A store to the CLINT never waits: it is in MEM for one cycle. -/
theorem goes (wf : p.Wf) : p.memAccessWait i = false := by
  obtain ⟨valid, writes, clean⟩ := stores.held
  have noRead : p.exMem.memRead = false :=
    ((wf.exMem valid).memRead).trans
      (decoder_of_memWrite ((wf.exMem valid).memWrite.symm.trans writes)).1
  have clint : p.lsu.clintIsAccess = true := stores.inside
  simp [memAccessWait, noRead, clint]

theorem next_mtime (i : PipelineIn) : (p.next i).clint.mtime =
    if p.commitValid then p.clint.withHalf p.lsu.storeData h + 1#64 else p.clint.mtime := by
  have request : p.lsu.clintReqValid = true := by
    rw [LsuIn.clintReqValid, stores.writes, LsuIn.clintIsAccess, stores.inside]
    simp
  have wen : p.lsu.clintReqWen = true := stores.writes
  show (p.clint.next _ _ _ _ _).mtime = _
  rw [request, wen, stores.addr]
  exact p.clint.next_write _ _ h

/-- It commits without an exception exactly when no fault answers in its cycle. -/
theorem commits_iff (wf : p.Wf) (i : PipelineIn) :
    (p.next i).commitValid = true ∧ (p.next i).commitException = false ↔
      i.respStoreFault = false ∧ i.respStoreMisaligned = false := by
  obtain ⟨valid, writes, clean⟩ := stores.held
  have noRead : p.exMem.memRead = false :=
    ((wf.exMem valid).memRead).trans
      (decoder_of_memWrite ((wf.exMem valid).memWrite.symm.trans writes)).1
  have memWb := exMem_moves wf valid (.inl (stores.goes (i := i) wf))
  have raised : (p.accessed i).exception = (p.memFault i).isSome := by
    simp [accessed, memException, clean]
  rw [commitValid, commitException, memWb, raised, Option.isSome_eq_false_iff,
    Option.isNone_iff_eq_none, memFault_store clean noRead writes]
  simp [accessed, valid, stores.aligned]

/-- The half is written unless WB is empty; then the counter stays as it is. -/
theorem next_mtime_iff (i : PipelineIn) :
    (p.next i).clint.mtime = p.clint.withHalf p.lsu.storeData h + p.tick ↔
      p.commitValid = true ∨ p.lsu.storeData = p.clint.half h := by
  have none : (BitVec.ofBool false).setWidth 64 = 0#64 := by decide
  rw [stores.next_mtime i, tick]
  cases ticks : p.commitValid with
  | true => simp
  | false =>
      rw [none, BitVec.add_zero, ← Clint.withHalf_eq_iff]
      simp [eq_comm]

end StoresMtime

/-- In every environment: the stores to `mtime` and `mtimeh` take effect exactly in the
runs in which each of them finds a commit in WB, or stores what its half holds already. -/
theorem storesTakeEffect_iff (p : Pipeline) (ins : Nat → PipelineIn) :
    p.reset.StoresTakeEffect ins ↔
      ∀ n h, (p.reset.run ins n).StoresMtime h →
        (ins n).respStoreFault = false → (ins n).respStoreMisaligned = false →
        (p.reset.run ins n).commitValid = true ∨
          (p.reset.run ins n).lsu.storeData = (p.reset.run ins n).clint.half h := by
  constructor
  · intro effect n h stores noFault noMisaligned
    obtain ⟨commits, clean⟩ :=
      (stores.commits_iff (wf_run p ins n) (ins n)).mpr ⟨noFault, noMisaligned⟩
    exact (stores.next_mtime_iff (ins n)).mp (effect n h stores commits clean)
  · intro found n h stores commits clean
    obtain ⟨noFault, noMisaligned⟩ :=
      (stores.commits_iff (wf_run p ins n) (ins n)).mp ⟨commits, clean⟩
    exact (stores.next_mtime_iff (ins n)).mpr (found n h stores noFault noMisaligned)

end Pipeline

/-! ## A store behind a bubble -/

/-- `lui x1,0x200C; sw x1,-8(x1)` and nops. -/
def clintProgram (pc : Word) : Word :=
  if pc = 0x20000000#32 then 0x0200C0B7#32
  else if pc = 0x20000004#32 then 0xFE10AC23#32
  else 0x00000013#32

def clintInputs : Nat → PipelineIn :=
  Machine.feedback Pipeline.next (slowMemory clintProgram 0) (default : Pipeline).reset

/-- The store waits in ID for `x1`, so in cycle 6 it is in MEM behind an empty WB. -/
theorem clintInputs_lose_store :
    Serves clintProgram (default : Pipeline).reset clintInputs ∧
      ¬ (default : Pipeline).reset.StoresTakeEffect clintInputs := by
  refine ⟨slowMemory_serves _ _ _, ?_⟩
  intro effect
  have writes : ((default : Pipeline).reset.run clintInputs 6).lsu.memWrite = true ∧
      ((default : Pipeline).reset.run clintInputs 6).lsu.memSize = memSizeWord ∧
      ((default : Pipeline).reset.run clintInputs 6).lsu.memAddr = MtimeHalf.mtime.addr := by
    decide +kernel
  have commits : ((default : Pipeline).reset.run clintInputs 7).commitValid = true ∧
      ((default : Pipeline).reset.run clintInputs 7).commitException = false := by
    decide +kernel
  have lost : ((default : Pipeline).reset.run clintInputs 7).clint.mtime ≠
      ((default : Pipeline).reset.run clintInputs 6).clint.withHalf
        ((default : Pipeline).reset.run clintInputs 6).lsu.storeData .mtime +
          ((default : Pipeline).reset.run clintInputs 6).tick := by decide +kernel
  exact lost (effect 6 .mtime ⟨writes.1, writes.2.1, writes.2.2⟩ commits.1 commits.2)

end NpcMachine.Rtl
