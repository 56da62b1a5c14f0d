/-
# Emulator.TimeAgree -- the time that a program reads

The reference model ticks after each instruction, so the instruction with number `k` reads
`k`.  The core ticks when an instruction commits, and a load in MEM does not see the commit
that is in WB beside it: it reads one less, unless WB is empty (`timeAgrees_iff`).
-/
import NpcMachine.Emulator.ClintAgree
import NpcMachine.Emulator.CommitFollow
import NpcMachine.Emulator.FenceI
import NpcMachine.Emulator.Outcome
import NpcMachine.Rtl.ClintRead

namespace NpcMachine.Emulator

open NpcMachine.Rtl

set_option autoImplicit false

namespace EmulatorIss

variable {s : EmulatorIss} {d : DecodedInst}

/-- The reference model under a configuration, reset with a RAM image. -/
def bootAt (s : EmulatorIss) (cfg : Config) (ram : Nat → BitVec 8) : EmulatorIss :=
  reset { s with cfg := cfg, clint := { s.clint with cfg := cfg }, memory := ⟨cfg, ram⟩ }
    cfg.resetVector

/-! ## The counter of the reference model -/

/-- The next instruction is a word load of the half `h`. -/
structure LoadsMtime (s : EmulatorIss) (h : MtimeHalf) : Prop where
  fetched : (s.memory.fetch s.hart.pc 0#32).1 = .ok
  type : (decode s.word).type = .lw
  addr : s.dataAddr (decode s.word) = some h.addr

/-- The next instruction stores to the CLINT. -/
def storesClint (s : EmulatorIss) : Bool :=
  !s.hart.halted && (s.memory.fetch s.hart.pc 0#32).1 == .ok && !reservedReg (decode s.word) &&
    (s.storeAddr (decode s.word)).any s.cfg.inClint

theorem loadMem_clint (addr size : U32) : (s.loadMem addr size).2.2.clint = s.clint := by
  unfold loadMem
  split_ifs
  · rfl
  · split <;> rfl
  · split <;> rfl
  · rfl

theorem storeMem_clint {addr : U32} (away : s.cfg.inClint addr = false) (size data : U32) :
    (s.storeMem addr size data).2.clint = s.clint := by
  unfold storeMem
  rw [away, if_neg (by decide)]
  split_ifs
  · split <;> rfl
  · rfl

/-- Only a store moves the CLINT. -/
theorem execute_clint (away : reservedReg d = false → ∀ a, s.storeAddr d = some a →
    s.cfg.inClint a = false) : (s.execute d).1.clint = s.clint := by
  have ways := s.execute_outcome d
  generalize s.execute d = out at ways ⊢
  cases ways with
  | trap cause => rfl
  | halt => rfl
  | retire moved rd value next moves on =>
      show moved.clint = s.clint
      cases moves with
      | nothing => rfl
      | csr hart => rfl
      | load addr => exact s.loadMem_clint addr _
      | store checked type =>
          apply storeMem_clint
          apply away checked
          rcases type with byte | half | word
          · simp [storeAddr, isStore, dataAddr, accessSize, byte]
          · simp [storeAddr, isStore, dataAddr, accessSize, half]
          · simp [storeAddr, isStore, dataAddr, accessSize, word]

theorem stepBody_clint (running : s.hart.halted = false) (quiet : s.storesClint = false) :
    s.stepBody.1.clint = s.clint := by
  unfold stepBody
  rcases fetched : s.memory.fetch s.hart.pc 0#32 with ⟨result, inst⟩
  cases result with
  | misaligned => rfl
  | accessFault => rfl
  | ok =>
      have word : s.word = inst := congrArg Prod.snd fetched
      apply execute_clint
      intro checked a addr
      rw [storesClint, running, fetched, word, checked, addr] at quiet
      exact quiet

theorem halted_succ {n : Nat} (halted : (s.run n).hart.halted = true) : s.run (n + 1) = s.run n := by
  rw [run_succ, stepInst, if_pos halted]
  rfl

theorem run_succ_running {n : Nat} (running : (s.run n).hart.halted = false) :
    s.run (n + 1) = (s.run n).stepBody.1.tick := by
  rw [run_succ, stepInst, running]
  rfl

/-- As long as the hart runs, the counter is the number of instructions executed. -/
theorem time_run (start : s.clint.time = 0#64) (quiet : ∀ k, (s.run k).storesClint = false)
    (n : Nat) (running : (s.run n).hart.halted = false) :
    (s.run n).clint.time = BitVec.ofNat 64 n := by
  induction n with
  | zero => exact start
  | succ n ih =>
      cases halted : (s.run n).hart.halted with
      | true =>
          rw [halted_succ halted, halted] at running
          contradiction
      | false =>
          rw [run_succ_running halted]
          show ((s.run n).stepBody.1.clint.time + 1#64) = _
          rw [stepBody_clint halted (quiet n), ih halted, BitVec.ofNat_add]

/-- A load of a half that retires has the half of the counter. -/
theorem LoadsMtime.rdValue {h : MtimeHalf} (loads : s.LoadsMtime h) (map : SameMap s)
    {ev : CommitEvent}
    (event : s.stepInst.map Prod.snd = some ev) (quiet : ev.exception = false) :
    ev.rdValue = Clint.half ⟨s.clint.time⟩ h := by
  obtain ⟨fetched, type, addr⟩ := loads
  have running : s.hart.halted = false := by
    by_contra halted
    rw [stepInst, if_pos (Bool.not_eq_false _ |>.mp halted)] at event
    cases event
  have body : s.stepBody = s.execute (decode s.word) := by
    unfold stepBody word at *
    rcases answer : s.memory.fetch s.hart.pc 0#32 with ⟨result, inst⟩
    rw [answer] at fetched
    rw [show result = .ok from fetched]
  rw [stepInst, running, if_neg (by decide), body] at event
  obtain rfl : (s.execute (decode s.word)).2 = ev := Option.some.inj event
  generalize decode s.word = d at type addr quiet ⊢
  have target : s.hart.readReg d.rs1 + d.imm = h.addr := by
    rw [dataAddr, type, if_neg (by decide)] at addr
    exact Option.some.inj addr
  have load : s.clint.load h.addr 4#32 = some (Clint.half ⟨s.clint.time⟩ h) := by
    have inside : s.clint.cfg.inClint h.addr = true := by
      rw [map.clint, map.inClint, h.inside]
    rw [Clint.load, inside, map.clint, map.base]
    cases h <;> rfl
  have window : s.cfg.inClint h.addr = true := by
    rw [map.inClint, h.inside]
  cases checked : reservedReg d with
  | true =>
      rw [execute, if_pos checked] at quiet
      cases quiet
  | false =>
      simp [execute, checked, type, target, executeLoad, loadMem, window, accessSize, load, retire,
        loadValue, accessSext]

theorem halted_run {m : Nat} (halted : (s.run m).hart.halted = true) (n : Nat) (after : m ≤ n) :
    (s.run n).hart.halted = true := by
  induction n, after using Nat.le_induction with
  | base => exact halted
  | succ n _ before =>
      rw [halted_succ before]
      exact before

end EmulatorIss

/-! ## The two models -/

/-- Every word load of a half that retires as number `k` reads this half of `k`, in the core,
in the reference model, and so the same in both.  In the core the value is the one that MEM
hands to WB, whatever `rd` is. -/
structure TimeAgrees (s : RtlIss) (e : EmulatorIss) : Prop where
  core : ∀ t h, (s.run t).top.pipeline.LoadsMtime h →
    (s.run (t + 1)).top.pipeline.commitValid = true →
    (s.run (t + 1)).top.pipeline.commitException = false →
    (s.run (t + 1)).top.pipeline.memWb.rdValue = h.ofCount (s.commitsBefore (t + 1))
  reference : ∀ k h ev, (e.run k).LoadsMtime h → e.event k = some ev → ev.exception = false →
    ev.rdValue = h.ofCount k
  same : ∀ t h ev, (s.run t).top.pipeline.LoadsMtime h →
    (s.run (t + 1)).top.pipeline.commitValid = true →
    (s.run (t + 1)).top.pipeline.commitException = false →
    (e.run (s.commitsBefore (t + 1))).LoadsMtime h →
    e.event (s.commitsBefore (t + 1)) = some ev → ev.exception = false →
    (s.run (t + 1)).top.pipeline.memWb.rdValue = ev.rdValue

/-- Each load of a half finds WB empty in its cycle in MEM, or the commit beside it does not
carry into the high half that it reads. -/
def SeesEachCommit (s : RtlIss) : Prop :=
  ∀ t h, (s.run t).top.pipeline.LoadsMtime h →
    (s.run t).top.pipeline.commitValid = false ∨
      (h = .mtimeh ∧ s.commitsBefore (t + 1) % 2 ^ 32 ≠ 0)

theorem commitsBefore_succ (s : RtlIss) (t : Nat) : s.commitsBefore (t + 1) =
    s.commitsBefore t + if (s.run t).top.pipeline.commitValid = true then 1 else 0 :=
  Nat.count_succ _ t

section

variable (s : RtlIss) (e : EmulatorIss) (cfg : Config) (ram : Nat → BitVec 8)

/-- The load reads the commits before its cycle in MEM. -/
theorem rdValue_of_loads (image : Memory)
    (quiet : ∀ t, ¬ ((s.boot image).run t).top.pipeline.StoresClint) {t : Nat} {h : MtimeHalf}
    (loads : ((s.boot image).run t).top.pipeline.LoadsMtime h) :
    ((s.boot image).run (t + 1)).top.pipeline.memWb.rdValue =
      h.ofCount ((s.boot image).commitsBefore t) := by
  have wf := (coreWf_run s image t).pipeline
  have time : ((s.boot image).run t).top.pipeline.clint.mtime =
      BitVec.ofNat 64 ((s.boot image).commitsBefore t) := by
    obtain ⟨p, run⟩ := s.boot_pipeline image
    simp only [run] at quiet
    simp only [RtlIss.commitsBefore, run]
    exact Pipeline.mtime_run p _ quiet t
  rw [RtlIss.run_succ, RtlIss.toggleClock_pipeline, loads.rdValue wf, MtimeHalf.ofCount, ← time]

theorem commits_of_loads (image : Memory) {t : Nat} {h : MtimeHalf}
    (loads : ((s.boot image).run t).top.pipeline.LoadsMtime h) :
    ((s.boot image).run (t + 1)).top.pipeline.commitValid = true ∧
      ((s.boot image).run (t + 1)).top.pipeline.commitException = false := by
  have wf := (coreWf_run s image t).pipeline
  rw [RtlIss.run_succ, RtlIss.toggleClock_pipeline]
  exact ⟨loads.commits wf _, loads.commits_quiet wf (Core.clint_noFault loads.clint _).1 rfl⟩

/-- In every program that does not store to the CLINT. -/
theorem reference_time (map : SameMap (e.bootAt cfg ram))
    (quiet : ∀ k, ((e.bootAt cfg ram).run k).storesClint = false) {k : Nat}
    {h : MtimeHalf} {ev : CommitEvent} (loads : ((e.bootAt cfg ram).run k).LoadsMtime h)
    (event : (e.bootAt cfg ram).event k = some ev) (clean : ev.exception = false) :
    ev.rdValue = h.ofCount k := by
  have config := (e.bootAt cfg ram).config_run k
  have here : SameMap ((e.bootAt cfg ram).run k) :=
    ⟨config.cfg ▸ map.base, config.cfg ▸ map.size, config.clint.trans config.cfg.symm⟩
  have running : ((e.bootAt cfg ram).run k).hart.halted = false := by
    by_contra halted
    rw [EmulatorIss.event, EmulatorIss.stepInst, if_pos (Bool.not_eq_false _ |>.mp halted)] at event
    cases event
  rw [loads.rdValue here event clean,
    EmulatorIss.time_run rfl quiet k running, MtimeHalf.ofCount]

/-- For every program without stores to the CLINT, from reset, under every configuration that
has the CLINT where the core has it: the two models agree on time exactly when no load of a
half has a commit beside it in WB that shows in this half. -/
theorem timeAgrees_iff (map : SameMap (e.bootAt cfg ram))
    (quietCore : ∀ t, ¬ ((s.boot ⟨cfg, ram⟩).run t).top.pipeline.StoresClint)
    (quietReference : ∀ k, ((e.bootAt cfg ram).run k).storesClint = false) :
    TimeAgrees (s.boot ⟨cfg, ram⟩) (e.bootAt cfg ram) ↔ SeesEachCommit (s.boot ⟨cfg, ram⟩) := by
  constructor
  · intro agrees t h loads
    obtain ⟨commits, clean⟩ := commits_of_loads s ⟨cfg, ram⟩ loads
    have value := agrees.core t h loads commits clean
    rw [rdValue_of_loads s ⟨cfg, ram⟩ quietCore loads, commitsBefore_succ] at value
    cases beside : ((s.boot ⟨cfg, ram⟩).run t).top.pipeline.commitValid with
    | false => exact .inl rfl
    | true =>
        rw [beside, if_pos rfl] at value
        rw [commitsBefore_succ, beside, if_pos rfl]
        exact .inr ((half_of_count_iff h _).mp value)
  · intro sees
    have core : ∀ t h, ((s.boot ⟨cfg, ram⟩).run t).top.pipeline.LoadsMtime h →
        ((s.boot ⟨cfg, ram⟩).run (t + 1)).top.pipeline.memWb.rdValue =
          h.ofCount ((s.boot ⟨cfg, ram⟩).commitsBefore (t + 1)) := by
      intro t h loads
      have shown := sees t h loads
      rw [rdValue_of_loads s ⟨cfg, ram⟩ quietCore loads]
      rw [commitsBefore_succ] at shown ⊢
      cases beside : ((s.boot ⟨cfg, ram⟩).run t).top.pipeline.commitValid with
      | false => rfl
      | true =>
          rw [beside, if_pos rfl] at shown
          rw [if_pos rfl]
          exact (half_of_count_iff h _).mpr (shown.resolve_left (by decide))
    refine ⟨fun t h loads _ _ => core t h loads, ?_, ?_⟩
    · intro k h ev loads event clean
      exact reference_time e cfg ram map quietReference loads event clean
    · intro t h ev loads _ _ loads' event clean
      rw [core t h loads, reference_time e cfg ram map quietReference loads' event clean]

end

/-! ## Two programs that read the time -/

/-- A run that falls asleep stores nothing to the CLINT after it. -/
theorem noStore_of_asleep {s : RtlIss} {m : Nat} (asleep : (s.run m).top.Asleep)
    (quiet : ∀ t, t < m → (s.run t).top.pipeline.lsu.memWrite = false) (t : Nat) :
    ¬ (s.run t).top.pipeline.StoresClint := by
  intro stores
  have writes := stores.writes
  by_cases awake : t < m
  · rw [quiet t awake] at writes
    contradiction
  · have empty := (asleep_kept asleep t (Nat.le_of_not_lt awake)).quiet.back.exMem
    simp [Pipeline.lsu, empty] at writes

theorem noStore_of_halted {e : EmulatorIss} {m : Nat} (halted : (e.run m).hart.halted = true)
    (quiet : ∀ k, k < m → (e.run k).storesClint = false) (k : Nat) :
    (e.run k).storesClint = false := by
  by_cases running : k < m
  · exact quiet k running
  · rw [EmulatorIss.storesClint, EmulatorIss.halted_run halted k (Nat.le_of_not_lt running)]
    rfl

/-- The load is the first word of its line, so its fetch misses and WB is empty. -/
def lateClockRead : Nat → BitVec 8 := Memory.ram (Memory.ofWords
  [0x0200C137#32,  -- lui x2, 0x200C
   0x00000013#32, 0x00000013#32, 0x00000013#32,
   0xFF812183#32,  -- lw x3, -8(x2)
   0x00100073#32])  -- ebreak

/-- The load is right behind the LUI. -/
def earlyClockRead : Nat → BitVec 8 := Memory.ram (Memory.ofWords
  [0x0200C137#32,  -- lui x2, 0x200C
   0xFF812183#32,  -- lw x3, -8(x2)
   0x00100073#32])  -- ebreak

set_option maxRecDepth 100000 in
theorem lateClockRead_asleep : (((default : RtlIss).boot ⟨{}, lateClockRead⟩).run 40).top.Asleep :=
  ⟨⟨by decide +kernel, by decide +kernel, by decide +kernel,
    ⟨by decide +kernel, by decide +kernel, by decide +kernel⟩⟩, by decide +kernel,
    by decide +kernel⟩

set_option maxRecDepth 100000 in
theorem earlyClockRead_asleep :
    (((default : RtlIss).boot ⟨{}, earlyClockRead⟩).run 20).top.Asleep :=
  ⟨⟨by decide +kernel, by decide +kernel, by decide +kernel,
    ⟨by decide +kernel, by decide +kernel, by decide +kernel⟩⟩, by decide +kernel,
    by decide +kernel⟩

set_option maxRecDepth 100000 in
/-- The load is instruction 4 and reads 4, in cycle 24. -/
theorem lateClockRead_agrees :
    TimeAgrees ((default : RtlIss).boot ⟨{}, lateClockRead⟩)
        ((default : EmulatorIss).boot lateClockRead) ∧
      (((default : RtlIss).boot ⟨{}, lateClockRead⟩).run 24).top.pipeline.commitRdValue = 4#32 := by
  refine ⟨(timeAgrees_iff default default {} lateClockRead ⟨rfl, rfl, rfl⟩
    (noStore_of_asleep lateClockRead_asleep (by decide +kernel))
    (noStore_of_halted (m := 6) (by decide +kernel) (by decide +kernel))).mpr ?_,
    by decide +kernel⟩
  intro t h loads
  left
  by_cases awake : t < 40
  · have alone : ∀ t, t < 40 →
        (((default : RtlIss).boot ⟨{}, lateClockRead⟩).run t).top.pipeline.lsu.memRead = true →
        (((default : RtlIss).boot ⟨{}, lateClockRead⟩).run t).top.pipeline.commitValid = false := by
      decide +kernel
    exact alone t awake loads.reads
  · exact asleep_run lateClockRead_asleep t (Nat.le_of_not_lt awake)

set_option maxRecDepth 100000 in
/-- The load is instruction 1; the core reads 0 in cycle 12, with the LUI in WB. -/
theorem earlyClockRead_differs :
    (∀ t, ¬ (((default : RtlIss).boot ⟨{}, earlyClockRead⟩).run t).top.pipeline.StoresClint) ∧
      (∀ k, (((default : EmulatorIss).boot earlyClockRead).run k).storesClint = false) ∧
      ¬ TimeAgrees ((default : RtlIss).boot ⟨{}, earlyClockRead⟩)
        ((default : EmulatorIss).boot earlyClockRead) := by
  refine ⟨noStore_of_asleep earlyClockRead_asleep (by decide +kernel),
    noStore_of_halted (m := 3) (by decide +kernel) (by decide +kernel), ?_⟩
  intro agrees
  have value := agrees.core 12 .mtime
    ⟨by decide +kernel, by decide +kernel, by decide +kernel⟩ (by decide +kernel)
    (by decide +kernel)
  have count : ((default : RtlIss).boot ⟨{}, earlyClockRead⟩).commitsBefore 13 = 1 := by
    decide +kernel
  rw [count] at value
  exact absurd value (by decide +kernel)

end NpcMachine.Emulator
