/-
# Emulator.Queries -- `pc()` and `reg()` of `RtlISS` behind a `step_inst`

`step_inst` returns in the cycle in which the commit is seen.  The register file takes the
result at the next edge, and `debug_pc` is the fetch end of the pipeline, so the queries show
the state after the commit exactly when the commit changes no register and nothing is in
flight behind it (`queries_iff`).  `reg` and `csr` drive the responder once more, which no
later call can see (`driveAxiMemory_clockLow`).
-/
import NpcMachine.Emulator.Difftest
import NpcMachine.Emulator.StoreOrder
import NpcMachine.Rtl.DebugPort

namespace NpcMachine.Emulator

open NpcMachine.Rtl

set_option autoImplicit false

/-! ## The queries -/

namespace RtlIss

variable (s : RtlIss)

def pc : U32 := s.top.pipeline.debugPc

/-- `reg`; both queries leave the responder driven once more. -/
def reg (idx : U32) : U32 × RtlIss :=
  (s.top.pipeline.regfile.debugData ((idx &&& 0xF#32).setWidth 4), s.driveAxiMemory)

def csr (addr : U32) : U32 × RtlIss :=
  (s.top.pipeline.csrFile.debugData ((addr &&& 0xFFF#32).setWidth 12), s.driveAxiMemory)

/-- The commit that the state shows. -/
def commits : List CommitEvent := if s.top.pipeline.commitValid then [s.commitEvent] else []

end RtlIss

/-- What the calls of the shell reach from `s`, with the commits of all cycles so far. -/
inductive Session (s : RtlIss) : List CommitEvent → RtlIss → Prop where
  | start : Session s [] s
  | stepCycle {log : List CommitEvent} {t : RtlIss} : Session s log t →
      Session s (log ++ t.toggleClock.commits) t.toggleClock
  | reg {log : List CommitEvent} {t : RtlIss} (idx : U32) : Session s log t →
      Session s log (t.reg idx).2
  | csr {log : List CommitEvent} {t : RtlIss} (addr : U32) : Session s log t →
      Session s log (t.csr addr).2

theorem Session.stepLoop {s t : RtlIss} {log : List CommitEvent} (session : Session s log t)
    (n : Nat) : Session s (log ++ (RtlIss.stepLoop n t).1.toList) (RtlIss.stepLoop n t).2 := by
  induction n generalizing t log with
  | zero => simpa [RtlIss.stepLoop] using session
  | succ n ih =>
      have cycle := session.stepCycle
      rw [RtlIss.stepLoop]
      cases valid : t.toggleClock.top.pipeline.commitValid with
      | true =>
          rw [RtlIss.commits, if_pos valid] at cycle
          simpa [valid] using cycle
      | false =>
          rw [RtlIss.commits, valid, if_neg (by decide), List.append_nil] at cycle
          simpa [valid] using ih cycle

/-- `step_inst` is part of a session, and adds the event that it returns. -/
theorem Session.stepInst {s t : RtlIss} {log : List CommitEvent} (session : Session s log t) :
    Session s (log ++ t.stepInst.1.toList) t.stepInst.2 :=
  session.stepLoop _

/-! ## A query is invisible -/

namespace RtlIss

/-- A drive sets every input of the core anew. -/
theorem driveAxiMemory_congr {a b : RtlIss} (top : a.top = b.top) (memory : a.memory = b.memory)
    (read : a.read = b.read) (cycle : a.cycle = b.cycle)
    (result : writeRequest a.top.axiOut = false → a.writeResult = b.writeResult) :
    a.driveAxiMemory = b.driveAxiMemory := by
  obtain ⟨topA, ioA, memoryA, resultA, readA, cycleA⟩ := a
  obtain ⟨topB, ioB, memoryB, resultB, readB, cycleB⟩ := b
  obtain rfl : topA = topB := top
  obtain rfl : memoryA = memoryB := memory
  obtain rfl : readA = readB := read
  obtain rfl : cycleA = cycleB := cycle
  unfold driveAxiMemory driveRead
  by_cases writes : writeRequest topA.axiOut = true
  · simp only [writes, if_true]
    split_ifs <;> rfl
  · obtain rfl : resultA = resultB := result (Bool.not_eq_true _ ▸ writes)
    simp only [writes]
    split_ifs <;> rfl

@[simp] theorem driveAxiMemory_cycle (s : RtlIss) : s.driveAxiMemory.cycle = s.cycle := by
  unfold driveAxiMemory
  split <;> rfl

theorem driveAxiMemory_result {s : RtlIss} (idle : writeRequest s.top.axiOut = false) :
    s.driveAxiMemory.writeResult = s.writeResult := by
  rw [driveAxiMemory, if_neg (by simp [idle])]

variable {s : RtlIss}

/-- A state whose RAM has the store of MEM already. -/
theorem driveAxiMemory_twice (settled : s.driveAxiMemory.memory = s.memory) :
    s.driveAxiMemory.driveAxiMemory = s.driveAxiMemory := by
  apply driveAxiMemory_congr s.driveAxiMemory_top settled s.driveAxiMemory_read
    s.driveAxiMemory_cycle
  intro idle
  rw [driveAxiMemory_top] at idle
  exact driveAxiMemory_result idle

/-- The next cycle starts as it would have without the query. -/
theorem driveAxiMemory_clockLow (settled : s.driveAxiMemory.memory = s.memory) :
    s.driveAxiMemory.clockLow = s.clockLow := by
  unfold clockLow
  apply driveAxiMemory_congr
  · exact s.driveAxiMemory_top
  · exact settled
  · rw [waited, waited, driveAxiMemory_read]
  · exact s.driveAxiMemory_cycle
  · intro idle
    have idle' : writeRequest s.top.axiOut = false := by
      rw [← s.driveAxiMemory_top]
      exact idle
    exact driveAxiMemory_result idle'

theorem driveAxiMemory_toggleClock (settled : s.driveAxiMemory.memory = s.memory) :
    s.driveAxiMemory.toggleClock = s.toggleClock := by
  unfold toggleClock
  rw [driveAxiMemory_clockLow settled]

end RtlIss

section

variable (s : RtlIss) (image : Memory)

theorem settled_run (n : Nat) :
    ((s.boot image).run n).driveAxiMemory.memory = ((s.boot image).run n).memory := by
  rw [RtlIss.driveAxiMemory_memory _ (coreWf_run s image n).pipeline, memory_requested]

/-- The commits of the cycles `1` to `n`. -/
def RtlIss.commitLog (s : RtlIss) : Nat → List CommitEvent
  | 0 => []
  | n + 1 => s.commitLog n ++ (s.run (n + 1)).commits

/-- A session is a run, with one more drive at its end or without. -/
theorem session_run {log : List CommitEvent} {t : RtlIss} (session : Session (s.boot image) log t) :
    ∃ n, log = (s.boot image).commitLog n ∧
      (t = (s.boot image).run n ∨ t = ((s.boot image).run n).driveAxiMemory) := by
  induction session with
  | start => exact ⟨0, rfl, .inl rfl⟩
  | stepCycle session ih =>
      obtain ⟨n, rfl, rfl | rfl⟩ := ih
      · exact ⟨n + 1, rfl, .inl rfl⟩
      · rw [RtlIss.driveAxiMemory_toggleClock (settled_run s image n)]
        exact ⟨n + 1, rfl, .inl rfl⟩
  | reg idx session ih =>
      obtain ⟨n, rfl, rfl | rfl⟩ := ih
      · exact ⟨n, rfl, .inr rfl⟩
      · exact ⟨n, rfl, .inr (RtlIss.driveAxiMemory_twice (settled_run s image n))⟩
  | csr addr session ih =>
      obtain ⟨n, rfl, rfl | rfl⟩ := ih
      · exact ⟨n, rfl, .inr rfl⟩
      · exact ⟨n, rfl, .inr (RtlIss.driveAxiMemory_twice (settled_run s image n))⟩

/-- So the core of a session is in a state of the run. -/
theorem session_top {log : List CommitEvent} {t : RtlIss} (session : Session (s.boot image) log t) :
    ∃ n, log = (s.boot image).commitLog n ∧ t.top = ((s.boot image).run n).top := by
  obtain ⟨n, same, rfl | rfl⟩ := session_run s image session
  · exact ⟨n, same, rfl⟩
  · exact ⟨n, same, RtlIss.driveAxiMemory_top _⟩

/-! ## The registers behind the commits -/

/-- The value of a register after the commits of a log, from zeros. -/
def regAfter (log : List CommitEvent) (r : BitVec 4) : U32 :=
  log.foldl
    (fun value ev => if r ≠ 0#4 ∧ ev.rd = r.setWidth 32 then ev.rdValue else value) 0#32

theorem regAfter_append (log : List CommitEvent) (ev : CommitEvent) (r : BitVec 4) :
    regAfter (log ++ [ev]) r =
      if r ≠ 0#4 ∧ ev.rd = r.setWidth 32 then ev.rdValue else regAfter log r := by
  unfold regAfter
  rw [List.foldl_append]
  rfl

theorem commitRd_eq_iff : ∀ rd r : BitVec 4,
    (rd.setWidth 5).setWidth 32 = (r.setWidth 32 : U32) ↔ r = rd := by decide

theorem zero_eq_iff : ∀ r : BitVec 4, ((0#5).setWidth 32 = (r.setWidth 32 : U32)) ↔ r = 0#4 := by
  decide

/-- The edge after a commit writes its result. -/
theorem regAfter_commits (t : RtlIss) (log : List CommitEvent) (r : BitVec 4) :
    regAfter (log ++ t.commits) r =
      if t.top.pipeline.regWen = true ∧ r ≠ 0#4 ∧ r = t.top.pipeline.memWb.rd then
        t.top.pipeline.memWb.rdValue
      else regAfter log r := by
  unfold RtlIss.commits
  by_cases valid : t.top.pipeline.commitValid = true
  · rw [if_pos valid, regAfter_append]
    by_cases writes : t.top.pipeline.regWen = true
    · have rd : t.commitEvent.rd = (t.top.pipeline.memWb.rd.setWidth 5).setWidth 32 := by
        rw [RtlIss.commitEvent, Pipeline.commitRd, if_pos writes]
      have value : t.commitEvent.rdValue = t.top.pipeline.memWb.rdValue := if_pos writes
      rw [rd, value]
      simp only [commitRd_eq_iff, writes, true_and]
    · have rd : t.commitEvent.rd = (0#5).setWidth 32 := by
        rw [RtlIss.commitEvent, Pipeline.commitRd, if_neg writes]
      have none : ¬ (r ≠ 0#4 ∧ t.commitEvent.rd = r.setWidth 32) := by
        rintro ⟨other, same⟩
        rw [rd, zero_eq_iff] at same
        exact other same
      rw [if_neg none, if_neg fun all => writes all.1]
  · have silent : t.top.pipeline.regWen ≠ true := by
      intro writes
      simp only [Pipeline.regWen, Bool.and_eq_true] at writes
      exact valid writes.1.1.1
    rw [if_neg valid, List.append_nil, if_neg fun all => silent all.1]

/-- Behind each edge the register file has the commits up to the one in WB before it. -/
theorem regfile_run (n : Nat) (r : BitVec 4) :
    ((s.boot image).run (n + 1)).top.pipeline.regfile.read r =
      regAfter ((s.boot image).commitLog n) r := by
  induction n with
  | zero =>
      obtain ⟨c, reset⟩ := s.boot_top image
      rw [RtlIss.run_succ, RtlIss.toggleClock_pipeline, Pipeline.next_regfile, RtlIss.run_zero,
        reset]
      exact Regfile.read_reset r
  | succ n ih =>
      rw [RtlIss.run_succ, RtlIss.toggleClock_pipeline, Pipeline.next_regfile,
        Regfile.read_next, ih, RtlIss.commitLog, regAfter_commits]

/-! ## The chain -/

theorem chained_run (n : Nat) : ((s.boot image).run n).top.pipeline.Chained ∧
    ((s.boot image).run n).top.pipeline.PcWf := by
  obtain ⟨p, run⟩ := s.boot_pipeline image
  have pcs : ∀ k, ((s.boot image).run k).top.pipeline.PcWf := by
    intro k
    rw [run k]
    exact Pipeline.pcWf_run p _ k
  refine ⟨?_, pcs n⟩
  induction n with
  | zero =>
      rw [run 0]
      exact Pipeline.chained_reset p
  | succ n ih =>
      have wf := coreWf_run s image n
      rw [RtlIss.run_succ, RtlIss.toggleClock_pipeline]
      apply ih.next (pcs n) wf.fetch
      intro waits
      exact (idEx_of_wait wf (RtlIss.run_answers s image n).2 waits).2

/-! ## The queries behind a commit -/

/-- `pc()` is where the commit goes on, and `reg()` has the registers after it. -/
structure QueriesHold (log : List CommitEvent) (ev : CommitEvent) (after : RtlIss) : Prop where
  pc : after.pc = ev.nextPc
  reg : ∀ idx, (after.reg idx).1 = regAfter (log ++ [ev]) ((idx &&& 0xF#32).setWidth 4)

theorem stepLoop_returns {n : Nat} {t after : RtlIss} {ev : CommitEvent}
    (steps : RtlIss.stepLoop n t = (some ev, after)) :
    after.top.pipeline.commitValid = true ∧ ev = after.commitEvent := by
  induction n generalizing t with
  | zero => simp [RtlIss.stepLoop] at steps
  | succ n ih =>
      rw [RtlIss.stepLoop] at steps
      cases valid : t.toggleClock.top.pipeline.commitValid with
      | true =>
          simp only [valid, if_true, Prod.mk.injEq, Option.some.injEq] at steps
          obtain ⟨rfl, rfl⟩ := steps
          exact ⟨valid, rfl⟩
      | false =>
          simp only [valid] at steps
          exact ih steps

theorem reg_mask : ∀ r : BitVec 4, ((r.setWidth 32 : U32) &&& 0xF#32).setWidth 4 = r := by decide

/-- In every session of every program: behind a `step_inst` that returns true the queries
show the state after the commit exactly when nothing is in flight between it and the fetch,
but for an instruction in MEM that goes on at itself, and it changes no register. -/
theorem queries_iff {log : List CommitEvent} {t after : RtlIss} {ev : CommitEvent}
    (session : Session (s.boot image) log t) (steps : t.stepInst = (some ev, after)) :
    QueriesHold log ev after ↔
      after.top.pipeline.AloneInFlight ∧ regAfter (log ++ [ev]) = regAfter log := by
  obtain ⟨valid, rfl⟩ := stepLoop_returns steps
  have session' := session.stepInst
  rw [steps] at session'
  obtain ⟨n, same, top⟩ := session_top s image session'
  have pc : after.pc = after.commitEvent.nextPc ↔ after.top.pipeline.AloneInFlight := by
    obtain ⟨chained, pcs⟩ := chained_run s image n
    rw [← top] at chained pcs
    have fetch := (coreWf_run s image n).fetch
    rw [← top] at fetch
    exact Pipeline.debugPc_eq_iff chained pcs fetch valid
  have reg (r : BitVec 4) : after.top.pipeline.regfile.debugData r = regAfter log r := by
    cases n with
    | zero => exact absurd same (by simp [RtlIss.commitLog])
    | succ n =>
        rw [top] at valid
        rw [RtlIss.commitLog, RtlIss.commits, if_pos valid] at same
        rw [top, List.append_inj_left' same rfl]
        exact regfile_run s image n r
  constructor
  · intro holds
    refine ⟨pc.mp holds.pc, funext fun r => ?_⟩
    have shown := holds.reg (r.setWidth 32)
    rw [RtlIss.reg, reg_mask, reg r] at shown
    exact shown.symm
  · rintro ⟨alone, kept⟩
    refine ⟨pc.mpr alone, fun idx => ?_⟩
    rw [RtlIss.reg, reg, kept]

end

/-- `addi x1, x0, 1` and nops; the fifth word is in the next line. -/
def queryBoot : RtlIss := (default : RtlIss).boot (Memory.ofWords
  [0x00100093#32, 0x00000013#32, 0x00000013#32, 0x00000013#32, 0x00000013#32])

/-- The state before the fourth `step_inst`. -/
def beforeFourth : RtlIss := queryBoot.stepInst.2.stepInst.2.stepInst.2

def firstThree : List CommitEvent :=
  [] ++ queryBoot.stepInst.1.toList ++ queryBoot.stepInst.2.stepInst.1.toList ++
    queryBoot.stepInst.2.stepInst.2.stepInst.1.toList

set_option maxRecDepth 100000 in
/-- The fourth commit writes no register, and the fetch behind it misses. -/
theorem queries_hold_fourth : QueriesHold firstThree (beforeFourth.stepInst.1.getD default)
    beforeFourth.stepInst.2 :=
  (queries_iff default (Memory.ofWords
      [0x00100093#32, 0x00000013#32, 0x00000013#32, 0x00000013#32, 0x00000013#32])
    Session.start.stepInst.stepInst.stepInst
    (Prod.ext (by decide +kernel) rfl)).mpr
    ⟨⟨by decide +kernel, by decide +kernel⟩, funext (by decide +kernel)⟩

set_option maxRecDepth 100000 in
/-- The first commit writes 1 to `x1` and goes on at 0x20000004: `pc()` is two words further
and `reg(1)` is still 0. -/
theorem queries_fail_first : Session queryBoot [] queryBoot ∧
    queryBoot.stepInst.1.isSome = true ∧
    queryBoot.stepInst.2.pc = 0x2000000C#32 ∧ (queryBoot.stepInst.2.reg 1#32).1 = 0#32 ∧
    ¬ QueriesHold [] (queryBoot.stepInst.1.getD default) queryBoot.stepInst.2 := by
  refine ⟨.start, by decide +kernel, by decide +kernel, by decide +kernel, ?_⟩
  intro holds
  exact absurd holds.pc (by decide +kernel)

end NpcMachine.Emulator
