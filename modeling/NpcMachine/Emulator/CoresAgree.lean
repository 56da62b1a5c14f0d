/-
# Emulator.CoresAgree -- the two cores of the repository against each other

`npc_core` behind the AXI responder and `npc_single_cycle` behind the DPI memory run the
same image.  Where the reference model keeps `Contract`, both get through its instructions
(`commits_reached`, `retires_reached`) and retire each of them alike: `cores_retire_alike`.
-/
import NpcMachine.Emulator.Progress
import NpcMachine.Emulator.SingleCycleFollow

namespace NpcMachine.Emulator

open NpcMachine.Rtl NpcMachine.Machine

set_option autoImplicit false

/-- Without an exception, what matches one event matches each other. -/
theorem eventsMatch_of_common {ev a b : CommitEvent} (quiet : ev.exception = false)
    (left : eventsMatch ev a = true) (right : eventsMatch ev b = true) : eventsMatch a b = true := by
  rw [eventsMatch_iff] at left right ⊢
  obtain ⟨pc, exception, nextPc, -, all⟩ := left
  obtain ⟨pc', exception', nextPc', -, all'⟩ := right
  obtain ⟨inst, rd, value⟩ := all quiet
  obtain ⟨inst', rd', value'⟩ := all' quiet
  refine ⟨pc.symm.trans pc', exception.symm.trans exception', nextPc.symm.trans nextPc', ?_, ?_⟩
  · intro raised
    rw [← exception, quiet] at raised
    cases raised
  · intro _
    refine ⟨inst.symm.trans inst', rd.symm.trans rd', fun some_ => ?_⟩
    have named : ev.rd ≠ 0#32 := by
      rw [rd]
      exact some_
    exact (value named).symm.trans (value' named)

section Contract

variable {e : EmulatorIss} {ram : Nat → BitVec 8} {n : Nat} (contract : Contract (e.boot ram) n)
  (real : ∀ k, k < n → OpRs1Real ((e.boot ram).run k).word)

include contract real

/-! ## `npc_core` -/

/-- Nothing among the first `n` instructions halts the core. -/
theorem live_of_contract (power : RtlIss) {t : Nat}
    (early : (power.boot ⟨{}, ram⟩).commitsBefore t ≤ n) :
    ((power.boot ⟨{}, ram⟩).run t).top.pipeline.halted = false := by
  induction t with
  | zero =>
      obtain ⟨core, reset⟩ := power.boot_top ⟨{}, ram⟩
      show (power.boot ⟨{}, ram⟩).top.pipeline.halted = false
      rw [reset]
      rfl
  | succ t ih =>
      have counts : (power.boot ⟨{}, ram⟩).commitsBefore (t + 1) =
          (power.boot ⟨{}, ram⟩).commitsBefore t +
            if ((power.boot ⟨{}, ram⟩).run t).top.pipeline.commitValid = true then 1 else 0 :=
        Nat.count_succ _ _
      rw [counts] at early
      have live := ih (by omega)
      rw [RtlIss.run_succ, RtlIss.toggleClock_pipeline]
      show ((power.boot ⟨{}, ram⟩).run t).top.pipeline.nextHalted = false
      rw [Pipeline.nextHalted, live]
      have runs : ((power.boot ⟨{}, ram⟩).run t).top.pipeline.wbWillHalt = false := by
        by_contra halts
        obtain ⟨valid, raised, -⟩ := Pipeline.wbWillHalt_valid (Bool.not_eq_false _ ▸ halts)
        have commits : ((power.boot ⟨{}, ram⟩).run t).top.pipeline.commitValid = true := valid
        rw [if_pos commits] at early
        have follow := follow_run e ram power contract real t (by omega)
        obtain ⟨v1, v2, wb⟩ := follow.back.memWb valid
        rw [wb.exception] at raised
        cases raised
      rw [runs]
      rfl

/-- The core gets to every one of the first `n` instructions. -/
theorem reached_of_contract (power : RtlIss) {k : Nat} (early : k < n) :
    ∃ t, t ≤ k * 26 + 25 ∧ ((power.boot ⟨{}, ram⟩).run t).top.pipeline.commitValid = true ∧
      (power.boot ⟨{}, ram⟩).commitsBefore t = k ∧
      Follow (e.boot ram) n k ((power.boot ⟨{}, ram⟩).run t) := by
  obtain ⟨t, bound, valid, count⟩ := nth_within (d := 25) (k := k)
    (f := fun t => ((power.boot ⟨{}, ram⟩).run t).top.pipeline.commitValid = true) fun t _ le => by
      have live := live_of_contract contract real power (t := t) (Nat.le_trans le early.le)
      obtain ⟨j, near, valid⟩ := (RtlIss.sound_run power ⟨{}, ram⟩ t).commits live
      rw [RtlIss.run_add] at valid
      exact ⟨j, near, valid⟩
  have counted : (power.boot ⟨{}, ram⟩).commitsBefore t = k := count
  have follow := follow_run e ram power contract real t (by rw [counted]; exact early)
  rw [counted] at follow
  exact ⟨t, bound, valid, counted, follow⟩

omit contract real in
theorem event_of_follow (power : RtlIss) {t k : Nat}
    (follow : Follow (e.boot ram) n k ((power.boot ⟨{}, ram⟩).run t))
    (valid : ((power.boot ⟨{}, ram⟩).run t).top.pipeline.commitValid = true) :
    ∃ ev, (e.boot ram).event k = some ev ∧
      eventsMatch ev ((power.boot ⟨{}, ram⟩).run t).commitEvent = true := by
  obtain ⟨v1, v2, wb⟩ := follow.back.memWb valid
  exact matches_of_atWb wb (coreWf_run power ⟨{}, ram⟩ t).pipeline valid

/-- In front of every one of the first `n` instructions the core gets to the registers of the
reference model, 26 cycles for each at most, and commits the event of the instruction. -/
theorem commits_reached (power : RtlIss) {k : Nat} (early : k < n) :
    ∃ t, t ≤ k * 26 + 25 ∧ (power.boot ⟨{}, ram⟩).commitsBefore t = k ∧
      ((power.boot ⟨{}, ram⟩).run t).top.pipeline.commitValid = true ∧
      (∀ r, ((power.boot ⟨{}, ram⟩).run t).top.pipeline.regfile.read r =
        ((e.boot ram).run k).hart.reg r) ∧
      ∃ ev, (e.boot ram).event k = some ev ∧
        eventsMatch ev ((power.boot ⟨{}, ram⟩).run t).commitEvent = true := by
  obtain ⟨t, bound, valid, count, follow⟩ := reached_of_contract contract real power early
  exact ⟨t, bound, count, valid, follow.back.regs, event_of_follow power follow valid⟩

/-! ## `npc_single_cycle` -/

/-- An instruction of the contract is one that both models treat alike. -/
theorem shared_of_contract {k : Nat} (early : k < n) : Shared ((e.boot ram).run k) := by
  obtain ⟨-, quiet, -, -⟩ := contract.executes early
  obtain ⟨base, checked⟩ := base_of_quiet quiet (contract.base k early).1 (contract.base k early).2
  have steps := contract.steps rfl real early (fun _ => rfl) (fun _ => rfl)
  have legal := steps.retires.legal
  have accepts : rtlIllegal ((e.boot ram).run k).word = false := by
    rw [rtlIllegal, legal.legal, legal.rd, legal.rs1, legal.rs2]
    rfl
  refine ⟨?_, fun _ => accepts, fun addr access => ?_, fun raised => ?_⟩
  · have known : (decode ((e.boot ram).run k).word).type ≠ .unknown := by
      intro unknown
      have type : decodeType ((e.boot ram).run k).word = .unknown := unknown
      rw [type] at base
      cases base
    simp [accepts, emulatorIllegal, checked, known]
  · obtain ⟨clint, uart⟩ := contract.device k early addr access
    exact ⟨uart, fun inside => by rw [clint] at inside; cases inside⟩
  · obtain ⟨ev, event, calm⟩ := contract.quiet k early
    rw [EmulatorIss.event, Option.map_eq_some_iff] at event
    obtain ⟨out, step, rfl⟩ := event
    obtain ⟨-, -, same⟩ := EmulatorIss.stepInst_some step
    rw [← same, calm] at raised
    cases raised

omit real in
theorem running_of_contract {k : Nat} (early : k < n) : ((e.boot ram).run k).hart.halted = false := by
  obtain ⟨ev, event, -⟩ := contract.quiet k early
  rw [EmulatorIss.event, Option.map_eq_some_iff] at event
  obtain ⟨out, step, -⟩ := event
  exact (EmulatorIss.stepInst_some step).1

/-- So does the single-cycle core, at the pace of its memory. -/
theorem retires_reached (served : Served) (image : served.memory = ⟨{}, ram⟩) {ready : Nat → Bool}
    {d k : Nat} (answers : ∀ m, ∃ gap, gap < d ∧ ready (m + gap) = true) (early : k < n)
    (cycle : BitVec 64) :
    ∃ t, t ≤ (k + 1) * (d + 1) ∧ (served.run ready t).core.commitValid = true ∧
      served.retired ready t = k + 1 ∧ ∃ ev, (e.boot ram).event k = some ev ∧
        eventsMatch ev (singleEvent (served.run ready t).core cycle) = true := by
  have same : served.reference { e with cfg := {}, clint := { e.clint with cfg := {} } } =
      e.boot ram := by
    rw [Served.reference, image]
    rfl
  have map : SameMap { e with cfg := {}, clint := { e.clint with cfg := {} } } := ⟨rfl, rfl, rfl⟩
  have shared : ∀ j, j < n → Shared ((served.reference
      { e with cfg := {}, clint := { e.clint with cfg := {} } }).run j) := by
    rw [same]
    exact fun j before => shared_of_contract contract real before
  -- The core does not halt before it has retired the instruction.
  have retires : ∃ m, m ≤ (k + 1) * (d + 1) ∧ k < served.retired ready m := by
    obtain ⟨m, bound, out⟩ := single_cycle_retires (s := served) answers (k + 1)
    refine ⟨m, bound, ?_⟩
    rcases out with halted | ⟨-, count⟩
    · by_contra behind
      have mirrors := served.mirrors_run map ready shared m (by omega)
      rw [same] at mirrors
      have live := running_of_contract contract (k := served.retired ready m) (by omega)
      rw [← mirrors.hart.halted, halted] at live
      cases live
    · omega
  obtain ⟨m, bound, more⟩ := retires
  obtain ⟨t, before, valid, count⟩ := exists_of_lt_count more
  have counted : served.retired ready t = k + 1 := by
    rw [Served.retired, Nat.count_succ, count, if_pos valid]
  obtain ⟨j, ev, number, event, agrees⟩ :=
    served.event_of_commit map ready shared t (by omega) cycle valid
  rw [same] at event agrees
  obtain rfl : j = k := by omega
  refine ⟨t, by omega, valid, counted, ev, event, ?_⟩
  rwa [CommitAgrees, (contract.executes early).1, if_pos rfl] at agrees

/-! ## Side by side -/

/-- Each of the first `n` instructions is retired by both cores, within the time of each, and
alike: `pc`, word, register, value and next `pc`. -/
theorem cores_retire_alike (power : RtlIss) (served : Served) (image : served.memory = ⟨{}, ram⟩)
    {ready : Nat → Bool} {d k : Nat} (answers : ∀ m, ∃ gap, gap < d ∧ ready (m + gap) = true)
    (early : k < n) (cycle : BitVec 64) :
    ∃ a b, a ≤ k * 26 + 25 ∧ b ≤ (k + 1) * (d + 1) ∧
      ((power.boot ⟨{}, ram⟩).run a).top.pipeline.commitValid = true ∧
      (power.boot ⟨{}, ram⟩).commitsBefore a = k ∧
      (served.run ready b).core.commitValid = true ∧ served.retired ready b = k + 1 ∧
      eventsMatch ((power.boot ⟨{}, ram⟩).run a).commitEvent
        (singleEvent (served.run ready b).core cycle) = true := by
  obtain ⟨a, before, valid, count, follow⟩ := reached_of_contract contract real power early
  obtain ⟨ev, event, left⟩ := event_of_follow power follow valid
  obtain ⟨b, before', valid', count', ev', event', right⟩ :=
    retires_reached contract real served image answers early cycle
  obtain rfl : ev = ev' := Option.some.inj (event.symm.trans event')
  obtain ⟨ev', event', quiet⟩ := contract.quiet k early
  obtain rfl : ev = ev' := Option.some.inj (event.symm.trans event')
  exact ⟨a, b, before, before', valid, count, valid', count', eventsMatch_of_common quiet left right⟩

end Contract

/-- `followImage` has a store behind two instructions. -/
def servedFollow : Served where
  core := default
  memory := ⟨{}, followImage⟩

set_option maxRecDepth 100000 in
theorem commits_reached_store : ∃ t, t ≤ 2 * 26 + 25 ∧
    ((default : RtlIss).boot ⟨{}, followImage⟩).commitsBefore t = 2 ∧
    (((default : RtlIss).boot ⟨{}, followImage⟩).run t).top.pipeline.commitValid = true ∧
    (∀ r, (((default : RtlIss).boot ⟨{}, followImage⟩).run t).top.pipeline.regfile.read r =
      (((default : EmulatorIss).boot followImage).run 2).hart.reg r) ∧
    ∃ ev, ((default : EmulatorIss).boot followImage).event 2 = some ev ∧
      eventsMatch ev (((default : RtlIss).boot ⟨{}, followImage⟩).run t).commitEvent = true :=
  commits_reached (n := 6) (by decide +kernel) (by decide +kernel) default (by decide)

set_option maxRecDepth 100000 in
theorem cores_retire_alike_store : ∃ a b, a ≤ 2 * 26 + 25 ∧ b ≤ (2 + 1) * (1 + 1) ∧
    (((default : RtlIss).boot ⟨{}, followImage⟩).run a).top.pipeline.commitValid = true ∧
    ((default : RtlIss).boot ⟨{}, followImage⟩).commitsBefore a = 2 ∧
    (servedFollow.run (fun _ => true) b).core.commitValid = true ∧
    servedFollow.retired (fun _ => true) b = 2 + 1 ∧
    eventsMatch (((default : RtlIss).boot ⟨{}, followImage⟩).run a).commitEvent
      (singleEvent (servedFollow.run (fun _ => true) b).core 0#64) = true :=
  cores_retire_alike (e := default) (n := 6) (by decide +kernel) (by decide +kernel) default
    servedFollow rfl (fun _ => ⟨0, by decide, rfl⟩) (by decide) 0#64

end NpcMachine.Emulator
