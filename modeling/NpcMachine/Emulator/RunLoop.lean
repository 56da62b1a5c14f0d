/-
# Emulator.RunLoop -- the loop of `run_with_condition`, unrolled

`LoopState.after` gives the loop's variables after `n` retirements, `LoopState.leave` what
the loop finds there.  The loop is left where `leave` first answers
(`runLoop_left_iff`), with the events up to there (`runLoop_events`).
-/
import NpcMachine.Machine.Run
import NpcMachine.Emulator.Shell

namespace NpcMachine.Emulator

open Machine

set_option autoImplicit false

namespace EmulatorIss

theorem stepInst_live (s : EmulatorIss) :
    s.stepInst = if s.hart.halted then none else some (s.stepBody.1.tick, s.stepBody.2) := rfl

/-- A live hart makes a step. -/
theorem live_of_step {s next : EmulatorIss} {ev : CommitEvent} (step : s.stepInst = some (next, ev)) :
    s.hart.halted = false :=
  (stepInst_some step).1

theorem stepInst_eq_none_iff (s : EmulatorIss) : s.stepInst = none ↔ s.hart.halted = true := by
  rw [stepInst_live]
  cases s.hart.halted <;> simp

/-- A run of `n + 1` retirements is one and a run of `n`. -/
theorem run_one_add {s next : EmulatorIss} {ev : CommitEvent} (step : s.stepInst = some (next, ev))
    (n : Nat) : s.run (n + 1) = next.run n := by
  have first : (s.stepInst.map Prod.fst).getD s = next := by
    rw [step]
    rfl
  unfold run
  rw [Function.iterate_succ_apply, first]

theorem run_add (s : EmulatorIss) (m n : Nat) : s.run (m + n) = (s.run m).run n := by
  unfold run
  rw [Nat.add_comm, Function.iterate_add_apply]

theorem event_one_add {s next : EmulatorIss} {ev : CommitEvent} (step : s.stepInst = some (next, ev))
    (n : Nat) : s.event (n + 1) = next.event n := by
  rw [event, event, run_one_add step]

/-- The events of the first `n` calls. -/
def events (s : EmulatorIss) (n : Nat) : List CommitEvent := (List.range n).filterMap s.event

theorem events_one_add {s next : EmulatorIss} {ev : CommitEvent}
    (step : s.stepInst = some (next, ev)) (n : Nat) : s.events (n + 1) = ev :: next.events n := by
  have first : s.event 0 = some ev := by
    show s.stepInst.map Prod.snd = some ev
    rw [step]
    rfl
  rw [events, List.range_succ_eq_map, List.filterMap_cons_some first, List.filterMap_map]
  exact congrArg (ev :: ·) (List.filterMap_congr fun k _ => event_one_add step k)

end EmulatorIss

namespace LoopState

/-- One retirement, without the tests. -/
def advance (st : LoopState) : LoopState :=
  match st.iss.stepInst with
  | none => st
  | some (iss, ev) => st.retired iss ev

/-- The variables after `n` retirements, without the tests. -/
def after (st : LoopState) (n : Nat) : LoopState := advance^[n] st

theorem after_succ (st : LoopState) (n : Nat) : st.after (n + 1) = (st.after n).advance :=
  Function.iterate_succ_apply' _ n st

variable {st : LoopState} {next : EmulatorIss} {ev : CommitEvent}

theorem advance_step (step : st.iss.stepInst = some (next, ev)) :
    st.advance = st.retired next ev := by
  rw [advance, step]

theorem after_one_add (step : st.iss.stepInst = some (next, ev)) (n : Nat) :
    st.after (n + 1) = (st.retired next ev).after n := by
  rw [after, Function.iterate_succ_apply, advance_step step]
  rfl

theorem after_iss (st : LoopState) (n : Nat) : (st.after n).iss = st.iss.run n := by
  induction n with
  | zero => rfl
  | succ n ih =>
      rw [after_succ, advance, EmulatorIss.run_succ, ← ih]
      cases step : (st.after n).iss.stepInst with
      | none => rfl
      | some out => rfl

end LoopState

section Loop

variable (limits : RunLimits) (breakpoints : List U32) (cond : RunCondition)

/-- What the loop finds after `n` retirements: a test that holds, or no further step. -/
def LoopState.leave (st : LoopState) (n : Nat) : Option StopReason :=
  let tests := if n = 0 then none else (st.after n).stop limits breakpoints cond
  tests.or (if (st.after n).iss.hart.halted then some .refused else none)

variable {limits breakpoints cond} {st : LoopState} {next : EmulatorIss} {ev : CommitEvent}

theorem leave_refused (refused : st.iss.stepInst = none) :
    st.leave limits breakpoints cond 0 = some .refused := by
  have halted := (EmulatorIss.stepInst_eq_none_iff _).mp refused
  simp [LoopState.leave, LoopState.after, halted]

theorem leave_live (step : st.iss.stepInst = some (next, ev)) :
    st.leave limits breakpoints cond 0 = none := by
  have live := EmulatorIss.live_of_step step
  simp [LoopState.leave, LoopState.after, live]

/-- The tests come before the next step. -/
theorem leave_one (step : st.iss.stepInst = some (next, ev)) {reason : StopReason}
    (stops : (st.retired next ev).stop limits breakpoints cond = some reason) :
    st.leave limits breakpoints cond 1 = some reason := by
  have first : st.after 1 = st.retired next ev := LoopState.after_one_add step 0
  simp [LoopState.leave, first, stops]

theorem leave_one_add (step : st.iss.stepInst = some (next, ev))
    (goes : (st.retired next ev).stop limits breakpoints cond = none) (n : Nat) :
    st.leave limits breakpoints cond (n + 1) = (st.retired next ev).leave limits breakpoints cond n := by
  unfold LoopState.leave
  rw [LoopState.after_one_add step]
  cases n with
  | zero =>
      have first : (st.retired next ev).after 0 = st.retired next ev := rfl
      rw [first, goes]
      rfl
  | succ n => rfl

/-- A hart that refuses the step is left at once. -/
theorem refused_left_iff (step : st.iss.stepInst = none) (fuel : Nat) (reason : StopReason) (n : Nat) :
    ((runLoop limits breakpoints cond fuel st).reason = some reason ∧
      (runLoop limits breakpoints cond fuel st).events.length = n) ↔
      n ≤ fuel ∧ FirstAt (st.leave limits breakpoints cond) reason n := by
  have left : (runLoop limits breakpoints cond fuel st).reason =
      st.leave limits breakpoints cond 0 ∧ (runLoop limits breakpoints cond fuel st).events = [] := by
    rw [leave_refused step]
    cases fuel <;> rw [runLoop, step] <;> exact ⟨rfl, rfl⟩
  rw [left.1, left.2]
  constructor
  · rintro ⟨answers, rfl⟩
    exact ⟨Nat.zero_le _, firstAt_zero_iff.mpr answers⟩
  · rintro ⟨-, first⟩
    obtain rfl : n = 0 := Nat.le_zero.mp (first.le (leave_refused step))
    exact ⟨first.1, rfl⟩

/-- The loop is left where it first finds a reason. -/
theorem runLoop_left_iff (fuel : Nat) (st : LoopState) (reason : StopReason) (n : Nat) :
    ((runLoop limits breakpoints cond fuel st).reason = some reason ∧
      (runLoop limits breakpoints cond fuel st).events.length = n) ↔
      n ≤ fuel ∧ FirstAt (st.leave limits breakpoints cond) reason n := by
  induction fuel generalizing st n with
  | zero =>
      cases step : st.iss.stepInst with
      | none => exact refused_left_iff step 0 reason n
      | some out =>
          rw [runLoop, Nat.le_zero, step]
          refine iff_of_false (fun left => by cases left.1) ?_
          rintro ⟨rfl, first⟩
          rw [firstAt_zero_iff, leave_live step] at first
          cases first
  | succ fuel ih =>
      cases step : st.iss.stepInst with
      | none => exact refused_left_iff step (fuel + 1) reason n
      | some out =>
          obtain ⟨next, ev⟩ := out
          rw [runLoop, step]
          have silent : st.leave limits breakpoints cond 0 = none := leave_live step
          simp only
          cases stops : (st.retired next ev).stop limits breakpoints cond with
          | some found =>
              have one := leave_one step stops
              constructor
              · rintro ⟨same, rfl⟩
                exact ⟨Nat.succ_le_succ (Nat.zero_le _), (firstAt_succ_iff silent).mpr
                  (firstAt_zero_iff.mpr (one.trans same))⟩
              · rintro ⟨-, first⟩
                obtain rfl : n = 1 := first.eq ((firstAt_succ_iff silent).mpr (firstAt_zero_iff.mpr one))
                exact ⟨one.symm.trans first.1, rfl⟩
          | none =>
              have later : (fun k => st.leave limits breakpoints cond (k + 1)) =
                  (st.retired next ev).leave limits breakpoints cond :=
                funext (leave_one_add step stops)
              cases n with
              | zero =>
                  refine iff_of_false (fun left => by cases left.2) ?_
                  rintro ⟨-, first⟩
                  rw [firstAt_zero_iff, silent] at first
                  cases first
              | succ n =>
                  rw [firstAt_succ_iff silent, later, Nat.add_le_add_iff_right, ← ih]
                  simp only [List.length_cons, Nat.add_right_cancel_iff]

/-- What the loop has made when it is left, or when its retirements are used up. -/
theorem runLoop_events (fuel : Nat) (st : LoopState) :
    let out := runLoop limits breakpoints cond fuel st
    out.events = st.iss.events out.events.length ∧ out.last = st.after out.events.length ∧
      out.left + out.events.length = fuel ∧ (out.reason = none → out.left = 0) := by
  induction fuel generalizing st with
  | zero =>
      rw [runLoop]
      exact ⟨rfl, rfl, rfl, fun _ => rfl⟩
  | succ fuel ih =>
      rw [runLoop]
      cases step : st.iss.stepInst with
      | none => exact ⟨rfl, rfl, rfl, fun none => by cases none⟩
      | some out =>
          obtain ⟨next, ev⟩ := out
          simp only
          cases stops : (st.retired next ev).stop limits breakpoints cond with
          | some found =>
              refine ⟨?_, (LoopState.after_one_add step 0).symm, rfl, fun none => by cases none⟩
              exact (EmulatorIss.events_one_add step 0).symm
          | none =>
              obtain ⟨events, last, left, used⟩ := ih (st.retired next ev)
              refine ⟨?_, ?_, ?_, used⟩
              · rw [List.length_cons, EmulatorIss.events_one_add step]
                exact congrArg (ev :: ·) events
              · rw [List.length_cons, LoopState.after_one_add step]
                exact last
              · exact congrArg Nat.succ left

end Loop

end NpcMachine.Emulator
