/-
# Emulator.StopConditions -- `run_with_condition` stops at the first retirement that meets a
condition

The conditions are stated on the states and events of the model, counted from the start of
the run.  The loop keeps counters instead (`LoopState.Counts`), the one for a pc that stands
still among them; up to the stop they tell the same (`stop_eq_none_iff`).
-/
import NpcMachine.Emulator.RunLoop

namespace NpcMachine.Emulator

open Machine

set_option autoImplicit false

namespace EmulatorIss

variable (s : EmulatorIss)

/-- The event of call `k` is no exception, at `pc`. -/
def RetiredAt (pc : U32) (k : Nat) : Prop :=
  ∃ ev, s.event k = some ev ∧ ev.exception = false ∧ ev.pc = pc

/-- The last `length` of `n` retirements are no exceptions and all at `pc`. -/
def StuckAt (pc : U32) (length n : Nat) : Prop :=
  length ≤ n ∧ ∀ k, n - length ≤ k → k < n → s.RetiredAt pc k

/-- The last `length` of `n` retirements are no exceptions and all at one pc. -/
def PcStuck (length n : Nat) : Prop := ∃ pc, s.StuckAt pc length n

end EmulatorIss

/-- An enabled condition holds after `n` retirements of the run. -/
inductive Shell.StopHolds (sh : Shell) (cond : RunCondition) (n : Nat) : Prop where
  | maxCycles (enabled : sh.limits.maxCycles ≠ 0#64)
      (reached : sh.limits.maxCycles.toNat ≤ (sh.iss.run n).cycle.toNat)
  | pcStuck (enabled : sh.limits.maxPcStuck ≠ 0#32)
      (stuck : sh.iss.PcStuck sh.limits.maxPcStuck.toNat n)
  | maxInst (enabled : cond.maxInst ≠ 0#64) (reached : cond.maxInst.toNat ≤ n)
  | pc (enabled : cond.stopPc = true) (there : (sh.iss.run n).hart.pc = cond.targetPc)
  | reg (enabled : cond.stopReg = true)
      (there : (sh.iss.run n).hart.readReg cond.targetReg = cond.targetRegValue)
  | uart (enabled : cond.stopUart = true)
      (fires : checkUartTrigger (sh.iss.run n).uart.output cond.uartSeenBefore cond.targetUart = true)
  | breakpoint (there : (sh.iss.run n).hart.pc ∈ sh.breakpoints)

/-- The run is over after `n` retirements: `step_inst` has no further instruction, or a
retirement has been made and a condition holds. -/
def Shell.RunOver (sh : Shell) (cond : RunCondition) (n : Nat) : Prop :=
  (sh.iss.run n).stepInst = none ∨ 0 < n ∧ sh.StopHolds cond n

/-- The first number of retirements after which the run is over. -/
def Shell.FirstOver (sh : Shell) (cond : RunCondition) (n : Nat) : Prop :=
  sh.RunOver cond n ∧ ∀ k, k < n → ¬ sh.RunOver cond k

/-! ## The counter of the pc -/

section Streak

variable {s : EmulatorIss} {pc : U32} {length n : Nat}

/-- The counter and its pc after `n` retirements: the longest end of the run at one pc. -/
structure Streak (s : EmulatorIss) (n : Nat) (pc : U32) (count : Nat) : Prop where
  stuck : s.StuckAt pc count n
  longest : ∀ length other, s.StuckAt other length n → length ≤ count
  zero : count = 0 → pc = 0#32

theorem stuckAt_zero (s : EmulatorIss) (pc : U32) (n : Nat) : s.StuckAt pc 0 n :=
  ⟨Nat.zero_le n, fun _ low high => absurd (Nat.lt_of_le_of_lt low high) (by simp)⟩

theorem streak_start (s : EmulatorIss) : Streak s 0 0#32 0 where
  stuck := stuckAt_zero s _ _
  longest _ _ held := held.1
  zero _ := rfl

/-- A longer end at one pc is the last retirement and an end before it. -/
theorem stuckAt_succ_iff :
    s.StuckAt pc (length + 1) (n + 1) ↔ s.RetiredAt pc n ∧ s.StuckAt pc length n := by
  unfold EmulatorIss.StuckAt
  rw [Nat.add_le_add_iff_right, Nat.add_sub_add_right]
  constructor
  · rintro ⟨fits, held⟩
    exact ⟨held n (Nat.sub_le n length) (Nat.lt_succ_self n), fits,
      fun k low high => held k low (Nat.lt_succ_of_lt high)⟩
  · rintro ⟨last, fits, held⟩
    refine ⟨fits, fun k low high => ?_⟩
    rcases Nat.lt_succ_iff_lt_or_eq.mp high with lower | rfl
    · exact held k low lower
    · exact last

theorem EmulatorIss.RetiredAt.eq {other : U32} {ev : CommitEvent} (retired : s.RetiredAt other n)
    (event : s.event n = some ev) : ev.exception = false ∧ ev.pc = other := by
  obtain ⟨same, found, fine, there⟩ := retired
  obtain rfl : same = ev := Option.some.inj (found.symm.trans event)
  exact ⟨fine, there⟩

variable {count : Nat} {ev : CommitEvent}

/-- Behind an exception no retirement counts. -/
theorem Streak.exception (event : s.event n = some ev) (raised : ev.exception = true) :
    Streak s (n + 1) 0#32 0 where
  stuck := stuckAt_zero s _ _
  longest length other held := by
    cases length with
    | zero => exact Nat.le_refl 0
    | succ length =>
        have fine := ((stuckAt_succ_iff.mp held).1.eq event).1
        rw [raised] at fine
        cases fine
  zero _ := rfl

/-- A retirement at the same pc counts one more. -/
theorem Streak.more (streak : Streak s n pc count) (event : s.event n = some ev)
    (fine : ev.exception = false) (same : ev.pc = pc) : Streak s (n + 1) pc (count + 1) where
  stuck := stuckAt_succ_iff.mpr ⟨⟨ev, event, fine, same⟩, streak.stuck⟩
  longest length other held := by
    cases length with
    | zero => exact Nat.zero_le _
    | succ length => exact Nat.succ_le_succ (streak.longest length other (stuckAt_succ_iff.mp held).2)
  zero none := absurd none (Nat.succ_ne_zero count)

/-- A retirement at another pc is the first there. -/
theorem Streak.other (streak : Streak s n pc count) (event : s.event n = some ev)
    (fine : ev.exception = false) (differs : ev.pc ≠ pc) : Streak s (n + 1) ev.pc 1 where
  stuck := stuckAt_succ_iff.mpr ⟨⟨ev, event, fine, rfl⟩, stuckAt_zero s _ _⟩
  longest length other held := by
    match length with
    | 0 | 1 => omega
    | length + 2 =>
        -- the retirement before this one is at the same pc, but the counter stands elsewhere
        exfalso
        obtain ⟨last, before⟩ := stuckAt_succ_iff.mp held
        obtain rfl : ev.pc = other := (last.eq event).2
        have counted := streak.longest (length + 1) ev.pc before
        have pos : 0 < n := Nat.lt_of_lt_of_le (Nat.succ_pos length) before.1
        obtain ⟨found, happened, -, there⟩ := before.2 (n - 1) (by omega) (by omega)
        obtain ⟨again, happenedAgain, -, at'⟩ := streak.stuck.2 (n - 1) (by omega) (by omega)
        obtain rfl : found = again := Option.some.inj (happened.symm.trans happenedAgain)
        exact differs (there.symm.trans at')
  zero none := absurd none Nat.one_ne_zero

theorem Streak.pcStuck_iff (streak : Streak s n pc count) :
    s.PcStuck length n ↔ length ≤ count := by
  constructor
  · rintro ⟨other, held⟩
    exact streak.longest length other held
  · intro fits
    refine ⟨pc, Nat.le_trans fits streak.stuck.1, fun k low high => streak.stuck.2 k ?_ high⟩
    omega

end Streak

/-! ## The counters of the loop -/

/-- The loop's counters tell the history of the run, as long as they are needed. -/
structure LoopState.Counts (sh : Shell) (cond : RunCondition) (n : Nat) (st : LoopState) : Prop where
  iss : st.iss = sh.iss.run n
  count : cond.maxInst ≠ 0#64 → st.count.toNat = n
  streak : sh.limits.maxPcStuck ≠ 0#32 → Streak sh.iss n st.stuckPc st.stuckCount.toNat

section Counts

variable {sh : Shell} {cond : RunCondition} {n : Nat} {st : LoopState}

/-- The tests after a retirement find nothing where no condition holds, and only there. -/
theorem stop_eq_none_iff (counts : st.Counts sh cond n) :
    st.stop sh.limits sh.breakpoints cond = none ↔ ¬ sh.StopHolds cond n := by
  have cycles : sh.limits.maxCycles.ule st.iss.cycle = true ↔
      sh.limits.maxCycles.toNat ≤ (sh.iss.run n).cycle.toNat := by
    rw [counts.iss, BitVec.ule_eq_decide_le, decide_eq_true_eq, BitVec.le_def]
  unfold LoopState.stop
  rw [counts.iss] at cycles ⊢
  constructor
  · intro silent holds
    split_ifs at silent with c1 c2 c3 c4 c5 c6 c7
    cases holds with
    | maxCycles enabled reached => exact c1 ⟨enabled, cycles.mpr reached⟩
    | pcStuck enabled stuck =>
        have reached := (counts.streak enabled).pcStuck_iff.mp stuck
        exact c2 ⟨enabled, by rwa [BitVec.ule_eq_decide_le, decide_eq_true_eq, BitVec.le_def]⟩
    | maxInst enabled reached =>
        rw [← counts.count enabled] at reached
        exact c3 ⟨enabled, by rwa [BitVec.ule_eq_decide_le, decide_eq_true_eq, BitVec.le_def]⟩
    | pc enabled there => exact c4 ⟨enabled, there⟩
    | reg enabled there => exact c5 ⟨enabled, there⟩
    | uart enabled fires => exact c6 ⟨enabled, fires⟩
    | breakpoint there => exact c7 there
  · intro none
    split_ifs with c1 c2 c3 c4 c5 c6 c7
    · exact absurd (.maxCycles c1.1 (cycles.mp c1.2)) none
    · have reached := c2.2
      rw [BitVec.ule_eq_decide_le, decide_eq_true_eq, BitVec.le_def] at reached
      exact absurd (.pcStuck c2.1 ((counts.streak c2.1).pcStuck_iff.mpr reached)) none
    · have reached := c3.2
      rw [BitVec.ule_eq_decide_le, decide_eq_true_eq, BitVec.le_def, counts.count c3.1] at reached
      exact absurd (.maxInst c3.1 reached) none
    · exact absurd (.pc c4.1 c4.2) none
    · exact absurd (.reg c5.1 c5.2) none
    · exact absurd (.uart c6.1 c6.2) none
    · exact absurd (.breakpoint c7) none
    · rfl

theorem counts_start (sh : Shell) (cond : RunCondition) :
    LoopState.Counts sh cond 0 { iss := sh.iss } where
  iss := rfl
  count _ := rfl
  streak _ := streak_start sh.iss

/-- A counter that has not come to its limit does not wrap. -/
theorem toNat_add_one_of_lt {w : Nat} {x limit : BitVec w} (below : x.toNat < limit.toNat) :
    (x + 1#w).toNat = x.toNat + 1 := by
  have bound := limit.isLt
  rw [BitVec.toNat_add, BitVec.toNat_ofNat, Nat.add_mod_mod, Nat.mod_eq_of_lt (by omega)]

/-- One retirement of a run that is not over keeps the counters right. -/
theorem LoopState.Counts.advance (counts : st.Counts sh cond n) (goes : ¬ sh.RunOver cond n) :
    st.advance.Counts sh cond (n + 1) := by
  obtain ⟨⟨next, ev⟩, step⟩ := Option.ne_none_iff_exists'.mp fun none => goes (Or.inl none)
  have happened : sh.iss.event n = some ev := by
    rw [EmulatorIss.event, step]
    rfl
  rw [LoopState.advance, counts.iss, step]
  have notYet (holds : sh.StopHolds cond n) (pos : 0 < n) : False := goes (Or.inr ⟨pos, holds⟩)
  refine ⟨?_, fun enabled => ?_, fun enabled => ?_⟩
  · rw [EmulatorIss.run_succ, step]
    rfl
  · have count := counts.count enabled
    have limit : 0 < cond.maxInst.toNat :=
      Nat.pos_of_ne_zero fun zero => enabled (BitVec.eq_of_toNat_eq zero)
    have below : st.count.toNat < cond.maxInst.toNat := by
      rw [count]
      by_contra reached
      exact notYet (.maxInst enabled (by omega)) (by omega)
    exact (toNat_add_one_of_lt below).trans (by rw [count])
  · have streak := counts.streak enabled
    have limit : 0 < sh.limits.maxPcStuck.toNat :=
      Nat.pos_of_ne_zero fun zero => enabled (BitVec.eq_of_toNat_eq zero)
    have below : st.stuckCount.toNat < sh.limits.maxPcStuck.toNat := by
      by_contra reached
      have stuck := streak.pcStuck_iff.mpr (Nat.not_lt.mp reached)
      exact notYet (.pcStuck enabled stuck) (by have := stuck.choose_spec.1; omega)
    show Streak sh.iss (n + 1) (st.retired next ev).stuckPc (st.retired next ev).stuckCount.toNat
    unfold LoopState.retired
    cases raised : ev.exception with
    | true =>
        simp only [Bool.not_true, Bool.false_and, Bool.false_eq_true, if_false, if_true]
        exact Streak.exception happened raised
    | false =>
        by_cases same : ev.pc = st.stuckPc
        · simp only [same, Bool.not_false, Bool.true_and, beq_self_eq_true, if_true,
            toNat_add_one_of_lt below]
          exact streak.more happened raised same
        · simp only [beq_eq_false_iff_ne.mpr same, Bool.not_false, Bool.and_false,
            Bool.false_eq_true, if_false]
          exact streak.other happened raised same

/-- Up to the first place where the run is over the counters are right. -/
theorem counts_after (goes : ∀ k, k < n → ¬ sh.RunOver cond k) :
    (LoopState.after { iss := sh.iss } n).Counts sh cond n := by
  induction n with
  | zero => exact counts_start sh cond
  | succ n ih =>
      rw [LoopState.after_succ]
      exact (ih fun k below => goes k (Nat.lt_succ_of_lt below)).advance (goes n (Nat.lt_succ_self n))

/-- As long as the counters are right the loop finds a reason exactly where the run is over. -/
theorem leave_eq_none_iff (counts : (LoopState.after { iss := sh.iss } n).Counts sh cond n) :
    LoopState.leave sh.limits sh.breakpoints cond { iss := sh.iss } n = none ↔
      ¬ sh.RunOver cond n := by
  have step := EmulatorIss.stepInst_eq_none_iff (sh.iss.run n)
  rw [LoopState.leave, LoopState.after_iss, Shell.RunOver, step, not_or, not_and,
    ← stop_eq_none_iff counts, Option.or_eq_none_iff, and_comm]
  refine and_congr ?_ ?_
  · split_ifs with halted <;> simp [halted]
  · split_ifs with zero
    · simp [zero]
    · simp [Nat.pos_of_ne_zero zero]

end Counts

/-! ## The run -/

variable {sh : Shell} {cond : RunCondition} {n : Nat}

/-- Before the run is over the loop finds no reason. -/
theorem leave_of_goes (goes : ∀ k, k < n → ¬ sh.RunOver cond k) :
    ∀ k, k < n → LoopState.leave sh.limits sh.breakpoints cond { iss := sh.iss } k = none := by
  intro k below
  have earlier (j : Nat) (less : j < k) := goes j (Nat.lt_trans less below)
  exact (leave_eq_none_iff (counts_after earlier)).mpr (goes k below)

/-- Where the run is over first, the loop is left. -/
theorem firstAt_of_firstOver (first : sh.FirstOver cond n) :
    ∃ reason, FirstAt (LoopState.leave sh.limits sh.breakpoints cond { iss := sh.iss }) reason n := by
  have here := leave_eq_none_iff (counts_after first.2)
  obtain ⟨reason, found⟩ := Option.ne_none_iff_exists'.mp fun none => here.mp none first.1
  exact ⟨reason, found, leave_of_goes first.2⟩

/-- Up to `n` the run is over somewhere, so somewhere first, or nowhere. -/
theorem exists_firstOver_or (sh : Shell) (cond : RunCondition) (n : Nat) :
    (∃ k, k ≤ n ∧ sh.FirstOver cond k) ∨ ∀ k, k ≤ n → ¬ sh.RunOver cond k := by
  by_cases met : ∃ k, k ≤ n ∧ sh.RunOver cond k
  · classical
    obtain ⟨k, below, here⟩ := met
    have least := Nat.find_min' ⟨k, here⟩ here
    exact Or.inl ⟨Nat.find ⟨k, here⟩, Nat.le_trans least below, Nat.find_spec ⟨k, here⟩,
      fun j less => Nat.find_min ⟨k, here⟩ less⟩
  · exact Or.inr fun k below here => met ⟨k, below, here⟩

/-- `run_with_condition` makes exactly the retirements up to the first one after which
`step_inst` has no further instruction or an enabled condition holds; where there is none
among those it may make, it makes them all and would go on. -/
theorem runWithCondition_exact (sh : Shell) (cond : RunCondition) (fuel : Nat) :
    (∀ n, n ≤ fuel → sh.FirstOver cond n →
      (sh.runWithCondition fuel cond).events = sh.iss.events n ∧
      (sh.runWithCondition fuel cond).next = .ok ({ sh with iss := sh.iss.run n }, fuel - n)) ∧
    ((∀ n, n ≤ fuel → ¬ sh.FirstOver cond n) →
      (sh.runWithCondition fuel cond).events = sh.iss.events fuel ∧
      (sh.runWithCondition fuel cond).next = .error .outOfSteps) := by
  obtain ⟨events, last, left, used⟩ :=
    @runLoop_events sh.limits sh.breakpoints cond fuel { iss := sh.iss }
  have reasonAt := @runLoop_left_iff sh.limits sh.breakpoints cond fuel { iss := sh.iss }
  unfold Shell.runWithCondition Shell.ofLoop
  generalize runLoop sh.limits sh.breakpoints cond fuel { iss := sh.iss } = out at *
  constructor
  · intro n within first
    obtain ⟨reason, found⟩ := firstAt_of_firstOver first
    obtain ⟨stopped, length⟩ := (reasonAt reason n).mpr ⟨within, found⟩
    rw [length] at events last left
    refine ⟨events, ?_⟩
    simp only [stopped, Option.isNone_some, Bool.false_eq_true, if_false, last, LoopState.after_iss]
    rw [← left, Nat.add_sub_cancel]
  · intro never
    have goes : out.reason = none := by
      cases stopped : out.reason with
      | none => rfl
      | some reason =>
          -- the loop is left, so the run is over there or before
          obtain ⟨within, found⟩ := (reasonAt reason _).mp ⟨stopped, rfl⟩
          rcases exists_firstOver_or sh cond out.events.length with ⟨n, below, first⟩ | silent
          · exact absurd first (never n (Nat.le_trans below within))
          · have none := leave_of_goes (fun k below => silent k (Nat.le_of_lt_succ below)) _
              (Nat.lt_succ_self _)
            cases none.symm.trans found.1
    rw [used goes, Nat.zero_add] at left
    rw [left] at events
    exact ⟨events, by simp only [goes, Option.isNone_none, if_true]⟩

set_option maxRecDepth 4000 in
/-- A jump to itself stops at the third retirement. -/
example : (Shell.runWithCondition { Shell.fresh { EmulatorIss.create {} with
    memory := Memory.ofWords [0x0000006F#32] } with limits := { maxPcStuck := 3#32 } } 5
    {}).events.length = 3 := by decide

end NpcMachine.Emulator
