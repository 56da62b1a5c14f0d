/-
# RtThread.KernelRuns -- kernels after any calls

From boot, threads call the kernel in any order.

* `calls_complete`: no assertion fails, no null pointer is followed, no index is past the
  table, and what always holds holds;
* `yields_alternate`: threads that only yield take turns by two;
* `calls_settle`: after a call that ends with `rt_schedule` nothing that is ready goes before
  what runs.
-/
import NpcMachine.RtThread.ThreadCalls

namespace NpcMachine.RtThread

open NpcMachine.Machine

set_option autoImplicit false

variable {T : Type} [DecidableEq T]

/-! ## Every order of calls -/

/-- A kernel after calls from boot, each allowed where it is made. -/
inductive Kernel.Reached : Kernel T → Prop
  | boot : Reached rtSystemSchedulerInit
  | call {k k' : Kernel T} {r : Request T} {e : Err} (c : Kernel.Call T) (before : Reached k)
      (allowed : c.Allowed k) (run : c.run k = some (k', r, e)) : Reached k'

namespace Kernel.Reached

variable {k k' : Kernel T} {r : Request T} {e : Err}

theorem sound (reached : k.Reached) : Sound k := by
  induction reached with
  | boot =>
    refine ⟨(Filed.empty _).congr (fun t => ?_) (fun _ _ => rfl),
      fun _ => show (0#8).toNat < 32 by decide, fun _ live => ?_,
      fun t now => absurd now (Option.some_ne_none t).symm, fun t runs => ?_, List.nodup_nil,
      fun t mem => absurd mem List.not_mem_nil⟩
    · exact iff_of_false (show threadInit &&& threadStatMask ≠ threadReady by decide) not_false
    · exact absurd (show threadInit &&& threadStatMask = threadInit by decide) live.1
    · exact absurd runs (show threadInit &&& threadStatMask ≠ threadRunning by decide)
  | call c _ allowed run ih =>
    obtain ⟨k'', r', e', same, after⟩ := c.keeps ih allowed
    obtain ⟨rfl, -⟩ := Prod.mk.inj (Option.some.inj (same.symm.trans run))
    exact after.sound

end Kernel.Reached

/-- Three threads of one priority, made and started. -/
theorem three_started : ∃ k : Kernel (Fin 3), k.Reached ∧ k.currentThread = some 2 ∧
    k.schedulerLockNest = 0#16 ∧ k.priorityTable 10 = [1, 0] ∧ k.state 2 = threadRunning ∧
    ∀ t, k.priority t = 10 :=
  ⟨_, .call .start
    (.call (.control 2 .startup) (.call (.control 1 .startup) (.call (.control 0 .startup)
      (.call (.init 2 10#8 5#32) (.call (.init 1 10#8 5#32) (.call (.init 0 10#8 5#32) .boot
        ⟨by decide, by decide, .inl rfl⟩ rfl) ⟨by decide, by decide, .inl rfl⟩ rfl)
        ⟨by decide, by decide, .inl rfl⟩ rfl) rfl rfl) rfl rfl) rfl rfl) ⟨rfl, 0, rfl⟩ rfl,
    rfl, rfl, rfl, rfl, by decide⟩

/-- `rt_thread_yield`, `n` times by whichever thread runs. -/
def yields : Nat → Kernel T → Option (Kernel T)
  | 0, k => some k
  | n + 1, k => (rtThreadYield k).bind fun (k, _, _) => yields n k

/-- `a` runs, `b` is the first of those that wait with the same priority, and no thread with a
higher one is ready. -/
structure Turn (a b : T) (rest : List T) (k : Kernel T) : Prop where
  sound : Sound k
  now : k.currentThread = some a
  runs : k.state a = threadRunning
  free : k.schedulerLockNest = 0#16
  head : k.priorityTable (k.priority a) = b :: rest
  least : ∀ v, k.state v = threadReady → k.priority a ≤ k.priority v

section Turns

variable {k : Kernel T} {a b : T} {rest : List T}

theorem Thread.reloaded_flag (th : Thread) : th.reloaded.stat &&& threadStatYield ≠ 0#8 := by
  have same : (th.stat ||| threadStatYield) &&& threadStatYield = threadStatYield := by
    rw [BitVec.and_comm, BitVec.and_or_distrib_left, BitVec.and_self]
    ext i small
    simp only [BitVec.getElem_or, BitVec.getElem_and]
    cases threadStatYield[i] <;> simp
  show (th.stat ||| threadStatYield) &&& threadStatYield ≠ 0#8
  rw [same]
  decide

/-- The flag is gone when the thread is put back, so it goes to the head of its list. -/
theorem Thread.cleared_flag (th : Thread) :
    (th.clearYield.become threadReady).stat &&& threadStatYield = 0#8 := by
  have same (s : BitVec 8) :
      (threadReady ||| s &&& ~~~threadStatYield &&& ~~~threadStatMask) &&& threadStatYield = 0#8 := by
    revert s
    decide +kernel
  exact same th.stat

theorem switch_table (k : Kernel T) (other : b ≠ a) (p q : Nat) :
    (scheduleSwitch a b p true k).priorityTable q = (Function.update k.priorityTable (k.priority a)
      (if ((k.thread a).become threadReady).stat &&& threadStatYield ≠ 0#8
        then k.priorityTable (k.priority a) ++ [a] else a :: k.priorityTable (k.priority a)) q).erase b := by
  have past : ({ k with currentPriority := BitVec.ofNat 8 p, currentThread := some b } : Kernel T).currentThread ≠
      some a := fun is => other (Option.some.inj is)
  rw [scheduleSwitch, if_pos rfl, rtScheduleInsertThread, if_neg past]
  rfl

/-- One yield: the first of those that wait runs, and the thread that ran is the first. -/
theorem Turn.swaps (turn : Turn a b rest k) :
    ∃ k', rtThreadYield k = some (k', some (some a, b), .eok) ∧ Turn b a rest k' ∧
      ∀ v, k'.priority v = k.priority v := by
  have waits : k.state b = threadReady ∧ k.priority b = k.priority a :=
    (turn.sound.files.here _ b).mp (turn.head ▸ List.mem_cons_self)
  have other : b ≠ a := by
    rintro rfl
    exact absurd (turn.runs.symm.trans waits.1) (by decide)
  have sound : Sound (k.set a (k.thread a).reloaded) := turn.sound.set (Thread.state_reloaded _) rfl rfl
  have states (v : T) : (k.set a (k.thread a).reloaded).state v = k.state v := by
    rw [state_set, Thread.state_reloaded]
    split
    · next is => exact congrArg k.state is.symm
    · rfl
  have priorities (v : T) : (k.set a (k.thread a).reloaded).priority v = k.priority v := by
    rw [priority_set]
    split
    · next is => exact congrArg k.priority is.symm
    · rfl
  have thread : (k.set a (k.thread a).reloaded).thread a = (k.thread a).reloaded := Kernel.set_thread ..
  have table : (k.set a (k.thread a).reloaded).priorityTable = k.priorityTable := rfl
  have free : (k.set a (k.thread a).reloaded).schedulerLockNest = 0#16 := turn.free
  have now : (k.set a (k.thread a).reloaded).currentThread = some a := turn.now
  obtain ⟨k', r, same, scheduled⟩ := schedule_spec sound now
  have yield : rtThreadYield k = some (k', r, .eok) := by
    rw [rtThreadYield, turn.now, Option.bind_some, scheduling, same]
    rfl
  generalize k.set a (k.thread a).reloaded = m at *
  cases scheduled with
  | idle closed =>
    exact absurd ((states b).trans waits.1) (closed.resolve_left (not_not.mpr free) b)
  | @stays t u _ now' runs least goesOn =>
    obtain rfl : a = t := Option.some.inj (now.symm.trans now')
    have low := least b ((states b).trans waits.1)
    rw [priorities, priorities, waits.2] at low
    rcases goesOn with less | ⟨-, flag⟩
    · have less : m.priority a < m.priority u := less
      rw [priorities, priorities] at less
      exact absurd less (not_lt.mpr low)
    · rw [thread] at flag
      exact absurd flag (Thread.reloaded_flag _)
  | @switch t u rest' _ now' ready head least gives =>
    obtain rfl : a = t := Option.some.inj (now.symm.trans now')
    have runs : m.state a = threadRunning := (states a).trans turn.runs
    have level : k.priority u = k.priority a := by
      have low := least b ((states b).trans waits.1)
      rw [priorities, priorities, waits.2] at low
      exact le_antisymm low (turn.least u ((states u).symm.trans ready))
    rw [table, priorities, level, turn.head] at head
    obtain ⟨rfl, rfl⟩ := List.cons.inj head
    obtain ⟨after, became⟩ := sound.switched now ready (m.priority b)
    have kept (v : T) : (scheduleSwitch a b (m.priority b) (decide (m.state a = threadRunning))
        (scheduleClear a m)).priority v = k.priority v := by
      rw [priority_switch, priority_clear, priorities]
    refine ⟨_, yield, ⟨after, switch_current .., ?_, ?_, ?_, fun v waiting => ?_⟩, kept⟩
    · rw [became, if_pos rfl]
    · rw [switch_lock, clear_lock, free]
    · have back : (m.set a (m.thread a).clearYield).priority a = k.priority a := by
        rw [priority_set, if_pos rfl]
        exact priorities a
      have lists : (m.set a (m.thread a).clearYield).priorityTable = k.priorityTable := table
      have flag := Thread.cleared_flag (m.thread a)
      rw [kept, level, decide_eq_true runs, scheduleClear, if_pos runs, switch_table _ other, back, lists,
        Function.update_self, Kernel.set_thread, if_neg (not_not.mpr flag), turn.head]
      simp [other.symm]
    · rw [kept, kept, waits.2]
      rw [became] at waiting
      split at waiting
      · exact absurd waiting (by decide)
      · split at waiting
        · next ran => rw [ran.1]
        · exact turn.least v ((states v).symm.trans waiting)

omit [DecidableEq T] in
theorem Turn.waits (turn : Turn a b rest k) {v : T} (mem : v ∈ rest) : k.state v = threadReady :=
  ((turn.sound.files.here _ v).mp (turn.head ▸ List.mem_cons_of_mem b mem)).1

theorem Turn.alternates (turn : Turn a b rest k) (n : Nat) :
    ∃ k', yields n k = some k' ∧ k'.currentThread = some (if n % 2 = 0 then a else b) ∧
      ∀ v, v ∈ rest → k'.state v = threadReady := by
  induction n generalizing k a b with
  | zero => exact ⟨k, rfl, turn.now, fun v mem => turn.waits mem⟩
  | succ n ih =>
    obtain ⟨k1, yield, next, -⟩ := turn.swaps
    obtain ⟨k', run, now, waits⟩ := ih next
    refine ⟨k', ?_, ?_, waits⟩
    · rw [yields, yield]
      exact run
    · rw [now]
      rcases Nat.mod_two_eq_zero_or_one n with even | odd
      · simp [even, Nat.add_mod]
      · simp [odd, Nat.add_mod]

theorem three_turn : ∃ k : Kernel (Fin 3), k.Reached ∧ Turn 2 1 [0] k := by
  obtain ⟨k, reached, now, free, list, runs, level⟩ := three_started
  refine ⟨k, reached, reached.sound, now, runs, free, ?_, fun v _ => ?_⟩
  · rw [level, list]
  · rw [level, level]

/-- A thread that runs and the first of those that wait with its priority take turns for ever,
and those behind in the list do not come to run. -/
theorem yields_alternate (reached : k.Reached) (now : k.currentThread = some a)
    (runs : k.state a = threadRunning) (free : k.schedulerLockNest = 0#16)
    (head : k.priorityTable (k.priority a) = b :: rest)
    (least : ∀ v, k.state v = threadReady → k.priority a ≤ k.priority v) (n : Nat) :
    ∃ k', yields n k = some k' ∧ k'.currentThread = some (if n % 2 = 0 then a else b) ∧
      ∀ v, v ∈ rest → k'.state v = threadReady :=
  Turn.alternates ⟨reached.sound, now, runs, free, head, least⟩ n

theorem yields_alternate_three : ∃ k : Kernel (Fin 3), k.Reached ∧
    ∃ k', yields 5 k = some k' ∧ k'.currentThread = some 1 ∧ ∀ v, v ∈ [0] → k'.state v = threadReady := by
  obtain ⟨k, reached, turn⟩ := three_turn
  exact ⟨k, reached, yields_alternate reached turn.now turn.runs turn.free turn.head turn.least 5⟩

end Turns

/-! ## What runs after a call -/

section Settling

variable {k k' : Kernel T} {r : Request T} {e : Err}

theorem Schedules.settles {arg : Option T} {o : Outcome T} (schedules : Schedules arg k o) (free : k.schedulerLockNest = 0#16)
    (run : o = some (k', r, e)) (someone : ∃ u, k'.state u = threadReady ∨ k'.state u = threadRunning) :
    Settled k' := by
  obtain ⟨t, now⟩ := schedules.started
  obtain ⟨k1, rfl, part, lock⟩ := schedules.ends
  obtain ⟨k2, r', same, scheduled⟩ := schedule_spec part.sound (part.now.trans now)
  rw [scheduling, same] at run
  obtain ⟨rfl, -⟩ := Prod.mk.inj (Option.some.inj run)
  exact scheduled.settles part.sound (lock.trans free) someone

/-- The calls that end with `rt_schedule`. -/
def Kernel.Call.EndsScheduling (c : Kernel.Call T) (k : Kernel T) : Prop :=
  match c with
  | schedule | yield | exit | timeout _ | control _ .close => True
  | control _ .startup => k.currentThread.isSome
  | sleep ticks => ticks ≠ 0#32
  | _ => False

/-- After a call that ends so, with the scheduler unlocked, a thread of the highest priority
runs, if a thread is left that could. -/
theorem calls_settle (reached : k.Reached) (c : Kernel.Call T) (allowed : c.Allowed k)
    (ends : c.EndsScheduling k) (free : k.schedulerLockNest = 0#16) (run : c.run k = some (k', r, .eok))
    (someone : ∃ u, k'.state u = threadReady ∨ k'.state u = threadRunning) : Settled k' := by
  have sound := reached.sound
  cases c with
  | schedule =>
    obtain ⟨t, now⟩ := Option.isSome_iff_exists.mp allowed
    have schedules : Schedules none k (scheduling .eok k) := ⟨⟨t, now⟩, k, rfl, .refl sound, rfl⟩
    exact schedules.settles free run someone
  | yield =>
    obtain ⟨t, now⟩ := Option.isSome_iff_exists.mp allowed
    exact (yield_schedules sound now).settles free run someone
  | sleep ticks =>
    rcases sleep_schedules sound ends free (allowed ends).2 with schedules | ⟨k1, err, same, bad, -⟩
    · exact schedules.settles free run someone
    · have other := Option.some.inj (same.symm.trans run)
      exact absurd (congrArg (fun o => o.2.2) other) bad
  | exit =>
    obtain ⟨t, now⟩ := Option.isSome_iff_exists.mp allowed
    exact (exit_schedules sound now).settles free run someone
  | timeout t => exact (timeout_schedules sound allowed.1 allowed.2).settles free run someone
  | control t cmd =>
    cases cmd with
    | startup => exact (startup_schedules sound allowed ends).settles free run someone
    | close => exact (close_schedules sound allowed).settles free run someone
    | changePriority => exact ends.elim
  | _ => exact ends.elim

theorem calls_settle_three : ∃ k k' : Kernel (Fin 3),
    Kernel.Call.run .yield k = some (k', some (some 2, 1), .eok) ∧ Settled k' := by
  obtain ⟨k, reached, turn⟩ := three_turn
  obtain ⟨k', run, next, -⟩ := turn.swaps
  have started : k.currentThread.isSome := by rw [turn.now]; rfl
  exact ⟨k, k', run, calls_settle reached .yield started trivial turn.free run ⟨1, .inr next.runs⟩⟩

end Settling

end NpcMachine.RtThread
