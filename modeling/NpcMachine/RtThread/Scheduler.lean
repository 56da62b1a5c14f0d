/-
# RtThread.Scheduler -- `scheduler_up.c`

One processor and no interrupts, so a call runs to its end; what a call asks of
`context.c` is its `Request`.

* `Sound`: the lists hold the ready threads, and only the current thread runs;
* `schedule_spec`: what one `rt_schedule` does;
* `Scheduled.sound`: it keeps `Sound`;
* `Scheduled.settles`: no thread waits that goes before the one that runs.
-/
import NpcMachine.RtThread.ReadyTable

namespace NpcMachine.RtThread

open NpcMachine.Machine

set_option autoImplicit false

variable {T : Type} [DecidableEq T]

/-! ## Scheduling -/

/-- The thread whose `sp` is saved, if there is one, and the thread whose `sp` is taken. -/
abbrev Request (T : Type) := Option (Option T × T)

/-- `rt_system_scheduler_start`. -/
def rtSystemSchedulerStart (k : Kernel T) : Option (Kernel T × Request T) :=
  (schedulerGetHighestPriorityThread k).map fun (to_, _) =>
    let k := rtScheduleRemoveThread to_ { k with currentThread := some to_ }
    (k.set to_ { k.thread to_ with stat := threadRunning }, some (none, to_))

/-- Whether a running thread goes on though others of `highest` wait. -/
def Thread.GoesOn (th : Thread) (highest : Nat) : Prop :=
  th.priority < highest ∨ th.priority = highest ∧ th.stat &&& threadStatYield = 0#8

instance (th : Thread) (highest : Nat) : Decidable (th.GoesOn highest) :=
  inferInstanceAs (Decidable (_ ∨ _))

/-- The flag of a running thread is cleared, whether it goes on or not. -/
def scheduleClear (current : T) (k : Kernel T) : Kernel T :=
  if k.state current = threadRunning then k.set current (k.thread current).clearYield else k

/-- The switch of `rt_schedule` from the current thread to another. -/
def scheduleSwitch (current to_ : T) (highest : Nat) (needInsertFromThread : Bool) (k : Kernel T) :
    Kernel T :=
  let k := { k with currentPriority := BitVec.ofNat 8 highest, currentThread := some to_ }
  let k := if needInsertFromThread then rtScheduleInsertThread current k else k
  let k := rtScheduleRemoveThread to_ k
  k.set to_ ((k.thread to_).become threadRunning)

/-- `rt_schedule`. -/
def rtSchedule (k : Kernel T) : Option (Kernel T × Request T) :=
  if k.schedulerLockNest ≠ 0#16 then some (k, none)
  else if k.readyPriorityGroup = 0#32 then some (k, none)
  else
    k.currentThread.bind fun current =>
      (schedulerGetHighestPriorityThread k).map fun (first, highest) =>
        let runs := decide (k.state current = threadRunning)
        let stays := runs && decide ((k.thread current).GoesOn highest)
        let to_ := if stays then current else first
        let k := scheduleClear current k
        if to_ ≠ current then
          (scheduleSwitch current to_ highest (runs && !stays) k, some (some current, to_))
        else
          let k := rtScheduleRemoveThread current k
          (k.set current ((k.thread current).become threadRunning), none)

/-! ## What always holds -/

/-- The masks of these threads are read: all but new and closed ones, and the one that runs on. -/
def Kernel.Live (k : Kernel T) (t : T) : Prop :=
  k.state t ≠ threadInit ∧ (k.state t = threadClose → k.currentThread = some t)

/-- The lists hold the ready and the closed threads, and only the current thread runs. -/
structure Sound (k : Kernel T) : Prop where
  files : k.Files fun t => k.state t = threadReady
  small : ∀ t, k.priority t < 32
  mask : ∀ t, k.Live t → (k.thread t).numberMask = 1#32 <<< k.priority t
  current : ∀ t, k.currentThread = some t → k.state t ≠ threadInit ∧ k.state t ≠ threadReady
  running : ∀ t, k.state t = threadRunning → k.currentThread = some t
  once : k.defunct.Nodup
  closed : ∀ t, t ∈ k.defunct → k.state t = threadClose

section States

variable {k k' : Kernel T} {t u : T} {th : Thread} {waits : T → Prop}

theorem Thread.state_become (th : Thread) {stat : BitVec 8} (plain : stat &&& threadStatMask = stat) :
    (th.become stat).state = stat := by
  have bits (s x : BitVec 8) : (s ||| x &&& ~~~threadStatMask) &&& threadStatMask = s &&& threadStatMask := by
    ext i small
    simp only [BitVec.getElem_and, BitVec.getElem_or, BitVec.getElem_not]
    cases threadStatMask[i] <;> simp
  exact (bits stat th.stat).trans plain

@[simp] theorem Thread.state_clearYield (th : Thread) : th.clearYield.state = th.state := by
  show th.stat &&& ~~~threadStatYield &&& threadStatMask = th.stat &&& threadStatMask
  rw [BitVec.and_assoc]
  rfl

@[simp] theorem Thread.state_yields (th : Thread) : th.yields.state = th.state := by
  show (th.stat ||| threadStatYield) &&& threadStatMask = th.stat &&& threadStatMask
  rw [BitVec.and_comm, BitVec.and_or_distrib_left, BitVec.and_comm]
  exact BitVec.or_zero

theorem state_of_update (threads : k'.thread = Function.update k.thread t th) (u : T) :
    k'.state u = if u = t then th.state else k.state u := by
  rw [Kernel.state, threads, Function.update_apply]
  split <;> rfl

theorem priority_of_update (threads : k'.thread = Function.update k.thread t th) (u : T) :
    k'.priority u = if u = t then th.priority else k.priority u := by
  rw [Kernel.priority, threads, Function.update_apply]
  split <;> rfl

theorem state_set (u : T) : (k.set t th).state u = if u = t then th.state else k.state u :=
  state_of_update rfl u

theorem priority_set (u : T) :
    (k.set t th).priority u = if u = t then th.priority else k.priority u :=
  priority_of_update rfl u

theorem Kernel.Files.set (files : k.Files waits) (same : waits t → th.priority = k.priority t) :
    (k.set t th).Files waits := by
  refine Filed.congr files (fun _ => Iff.rfl) fun u waiting => ?_
  rw [priority_set]
  split
  · next is => exact (same (is ▸ waiting)).trans (by rw [is])
  · rfl

omit [DecidableEq T] in
theorem Kernel.Live.of_state {stat : BitVec 8} (is : k.state t = stat) (made : stat ≠ threadInit)
    (open_ : stat ≠ threadClose) : k.Live t :=
  ⟨by rwa [is], fun closed => absurd (is.symm.trans closed) open_⟩

omit [DecidableEq T] in
theorem Sound.not_defunct (sound : Sound k) (open_ : k.state t ≠ threadClose) : t ∉ k.defunct :=
  fun mem => open_ (sound.closed t mem)

/-- The record of one thread is another; the lists are those of the threads that are ready now. -/
theorem Sound.of_update (sound : Sound k) (threads : k'.thread = Function.update k.thread t th)
    (files : k'.Files fun u => k'.state u = threadReady) (small : th.priority < 32)
    (mask : k'.Live t → th.numberMask = 1#32 <<< th.priority)
    (came : ∀ u, k'.currentThread = some u → u = t ∨ k.currentThread = some u)
    (current : ∀ u, k'.currentThread = some u → k'.state u ≠ threadInit ∧ k'.state u ≠ threadReady)
    (running : ∀ u, k'.state u = threadRunning → k'.currentThread = some u)
    (less : k'.defunct.Sublist k.defunct) (gone : t ∈ k'.defunct → th.state = threadClose) : Sound k' where
  files := files
  small u := by
    rw [priority_of_update threads]
    split
    · exact small
    · exact sound.small u
  mask u live := by
    rw [priority_of_update threads]
    by_cases is : u = t
    · rw [if_pos is, threads, is, Function.update_self]
      exact mask (is ▸ live)
    · rw [if_neg is, threads, Function.update_of_ne is]
      rw [Kernel.Live, state_of_update threads, if_neg is] at live
      exact sound.mask u ⟨live.1, fun closed => (came u (live.2 closed)).resolve_left is⟩
  current := current
  running := running
  once := less.nodup sound.once
  closed u mem := by
    rw [state_of_update threads]
    split
    · next is => exact gone (is ▸ mem)
    · exact sound.closed u (less.subset mem)

/-- The same, when the current thread stays. -/
theorem Sound.next (sound : Sound k) (threads : k'.thread = Function.update k.thread t th)
    (now : k'.currentThread = k.currentThread) (files : k'.Files fun u => k'.state u = threadReady)
    (small : th.priority < 32) (mask : k'.Live t → th.numberMask = 1#32 <<< th.priority)
    (current : k.currentThread = some t → th.state ≠ threadInit ∧ th.state ≠ threadReady)
    (running : th.state = threadRunning → k.currentThread = some t)
    (less : k'.defunct.Sublist k.defunct) (gone : t ∈ k'.defunct → th.state = threadClose) :
    Sound k' := by
  refine sound.of_update threads files small mask (fun u here => .inr (now ▸ here)) (fun u here => ?_)
    (fun u runs => ?_) less gone
  · rw [now] at here
    rw [state_of_update threads]
    split
    · next is => exact current (is ▸ here)
    · exact sound.current u here
  · rw [state_of_update threads] at runs
    rw [now]
    split at runs
    · next is => exact is ▸ running runs
    · exact sound.running u runs

/-- A thread that stands in no list of ready threads, before and after. -/
theorem Sound.put (sound : Sound k) (out : k.state t ≠ threadReady) (after : th.state ≠ threadReady)
    (small : th.priority < 32) (mask : (k.set t th).Live t → th.numberMask = 1#32 <<< th.priority)
    (current : k.currentThread = some t → th.state ≠ threadInit)
    (running : th.state = threadRunning → k.currentThread = some t)
    (gone : t ∈ k.defunct → th.state = threadClose) : Sound (k.set t th) := by
  refine sound.next (t := t) rfl rfl ?_ small mask (fun now => ⟨current now, after⟩) running
    (List.Sublist.refl _) gone
  refine (sound.files.set fun is => absurd is out).congr (fun u => ?_) fun _ _ => rfl
  rw [state_set]
  split
  · next is => exact iff_of_false after (is ▸ out)
  · rfl

/-- Flags and ticks of a thread. -/
theorem Sound.set (sound : Sound k) (state : th.state = k.state t) (priority : th.priority = k.priority t)
    (mask : th.numberMask = (k.thread t).numberMask) : Sound (k.set t th) := by
  have states (u : T) : (k.set t th).state u = k.state u := by
    rw [state_set]
    split
    · next is => rw [is, state]
    · rfl
  refine sound.next (show _ = Function.update k.thread t th from rfl) rfl ?_ (priority ▸ sound.small t) (fun live => ?_) ?_ ?_
    (List.Sublist.refl _) fun mem => state.trans (sound.closed t mem)
  · simp only [states]
    exact sound.files.set fun _ => priority
  · rw [mask, priority]
    rw [Kernel.Live, states] at live
    exact sound.mask t live
  · rw [state]
    exact sound.current t
  · rw [state]
    exact sound.running t

/-- A thread that does not wait in a list becomes ready, or goes on if it is the current one. -/
theorem Sound.insert (sound : Sound k) (live : k.Live t) (out : k.state t ≠ threadReady)
    (open_ : k.state t ≠ threadClose) : Sound (rtScheduleInsertThread t k) := by
  have mask := sound.mask t live
  have gone : t ∉ k.defunct := sound.not_defunct open_
  by_cases now : k.currentThread = some t
  · rw [insert_current now]
    have runs : ((k.thread t).become threadRunning).state = threadRunning := Thread.state_become _ rfl
    exact sound.put out (by rw [runs]; decide) (sound.small t) (fun _ => mask) (fun _ => by rw [runs]; decide)
      (fun _ => now) fun mem => absurd mem gone
  · have ready : ((k.thread t).become threadReady).state = threadReady := Thread.state_become _ rfl
    have same := insert_keeps t k
    refine sound.next (insert_thread now) same.1 ?_ (sound.small t) (fun _ => mask)
      (fun is => absurd is now) (fun runs => ?_) (by simp [same.2.1]) fun mem => absurd (same.2.1 ▸ mem) gone
    · refine (insert_filed sound.files out now (sound.small t) mask).congr (fun u => ?_) fun _ _ => rfl
      rw [state_of_update (insert_thread now), ready]
      split
      · next is => exact iff_of_true rfl (.inl is)
      · next other => exact (or_iff_right other).symm
    · rw [ready] at runs
      exact absurd runs (by decide)

/-- A thread leaves the lists for a state in which it neither waits there nor runs. -/
theorem Sound.leave (sound : Sound k) (live : k.Live t)
    (priority : th.priority = k.priority t) (mask : th.numberMask = (k.thread t).numberMask)
    (kept : th.state ≠ threadInit) (out : th.state ≠ threadReady) (stopped : th.state ≠ threadRunning) :
    Sound ((rtScheduleRemoveThread t k).set t th) := by
  refine sound.next (show _ = Function.update k.thread t th from rfl) rfl ?_ (priority ▸ sound.small t) (fun _ => ?_)
    (fun _ => ⟨kept, out⟩) (fun runs => absurd runs stopped) List.erase_sublist fun mem => ?_
  · refine ((remove_filed sound.files (sound.mask t live)).set fun _ => priority).congr (fun u => ?_)
      fun _ _ => rfl
    rw [state_set]
    split
    · next is => exact iff_of_false out fun waiting => waiting.1 is
    · next other => exact (and_iff_right other).symm
  · rw [mask, priority]
    exact sound.mask t live
  · exact absurd rfl ((sound.once.mem_erase_iff).mp mem).1

/-- No thread runs. -/
def Quiet (k : Kernel T) : Prop := ∀ t, k.state t ≠ threadRunning

/-- A ready thread is taken out of its list and runs. -/
theorem Sound.take (sound : Sound k) (quiet : Quiet k) (ready : k.state u = threadReady)
    (state : th.state = threadRunning) (priority : th.priority = k.priority u)
    (mask : th.numberMask = (k.thread u).numberMask) (p : BitVec 8) :
    Sound ((rtScheduleRemoveThread u { k with currentPriority := p, currentThread := some u }).set u th) := by
  have masked := sound.mask u (.of_state ready (by decide) (by decide))
  refine sound.of_update (show _ = Function.update k.thread u th from rfl) ?_ (priority ▸ sound.small u) (fun _ => ?_)
    (fun v here => .inl (Option.some.inj here).symm) (fun v here => ?_) (fun v runs => ?_)
    List.erase_sublist fun mem => ?_
  · refine ((remove_filed (k := { k with currentPriority := p, currentThread := some u }) sound.files
      masked).set fun _ => priority).congr (fun v => ?_) fun _ _ => rfl
    rw [state_set, state]
    split
    · next is => exact iff_of_false (by decide) fun waiting => waiting.1 is
    · next other => exact (and_iff_right other).symm
  · rw [mask, priority]
    exact masked
  · rw [state_set, if_pos (Option.some.inj here).symm, state]
    decide
  · rw [state_set] at runs
    split at runs
    · next is => exact congrArg some is.symm
    · exact absurd runs (quiet v)
  · exact absurd rfl ((sound.once.mem_erase_iff).mp mem).1

/-- The thread that ran waits in its list, before another is taken. -/
theorem Sound.stop (sound : Sound k) (runs : k.state t = threadRunning) :
    Sound (rtScheduleInsertThread t { k with currentThread := none }) ∧
      Quiet (rtScheduleInsertThread t { k with currentThread := none }) := by
  have idle : ({ k with currentThread := none } : Kernel T).currentThread ≠ some t :=
    (Option.some_ne_none t).symm
  have threads : (rtScheduleInsertThread t { k with currentThread := none }).thread = _ :=
    insert_thread idle
  have same := insert_keeps t { k with currentThread := none }
  have ready : ((k.thread t).become threadReady).state = threadReady := Thread.state_become _ rfl
  have mask := sound.mask t (.of_state runs (by decide) (by decide))
  have quiet : Quiet (rtScheduleInsertThread t { k with currentThread := none }) := by
    intro u
    rw [state_of_update (k := k) threads, ready]
    split
    · decide
    · next other =>
      intro same
      exact other (Option.some.inj ((sound.running u same).symm.trans (sound.running t runs)))
  have nobody (u : T) : (rtScheduleInsertThread t { k with currentThread := none }).currentThread ≠
      some u := by
    rw [same.1]
    exact (Option.some_ne_none u).symm
  have gone : t ∉ k.defunct := sound.not_defunct (by rw [runs]; decide)
  refine ⟨sound.of_update threads ?_ (sound.small t) (fun _ => mask) (fun u here => absurd here (nobody u))
    (fun u here => absurd here (nobody u)) (fun u now => absurd now (quiet u)) (by simp [same.2.1])
    fun mem => absurd (same.2.1 ▸ mem) gone, quiet⟩
  refine (insert_filed (k := { k with currentThread := none }) sound.files (by rw [runs]; decide) idle
    (sound.small t) mask).congr (fun u => ?_) fun _ _ => rfl
  rw [state_of_update (k := k) threads, ready]
  split
  · next is => exact iff_of_true rfl (.inl is)
  · next other => exact (or_iff_right other).symm

theorem insert_past (other : u ≠ t) (p : BitVec 8) :
    rtScheduleInsertThread t { k with currentPriority := p, currentThread := some u } =
      { rtScheduleInsertThread t { k with currentThread := none } with
        currentPriority := p
        currentThread := some u } := by
  have here : ({ k with currentPriority := p, currentThread := some u } : Kernel T).currentThread ≠
      some t := fun is => other (Option.some.inj is)
  have idle : ({ k with currentThread := none } : Kernel T).currentThread ≠ some t :=
    (Option.some_ne_none t).symm
  rw [rtScheduleInsertThread, if_neg here, rtScheduleInsertThread, if_neg idle]
  rfl

/-- A switch: the state of every thread after it. -/
theorem Sound.switch (sound : Sound k) (ready : k.state u = threadReady) {insert : Bool}
    (flag : insert = true ↔ k.state t = threadRunning) (only : ∀ v, k.state v = threadRunning → v = t)
    (p : Nat) :
    Sound (scheduleSwitch t u p insert k) ∧ ∀ v, (scheduleSwitch t u p insert k).state v =
      if v = u then threadRunning
      else if v = t ∧ k.state t = threadRunning then threadReady else k.state v := by
  cases insert with
  | false =>
    have stopped : k.state t ≠ threadRunning := fun runs => Bool.noConfusion (flag.mpr runs)
    have quiet : Quiet k := fun v runs => stopped (only v runs ▸ runs)
    have running : ((k.thread u).become threadRunning).state = threadRunning := Thread.state_become _ rfl
    refine ⟨sound.take quiet ready running rfl rfl _, fun v => ?_⟩
    refine (state_set v).trans ?_
    rw [Thread.state_become _ rfl]
    simp only [stopped, and_false, if_false]
    rfl
  | true =>
    have runs := flag.mp rfl
    have other : u ≠ t := by
      rintro rfl
      rw [runs] at ready
      exact absurd ready (by decide)
    obtain ⟨stopped, quiet⟩ := sound.stop runs
    have threads : (rtScheduleInsertThread t { k with currentThread := none }).thread = _ :=
      insert_thread (Option.some_ne_none t).symm
    have states := state_of_update (k := k) threads
    rw [Thread.state_become _ rfl] at states
    rw [scheduleSwitch, if_pos rfl, insert_past other]
    generalize rtScheduleInsertThread t { k with currentThread := none } = m at stopped quiet states ⊢
    have ready' : m.state u = threadReady := by rw [states, if_neg other, ready]
    have running : ((m.thread u).become threadRunning).state = threadRunning := Thread.state_become _ rfl
    refine ⟨stopped.take quiet ready' running rfl rfl _, fun v => ?_⟩
    refine (state_set v).trans ?_
    rw [Thread.state_become _ rfl]
    show (if v = u then _ else m.state v) = _
    rw [states]
    simp [runs]

end States

/-! ## One `rt_schedule` -/

section Schedule

variable {k k' : Kernel T} {t u : T} {r : Request T}

/-- What one `rt_schedule` does: nothing, or the current thread goes on, or the first of the
ready threads takes over. -/
inductive Scheduled (k : Kernel T) : Kernel T → Request T → Prop
  | idle (closed : k.schedulerLockNest ≠ 0#16 ∨ ∀ u, k.state u ≠ threadReady) : Scheduled k k none
  | stays {t u : T} (free : k.schedulerLockNest = 0#16) (now : k.currentThread = some t)
      (runs : k.state t = threadRunning) (least : ∀ v, k.state v = threadReady → k.priority u ≤ k.priority v)
      (goesOn : (k.thread t).GoesOn (k.priority u)) :
      Scheduled k (k.set t ((k.thread t).clearYield.become threadRunning)) none
  | switch {t u : T} {rest : List T} (free : k.schedulerLockNest = 0#16) (now : k.currentThread = some t)
      (ready : k.state u = threadReady) (head : k.priorityTable (k.priority u) = u :: rest)
      (least : ∀ v, k.state v = threadReady → k.priority u ≤ k.priority v)
      (gives : k.state t = threadRunning → ¬ (k.thread t).GoesOn (k.priority u)) :
      Scheduled k
        (scheduleSwitch t u (k.priority u) (decide (k.state t = threadRunning)) (scheduleClear t k))
        (some (some t, u))

theorem schedule_spec (sound : Sound k) (now : k.currentThread = some t) :
    ∃ k' r, rtSchedule k = some (k', r) ∧ Scheduled k k' r := by
  by_cases free : k.schedulerLockNest = 0#16
  case neg => exact ⟨k, none, if_pos free, .idle (.inl free)⟩
  by_cases none_ : k.readyPriorityGroup = 0#32
  · refine ⟨k, none, ?_, .idle (.inr (sound.files.none_waits.mp none_))⟩
    rw [rtSchedule, if_neg (not_not.mpr free), if_pos none_]
  obtain ⟨u, rest, first, ready, head, least⟩ := highest_spec sound.files none_
  have other : u ≠ t := by
    rintro rfl
    exact (sound.current u now).2 ready
  rw [rtSchedule, if_neg (not_not.mpr free), if_neg none_, now, first]
  by_cases runs : k.state t = threadRunning
  · by_cases goesOn : (k.thread t).GoesOn (k.priority u)
    · refine ⟨_, _, ?_, .stays free now runs least goesOn⟩
      have cleared : Sound (k.set t (k.thread t).clearYield) :=
        sound.set (Thread.state_clearYield _) rfl rfl
      have state : (k.set t (k.thread t).clearYield).state t = threadRunning := by
        rw [state_set, if_pos rfl, Thread.state_clearYield]
        exact runs
      have absent := remove_absent cleared.files (t := t) (by rw [state]; decide)
        (cleared.not_defunct (by rw [state]; decide))
        (cleared.mask t (.of_state state (by decide) (by decide)))
      simp [runs, goesOn, absent, scheduleClear]
    · refine ⟨_, _, ?_, .switch free now ready head least fun _ => goesOn⟩
      simp [runs, goesOn, other]
  · refine ⟨_, _, ?_, .switch free now ready head least fun is => absurd is runs⟩
    simp [runs, other]

theorem priority_switch (insert : Bool) (p : Nat) (v : T) :
    (scheduleSwitch t u p insert k).priority v = k.priority v := by
  have kept (m : Kernel T) : ((rtScheduleRemoveThread u m).set u
      (((rtScheduleRemoveThread u m).thread u).become threadRunning)).priority v = m.priority v := by
    rw [priority_of_update (k := m) (t := u) rfl]
    split
    · next is => exact congrArg m.priority is.symm
    · rfl
  refine (kept _).trans ?_
  cases insert with
  | false => rfl
  | true => exact priority_insert v

theorem switch_current (insert : Bool) (p : Nat) :
    (scheduleSwitch t u p insert k).currentThread = some u := by
  cases insert with
  | false => rfl
  | true =>
    exact (insert_keeps t { k with currentPriority := BitVec.ofNat 8 p, currentThread := some u }).1

theorem switch_lock (insert : Bool) (p : Nat) :
    (scheduleSwitch t u p insert k).schedulerLockNest = k.schedulerLockNest := by
  cases insert with
  | false => rfl
  | true =>
    exact (insert_keeps t { k with currentPriority := BitVec.ofNat 8 p, currentThread := some u }).2.2

theorem clear_lock : (scheduleClear t k).schedulerLockNest = k.schedulerLockNest := by
  rw [scheduleClear]
  split <;> rfl

/-- The flag is gone before the thread is put back. -/
theorem Sound.cleared (sound : Sound k) :
    Sound (scheduleClear t k) ∧ ∀ v, (scheduleClear t k).state v = k.state v := by
  rw [scheduleClear]
  split
  · refine ⟨sound.set (Thread.state_clearYield _) rfl rfl, fun v => ?_⟩
    rw [state_set, Thread.state_clearYield]
    split
    · next is => exact congrArg k.state is.symm
    · rfl
  · exact ⟨sound, fun v => rfl⟩

/-- What a switch does to the states. -/
theorem Sound.switched (sound : Sound k) (now : k.currentThread = some t)
    (ready : k.state u = threadReady) (p : Nat) :
    Sound (scheduleSwitch t u p (decide (k.state t = threadRunning)) (scheduleClear t k)) ∧
      ∀ v, (scheduleSwitch t u p (decide (k.state t = threadRunning)) (scheduleClear t k)).state v =
        if v = u then threadRunning
        else if v = t ∧ k.state t = threadRunning then threadReady else k.state v := by
  obtain ⟨cleared, states⟩ := sound.cleared (t := t)
  have only (v : T) (runs : k.state v = threadRunning) : v = t :=
    Option.some.inj ((sound.running v runs).symm.trans now)
  have flag : decide (k.state t = threadRunning) = true ↔ (scheduleClear t k).state t = threadRunning := by
    rw [states, decide_eq_true_iff]
  have switch := cleared.switch (by rw [states, ready]) flag
    (fun v runs => only v (by rw [← states, runs])) p
  simp only [states] at switch
  exact switch

theorem Scheduled.sound (scheduled : Scheduled k k' r) (sound : Sound k) : Sound k' := by
  cases scheduled with
  | idle => exact sound
  | stays free now runs =>
    refine sound.set ?_ rfl rfl
    rw [Thread.state_become _ rfl, runs]
  | switch free now ready => exact (sound.switched now ready _).1

theorem priority_clear (v : T) : (scheduleClear t k).priority v = k.priority v := by
  rw [scheduleClear]
  split
  · rw [priority_set]
    split
    · next is => exact congrArg k.priority is.symm
    · rfl
  · rfl

/-- What a request says of the current thread, before and after. -/
inductive Asks (k k' : Kernel T) : Request T → Prop
  | stays (same : k'.currentThread = k.currentThread) : Asks k k' none
  | start {u : T} (idle : k.currentThread = none) (now : k'.currentThread = some u) :
      Asks k k' (some (none, u))
  | switch {t u : T} (was : k.currentThread = some t) (now : k'.currentThread = some u) (other : t ≠ u) :
      Asks k k' (some (some t, u))

theorem Scheduled.asks (scheduled : Scheduled k k' r) (sound : Sound k) : Asks k k' r := by
  cases scheduled with
  | idle => exact .stays rfl
  | stays => exact .stays rfl
  | switch free now ready =>
    refine .switch now (switch_current ..) ?_
    rintro rfl
    exact (sound.current _ now).2 ready

/-- A thread that was never started is left alone. -/
theorem Scheduled.fresh (scheduled : Scheduled k k' r) (sound : Sound k) (new : k.state u = threadInit) :
    k'.state u = threadInit := by
  cases scheduled with
  | idle => exact new
  | stays free now runs =>
    rw [state_set]
    split
    · next is =>
      rw [is, runs] at new
      exact absurd new (by decide)
    · exact new
  | @switch t w _ free now ready =>
    rw [(sound.switched now ready _).2]
    split
    · next is =>
      rw [is, ready] at new
      exact absurd new (by decide)
    · split
      · next ran =>
        rw [ran.1, ran.2] at new
        exact absurd new (by decide)
      · exact new

/-- A thread runs, and none that is ready goes before it. -/
def Settled (k : Kernel T) : Prop :=
  ∃ t, k.currentThread = some t ∧ k.state t = threadRunning ∧
    ∀ v, k.state v = threadReady → k.priority t ≤ k.priority v

/-- Unless no thread is left that could run. -/
theorem Scheduled.settles (scheduled : Scheduled k k' r) (sound : Sound k)
    (free : k.schedulerLockNest = 0#16)
    (someone : ∃ u, k'.state u = threadReady ∨ k'.state u = threadRunning) : Settled k' := by
  cases scheduled with
  | idle closed =>
    have none_ := closed.resolve_left (not_not.mpr free)
    obtain ⟨u, could⟩ := someone
    have runs := could.resolve_left (none_ u)
    exact ⟨u, sound.running u runs, runs, fun v ready => absurd ready (none_ v)⟩
  | @stays t' w _ now' runs least goesOn =>
    have state : ((k.thread t').clearYield.become threadRunning).state = threadRunning :=
      Thread.state_become _ rfl
    refine ⟨t', now', ?_, fun v ready => ?_⟩
    · rw [state_set, if_pos rfl, state]
    · rw [state_set, state] at ready
      by_cases is : v = t'
      · rw [is]
      · rw [if_neg is] at ready
        rw [priority_set, priority_set, if_pos rfl, if_neg is]
        exact le_trans (goesOn.elim le_of_lt fun same => le_of_eq same.1) (least v ready)
  | @switch t' w rest _ now' ready head least gives =>
    obtain ⟨-, states⟩ := sound.switched now' ready (k.priority w)
    refine ⟨w, switch_current _ _, ?_, fun v waits => ?_⟩
    · rw [states, if_pos rfl]
    · rw [priority_switch, priority_switch, priority_clear, priority_clear]
      rw [states] at waits
      by_cases isW : v = w
      · rw [isW]
      · rw [if_neg isW] at waits
        split at waits
        · next ran =>
          rw [ran.1]
          exact not_lt.mp fun less => gives ran.2 (.inl less)
        · exact least v waits

end Schedule

end NpcMachine.RtThread
