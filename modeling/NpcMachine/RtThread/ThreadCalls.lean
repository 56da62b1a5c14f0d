/-
# RtThread.ThreadCalls -- the calls of `thread.c` and what holds after any of them

`none` stands for a failed assertion, a null pointer that is followed and an index or a
shift past its bound.  The ticks of `clock.c` are here too; the target has no interrupt
that counts them.

* `Kernel.Call.Allowed`: what the assertions ask of a caller, and that the scheduler was started;
* `Kernel.Call.keeps`: no allowed call fails, and each keeps `Sound`.
-/
import NpcMachine.RtThread.Scheduler

namespace NpcMachine.RtThread

open NpcMachine.Machine

set_option autoImplicit false

variable {T : Type} [DecidableEq T]

/-! ## The calls -/

/-- `rt_err_t`, as far as these calls return it. -/
inductive Err where
  | eok
  | error
  | einval

/-- What a call leaves, asks of `context.c` and returns. -/
abbrev Outcome (T : Type) := Option (Kernel T × Request T × Err)

def returning (e : Err) (k : Kernel T) : Outcome T := some (k, none, e)

/-- A call that ends with `rt_schedule`. -/
def scheduling (e : Err) (k : Kernel T) : Outcome T := (rtSchedule k).map fun (k, r) => (k, r, e)

/-- A call that ends with `rt_schedule` if there is a current thread. -/
def schedulingIfStarted (e : Err) (k : Kernel T) : Outcome T :=
  if k.currentThread.isSome then scheduling e k else returning e k

namespace Thread

/-- The record that `_thread_init` writes. -/
def initial (priority : BitVec 8) (tick : BitVec 32) : Thread where
  currentPriority := priority
  numberMask := 0#32
  stat := threadInit
  initTick := tick
  remainingTick := tick

/-- `rt_thread_startup`, before the thread is resumed. -/
def started (th : Thread) : Thread :=
  { th with
    numberMask := 1#32 <<< th.priority
    stat := threadSuspendMask }

def closed (th : Thread) : Thread := { th with stat := threadClose }

def withPriority (th : Thread) (priority : BitVec 8) : Thread :=
  { th with
    currentPriority := priority
    numberMask := 1#32 <<< priority.toNat }

def ticked (th : Thread) : Thread := { th with remainingTick := th.remainingTick - 1#32 }

/-- A new time slice, and the flag that says so. -/
def reloaded (th : Thread) : Thread := { th.yields with remainingTick := th.initTick }

end Thread

/-- `_thread_init`. -/
def rtThreadInit (t : T) (priority : BitVec 8) (tick : BitVec 32) (k : Kernel T) : Outcome T :=
  if priority.toNat < 32 then
    returning .eok (k.set t (Thread.initial priority tick))
  else none

/-- `rt_thread_resume`. -/
def rtThreadResume (t : T) (k : Kernel T) : Kernel T × Err :=
  if (k.thread t).stat &&& threadSuspendMask ≠ threadSuspendMask then (k, .error)
  else (rtScheduleInsertThread t (rtListRemove t k), .eok)

/-- `rt_thread_startup`. -/
def rtThreadStartup (t : T) (k : Kernel T) : Outcome T :=
  if k.state t ≠ threadInit then none
  else
    schedulingIfStarted .eok (rtThreadResume t (k.set t (k.thread t).started)).1

/-- `rt_thread_yield`. -/
def rtThreadYield (k : Kernel T) : Outcome T :=
  k.currentThread.bind fun t =>
    scheduling .eok (k.set t (k.thread t).reloaded)

inductive SuspendFlag where
  | interruptible
  | killable
  | uninterruptible

/-- `rt_thread_set_suspend_state`. -/
def SuspendFlag.stat : SuspendFlag → BitVec 8
  | interruptible => 0x04#8
  | killable => 0x06#8
  | uninterruptible => 0x07#8

/-- `rt_thread_suspend_with_flag`. -/
def rtThreadSuspendWithFlag (t : T) (flag : SuspendFlag) (k : Kernel T) : Option (Kernel T × Err) :=
  if k.currentThread ≠ some t then none
  else if k.state t ≠ threadReady ∧ k.state t ≠ threadRunning then some (k, .error)
  else
    let k := rtScheduleRemoveThread t k
    some (k.set t ((k.thread t).become flag.stat), .eok)

/-- `rt_thread_sleep`. -/
def rtThreadSleep (tick : BitVec 32) (k : Kernel T) : Outcome T :=
  if tick = 0#32 then returning .einval k
  else if k.schedulerLockNest ≠ 0#16 then none
  else
    k.currentThread.bind fun t =>
      (rtThreadSuspendWithFlag t .interruptible k).bind fun (k, err) =>
        match err with
        | .eok => scheduling .eok k
        | err => returning err k

/-- A thread is closed: it leaves its list and waits for the idle thread to release it. -/
def closeThread (t : T) (k : Kernel T) : Kernel T :=
  let k := k.set t (k.thread t).closed
  { k with defunct := t :: k.defunct }

/-- `_thread_exit`. -/
def threadExit (k : Kernel T) : Outcome T :=
  k.currentThread.bind fun t => scheduling .eok (closeThread t (rtScheduleRemoveThread t k))

/-- `rt_thread_detach` and `rt_thread_delete`. -/
def rtThreadDetach (t : T) (k : Kernel T) : Kernel T :=
  if k.state t = threadClose then k
  else if k.state t ≠ threadInit then closeThread t (rtScheduleRemoveThread t k)
  else closeThread t k

/-- `_thread_timeout`. -/
def threadTimeout (t : T) (k : Kernel T) : Outcome T :=
  if (k.thread t).stat &&& threadSuspendMask ≠ threadSuspendMask then none
  else scheduling .eok (rtScheduleInsertThread t (rtListRemove t k))

/-- `rt_thread_control` with `RT_THREAD_CTRL_CHANGE_PRIORITY`. -/
def changePriority (t : T) (priority : BitVec 8) (k : Kernel T) : Outcome T :=
  if 32 ≤ priority.toNat then none
  else if k.state t = threadReady then
    let k := rtScheduleRemoveThread t k
    returning .eok (rtScheduleInsertThread t (k.set t ((k.thread t).withPriority priority)))
  else returning .eok (k.set t ((k.thread t).withPriority priority))

inductive ThreadCtrl where
  | startup
  | close
  | changePriority (priority : BitVec 8)

/-- `rt_thread_control`. -/
def rtThreadControl (t : T) (cmd : ThreadCtrl) (k : Kernel T) : Outcome T :=
  match cmd with
  | .startup => rtThreadStartup t k
  | .close => scheduling .eok (rtThreadDetach t k)
  | .changePriority priority => changePriority t priority k

/-- `rt_enter_critical`. -/
def rtEnterCritical (k : Kernel T) : Kernel T :=
  { k with schedulerLockNest := k.schedulerLockNest + 1#16 }

/-- `rt_exit_critical`. -/
def rtExitCritical (k : Kernel T) : Outcome T :=
  if (k.schedulerLockNest - 1#16).toInt ≤ 0 then
    schedulingIfStarted .eok { k with schedulerLockNest := 0#16 }
  else returning .eok { k with schedulerLockNest := k.schedulerLockNest - 1#16 }

/-- The time slice of `rt_tick_increase`. -/
def rtTickIncrease (k : Kernel T) : Outcome T :=
  k.currentThread.bind fun t =>
    if (k.thread t).remainingTick - 1#32 = 0#32 then scheduling .eok (k.set t (k.thread t).reloaded)
    else returning .eok (k.set t (k.thread t).ticked)

/-- `rt_thread_defunct_dequeue`, by the idle thread. -/
def rtThreadDefunctDequeue (k : Kernel T) : Kernel T :=
  match k.defunct with
  | [] => k
  | t :: _ => rtListRemove t k

/-- `rt_system_scheduler_init`, with no thread made yet. -/
def rtSystemSchedulerInit : Kernel T where
  thread _ :=
    { currentPriority := 0#8
      numberMask := 0#32
      stat := threadInit
      initTick := 0#32
      remainingTick := 0#32 }
  priorityTable _ := []
  readyPriorityGroup := 0#32
  schedulerLockNest := 0#16
  currentThread := none
  currentPriority := 0#8
  defunct := []

inductive Kernel.Call (T : Type) where
  | init (t : T) (priority : BitVec 8) (tick : BitVec 32)
  | start
  | schedule
  | yield
  | suspend (t : T) (flag : SuspendFlag)
  | sleep (tick : BitVec 32)
  | resume (t : T)
  | exit
  | detach (t : T)
  | timeout (t : T)
  | control (t : T) (cmd : ThreadCtrl)
  | enterCritical
  | exitCritical
  | tick
  | dequeue

namespace Kernel.Call

def run (c : Call T) (k : Kernel T) : Outcome T :=
  match c with
  | init t priority ticks => rtThreadInit t priority ticks k
  | start => (rtSystemSchedulerStart k).map fun (k, r) => (k, r, .eok)
  | schedule => scheduling .eok k
  | yield => rtThreadYield k
  | suspend t flag => (rtThreadSuspendWithFlag t flag k).map fun (k, err) => (k, none, err)
  | sleep ticks => rtThreadSleep ticks k
  | resume t => returning (rtThreadResume t k).2 (rtThreadResume t k).1
  | exit => threadExit k
  | detach t => returning .eok (rtThreadDetach t k)
  | timeout t => threadTimeout t k
  | control t cmd => rtThreadControl t cmd k
  | enterCritical => returning .eok (rtEnterCritical k)
  | exitCritical => rtExitCritical k
  | tick => rtTickIncrease k
  | dequeue => returning .eok (rtThreadDefunctDequeue k)

/-- What a call asks of its caller: the assertions hold, a priority is one of the 32, a
thread object that is initialised is not in use, and the scheduler has been started where
the code reads `rt_current_thread`. -/
def Allowed (c : Call T) (k : Kernel T) : Prop :=
  match c with
  | init t priority _ => priority.toNat < 32 ∧ k.currentThread ≠ some t ∧
      (k.state t = threadInit ∨ k.state t = threadClose ∧ t ∉ k.defunct)
  | start => k.currentThread = none ∧ ∃ t, k.state t = threadReady
  | schedule | yield | exit | tick => k.currentThread.isSome
  | suspend t _ => k.currentThread = some t
  | sleep ticks => ticks ≠ 0#32 → k.schedulerLockNest = 0#16 ∧ k.currentThread.isSome
  | timeout t => (k.thread t).stat &&& threadSuspendMask = threadSuspendMask ∧ k.currentThread.isSome
  | control t .startup => k.state t = threadInit
  | control _ .close => k.currentThread.isSome
  | control _ (.changePriority priority) => priority.toNat < 32
  | resume _ | detach _ | enterCritical | exitCritical | dequeue => True

end Kernel.Call

/-! ## Each call keeps what holds -/

@[simp] theorem Thread.state_initial (priority : BitVec 8) (ticks : BitVec 32) :
    (Thread.initial priority ticks).state = threadInit :=
  show threadInit &&& threadStatMask = threadInit by decide

@[simp] theorem Thread.state_started (th : Thread) : th.started.state = threadSuspendMask :=
  show threadSuspendMask &&& threadStatMask = threadSuspendMask by decide

@[simp] theorem Thread.state_closed (th : Thread) : th.closed.state = threadClose :=
  show threadClose &&& threadStatMask = threadClose by decide

@[simp] theorem Thread.state_reloaded (th : Thread) : th.reloaded.state = th.state :=
  Thread.state_yields th

/-- What a call on the thread `arg` leaves: threads that were not made stay so, but for `arg`. -/
structure After (arg : Option T) (k k' : Kernel T) (r : Request T) : Prop where
  sound : Sound k'
  asks : Asks k k' r
  fresh : ∀ v, k.state v = threadInit → arg ≠ some v → k'.state v = threadInit

/-- A call that does not fail. -/
def Completes (arg : Option T) (k : Kernel T) (o : Outcome T) : Prop :=
  ∃ k' r e, o = some (k', r, e) ∧ After arg k k' r

/-- A part of a call, with the same thread current. -/
structure Part (arg : Option T) (k k' : Kernel T) : Prop where
  sound : Sound k'
  now : k'.currentThread = k.currentThread
  fresh : ∀ v, k.state v = threadInit → arg ≠ some v → k'.state v = threadInit

/-- A call that ends with `rt_schedule`, with the scheduler locked as it was before. -/
structure Schedules (arg : Option T) (k : Kernel T) (o : Outcome T) : Prop where
  started : ∃ t, k.currentThread = some t
  ends : ∃ k', o = scheduling .eok k' ∧ Part arg k k' ∧ k'.schedulerLockNest = k.schedulerLockNest

section Keeps

variable {k k' : Kernel T} {t : T} {e : Err} {arg : Option T}

omit [DecidableEq T] in
theorem Part.refl (sound : Sound k) : Part arg k k := ⟨sound, rfl, fun _ new _ => new⟩

omit [DecidableEq T] in
theorem Part.completes (part : Part arg k k') : Completes arg k (returning e k') :=
  ⟨k', none, e, rfl, part.sound, .stays part.now, part.fresh⟩

theorem Part.schedules (part : Part arg k k') (now : k.currentThread = some t) :
    Completes arg k (scheduling e k') := by
  obtain ⟨k'', r, same, scheduled⟩ := schedule_spec part.sound (part.now.trans now)
  refine ⟨k'', r, e, by rw [scheduling, same]; rfl, scheduled.sound part.sound, ?_, fun v new other => ?_⟩
  · cases scheduled.asks part.sound with
    | stays still => exact .stays (still.trans part.now)
    | start idle now => exact .start (part.now.symm.trans idle) now
    | switch was now other => exact .switch (part.now.symm.trans was) now other
  · exact scheduled.fresh part.sound (part.fresh v new other)

theorem Part.schedulesIfStarted (part : Part arg k k') : Completes arg k (schedulingIfStarted e k') := by
  rw [schedulingIfStarted]
  split
  · next started =>
    obtain ⟨t, now⟩ := Option.isSome_iff_exists.mp started
    exact part.schedules (part.now.symm.trans now)
  · exact part.completes

theorem Schedules.completes {o : Outcome T} (schedules : Schedules arg k o) : Completes arg k o := by
  obtain ⟨t, now⟩ := schedules.started
  obtain ⟨k', rfl, part, -⟩ := schedules.ends
  exact part.schedules now

omit [DecidableEq T] in
/-- Only the thread `t` is touched, which is passed or has been made before. -/
theorem fresh_of_only (only : ∀ v, v ≠ t → k'.state v = k.state v)
    (may : arg = some t ∨ k.state t ≠ threadInit) (v : T) (new : k.state v = threadInit)
    (other : arg ≠ some v) : k'.state v = threadInit := by
  have differ : v ≠ t := by
    rintro rfl
    exact may.elim other fun made => made new
  exact (only v differ).trans new

theorem only_set {th : Thread} (v : T) (differ : v ≠ t) : (k.set t th).state v = k.state v := by
  rw [state_set, if_neg differ]

theorem only_insert (v : T) (differ : v ≠ t) : (rtScheduleInsertThread t k).state v = k.state v := by
  rw [rtScheduleInsertThread]
  split <;> exact only_set v differ

theorem init_part (sound : Sound k) {priority : BitVec 8} {ticks : BitVec 32}
    (small : priority.toNat < 32) (other : k.currentThread ≠ some t)
    (unused : k.state t = threadInit ∨ k.state t = threadClose ∧ t ∉ k.defunct) :
    Part (some t) k (k.set t (Thread.initial priority ticks)) := by
  have out : k.state t ≠ threadReady := by
    rcases unused with is | ⟨is, -⟩ <;> rw [is] <;> decide
  have kept : t ∉ k.defunct := unused.elim (fun is => sound.not_defunct (by rw [is]; decide)) And.right
  have fresh : (k.set t (Thread.initial priority ticks)).state t = threadInit := by
    rw [state_set, if_pos rfl, Thread.state_initial]
  refine ⟨sound.put out (by rw [Thread.state_initial]; decide) small (fun live => absurd fresh live.1)
    (fun is => absurd is other) (fun runs => absurd runs (by rw [Thread.state_initial]; decide))
    fun mem => absurd mem kept, rfl, fresh_of_only only_set (.inl rfl)⟩

/-- A thread with the suspend bit, in whatever list it waits. -/
theorem Sound.wake (sound : Sound k) (asleep : (k.thread t).stat &&& threadSuspendMask = threadSuspendMask) :
    Sound (rtScheduleInsertThread t (rtListRemove t k)) := by
  have differs {stat : BitVec 8} (off : stat &&& threadSuspendMask ≠ threadSuspendMask) :
      k.state t ≠ stat := by
    intro is
    apply off
    rw [← is, Kernel.state, Thread.state, BitVec.and_assoc]
    exact asleep
  have out : k.state t ≠ threadReady := differs (by decide)
  have open_ : k.state t ≠ threadClose := differs (by decide)
  rw [listRemove_absent sound.files out (sound.not_defunct open_)]
  exact sound.insert ⟨differs (by decide), fun closed => absurd closed open_⟩ out open_

theorem wake_part (sound : Sound k)
    (asleep : (k.thread t).stat &&& threadSuspendMask = threadSuspendMask) :
    Part (some t) k (rtScheduleInsertThread t (rtListRemove t k)) :=
  ⟨sound.wake asleep, (insert_keeps t (rtListRemove t k)).1,
    fresh_of_only (fun v differ => only_insert (k := rtListRemove t k) v differ) (.inl rfl)⟩

theorem resume_part (sound : Sound k) : Part (some t) k (rtThreadResume t k).1 := by
  rw [rtThreadResume]
  split
  · exact .refl sound
  · next asleep => exact wake_part sound (not_not.mp asleep)

theorem resume_lock (t : T) (k : Kernel T) :
    (rtThreadResume t k).1.schedulerLockNest = k.schedulerLockNest := by
  rw [rtThreadResume]
  split
  · rfl
  · exact (insert_keeps t (rtListRemove t k)).2.2

theorem started_part (sound : Sound k) (new : k.state t = threadInit) :
    Part (some t) k (rtThreadResume t (k.set t (k.thread t).started)).1 := by
  have other : k.currentThread ≠ some t := fun now => (sound.current t now).1 new
  have kept : t ∉ k.defunct := sound.not_defunct (by rw [new]; decide)
  have put : Sound (k.set t (k.thread t).started) :=
    sound.put (by rw [new]; decide) (by rw [Thread.state_started]; decide) (sound.small t) (fun _ => rfl)
      (fun is => absurd is other) (fun runs => absurd runs (by rw [Thread.state_started]; decide))
      fun mem => absurd mem kept
  have resumed := resume_part (t := t) put
  exact ⟨resumed.sound, resumed.now, fun v fresh differ =>
    resumed.fresh v (fresh_of_only only_set (.inl rfl) v fresh differ) differ⟩

theorem startup_completes (sound : Sound k) (new : k.state t = threadInit) :
    Completes (some t) k (rtThreadStartup t k) := by
  rw [rtThreadStartup, if_neg (not_not.mpr new)]
  exact (started_part sound new).schedulesIfStarted

theorem startup_schedules (sound : Sound k) (new : k.state t = threadInit)
    (now : k.currentThread.isSome) : Schedules (some t) k (rtThreadStartup t k) := by
  have part := started_part sound new
  refine ⟨Option.isSome_iff_exists.mp now, _, ?_, part, resume_lock t (k.set t (k.thread t).started)⟩
  rw [rtThreadStartup, if_neg (not_not.mpr new), schedulingIfStarted, if_pos (by rw [part.now, now])]

theorem yield_schedules (sound : Sound k) (now : k.currentThread = some t) :
    Schedules none k (rtThreadYield k) := by
  rw [rtThreadYield, now]
  exact ⟨⟨t, now⟩, _, rfl, ⟨sound.set (Thread.state_reloaded _) rfl rfl, rfl,
    fresh_of_only only_set (.inr (sound.current t now).1)⟩, rfl⟩

theorem SuspendFlag.state_stat (th : Thread) (flag : SuspendFlag) :
    (th.become flag.stat).state = flag.stat := by
  cases flag <;> exact Thread.state_become th rfl

/-- The current thread is suspended, and is still the current one. -/
theorem suspend_part (sound : Sound k) (now : k.currentThread = some t) (flag : SuspendFlag) :
    ∃ k' err, rtThreadSuspendWithFlag t flag k = some (k', err) ∧ Part none k k' ∧
      k'.schedulerLockNest = k.schedulerLockNest := by
  rw [rtThreadSuspendWithFlag, if_neg (not_not.mpr now)]
  split
  · exact ⟨k, _, rfl, .refl sound, rfl⟩
  · have asleep := SuspendFlag.state_stat (k.thread t) flag
    refine ⟨_, _, rfl, ⟨sound.leave ⟨(sound.current t now).1, fun _ => now⟩ rfl rfl ?_ ?_ ?_, rfl,
      fresh_of_only (fun v differ => only_set (k := rtScheduleRemoveThread t k) v differ)
        (.inr (sound.current t now).1)⟩, rfl⟩
    all_goals
      refine ne_of_eq_of_ne asleep ?_
      cases flag <;> decide

/-- A thread that cannot be suspended goes on with an error. -/
theorem sleep_schedules (sound : Sound k) {ticks : BitVec 32} (some_ : ticks ≠ 0#32)
    (free : k.schedulerLockNest = 0#16) (now : k.currentThread.isSome) :
    Schedules none k (rtThreadSleep ticks k) ∨
      ∃ k' err, rtThreadSleep ticks k = returning err k' ∧ err ≠ .eok ∧ Part none k k' := by
  obtain ⟨t, now⟩ := Option.isSome_iff_exists.mp now
  obtain ⟨k', err, same, part, lock⟩ := suspend_part sound now .interruptible
  rw [rtThreadSleep, if_neg some_, if_neg (not_not.mpr free), now, Option.bind_some, same, Option.bind_some]
  cases err with
  | eok => exact .inl ⟨⟨t, now⟩, k', rfl, part, lock⟩
  | error => exact .inr ⟨k', .error, rfl, Err.noConfusion, part⟩
  | einval => exact .inr ⟨k', .einval, rfl, Err.noConfusion, part⟩

theorem sleep_completes (sound : Sound k) {ticks : BitVec 32}
    (ready : ticks ≠ 0#32 → k.schedulerLockNest = 0#16 ∧ k.currentThread.isSome) :
    Completes none k (rtThreadSleep ticks k) := by
  by_cases none_ : ticks = 0#32
  · rw [rtThreadSleep, if_pos none_]
    exact (Part.refl sound).completes
  · obtain ⟨free, now⟩ := ready none_
    rcases sleep_schedules sound none_ free now with schedules | ⟨k', err, same, -, part⟩
    · exact schedules.completes
    · rw [same]
      exact part.completes

omit [DecidableEq T] in
/-- A closed thread waits to be released. -/
theorem Sound.enqueue (sound : Sound k) (closed : k.state t = threadClose) (new : t ∉ k.defunct) :
    Sound { k with defunct := t :: k.defunct } where
  files := sound.files
  small := sound.small
  mask := sound.mask
  current := sound.current
  running := sound.running
  once := List.nodup_cons.mpr ⟨new, sound.once⟩
  closed u mem := by
    rcases List.mem_cons.mp mem with rfl | mem
    · exact closed
    · exact sound.closed u mem

/-- A thread that leaves its list, or never stood in one, is closed. -/
theorem Sound.close (sound : Sound k) (made : k.state t ≠ threadInit)
    (last : k.state t = threadClose → k.currentThread = some t) :
    Sound (closeThread t (rtScheduleRemoveThread t k)) := by
  have left : Sound ((rtScheduleRemoveThread t k).set t (k.thread t).closed) :=
    sound.leave ⟨made, last⟩ rfl rfl (by rw [Thread.state_closed]; decide)
      (by rw [Thread.state_closed]; decide) (by rw [Thread.state_closed]; decide)
  refine left.enqueue ?_ ?_
  · rw [state_set, if_pos rfl, Thread.state_closed]
  · exact fun mem => absurd rfl ((sound.once.mem_erase_iff).mp mem).1

theorem exit_schedules (sound : Sound k) (now : k.currentThread = some t) :
    Schedules none k (threadExit k) := by
  rw [threadExit, now]
  exact ⟨⟨t, now⟩, _, rfl, ⟨sound.close (sound.current t now).1 fun _ => now, rfl,
    fresh_of_only (fun v differ => only_set (k := rtScheduleRemoveThread t k) v differ)
      (.inr (sound.current t now).1)⟩, rfl⟩

theorem detach_sound (sound : Sound k) : Sound (rtThreadDetach t k) := by
  rw [rtThreadDetach]
  split
  · exact sound
  · next open_ =>
    split
    · next made => exact sound.close made fun closed => absurd closed open_
    · next new =>
      -- A thread that was never started stands in no list, and its mask is not read.
      have new : k.state t = threadInit := not_not.mp new
      have other : k.currentThread ≠ some t := fun now => (sound.current t now).1 new
      have state : (k.set t (k.thread t).closed).state t = threadClose := by
        rw [state_set, if_pos rfl, Thread.state_closed]
      have put : Sound (k.set t (k.thread t).closed) := by
        refine sound.put (by rw [new]; decide) ?_ (sound.small t)
          (fun live => absurd (live.2 state) other) (fun is => absurd is other) (fun runs => ?_)
          fun _ => Thread.state_closed _
        · rw [Thread.state_closed]
          decide
        · exact absurd ((Thread.state_closed (k.thread t)).symm.trans runs) (by decide)
      exact put.enqueue state (sound.not_defunct open_)

theorem detach_part (sound : Sound k) : Part (some t) k (rtThreadDetach t k) := by
  refine ⟨detach_sound sound, ?_, ?_⟩ <;> rw [rtThreadDetach] <;> split
  · rfl
  · split <;> rfl
  · exact fun v new _ => new
  · split
    · exact fresh_of_only (fun v differ => only_set (k := rtScheduleRemoveThread t k) v differ) (.inl rfl)
    · exact fresh_of_only (fun v differ => only_set (k := k) v differ) (.inl rfl)

theorem detach_lock (t : T) (k : Kernel T) :
    (rtThreadDetach t k).schedulerLockNest = k.schedulerLockNest := by
  rw [rtThreadDetach]
  split
  · rfl
  · split <;> rfl

theorem close_schedules (sound : Sound k) (now : k.currentThread.isSome) :
    Schedules (some t) k (rtThreadControl t .close k) :=
  ⟨Option.isSome_iff_exists.mp now, _, rfl, detach_part sound, detach_lock t k⟩

theorem timeout_schedules (sound : Sound k)
    (asleep : (k.thread t).stat &&& threadSuspendMask = threadSuspendMask)
    (now : k.currentThread.isSome) : Schedules (some t) k (threadTimeout t k) := by
  rw [threadTimeout, if_neg (not_not.mpr asleep)]
  exact ⟨Option.isSome_iff_exists.mp now, _, rfl, wake_part sound asleep,
    (insert_keeps t (rtListRemove t k)).2.2⟩

theorem Thread.state_withPriority (th : Thread) (priority : BitVec 8) :
    (th.withPriority priority).state = th.state := rfl

/-- A ready thread goes over to another list. -/
theorem Sound.requeue (sound : Sound k) (ready : k.state t = threadReady) {th : Thread}
    (small : th.priority < 32) (mask : th.numberMask = 1#32 <<< th.priority) :
    Sound (rtScheduleInsertThread t ((rtScheduleRemoveThread t k).set t th)) := by
  have removed := remove_filed sound.files (sound.mask t (.of_state ready (by decide) (by decide)))
  have moved : ((rtScheduleRemoveThread t k).set t th).Files fun u => u ≠ t ∧ k.state u = threadReady :=
    removed.set fun waiting => absurd rfl waiting.1
  have other : ((rtScheduleRemoveThread t k).set t th).currentThread ≠ some t :=
    fun now => (sound.current t now).2 ready
  have kept : t ∉ k.defunct := sound.not_defunct (by rw [ready]; decide)
  have at_ : ((rtScheduleRemoveThread t k).set t th).priority t = th.priority := by
    rw [priority_set, if_pos rfl]
  have threads := insert_thread other
  rw [Kernel.set_thread] at threads
  have threads : _ = Function.update k.thread t (th.become threadReady) :=
    threads.trans (Function.update_idem ..)
  have became : (th.become threadReady).state = threadReady := Thread.state_become _ rfl
  obtain ⟨now, defunct, -⟩ := insert_keeps t ((rtScheduleRemoveThread t k).set t th)
  refine sound.next threads now ?_ small (fun _ => mask) (fun now => absurd now other)
    (fun runs => absurd (became.symm.trans runs) (by decide)) ?_ fun mem => ?_
  · refine (insert_filed moved (fun waiting => waiting.1 rfl) other (at_ ▸ small) ?_).congr (fun u => ?_)
      fun _ _ => rfl
    · rw [Kernel.set_thread, at_, mask]
    · rw [state_of_update threads, became]
      split
      · next is => exact iff_of_true rfl (.inl is)
      · next differ =>
        exact ⟨fun waiting => .inr ⟨differ, waiting⟩, fun waiting => (waiting.resolve_left differ).2⟩
  · rw [defunct]
    exact List.erase_sublist
  · rw [defunct] at mem
    exact absurd (List.mem_of_mem_erase mem) kept

theorem priority_completes (sound : Sound k) {priority : BitVec 8} (small : priority.toNat < 32) :
    Completes (some t) k (changePriority t priority k) := by
  rw [changePriority, if_neg (not_le.mpr small)]
  split
  · next ready =>
    refine Part.completes ⟨sound.requeue ready small rfl, (insert_keeps t _).1,
      fresh_of_only (fun v differ => (only_insert v differ).trans ?_) (.inl rfl)⟩
    exact only_set (k := rtScheduleRemoveThread t k) v differ
  · next out =>
    have state := Thread.state_withPriority (k.thread t) priority
    exact Part.completes ⟨sound.put out (state ▸ out) small (fun _ => rfl)
      (fun now => state ▸ (sound.current t now).1) (fun runs => sound.running t (state.symm.trans runs))
      fun mem => state ▸ sound.closed t mem, rfl, fresh_of_only only_set (.inl rfl)⟩

omit [DecidableEq T] in
theorem relock_part (sound : Sound k) (n : BitVec 16) : Part none k { k with schedulerLockNest := n } :=
  ⟨⟨sound.files, sound.small, sound.mask, sound.current, sound.running, sound.once, sound.closed⟩, rfl,
    fun _ new _ => new⟩

theorem exit_critical_completes (sound : Sound k) : Completes none k (rtExitCritical k) := by
  rw [rtExitCritical]
  split
  · exact (relock_part sound _).schedulesIfStarted
  · exact (relock_part sound _).completes

theorem tick_completes (sound : Sound k) (now : k.currentThread = some t) :
    Completes none k (rtTickIncrease k) := by
  rw [rtTickIncrease, now, Option.bind_some]
  split
  · exact Part.schedules ⟨sound.set (Thread.state_reloaded _) rfl rfl, rfl,
      fresh_of_only only_set (.inr (sound.current t now).1)⟩ now
  · exact Part.completes ⟨sound.set rfl rfl rfl, rfl,
      fresh_of_only only_set (.inr (sound.current t now).1)⟩

theorem dequeue_sound (sound : Sound k) : Sound (rtThreadDefunctDequeue k) := by
  rw [rtThreadDefunctDequeue]
  split
  · exact sound
  · next t rest is =>
    have closed := sound.closed t (is ▸ List.mem_cons_self)
    have lists : (rtListRemove t k).priorityTable = k.priorityTable := by
      funext p
      refine List.erase_of_not_mem fun mem => ?_
      rw [((sound.files.here p t).mp mem).1] at closed
      exact absurd closed (by decide)
    refine ⟨?_, sound.small, sound.mask, sound.current, sound.running, sound.once.erase t,
      fun u mem => sound.closed u (List.mem_of_mem_erase mem)⟩
    have files := sound.files
    rw [Kernel.Files, ← lists] at files
    exact files

theorem start_completes (sound : Sound k) (idle : k.currentThread = none)
    (some_ : k.state t = threadReady) : Completes none k (Kernel.Call.start.run k) := by
  have group : k.readyPriorityGroup ≠ 0#32 := fun none_ => sound.files.none_waits.mp none_ t some_
  have quiet : Quiet k := fun u runs => absurd ((sound.running u runs).symm.trans idle) (Option.some_ne_none u)
  obtain ⟨u, -, first, ready, -⟩ := highest_spec sound.files group
  have running : ({ k.thread u with stat := threadRunning } : Thread).state = threadRunning :=
    show threadRunning &&& threadStatMask = threadRunning by decide
  rw [Kernel.Call.run, rtSystemSchedulerStart, first]
  refine ⟨_, _, .eok, rfl, sound.take quiet ready running rfl rfl k.currentPriority, .start idle rfl,
    fresh_of_only (t := u) (fun v differ => ?_) (.inr (by rw [ready]; decide))⟩
  exact only_set (k := rtScheduleRemoveThread u { k with currentThread := some u }) v differ

end Keeps

namespace Kernel.Call

/-- The thread object that is passed. -/
def arg : Kernel.Call T → Option T
  | init t .. | resume t | detach t | timeout t | control t _ => some t
  | start | schedule | yield | suspend .. | sleep _ | exit | enterCritical | exitCritical | tick
  | dequeue => none

/-- No allowed call fails, and each leaves the lists and the states in order. -/
theorem keeps {k : Kernel T} (sound : Sound k) (c : Kernel.Call T) (allowed : c.Allowed k) :
    Completes c.arg k (c.run k) := by
  cases c with
  | init t priority ticks =>
    obtain ⟨small, other, unused⟩ := allowed
    rw [run, rtThreadInit, if_pos small]
    exact (init_part sound small other unused).completes
  | start =>
    obtain ⟨idle, t, ready⟩ := allowed
    exact start_completes sound idle ready
  | schedule =>
    obtain ⟨t, now⟩ := Option.isSome_iff_exists.mp allowed
    exact (Part.refl sound).schedules now
  | yield =>
    obtain ⟨t, now⟩ := Option.isSome_iff_exists.mp allowed
    exact (yield_schedules sound now).completes
  | suspend t flag =>
    obtain ⟨k', err, same, part, -⟩ := suspend_part sound allowed flag
    rw [run, same]
    exact part.completes
  | sleep ticks => exact sleep_completes sound allowed
  | resume t => exact (resume_part sound).completes
  | exit =>
    obtain ⟨t, now⟩ := Option.isSome_iff_exists.mp allowed
    exact (exit_schedules sound now).completes
  | detach t => exact (detach_part sound).completes
  | timeout t => exact (timeout_schedules sound allowed.1 allowed.2).completes
  | control t cmd =>
    cases cmd with
    | startup => exact startup_completes sound allowed
    | close => exact (close_schedules sound allowed).completes
    | changePriority priority => exact priority_completes sound allowed
  | enterCritical => exact (relock_part sound _).completes
  | exitCritical => exact exit_critical_completes sound
  | tick =>
    obtain ⟨t, now⟩ := Option.isSome_iff_exists.mp allowed
    exact tick_completes sound now
  | dequeue =>
    refine Part.completes ⟨dequeue_sound sound, ?_, fun v new _ => ?_⟩ <;> rw [rtThreadDefunctDequeue]
    · split <;> rfl
    · split <;> exact new

end Kernel.Call

end NpcMachine.RtThread
