/-
# Machine.Threads -- threads that hand over to each other

At most one thread runs; every other that has been made waits with a frame.  A thread that
hands over leaves a frame, and the thread it hands over to takes its own.

* `Threads.Step`: what can happen to the frames;
* `Steps.keep`: nothing but a resumption touches the frame of a waiting thread;
* `Steps.taken`: a thread that is resumed takes the frame that it waited with, whatever the
  others did in between.
-/
import Mathlib.Logic.Function.Basic

namespace NpcMachine.Machine

set_option autoImplicit false

/-- The thread that runs, and the frames of those that wait; `alone` keeps the two apart. -/
structure Threads (T F : Type) where
  running : Option T
  frames : T → Option F
  alone : ∀ t, running = some t → frames t = none

/-- What happens: a computation, a new thread, the first resumption, a switch from the thread
`t` that leaves `left` to the thread `u` that takes `taken`. -/
inductive ThreadAct (T F : Type) where
  | compute
  | make (t : T) (first : F)
  | start (u : T) (taken : F)
  | switch (t : T) (left : F) (u : T) (taken : F)

namespace ThreadAct

variable {T F : Type}

/-- The thread that is resumed, and its frame. -/
def resumes : ThreadAct T F → Option (T × F)
  | compute | make .. => none
  | start u taken | switch _ _ u taken => some (u, taken)

end ThreadAct

namespace Threads

variable {T F : Type} [DecidableEq T] {s s' s'' : Threads T F} {t u : T} {f : F}

def make (s : Threads T F) (t : T) (f : F) (other : s.running ≠ some t) : Threads T F where
  running := s.running
  frames := Function.update s.frames t (some f)
  alone := by
    intro u runs
    have differ : u ≠ t := fun same => other (same ▸ runs)
    rw [Function.update_of_ne differ]
    exact s.alone u runs

/-- Resume `u`; a thread that leaves a frame waits from here on. -/
def resume (s : Threads T F) (left : Option (T × F)) (u : T) : Threads T F where
  running := some u
  frames := Function.update
    (match left with
      | none => s.frames
      | some (t, f) => Function.update s.frames t (some f)) u none
  alone := by
    intro v runs
    rw [← Option.some.inj runs, Function.update_self]

inductive Step : ThreadAct T F → Threads T F → Threads T F → Prop
  | compute (s : Threads T F) : Step .compute s s
  | make {s : Threads T F} {t : T} {f : F} (other : s.running ≠ some t) (new : s.frames t = none) :
      Step (.make t f) s (s.make t f other)
  | start {s : Threads T F} {u : T} {taken : F} (idle : s.running = none)
      (waits : s.frames u = some taken) : Step (.start u taken) s (s.resume none u)
  | switch {s : Threads T F} {t u : T} {left taken : F} (runs : s.running = some t)
      (waits : s.frames u = some taken) :
      Step (.switch t left u taken) s (s.resume (some (t, left)) u)

inductive Steps : List (ThreadAct T F) → Threads T F → Threads T F → Prop
  | nil (s : Threads T F) : Steps [] s s
  | cons {a : ThreadAct T F} {as : List (ThreadAct T F)} {s s' s'' : Threads T F}
      (first : Step a s s') (rest : Steps as s' s'') : Steps (a :: as) s s''

/-- The thread that is resumed waited with the frame that it takes. -/
theorem Step.waited {a : ThreadAct T F} (step : Step a s s') (resumed : a.resumes = some (u, f)) :
    s.frames u = some f := by
  cases step with
  | compute | make => cases resumed
  | start _ waits | switch _ waits =>
      cases resumed
      exact waits

/-- A waiting thread that is not resumed keeps its frame. -/
theorem Step.keep {a : ThreadAct T F} (step : Step a s s') (waits : s.frames t = some f)
    (elsewhere : ∀ taken, a.resumes ≠ some (t, taken)) : s'.frames t = some f := by
  cases step with
  | compute => exact waits
  | make _ new =>
      rename_i u g other
      have differ : t ≠ u := by
        rintro rfl
        rw [new] at waits
        cases waits
      exact (Function.update_of_ne differ ..).trans waits
  | start _ _ =>
      rename_i u taken _ _
      have differ : t ≠ u := fun same => elsewhere taken (by rw [same]; rfl)
      exact (Function.update_of_ne differ ..).trans waits
  | switch runs _ =>
      rename_i v u left taken _
      have differ : t ≠ u := fun same => elsewhere taken (by rw [same]; rfl)
      have idle : t ≠ v := by
        rintro rfl
        rw [s.alone t runs] at waits
        cases waits
      exact (Function.update_of_ne differ ..).trans ((Function.update_of_ne idle ..).trans waits)

theorem Steps.keep {as : List (ThreadAct T F)} (steps : Steps as s s') (waits : s.frames t = some f)
    (elsewhere : ∀ a, a ∈ as → ∀ taken, a.resumes ≠ some (t, taken)) : s'.frames t = some f := by
  induction steps with
  | nil => exact waits
  | cons first rest ih =>
      exact ih (first.keep waits (elsewhere _ List.mem_cons_self))
        fun a member => elsewhere a (List.mem_cons_of_mem _ member)

/-- The thread that leaves waits with its frame. -/
theorem Step.left {left taken : F} (step : Step (.switch t left u taken) s s') :
    s'.frames t = some left := by
  cases step with
  | switch runs waits =>
      have differ : t ≠ u := by
        rintro rfl
        rw [s.alone t runs] at waits
        cases waits
      exact (Function.update_of_ne differ ..).trans (Function.update_self ..)

/-- A thread that is resumed takes the frame that it waited with. -/
theorem Steps.taken {taken : F} {as : List (ThreadAct T F)} {last : ThreadAct T F}
    (waits : s.frames t = some f) (between : Steps as s s')
    (elsewhere : ∀ a, a ∈ as → ∀ taken, a.resumes ≠ some (t, taken)) (home : Step last s' s'')
    (resumed : last.resumes = some (t, taken)) : taken = f := by
  have still := between.keep waits elsewhere
  rw [home.waited resumed] at still
  exact Option.some.inj still

end Threads

end NpcMachine.Machine
