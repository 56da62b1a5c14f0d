/-
# RtThread.Switching -- threads over the context switch

Threads of RT-Thread that compute, make new threads and switch.  A computation may do
anything but touch the saved words of a thread that waits, which is what separate stacks
are for; the switches and the making of threads run the code.

* `Holds`: the words in memory stand for the frames of the waiting threads;
* `Step.simulates`, `Run.simulates`: every run is one of threads that hand over;
* `comes_back`, `starts_first`: a thread goes on where it yielded, and starts at its entry,
  whatever the other threads do in between.
-/
import NpcMachine.RtThread.Context
import NpcMachine.Machine.Threads

namespace NpcMachine.RtThread

open NpcMachine.Emulator NpcMachine.Am NpcMachine.Machine

set_option autoImplicit false

variable {T : Type}

/-- The hart, the memory, the threads that have been made and the one that runs. -/
structure System (T : Type) where
  hart : Hart
  memory : Memory
  made : T → Bool
  running : Option T

namespace System

def Waits (s : System T) (u : T) : Prop := s.made u = true ∧ s.running ≠ some u

/-- The `Context` that the `sp` of a thread points to. -/
def ctx (l : Layout T) (s : System T) (u : T) : U32 := s.memory.word (l.sp u)

/-- Room for `n` words at `p`, apart from the contexts of the waiting threads. -/
structure Room (l : Layout T) (s : System T) (n : Nat) (p : U32) : Prop where
  placed : Placed l s.memory n p
  apart : ∀ u, s.Waits u → ∀ k, k < contextWords → Off n p (slot (s.ctx l u) k)

end System

/-- The words that a waiting thread has in memory. -/
structure Untouched (l : Layout T) (m m' : Memory) (u : T) : Prop where
  sp : m'.word (l.sp u) = m.word (l.sp u)
  words : ∀ k, k < contextWords →
    m'.word (slot (m.word (l.sp u)) k) = m.word (slot (m.word (l.sp u)) k)

inductive Call (T : Type) where
  | compute
  | create (t : T) (tentry parameter stackAddr texit : U32)
  | start (u : T)
  | switch (u : T)

/-- The thread that a call resumes. -/
def Call.resumes : Call T → Option T
  | .compute | .create .. => none
  | .start u | .switch u => some u

inductive Step [DecidableEq T] (l : Layout T) : Call T → System T → System T → Prop
  | compute {s : System T} {h : Hart} {m : Memory} (same : m.cfg = s.memory.cfg)
      (isolated : ∀ u, s.Waits u → Untouched l s.memory m u) :
      Step l .compute s { s with hart := h, memory := m }
  | create {s : System T} {t : T} {tentry parameter stackAddr texit : U32}
      (new : s.made t = false) (room : s.Room l sizeofContext (stackTop stackAddr)) :
      Step l (.create t tentry parameter stackAddr texit) s
        { s with
          memory := (rtHwStackInit tentry parameter stackAddr texit s.memory).1.writeWord (l.sp t)
            (rtHwStackInit tentry parameter stackAddr texit s.memory).2
          made := Function.update s.made t true }
  | start {s : System T} {u : T} {h : Hart} {m : Memory} (idle : s.running = none)
      (ready : s.made u = true) (room : s.Room l contextWords (yieldContext s.hart))
      (run : rtHwContextSwitchTo l (l.sp u) (s.hart, s.memory) = some (h, m)) :
      Step l (.start u) s { s with hart := h, memory := m, running := some u }
  | switch {s : System T} {t u : T} {h : Hart} {m : Memory} (runs : s.running = some t)
      (ready : s.made u = true) (other : t ≠ u)
      (room : s.Room l contextWords (yieldContext s.hart))
      (run : rtHwContextSwitch l (l.sp t) (l.sp u) (s.hart, s.memory) = some (h, m)) :
      Step l (.switch u) s { s with hart := h, memory := m, running := some u }

/-- The memory stands for the frames. -/
structure Holds (l : Layout T) (s : System T) (th : Threads T Frame) : Prop where
  good : l.Good s.memory
  running : th.running = s.running
  known : ∀ t, s.running = some t → s.made t = true
  frames : ∀ u, (∃ f, th.frames u = some f) ↔ s.Waits u
  placed : ∀ u, s.Waits u → Placed l s.memory contextWords (s.ctx l u)
  apart : ∀ u v, s.Waits u → s.Waits v → u ≠ v → ∀ k, k < contextWords →
    Off contextWords (s.ctx l u) (slot (s.ctx l v) k)
  saved : ∀ u f, th.frames u = some f → Saved s.memory (s.ctx l u) f

section Simulation

variable {l : Layout T} {s s' : System T} {th th' : Threads T Frame}

theorem Untouched.saved {m m' : Memory} {u : T} {f : Frame} (kept : Untouched l m m' u)
    (saved : Saved m (m.word (l.sp u)) f) : Saved m' (m'.word (l.sp u)) f := by
  rw [kept.sp]
  exact ⟨fun r real => (kept.words _ (gpr_in r)).trans (saved.gpr r real),
    (kept.words 18 (by decide)).trans saved.mepc⟩

/-- A thread of the next state waits as before, or it is the one that a frame was just
written for. -/
theorem Holds.next (holds : Holds l s th) (same : s'.memory.cfg = s.memory.cfg)
    (running : th'.running = s'.running) (known : ∀ t, s'.running = some t → s'.made t = true)
    (frames : ∀ u, (∃ f, th'.frames u = some f) ↔ s'.Waits u) (left : Option T)
    (each : ∀ v, s'.Waits v →
      s.Waits v ∧ Untouched l s.memory s'.memory v ∧ th'.frames v = th.frames v ∨
      left = some v ∧ s.Room l contextWords (s'.ctx l v) ∧
        ∃ f, th'.frames v = some f ∧ Saved s'.memory (s'.ctx l v) f) : Holds l s' th' where
  good := holds.good.of_cfg same
  running := running
  known := known
  frames := frames
  placed := by
    intro v waits
    rcases each v waits with ⟨before, kept, -⟩ | ⟨-, room, -⟩
    · rw [System.ctx, kept.sp]
      exact (holds.placed v before).of_cfg same
    · exact room.placed.of_cfg same
  apart := by
    intro u v waitsU waitsV differ k inside
    rcases each u waitsU with ⟨beforeU, keptU, -⟩ | ⟨isU, roomU, -⟩
    · rcases each v waitsV with ⟨beforeV, keptV, -⟩ | ⟨-, roomV, -⟩
      · rw [System.ctx, System.ctx, keptU.sp, keptV.sp]
        exact holds.apart u v beforeU beforeV differ k inside
      · intro j jIn same
        have ctxU : s'.ctx l u = s.ctx l u := keptU.sp
        rw [ctxU] at same
        exact roomV.apart u beforeU j jIn k inside same.symm
    · rcases each v waitsV with ⟨beforeV, keptV, -⟩ | ⟨isV, -, -⟩
      · intro j jIn same
        have ctxV : s'.ctx l v = s.ctx l v := keptV.sp
        rw [ctxV] at same
        exact roomU.apart v beforeV k inside j jIn same
      · exact absurd (Option.some.inj (isU.symm.trans isV)) differ
  saved := by
    intro v f frame
    have waits := (frames v).mp ⟨f, frame⟩
    rcases each v waits with ⟨-, kept, old⟩ | ⟨-, -, g, new, saved⟩
    · rw [old] at frame
      exact kept.saved (holds.saved v f frame)
    · obtain rfl : g = f := Option.some.inj (new.symm.trans frame)
      exact saved

/-- The memory after a switch, for a thread that waits on. -/
theorem untouched_of_kept {m m' : Memory} {fromp p : U32} {v : T} (good : l.Good m)
    (placed : Placed l m contextWords (m.word (l.sp v)))
    (room : Placed l m contextWords p)
    (apart : ∀ k, k < contextWords → Off contextWords p (slot (m.word (l.sp v)) k))
    (sender : fromp ≠ 0#32 → ∃ t, t ≠ v ∧ fromp = l.sp t)
    (kept : ∀ a, m.HasWord a → a ≠ l.switchTo → a ≠ l.switchFromp → (fromp ≠ 0#32 → a ≠ fromp) →
      Off contextWords p a → m'.word a = m.word a) : Untouched l m m' v where
  sp := by
    refine kept _ (good.sp v) (good.apart v).1 (good.apart v).2 (fun real => ?_) (room.sp v)
    obtain ⟨t, other, rfl⟩ := sender real
    exact fun same => other (good.own same).symm
  words := by
    intro k inside
    refine kept _ (placed.plain k inside).1 (placed.switchTo k inside).symm
      (placed.switchFromp k inside).symm (fun real => ?_) (apart k inside)
    obtain ⟨t, -, rfl⟩ := sender real
    exact (placed.sp t k inside).symm

/-- With room below `sp` no assertion of a switch fails. -/
theorem Holds.completes (holds : Holds l s th) {fromp : U32} {u : T} (ready : s.Waits u)
    (room : s.Room l contextWords (yieldContext s.hart))
    (sender : fromp = 0#32 ∨ ∃ t, s.running = some t ∧ fromp = l.sp t) :
    ∃ h m, RtThread.handOver l fromp (l.sp u) (s.hart, s.memory) = some (h, m) := by
  obtain ⟨f, waits⟩ := (holds.frames u).mpr ready
  obtain ⟨h, m, same, -⟩ :=
    handOver_spec (c := (s.hart, s.memory)) (u := u) (f := f) holds.good room.placed
      (sender.imp_right fun ⟨t, _, is⟩ => ⟨t, is⟩) (holds.placed u ready) (room.apart u ready)
      (holds.saved u f waits)
  exact ⟨h, m, same⟩

/-- What a switch does to memory, by the frames of the threads. -/
theorem Holds.handOver (holds : Holds l s th) {fromp : U32} {u : T} {f : Frame} {h : Hart} {m : Memory}
    (waits : th.frames u = some f) (room : s.Room l contextWords (yieldContext s.hart))
    (sender : fromp = 0#32 ∨ ∃ t, s.running = some t ∧ fromp = l.sp t)
    (run : RtThread.handOver l fromp (l.sp u) (s.hart, s.memory) = some (h, m)) :
    Resumed h f ∧ m.cfg = s.memory.cfg ∧ Saved m (yieldContext s.hart) (yieldFrame s.hart) ∧
      (fromp ≠ 0#32 → m.word fromp = yieldContext s.hart) ∧
      ∀ v, s.Waits v → Untouched l s.memory m v := by
  have ready : s.Waits u := (holds.frames u).mp ⟨f, waits⟩
  obtain ⟨h', m', same, resumed, cfg, saved, stored, kept⟩ :=
    handOver_spec (c := (s.hart, s.memory)) (u := u) (f := f) holds.good room.placed
      (sender.imp_right fun ⟨t, _, is⟩ => ⟨t, is⟩) (holds.placed u ready) (room.apart u ready)
      (holds.saved u f waits)
  obtain ⟨rfl, rfl⟩ := Prod.mk.inj (Option.some.inj (same.symm.trans run))
  refine ⟨resumed, cfg, saved, stored, fun v before => ?_⟩
  refine untouched_of_kept holds.good (holds.placed v before) room.placed (room.apart v before) ?_ kept
  intro real
  obtain ⟨t, runs, is⟩ := sender.resolve_left real
  exact ⟨t, fun same => before.2 (same ▸ runs), is⟩

variable [DecidableEq T]

/-- What a call is among threads that hand over. -/
inductive Shows (s s' : System T) : Call T → ThreadAct T Frame → Prop
  | compute : Shows s s' .compute .compute
  | create {t : T} {tentry parameter stackAddr texit : U32} :
      Shows s s' (.create t tentry parameter stackAddr texit)
        (.make t (firstFrame tentry (stackTop stackAddr) texit parameter))
  | start {u : T} {f : Frame} (resumed : Resumed s'.hart f) : Shows s s' (.start u) (.start u f)
  | switch {t u : T} {f : Frame} (runs : s.running = some t) (resumed : Resumed s'.hart f) :
      Shows s s' (.switch u) (.switch t (yieldFrame s.hart) u f)

/-- A new thread gets its first frame, and the waiting ones keep theirs. -/
theorem Holds.create (holds : Holds l s th) {t : T} {tentry parameter stackAddr texit : U32}
    (new : s.made t = false) (room : s.Room l sizeofContext (stackTop stackAddr))
    (other : th.running ≠ some t) :
    Holds l
      { s with
        memory := (rtHwStackInit tentry parameter stackAddr texit s.memory).1.writeWord (l.sp t)
          (rtHwStackInit tentry parameter stackAddr texit s.memory).2
        made := Function.update s.made t true }
      (th.make t (firstFrame tentry (stackTop stackAddr) texit parameter) other) := by
  obtain ⟨-, saved, same, kept⟩ := stackInit_spec tentry parameter texit room.placed.plain
  have top : (rtHwStackInit tentry parameter stackAddr texit s.memory).2 = stackTop stackAddr := rfl
  rw [top] at saved kept ⊢
  generalize (rtHwStackInit tentry parameter stackAddr texit s.memory).1 = m at saved same kept ⊢
  have good : l.Good m := holds.good.of_cfg same
  have stored : (m.writeWord (l.sp t) (stackTop stackAddr)).word (l.sp t) = stackTop stackAddr :=
    Memory.word_writeWord_same ..
  have past (a : U32) (has : s.memory.HasWord a) (off : a ≠ l.sp t) :
      (m.writeWord (l.sp t) (stackTop stackAddr)).word a = m.word a :=
    Memory.word_writeWord_other (good.sp t) ((hasWord_of_cfg same a).mpr has) off _
  have smaller : contextWords ≤ sizeofContext := by decide
  have idle : s.running ≠ some t := fun runs => Bool.noConfusion (new.symm.trans (holds.known t runs))
  have same_waits (u : T) (isT : u ≠ t) :
      (Function.update s.made t true u = true ∧ s.running ≠ some u) ↔ s.Waits u := by
    rw [Function.update_of_ne isT]
    rfl
  refine holds.next same holds.running ?_ ?_ (some t) ?_
  · intro u runs
    have isT : u ≠ t := fun is => idle (is ▸ runs)
    exact (Function.update_of_ne isT ..).trans (holds.known u runs)
  · intro u
    by_cases isT : u = t
    · subst isT
      exact ⟨fun _ => ⟨Function.update_self .., idle⟩, fun _ => ⟨_, Function.update_self ..⟩⟩
    · refine Iff.trans ?_ ((holds.frames u).trans (same_waits u isT).symm)
      show (∃ f, Function.update th.frames t _ u = some f) ↔ _
      rw [Function.update_of_ne isT]
  · intro v waits
    by_cases isT : v = t
    · subst isT
      refine .inr ⟨rfl, ?_, _, Function.update_self .., ?_⟩
      · rw [System.ctx, stored]
        exact ⟨room.placed.mono smaller, fun u before k inside j jIn =>
          room.apart u before k inside j (Nat.lt_of_lt_of_le jIn smaller)⟩
      · rw [System.ctx, stored]
        have off (k : Nat) (inside : k < contextWords) : slot (stackTop stackAddr) k ≠ l.sp v :=
          (room.placed.sp v k (Nat.lt_of_lt_of_le inside smaller)).symm
        have has (k : Nat) (inside : k < contextWords) :=
          (room.placed.plain k (Nat.lt_of_lt_of_le inside smaller)).1
        exact ⟨fun r real => (past _ (has _ (gpr_in r)) (off _ (gpr_in r))).trans (saved.gpr r real),
          (past _ (has 18 (by decide)) (off 18 (by decide))).trans saved.mepc⟩
    · have before := (same_waits v isT).mp waits
      have placed := holds.placed v before
      refine .inl ⟨before, ⟨?_, fun k inside => ?_⟩, Function.update_of_ne isT ..⟩
      · exact (past _ (holds.good.sp v) fun is => isT (holds.good.own is)).trans
          (kept _ (holds.good.sp v) (room.placed.sp v))
      · exact (past _ (placed.plain k inside).1 (placed.sp t k inside).symm).trans
          (kept _ (placed.plain k inside).1 (room.apart v before k inside))

/-- The first resumption. -/
theorem Holds.start (holds : Holds l s th) {u : T} {f : Frame} {h : Hart} {m : Memory}
    (idle : s.running = none) (waits : th.frames u = some f)
    (room : s.Room l contextWords (yieldContext s.hart))
    (run : rtHwContextSwitchTo l (l.sp u) (s.hart, s.memory) = some (h, m)) :
    Resumed h f ∧
      Holds l { s with hart := h, memory := m, running := some u } (th.resume none u) := by
  obtain ⟨resumed, cfg, -, -, untouched⟩ := holds.handOver waits room (.inl rfl) run
  have ready : s.Waits u := (holds.frames u).mp ⟨f, waits⟩
  have same_waits (v : T) : s.made v = true ↔ s.Waits v :=
    ⟨fun made => ⟨made, by rw [idle]; exact (Option.some_ne_none v).symm⟩, fun before => before.1⟩
  refine ⟨resumed, holds.next cfg rfl ?_ ?_ none ?_⟩
  · intro v runs
    rw [← Option.some.inj runs]
    exact ready.1
  · intro v
    show (∃ g, Function.update th.frames u none v = some g) ↔ _ ∧ some u ≠ some v
    by_cases isU : v = u
    · subst isU
      rw [Function.update_self]
      exact ⟨fun ⟨g, absent⟩ => absurd absent.symm (Option.some_ne_none g), fun both => absurd rfl both.2⟩
    · rw [Function.update_of_ne isU, holds.frames v, ← same_waits v]
      exact ⟨fun made => ⟨made, fun is => isU (Option.some.inj is).symm⟩, fun both => both.1⟩
  · intro v after
    have isU : v ≠ u := fun is => after.2 (by rw [is])
    have before := (same_waits v).mp after.1
    exact .inl ⟨before, untouched v before, Function.update_of_ne isU ..⟩

/-- A switch between threads. -/
theorem Holds.switch (holds : Holds l s th) {t u : T} {f : Frame} {h : Hart} {m : Memory}
    (runs : s.running = some t) (waits : th.frames u = some f)
    (room : s.Room l contextWords (yieldContext s.hart))
    (run : rtHwContextSwitch l (l.sp t) (l.sp u) (s.hart, s.memory) = some (h, m)) :
    Resumed h f ∧
      Holds l { s with hart := h, memory := m, running := some u }
        (th.resume (some (t, yieldFrame s.hart)) u) := by
  obtain ⟨resumed, cfg, saved, stored, untouched⟩ :=
    holds.handOver waits room (.inr ⟨t, runs, rfl⟩) run
  have ready : s.Waits u := (holds.frames u).mp ⟨f, waits⟩
  have other : t ≠ u := fun is => ready.2 (is ▸ runs)
  have same_waits (v : T) (isT : v ≠ t) : s.made v = true ↔ s.Waits v :=
    ⟨fun made => ⟨made, by rw [runs]; exact fun is => isT (Option.some.inj is).symm⟩,
      fun before => before.1⟩
  refine ⟨resumed, holds.next cfg rfl ?_ ?_ (some t) ?_⟩
  · intro v now
    rw [← Option.some.inj now]
    exact ready.1
  · intro v
    show (∃ g, Function.update (Function.update th.frames t _) u none v = some g) ↔ _ ∧ some u ≠ some v
    by_cases isU : v = u
    · subst isU
      rw [Function.update_self]
      exact ⟨fun ⟨g, absent⟩ => absurd absent.symm (Option.some_ne_none g), fun both => absurd rfl both.2⟩
    · rw [Function.update_of_ne isU]
      have apart : some u ≠ some v := fun is => isU (Option.some.inj is).symm
      by_cases isT : v = t
      · subst isT
        rw [Function.update_self]
        exact ⟨fun _ => ⟨holds.known v runs, apart⟩, fun _ => ⟨_, rfl⟩⟩
      · rw [Function.update_of_ne isT, holds.frames v, ← same_waits v isT]
        exact ⟨fun made => ⟨made, apart⟩, fun both => both.1⟩
  · intro v after
    have isU : v ≠ u := fun is => after.2 (by rw [is])
    by_cases isT : v = t
    · subst isT
      have pointer : m.word (l.sp v) = yieldContext s.hart := stored (holds.good.real v)
      refine .inr ⟨rfl, ?_, yieldFrame s.hart, ?_, ?_⟩
      · rw [System.ctx, pointer]
        exact room
      · exact (Function.update_of_ne isU ..).trans (Function.update_self ..)
      · rw [System.ctx, pointer]
        exact saved
    · have before := (same_waits v isT).mp after.1
      exact .inl ⟨before, untouched v before,
        (Function.update_of_ne isU ..).trans (Function.update_of_ne isT ..)⟩

/-- Every step is one of threads that hand over. -/
theorem Step.simulates {call : Call T} (holds : Holds l s th) (step : Step l call s s') :
    ∃ act th', Threads.Step act th th' ∧ Shows s s' call act ∧ Holds l s' th' := by
  cases step with
  | compute same isolated =>
      refine ⟨.compute, th, .compute th, .compute, ?_⟩
      exact holds.next same holds.running holds.known holds.frames none fun v waits =>
        .inl ⟨waits, isolated v waits, rfl⟩
  | create new room =>
      rename_i t _ _ _ _
      have other : th.running ≠ some t := by
        intro runs
        rw [holds.running] at runs
        exact Bool.noConfusion (new.symm.trans (holds.known t runs))
      refine ⟨_, _, .make other ?_, .create, holds.create new room other⟩
      by_contra some
      have waits := (holds.frames _).mp (Option.ne_none_iff_exists'.mp some)
      exact Bool.noConfusion (new.symm.trans waits.1)
  | start idle ready room run =>
      obtain ⟨f, waits⟩ := (holds.frames _).mpr
        ⟨ready, by rw [idle]; exact (Option.some_ne_none _).symm⟩
      obtain ⟨resumed, after⟩ := holds.start idle waits room run
      exact ⟨_, _, .start (holds.running.trans idle) waits, .start resumed, after⟩
  | switch runs ready other room run =>
      obtain ⟨f, waits⟩ := (holds.frames _).mpr
        ⟨ready, by rw [runs]; exact fun is => other (Option.some.inj is)⟩
      obtain ⟨resumed, after⟩ := holds.switch runs waits room run
      exact ⟨_, _, .switch (holds.running.trans runs) waits, .switch runs resumed, after⟩

end Simulation

/-! ## Runs -/

inductive Run [DecidableEq T] (l : Layout T) : List (Call T) → System T → System T → Prop
  | nil (s : System T) : Run l [] s s
  | cons {call : Call T} {calls : List (Call T)} {s s' s'' : System T} (first : Step l call s s')
      (rest : Run l calls s' s'') : Run l (call :: calls) s s''

/-- The system before the scheduler starts. -/
structure System.Boots (l : Layout T) (s : System T) : Prop where
  good : l.Good s.memory
  unmade : ∀ t, s.made t = false
  idle : s.running = none

section Runs

variable {l : Layout T} {s s' s₀ s₁ s₂ s₃ : System T} {th : Threads T Frame} {calls earlier : List (Call T)}
  {t u : T}

theorem Shows.resumes {call : Call T} {act : ThreadAct T Frame} (shows : Shows s s' call act) :
    act.resumes.map Prod.fst = call.resumes := by
  cases shows <;> rfl

/-- A thread that is resumed goes on with the frame of its act. -/
theorem Shows.resumed {call : Call T} {act : ThreadAct T Frame} (shows : Shows s s' call act)
    (resumes : call.resumes = some t) : ∃ f, act.resumes = some (t, f) ∧ Resumed s'.hart f := by
  cases shows with
  | compute | create => cases resumes
  | start resumed | switch _ resumed =>
      cases resumes
      exact ⟨_, rfl, resumed⟩

theorem System.Boots.holds (boots : s.Boots l) : ∃ th : Threads T Frame, Holds l s th := by
  have idle (u : T) : ¬ s.Waits u := fun waits => Bool.noConfusion ((boots.unmade u).symm.trans waits.1)
  exact ⟨⟨none, fun _ => none, fun _ _ => rfl⟩, {
    good := boots.good
    running := boots.idle.symm
    known := fun t runs => absurd (boots.idle.symm.trans runs) (Option.some_ne_none t).symm
    frames := fun u => ⟨fun ⟨f, absent⟩ => absurd absent.symm (Option.some_ne_none f),
      fun waits => absurd waits (idle u)⟩
    placed := fun u waits => absurd waits (idle u)
    apart := fun u v waits => absurd waits (idle u)
    saved := fun u f absent => absurd absent.symm (Option.some_ne_none f) }⟩

variable [DecidableEq T]

theorem Run.append {later : List (Call T)} (run : Run l calls s s₁) (then_ : Run l later s₁ s₂) :
    Run l (calls ++ later) s s₂ := by
  induction run with
  | nil => exact then_
  | cons first rest ih => exact .cons first (ih then_)

/-- Every run is one of threads that hand over, call by call. -/
theorem Run.follows (holds : Holds l s th) (run : Run l calls s s₁) :
    ∃ acts th', Threads.Steps acts th th' ∧ Holds l s₁ th' ∧
      acts.map (fun act => act.resumes.map Prod.fst) = calls.map Call.resumes := by
  induction run generalizing th with
  | nil => exact ⟨[], th, .nil th, holds, rfl⟩
  | cons first rest ih =>
      obtain ⟨act, th', step, shows, after⟩ := first.simulates holds
      obtain ⟨acts, th'', steps, last, same⟩ := ih after
      exact ⟨act :: acts, th'', .cons step steps, last, congrArg₂ List.cons shows.resumes same⟩

/-- What a thread waits with is what it goes on with. -/
theorem Holds.resumed (holds : Holds l s th) {f : Frame} (waits : th.frames t = some f)
    (run : Run l calls s s₁) (elsewhere : ∀ call, call ∈ calls → call.resumes ≠ some t)
    {call : Call T} (step : Step l call s₁ s₂) (resumes : call.resumes = some t) :
    Resumed s₂.hart f := by
  obtain ⟨acts, th', steps, after, same⟩ := run.follows holds
  obtain ⟨act, th'', act_step, shows, -⟩ := step.simulates after
  obtain ⟨g, taken, resumed⟩ := shows.resumed resumes
  have others : ∀ act, act ∈ acts → ∀ taken, act.resumes ≠ some (t, taken) := by
    intro act member taken resumes
    have there : some t ∈ calls.map Call.resumes := by
      rw [← same]
      exact List.mem_map.mpr ⟨act, member, by rw [resumes]; rfl⟩
    obtain ⟨call, called, is⟩ := List.mem_map.mp there
    exact elsewhere call called is
  rwa [steps.taken waits others act_step taken] at resumed

theorem Holds.enters (holds : Holds l s th) {tentry parameter stackAddr texit : U32}
    (made : Step l (.create t tentry parameter stackAddr texit) s s₁) (between : Run l calls s₁ s₂)
    (elsewhere : ∀ call, call ∈ calls → call.resumes ≠ some t) {call : Call T}
    (first : Step l call s₂ s₃) (resumes : call.resumes = some t) :
    Resumed s₃.hart (firstFrame tentry (stackTop stackAddr) texit parameter) := by
  obtain ⟨act, th', step, shows, after⟩ := made.simulates holds
  cases shows
  cases step with
  | make other new => exact after.resumed (Function.update_self ..) between elsewhere first resumes

theorem Holds.returns (holds : Holds l s th) (runs : s.running = some t)
    (away : Step l (.switch u) s s₁) (between : Run l calls s₁ s₂)
    (elsewhere : ∀ call, call ∈ calls → call.resumes ≠ some t) {call : Call T}
    (back : Step l call s₂ s₃) (resumes : call.resumes = some t) :
    Resumed s₃.hart (yieldFrame s.hart) := by
  obtain ⟨act, th', step, shows, after⟩ := away.simulates holds
  cases shows with
  | switch ran resumed =>
      obtain rfl := Option.some.inj (runs.symm.trans ran)
      exact after.resumed step.left between elsewhere back resumes

/-- A new thread starts at its entry with its parameter, on its own stack. -/
theorem starts_first (boots : s₀.Boots l) (before : Run l earlier s₀ s)
    {tentry parameter stackAddr texit : U32}
    (made : Step l (.create t tentry parameter stackAddr texit) s s₁) (between : Run l calls s₁ s₂)
    (elsewhere : ∀ call, call ∈ calls → call.resumes ≠ some t) {call : Call T}
    (first : Step l call s₂ s₃) (resumes : call.resumes = some t) :
    Resumed s₃.hart (firstFrame tentry (stackTop stackAddr) texit parameter) := by
  obtain ⟨th, holds⟩ := boots.holds
  obtain ⟨-, th', -, here, -⟩ := before.follows holds
  exact here.enters made between elsewhere first resumes

/-- A thread that yields goes on after its `ecall` with its registers, `t0` and `a5` apart,
whatever the other threads do in between. -/
theorem comes_back (boots : s₀.Boots l) (before : Run l earlier s₀ s) (runs : s.running = some t)
    (away : Step l (.switch u) s s₁) (between : Run l calls s₁ s₂)
    (elsewhere : ∀ call, call ∈ calls → call.resumes ≠ some t)
    (back : Step l (.switch t) s₂ s₃) : Resumed s₃.hart (yieldFrame s.hart) := by
  obtain ⟨th, holds⟩ := boots.holds
  obtain ⟨-, th', -, here, -⟩ := before.follows holds
  exact here.returns runs away between elsewhere back rfl

end Runs

/-! ### Two threads -/

def twoThreads : Layout Bool where
  cfg := {}
  switchTo := 0x20000100#32
  switchFromp := 0x20000104#32
  sp := fun t => if t then 0x20000120#32 else 0x20000110#32

def twoBoot : System Bool where
  hart := { Hart.reset 0x20000000#32 with x := fun r => if r = Am.sp then 0x20001000#32 else 0#32 }
  memory := Memory.create {}
  made := fun _ => false
  running := none

/-- The state after the thread `t` is made with its stack below `stackAddr`. -/
def System.withThread (s : System Bool) (t : Bool) (tentry stackAddr : U32) : System Bool :=
  { s with
    memory := (rtHwStackInit tentry 0#32 stackAddr 0#32 s.memory).1.writeWord (twoThreads.sp t)
      (rtHwStackInit tentry 0#32 stackAddr 0#32 s.memory).2
    made := Function.update s.made t true }

def twoFirst : System Bool := twoBoot.withThread false 0x20000200#32 0x20002000#32
def twoMade : System Bool := twoFirst.withThread true 0x20000300#32 0x20003000#32

theorem twoBoot_boots : twoBoot.Boots twoThreads where
  good := {
    switchTo := by decide
    switchFromp := by decide
    differ := by decide
    sp := by decide
    real := by decide
    apart := by decide
    own := by decide }
  unmade := fun _ => rfl
  idle := rfl

theorem placed_two {m : Memory} (same : m.cfg = {}) {n : Nat} {p : U32} (some : p ≠ 0#32)
    (plain : Plain {} (Memory.create {}) n p)
    (off : Off n p 0x20000100#32 ∧ Off n p 0x20000104#32 ∧ ∀ t, Off n p (twoThreads.sp t)) :
    Placed twoThreads m n p :=
  ⟨plain.of_cfg same, some, off.1, off.2.1, off.2.2⟩

theorem twoThreads_made : Run twoThreads
    [.create false 0x20000200#32 0#32 0x20002000#32 0#32,
      .create true 0x20000300#32 0#32 0x20003000#32 0#32] twoBoot twoMade := by
  have firstRoom : twoBoot.Room twoThreads sizeofContext (stackTop 0x20002000#32) :=
    ⟨placed_two rfl (by decide) (by decide +kernel) (by decide +kernel), fun u waits =>
      Bool.noConfusion waits.1⟩
  have ctx : twoFirst.ctx twoThreads false = stackTop 0x20002000#32 := by decide +kernel
  have secondRoom : twoFirst.Room twoThreads sizeofContext (stackTop 0x20003000#32) := by
    refine ⟨placed_two rfl (by decide) (by decide +kernel) (by decide +kernel), fun u waits => ?_⟩
    cases u with
    | true => exact Bool.noConfusion waits.1
    | false =>
        rw [ctx]
        decide +kernel
  exact .cons (.create rfl firstRoom) (.cons (.create rfl secondRoom) (.nil _))

theorem twoMade_ctx : twoMade.ctx twoThreads false = 0x20001FB0#32 ∧
    twoMade.ctx twoThreads true = 0x20002FB0#32 := by decide +kernel

theorem twoMade_room : twoMade.Room twoThreads contextWords (yieldContext twoMade.hart) := by
  refine ⟨placed_two rfl (by decide) (by decide +kernel) (by decide +kernel), fun u _ => ?_⟩
  cases u with
  | true =>
      rw [twoMade_ctx.2]
      decide +kernel
  | false =>
      rw [twoMade_ctx.1]
      decide +kernel

theorem twoMade_starts : ∃ h m,
    rtHwContextSwitchTo twoThreads (twoThreads.sp false) (twoMade.hart, twoMade.memory) =
      some (h, m) := by
  obtain ⟨th, holds₀⟩ := twoBoot_boots.holds
  obtain ⟨-, th, -, holds, -⟩ := twoThreads_made.follows holds₀
  exact holds.completes (u := false) ⟨rfl, by decide⟩ twoMade_room (.inl rfl)

/-- The scheduler starts the first of the two threads. -/
theorem starts_first_two : ∃ s : System Bool, Step twoThreads (.start false) twoMade s ∧
    Resumed s.hart (firstFrame 0x20000200#32 (stackTop 0x20002000#32) 0#32 0#32) := by
  obtain ⟨h, m, start⟩ := twoMade_starts
  have first : Step twoThreads (.start false) twoMade _ := .start rfl rfl twoMade_room start
  cases twoThreads_made with
  | cons makeFalse rest =>
  exact ⟨_, first, starts_first twoBoot_boots (.nil _) makeFalse rest (by simp [Call.resumes])
    first rfl⟩

/-- The state after a switch to the thread `u`. -/
def System.switched (s : System Bool) (u : Bool) (c : Hart × Memory) : System Bool :=
  { s with hart := c.1, memory := c.2, running := some u }

/-- The scheduler starts the first thread, which yields to the second, which yields back. -/
theorem two_switch : ∃ c c₁ c₃ : Hart × Memory,
    rtHwContextSwitchTo twoThreads (twoThreads.sp false) (twoMade.hart, twoMade.memory) = some c ∧
      (twoMade.switched false c).Room twoThreads contextWords (yieldContext c.1) ∧
      rtHwContextSwitch twoThreads (twoThreads.sp false) (twoThreads.sp true) c = some c₁ ∧
      ((twoMade.switched false c).switched true c₁).Room twoThreads contextWords (yieldContext c₁.1) ∧
      rtHwContextSwitch twoThreads (twoThreads.sp true) (twoThreads.sp false) c₁ = some c₃ := by
  obtain ⟨th₀, holds₀⟩ := twoBoot_boots.holds
  obtain ⟨-, th, -, holds, -⟩ := twoThreads_made.follows holds₀
  have cfg : twoMade.memory.cfg = {} := rfl
  -- The scheduler has started the first thread.
  obtain ⟨h, m, start⟩ := twoMade_starts
  let s : System Bool := twoMade.switched false (h, m)
  have toS : Step twoThreads (.start false) twoMade s := .start rfl rfl twoMade_room start
  obtain ⟨f, waits⟩ := (holds.frames false).mpr ⟨rfl, by decide⟩
  obtain ⟨-, cfgS, -, -, kept⟩ := holds.handOver waits twoMade_room (.inl rfl) start
  have ctxS : s.ctx twoThreads true = 0x20002FB0#32 :=
    (kept true ⟨rfl, by decide⟩).sp.trans twoMade_ctx.2
  obtain ⟨-, thS, -, -, holdsS⟩ := toS.simulates holds
  cases twoThreads_made with
  | cons makeFalse rest =>
  obtain ⟨-, th₁, -, -, holds₁⟩ := makeFalse.simulates holds₀
  cases rest with
  | cons makeTrue done =>
  cases done
  have spS : h.reg Am.sp = stackTop 0x20002000#32 :=
    (holds₀.enters makeFalse (.cons makeTrue (.nil _)) (by simp [Call.resumes]) toS rfl).gpr Am.sp
      (by decide)
  have frameS : yieldContext s.hart = 0x20001F64#32 := by
    show h.reg Am.sp + _ = _
    rw [spS]
    decide
  -- It yields to the second.
  have readyS : s.Waits true := ⟨rfl, show some false ≠ some true by decide⟩
  have roomS : s.Room twoThreads contextWords (yieldContext s.hart) := by
    rw [frameS]
    refine ⟨placed_two (cfgS.trans cfg) (by decide) (by decide +kernel) (by decide +kernel),
      fun u waits => ?_⟩
    cases u with
    | false => exact absurd rfl waits.2
    | true =>
        rw [ctxS]
        decide +kernel
  obtain ⟨h₁, m₁, away⟩ := holdsS.completes readyS roomS (.inr ⟨false, rfl, rfl⟩)
  let s₁ : System Bool := s.switched true (h₁, m₁)
  have toS₁ : Step twoThreads (.switch true) s s₁ := .switch rfl rfl (by decide) roomS away
  obtain ⟨g, waitsS⟩ := (holdsS.frames true).mpr readyS
  obtain ⟨-, cfgS₁, -, stored, -⟩ := holdsS.handOver waitsS roomS (.inr ⟨false, rfl, rfl⟩) away
  have ctxS₁ : s₁.ctx twoThreads false = 0x20001F64#32 := (stored (by decide)).trans frameS
  obtain ⟨-, thS₁, -, -, holdsS₁⟩ := toS₁.simulates holdsS
  have spS₁ : h₁.reg Am.sp = stackTop 0x20003000#32 :=
    (holds₁.enters makeTrue (.cons toS (.nil _)) (by simp [Call.resumes]) toS₁ rfl).gpr Am.sp
      (by decide)
  have frameS₁ : yieldContext s₁.hart = 0x20002F64#32 := by
    show h₁.reg Am.sp + _ = _
    rw [spS₁]
    decide
  -- And back.
  have readyS₁ : s₁.Waits false := ⟨rfl, show some true ≠ some false by decide⟩
  have roomS₁ : s₁.Room twoThreads contextWords (yieldContext s₁.hart) := by
    rw [frameS₁]
    refine ⟨placed_two (cfgS₁.trans (cfgS.trans cfg)) (by decide) (by decide +kernel)
      (by decide +kernel), fun u waits => ?_⟩
    cases u with
    | true => exact absurd rfl waits.2
    | false =>
        rw [ctxS₁]
        decide +kernel
  obtain ⟨h₃, m₃, back⟩ := holdsS₁.completes readyS₁ roomS₁ (.inr ⟨true, rfl, rfl⟩)
  exact ⟨(h, m), (h₁, m₁), (h₃, m₃), start, roomS, away, roomS₁, back⟩

theorem comes_back_two : ∃ s s₁ s₃ : System Bool,
    s.running = some false ∧ Step twoThreads (.switch true) s s₁ ∧
      Step twoThreads (.switch false) s₁ s₃ ∧ Resumed s₃.hart (yieldFrame s.hart) := by
  obtain ⟨c, c₁, c₃, start, room, away, room₁, back⟩ := two_switch
  have toS : Step twoThreads (.start false) twoMade (twoMade.switched false c) :=
    .start rfl rfl twoMade_room start
  have toS₁ : Step twoThreads (.switch true) _ ((twoMade.switched false c).switched true c₁) :=
    .switch rfl rfl (by decide) room away
  have toS₃ : Step twoThreads (.switch false) _
      (((twoMade.switched false c).switched true c₁).switched false c₃) :=
    .switch rfl rfl (by decide) room₁ back
  cases twoThreads_made with
  | cons makeFalse rest =>
  cases rest with
  | cons makeTrue done =>
  cases done
  exact ⟨_, _, _, rfl, toS₁, toS₃, comes_back twoBoot_boots
    (.cons makeFalse (.cons makeTrue (.cons toS (.nil _)))) rfl toS₁ (.nil _) (by simp) toS₃⟩

end NpcMachine.RtThread
