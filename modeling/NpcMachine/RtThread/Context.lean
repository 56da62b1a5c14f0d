/-
# RtThread.Context -- `context.c`

RT-Thread's context switch on the trap of the abstract machine.  `rt_hw_context_switch`
leaves the two static variables for the handler and yields; the handler moves the saved
`mepc` past the `ecall`, stores the `Context` in the thread that leaves, and gives back that
of the thread that is to run.

* `handOver_spec`: one switch, and the words that it leaves alone;
* `stackInit_spec`: the `Context` that a new thread starts from.
-/
import NpcMachine.Am.Cte

namespace NpcMachine.RtThread

open NpcMachine.Emulator NpcMachine.Am

set_option autoImplicit false

variable {T : Type}

/-- The addresses of the static variables and of the field `sp` of each thread. -/
structure Layout (T : Type) where
  cfg : Config
  switchTo : U32
  switchFromp : U32
  sp : T → U32

/-- `ev_handler`; another event fails its assertion. -/
def evHandler (l : Layout T) : Handler := fun e c m =>
  if e = .yield then
    let m := m.writeWord (slot c 18) (m.word (slot c 18) + 4#32)
    let fromp := m.word l.switchFromp
    let m := if fromp ≠ 0#32 then m.writeWord fromp c else m
    some (m, m.word l.switchTo)
  else none

/-- `rt_switch_to = *to; rt_switch_fromp = fromp`. -/
def setSwitch (l : Layout T) (fromp to_ : U32) (m : Memory) : Memory :=
  (m.writeWord l.switchTo (m.word to_)).writeWord l.switchFromp fromp

/-- The static variables and the `yield`. -/
def handOver (l : Layout T) (fromp to_ : U32) (c : Hart × Memory) : Option (Hart × Memory) :=
  yield (some (evHandler l)) (c.1, setSwitch l fromp to_ c.2)

def rtHwContextSwitchTo (l : Layout T) (to_ : U32) (c : Hart × Memory) : Option (Hart × Memory) :=
  handOver l 0#32 to_ c

/-- `rt_hw_context_switch`; `rt_hw_context_switch_interrupt` is a call of it. -/
def rtHwContextSwitch (l : Layout T) (fromp to_ : U32) (c : Hart × Memory) :
    Option (Hart × Memory) :=
  handOver l fromp to_ c

/-- The top of the stack, aligned to 16 bytes below the `Context`. -/
def stackTop (stackAddr : U32) : U32 :=
  (stackAddr - BitVec.ofNat 32 (sizeofContext * xlen)) &&& ~~~0xF#32

/-- `rt_hw_stack_init`. -/
def rtHwStackInit (tentry parameter stackAddr texit : U32) (m : Memory) : Memory × U32 :=
  let top := stackTop stackAddr
  (writeSlots top (cleared ++ startWords tentry top [(1, texit)] parameter) m, top)

/-! ## Frames -/

/-- The frame of a thread that yields: past the `ecall`, with `sp` in `t0` and -1 in `a5`. -/
def yieldFrame (h : Hart) : Frame where
  gpr := fun r => if r = t0 then h.reg Am.sp else if r = a5 then BitVec.allOnes 32 else h.reg r
  mepc := h.pc + 4#32 + 4#32

/-- The `Context` of a hart that yields. -/
def yieldContext (h : Hart) : U32 := h.reg Am.sp + (-contextSize).signExtend 32

theorem stackInit_spec {cfg : Config} {m : Memory} {stackAddr : U32} (tentry parameter texit : U32)
    (plain : Plain cfg m sizeofContext (stackTop stackAddr)) :
    let out := rtHwStackInit tentry parameter stackAddr texit m
    out.2 = stackTop stackAddr ∧ Saved out.1 out.2 (firstFrame tentry out.2 texit parameter) ∧
      out.1.cfg = m.cfg ∧
      ∀ a, m.HasWord a → Off sizeofContext out.2 a → out.1.word a = m.word a := by
  have small : ∀ w, w ∈ [(1, texit)] → w.1 < sizeofContext := by simp [sizeofContext, contextWords]
  have inside := startWords_inside tentry (stackTop stackAddr) parameter [(1, texit)] small
  have saved := startWords_saved tentry (stackTop stackAddr) parameter [(1, texit)] (some texit) plain
    small fun k => by by_cases first : k = 1 <;> simp [lastWrite, first, eq_comm]
  exact ⟨rfl, saved, writeSlots_cfg, fun a has off => writeSlots_other plain inside has off⟩

/-! ## A switch -/

/-- The words of the kernel: RAM, and each at its own address. -/
structure Layout.Good (l : Layout T) (m : Memory) : Prop where
  switchTo : m.HasWord l.switchTo
  switchFromp : m.HasWord l.switchFromp
  differ : l.switchTo ≠ l.switchFromp
  sp : ∀ t, m.HasWord (l.sp t)
  real : ∀ t, l.sp t ≠ 0#32
  apart : ∀ t, l.sp t ≠ l.switchTo ∧ l.sp t ≠ l.switchFromp
  own : Function.Injective l.sp

/-- `n` words of RAM at `ctx`, none of them one of the kernel's. -/
structure Placed (l : Layout T) (m : Memory) (n : Nat) (ctx : U32) : Prop where
  plain : Plain l.cfg m n ctx
  real : ctx ≠ 0#32
  switchTo : Off n ctx l.switchTo
  switchFromp : Off n ctx l.switchFromp
  sp : ∀ t, Off n ctx (l.sp t)

section Switch

variable {l : Layout T} {c : Hart × Memory} {fromp : U32} {u : T} {f : Frame} {m : Memory} {a : U32}

theorem Layout.Good.of_cfg {m' : Memory} (good : l.Good m) (same : m'.cfg = m.cfg) : l.Good m' where
  switchTo := (hasWord_of_cfg same _).mpr good.switchTo
  switchFromp := (hasWord_of_cfg same _).mpr good.switchFromp
  differ := good.differ
  sp := fun t => (hasWord_of_cfg same _).mpr (good.sp t)
  real := good.real
  apart := good.apart
  own := good.own

theorem Placed.of_cfg {m' : Memory} {n : Nat} {ctx : U32} (placed : Placed l m n ctx)
    (same : m'.cfg = m.cfg) : Placed l m' n ctx :=
  ⟨placed.plain.of_cfg same, placed.real, placed.switchTo, placed.switchFromp, placed.sp⟩

theorem Placed.mono {n k : Nat} {ctx : U32} (placed : Placed l m n ctx) (le : k ≤ n) :
    Placed l m k ctx where
  plain := fun j inside => placed.plain j (Nat.lt_of_lt_of_le inside le)
  real := placed.real
  switchTo := fun j inside => placed.switchTo j (Nat.lt_of_lt_of_le inside le)
  switchFromp := fun j inside => placed.switchFromp j (Nat.lt_of_lt_of_le inside le)
  sp := fun t j inside => placed.sp t j (Nat.lt_of_lt_of_le inside le)

theorem setSwitch_words (good : l.Good m) (fromp to_ : U32) :
    (setSwitch l fromp to_ m).word l.switchTo = m.word to_ ∧
      (setSwitch l fromp to_ m).word l.switchFromp = fromp ∧
      ∀ a, m.HasWord a → a ≠ l.switchTo → a ≠ l.switchFromp →
        (setSwitch l fromp to_ m).word a = m.word a := by
  refine ⟨?_, Memory.word_writeWord_same .., fun a has noTo noFromp => ?_⟩
  · exact (Memory.word_writeWord_other (m := m.writeWord l.switchTo (m.word to_)) good.switchFromp
      good.switchTo good.differ _).trans (Memory.word_writeWord_same ..)
  · exact (Memory.word_writeWord_other (m := m.writeWord l.switchTo (m.word to_)) good.switchFromp
      has noFromp _).trans (Memory.word_writeWord_other good.switchTo has noTo _)

theorem yieldTrap_reg (c : Hart × Memory) (r : BitVec 4) :
    (yieldTrap c).1.reg r = if r = a5 then BitVec.allOnes 32 else c.1.reg r := by
  have loaded : ((Asm.addi a5 0#4 (-1#12)).exec c).1.reg r =
      if r = a5 ∧ a5 ≠ 0#4 then c.1.reg 0#4 + (-1#12).signExtend 32 else c.1.reg r := exec_addi_reg ..
  have ones : c.1.reg 0#4 + (-1#12).signExtend 32 = BitVec.allOnes 32 := by
    show 0#32 + (-1#12).signExtend 32 = _
    decide
  refine Eq.trans loaded ?_
  rw [ones]
  by_cases isA5 : r = a5
  · rw [if_pos ⟨isA5, by decide⟩, if_pos isA5]
  · rw [if_neg fun both => isA5 both.1, if_neg isA5]

theorem yieldTrap_context (c : Hart × Memory) : context (yieldTrap c).1 = yieldContext c.1 := by
  rw [context, yieldTrap_reg, if_neg (by decide), yieldContext]

/-- `ev_handler` on a `Context` that a yield has saved. -/
theorem evHandler_yield (good : l.Good m) {ctx : U32} (placed : Placed l m contextWords ctx)
    (fromp_eq : m.word l.switchFromp = fromp)
    (sender : fromp = 0#32 ∨ ∃ t, fromp = l.sp t) :
    ∃ m', evHandler l .yield ctx m = some (m', m.word l.switchTo) ∧ m'.cfg = m.cfg ∧
      m'.word (slot ctx 18) = m.word (slot ctx 18) + 4#32 ∧ (fromp ≠ 0#32 → m'.word fromp = ctx) ∧
      ∀ a, m.HasWord a → (fromp ≠ 0#32 → a ≠ fromp) → a ≠ slot ctx 18 → m'.word a = m.word a := by
  have in18 : 18 < contextWords := by decide
  have has18 := (placed.plain 18 in18).1
  have other (a : U32) (has : m.HasWord a) (off : a ≠ slot ctx 18) :
      (m.writeWord (slot ctx 18) (m.word (slot ctx 18) + 4#32)).word a = m.word a :=
    Memory.word_writeWord_other has18 has off _
  have there := other l.switchFromp good.switchFromp (placed.switchFromp 18 in18)
  have dest := other l.switchTo good.switchTo (placed.switchTo 18 in18)
  have here := Memory.word_writeWord_same m (slot ctx 18) (m.word (slot ctx 18) + 4#32)
  have same : (m.writeWord (slot ctx 18) (m.word (slot ctx 18) + 4#32)).cfg = m.cfg := rfl
  simp only [evHandler, if_true, there, fromp_eq]
  generalize m.writeWord (slot ctx 18) (m.word (slot ctx 18) + 4#32) = next at *
  by_cases some : fromp ≠ 0#32
  · obtain ⟨t, rfl⟩ := sender.resolve_left some
    have has := (hasWord_of_cfg same _).mpr (good.sp t)
    have past (a : U32) (hasA : m.HasWord a) (off : a ≠ l.sp t) :
        (next.writeWord (l.sp t) ctx).word a = next.word a :=
      Memory.word_writeWord_other has ((hasWord_of_cfg same a).mpr hasA) off _
    refine ⟨next.writeWord (l.sp t) ctx, ?_, same, ?_, fun _ => Memory.word_writeWord_same .., ?_⟩
    · rw [if_pos some, past _ good.switchTo (good.apart t).1.symm, dest]
    · rw [past _ has18 (placed.sp t 18 in18).symm, here]
    · exact fun a hasA off offSlot => (past a hasA (off some)).trans (other a hasA offSlot)
  · refine ⟨next, ?_, same, here, fun real => absurd real some,
      fun a hasA _ offSlot => other a hasA offSlot⟩
    rw [if_neg some, dest]

/-- One switch: the thread to run goes on with its frame, and the one that leaves is saved. -/
theorem handOver_spec (good : l.Good c.2)
    (room : Placed l c.2 contextWords (yieldContext c.1))
    (sender : fromp = 0#32 ∨ ∃ t, fromp = l.sp t)
    (place : Placed l c.2 contextWords (c.2.word (l.sp u)))
    (apart : ∀ k, k < contextWords → Off contextWords (yieldContext c.1) (slot (c.2.word (l.sp u)) k))
    (saved : Saved c.2 (c.2.word (l.sp u)) f) :
    ∃ h m, handOver l fromp (l.sp u) c = some (h, m) ∧ Resumed h f ∧ m.cfg = c.2.cfg ∧
      Saved m (yieldContext c.1) (yieldFrame c.1) ∧ (fromp ≠ 0#32 → m.word fromp = yieldContext c.1) ∧
      ∀ a, c.2.HasWord a → a ≠ l.switchTo → a ≠ l.switchFromp → (fromp ≠ 0#32 → a ≠ fromp) →
        Off contextWords (yieldContext c.1) a → m.word a = c.2.word a := by
  obtain ⟨atTo, atFromp, kept⟩ := setSwitch_words good fromp (l.sp u)
  have sameSet : (setSwitch l fromp (l.sp u) c.2).cfg = c.2.cfg := rfl
  generalize setEq : setSwitch l fromp (l.sp u) c.2 = m1 at *
  -- The trap with the static variables set.
  let e := yieldTrap (c.1, m1)
  have ctxEq : context e.1 = yieldContext c.1 := yieldTrap_context (c.1, m1)
  have room1 : Placed l e.2 contextWords (context e.1) := by
    rw [ctxEq]
    exact room.of_cfg sameSet
  obtain ⟨-, savedE, causeE, keptE⟩ := save_spec room1.plain
  have sameE : (execAll save e).2.cfg = c.2.cfg := (execAll_cfg save e).trans sameSet
  rw [ctxEq] at savedE causeE keptE room1
  have spec (ctx : U32) (m : Memory)
      (handled : irqHandle (some (evHandler l)) (yieldContext c.1) (execAll save e).2 = some (m, ctx))
      (room : Plain l.cfg m contextWords ctx) (saved : Saved m ctx f) :
      ∃ h, trap (some (evHandler l)) e = some (h, m) ∧ Resumed h f :=
    trap_spec (by rw [ctxEq]; exact room1.plain) (by rw [ctxEq]; exact handled) room saved
  generalize (execAll save e).2 = m2 at savedE causeE keptE sameE spec
  have good2 := good.of_cfg sameE
  have room2 : Placed l m2 contextWords (yieldContext c.1) := room.of_cfg sameE
  have sees (a : U32) (has : c.2.HasWord a) (off : Off contextWords (yieldContext c.1) a) :
      m2.word a = m1.word a := keptE a ((hasWord_of_cfg sameSet a).mpr has) off
  have fromp2 : m2.word l.switchFromp = fromp :=
    (sees _ good.switchFromp room.switchFromp).trans atFromp
  have dest2 : m2.word l.switchTo = c.2.word (l.sp u) := (sees _ good.switchTo room.switchTo).trans atTo
  obtain ⟨m3, handled, same3, epc3, stored, kept3⟩ := evHandler_yield good2 room2 fromp2 sender
  rw [dest2] at handled
  have same : m3.cfg = c.2.cfg := same3.trans sameE
  have through (a : U32) (has : c.2.HasWord a) (noTo : a ≠ l.switchTo) (noFromp : a ≠ l.switchFromp)
      (off : Off contextWords (yieldContext c.1) a) (other : fromp ≠ 0#32 → a ≠ fromp) :
      m3.word a = c.2.word a :=
    (kept3 a ((hasWord_of_cfg sameE a).mpr has) other (off 18 (by decide))).trans
      ((sees a has off).trans (kept a has noTo noFromp))
  have irq : irqHandle (some (evHandler l)) (yieldContext c.1) m2 = some (m3, c.2.word (l.sp u)) := by
    have cause : m2.word (slot (yieldContext c.1) 16) = causeEcallM := causeE
    simp only [irqHandle, cause, if_true, handled, Option.filter_some]
    rw [if_pos (by simpa using place.real)]
  have reads (k : Nat) (inside : k < contextWords) :
      m3.word (slot (c.2.word (l.sp u)) k) = c.2.word (slot (c.2.word (l.sp u)) k) := by
    have noSender : fromp ≠ 0#32 → slot (c.2.word (l.sp u)) k ≠ fromp := by
      intro real
      obtain ⟨t, rfl⟩ := sender.resolve_left real
      exact (place.sp t k inside).symm
    exact through _ (place.plain k inside).1 (place.switchTo k inside).symm
      (place.switchFromp k inside).symm (apart k inside) noSender
  obtain ⟨h, run, resumed⟩ := spec _ _ irq (place.plain.of_cfg same)
    ⟨fun r real => (reads _ (gpr_in r)).trans (saved.gpr r real),
      (reads 18 (by decide)).trans saved.mepc⟩
  refine ⟨h, m3, ?_, resumed, same, ⟨?_, ?_⟩, stored, fun a has noTo noFromp other off =>
    through a has noTo noFromp off other⟩
  · rw [handOver, yield, setEq]
    exact run
  · intro r real
    have slotFromp : fromp ≠ 0#32 → slot (yieldContext c.1) r.toNat ≠ fromp := by
      intro some
      obtain ⟨t, rfl⟩ := sender.resolve_left some
      exact (room.sp t r.toNat (gpr_in r)).symm
    have beside : slot (yieldContext c.1) r.toNat ≠ slot (yieldContext c.1) 18 :=
      slot_ne (Nat.lt_succ_of_lt (gpr_in r)) (by decide) (by omega)
    have before := savedE.gpr r real
    rw [kept3 _ (room2.plain _ (gpr_in r)).1 slotFromp beside, before]
    have spEntry : e.1.reg Am.sp = c.1.reg Am.sp :=
      (yieldTrap_reg (c.1, m1) Am.sp).trans (if_neg (by decide))
    show (if r = t0 then e.1.reg Am.sp else e.1.reg r) = _
    rw [spEntry, yieldTrap_reg]
    rfl
  · rw [epc3, savedE.mepc]
    rfl

end Switch

end NpcMachine.RtThread
