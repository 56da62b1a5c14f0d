/-
# Emulator.ClintAgree -- the two timers

The CLINT of the model is changed by a store and then ticks; `npc_clint` takes both in one
clock edge.  `clint_agree` runs them side by side: a step is nothing, a word load or a word
store in the window, and `SameTime` is what every step keeps.
-/
import NpcMachine.Emulator.EmulatorIss
import NpcMachine.Rtl.ArchState
import NpcMachine.Rtl.Datapath
import NpcMachine.Machine.Run

namespace NpcMachine.Emulator

set_option autoImplicit false

/-- What a step does before the tick. -/
inductive ClintOp where
  | nothing
  | load (addr : U32)
  | store (addr data : U32)
  deriving DecidableEq, Repr

/-- The address is in the CLINT window. -/
def ClintOp.InWindow (cfg : Config) : ClintOp → Prop
  | .nothing => True
  | .load addr => cfg.inClint addr = true
  | .store addr _ => cfg.inClint addr = true

/-! ## A step of the model -/

namespace Clint

variable (t : Clint)

/-- The operation without the tick; a store outside the window is refused. -/
def operate : ClintOp → Clint
  | .nothing => t
  | .load _ => t
  | .store addr data => (t.store addr 4#32 data).getD t

/-- The value that the step loads. -/
def loaded : ClintOp → Option U32
  | .nothing => none
  | .load addr => t.load addr 4#32
  | .store _ _ => none

def step (op : ClintOp) : Clint := (t.operate op).tick

end Clint

/-! ## A step of `npc_clint` -/

/-- One clock edge with `tick_en` high. -/
def clintStep (c : Rtl.Clint) : ClintOp → Rtl.Clint
  | .nothing => c.next true false false 0#32 0#32
  | .load addr => c.next true true false addr 0#32
  | .store addr data => c.next true true true addr data

/-- `resp_rdata` in the cycle of a load. -/
def clintLoaded (c : Rtl.Clint) : ClintOp → Option U32
  | .nothing => none
  | .load addr => some (c.respRdata true false addr)
  | .store _ _ => none

/-! ## Side by side -/

/-- The timers hold the same time; `cfg` is the configuration of the model. -/
structure SameTime (cfg : Config) (t : Clint) (c : Rtl.Clint) : Prop where
  cfg : t.cfg = cfg
  time : t.time = c.mtime

theorem Clint.operate_cfg (t : Clint) (op : ClintOp) : (t.operate op).cfg = t.cfg := by
  cases op with
  | nothing => rfl
  | load addr => rfl
  | store addr data =>
      rw [operate, store]
      split_ifs <;> rfl

section Agree

variable {cfg : Config} {t : Clint} {c : Rtl.Clint}

/-- Both sides select a register by the offset from the base. -/
theorem isMtime_of_base (base : cfg.clintBase = Rtl.clintBase) (addr : U32) :
    Rtl.Clint.isMtime addr = decide (addr - cfg.clintBase = Clint.mtimeOffset) := by
  rw [base]
  rfl

theorem isMtimeh_of_base (base : cfg.clintBase = Rtl.clintBase) (addr : U32) :
    Rtl.Clint.isMtimeh addr = decide (addr - cfg.clintBase = Clint.mtimehOffset) := by
  rw [base]
  rfl

theorem SameTime.loaded (same : SameTime cfg t c) (base : cfg.clintBase = Rtl.clintBase)
    {op : ClintOp} (inside : op.InWindow cfg) : t.loaded op = clintLoaded c op := by
  cases op with
  | nothing => rfl
  | store addr data => rfl
  | load addr =>
      have window : cfg.inClint addr = true := inside
      simp only [Clint.loaded, Clint.load, clintLoaded, Rtl.Clint.respRdata, same.cfg, same.time,
        window, isMtime_of_base base, isMtimeh_of_base base, Bool.not_true, Bool.not_false,
        Bool.and_true, Bool.false_eq_true, ne_eq, not_true_eq_false, if_false, if_true,
        decide_eq_true_eq]
      split_ifs <;> rfl

/-- The model replaces a half and then carries, `npc_clint` adds to the replaced halves. -/
theorem SameTime.stored (same : SameTime cfg t c) (base : cfg.clintBase = Rtl.clintBase)
    {addr : U32} (data : U32) (window : cfg.inClint addr = true) :
    (t.step (.store addr data)).time = (clintStep c (.store addr data)).mtime := by
  simp only [Clint.step, Clint.operate, Clint.store, clintStep, Rtl.Clint.next, same.cfg, window,
    isMtime_of_base base, isMtimeh_of_base base, ← same.time, Bool.not_true, Bool.and_self,
    Bool.false_eq_true, ne_eq, not_true_eq_false, if_false, if_true, decide_eq_true_eq]
  split_ifs <;> rfl

theorem SameTime.step (same : SameTime cfg t c) (base : cfg.clintBase = Rtl.clintBase)
    {op : ClintOp} (inside : op.InWindow cfg) : SameTime cfg (t.step op) (clintStep c op) where
  cfg := (t.operate_cfg op).trans same.cfg
  time := by
    have idle : t.time + 1#64 = c.mtime + 1#64 := by rw [same.time]
    cases op with
    | nothing => exact idle
    | load addr => exact idle
    | store addr data => exact same.stored base data inside

/-- From reset the timers load the same values and hold the same time, whatever is loaded
and stored in the window. -/
theorem clint_agree (t : Clint) (base : t.cfg.clintBase = Rtl.clintBase) (ops : Nat → ClintOp)
    (inside : ∀ n, (ops n).InWindow t.cfg) (n : Nat) :
    (Machine.run Clint.step t.reset ops n).time =
        (Machine.run clintStep Rtl.Clint.reset ops n).mtime ∧
      (Machine.run Clint.step t.reset ops n).loaded (ops n) =
        clintLoaded (Machine.run clintStep Rtl.Clint.reset ops n) (ops n) := by
  have start : SameTime t.cfg t.reset Rtl.Clint.reset := ⟨rfl, rfl⟩
  have same := Machine.run_related start (fun n _ _ same => same.step base (inside n)) n
  exact ⟨same.time, same.loaded base (inside n)⟩

end Agree

/-- A store to the low half that carries, and a load of the high half behind it. -/
def carryOps : Nat → ClintOp
  | 0 => .store 0x0200BFF8#32 0xFFFFFFFF#32
  | 1 => .load 0x0200BFFC#32
  | _ => .nothing

theorem carryOps_agree : (∀ n, (carryOps n).InWindow {}) ∧ ∀ n,
    (Machine.run Clint.step ⟨{}, 0#64⟩ carryOps n).time =
        (Machine.run clintStep Rtl.Clint.reset carryOps n).mtime ∧
      (Machine.run Clint.step ⟨{}, 0#64⟩ carryOps n).loaded (carryOps n) =
        clintLoaded (Machine.run clintStep Rtl.Clint.reset carryOps n) (carryOps n) := by
  have inside (n : Nat) : (carryOps n).InWindow {} := by
    rcases n with _ | _ | n
    · exact (by decide : Config.inClint {} 0x0200BFF8#32 = true)
    · exact (by decide : Config.inClint {} 0x0200BFFC#32 = true)
    · trivial
  exact ⟨inside, clint_agree ⟨{}, 0#64⟩ rfl carryOps inside⟩

/-! ## The window of a whole model -/

/-- The CLINT window of the reference model is the one that the core is built for. -/
structure SameMap (e : EmulatorIss) : Prop where
  base : e.cfg.clintBase = Rtl.clintBase
  size : e.cfg.clintSize = Rtl.clintSize
  clint : e.clint.cfg = e.cfg

theorem SameMap.inClint {e : EmulatorIss} (same : SameMap e) (addr : U32) :
    e.cfg.inClint addr = Rtl.inClint addr := by
  rw [Config.inClint, Rtl.inClint, same.base, same.size]

end NpcMachine.Emulator
