/-
# RtThread.ReadyTable -- the ready queue of `scheduler_up.c`

With 32 priorities there is a list of threads for each and one bit for each list in
`rt_thread_ready_priority_group`.  `__rt_ffs` finds the lowest bit with a table of bytes.

* `rtFfs_eq`: the first bit set, counted from one;
* `insert_filed`, `remove_filed`: what a thread's way into and out of a list keeps;
* `highest_spec`: the first thread of the highest priority.
-/
import Mathlib.Tactic.IntervalCases
import NpcMachine.Machine.Buckets

namespace NpcMachine.RtThread

open NpcMachine.Machine

set_option autoImplicit false

/-! ## `__rt_ffs` -/

/-- `__lowest_bit_bitmap`. -/
def lowestBitBitmap : List Nat := [
    0, 0, 1, 0, 2, 0, 1, 0, 3, 0, 1, 0, 2, 0, 1, 0,
    4, 0, 1, 0, 2, 0, 1, 0, 3, 0, 1, 0, 2, 0, 1, 0,
    5, 0, 1, 0, 2, 0, 1, 0, 3, 0, 1, 0, 2, 0, 1, 0,
    4, 0, 1, 0, 2, 0, 1, 0, 3, 0, 1, 0, 2, 0, 1, 0,
    6, 0, 1, 0, 2, 0, 1, 0, 3, 0, 1, 0, 2, 0, 1, 0,
    4, 0, 1, 0, 2, 0, 1, 0, 3, 0, 1, 0, 2, 0, 1, 0,
    5, 0, 1, 0, 2, 0, 1, 0, 3, 0, 1, 0, 2, 0, 1, 0,
    4, 0, 1, 0, 2, 0, 1, 0, 3, 0, 1, 0, 2, 0, 1, 0,
    7, 0, 1, 0, 2, 0, 1, 0, 3, 0, 1, 0, 2, 0, 1, 0,
    4, 0, 1, 0, 2, 0, 1, 0, 3, 0, 1, 0, 2, 0, 1, 0,
    5, 0, 1, 0, 2, 0, 1, 0, 3, 0, 1, 0, 2, 0, 1, 0,
    4, 0, 1, 0, 2, 0, 1, 0, 3, 0, 1, 0, 2, 0, 1, 0,
    6, 0, 1, 0, 2, 0, 1, 0, 3, 0, 1, 0, 2, 0, 1, 0,
    4, 0, 1, 0, 2, 0, 1, 0, 3, 0, 1, 0, 2, 0, 1, 0,
    5, 0, 1, 0, 2, 0, 1, 0, 3, 0, 1, 0, 2, 0, 1, 0,
    4, 0, 1, 0, 2, 0, 1, 0, 3, 0, 1, 0, 2, 0, 1, 0]

def lowestBit (byte : BitVec 32) : Nat := lowestBitBitmap.getD byte.toNat 0

/-- `__rt_ffs`. -/
def rtFfs (value : BitVec 32) : Nat :=
  if value = 0#32 then 0
  else if value &&& 0xff#32 ≠ 0#32 then lowestBit (value &&& 0xff#32) + 1
  else if value &&& 0xff00#32 ≠ 0#32 then lowestBit ((value &&& 0xff00#32) >>> 8) + 9
  else if value &&& 0xff0000#32 ≠ 0#32 then lowestBit ((value &&& 0xff0000#32) >>> 16) + 17
  else lowestBit ((value &&& 0xff000000#32) >>> 24) + 25

set_option maxRecDepth 4000 in
theorem lowestBit_byte (b : BitVec 8) (some : b ≠ 0#8) :
    b.getLsbD (lowestBitBitmap.getD b.toNat 0) = true ∧ lowestBitBitmap.getD b.toNat 0 < 8 ∧
      ∀ i, i < lowestBitBitmap.getD b.toNat 0 → b.getLsbD i = false := by
  revert b
  decide +kernel

section Bytes

variable {v : BitVec 32}

def byteAt (v : BitVec 32) (j : Nat) : BitVec 8 := v.extractLsb' (8 * j) 8

theorem byteAt_bit (v : BitVec 32) (j i : Nat) (small : i < 8) :
    (byteAt v j).getLsbD i = v.getLsbD (8 * j + i) := by
  rw [byteAt, BitVec.getLsbD_extractLsb', decide_eq_true small, Bool.true_and]

/-- A byte of the value, as the function cuts it out. -/
theorem masked_byte (v : BitVec 32) {j : Nat} (inside : j < 4) :
    (v &&& 0xff#32 <<< (8 * j)) >>> (8 * j) = (byteAt v j).setWidth 32 := by
  have ones : ∀ i, i < 32 → (0xff#32).getLsbD i = decide (i < 8) := by decide
  apply BitVec.eq_of_getLsbD_eq
  intro i small
  rw [BitVec.getLsbD_ushiftRight, BitVec.getLsbD_and, BitVec.getLsbD_shiftLeft,
    BitVec.getLsbD_setWidth, byteAt, BitVec.getLsbD_extractLsb', Nat.add_sub_cancel_left,
    ones i small]
  by_cases low : i < 8
  · simp [low, show 8 * j + i < 32 by omega, small]
  · simp [low]

theorem masked_zero (v : BitVec 32) {j : Nat} (inside : j < 4) :
    v &&& 0xff#32 <<< (8 * j) = 0#32 ↔ byteAt v j = 0#8 := by
  have ones : ∀ i, i < 32 → (0xff#32).getLsbD i = decide (i < 8) := by decide
  have bit (i : Nat) (small : i < 32) : (v &&& 0xff#32 <<< (8 * j)).getLsbD i =
      (v.getLsbD i && (!decide (i < 8 * j) && decide (i - 8 * j < 8))) := by
    rw [BitVec.getLsbD_and, BitVec.getLsbD_shiftLeft, decide_eq_true small, Bool.true_and,
      ones (i - 8 * j) (by omega)]
  constructor
  · intro none
    apply BitVec.eq_of_getLsbD_eq
    intro i small
    have here := bit (8 * j + i) (by omega)
    rw [none, BitVec.getLsbD_zero, decide_eq_false (by omega), decide_eq_true (by omega),
      Bool.not_false, Bool.true_and, Bool.and_true] at here
    rw [byteAt_bit v j i small, ← here, BitVec.getLsbD_zero]
  · intro none
    apply BitVec.eq_of_getLsbD_eq
    intro i small
    rw [bit i small, BitVec.getLsbD_zero]
    by_cases within : 8 * j ≤ i ∧ i < 8 * j + 8
    · have here := byteAt_bit v j (i - 8 * j) (by omega)
      rw [none, BitVec.getLsbD_zero, Nat.add_sub_cancel' within.1] at here
      rw [← here, Bool.false_and]
    · by_cases low : i < 8 * j
      · simp [low]
      · have high : ¬ i - 8 * j < 8 := by omega
        simp [high]

/-- The first byte with a bit set has the first bit. -/
theorem ctz_of_byte {j : Nat} (below : ∀ k, k < j → byteAt v k = 0#8)
    (some : byteAt v j ≠ 0#8) :
    v.ctz.toNat = lowestBit ((byteAt v j).setWidth 32) + 8 * j := by
  obtain ⟨set, small, clear⟩ := lowestBit_byte (byteAt v j) some
  have index : lowestBit ((byteAt v j).setWidth 32) = lowestBitBitmap.getD (byteAt v j).toNat 0 := by
    rw [lowestBit, BitVec.toNat_setWidth, Nat.mod_eq_of_lt]
    exact (byteAt v j).isLt.trans (by decide)
  rw [index, Nat.add_comm]
  apply ctz_of_bits
  · rw [← byteAt_bit v j _ small, set]
  · intro i lower
    by_cases here : 8 * j ≤ i
    · have bit := clear (i - 8 * j) (by omega)
      rwa [byteAt_bit v j _ (by omega), Nat.add_sub_cancel' here] at bit
    · have bit := byteAt_bit v (i / 8) (i % 8) (Nat.mod_lt _ (by decide))
      rw [below (i / 8) (by omega), BitVec.getLsbD_zero, Nat.div_add_mod] at bit
      exact bit.symm

theorem some_byte (some : v ≠ 0#32) (none : ∀ k, k < 3 → byteAt v k = 0#8) : byteAt v 3 ≠ 0#8 := by
  intro last
  apply some
  apply BitVec.eq_of_getLsbD_eq
  intro i small
  have bit := byteAt_bit v (i / 8) (i % 8) (Nat.mod_lt _ (by decide))
  have byte : byteAt v (i / 8) = 0#8 := by
    by_cases within : i / 8 < 3
    · exact none _ within
    · rwa [show i / 8 = 3 by omega]
  rw [byte, BitVec.getLsbD_zero, Nat.div_add_mod] at bit
  rw [← bit, BitVec.getLsbD_zero]

/-- What the function returns for the first byte that is not zero. -/
theorem found_in_byte {j : Nat} (inside : j < 4) (below : ∀ k, k < j → byteAt v k = 0#8)
    (some : byteAt v j ≠ 0#8) :
    lowestBit ((v &&& 0xff#32 <<< (8 * j)) >>> (8 * j)) + (8 * j + 1) = v.ctz.toNat + 1 := by
  rw [masked_byte v inside, ctz_of_byte below some, Nat.add_assoc]

/-- The lowest bit set, counted from one. -/
theorem rtFfs_eq (some : v ≠ 0#32) : rtFfs v = v.ctz.toNat + 1 := by
  have zero0 : v &&& 0xff#32 = 0#32 ↔ byteAt v 0 = 0#8 := masked_zero v (j := 0) (by decide)
  have zero1 : v &&& 0xff00#32 = 0#32 ↔ byteAt v 1 = 0#8 := masked_zero v (j := 1) (by decide)
  have zero2 : v &&& 0xff0000#32 = 0#32 ↔ byteAt v 2 = 0#8 := masked_zero v (j := 2) (by decide)
  rw [rtFfs, if_neg some]
  by_cases byte0 : byteAt v 0 = 0#8
  · rw [if_neg (not_not.mpr (zero0.mpr byte0))]
    by_cases byte1 : byteAt v 1 = 0#8
    · rw [if_neg (not_not.mpr (zero1.mpr byte1))]
      by_cases byte2 : byteAt v 2 = 0#8
      · rw [if_neg (not_not.mpr (zero2.mpr byte2))]
        have below : ∀ k, k < 3 → byteAt v k = 0#8 := by
          intro k small
          interval_cases k <;> assumption
        exact found_in_byte (j := 3) (by decide) below (some_byte some below)
      · rw [if_pos (mt zero2.mp byte2)]
        refine found_in_byte (j := 2) (by decide) (fun k small => ?_) byte2
        interval_cases k <;> assumption
    · rw [if_pos (mt zero1.mp byte1)]
      refine found_in_byte (j := 1) (by decide) (fun k small => ?_) byte1
      interval_cases k
      assumption
  · rw [if_pos (mt zero0.mp byte0)]
    exact found_in_byte (j := 0) (by decide) (fun k small => absurd small (Nat.not_lt_zero k)) byte0

end Bytes

/-! ## The threads and the lists -/

/-- `struct rt_thread`, as far as the scheduler goes. -/
structure Thread where
  currentPriority : BitVec 8
  numberMask : BitVec 32
  stat : BitVec 8
  initTick : BitVec 32
  remainingTick : BitVec 32

def threadInit : BitVec 8 := 0x00#8
def threadClose : BitVec 8 := 0x01#8
def threadReady : BitVec 8 := 0x02#8
def threadRunning : BitVec 8 := 0x03#8
def threadSuspendMask : BitVec 8 := 0x04#8
def threadStatMask : BitVec 8 := 0x07#8
def threadStatYield : BitVec 8 := 0x08#8

namespace Thread

/-- The state of the thread, without the flags that stand beside it in `stat`. -/
def state (th : Thread) : BitVec 8 := th.stat &&& threadStatMask

def priority (th : Thread) : Nat := th.currentPriority.toNat

/-- `thread->stat = stat | (thread->stat & ~RT_THREAD_STAT_MASK)`. -/
def become (th : Thread) (stat : BitVec 8) : Thread :=
  { th with stat := stat ||| th.stat &&& ~~~threadStatMask }

/-- `thread->stat |= RT_THREAD_STAT_YIELD`. -/
def yields (th : Thread) : Thread := { th with stat := th.stat ||| threadStatYield }

/-- `thread->stat &= ~RT_THREAD_STAT_YIELD_MASK`. -/
def clearYield (th : Thread) : Thread := { th with stat := th.stat &&& ~~~threadStatYield }

end Thread

/-- The threads, the variables of `scheduler_up.c` and the list of closed threads of `idle.c`. -/
structure Kernel (T : Type) where
  thread : T → Thread
  priorityTable : Nat → List T
  readyPriorityGroup : BitVec 32
  schedulerLockNest : BitVec 16
  currentThread : Option T
  currentPriority : BitVec 8
  defunct : List T

namespace Kernel

variable {T : Type}

def state (k : Kernel T) (t : T) : BitVec 8 := (k.thread t).state

def priority (k : Kernel T) (t : T) : Nat := (k.thread t).priority

def set [DecidableEq T] (k : Kernel T) (t : T) (th : Thread) : Kernel T :=
  { k with thread := Function.update k.thread t th }

@[simp] theorem set_thread [DecidableEq T] (k : Kernel T) (t : T) (th : Thread) :
    (k.set t th).thread t = th := Function.update_self ..

@[simp] theorem set_set [DecidableEq T] (k : Kernel T) (t : T) (th th' : Thread) :
    (k.set t th).set t th' = k.set t th' := by
  simp [set]

end Kernel

variable {T : Type}

/-- `_scheduler_get_highest_priority_thread`; without a thread it reads past the table. -/
def schedulerGetHighestPriorityThread (k : Kernel T) : Option (T × Nat) :=
  match rtFfs k.readyPriorityGroup with
  | 0 => none
  | p + 1 => (k.priorityTable p).head?.map fun t => (t, p)

section

variable [DecidableEq T]

/-- `rt_schedule_insert_thread`. -/
def rtScheduleInsertThread (t : T) (k : Kernel T) : Kernel T :=
  if k.currentThread = some t then k.set t ((k.thread t).become threadRunning)
  else
    let th := (k.thread t).become threadReady
    let list := k.priorityTable th.priority
    { k.set t th with
      priorityTable := Function.update k.priorityTable th.priority
        (if th.stat &&& threadStatYield ≠ 0#8 then list ++ [t] else t :: list)
      readyPriorityGroup := k.readyPriorityGroup ||| th.numberMask }

/-- `rt_list_remove` on the `tlist` of a thread, whichever list it stands in. -/
def rtListRemove (t : T) (k : Kernel T) : Kernel T :=
  { k with
    priorityTable := fun p => (k.priorityTable p).erase t
    defunct := k.defunct.erase t }

/-- `rt_schedule_remove_thread`. -/
def rtScheduleRemoveThread (t : T) (k : Kernel T) : Kernel T :=
  let k := rtListRemove t k
  { k with
    readyPriorityGroup :=
      if k.priorityTable (k.priority t) = [] then k.readyPriorityGroup &&& ~~~(k.thread t).numberMask
      else k.readyPriorityGroup }

end

/-! ## What the lists and the bits keep -/

/-- The threads with `waits` stand in the lists of their priorities. -/
def Kernel.Files (k : Kernel T) (waits : T → Prop) : Prop :=
  Filed k.priorityTable k.readyPriorityGroup k.priority waits

section Lists

variable {k : Kernel T} {t : T} {waits : T → Prop}

/-- The thread that is found, when one waits. -/
theorem highest_spec (files : k.Files waits) (some_ : k.readyPriorityGroup ≠ 0#32) :
    ∃ u rest, schedulerGetHighestPriorityThread k = some (u, k.priority u) ∧ waits u ∧
      k.priorityTable (k.priority u) = u :: rest ∧ ∀ v, waits v → k.priority u ≤ k.priority v := by
  obtain ⟨u, rest, is, waiting, same, least⟩ := files.lowest some_
  refine ⟨u, rest, ?_, waiting, by rw [same, is], least⟩
  rw [schedulerGetHighestPriorityThread, rtFfs_eq some_]
  show (k.priorityTable k.readyPriorityGroup.ctz.toNat).head?.map _ = _
  rw [is, same]
  rfl

variable [DecidableEq T]

theorem insert_current (now : k.currentThread = some t) :
    rtScheduleInsertThread t k = k.set t ((k.thread t).become threadRunning) := if_pos now

theorem insert_thread (other : k.currentThread ≠ some t) :
    (rtScheduleInsertThread t k).thread =
      Function.update k.thread t ((k.thread t).become threadReady) := by
  rw [rtScheduleInsertThread, if_neg other]
  rfl

theorem insert_keeps (t : T) (k : Kernel T) :
    (rtScheduleInsertThread t k).currentThread = k.currentThread ∧
      (rtScheduleInsertThread t k).defunct = k.defunct ∧
      (rtScheduleInsertThread t k).schedulerLockNest = k.schedulerLockNest := by
  rw [rtScheduleInsertThread]
  split <;> exact ⟨rfl, rfl, rfl⟩

theorem priority_insert (u : T) : (rtScheduleInsertThread t k).priority u = k.priority u := by
  have kept (th : Thread) (same : th.priority = k.priority t) :
      (Function.update k.thread t th u).priority = k.priority u := by
    by_cases is : u = t
    · rw [is, Function.update_self, same]
    · rw [Function.update_of_ne is]
      rfl
  rw [rtScheduleInsertThread]
  split <;> exact kept _ rfl

theorem insert_filed (files : k.Files waits) (new : ¬ waits t) (other : k.currentThread ≠ some t)
    (small : k.priority t < 32) (mask : (k.thread t).numberMask = 1#32 <<< k.priority t) :
    (rtScheduleInsertThread t k).Files (fun u => u = t ∨ waits u) := by
  have list := files.once (k.priority t)
  have absent : t ∉ k.priorityTable (k.priority t) := fun mem => new ((files.here _ t).mp mem).1
  have keys : (rtScheduleInsertThread t k).priority = k.priority := funext priority_insert
  rw [Kernel.Files, keys, rtScheduleInsertThread, if_neg other]
  show Filed _ (k.readyPriorityGroup ||| (k.thread t).numberMask) _ _
  rw [mask]
  refine files.insert new small ?_ ?_
  · split
    · refine List.nodup_append.mpr ⟨list, by simp, fun u mem v last is => ?_⟩
      rw [is, List.mem_singleton.mp last] at mem
      exact absent mem
    · exact List.nodup_cons.mpr ⟨absent, list⟩
  · intro u
    split
    · rw [List.mem_append, List.mem_singleton, or_comm]
      rfl
    · exact List.mem_cons

theorem remove_filed (files : k.Files waits) (mask : (k.thread t).numberMask = 1#32 <<< k.priority t) :
    (rtScheduleRemoveThread t k).Files (fun u => u ≠ t ∧ waits u) := by
  have removed := files.remove t
  rw [← mask] at removed
  exact removed

/-- A thread that stands in no list is not taken out of one. -/
theorem listRemove_absent (files : k.Files waits) (absent : ¬ waits t) (kept : t ∉ k.defunct) :
    rtListRemove t k = k := by
  have lists : (fun p => (k.priorityTable p).erase t) = k.priorityTable := by
    funext p
    exact List.erase_of_not_mem fun mem => absent ((files.here p t).mp mem).1
  rw [rtListRemove, lists, List.erase_of_not_mem kept]

theorem remove_absent (files : k.Files waits) (absent : ¬ waits t) (kept : t ∉ k.defunct)
    (mask : (k.thread t).numberMask = 1#32 <<< k.priority t) : rtScheduleRemoveThread t k = k := by
  have bits : (if k.priorityTable (k.priority t) = []
      then k.readyPriorityGroup &&& ~~~(k.thread t).numberMask else k.readyPriorityGroup) =
      k.readyPriorityGroup := by
    split
    · next none =>
      apply BitVec.eq_of_getLsbD_eq
      intro i low
      rw [BitVec.getLsbD_and, BitVec.getLsbD_not, mask, Filed.getLsbD_single low]
      by_cases is : i = k.priority t
      · have clear : k.readyPriorityGroup.getLsbD i = false :=
          Bool.eq_false_iff.mpr fun set => (files.marked i low).mp set (is ▸ none)
        rw [clear, Bool.false_and]
      · simp [is, low]
    · rfl
  rw [rtScheduleRemoveThread, listRemove_absent files absent kept, bits]

end Lists

end NpcMachine.RtThread
