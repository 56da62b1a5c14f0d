/-
# Emulator.LastEvents -- the ring behind `last_events`

`Recorded` pairs every state that the public calls reach with the events committed since
the last `reset`, the last one first.  A step writes its own event into the ring
(`stepInst_commits`), `reset` empties the ring and no other call touches it, so the ring is a
`Machine.RingBuffer` that holds exactly those events, and `last_events` answers their front
(`lastEvents_eq`).  Events from before a reset stay in the slots and are never shown.
-/
import NpcMachine.Emulator.Restore
import NpcMachine.Emulator.Shell
import NpcMachine.Machine.RingBuffer

namespace NpcMachine.Emulator

open NpcMachine.Machine

set_option autoImplicit false

/-! ## The ring as a ring buffer -/

def Ring.toBuffer (r : Ring) : RingBuffer CommitEvent where
  slot := r.buffer
  head := r.head
  full := r.full

theorem Ring.push_toBuffer (r : Ring) (ev : CommitEvent) :
    (r.push ev).toBuffer = r.toBuffer.push ringSize ev := rfl

namespace EmulatorIss

variable {cfg : Config} {s : EmulatorIss} {d : DecodedInst} {log : List CommitEvent}

theorem lastEvents_newest (s : EmulatorIss) (n : Nat) :
    s.lastEvents n = s.ring.toBuffer.newest ringSize n := rfl

/-! ## A step writes its event -/

/-- The event is in the ring and counted. -/
structure Commits (s after : EmulatorIss) (ev : CommitEvent) : Prop where
  ring : after.ring = s.ring.push ev
  retireIdx : after.retireIdx = s.retireIdx + 1#64

theorem Outcome.commits {out : EmulatorIss × CommitEvent} (outcome : Outcome s d out) :
    Commits s out.1 out.2 := by
  cases outcome with
  | trap cause => exact ⟨rfl, rfl⟩
  | halt => exact ⟨rfl, rfl⟩
  | retire moved rd value next moves on =>
      constructor
      · show moved.ring.push (moved.retire d rd value next).2 = _
        rw [moves.frame.ring]
      · show moved.retireIdx + 1#64 = _
        rw [moves.frame.retireIdx]

theorem stepBody_commits (s : EmulatorIss) : Commits s s.stepBody.1 s.stepBody.2 := by
  have ways := s.stepBody_cases
  generalize s.stepBody = out at ways ⊢
  cases ways with
  | fetch inst cause => exact ⟨rfl, rfl⟩
  | execute outcome => exact outcome.commits

/-- The event that `step_inst` returns is the one in the ring. -/
theorem stepInst_commits {after : EmulatorIss} {ev : CommitEvent}
    (step : s.stepInst = some (after, ev)) : Commits s after ev := by
  obtain ⟨-, rfl, rfl⟩ := stepInst_some step
  exact ⟨s.stepBody_commits.ring, s.stepBody_commits.retireIdx⟩

/-! ## The calls -/

/-- What the public calls reach from the constructor, with the events committed since the
last `reset`, the last one first. -/
inductive Recorded (cfg : Config) : List CommitEvent → EmulatorIss → Prop where
  | create : Recorded cfg [] (.create cfg)
  | reset {log : List CommitEvent} {s : EmulatorIss} (resetAddr : U32) : Recorded cfg log s →
      Recorded cfg [] (s.reset resetAddr)
  | stepInst {log : List CommitEvent} {s after : EmulatorIss} {ev : CommitEvent} :
      Recorded cfg log s → s.stepInst = some (after, ev) → Recorded cfg (ev :: log) after
  | other {log : List CommitEvent} {s after : EmulatorIss} : Recorded cfg log s →
      OtherCall s after → Recorded cfg log after

theorem Recorded.reachable (recorded : Recorded cfg log s) : Reachable cfg s := by
  induction recorded with
  | create => exact .create
  | reset resetAddr _ ih => exact ih.reset resetAddr
  | stepInst _ step ih => exact ih.stepInst step
  | other _ call ih =>
      cases call with
      | readMem addr size => exact ih.readMem addr size
      | writeMem addr size data => exact ih.writeMem addr size data
      | loadBin file addr => exact ih.loadBin file addr
      | loadElf file loads => exact ih.loadElf file loads
      | loadCheckpoint stack file => exact ih.loadCheckpoint stack file
      | access hart ram time uart => exact ih.access hart ram time uart

/-- Every reachable state has its record. -/
theorem Reachable.recorded (reachable : Reachable cfg s) : ∃ log, Recorded cfg log s := by
  induction reachable with
  | create => exact ⟨[], .create⟩
  | reset resetAddr _ ih =>
      obtain ⟨log, recorded⟩ := ih
      exact ⟨[], recorded.reset resetAddr⟩
  | @stepInst s after ev _ step ih =>
      obtain ⟨log, recorded⟩ := ih
      exact ⟨ev :: log, recorded.stepInst step⟩
  | readMem addr size _ ih => exact ih.imp fun _ recorded => recorded.other (.readMem addr size)
  | writeMem addr size data _ ih =>
      exact ih.imp fun _ recorded => recorded.other (.writeMem addr size data)
  | loadBin file addr _ ih => exact ih.imp fun _ recorded => recorded.other (.loadBin file addr)
  | loadElf file _ loads ih => exact ih.imp fun _ recorded => recorded.other (.loadElf file loads)
  | loadCheckpoint stack file _ ih =>
      exact ih.imp fun _ recorded => recorded.other (.loadCheckpoint stack file)
  | access hart ram time uart _ ih =>
      exact ih.imp fun _ recorded => recorded.other (.access hart ram time uart)

/-! ## The answer of `last_events` -/

/-- The ring holds the record of the state. -/
theorem Recorded.holds (recorded : Recorded cfg log s) : s.ring.toBuffer.Holds ringSize log := by
  have room : 0 < ringSize := by decide
  induction recorded with
  | create => exact RingBuffer.holds_clear room ⟨fun _ => default, 0, false⟩
  | @reset log s resetAddr _ _ => exact RingBuffer.holds_clear room s.ring.toBuffer
  | stepInst _ step ih =>
      rw [(stepInst_commits step).ring, Ring.push_toBuffer]
      exact ih.push room _
  | other _ call ih =>
      rw [call.frame.ring]
      exact ih

/-- The record is as long as the count of the source says. -/
theorem Recorded.retireIdx (recorded : Recorded cfg log s) :
    s.retireIdx = BitVec.ofNat 64 log.length := by
  induction recorded with
  | create => rfl
  | reset => rfl
  | stepInst _ step ih =>
      rw [(stepInst_commits step).retireIdx, ih, List.length_cons, BitVec.ofNat_add]
  | other _ call ih => rw [call.frame.retireIdx, ih]

/-- The events of `n` calls of `step_inst` go on top of the record. -/
theorem Recorded.run (recorded : Recorded cfg log s) (n : Nat) :
    Recorded cfg (((List.range n).filterMap s.event).reverse ++ log) (s.run n) := by
  induction n with
  | zero => exact recorded
  | succ n ih =>
      have event : s.event n = (s.run n).stepInst.map Prod.snd := rfl
      rw [List.range_succ, List.filterMap_append, List.reverse_append, run_succ]
      cases step : (s.run n).stepInst with
      | none => simpa [event, step] using ih
      | some out => simpa [event, step] using ih.stepInst step

/-- Over every sequence of calls: `last_events(n)` is the last `n` events committed since
the last reset, as far as there are that many and at most 64, the last one first. -/
theorem lastEvents_eq (recorded : Recorded cfg log s) (n : Nat) :
    s.lastEvents n = log.take (min n (min 64 log.length)) := by
  rw [lastEvents_newest]
  exact recorded.holds.newest_eq n

/-- A hart that jumps to itself, after three steps and a reset. -/
def spinning : EmulatorIss :=
  (((create tinyConfig).writeMem 0x20000000#32 4#32 0x0000006F#32).run 3).reset 0x20000000#32

/-- The events of its first 66 steps, the last one first. -/
def spinningLog : List CommitEvent := ((List.range 66).filterMap spinning.event).reverse

/-- The ring has wrapped: two events are gone, and so are the three from before the reset. -/
theorem lastEvents_spinning :
    spinningLog.length = 66 ∧ (spinning.run 66).lastEvents 100 = spinningLog.take 64 := by
  have length : spinningLog.length = 66 := by decide +kernel
  have written : Recorded tinyConfig []
      ((create tinyConfig).writeMem 0x20000000#32 4#32 0x0000006F#32) :=
    Recorded.create.other (.writeMem _ _ _)
  have recent : (spinning.run 66).lastEvents 100 =
      (spinningLog ++ []).take (min 100 (min 64 (spinningLog ++ []).length)) :=
    lastEvents_eq (((written.run 3).reset 0x20000000#32).run 66) 100
  rw [List.append_nil, length] at recent
  exact ⟨length, recent⟩

end EmulatorIss

end NpcMachine.Emulator
