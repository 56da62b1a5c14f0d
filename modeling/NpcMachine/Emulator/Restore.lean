/-
# Emulator.Restore -- a checkpoint loaded into another emulator

The file has the cycle count, the hart but for `halted`, and the RAM.  What a load leaves to
the receiving emulator is the halted flag and the CLINT counter, so the restored run has the
events of the saved one exactly when the flags are equal and no clock read shows the
difference of the counters (`restore_iff`).
-/
import NpcMachine.Emulator.Alike
import NpcMachine.Emulator.Checkpoint
import NpcMachine.Emulator.Outcome

namespace NpcMachine.Emulator

open NpcMachine.Machine

set_option autoImplicit false

namespace EmulatorIss

/-! ## Reachable states -/

/-- What the public operations reach from the constructor; `access` is what the references
of `hart()`, `memory()`, `clint()` and `uart()` allow. -/
inductive Reachable (cfg : Config) : EmulatorIss → Prop where
  | create : Reachable cfg (.create cfg)
  | reset {s : EmulatorIss} (resetAddr : U32) : Reachable cfg s → Reachable cfg (s.reset resetAddr)
  | stepInst {s after : EmulatorIss} {ev : CommitEvent} : Reachable cfg s →
      s.stepInst = some (after, ev) → Reachable cfg after
  | readMem {s : EmulatorIss} (addr size : U32) : Reachable cfg s →
      Reachable cfg (s.readMem addr size).2
  | writeMem {s : EmulatorIss} (addr size data : U32) : Reachable cfg s →
      Reachable cfg (s.writeMem addr size data)
  | loadBin {s : EmulatorIss} (file : Option (List (BitVec 8))) (addr : U32) : Reachable cfg s →
      Reachable cfg (s.loadBin file addr).2
  | loadElf {s : EmulatorIss} (file : Option (List (BitVec 8))) {out : Bool × EmulatorIss} :
      Reachable cfg s → s.loadElf file = some out → Reachable cfg out.2
  | loadCheckpoint {s : EmulatorIss} (stack : Stack) (file : Option (List (BitVec 8))) :
      Reachable cfg s → Reachable cfg (s.loadCheckpoint stack file).2
  | access {s : EmulatorIss} (hart : Hart) (ram : Nat → BitVec 8) (time : BitVec 64)
      (uart : Uart) : Reachable cfg s → Reachable cfg
        { s with
          hart := hart
          memory := { s.memory with ram := ram }
          clint := { s.clint with time := time }
          uart := uart }

/-- Every part has the configuration of the constructor. -/
structure OfConfig (cfg : Config) (s : EmulatorIss) : Prop where
  cfg_eq : s.cfg = cfg
  memory : s.memory.cfg = cfg
  clint : s.clint.cfg = cfg

variable {cfg : Config} {s t : EmulatorIss}

theorem OfConfig.of_same {after : EmulatorIss} (of : OfConfig cfg s) (same : SameConfig s after) :
    OfConfig cfg after :=
  ⟨same.cfg.trans of.cfg_eq, same.memory.trans of.memory, same.clint.trans of.clint⟩

/-! ## What a call keeps -/

/-- The public calls other than `step_inst` and `reset`. -/
inductive OtherCall (s : EmulatorIss) : EmulatorIss → Prop where
  | readMem (addr size : U32) : OtherCall s (s.readMem addr size).2
  | writeMem (addr size data : U32) : OtherCall s (s.writeMem addr size data)
  | loadBin (file : Option (List (BitVec 8))) (addr : U32) : OtherCall s (s.loadBin file addr).2
  | loadElf (file : Option (List (BitVec 8))) {out : Bool × EmulatorIss} :
      s.loadElf file = some out → OtherCall s out.2
  | loadCheckpoint (stack : Stack) (file : Option (List (BitVec 8))) :
      OtherCall s (s.loadCheckpoint stack file).2
  | access (hart : Hart) (ram : Nat → BitVec 8) (time : BitVec 64) (uart : Uart) :
      OtherCall s
        { s with
          hart := hart
          memory := { s.memory with ram := ram }
          clint := { s.clint with time := time }
          uart := uart }

theorem readMem_frame (addr size : U32) : Frame s (s.readMem addr size).2 := by
  unfold readMem
  split_ifs
  · exact .refl s
  · split <;> exact ⟨⟨rfl, rfl, rfl⟩, rfl, rfl⟩
  · exact .refl s

theorem writeMem_frame (addr size data : U32) : Frame s (s.writeMem addr size data) := by
  unfold writeMem
  split_ifs
  · cases answer : s.clint.store addr size data with
    | none => exact .refl s
    | some after => exact ⟨⟨rfl, rfl, store_config answer⟩, rfl, rfl⟩
  · exact ⟨⟨rfl, rfl, rfl⟩, rfl, rfl⟩
  · exact ⟨⟨rfl, Memory.store_cfg addr size data, rfl⟩, rfl, rfl⟩

theorem loadBin_frame (file : Option (List (BitVec 8))) (addr : U32) :
    Frame s (s.loadBin file addr).2 := by
  cases file with
  | none => exact .refl s
  | some data => exact ⟨⟨rfl, Memory.writeRam_cfg addr data, rfl⟩, rfl, rfl⟩

theorem loadElf_frame {file : Option (List (BitVec 8))} {out : Bool × EmulatorIss}
    (loads : s.loadElf file = some out) : Frame s out.2 := by
  rcases loadElf_cases loads with rfl | ⟨data, entry, memory, -, image, rfl⟩
  · exact .refl s
  · exact ⟨⟨rfl, loadElfImage_cfg image, rfl⟩, rfl, rfl⟩

theorem loadFields_frame (stack : Stack) (f : InStream) : Frame s (s.loadFields stack f).2 :=
  ⟨⟨rfl, Memory.writeRam_cfg _ _, rfl⟩, rfl, rfl⟩

theorem loadCheckpoint_frame (stack : Stack) (file : Option (List (BitVec 8))) :
    Frame s (s.loadCheckpoint stack file).2 := by
  cases file with
  | none => exact .refl s
  | some bytes =>
      rcases s.loadCheckpoint_cases stack bytes with ⟨-, load⟩ | ⟨-, f, -, load⟩
      · rw [load]
        exact .refl s
      · rw [load]
        exact loadFields_frame stack f

theorem OtherCall.frame {after : EmulatorIss} (call : OtherCall s after) : Frame s after := by
  cases call with
  | readMem addr size => exact readMem_frame addr size
  | writeMem addr size data => exact writeMem_frame addr size data
  | loadBin file addr => exact loadBin_frame file addr
  | loadElf file loads => exact loadElf_frame loads
  | loadCheckpoint stack file => exact loadCheckpoint_frame stack file
  | access hart ram time uart => exact ⟨⟨rfl, rfl, rfl⟩, rfl, rfl⟩

/-- No operation changes the configuration. -/
theorem Reachable.ofConfig (reachable : Reachable cfg s) : OfConfig cfg s := by
  induction reachable with
  | create => exact ⟨rfl, rfl, rfl⟩
  | reset _ _ ih => exact ih.of_same ⟨rfl, rfl, rfl⟩
  | @stepInst s after ev _ step ih =>
      refine ih.of_same ?_
      obtain ⟨-, rfl, rfl⟩ := stepInst_some step
      exact ⟨s.stepBody_config.cfg, s.stepBody_config.memory, s.stepBody_config.clint⟩
  | readMem addr size _ ih => exact ih.of_same (readMem_frame addr size).toSameConfig
  | writeMem addr size data _ ih => exact ih.of_same (writeMem_frame addr size data).toSameConfig
  | loadBin file addr _ ih => exact ih.of_same (loadBin_frame file addr).toSameConfig
  | loadElf _ _ loads ih => exact ih.of_same (loadElf_frame loads).toSameConfig
  | loadCheckpoint stack file _ ih =>
      exact ih.of_same (loadCheckpoint_frame stack file).toSameConfig
  | access hart ram time uart _ ih => exact ih.of_same ⟨rfl, rfl, rfl⟩

theorem Reachable.run (reachable : Reachable cfg s) (n : Nat) : Reachable cfg (s.run n) :=
  run_invariant reachable (fun _ _ _ before step => before.stepInst step) n

/-! ## The file of a checkpoint -/

def checkpointHeader (s : EmulatorIss) : List (BitVec 8) :=
  checkpointMagic ++ (putWord checkpointVersion ++ putWord s.cfg.ramSize)

/-- The fields behind the header, one after the other. -/
def checkpointFields (s : EmulatorIss) : List (BitVec 8) :=
  putDouble s.cycle ++ (putWord s.hart.pc ++ (putWords s.hart.gprs 16 ++
    (putWords s.hart.csrs 6 ++ (List.range s.cfg.ramSize.toNat).map s.memory.ram)))

theorem saveCheckpoint_file {room : Option Nat} (saved : (s.saveCheckpoint room).1 = true) :
    (s.saveCheckpoint room).2 = s.checkpointHeader ++ s.checkpointFields := by
  cases room with
  | none => cases saved
  | some room =>
      unfold saveCheckpoint at saved ⊢
      simp only at saved ⊢
      obtain ⟨g7, w7⟩ := OutStream.write_good saved
      obtain ⟨g6, w6⟩ := OutStream.write_good g7
      obtain ⟨g5, w5⟩ := OutStream.write_good g6
      obtain ⟨g4, w4⟩ := OutStream.write_good g5
      obtain ⟨g3, w3⟩ := OutStream.write_good g4
      obtain ⟨g2, w2⟩ := OutStream.write_good g3
      obtain ⟨g1, w1⟩ := OutStream.write_good g2
      obtain ⟨-, w0⟩ := OutStream.write_good g1
      rw [w7, w6, w5, w4, w3, w2, w1, w0]
      simp [checkpointHeader, checkpointFields, OutStream.onDisk]

/-- What a load of the fields leaves in the receiving state. -/
theorem loadFields_file {stack : Stack} {f : InStream} (front : f.left = s.checkpointFields)
    (same : t.cfg = s.cfg) : (t.loadFields stack f).2 =
      { t with
        cycle := s.cycle
        hart := { s.hart with halted := t.hart.halted }
        memory := t.memory.writeRam t.cfg.ramBase
          ((List.range t.cfg.ramSize.toNat).map s.memory.ram) } := by
  unfold checkpointFields at front
  have cycle : (f.read (putDouble t.cycle)).1 = _ ∧ _ := InStream.read_front front (by simp)
  have pc : (InStream.read _ (putWord t.hart.pc)).1 = _ ∧ _ :=
    InStream.read_front cycle.2 (by simp)
  have x : (InStream.read _ (putWords t.hart.gprs 16)).1 = _ ∧ _ :=
    InStream.read_front pc.2 (by simp)
  have csrs : (InStream.read _ ((List.range 24).map stack.csrs)).1 = _ ∧ _ :=
    InStream.read_front x.2 (by simp)
  have ram : (InStream.read _ (List.replicate t.cfg.ramSize.toNat 0#8)).1 = _ ∧ _ :=
    InStream.read_front (csrs.2.trans (List.append_nil _).symm) (by simp [same])
  have regs : (fun r : BitVec 4 => getWord (putWords s.hart.gprs 16) r.toNat) = s.hart.x :=
    (gprs_eq_iff s.hart _).mpr fun i _ inside => getWord_putWords _ inside
  have word : getWord (putWord s.hart.pc) 0 = s.hart.pc := getWord_putWords _ Nat.one_pos
  have csr (i : Nat) (inside : i < 6) : getWord (putWords s.hart.csrs 6) i = s.hart.csrs i :=
    getWord_putWords _ inside
  unfold loadFields
  simp only [cycle.1, pc.1, x.1, csrs.1, ram.1, getDouble_putDouble, regs, word,
    csr 2 (by decide), csr 3 (by decide), csr 4 (by decide), csr 5 (by decide), Hart.csrs]
  rw [same]

/-! ## The restored run -/

/-- The saved state with the CLINT counter of the receiver. -/
def withClock (s t : EmulatorIss) : EmulatorIss := { s with clint := t.clint }

theorem load_saved (of : OfConfig cfg s) (of' : OfConfig cfg t) {room : Option Nat} {stack : Stack}
    (saved : (s.saveCheckpoint room).1 = true)
    (loaded : (t.loadCheckpoint stack (some (s.saveCheckpoint room).2)).1 = true) :
    (t.loadCheckpoint stack (some (s.saveCheckpoint room).2)).2 =
      { t with
        cycle := s.cycle
        hart := { s.hart with halted := t.hart.halted }
        memory := t.memory.writeRam t.cfg.ramBase
          ((List.range t.cfg.ramSize.toNat).map s.memory.ram) } := by
  rcases t.loadCheckpoint_cases stack (s.saveCheckpoint room).2 with
    ⟨-, load⟩ | ⟨-, f, there, load⟩
  · rw [load] at loaded
    cases loaded
  · have header : s.checkpointHeader.length = 12 := by simp [checkpointHeader, checkpointMagic]
    have front : f.left = s.checkpointFields := by
      rw [there.1, saveCheckpoint_file saved, ← header, List.drop_left]
    rw [load]
    exact loadFields_file front (of'.cfg_eq.trans of.cfg_eq.symm)

/-- With equal halted flags the receiver is like the saved state with its own counter. -/
theorem load_saved_alike (of : OfConfig cfg s) (of' : OfConfig cfg t) {room : Option Nat}
    {stack : Stack} (saved : (s.saveCheckpoint room).1 = true)
    (loaded : (t.loadCheckpoint stack (some (s.saveCheckpoint room).2)).1 = true)
    (input : t.uart.input = s.uart.input) (halted : t.hart.halted = s.hart.halted) :
    Alike True (s.withClock t) (t.loadCheckpoint stack (some (s.saveCheckpoint room).2)).2 := by
  rw [load_saved of of' saved loaded]
  refine
    { cfg := of'.cfg_eq.trans of.cfg_eq.symm
      hart := ?_
      memory := ⟨?_, ?_⟩
      clintCfg := rfl
      clint := fun _ => rfl
      input := input
      cycle := rfl }
  · show { s.hart with halted := t.hart.halted } = s.hart
    rw [halted]
  · exact ((Memory.writeRam_cfg _ _).trans of'.memory).trans of.memory.symm
  · rintro j ⟨whole, inside⟩
    have same : t.memory.cfg = s.memory.cfg := of'.memory.trans of.memory.symm
    have base : t.cfg.ramBase = t.memory.cfg.ramBase := by rw [of'.cfg_eq, of'.memory]
    have size : t.cfg.ramSize = t.memory.cfg.ramSize := by rw [of'.cfg_eq, of'.memory]
    have room : t.memory.inRam t.memory.cfg.ramBase t.memory.cfg.ramSize = true := by
      rw [Memory.inRam_of_cfg same, same]
      exact whole
    show (t.memory.writeRam t.cfg.ramBase
      ((List.range t.cfg.ramSize.toNat).map s.memory.ram)).ram j = s.memory.ram j
    rw [base, size, Memory.writeRam_whole _ (by rw [same]; exact inside), if_pos room]

theorem withClock_alike (of : OfConfig cfg s) (of' : OfConfig cfg t) :
    Alike False s (s.withClock t) where
  cfg := rfl
  hart := rfl
  memory := .refl _
  clintCfg := of'.clint.trans of.clint.symm
  clint := False.elim
  input := rfl
  cycle := rfl

theorem event_zero_none : s.event 0 = none ↔ s.hart.halted = true := by
  show s.stepInst.map Prod.snd = none ↔ _
  unfold stepInst
  cases s.hart.halted with
  | true => exact ⟨fun _ => rfl, fun _ => rfl⟩
  | false => simp

/-- The next `n` results of the receiver are those of the saved state exactly when there are
none, or when the halted flags are equal and the counter of the receiver shows in no clock
read. -/
theorem restore_iff (reachable : Reachable cfg s) (reachable' : Reachable cfg t)
    {room : Option Nat} {stack : Stack} (saved : (s.saveCheckpoint room).1 = true)
    (loaded : (t.loadCheckpoint stack (some (s.saveCheckpoint room).2)).1 = true)
    (input : t.uart.input = s.uart.input) (n : Nat) :
    (∀ k, k < n →
        (t.loadCheckpoint stack (some (s.saveCheckpoint room).2)).2.event k = s.event k) ↔
      n = 0 ∨ (t.hart.halted = s.hart.halted ∧
        ∀ k, k < n → ((s.withClock t).run k).clockRead = (s.run k).clockRead) := by
  have of := reachable.ofConfig
  have of' := reachable'.ofConfig
  have clocks := (withClock_alike of of').events_iff n
  have restored (halted : t.hart.halted = s.hart.halted) (k : Nat) :
      (t.loadCheckpoint stack (some (s.saveCheckpoint room).2)).2.event k =
        (s.withClock t).event k :=
    (load_saved_alike of of' saved loaded input halted).events k
  constructor
  · intro events
    by_cases none : n = 0
    · exact .inl none
    · have first := events 0 (Nat.pos_of_ne_zero none)
      have flag : (t.loadCheckpoint stack (some (s.saveCheckpoint room).2)).2.hart.halted =
          t.hart.halted := by
        rw [load_saved of of' saved loaded]
      have halted : t.hart.halted = s.hart.halted := by
        rw [← flag, Bool.eq_iff_iff, ← event_zero_none, ← event_zero_none, first]
      refine .inr ⟨halted, clocks.mp fun k below => ?_⟩
      rw [← restored halted k]
      exact events k below
  · rintro (none | ⟨halted, clock⟩) k below
    · omega
    · rw [restored halted k]
      exact clocks.mpr clock k below

def tinyConfig : Config := { ramSize := 16#32 }

/-- `addi x1, x1, 1` and a jump back to it, after three steps. -/
def countingTiny : EmulatorIss :=
  (((create tinyConfig).writeMem 0x20000000#32 4#32 0x00108093#32).writeMem
    0x20000004#32 4#32 0xFFDFF06F#32).run 3

/-- `lui x2, 0x12345` has been executed. -/
def luiTiny : EmulatorIss := ((create tinyConfig).writeMem 0x20000000#32 4#32 0x12345137#32).run 1

set_option maxRecDepth 16000 in
/-- The counters differ, and no instruction of the loop reads them. -/
theorem restore_counting :
    (countingTiny.hart.readReg 1#32 = 2#32 ∧ luiTiny.hart.readReg 2#32 = 0x12345000#32 ∧
      luiTiny.clint.time ≠ countingTiny.clint.time) ∧
      ∀ k, k < 3 → (luiTiny.loadCheckpoint ⟨fun _ => 0#8, fun _ => 0#8⟩
        (some (countingTiny.saveCheckpoint (some 128)).2)).2.event k = countingTiny.event k :=
  have saved : Reachable tinyConfig countingTiny :=
    ((Reachable.create.writeMem _ _ _).writeMem _ _ _).run 3
  have receives : Reachable tinyConfig luiTiny := (Reachable.create.writeMem _ _ _).run 1
  ⟨by decide, (restore_iff saved receives (by decide) (by decide) rfl 3).mpr (.inr ⟨rfl, by decide⟩)⟩

/-- An emulator that met EBREAK. -/
def haltedTiny : EmulatorIss := ((create tinyConfig).writeMem 0x20000000#32 4#32 0x00100073#32).run 1

set_option maxRecDepth 8000 in
/-- The receiver stays halted, whatever it is given. -/
theorem restored_stays_halted :
    Reachable tinyConfig (create tinyConfig) ∧ Reachable tinyConfig haltedTiny ∧
      ((create tinyConfig).saveCheckpoint (some 128)).1 = true ∧
      haltedTiny.uart.input = (create tinyConfig).uart.input ∧
      let load := haltedTiny.loadCheckpoint ⟨fun _ => 0#8, fun _ => 0#8⟩
        (some ((create tinyConfig).saveCheckpoint (some 128)).2)
      load.1 = true ∧ load.2.event 0 ≠ (create tinyConfig).event 0 := by
  refine ⟨.create, (Reachable.create.writeMem _ _ _).run 1, by decide, by decide, by decide, ?_⟩
  intro same
  rw [event_zero_none.mpr (by decide)] at same
  exact absurd (event_zero_none.mp same.symm) (by decide)

end EmulatorIss

end NpcMachine.Emulator
