/-
# Emulator.LoadAgree -- programs loaded into both models of a difftest

The reference lays the segments of an ELF over its RAM and goes to the entry; the DUT
copies the RAM of a fresh loader and stays at the reset vector.  `LoadOp.Meets` is what
an operation needs so that RAM and fetch address stay the same on both sides, and
`loads_agree_iff` is the run of operations.
-/
import NpcMachine.Emulator.Loaders
import NpcMachine.Emulator.DifftestRun
import NpcMachine.Emulator.Responder

namespace NpcMachine.Emulator

open NpcMachine.Rtl NpcMachine.Machine

set_option autoImplicit false

/-! ## The two models behind the interface -/

/-- A load without a defined result counts as refused. -/
def emulatorModel (files : String → Option (List (BitVec 8))) : Iss EmulatorIss where
  reset resetAddr s := s.reset resetAddr
  stepInst s :=
    match s.stepInst with
    | some (after, ev) => (some ev, after)
    | none => (none, s)
  writeMem addr size data s := s.writeMem addr size data
  loadBin path addr s := s.loadBin (files path) addr
  loadElf path s := (s.loadElf (files path)).getD (false, s)

def rtlModel (files : String → Option (List (BitVec 8))) : Iss RtlIss where
  reset _ s := s.reset
  stepInst s := s.stepInst
  writeMem addr size data s := s.writeMem addr size data
  loadBin path addr s := s.loadBin (files path) addr
  loadElf path s := (s.loadElf (files path)).getD (false, s)

/-- The constructor, from any state of the registers at power-up. -/
def RtlIss.create (cfg : Config) (power : RtlIss) : RtlIss := power.boot ⟨cfg, fun _ => 0#8⟩

/-! ## Sequences of operations -/

inductive LoadOp where
  | loadBin (path : String) (addr : U32)
  | loadElf (path : String)
  | writeMem (addr size data : U32)

abbrev Models := Difftest EmulatorIss RtlIss

variable (files : String → Option (List (BitVec 8)))

/-- The result of an operation and the state after it. -/
def Models.perform (d : Models) : LoadOp → Bool × Models
  | .loadBin path addr => Difftest.loadBin d (emulatorModel files) (rtlModel files) path addr
  | .loadElf path => Difftest.loadElf d (emulatorModel files) (rtlModel files) path
  | .writeMem addr size data =>
      (true, Difftest.writeMem d (emulatorModel files) (rtlModel files) addr size data)

/-- The state after the first `n` operations. -/
def Models.after (d : Models) (ops : Nat → LoadOp) (n : Nat) : Models :=
  run (fun d op => (Models.perform files d op).2) d ops n

/-- The reference and the DUT of one configuration, newly constructed. -/
def Models.create (cfg : Config) (power : RtlIss) : Models :=
  Difftest.create (.create cfg) (.create cfg power)

/-! ## Agreement -/

/-- Equal RAM images, and equal addresses of the next fetch. -/
structure Models.Agree (d : Models) : Prop where
  ram : ∀ j, j < d.ref.cfg.ramSize.toNat → d.ref.memory.ram j = d.dut.memory.ram j
  fetch : d.ref.hart.pc = d.dut.top.pipeline.reqFetchAddr

/-- What an operation needs so that the models agree after it: a write is not diverted to
a device, unless it changes nothing, and an ELF enters at the reset vector over a RAM that
is zero outside its segments. -/
def LoadOp.Meets (d : Models) : LoadOp → Prop
  | .loadBin _ _ => True
  | .loadElf path => ∀ file e, files path = some file → elfHeader file = some e →
      e.entry = resetVector ∧
        (d.ref.memory.inRam d.ref.cfg.ramBase d.ref.cfg.ramSize = true →
          ∀ j, j < d.ref.cfg.ramSize.toNat → elfCovers file d.ref.memory j = false →
            d.ref.memory.ram j = 0#8)
  | .writeMem addr size data => d.ref.cfg.inClint addr = true ∨ d.ref.cfg.inUart addr = true →
      ∀ j, j < d.ref.cfg.ramSize.toNat →
        (d.ref.memory.store addr size data).2.ram j = d.ref.memory.ram j

/-- What no operation of a sequence changes. -/
structure Models.Built (cfg : Config) (d : Models) : Prop where
  refCfg : d.ref.cfg = cfg
  refMemory : d.ref.memory.cfg = cfg
  dutMemory : d.dut.memory.cfg = cfg
  fetch : d.dut.top.pipeline.reqFetchAddr = resetVector

theorem Models.built_create (cfg : Config) (power : RtlIss) :
    Models.Built cfg (Models.create cfg power) := by
  refine ⟨rfl, rfl, rfl, ?_⟩
  obtain ⟨core, reset⟩ := power.boot_top ⟨cfg, fun _ => 0#8⟩
  show (power.boot ⟨cfg, fun _ => 0#8⟩).top.pipeline.reqFetchAddr = resetVector
  rw [reset]
  rfl

/-! ## One operation -/

namespace Models

variable {files} {cfg : Config} {d : Models}

theorem perform_writeMem (addr size data : U32) :
    (d.perform files (.writeMem addr size data)).2 =
      { d with
        ref := d.ref.writeMem addr size data
        dut := { d.dut with memory := (d.dut.memory.store addr size data).2 } } := rfl

theorem built_writeMem (built : Built cfg d) (addr size data : U32) :
    Built cfg (d.perform files (.writeMem addr size data)).2 := by
  rw [perform_writeMem]
  refine ⟨?_, ?_, ?_, built.fetch⟩
  · exact (EmulatorIss.writeMem_cfg addr size data).trans built.refCfg
  · show (d.ref.writeMem addr size data).memory.cfg = cfg
    rw [EmulatorIss.writeMem_memory]
    split_ifs
    · exact built.refMemory
    · rw [Memory.store_cfg]
      exact built.refMemory
  · show (d.dut.memory.store addr size data).2.cfg = cfg
    rw [Memory.store_cfg]
    exact built.dutMemory

theorem agree_writeMem (built : Built cfg d) (agree : d.Agree) (addr size data : U32) :
    Agree (d.perform files (.writeMem addr size data)).2 ↔
      LoadOp.Meets files d (.writeMem addr size data) := by
  have memories : d.dut.memory.cfg = d.ref.memory.cfg := built.dutMemory.trans built.refMemory.symm
  have stored (j : Nat) (inside : j < d.ref.cfg.ramSize.toNat) :
      (d.dut.memory.store addr size data).2.ram j = (d.ref.memory.store addr size data).2.ram j :=
    Memory.store_ram_congr memories (agree.ram j inside).symm addr size data
  have written (j : Nat) : (d.ref.writeMem addr size data).memory.ram j =
      if d.ref.cfg.inClint addr = true ∨ d.ref.cfg.inUart addr = true then d.ref.memory.ram j
      else (d.ref.memory.store addr size data).2.ram j := by
    rw [EmulatorIss.writeMem_memory]
    split_ifs <;> rfl
  rw [perform_writeMem]
  constructor
  · intro after diverted j inside
    have same := after.ram j (by rw [EmulatorIss.writeMem_cfg]; exact inside)
    rw [written, if_pos diverted] at same
    exact (same.trans (stored j inside)).symm
  · intro meets
    refine ⟨fun j inside => ?_, ?_⟩
    · rw [EmulatorIss.writeMem_cfg] at inside
      rw [written]
      split_ifs with diverted
      · exact ((stored j inside).trans (meets diverted j inside)).symm
      · exact (stored j inside).symm
    · show (d.ref.writeMem addr size data).hart.pc = d.dut.top.pipeline.reqFetchAddr
      rw [EmulatorIss.writeMem_hart]
      exact agree.fetch

theorem perform_loadBin {path : String} {addr : U32}
    (loads : (d.perform files (.loadBin path addr)).1 = true) : ∃ data,
      (d.perform files (.loadBin path addr)).2 =
        { d with
          ref := { d.ref with memory := d.ref.memory.writeRam addr data }
          dut := { d.dut with memory := d.dut.memory.writeRam addr data } } := by
  cases file : files path with
  | none =>
      have refused : (d.perform files (.loadBin path addr)).1 = false := by
        simp [perform, Difftest.loadBin, emulatorModel, EmulatorIss.loadBin, file]
      rw [refused] at loads
      cases loads
  | some data =>
      refine ⟨data, ?_⟩
      simp [perform, Difftest.loadBin, emulatorModel, rtlModel, EmulatorIss.loadBin,
        RtlIss.loadBin, file]

/-- Both models went through the file. -/
theorem perform_loadElf_true {path : String}
    (loads : (d.perform files (.loadElf path)).1 = true) : ∃ ref dut,
      d.ref.loadElf (files path) = some (true, ref) ∧
      d.dut.loadElf (files path) = some (true, dut) ∧
      (d.perform files (.loadElf path)).2 = { d with ref := ref, dut := dut } := by
  have left : ((d.ref.loadElf (files path)).getD (false, d.ref)).1 = true ∧
      ((d.dut.loadElf (files path)).getD (false, d.dut)).1 = true := by
    simpa [perform, Difftest.loadElf, emulatorModel, rtlModel] using loads
  obtain ⟨refLoads, dutLoads⟩ := left
  rcases ref : d.ref.loadElf (files path) with _ | ⟨_ | _, refAfter⟩
  · rw [ref] at refLoads
    cases refLoads
  · rw [ref] at refLoads
    cases refLoads
  rcases dut : d.dut.loadElf (files path) with _ | ⟨_ | _, dutAfter⟩
  · rw [dut] at dutLoads
    cases dutLoads
  · rw [dut] at dutLoads
    cases dutLoads
  refine ⟨refAfter, dutAfter, rfl, rfl, ?_⟩
  simp [perform, Difftest.loadElf, emulatorModel, rtlModel, ref, dut]

theorem built_loadElf (built : Built cfg d) {path : String}
    (loads : (d.perform files (.loadElf path)).1 = true) :
    Built cfg (d.perform files (.loadElf path)).2 := by
  obtain ⟨ref, dut, refLoads, dutLoads, after⟩ := perform_loadElf_true loads
  obtain ⟨data, entry, memory, file, image, refAfter⟩ := EmulatorIss.loadElf_true refLoads
  obtain ⟨loader, fresh, dutAfter⟩ := RtlIss.loadElf_true dutLoads
  obtain ⟨byte, mine, -⟩ := loadElfImage_over image
  rw [after, refAfter, dutAfter]
  refine ⟨built.refCfg, ?_, (Memory.writeRam_cfg _ _).trans built.dutMemory, built.fetch⟩
  show memory.cfg = cfg
  rw [mine]
  exact built.refMemory

theorem agree_loadElf (built : Built cfg d) (agree : d.Agree) {path : String}
    (loads : (d.perform files (.loadElf path)).1 = true) :
    Agree (d.perform files (.loadElf path)).2 ↔ LoadOp.Meets files d (.loadElf path) := by
  obtain ⟨ref, dut, refLoads, dutLoads, after⟩ := perform_loadElf_true loads
  obtain ⟨data, entry, memory, file, image, refAfter⟩ := EmulatorIss.loadElf_true refLoads
  obtain ⟨loader, fresh, dutAfter⟩ := RtlIss.loadElf_true dutLoads
  obtain ⟨data', entry', memory', file', image', loaded⟩ := EmulatorIss.loadElf_true fresh
  obtain ⟨e, header, entered⟩ := loadElfImage_entry image
  obtain rfl : data = data' := Option.some_inj.mp (file.symm.trans file')
  -- the scratch loader overlays its zeros with the bytes that the reference overlays its RAM with
  obtain ⟨byte, mine, others⟩ := loadElfImage_over image
  have zeros : (EmulatorIss.create d.dut.memory.cfg).memory.cfg = d.ref.memory.cfg :=
    built.dutMemory.trans built.refMemory.symm
  have copy : memory' = (EmulatorIss.create d.dut.memory.cfg).memory.overlay
      (elfCovers data d.ref.memory) byte := by
    have both := image'.symm.trans (others _ zeros)
    simp only [Option.some.injEq, Prod.mk.injEq] at both
    exact both.2
  have sizes : d.ref.cfg = d.dut.memory.cfg := built.refCfg.trans built.dutMemory.symm
  rw [after, refAfter, dutAfter, loaded]
  have whole : d.ref.memory.inRam d.ref.cfg.ramBase d.ref.cfg.ramSize =
      d.dut.memory.inRam d.dut.memory.cfg.ramBase d.dut.memory.cfg.ramSize := by
    rw [sizes]
    exact Memory.inRam_of_cfg zeros.symm _ _
  have pcs : entry = d.dut.top.pipeline.reqFetchAddr ↔ e.entry = resetVector := by
    rw [entered, built.fetch]
  -- byte `j` on both sides, by whether the file covers it
  have bytes (j : Nat) (inside : j < d.ref.cfg.ramSize.toNat) :
      memory.ram j = (d.dut.memory.writeRam d.dut.memory.cfg.ramBase
        ((List.range d.dut.memory.cfg.ramSize.toNat).map memory'.ram)).ram j ↔
      (d.ref.memory.inRam d.ref.cfg.ramBase d.ref.cfg.ramSize = true →
        elfCovers data d.ref.memory j = false → d.ref.memory.ram j = 0#8) := by
    have same := agree.ram j inside
    rw [sizes] at inside
    rw [Memory.writeRam_whole _ inside, whole, mine, copy]
    cases room : d.dut.memory.inRam d.dut.memory.cfg.ramBase d.dut.memory.cfg.ramSize with
    | true =>
        cases covered : elfCovers data d.ref.memory j with
        | true => simp [Memory.overlay, covered]
        | false => simp [Memory.overlay, covered, EmulatorIss.create]
    | false =>
        have apart : elfCovers data d.ref.memory j = false := by
          refine elfCovers_of_whole ?_ j
          rw [built.refMemory, ← built.refCfg, whole]
          exact room
        simp [Memory.overlay, apart, same]
  constructor
  · rintro ⟨ram, fetch⟩ file' e' opens header'
    obtain rfl : data = file' := Option.some_inj.mp (file.symm.trans opens)
    obtain rfl : e = e' := Option.some_inj.mp (header.symm.trans header')
    refine ⟨pcs.mp fetch, fun room j inside apart => ?_⟩
    exact (bytes j inside).mp (ram j inside) room apart
  · intro meets
    obtain ⟨enters, clear⟩ := meets data e file header
    refine ⟨fun j inside => ?_, pcs.mpr enters⟩
    exact (bytes j inside).mpr fun room apart => clear room j inside apart

/-! ## Sequences -/

theorem built_perform (built : Built cfg d) {op : LoadOp}
    (succeeds : (d.perform files op).1 = true) : Built cfg (d.perform files op).2 := by
  cases op with
  | loadBin path addr =>
      obtain ⟨data, after⟩ := perform_loadBin succeeds
      rw [after]
      exact ⟨built.refCfg, (Memory.writeRam_cfg _ _).trans built.refMemory,
        (Memory.writeRam_cfg _ _).trans built.dutMemory, built.fetch⟩
  | loadElf path => exact built_loadElf built succeeds
  | writeMem addr size data => exact built_writeMem built addr size data

/-- One operation that succeeds keeps the agreement exactly when it meets its condition. -/
theorem agree_perform (built : Built cfg d) (agree : d.Agree) {op : LoadOp}
    (succeeds : (d.perform files op).1 = true) :
    Agree (d.perform files op).2 ↔ op.Meets files d := by
  cases op with
  | loadBin path addr =>
      have memories : d.dut.memory.cfg = d.ref.memory.cfg :=
        built.dutMemory.trans built.refMemory.symm
      obtain ⟨data, after⟩ := perform_loadBin succeeds
      rw [after]
      refine ⟨fun _ => trivial, fun _ => ⟨fun j inside => ?_, agree.fetch⟩⟩
      exact (Memory.writeRam_ram_congr memories (agree.ram j inside).symm addr data).symm
  | loadElf path => exact agree_loadElf built agree succeeds
  | writeMem addr size data => exact agree_writeMem built agree addr size data

/-- Over a sequence of operations that all succeed, the models agree after every prefix exactly
when the configuration starts the reference at the hardwired reset vector and every operation
meets its condition.  A later operation may hide what an earlier one left apart. -/
theorem loads_agree_iff (files : String → Option (List (BitVec 8))) (cfg : Config)
    (power : RtlIss) (ops : Nat → LoadOp) (n : Nat)
    (succeed : ∀ k, k < n →
      (Models.perform files ((create cfg power).after files ops k) (ops k)).1 = true) :
    (∀ k, k ≤ n → Agree ((create cfg power).after files ops k)) ↔
      cfg.resetVector = resetVector ∧
        ∀ k, k < n → (ops k).Meets files ((create cfg power).after files ops k) := by
  have built : ∀ k, k ≤ n → Built cfg ((create cfg power).after files ops k) := by
    intro k
    induction k with
    | zero => exact fun _ => built_create cfg power
    | succ k ih =>
        intro below
        exact built_perform (ih (Nat.le_of_lt below)) (succeed k below)
  have start : Agree (create cfg power) ↔ cfg.resetVector = resetVector := by
    have fetch := (built_create cfg power).fetch
    constructor
    · intro agree
      exact agree.fetch.trans fetch
    · intro vector
      exact ⟨fun _ _ => rfl, vector.trans fetch.symm⟩
  rw [← start]
  exact run_holds_iff fun k below agree =>
    agree_perform (built k (Nat.le_of_lt below)) agree (succeed k below)

/-- One segment of one instruction, at `0x20000100`; the entry is the reset vector. -/
def programElf : List (BitVec 8) :=
  elfMag ++ [1#8, 1#8, 1#8] ++ List.replicate 9 0#8 ++
    [2#8, 0#8, 0xF3#8, 0#8, 1#8, 0#8, 0#8, 0#8, 0#8, 0#8, 0#8, 0x20#8, 0x34#8, 0#8, 0#8, 0#8] ++
    List.replicate 8 0#8 ++ [0x34#8, 0#8, 0x20#8, 0#8, 1#8, 0#8] ++ List.replicate 6 0#8 ++
    [1#8, 0#8, 0#8, 0#8, 0x54#8, 0#8, 0#8, 0#8, 0#8, 1#8, 0#8, 0x20#8, 0#8, 1#8, 0#8, 0x20#8] ++
    [4#8, 0#8, 0#8, 0#8, 4#8, 0#8, 0#8, 0#8, 5#8, 0#8, 0#8, 0#8, 4#8, 0#8, 0#8, 0#8] ++
    [0x13#8, 0#8, 0#8, 0#8]

def smallConfig : Config := { ramSize := 0x110#32 }

theorem loads_agree_program :
    (perform (fun _ => some programElf) (create smallConfig default)
        (.loadElf "program.elf")).1 = true ∧
      ∀ k, k ≤ 1 → Agree ((create smallConfig default).after (fun _ => some programElf)
        (fun _ => .loadElf "program.elf") k) := by
  refine ⟨by decide, (loads_agree_iff (fun _ => some programElf) smallConfig default
    (fun _ => .loadElf "program.elf") 1 ?_).mpr ⟨rfl, ?_⟩⟩
  · intro k below
    obtain rfl : k = 0 := by omega
    decide
  · intro k below file e opens header
    obtain rfl : k = 0 := by omega
    cases opens
    have entry : (elfHeader programElf).map Elf32Ehdr.entry = some resetVector := by decide
    rw [header] at entry
    exact ⟨Option.some_inj.mp entry, fun _ _ _ _ => rfl⟩

set_option maxRecDepth 4000 in
/-- A word written ahead of the ELF survives in the reference and is wiped in the DUT. -/
theorem written_then_loaded :
    let ops : Nat → LoadOp := fun k =>
      if k = 0 then .writeMem 0x20000000#32 4#32 0x13#32 else .loadElf "program.elf"
    let start := create smallConfig default
    let files : String → Option (List (BitVec 8)) := fun _ => some programElf
    (∀ k, k < 2 → (perform files (start.after files ops k) (ops k)).1 = true) ∧
      ¬ Agree (start.after files ops 2) := by
  intro ops start files
  refine ⟨?_, ?_⟩
  · intro k below
    have each : k = 0 ∨ k = 1 := by omega
    rcases each with rfl | rfl
    · rfl
    · decide
  · intro agree
    have first := agree.ram 0 (by decide)
    have differ : (start.after files ops 2).ref.memory.ram 0 ≠
        (start.after files ops 2).dut.memory.ram 0 := by decide
    exact differ first

end Models

end NpcMachine.Emulator
