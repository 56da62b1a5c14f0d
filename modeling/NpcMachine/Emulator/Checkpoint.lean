/-
# Emulator.Checkpoint -- `save_checkpoint` and `load_checkpoint` of `emulator_iss.cpp`

The loader reads field after field straight into the state and asks only at the end
whether the stream is still good.  `failed_load_iff` is when a refused file leaves the
state as it was.
-/
import NpcMachine.Emulator.Loaders
import NpcMachine.Machine.ByteStream

namespace NpcMachine.Emulator

open NpcMachine.Machine

set_option autoImplicit false

/-! ## The file -/

/-- `AIEM`. -/
def checkpointMagic : List (BitVec 8) := [0x41#8, 0x49#8, 0x45#8, 0x4D#8]

def checkpointVersion : U32 := 1#32

/-- The general registers as an array. -/
def Hart.gprs (h : Hart) (k : Nat) : U32 := h.x (BitVec.ofNat 4 k)

/-- The array `csrs` of a checkpoint. -/
def Hart.csrs (h : Hart) : Nat → U32
  | 0 => mvendorid
  | 1 => marchid
  | 2 => h.mstatus
  | 3 => h.mepc
  | 4 => h.mtvec
  | _ => h.mcause

def putWord (v : U32) : List (BitVec 8) := putWords (fun _ => v) 1

/-- What the arrays of `load_checkpoint` hold that are not initialised. -/
structure Stack where
  magic : Nat → BitVec 8
  csrs : Nat → BitVec 8

namespace EmulatorIss

variable (s : EmulatorIss)

/-- The result and the file, on a disk with `room` for so many bytes; `none` is a file that
does not open. -/
def saveCheckpoint (room : Option Nat) : Bool × List (BitVec 8) :=
  match room with
  | none => (false, [])
  | some room =>
      let f := OutStream.onDisk room
      let f := f.write checkpointMagic
      let f := f.write (putWord checkpointVersion)
      let f := f.write (putWord s.cfg.ramSize)
      let f := f.write (putDouble s.cycle)
      let f := f.write (putWord s.hart.pc)
      let f := f.write (putWords s.hart.gprs 16)
      let f := f.write (putWords s.hart.csrs 6)
      let f := f.write ((List.range s.cfg.ramSize.toNat).map s.memory.ram)
      (f.good, f.written)

/-- The fields behind the header. -/
def loadFields (stack : Stack) (f : InStream) : Bool × EmulatorIss :=
  let cycle := f.read (putDouble s.cycle)
  let pc := cycle.2.read (putWord s.hart.pc)
  let x := pc.2.read (putWords s.hart.gprs 16)
  let csrs := x.2.read ((List.range 24).map stack.csrs)
  let ram := csrs.2.read (List.replicate s.cfg.ramSize.toNat 0#8)
  (ram.2.good,
    { s with
      cycle := getDouble cycle.1
      hart :=
        { s.hart with
          pc := getWord pc.1 0
          x := fun r => getWord x.1 r.toNat
          mstatus := getWord csrs.1 2
          mepc := getWord csrs.1 3
          mtvec := getWord csrs.1 4
          mcause := getWord csrs.1 5 }
      memory := s.memory.writeRam s.cfg.ramBase ram.1 })

def loadCheckpoint (stack : Stack) (file : Option (List (BitVec 8))) : Bool × EmulatorIss :=
  match file with
  | none => (false, s)
  | some bytes =>
      let magic := (InStream.ofFile bytes).read ((List.range 4).map stack.magic)
      if magic.1 ≠ checkpointMagic then (false, s)
      else
        let version := magic.2.read (putWord 0#32)
        if getWord version.1 0 ≠ checkpointVersion then (false, s)
        else
          let ramSize := version.2.read (putWord 0#32)
          if getWord ramSize.1 0 ≠ s.cfg.ramSize then (false, s)
          else s.loadFields stack ramSize.2

/-! ## What a load does -/

/-- The header passes: the bytes that a short file lacks are those of the stack in the magic
and zeros in the two words. -/
structure HeaderAccepted (stack : Stack) (bytes : List (BitVec 8)) : Prop where
  magic : ∀ k, k < 4 → bytes.getD k (stack.magic k) = checkpointMagic.getD k 0#8
  version : ∀ k, k < 4 → bytes.getD (4 + k) 0#8 = byteOf checkpointVersion k
  ramSize : ∀ k, k < 4 → bytes.getD (8 + k) 0#8 = byteOf s.cfg.ramSize k

/-- Every byte that the loader puts into the state is the byte that is there: the file's,
or for the CSRs and the RAM what it assumes for the bytes that the file lacks. -/
structure KeepsState (stack : Stack) (bytes : List (BitVec 8)) : Prop where
  cycle : ∀ k, k < 8 → bytes.getD (12 + k) (byteOf s.cycle k) = byteOf s.cycle k
  pc : ∀ k, k < 4 → bytes.getD (20 + k) (byteOf s.hart.pc k) = byteOf s.hart.pc k
  x : ∀ k, k < 64 → bytes.getD (24 + k) (byteOf (s.hart.gprs (k / 4)) (k % 4)) =
    byteOf (s.hart.gprs (k / 4)) (k % 4)
  csrs : ∀ k, 8 ≤ k → k < 24 →
    bytes.getD (88 + k) (stack.csrs k) = byteOf (s.hart.csrs (k / 4)) (k % 4)
  ram : s.memory.inRam s.cfg.ramBase s.cfg.ramSize = true → ∀ k, k < s.cfg.ramSize.toNat →
    bytes.getD (112 + k) 0#8 = s.memory.ram (s.memory.index s.cfg.ramBase + k)

variable {s} {stack : Stack} {bytes : List (BitVec 8)} {f : InStream}

theorem putWord_getD (v : U32) {k : Nat} (inside : k < 4) (d : BitVec 8) :
    (putWord v).getD k d = byteOf v k := by
  have word : k / 4 = 0 := by omega
  have place : k % 4 = k := by omega
  rw [putWord, putWords_getD _ (by omega), place]

@[simp] theorem putWord_length (v : U32) : (putWord v).length = 4 := putWords_length _ 1

/-- A word read over `old` at offset `o`. -/
theorem getWord_read {o : Nat} (there : f.At bytes o) (old v : U32) :
    getWord (f.read (putWord old)).1 0 = v ↔
      ∀ k, k < 4 → bytes.getD (o + k) (byteOf old k) = byteOf v k := by
  rw [getWord_eq_iff]
  refine forall_congr' fun k => forall_congr' fun inside => ?_
  rw [Nat.mul_zero, Nat.zero_add, there.getD (by simpa using inside), putWord_getD old inside]

theorem getDouble_read {o : Nat} (there : f.At bytes o) (old v : BitVec 64) :
    getDouble (f.read (putDouble old)).1 = v ↔
      ∀ k, k < 8 → bytes.getD (o + k) (byteOf old k) = byteOf v k := by
  rw [getDouble_eq_iff]
  refine forall_congr' fun k => forall_congr' fun inside => ?_
  rw [there.getD (by simpa using inside), putDouble_getD old inside]

/-- The streams behind the fields. -/
theorem loadFields_good (there : f.At bytes 12) :
    (s.loadFields stack f).1 = true ↔ 112 + s.cfg.ramSize.toNat ≤ bytes.length := by
  have cycle := there.next (putDouble s.cycle)
  have pc := cycle.next (putWord s.hart.pc)
  have x := pc.next (putWords s.hart.gprs 16)
  have csrs := x.next ((List.range 24).map stack.csrs)
  have ram := csrs.next (List.replicate s.cfg.ramSize.toNat 0#8)
  have good := ram.2
  simp only [putDouble_length, putWord_length, putWords_length, List.length_map,
    List.length_range, List.length_replicate] at good
  exact good

/-- Words `a` to `b` of an array read over `old` at offset `o`. -/
theorem getWords_read {o : Nat} (there : f.At bytes o) (old : List (BitVec 8))
    (words : Nat → U32) (a b : Nat) (room : 4 * b ≤ old.length) :
    (∀ i, a ≤ i → i < b → getWord (f.read old).1 i = words i) ↔
      ∀ k, 4 * a ≤ k → k < 4 * b →
        bytes.getD (o + k) (old.getD k 0#8) = byteOf (words (k / 4)) (k % 4) := by
  rw [getWords_eq_iff]
  refine forall_congr' fun k => forall_congr' fun low => forall_congr' fun high => ?_
  rw [there.getD (by omega)]

/-- The registers, read as an array. -/
theorem gprs_eq_iff (h : Hart) (l : List (BitVec 8)) :
    (fun r : BitVec 4 => getWord l r.toNat) = h.x ↔
      ∀ i, 0 ≤ i → i < 16 → getWord l i = h.gprs i := by
  constructor
  · intro same i _ inside
    have value := congrFun same (BitVec.ofNat 4 i)
    rwa [BitVec.toNat_ofNat, Nat.mod_eq_of_lt (by omega)] at value
  · intro each
    funext r
    have value := each r.toNat (Nat.zero_le _) r.isLt
    rwa [Hart.gprs, BitVec.ofNat_toNat, BitVec.setWidth_eq] at value

theorem csrs_eq_iff (h : Hart) (l : List (BitVec 8)) :
    (getWord l 2 = h.mstatus ∧ getWord l 3 = h.mepc ∧ getWord l 4 = h.mtvec ∧
      getWord l 5 = h.mcause) ↔ ∀ i, 2 ≤ i → i < 6 → getWord l i = h.csrs i := by
  constructor
  · rintro ⟨mstatus, mepc, mtvec, mcause⟩ i low high
    have each : i = 2 ∨ i = 3 ∨ i = 4 ∨ i = 5 := by omega
    rcases each with rfl | rfl | rfl | rfl
    · exact mstatus
    · exact mepc
    · exact mtvec
    · exact mcause
  · intro each
    exact ⟨each 2 (by omega) (by omega), each 3 (by omega) (by omega),
      each 4 (by omega) (by omega), each 5 (by omega) (by omega)⟩

/-- The RAM, read over zeros at offset `o`. -/
theorem writeRam_read {o : Nat} (there : f.At bytes o) (m : Memory) (addr size : U32) :
    m.writeRam addr (f.read (List.replicate size.toNat 0#8)).1 = m ↔
      (m.inRam addr size = true → ∀ k, k < size.toNat →
        bytes.getD (o + k) 0#8 = m.ram (m.index addr + k)) := by
  rw [Memory.writeRam_eq_self_iff, InStream.read_length, List.length_replicate,
    BitVec.ofNat_toNat, BitVec.setWidth_eq]
  refine forall_congr' fun room => forall_congr' fun k => forall_congr' fun inside => ?_
  rw [there.getD (by simpa using inside), List.getD_replicate _ inside]

/-- The fields leave the state alone when each finds its own bytes. -/
theorem loadFields_eq_self_iff (there : f.At bytes 12) :
    (s.loadFields stack f).2 = s ↔ s.KeepsState stack bytes := by
  have cycle := there.next (putDouble s.cycle)
  have pc := cycle.next (putWord s.hart.pc)
  have x := pc.next (putWords s.hart.gprs 16)
  have csrs := x.next ((List.range 24).map stack.csrs)
  simp only [putDouble_length, putWord_length, putWords_length, List.length_map,
    List.length_range, Nat.reduceMul, Nat.reduceAdd] at cycle pc x csrs
  have fields : (s.loadFields stack f).2 = s ↔
      (s.loadFields stack f).2.cycle = s.cycle ∧ (s.loadFields stack f).2.hart.pc = s.hart.pc ∧
      (s.loadFields stack f).2.hart.x = s.hart.x ∧
      ((s.loadFields stack f).2.hart.mstatus = s.hart.mstatus ∧
        (s.loadFields stack f).2.hart.mepc = s.hart.mepc ∧
        (s.loadFields stack f).2.hart.mtvec = s.hart.mtvec ∧
        (s.loadFields stack f).2.hart.mcause = s.hart.mcause) ∧
      (s.loadFields stack f).2.memory = s.memory := by
    constructor
    · intro same
      rw [same]
      exact ⟨rfl, rfl, rfl, ⟨rfl, rfl, rfl, rfl⟩, rfl⟩
    · rintro ⟨cycle, pc, x, ⟨mstatus, mepc, mtvec, mcause⟩, memory⟩
      unfold loadFields at *
      simp only at *
      rw [cycle, pc, x, mstatus, mepc, mtvec, mcause, memory]
  have csrBytes (k : Nat) (inside : k < 24) :
      ((List.range 24).map stack.csrs).getD k 0#8 = stack.csrs k := range_map_getD _ inside _
  have regBytes (k : Nat) (inside : k < 64) : (putWords s.hart.gprs 16).getD k 0#8 =
      byteOf (s.hart.gprs (k / 4)) (k % 4) := putWords_getD _ inside _
  have xs := getWords_read pc (putWords s.hart.gprs 16) s.hart.gprs 0 16 (by simp)
  have words := getWords_read x ((List.range 24).map stack.csrs) s.hart.csrs 2 6 (by simp)
  rw [fields]
  constructor
  · rintro ⟨cycles, pcs, regs, csr, memory⟩
    refine
      { cycle := (getDouble_read there _ _).mp cycles
        pc := (getWord_read cycle _ _).mp pcs
        x := ?_
        csrs := ?_
        ram := (writeRam_read csrs _ _ _).mp memory }
    · intro k inside
      have byte := xs.mp ((gprs_eq_iff _ _).mp regs) k (Nat.zero_le _) inside
      rwa [regBytes k inside] at byte
    · intro k low high
      have byte := words.mp ((csrs_eq_iff _ _).mp csr) k low high
      rwa [csrBytes k high] at byte
  · intro keeps
    refine ⟨(getDouble_read there _ _).mpr keeps.cycle, (getWord_read cycle _ _).mpr keeps.pc,
      (gprs_eq_iff _ _).mpr (xs.mpr ?_), (csrs_eq_iff _ _).mpr (words.mpr ?_),
      (writeRam_read csrs _ _ _).mpr keeps.ram⟩
    · intro k _ inside
      rw [regBytes k inside]
      exact keeps.x k inside
    · intro k low high
      rw [csrBytes k high]
      exact keeps.csrs k low high

/-- A file is refused for its header, or its fields are read. -/
theorem loadCheckpoint_cases (s : EmulatorIss) (stack : Stack) (bytes : List (BitVec 8)) :
    (¬ s.HeaderAccepted stack bytes ∧ s.loadCheckpoint stack (some bytes) = (false, s)) ∨
      (s.HeaderAccepted stack bytes ∧ ∃ f, f.At bytes 12 ∧
        s.loadCheckpoint stack (some bytes) = s.loadFields stack f) := by
  have start := InStream.ofFile_at bytes
  have magic := start.next ((List.range 4).map stack.magic)
  have version := magic.next (putWord 0#32)
  have ramSize := version.next (putWord 0#32)
  simp only [putWord_length, List.length_map, List.length_range, Nat.zero_add, Nat.reduceAdd]
    at magic version ramSize
  have zero (k : Nat) : byteOf (0#32) k = 0#8 := by simp [byteOf]
  have magicIff : ((InStream.ofFile bytes).read ((List.range 4).map stack.magic)).1 =
      checkpointMagic ↔
        ∀ k, k < 4 → bytes.getD k (stack.magic k) = checkpointMagic.getD k 0#8 := by
    have four : checkpointMagic.length = 4 := rfl
    rw [eq_iff_getD (by simp [checkpointMagic]), four]
    refine forall_congr' fun k => forall_congr' fun inside => ?_
    rw [start.getD (by simpa using inside), Nat.zero_add, range_map_getD _ inside]
  have versionIff := getWord_read magic 0#32 checkpointVersion
  have ramSizeIff := getWord_read version 0#32 s.cfg.ramSize
  simp only [zero] at versionIff ramSizeIff
  rw [loadCheckpoint]
  simp only
  split_ifs with noMagic noVersion noSize
  · exact .inl ⟨fun accepted => noMagic (magicIff.mpr accepted.magic), rfl⟩
  · exact .inl ⟨fun accepted => noVersion (versionIff.mpr accepted.version), rfl⟩
  · exact .inl ⟨fun accepted => noSize (ramSizeIff.mpr accepted.ramSize), rfl⟩
  · refine .inr ⟨⟨magicIff.mp (not_not.mp noMagic), versionIff.mp (not_not.mp noVersion),
      ramSizeIff.mp (not_not.mp noSize)⟩, _, ramSize, rfl⟩

/-- A load that fails leaves the state alone exactly when the header is refused, or the file
is complete, so that the load does not fail, or each byte finds its own value. -/
theorem failed_load_iff (s : EmulatorIss) (stack : Stack) (bytes : List (BitVec 8)) :
    ((s.loadCheckpoint stack (some bytes)).1 = false →
        (s.loadCheckpoint stack (some bytes)).2 = s) ↔
      ¬ s.HeaderAccepted stack bytes ∨ 112 + s.cfg.ramSize.toNat ≤ bytes.length ∨
        s.KeepsState stack bytes := by
  rcases s.loadCheckpoint_cases stack bytes with ⟨refused, load⟩ | ⟨accepted, f, there, load⟩
  · rw [load]
    exact ⟨fun _ => .inl refused, fun _ _ => rfl⟩
  · have good : (s.loadFields stack f).1 = true ↔ 112 + s.cfg.ramSize.toNat ≤ bytes.length :=
      loadFields_good there
    rw [load, loadFields_eq_self_iff there, ← Bool.not_eq_true, good]
    constructor
    · intro keeps
      by_cases complete : 112 + s.cfg.ramSize.toNat ≤ bytes.length
      · exact .inr (.inl complete)
      · exact .inr (.inr (keeps complete))
    · rintro (refused | complete | keeps)
      · exact absurd accepted refused
      · exact fun short => absurd complete short
      · exact fun _ => keeps

/-- A file that ends behind the cycle count, with the count 5. -/
def truncatedFile : List (BitVec 8) :=
  checkpointMagic ++ putWord checkpointVersion ++ putWord 16#32 ++ putDouble 5#64

/-- The load is refused, and the count has moved from 0 to 5. -/
theorem truncated_load_moves :
    let s := create { ramSize := 16#32 }
    let load := s.loadCheckpoint ⟨fun _ => 0#8, fun _ => 0#8⟩ (some truncatedFile)
    load.1 = false ∧ load.2 ≠ s := by
  intro s load
  refine ⟨by decide, fun same => ?_⟩
  have cycle : load.2.cycle ≠ s.cycle := by decide
  exact cycle (congrArg EmulatorIss.cycle same)

end EmulatorIss

end NpcMachine.Emulator
