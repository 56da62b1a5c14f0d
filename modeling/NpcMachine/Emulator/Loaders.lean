/-
# Emulator.Loaders -- the memory accesses and the file loaders of the two models

`read_mem`, `write_mem`, `load_bin` and `load_elf` of `emulator_iss.cpp` and of
`rtl_iss.cpp`.  A file is the list of its bytes.  A pointer that leaves the file has no
defined result: `load_elf` then is `none`.

`loadElfImage_over` says what the program headers do to a RAM: the bytes they cover come
from the file alone, the others stay.
-/
import NpcMachine.Emulator.EmulatorIss
import NpcMachine.Emulator.RtlIss

namespace NpcMachine.Emulator

set_option autoImplicit false

namespace Memory

variable (m : Memory)

/-- The RAM with `len` bytes from index `base` on. -/
def patch (base len : Nat) (byte : Nat → BitVec 8) : Memory :=
  { m with ram := fun j => if base ≤ j ∧ j < base + len then byte (j - base) else m.ram j }

def writeRam (addr : U32) (data : List (BitVec 8)) : Memory :=
  if data.length == 0 || !m.inRam addr (BitVec.ofNat 32 data.length) then m
  else m.patch (m.index addr) data.length fun k => data.getD k 0#8

def fillRam (addr : U32) (value : BitVec 8) (len : U32) : Memory :=
  if len == 0#32 || !m.inRam addr len then m
  else m.patch (m.index addr) len.toNat fun _ => value

/-- A write of `len` bytes at `addr` reaches index `j`. -/
def hits (addr len : U32) (j : Nat) : Bool :=
  len != 0#32 && m.inRam addr len &&
    decide (m.index addr ≤ j ∧ j < m.index addr + len.toNat)

/-- The RAM with the bytes `byte` where `covered`. -/
def overlay (covered : Nat → Bool) (byte : Nat → BitVec 8) : Memory :=
  { m with ram := fun j => if covered j then byte j else m.ram j }

variable {m}

@[simp] theorem overlay_cfg (covered : Nat → Bool) (byte : Nat → BitVec 8) :
    (m.overlay covered byte).cfg = m.cfg := rfl

theorem inRam_of_cfg {other : Memory} (same : other.cfg = m.cfg) (addr size : U32) :
    other.inRam addr size = m.inRam addr size := by
  unfold inRam
  rw [same]

theorem index_of_cfg {other : Memory} (same : other.cfg = m.cfg) (addr : U32) :
    other.index addr = m.index addr := by
  unfold index
  rw [same]

theorem hits_of_cfg {other : Memory} (same : other.cfg = m.cfg) (addr len : U32) (j : Nat) :
    other.hits addr len j = m.hits addr len j := by
  unfold hits
  rw [inRam_of_cfg same, index_of_cfg same]

theorem overlay_none (byte : Nat → BitVec 8) : m.overlay (fun _ => false) byte = m := rfl

/-- The later bytes go over the earlier ones. -/
theorem overlay_overlay (c d : Nat → Bool) (v w : Nat → BitVec 8) :
    (m.overlay c v).overlay d w =
      m.overlay (fun j => c j || d j) (fun j => if d j then w j else v j) := by
  have ram : ((m.overlay c v).overlay d w).ram =
      (m.overlay (fun j => c j || d j) (fun j => if d j then w j else v j)).ram := by
    funext j
    simp only [overlay]
    cases c j <;> cases d j <;> rfl
  exact congrArg (Memory.mk m.cfg) ram

theorem hits_refused {addr len : U32}
    (refused : (len == 0#32 || !m.inRam addr len) = true) :
    m.hits addr len = fun _ => false := by
  funext j
  simp only [Bool.or_eq_true, Bool.not_eq_true', beq_iff_eq] at refused
  rcases refused with empty | outside
  · simp [hits, empty]
  · simp [hits, outside]

/-- A checked write of `len` bytes is the overlay of what it reaches. -/
theorem patch_overlay (addr len : U32) (byte : Nat → BitVec 8) :
    (if len == 0#32 || !m.inRam addr len then m else m.patch (m.index addr) len.toNat byte) =
      m.overlay (m.hits addr len) fun j => byte (j - m.index addr) := by
  split_ifs with refused
  · rw [hits_refused refused, overlay_none]
  · simp only [Bool.or_eq_true, Bool.not_eq_true', beq_iff_eq, not_or, Bool.not_eq_false]
      at refused
    have all : m.hits addr len = fun j =>
        decide (m.index addr ≤ j ∧ j < m.index addr + len.toNat) := by
      funext j
      simp [hits, refused.1, refused.2]
    rw [all]
    simp [patch, overlay]

theorem writeRam_overlay (addr : U32) (data : List (BitVec 8)) (small : data.length < 2 ^ 32) :
    m.writeRam addr data = m.overlay (m.hits addr (BitVec.ofNat 32 data.length))
      fun j => data.getD (j - m.index addr) 0#8 := by
  have size : (BitVec.ofNat 32 data.length).toNat = data.length := by
    rw [BitVec.toNat_ofNat, Nat.mod_eq_of_lt small]
  have zero : (data.length == 0) = (BitVec.ofNat 32 data.length == 0#32) := by
    rw [Bool.eq_iff_iff, beq_iff_eq, beq_iff_eq, ← BitVec.toNat_inj, size]
    rfl
  rw [← patch_overlay addr _ fun k => data.getD k 0#8, size, ← zero]
  rfl

theorem fillRam_overlay (addr : U32) (value : BitVec 8) (len : U32) :
    m.fillRam addr value len = m.overlay (m.hits addr len) fun _ => value :=
  patch_overlay addr len fun _ => value

/-- A byte after a store depends on the same byte before it only. -/
theorem store_ram_congr {other : Memory} (same : other.cfg = m.cfg) {j : Nat}
    (agree : other.ram j = m.ram j) (addr size data : U32) :
    (other.store addr size data).2.ram j = (m.store addr size data).2.ram j := by
  unfold store
  rw [inRam_of_cfg same, index_of_cfg same, same]
  split_ifs
  all_goals simp only [writeLe32, writeLe16, writeLe8_ram, agree]

theorem writeRam_ram_congr {other : Memory} (same : other.cfg = m.cfg) {j : Nat}
    (agree : other.ram j = m.ram j) (addr : U32) (data : List (BitVec 8)) :
    (other.writeRam addr data).ram j = (m.writeRam addr data).ram j := by
  unfold writeRam
  rw [inRam_of_cfg same, index_of_cfg same]
  split_ifs
  · exact agree
  · simp only [patch, agree]

/-- A write changes nothing when it is refused or finds its own bytes. -/
theorem writeRam_eq_self_iff (addr : U32) (data : List (BitVec 8)) :
    m.writeRam addr data = m ↔ (m.inRam addr (BitVec.ofNat 32 data.length) = true →
      ∀ k, k < data.length → data.getD k 0#8 = m.ram (m.index addr + k)) := by
  unfold writeRam
  split_ifs with refused
  · simp only [Bool.or_eq_true, Bool.not_eq_true', beq_iff_eq] at refused
    refine ⟨fun _ room k inside => ?_, fun _ => rfl⟩
    rcases refused with empty | outside
    · omega
    · rw [room] at outside
      contradiction
  · simp only [Bool.or_eq_true, Bool.not_eq_true', beq_iff_eq, not_or, Bool.not_eq_false]
      at refused
    constructor
    · intro same _ k inside
      have byte := congrFun (congrArg Memory.ram same) (m.index addr + k)
      simpa [patch, inside] using byte
    · intro bytes
      have ram : (m.patch (m.index addr) data.length fun k => data.getD k 0#8).ram = m.ram := by
        funext j
        simp only [patch]
        split_ifs with hit
        · have byte := bytes refused.2 (j - m.index addr) (by omega)
          rwa [Nat.add_sub_cancel' hit.1] at byte
        · rfl
      exact congrArg (Memory.mk m.cfg) ram

/-- A write of the whole RAM. -/
theorem writeRam_whole (f : Nat → BitVec 8) {j : Nat} (inside : j < m.cfg.ramSize.toNat) :
    (m.writeRam m.cfg.ramBase ((List.range m.cfg.ramSize.toNat).map f)).ram j =
      if m.inRam m.cfg.ramBase m.cfg.ramSize = true then f j else m.ram j := by
  have index : m.index m.cfg.ramBase = 0 := by simp [Memory.index]
  have size : ((List.range m.cfg.ramSize.toNat).map f).length = m.cfg.ramSize.toNat := by simp
  have nonempty : (m.cfg.ramSize.toNat == 0) = false := by
    rw [beq_eq_false_iff_ne]
    omega
  unfold writeRam
  rw [size, nonempty, BitVec.ofNat_toNat, BitVec.setWidth_eq, Bool.false_or, index]
  cases m.inRam m.cfg.ramBase m.cfg.ramSize with
  | false => rfl
  | true => simp [patch, inside]

/-- A RAM that does not fit the address space holds no access. -/
theorem inRam_of_whole {addr size : U32}
    (none : m.inRam m.cfg.ramBase m.cfg.ramSize = false) : m.inRam addr size = false := by
  unfold inRam at none ⊢
  split_ifs with low wraps
  · rfl
  · rfl
  · split_ifs at none with below beyond
    · simp [BitVec.ult] at below
    · simp only [BitVec.ult, BitVec.ule, decide_eq_true_eq, Nat.not_lt, decide_eq_false_iff_not,
        Nat.not_le] at low wraps beyond ⊢
      omega
    · simp [BitVec.ule] at none

@[simp] theorem writeRam_cfg (addr : U32) (data : List (BitVec 8)) :
    (m.writeRam addr data).cfg = m.cfg := by
  unfold writeRam
  split_ifs <;> rfl

end Memory

/-! ## ELF files -/

section Elf

variable (file : List (BitVec 8))

def readU16 (p : Nat) : Option (BitVec 16) := do
  let b0 ← file[p]?
  let b1 ← file[p + 1]?
  some (b1 ++ b0)

def readU32 (p : Nat) : Option U32 := do
  let low ← readU16 file p
  let high ← readU16 file (p + 2)
  some (high ++ low)

/-- The fields of `Elf32_Ehdr` that the loader uses. -/
structure Elf32Ehdr where
  type : BitVec 16
  machine : BitVec 16
  entry : U32
  phoff : U32
  phentsize : BitVec 16
  phnum : BitVec 16
  deriving DecidableEq, Repr

/-- The fields of `Elf32_Phdr` that the loader uses. -/
structure Elf32Phdr where
  type : U32
  offset : U32
  vaddr : U32
  paddr : U32
  filesz : U32
  memsz : U32
  deriving DecidableEq, Repr

def elfMag : List (BitVec 8) := [0x7F#8, 0x45#8, 0x4C#8, 0x46#8]
def elfClass32 : BitVec 8 := 1#8
def elfData2Lsb : BitVec 8 := 1#8
def etExec : BitVec 16 := 2#16
def emRiscv : BitVec 16 := 243#16
def ptLoad : U32 := 1#32
def ehdrSize : Nat := 52
def phdrSize : BitVec 16 := 32#16

def readEhdr : Option Elf32Ehdr := do
  let type ← readU16 file 16
  let machine ← readU16 file 18
  let entry ← readU32 file 24
  let phoff ← readU32 file 28
  let phentsize ← readU16 file 42
  let phnum ← readU16 file 44
  some ⟨type, machine, entry, phoff, phentsize, phnum⟩

def readPhdr (ph : Nat) : Option Elf32Phdr := do
  let type ← readU32 file ph
  let offset ← readU32 file (ph + 4)
  let vaddr ← readU32 file (ph + 8)
  let paddr ← readU32 file (ph + 12)
  let filesz ← readU32 file (ph + 16)
  let memsz ← readU32 file (ph + 20)
  some ⟨type, offset, vaddr, paddr, filesz, memsz⟩

/-- The identification bytes. -/
def elfIdent : Bool :=
  decide (ehdrSize ≤ file.length) && file.take 4 == elfMag && file[4]? == some elfClass32 &&
    file[5]? == some elfData2Lsb

/-- The checks of the file header; sizes are multiplied and added in 32 bits. -/
def Elf32Ehdr.accepted (e : Elf32Ehdr) : Bool :=
  e.type == etExec && e.machine == emRiscv && e.phoff != 0#32 && phdrSize.ule e.phentsize &&
    decide ((e.phoff + e.phnum.setWidth 32 * e.phentsize.setWidth 32).toNat ≤ file.length)

def Elf32Phdr.addr (p : Elf32Phdr) : U32 := if p.paddr ≠ 0#32 then p.paddr else p.vaddr

/-- The bytes of a segment, when a write of them to the RAM stays inside the file. -/
def Elf32Phdr.load (p : Elf32Phdr) (m : Memory) : Option Memory :=
  if p.filesz == 0#32 || !m.inRam p.addr p.filesz then some m
  else if p.offset.toNat + p.filesz.toNat ≤ file.length then
    some (m.writeRam p.addr ((file.drop p.offset.toNat).take p.filesz.toNat))
  else none

/-- The zeros behind a segment. -/
def Elf32Phdr.fill (p : Elf32Phdr) (m : Memory) : Memory :=
  if p.filesz.ult p.memsz then m.fillRam (p.addr + p.filesz) 0#8 (p.memsz - p.filesz) else m

/-- One turn of the loop over the program headers; `false` is the return out of it.
`i * e_phentsize` is an `int`. -/
def Elf32Ehdr.loadPhdr (e : Elf32Ehdr) (i : Nat) (m : Memory) : Option (Bool × Memory) :=
  if 2 ^ 31 ≤ i * e.phentsize.toNat then none
  else
    match readPhdr file (e.phoff.toNat + i * e.phentsize.toNat) with
    | none => none
    | some p =>
        if p.type ≠ ptLoad then some (true, m)
        else if file.length < (p.offset + p.filesz).toNat then some (false, m)
        else (p.load file m).map fun loaded => (true, p.fill loaded)

def Elf32Ehdr.loadPhdrs (e : Elf32Ehdr) : List Nat → Memory → Option (Bool × Memory)
  | [], m => some (true, m)
  | i :: rest, m =>
      match e.loadPhdr file i m with
      | none => none
      | some (false, m) => some (false, m)
      | some (true, m) => e.loadPhdrs rest m

/-- The file header, when it passes every check; the check of the size keeps its reads
inside the file (`readEhdr_isSome`). -/
def elfHeader : Option Elf32Ehdr :=
  if elfIdent file then (readEhdr file).filter fun e => e.accepted file else none

/-- The RAM after `load_elf`, and the entry when it succeeds. -/
def loadElfImage (m : Memory) : Option (Option U32 × Memory) :=
  match elfHeader file with
  | none => some (none, m)
  | some e =>
      (e.loadPhdrs file (List.range e.phnum.toNat) m).map fun out =>
        (if out.1 then some e.entry else none, out.2)

end Elf

/-! ## What the program headers leave in a RAM -/

section Overlay

variable {file : List (BitVec 8)} {m : Memory}

theorem readU16_isSome {p : Nat} (inside : p + 1 < file.length) : (readU16 file p).isSome := by
  simp [readU16, inside, Nat.lt_of_succ_lt inside]

theorem readU32_isSome {p : Nat} (inside : p + 3 < file.length) : (readU32 file p).isSome := by
  have lower : (readU16 file p).isSome := readU16_isSome (by omega)
  have upper : (readU16 file (p + 2)).isSome := readU16_isSome (by omega)
  obtain ⟨low, lows⟩ := Option.isSome_iff_exists.mp lower
  obtain ⟨high, highs⟩ := Option.isSome_iff_exists.mp upper
  simp [readU32, lows, highs]

theorem readEhdr_isSome (ident : elfIdent file = true) : (readEhdr file).isSome := by
  have size : ehdrSize ≤ file.length := by
    simp only [elfIdent, Bool.and_eq_true, decide_eq_true_eq] at ident
    exact ident.1.1.1
  unfold ehdrSize at size
  have half (p : Nat) (inside : p + 1 < 52) : ∃ v, readU16 file p = some v :=
    Option.isSome_iff_exists.mp (readU16_isSome (by omega))
  have word (p : Nat) (inside : p + 3 < 52) : ∃ v, readU32 file p = some v :=
    Option.isSome_iff_exists.mp (readU32_isSome (by omega))
  obtain ⟨type, h16⟩ := half 16 (by omega)
  obtain ⟨machine, h18⟩ := half 18 (by omega)
  obtain ⟨entry, h24⟩ := word 24 (by omega)
  obtain ⟨phoff, h28⟩ := word 28 (by omega)
  obtain ⟨phentsize, h42⟩ := half 42 (by omega)
  obtain ⟨phnum, h44⟩ := half 44 (by omega)
  simp [readEhdr, h16, h18, h24, h28, h42, h44]

/-- The program header writes index `j`. -/
def Elf32Phdr.covers (p : Elf32Phdr) (m : Memory) (j : Nat) : Bool :=
  p.type == ptLoad && (m.hits p.addr p.filesz j ||
    (p.filesz.ult p.memsz && m.hits (p.addr + p.filesz) (p.memsz - p.filesz) j))

/-- Some program header among `is` writes index `j`. -/
def Elf32Ehdr.covers (file : List (BitVec 8)) (e : Elf32Ehdr) (is : List Nat) (m : Memory)
    (j : Nat) : Bool :=
  is.any fun i =>
    match readPhdr file (e.phoff.toNat + i * e.phentsize.toNat) with
    | none => false
    | some p => p.covers m j

/-- The file writes index `j`. -/
def elfCovers (file : List (BitVec 8)) (m : Memory) (j : Nat) : Bool :=
  match elfHeader file with
  | none => false
  | some e => e.covers file (List.range e.phnum.toNat) m j

theorem Elf32Phdr.covers_of_cfg {other : Memory} (same : other.cfg = m.cfg) (p : Elf32Phdr) :
    p.covers other = p.covers m := by
  funext j
  unfold Elf32Phdr.covers
  rw [Memory.hits_of_cfg same, Memory.hits_of_cfg same]

theorem Elf32Ehdr.covers_of_cfg {other : Memory} (same : other.cfg = m.cfg) (e : Elf32Ehdr)
    (is : List Nat) : e.covers file is other = e.covers file is m := by
  funext j
  unfold Elf32Ehdr.covers
  simp only [Elf32Phdr.covers_of_cfg same]

/-- What a load puts into `m` it puts into every RAM of the configuration: the same bytes,
where `covered`. -/
def LoadsOver (load : Memory → Memory → Prop) (m : Memory) (covered : Nat → Bool) : Prop :=
  ∀ loaded, load m loaded → ∃ byte, loaded = m.overlay covered byte ∧
    ∀ other : Memory, other.cfg = m.cfg → load other (other.overlay covered byte)

/-- A load and then another. -/
theorem LoadsOver.comp {first second : Memory → Memory → Prop} {c d : Nat → Bool}
    (one : LoadsOver first m c)
    (two : ∀ middle : Memory, middle.cfg = m.cfg → LoadsOver second middle d) :
    LoadsOver (fun m loaded => ∃ middle, first m middle ∧ second middle loaded) m
      fun j => c j || d j := by
  rintro loaded ⟨middle, loads, again⟩
  obtain ⟨v, rfl, firsts⟩ := one middle loads
  obtain ⟨w, rfl, seconds⟩ := two (m.overlay c v) rfl loaded again
  refine ⟨fun j => if d j then w j else v j, Memory.overlay_overlay c d v w, ?_⟩
  intro other same
  refine ⟨other.overlay c v, firsts other same, ?_⟩
  rw [← Memory.overlay_overlay]
  exact seconds _ same

theorem Elf32Phdr.load_over (file : List (BitVec 8)) (p : Elf32Phdr) :
    LoadsOver (fun m loaded => p.load file m = some loaded) m (m.hits p.addr p.filesz) := by
  intro loaded loads
  unfold Elf32Phdr.load at loads
  split_ifs at loads with refused inside
  · cases loads
    refine ⟨fun _ => 0#8, by rw [Memory.hits_refused refused, Memory.overlay_none], ?_⟩
    intro other same
    rw [Memory.hits_refused refused, Memory.overlay_none, Elf32Phdr.load,
      Memory.inRam_of_cfg same, if_pos refused]
  · cases loads
    have slice : ((file.drop p.offset.toNat).take p.filesz.toNat).length = p.filesz.toNat := by
      rw [List.length_take, List.length_drop]
      omega
    have small := p.filesz.isLt
    have writes (other : Memory) (same : other.cfg = m.cfg) :
        other.writeRam p.addr ((file.drop p.offset.toNat).take p.filesz.toNat) =
          other.overlay (m.hits p.addr p.filesz) fun j =>
            ((file.drop p.offset.toNat).take p.filesz.toNat).getD (j - m.index p.addr) 0#8 := by
      have hits : other.hits p.addr p.filesz = m.hits p.addr p.filesz :=
        funext (Memory.hits_of_cfg same _ _)
      rw [Memory.writeRam_overlay _ _ (by omega), slice, BitVec.ofNat_toNat, BitVec.setWidth_eq,
        hits, Memory.index_of_cfg same]
    refine ⟨_, writes m rfl, ?_⟩
    intro other same
    rw [Elf32Phdr.load, Memory.inRam_of_cfg same, if_neg refused, if_pos inside,
      writes other same]

theorem Elf32Phdr.fill_over (p : Elf32Phdr) : LoadsOver (fun m loaded => p.fill m = loaded) m
    fun j => p.filesz.ult p.memsz && m.hits (p.addr + p.filesz) (p.memsz - p.filesz) j := by
  have fills (other : Memory) (same : other.cfg = m.cfg) : p.fill other = other.overlay
      (fun j => p.filesz.ult p.memsz && m.hits (p.addr + p.filesz) (p.memsz - p.filesz) j)
      fun _ => 0#8 := by
    have hits : other.hits (p.addr + p.filesz) (p.memsz - p.filesz) =
        m.hits (p.addr + p.filesz) (p.memsz - p.filesz) := funext (Memory.hits_of_cfg same _ _)
    unfold Elf32Phdr.fill
    split_ifs with bss
    · rw [Memory.fillRam_overlay, hits, bss]
      simp only [Bool.true_and]
    · rw [Bool.eq_false_iff.mpr bss]
      simp only [Bool.false_and]
      rw [Memory.overlay_none]
  rintro loaded rfl
  exact ⟨_, fills m rfl, fills⟩

/-- The outcome of a load that goes on. -/
def LoadsTo (load : Memory → Option (Bool × Memory)) (m loaded : Memory) : Prop :=
  load m = some (true, loaded)

theorem Elf32Ehdr.loadPhdr_over (file : List (BitVec 8)) (e : Elf32Ehdr) (i : Nat) :
    LoadsOver (LoadsTo (e.loadPhdr file i)) m (e.covers file [i] m) := by
  intro loaded loads
  unfold LoadsTo at loads ⊢
  unfold Elf32Ehdr.loadPhdr at loads ⊢
  split_ifs at loads with wide
  cases header : readPhdr file (e.phoff.toNat + i * e.phentsize.toNat) with
  | none => rw [header] at loads; cases loads
  | some p =>
      have covers : e.covers file [i] m = p.covers m := by
        funext j
        simp [Elf32Ehdr.covers, header]
      rw [covers]
      rw [header] at loads
      simp only at loads
      split_ifs at loads with skipped beyond
      · cases loads
        have none : p.covers m = fun _ => false := by
          funext j
          simp [Elf32Phdr.covers, skipped]
        refine ⟨fun _ => 0#8, by rw [none, Memory.overlay_none], ?_⟩
        intro other same
        rw [none, Memory.overlay_none]
        simp only [if_neg wide, if_pos skipped]
      · cases loads
      · obtain ⟨middle, segment, result⟩ := Option.map_eq_some_iff.mp loads
        cases result
        have type : p.type = ptLoad := not_not.mp skipped
        have both : p.covers m = fun j => m.hits p.addr p.filesz j ||
            (p.filesz.ult p.memsz && m.hits (p.addr + p.filesz) (p.memsz - p.filesz) j) := by
          funext j
          simp [Elf32Phdr.covers, type]
        have filled (between : Memory) (same : between.cfg = m.cfg) :
            LoadsOver (fun m loaded => p.fill m = loaded) between fun j =>
              p.filesz.ult p.memsz && m.hits (p.addr + p.filesz) (p.memsz - p.filesz) j := by
          have fills := p.fill_over (m := between)
          simp only [Memory.hits_of_cfg same] at fills
          exact fills
        have composed := (p.load_over file).comp filled
        obtain ⟨byte, mine, others⟩ := composed _ ⟨middle, segment, rfl⟩
        rw [both]
        refine ⟨byte, mine, ?_⟩
        intro other same
        obtain ⟨next, loads, fills⟩ := others other same
        simp only [if_neg wide, if_neg skipped, if_neg beyond, loads, Option.map_some, fills]

theorem Elf32Ehdr.loadPhdrs_over (e : Elf32Ehdr) (is : List Nat) :
    LoadsOver (LoadsTo (e.loadPhdrs file is)) m (e.covers file is m) := by
  induction is generalizing m with
  | nil =>
      intro loaded loads
      cases loads
      exact ⟨fun _ => 0#8, rfl, fun _ _ => rfl⟩
  | cons i is ih =>
      have split (m loaded : Memory) : LoadsTo (e.loadPhdrs file (i :: is)) m loaded ↔
          ∃ middle, LoadsTo (e.loadPhdr file i) m middle ∧
            LoadsTo (e.loadPhdrs file is) middle loaded := by
        unfold LoadsTo
        rw [Elf32Ehdr.loadPhdrs]
        rcases e.loadPhdr file i m with _ | ⟨_ | _, middle⟩ <;> simp
      have covers : e.covers file (i :: is) m =
          fun j => e.covers file [i] m j || e.covers file is m j := by
        funext j
        simp [Elf32Ehdr.covers]
      have rest (between : Memory) (same : between.cfg = m.cfg) :
          LoadsOver (LoadsTo (e.loadPhdrs file is)) between (e.covers file is m) := by
        rw [← e.covers_of_cfg same is]
        exact ih
      have composed := (e.loadPhdr_over file i).comp rest
      intro loaded loads
      obtain ⟨byte, mine, others⟩ := composed loaded ((split m loaded).mp loads)
      rw [covers]
      exact ⟨byte, mine, fun other same => (split _ _).mpr (others other same)⟩

theorem elfCovers_of_whole (none : m.inRam m.cfg.ramBase m.cfg.ramSize = false) (j : Nat) :
    elfCovers file m j = false := by
  have hits (addr len : U32) : m.hits addr len j = false := by
    simp [Memory.hits, Memory.inRam_of_whole none]
  unfold elfCovers
  cases elfHeader file with
  | none => rfl
  | some e =>
      simp only [Elf32Ehdr.covers, List.any_eq_false]
      intro i _
      cases readPhdr file (e.phoff.toNat + i * e.phentsize.toNat) with
      | none => simp
      | some p => simp [Elf32Phdr.covers, hits]

theorem Elf32Phdr.load_cfg {p : Elf32Phdr} {loaded : Memory} (loads : p.load file m = some loaded) :
    loaded.cfg = m.cfg := by
  obtain ⟨byte, rfl, -⟩ := p.load_over file loaded loads
  rfl

theorem Elf32Phdr.fill_cfg (p : Elf32Phdr) : (p.fill m).cfg = m.cfg := by
  obtain ⟨byte, fills, -⟩ := p.fill_over (p.fill m) rfl
  rw [fills]
  rfl

/-- The loop keeps the configuration, also when it is left early. -/
theorem Elf32Ehdr.loadPhdrs_cfg {e : Elf32Ehdr} {is : List Nat} {out : Bool × Memory}
    (loads : e.loadPhdrs file is m = some out) : out.2.cfg = m.cfg := by
  have turn {i : Nat} {m : Memory} {out : Bool × Memory}
      (loads : e.loadPhdr file i m = some out) : out.2.cfg = m.cfg := by
    unfold Elf32Ehdr.loadPhdr at loads
    split_ifs at loads
    split at loads
    · cases loads
    · split_ifs at loads
      · cases loads
        rfl
      · cases loads
        rfl
      · obtain ⟨middle, segment, rfl⟩ := Option.map_eq_some_iff.mp loads
        exact (Elf32Phdr.fill_cfg _).trans (Elf32Phdr.load_cfg segment)
  induction is generalizing m with
  | nil =>
      cases loads
      rfl
  | cons i is ih =>
      rw [Elf32Ehdr.loadPhdrs] at loads
      rcases first : e.loadPhdr file i m with _ | ⟨_ | _, middle⟩
      · rw [first] at loads
        cases loads
      · rw [first] at loads
        cases loads
        exact turn first
      · rw [first] at loads
        exact (ih loads).trans (turn first)

theorem loadElfImage_cfg {out : Option U32 × Memory} (loads : loadElfImage file m = some out) :
    out.2.cfg = m.cfg := by
  unfold loadElfImage at loads
  cases header : elfHeader file with
  | none =>
      rw [header] at loads
      cases loads
      rfl
  | some e =>
      rw [header] at loads
      obtain ⟨after, result, rfl⟩ := Option.map_eq_some_iff.mp loads
      exact Elf32Ehdr.loadPhdrs_cfg result

theorem loadElfImage_entry {entry : U32} {loaded : Memory}
    (loads : loadElfImage file m = some (some entry, loaded)) :
    ∃ e, elfHeader file = some e ∧ e.entry = entry := by
  unfold loadElfImage at loads
  cases header : elfHeader file with
  | none => rw [header] at loads; cases loads
  | some e =>
      rw [header] at loads
      obtain ⟨⟨done, after⟩, -, out⟩ := Option.map_eq_some_iff.mp loads
      cases done with
      | false => cases out
      | true =>
          cases out
          exact ⟨e, rfl, rfl⟩

theorem loadElfImage_over {entry : U32} {loaded : Memory}
    (loads : loadElfImage file m = some (some entry, loaded)) :
    ∃ byte, loaded = m.overlay (elfCovers file m) byte ∧ ∀ other : Memory, other.cfg = m.cfg →
      loadElfImage file other = some (some entry, other.overlay (elfCovers file m) byte) := by
  unfold loadElfImage elfCovers at *
  cases header : elfHeader file with
  | none => rw [header] at loads; cases loads
  | some e =>
      rw [header] at loads
      obtain ⟨⟨done, after⟩, result, out⟩ := Option.map_eq_some_iff.mp loads
      cases done with
      | false => cases out
      | true =>
          cases out
          obtain ⟨byte, mine, others⟩ := e.loadPhdrs_over _ after result
          refine ⟨byte, mine, ?_⟩
          intro other same
          have loads := others other same
          unfold LoadsTo at loads
          simp only [loads, Option.map_some, if_true]

end Overlay

/-! ## `EmulatorISS` -/

namespace EmulatorIss

variable (s : EmulatorIss)

def readMem (addr size : U32) : U32 × EmulatorIss :=
  if s.cfg.inClint addr then ((s.clint.load addr size).getD 0#32, s)
  else if s.cfg.inUart addr then
    match s.uart.load size with
    | some (value, uart) => (value, { s with uart := uart })
    | none => (0#32, s)
  else ((s.memory.load addr size 0#32).2, s)

def writeMem (addr size data : U32) : EmulatorIss :=
  if s.cfg.inClint addr then { s with clint := (s.clint.store addr size data).getD s.clint }
  else if s.cfg.inUart addr then { s with uart := (s.uart.store size data).getD s.uart }
  else { s with memory := (s.memory.store addr size data).2 }

/-- `none` for a file that does not open. -/
def loadBin (file : Option (List (BitVec 8))) (addr : U32) : Bool × EmulatorIss :=
  match file with
  | none => (false, s)
  | some data => (true, { s with memory := s.memory.writeRam addr data })

def loadElf (file : Option (List (BitVec 8))) : Option (Bool × EmulatorIss) :=
  match file with
  | none => some (false, s)
  | some data =>
      match loadElfImage data s.memory with
      | none => none
      | some (none, memory) => some (false, { s with memory := memory })
      | some (some entry, memory) =>
          some (true, { s with memory := memory, hart := Hart.reset entry })

variable {s}

@[simp] theorem writeMem_cfg (addr size data : U32) : (s.writeMem addr size data).cfg = s.cfg := by
  unfold writeMem
  split_ifs <;> rfl

@[simp] theorem writeMem_hart (addr size data : U32) :
    (s.writeMem addr size data).hart = s.hart := by
  unfold writeMem
  split_ifs <;> rfl

theorem writeMem_memory (addr size data : U32) : (s.writeMem addr size data).memory =
    if s.cfg.inClint addr = true ∨ s.cfg.inUart addr = true then s.memory
    else (s.memory.store addr size data).2 := by
  unfold writeMem
  split_ifs <;> simp_all

/-- A file that does not open changes nothing; any other is loaded as far as it goes, and
the hart is reset when the whole of it is. -/
theorem loadElf_cases {file : Option (List (BitVec 8))} {out : Bool × EmulatorIss}
    (loads : s.loadElf file = some out) : out = (false, s) ∨
      ∃ data entry memory, file = some data ∧
        loadElfImage data s.memory = some (entry, memory) ∧
        out = (entry.isSome,
          { s with memory := memory, hart := (entry.map Hart.reset).getD s.hart }) := by
  cases file with
  | none =>
      cases loads
      exact .inl rfl
  | some data =>
      unfold loadElf at loads
      simp only at loads
      rcases image : loadElfImage data s.memory with _ | ⟨_ | entry, memory⟩
      · rw [image] at loads
        cases loads
      · rw [image] at loads
        cases loads
        exact .inr ⟨data, none, memory, rfl, image, rfl⟩
      · rw [image] at loads
        cases loads
        exact .inr ⟨data, some entry, memory, rfl, image, rfl⟩

/-- The parts of a `load_elf` that returns true. -/
theorem loadElf_true {file : Option (List (BitVec 8))} {after : EmulatorIss}
    (loads : s.loadElf file = some (true, after)) : ∃ data entry memory, file = some data ∧
      loadElfImage data s.memory = some (some entry, memory) ∧
      after = { s with memory := memory, hart := Hart.reset entry } := by
  rcases loadElf_cases loads with refused | ⟨data, entry, memory, opened, image, out⟩
  · cases refused
  · cases entry with
    | none => cases out
    | some entry =>
        cases out
        exact ⟨data, entry, memory, opened, image, rfl⟩

end EmulatorIss

/-! ## `RtlISS` -/

namespace RtlIss

variable (s : RtlIss)

def readMem (addr size : U32) : U32 := (s.memory.load addr size 0#32).2

def writeMem (addr size data : U32) : RtlIss :=
  { s with memory := (s.memory.store addr size data).2 }

def loadBin (file : Option (List (BitVec 8))) (addr : U32) : Bool × RtlIss :=
  match file with
  | none => (false, s)
  | some data => (true, { s with memory := s.memory.writeRam addr data })

/-- The file is loaded by a fresh `EmulatorISS`, whose whole RAM is then copied. -/
def loadElf (file : Option (List (BitVec 8))) : Option (Bool × RtlIss) :=
  match (EmulatorIss.create s.memory.cfg).loadElf file with
  | none => none
  | some (false, _) => some (false, s)
  | some (true, loader) =>
      let srcRam := (List.range s.memory.cfg.ramSize.toNat).map loader.memory.ram
      some (true, { s with memory := s.memory.writeRam s.memory.cfg.ramBase srcRam })

variable {s}

theorem loadElf_true {file : Option (List (BitVec 8))} {after : RtlIss}
    (loads : s.loadElf file = some (true, after)) : ∃ loader,
      (EmulatorIss.create s.memory.cfg).loadElf file = some (true, loader) ∧
      after =
        { s with
          memory := s.memory.writeRam s.memory.cfg.ramBase
            ((List.range s.memory.cfg.ramSize.toNat).map loader.memory.ram) } := by
  unfold loadElf at loads
  rcases result : (EmulatorIss.create s.memory.cfg).loadElf file with _ | ⟨_ | _, loader⟩
  · rw [result] at loads
    cases loads
  · rw [result] at loads
    cases loads
  · rw [result] at loads
    cases loads
    exact ⟨loader, rfl, rfl⟩

end RtlIss

end NpcMachine.Emulator
