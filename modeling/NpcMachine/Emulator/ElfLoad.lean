/-
# Emulator.ElfLoad -- what `load_elf` reads of a file and what it leaves in the RAM

The loader checks each program header when it comes to it, with sums cut to 32 bits, and
writes its segment before it looks at the next.  `loadPhdrs_isSome_iff` says when every
pointer stays in the file, `loadPhdrs_eq` which segments a load has then laid over the RAM.

* `loadElf_inside_iff`: the reads of a load stay in the file exactly when no header that
  the loop reaches is taken for inside by a sum that was cut;
* `loadElf_allOrNothing_iff`: a load is all or nothing exactly when its segments fit the
  RAM, or the ones before a refused header change no byte.
-/
import Mathlib.Data.List.TakeWhile
import NpcMachine.Emulator.RamAccess

namespace NpcMachine.Emulator

open NpcMachine.Machine (Segment byteOf)

set_option autoImplicit false

/-! ## The reads of the loop -/

section Reads

variable {file : List (BitVec 8)} {m : Memory}

theorem readU16_isSome_iff (p : Nat) : (readU16 file p).isSome ↔ p + 2 ≤ file.length := by
  constructor
  · intro reads
    by_contra short
    have beyond : file[p + 1]? = none := List.getElem?_eq_none (by omega)
    unfold readU16 at reads
    rw [beyond] at reads
    cases first : file[p]? with
    | none => rw [first] at reads; cases reads
    | some b => rw [first] at reads; cases reads
  · intro inside
    exact readU16_isSome (by omega)

theorem readU32_isSome_iff (p : Nat) : (readU32 file p).isSome ↔ p + 4 ≤ file.length := by
  constructor
  · intro reads
    have upper : (readU16 file (p + 2)).isSome := by
      unfold readU32 at reads
      cases low : readU16 file p with
      | none => rw [low] at reads; cases reads
      | some l =>
          rw [low] at reads
          cases high : readU16 file (p + 2) with
          | none => rw [high] at reads; cases reads
          | some h => rfl
    have last := (readU16_isSome_iff (p + 2)).mp upper
    omega
  · intro inside
    exact readU32_isSome (by omega)

/-- The loader reads the first 24 bytes of a program header. -/
theorem readPhdr_isSome_iff (file : List (BitVec 8)) (ph : Nat) : (readPhdr file ph).isSome ↔ ph + 24 ≤ file.length := by
  constructor
  · intro reads
    rw [← Option.ne_none_iff_isSome] at reads
    have last : (readU32 file (ph + 20)).isSome := by
      by_contra none
      rw [Option.not_isSome_iff_eq_none] at none
      apply reads
      unfold readPhdr
      rw [none]
      simp
    have end_ := (readU32_isSome_iff (ph + 20)).mp last
    omega
  · intro inside
    have word (p : Nat) (below : p + 4 ≤ file.length) : ∃ v, readU32 file p = some v :=
      Option.isSome_iff_exists.mp ((readU32_isSome_iff p).mpr below)
    obtain ⟨type, h0⟩ := word ph (by omega)
    obtain ⟨offset, h4⟩ := word (ph + 4) (by omega)
    obtain ⟨vaddr, h8⟩ := word (ph + 8) (by omega)
    obtain ⟨paddr, h12⟩ := word (ph + 12) (by omega)
    obtain ⟨filesz, h16⟩ := word (ph + 16) (by omega)
    obtain ⟨memsz, h20⟩ := word (ph + 20) (by omega)
    simp [readPhdr, h0, h4, h8, h12, h16, h20]

end Reads

section Loop

variable (file : List (BitVec 8))

/-- The program header at the pointer that the loop forms. -/
def Elf32Ehdr.phdr (e : Elf32Ehdr) (i : Nat) : Option Elf32Phdr :=
  readPhdr file (e.phoff.toNat + i * e.phentsize.toNat)

/-- The loop returns at this header: its segment ends beyond the file, by a sum of 32 bits. -/
def Elf32Phdr.stops (p : Elf32Phdr) : Bool :=
  p.type == ptLoad && decide (file.length < (p.offset + p.filesz).toNat)

/-- No header from `s` on stops the loop before header `i`. -/
def Elf32Ehdr.Reached (e : Elf32Ehdr) (s i : Nat) : Prop :=
  ∀ j, s ≤ j → j < i → ∀ p, e.phdr file j = some p → p.stops file = false

/-- The header lies in the file, also when the end of the header table was cut to 32 bits;
`i * e_phentsize` is an `int`. -/
def Elf32Ehdr.HeaderInside (e : Elf32Ehdr) (i : Nat) : Prop :=
  i * e.phentsize.toNat < 2 ^ 31 ∧
    (2 ^ 32 ≤ e.phoff.toNat + e.phnum.toNat * e.phentsize.toNat →
      e.phoff.toNat + i * e.phentsize.toNat + 24 ≤ file.length)

/-- A segment whose end was cut to 32 bits is refused, is not written, or lies in the file
all the same. -/
def Elf32Phdr.SegmentInside (p : Elf32Phdr) (c : Config) : Prop :=
  p.type = ptLoad → 2 ^ 32 ≤ p.offset.toNat + p.filesz.toNat →
    p.stops file = true ∨ p.filesz = 0#32 ∨
      ¬ (c.InRange p.addr p.filesz.toNat ∧ c.ramEnd < 2 ^ 32) ∨
      p.offset.toNat + p.filesz.toNat ≤ file.length

theorem Elf32Phdr.stops_iff (p : Elf32Phdr) :
    p.stops file = true ↔ p.type = ptLoad ∧ file.length < (p.offset + p.filesz).toNat := by
  rw [Elf32Phdr.stops, Bool.and_eq_true, beq_iff_eq, decide_eq_true_eq]

variable {file} {m : Memory}

theorem Elf32Phdr.load_isSome_iff (p : Elf32Phdr) : (p.load file m).isSome ↔
    p.filesz = 0#32 ∨ ¬ (m.cfg.InRange p.addr p.filesz.toNat ∧ m.cfg.ramEnd < 2 ^ 32) ∨
      p.offset.toNat + p.filesz.toNat ≤ file.length := by
  rw [← Memory.inRam_iff (m := m)]
  unfold Elf32Phdr.load
  split_ifs with refused inside
  · simp only [Bool.or_eq_true, Bool.not_eq_true', beq_iff_eq] at refused
    rcases refused with empty | outside
    · exact iff_of_true rfl (Or.inl empty)
    · exact iff_of_true rfl (Or.inr (Or.inl (by rw [outside]; exact Bool.false_ne_true)))
  · exact iff_of_true rfl (Or.inr (Or.inr inside))
  · simp only [Bool.or_eq_true, Bool.not_eq_true', beq_iff_eq, not_or, Bool.not_eq_false] at refused
    exact iff_of_false Bool.false_ne_true fun out =>
      out.elim refused.1 fun rest => rest.elim (fun out => out refused.2) inside

/-- One turn of the loop has a result when its header lies in the file and its segment is
not misjudged. -/
theorem Elf32Ehdr.loadPhdr_isSome_iff (e : Elf32Ehdr) (i : Nat) (m : Memory) :
    (e.loadPhdr file i m).isSome ↔ i * e.phentsize.toNat < 2 ^ 31 ∧
      e.phoff.toNat + i * e.phentsize.toNat + 24 ≤ file.length ∧
      ∀ p, e.phdr file i = some p → p.SegmentInside file m.cfg := by
  have read := readPhdr_isSome_iff file (e.phoff.toNat + i * e.phentsize.toNat)
  unfold Elf32Ehdr.loadPhdr Elf32Ehdr.phdr
  split_ifs with wide
  · exact iff_of_false Bool.false_ne_true fun all => by omega
  · cases header : readPhdr file (e.phoff.toNat + i * e.phentsize.toNat) with
    | none =>
        rw [header] at read
        exact iff_of_false Bool.false_ne_true fun all => Bool.false_ne_true (read.mpr all.2.1)
    | some p =>
        rw [header] at read
        have there := read.mp rfl
        have one : (∀ q, some p = some q → q.SegmentInside file m.cfg) ↔ p.SegmentInside file m.cfg := by
          simp
        rw [one]
        simp only
        unfold Elf32Phdr.SegmentInside
        rw [p.stops_iff file]
        split_ifs with other beyond
        · exact iff_of_true rfl ⟨by omega, there, fun type => absurd type other⟩
        · exact iff_of_true rfl ⟨by omega, there, fun type _ => Or.inl ⟨type, beyond⟩⟩
        · rw [Option.isSome_map, Elf32Phdr.load_isSome_iff]
          have bound := BitVec.toNat_add p.offset p.filesz
          constructor
          · intro loads
            exact ⟨by omega, there, fun _ _ => Or.inr loads⟩
          · rintro ⟨-, -, inside⟩
            by_cases cut : 2 ^ 32 ≤ p.offset.toNat + p.filesz.toNat
            · exact (inside (not_not.mp other) cut).resolve_left fun stop => beyond stop.2
            · rw [Nat.mod_eq_of_lt (by omega)] at bound
              exact Or.inr (Or.inr (by omega))

/-- A turn that has a result goes on unless its header stops the loop. -/
theorem Elf32Ehdr.loadPhdr_done {e : Elf32Ehdr} {i : Nat} {out : Bool × Memory}
    (loads : e.loadPhdr file i m = some out) :
    ∃ p, e.phdr file i = some p ∧ out.1 = !p.stops file ∧ out.2.cfg = m.cfg := by
  have single : e.loadPhdrs file [i] m = some out := by
    rw [Elf32Ehdr.loadPhdrs, loads]
    rcases out with ⟨_ | _, after⟩ <;> rfl
  have cfg : out.2.cfg = m.cfg := Elf32Ehdr.loadPhdrs_cfg single
  unfold Elf32Ehdr.loadPhdr at loads
  split_ifs at loads
  cases header : readPhdr file (e.phoff.toNat + i * e.phentsize.toNat) with
  | none => rw [header] at loads; cases loads
  | some p =>
      refine ⟨p, header, ?_, cfg⟩
      rw [header] at loads
      simp only at loads
      split_ifs at loads with other beyond
      · cases loads
        have goes := not_congr (p.stops_iff file)
        rw [Bool.eq_false_iff.mpr (goes.mpr fun stop => other stop.1)]
        rfl
      · cases loads
        rw [(p.stops_iff file).mpr ⟨not_not.mp other, beyond⟩]
        rfl
      · obtain ⟨middle, -, rfl⟩ := Option.map_eq_some_iff.mp loads
        have goes := not_congr (p.stops_iff file)
        rw [Bool.eq_false_iff.mpr (goes.mpr fun stop => beyond stop.2)]
        rfl

theorem Elf32Ehdr.reached_succ {e : Elf32Ehdr} {s : Nat} {p : Elf32Phdr}
    (header : e.phdr file s = some p) {i : Nat} (later : s + 1 ≤ i) :
    e.Reached file s i ↔ p.stops file = false ∧ e.Reached file (s + 1) i := by
  constructor
  · intro reached
    exact ⟨reached s le_rfl (by omega) p header, fun j low high => reached j (by omega) high⟩
  · rintro ⟨goes, reached⟩ j low high q there
    by_cases first : j = s
    · subst first
      rw [header] at there
      cases there
      exact goes
    · exact reached j (by omega) high q there

/-- The loop has a result when each turn that it reaches has one. -/
theorem Elf32Ehdr.loadPhdrs_isSome_iff (e : Elf32Ehdr) (s n : Nat) (m : Memory) :
    (e.loadPhdrs file (List.range' s n) m).isSome ↔ ∀ i, s ≤ i → i < s + n → e.Reached file s i →
      i * e.phentsize.toNat < 2 ^ 31 ∧ e.phoff.toNat + i * e.phentsize.toNat + 24 ≤ file.length ∧
        ∀ p, e.phdr file i = some p → p.SegmentInside file m.cfg := by
  induction n generalizing s m with
  | zero => exact iff_of_true rfl fun i low high => by omega
  | succ n ih =>
      have turn : (e.loadPhdr file s m).isSome ↔ _ := e.loadPhdr_isSome_iff s m
      have start : e.Reached file s s := fun j low high => by omega
      rw [List.range'_succ, Elf32Ehdr.loadPhdrs]
      cases first : e.loadPhdr file s m with
      | none =>
          rw [first] at turn
          exact iff_of_false Bool.false_ne_true fun all =>
            Bool.false_ne_true (turn.mpr (all s le_rfl (by omega) start))
      | some out =>
          obtain ⟨done, middle⟩ := out
          obtain ⟨p, header, goes, cfg⟩ := Elf32Ehdr.loadPhdr_done first
          rw [first] at turn
          have here := turn.mp rfl
          cases done with
          | false =>
              -- the header at `s` stops the loop: no later one is reached
              refine iff_of_true rfl fun i low high reached => ?_
              by_cases same : i = s
              · subst same
                exact here
              · have goesOn := ((Elf32Ehdr.reached_succ header (by omega)).mp reached).1
                rw [goesOn] at goes
                cases goes
          | true =>
              have on : p.stops file = false := by simpa using goes
              simp only at cfg ⊢
              rw [ih (s + 1) middle, cfg]
              constructor
              · intro rest i low high reached
                by_cases same : i = s
                · subst same
                  exact here
                · exact rest i (by omega) (by omega)
                    ((Elf32Ehdr.reached_succ header (by omega)).mp reached).2
              · intro all i low high reached
                exact all i (by omega) (by omega)
                  ((Elf32Ehdr.reached_succ header low).mpr ⟨on, reached⟩)

/-- A table that does not end beyond 2^32 has passed the check of the file header: its
headers lie in the file. -/
theorem Elf32Ehdr.header_inside {e : Elf32Ehdr} (accepted : e.accepted file = true) {i : Nat}
    (below : i < e.phnum.toNat) :
    (i * e.phentsize.toNat < 2 ^ 31 ∧ e.phoff.toNat + i * e.phentsize.toNat + 24 ≤ file.length) ↔
      e.HeaderInside file i := by
  unfold Elf32Ehdr.HeaderInside
  refine and_congr_right fun _ => ⟨fun inside _ => inside, fun inside => ?_⟩
  by_cases cut : 2 ^ 32 ≤ e.phoff.toNat + e.phnum.toNat * e.phentsize.toNat
  · exact inside cut
  · simp only [Elf32Ehdr.accepted, Bool.and_eq_true, decide_eq_true_eq] at accepted
    obtain ⟨⟨⟨-, -⟩, entry⟩, fits⟩ := accepted
    have size : 32 ≤ e.phentsize.toNat := by simpa [phdrSize, BitVec.ule] using entry
    have num := e.phnum.isLt
    have ent := e.phentsize.isLt
    have product : e.phnum.toNat * e.phentsize.toNat < 2 ^ 32 := by omega
    have sum : (e.phoff + e.phnum.setWidth 32 * e.phentsize.setWidth 32).toNat =
        e.phoff.toNat + e.phnum.toNat * e.phentsize.toNat := by
      rw [BitVec.toNat_add, BitVec.toNat_mul, BitVec.toNat_setWidth, BitVec.toNat_setWidth,
        Nat.mod_eq_of_lt (a := e.phnum.toNat) (by omega),
        Nat.mod_eq_of_lt (a := e.phentsize.toNat) (by omega), Nat.mod_eq_of_lt product,
        Nat.mod_eq_of_lt (by omega)]
    rw [sum] at fits
    have next : (i + 1) * e.phentsize.toNat ≤ e.phnum.toNat * e.phentsize.toNat :=
      Nat.mul_le_mul_right _ below
    rw [Nat.add_mul, Nat.one_mul] at next
    omega

/-- The reads of the loop that the sums of 32 bits do not keep in the file stay there. -/
def ReadsInside (file : List (BitVec 8)) (c : Config) : Prop :=
  ∀ e, elfHeader file = some e → ∀ i, i < e.phnum.toNat → e.Reached file 0 i →
    e.HeaderInside file i ∧ ∀ p, e.phdr file i = some p → p.SegmentInside file c

theorem elfHeader_accepted {e : Elf32Ehdr} (header : elfHeader file = some e) :
    e.accepted file = true := by
  unfold elfHeader at header
  split_ifs at header
  exact (Option.filter_eq_some_iff.mp header).2

theorem loadElfImage_isSome_iff (file : List (BitVec 8)) (m : Memory) :
    (loadElfImage file m).isSome ↔ ReadsInside file m.cfg := by
  unfold loadElfImage ReadsInside
  cases header : elfHeader file with
  | none => simp
  | some e =>
      have accepted := elfHeader_accepted header
      simp only [Option.isSome_map, List.range_eq_range', Elf32Ehdr.loadPhdrs_isSome_iff]
      constructor
      · intro all e' same i below reached
        cases same
        have inside := all i (Nat.zero_le i) (by omega) reached
        exact ⟨(Elf32Ehdr.header_inside accepted below).mp ⟨inside.1, inside.2.1⟩, inside.2.2⟩
      · intro all i _ below reached
        obtain ⟨head, segment⟩ := all e rfl i (by omega) reached
        have inside := (Elf32Ehdr.header_inside accepted (by omega)).mpr head
        exact ⟨inside.1, inside.2, segment⟩

/-- The reads that `load_elf` makes of a file stay in it exactly when every header that the
loop reaches lies in the file and no segment is taken for inside by a sum that was cut. -/
theorem loadElf_inside_iff (s : EmulatorIss) (file : List (BitVec 8)) :
    (s.loadElf (some file)).isSome ↔ ReadsInside file s.memory.cfg := by
  rw [← loadElfImage_isSome_iff]
  unfold EmulatorIss.loadElf
  simp only
  rcases loadElfImage file s.memory with _ | ⟨_ | entry, memory⟩
  · rfl
  · rfl
  · rfl

/-- The bytes of a program header. -/
def Elf32Phdr.bytes (p : Elf32Phdr) : List (BitVec 8) :=
  [p.type, p.offset, p.vaddr, p.paddr, p.filesz, p.memsz, 5#32, 4#32].flatMap fun v =>
    (List.range 4).map (byteOf v)

/-- A file with its program headers right behind the file header, and data behind them. -/
def elfFile (entry : U32) (phdrs : List Elf32Phdr) (data : List (BitVec 8)) : List (BitVec 8) :=
  elfMag ++ [1#8, 1#8, 1#8] ++ List.replicate 9 0#8 ++ [2#8, 0#8, 0xF3#8, 0#8, 1#8, 0#8, 0#8, 0#8] ++
    (List.range 4).map (byteOf entry) ++ [0x34#8, 0#8, 0#8, 0#8] ++ List.replicate 8 0#8 ++
    [0x34#8, 0#8, 0x20#8, 0#8, BitVec.ofNat 8 phdrs.length, 0#8] ++ List.replicate 6 0#8 ++
    phdrs.flatMap Elf32Phdr.bytes ++ data

set_option maxRecDepth 4000 in
/-- A segment at the offset `0xFFFFFFF0` whose end is cut to 16 is copied from beyond the file. -/
theorem loadElf_misread : ¬ ∀ (s : EmulatorIss) (file : List (BitVec 8)),
    (s.loadElf (some file)).isSome := by
  intro all
  have reads := all (EmulatorIss.create {}) (elfFile 0x20000000#32
    [⟨ptLoad, 0xFFFFFFF0#32, 0x20000000#32, 0#32, 0x20#32, 0x20#32⟩] [])
  exact absurd reads (by decide)

end Loop

/-! ## The segments that a load lays over the RAM -/

section Segments

variable (file : List (BitVec 8))

/-- The RAM with segments of RAM indices over it. -/
def Memory.laid (m : Memory) (l : List (Segment (BitVec 8))) : Memory :=
  { m with ram := Segment.placeAll m.ram l }

/-- The bytes of the file in a segment. -/
def Elf32Phdr.slice (p : Elf32Phdr) : List (BitVec 8) :=
  (file.drop p.offset.toNat).take p.filesz.toNat

/-- The zeros behind them, up to `p_memsz`. -/
def Elf32Phdr.zeros (p : Elf32Phdr) : List (BitVec 8) :=
  List.replicate (p.memsz.toNat - p.filesz.toNat) 0#8

/-- What the header writes into the RAM, as runs of RAM indices: `write_ram` and `fill_ram`
each write nothing where their block is not in the RAM. -/
def Elf32Phdr.written (m : Memory) (p : Elf32Phdr) : List (Segment (BitVec 8)) :=
  if p.type ≠ ptLoad then []
  else
    (if m.inRam p.addr p.filesz then [⟨m.index p.addr, p.slice file⟩] else []) ++
      (if p.filesz.ult p.memsz && m.inRam (p.addr + p.filesz) (p.memsz - p.filesz) then
        [⟨m.index (p.addr + p.filesz), p.zeros⟩] else [])

/-- The program headers of the file, in order. -/
def Elf32Ehdr.phdrs (e : Elf32Ehdr) (is : List Nat) : List Elf32Phdr := is.filterMap (e.phdr file)

variable {file} {m : Memory}

/-- `write_ram` in the load of a segment. -/
theorem Elf32Phdr.load_eq {p : Elf32Phdr} {loaded : Memory} (loads : p.load file m = some loaded) :
    loaded = m.laid (if m.inRam p.addr p.filesz then [⟨m.index p.addr, p.slice file⟩] else []) := by
  unfold Elf32Phdr.load at loads
  split_ifs at loads with refused inside
  · cases loads
    simp only [Bool.or_eq_true, Bool.not_eq_true', beq_iff_eq] at refused
    split_ifs with room
    · have empty : p.filesz = 0#32 := refused.resolve_right (by rw [room]; exact Bool.noConfusion)
      have none : p.slice file = [] := by
        rw [Elf32Phdr.slice, empty]
        rfl
      rw [none, Memory.laid, Segment.placeAll_cons, Segment.place_nil]
      rfl
    · rfl
  · cases loads
    simp only [Bool.or_eq_true, Bool.not_eq_true', beq_iff_eq, not_or, Bool.not_eq_false] at refused
    have length : (p.slice file).length = p.filesz.toNat := by
      rw [Elf32Phdr.slice, List.length_take, List.length_drop]
      omega
    have pos : 0 < p.filesz.toNat := by
      by_contra zero
      exact refused.1 (BitVec.eq_of_toNat_eq (by simpa using zero))
    have made : m.blockRefused p.addr (p.slice file).length = false := by
      rw [length, Memory.blockRefused_eq_false_iff, Nat.mod_eq_of_lt p.filesz.isLt]
      exact ⟨by omega, (Memory.inRam_iff _ _).mp refused.2⟩
    have writes := Memory.writeRam_eq m p.addr (p.slice file)
    rw [made, if_neg Bool.false_ne_true, Memory.patch_eq_place] at writes
    · rw [if_pos refused.2]
      exact writes
    · intro k
      split_ifs with below
      · simp [below]
      · exact List.getElem?_eq_none (by omega)

/-- `fill_ram` behind it. -/
theorem Elf32Phdr.fill_eq (p : Elf32Phdr) : p.fill m = m.laid
    (if p.filesz.ult p.memsz && m.inRam (p.addr + p.filesz) (p.memsz - p.filesz) then
      [⟨m.index (p.addr + p.filesz), p.zeros⟩] else []) := by
  unfold Elf32Phdr.fill
  cases bss : p.filesz.ult p.memsz with
  | false => rfl
  | true =>
      have more : p.filesz.toNat < p.memsz.toNat := by simpa [BitVec.ult] using bss
      have size : (p.memsz - p.filesz).toNat = p.memsz.toNat - p.filesz.toNat :=
        BitVec.toNat_sub_of_le (Nat.le_of_lt more)
      have zeros : p.zeros.length = (p.memsz - p.filesz).toNat := by
        rw [Elf32Phdr.zeros, List.length_replicate, size]
      rw [if_pos rfl, Memory.fillRam_eq, Memory.fillRamLen, Bool.true_and, ← zeros]
      cases room : m.inRam (p.addr + p.filesz) (p.memsz - p.filesz) with
      | false =>
          have refused : m.blockRefused (p.addr + p.filesz) p.zeros.length = true := by
            rw [zeros, ← Bool.not_eq_false, Memory.blockRefused_eq_false_iff,
              Nat.mod_eq_of_lt (BitVec.isLt _), ← Memory.inRam_iff, room]
            exact fun all => Bool.false_ne_true all.2
          rw [refused]
          rfl
      | true =>
          have made : m.blockRefused (p.addr + p.filesz) p.zeros.length = false := by
            rw [Memory.blockRefused_eq_false_iff, zeros, Nat.mod_eq_of_lt (BitVec.isLt _),
              ← Memory.inRam_iff, room, size]
            exact ⟨by omega, rfl⟩
          rw [made, if_neg Bool.false_ne_true, if_pos rfl]
          refine Memory.patch_eq_place _ p.zeros _ fun k => ?_
          rw [Elf32Phdr.zeros, List.length_replicate, List.getElem?_replicate]

theorem Elf32Phdr.written_of_cfg {other : Memory} (same : other.cfg = m.cfg) (p : Elf32Phdr) :
    p.written file other = p.written file m := by
  unfold Elf32Phdr.written
  rw [Memory.inRam_of_cfg same, Memory.inRam_of_cfg same, Memory.index_of_cfg same,
    Memory.index_of_cfg same]

theorem Memory.laid_laid (l k : List (Segment (BitVec 8))) : (m.laid l).laid k = m.laid (l ++ k) :=
  congrArg (Memory.mk m.cfg) (Segment.placeAll_append m.ram l k).symm

/-- One turn of the loop: it returns at a header that stops it, and else lays its segment. -/
theorem Elf32Ehdr.loadPhdr_eq {e : Elf32Ehdr} {i : Nat} {out : Bool × Memory}
    (loads : e.loadPhdr file i m = some out) : ∃ p, e.phdr file i = some p ∧
      out = if p.stops file then (false, m) else (true, m.laid (p.written file m)) := by
  unfold Elf32Ehdr.loadPhdr at loads
  split_ifs at loads
  cases header : readPhdr file (e.phoff.toNat + i * e.phentsize.toNat) with
  | none => rw [header] at loads; cases loads
  | some p =>
      refine ⟨p, header, ?_⟩
      have stops := p.stops_iff file
      rw [header] at loads
      simp only at loads
      split_ifs at loads with other beyond
      · cases loads
        rw [if_neg (mt stops.mp fun stop => other stop.1), Elf32Phdr.written, if_pos other]
        rfl
      · cases loads
        rw [if_pos (stops.mpr ⟨not_not.mp other, beyond⟩)]
      · obtain ⟨middle, segment, rfl⟩ := Option.map_eq_some_iff.mp loads
        rw [if_neg (mt stops.mp fun stop => beyond stop.2), Elf32Phdr.fill_eq,
          Elf32Phdr.load_eq segment, Memory.laid_laid, Elf32Phdr.written, if_neg other]
        rfl

/-- The whole loop: it is done when no header stops it, and the segments before such a
header are laid over the RAM in order. -/
theorem Elf32Ehdr.loadPhdrs_eq {e : Elf32Ehdr} {is : List Nat} {out : Bool × Memory}
    (loads : e.loadPhdrs file is m = some out) :
    out = ((e.phdrs file is).all fun p => !p.stops file,
      m.laid (((e.phdrs file is).takeWhile fun p => !p.stops file).flatMap
        (Elf32Phdr.written file m))) := by
  induction is generalizing m with
  | nil =>
      cases loads
      rfl
  | cons i is ih =>
      rw [Elf32Ehdr.loadPhdrs] at loads
      cases first : e.loadPhdr file i m with
      | none => rw [first] at loads; cases loads
      | some turn =>
          obtain ⟨p, header, rfl⟩ := Elf32Ehdr.loadPhdr_eq first
          have phdrs : e.phdrs file (i :: is) = p :: e.phdrs file is :=
            List.filterMap_cons_some header
          rw [first] at loads
          rw [phdrs, List.all_cons, List.takeWhile_cons]
          cases stops : p.stops file with
          | true =>
              rw [stops, if_pos rfl] at loads
              cases loads
              rfl
          | false =>
              rw [stops, if_neg Bool.false_ne_true] at loads
              have same : Elf32Phdr.written file (m.laid (p.written file m)) = Elf32Phdr.written file m :=
                funext (Elf32Phdr.written_of_cfg rfl)
              have rest := ih loads
              rw [same, Memory.laid_laid] at rest
              exact rest

/-! ## All or nothing -/

variable (file)

/-- The segment as its header describes it, at its addresses. -/
def Elf32Phdr.image (p : Elf32Phdr) : Segment (BitVec 8) :=
  ⟨p.addr.toNat, p.slice file ++ p.zeros⟩

/-- The program headers of the file that name a segment to load. -/
def Elf32Ehdr.loadable (e : Elf32Ehdr) : List Elf32Phdr :=
  (e.phdrs file (List.range e.phnum.toNat)).filter fun p => p.type == ptLoad

/-- The RAM holds the segments of the file, the later over the earlier ones. -/
structure Elf32Ehdr.ImageIn (e : Elf32Ehdr) (m : Memory) : Prop where
  inFile : ∀ p ∈ e.loadable file, p.offset.toNat + p.filesz.toNat ≤ file.length
  bytes : ∀ a v, Segment.latest ((e.loadable file).map (Elf32Phdr.image file)) a = some v →
    m.cfg.ramBase.toNat ≤ a ∧ a < m.cfg.ramEnd ∧ m.ram (a - m.cfg.ramBase.toNat) = v

/-- A `load_elf` that returns false leaves the RAM and the hart, one that returns true
leaves the segments in the RAM and the hart at the entry. -/
def AllOrNothing (s : EmulatorIss) (file : Option (List (BitVec 8))) : Prop :=
  match s.loadElf file with
  | none => False
  | some (false, after) => after.memory = s.memory ∧ after.hart = s.hart
  | some (true, after) => ∃ data e, file = some data ∧ elfHeader data = some e ∧
      e.ImageIn data after.memory ∧ after.hart.pc = e.entry

/-- The segment is empty or lies in the RAM. -/
def Elf32Phdr.Fits (p : Elf32Phdr) (c : Config) : Prop :=
  max p.filesz.toNat p.memsz.toNat = 0 ∨ c.InRange p.addr (max p.filesz.toNat p.memsz.toNat)

/-- What the segments before the first header that stops the loop write is there already. -/
def Elf32Ehdr.PrefixThere (e : Elf32Ehdr) (m : Memory) : Prop :=
  ∀ j v, Segment.latest (((e.phdrs file (List.range e.phnum.toNat)).takeWhile fun p =>
    !p.stops file).flatMap (Elf32Phdr.written file m)) j = some v → m.ram j = v

/-- A load with this header does what its result says: it reads inside the file; when a
header stops it, nothing before that header changes the RAM; else every segment fits the RAM
(or, where the RAM does not end below 2^32 and takes no byte, is there already). -/
def Elf32Ehdr.LoadSound (e : Elf32Ehdr) (m : Memory) : Prop :=
  ReadsInside file m.cfg ∧
    if ∃ p ∈ e.phdrs file (List.range e.phnum.toNat), p.stops file = true then e.PrefixThere file m
    else if m.cfg.ramEnd < 2 ^ 32 then ∀ p ∈ e.loadable file, p.Fits m.cfg
    else e.ImageIn file m

variable {file}

@[simp] theorem Memory.laid_cfg (l : List (Segment (BitVec 8))) : (m.laid l).cfg = m.cfg := rfl

theorem Memory.laid_ram (l : List (Segment (BitVec 8))) (j : Nat) :
    (m.laid l).ram j = (Segment.latest l j).getD (m.ram j) := Segment.placeAll_apply m.ram l j

theorem Memory.laid_eq_self_iff (l : List (Segment (BitVec 8))) :
    m.laid l = m ↔ ∀ j v, Segment.latest l j = some v → m.ram j = v := by
  rw [← Segment.placeAll_eq_self_iff]
  exact ⟨fun same => congrArg Memory.ram same, fun ram => congrArg (Memory.mk m.cfg) ram⟩

/-- A RAM that does not end below 2^32 takes nothing. -/
theorem Elf32Phdr.written_of_top (top : ¬ m.cfg.ramEnd < 2 ^ 32) (p : Elf32Phdr) :
    p.written file m = [] := by
  have none (addr size : U32) : m.inRam addr size = false := by
    rw [← Bool.not_eq_true, Memory.inRam_iff]
    exact fun inside => top inside.2
  unfold Elf32Phdr.written
  rw [none, none, Bool.and_false, if_neg Bool.false_ne_true, if_neg Bool.false_ne_true]
  split_ifs
  · rfl
  · rfl

theorem Elf32Phdr.slice_length {p : Elf32Phdr}
    (inFile : p.offset.toNat + p.filesz.toNat ≤ file.length) :
    (p.slice file).length = p.filesz.toNat := by
  rw [Elf32Phdr.slice, List.length_take, List.length_drop]
  omega

theorem Elf32Phdr.image_length {p : Elf32Phdr}
    (inFile : p.offset.toNat + p.filesz.toNat ≤ file.length) :
    (p.image file).values.length = max p.filesz.toNat p.memsz.toNat := by
  rw [Elf32Phdr.image, List.length_append, Elf32Phdr.slice_length inFile, Elf32Phdr.zeros,
    List.length_replicate]
  omega

/-- A segment that fits is written as its header describes it. -/
theorem Elf32Phdr.latest_written {p : Elf32Phdr} (type : p.type = ptLoad) (fits : p.Fits m.cfg)
    (ends : m.cfg.ramEnd < 2 ^ 32) (inFile : p.offset.toNat + p.filesz.toNat ≤ file.length)
    {a : Nat} (above : m.cfg.ramBase.toNat ≤ a) :
    Segment.latest (p.written file m) (a - m.cfg.ramBase.toNat) = (p.image file).value? a := by
  have length := Elf32Phdr.slice_length inFile
  unfold Elf32Phdr.written Elf32Phdr.image
  rw [if_neg (not_not.mpr type), Segment.value?_append, length, Segment.latest_append]
  rcases fits with empty | ⟨low, high⟩
  · have noFile : p.slice file = [] := List.eq_nil_of_length_eq_zero (by omega)
    have noZeros : p.zeros = [] := by
      rw [Elf32Phdr.zeros, List.replicate_eq_nil_iff]
      omega
    rw [noFile, noZeros]
    split_ifs <;> simp [Segment.latest, Segment.value?_nil]
  · have room : m.inRam p.addr p.filesz = true :=
      (Memory.inRam_iff _ _).mpr ⟨⟨low, by omega⟩, ends⟩
    have first : m.index p.addr = p.addr.toNat - m.cfg.ramBase.toNat := Memory.index_eq low
    rw [room, if_pos rfl, first]
    have front : Segment.latest [⟨p.addr.toNat - m.cfg.ramBase.toNat, p.slice file⟩]
        (a - m.cfg.ramBase.toNat) = (⟨p.addr.toNat, p.slice file⟩ : Segment (BitVec 8)).value? a := by
      rw [Segment.latest, Segment.latest, Option.none_or, Segment.value?_sub low above]
    rw [front]
    congr 1
    by_cases more : p.filesz.toNat < p.memsz.toNat
    · have size : (p.memsz - p.filesz).toNat = p.memsz.toNat - p.filesz.toNat :=
        BitVec.toNat_sub_of_le (Nat.le_of_lt more)
      have next : (p.addr + p.filesz).toNat = p.addr.toNat + p.filesz.toNat := by
        rw [BitVec.toNat_add, Nat.mod_eq_of_lt (by omega)]
      have behind : m.inRam (p.addr + p.filesz) (p.memsz - p.filesz) = true := by
        rw [Memory.inRam_iff]
        refine ⟨⟨by omega, ?_⟩, ends⟩
        rw [next, size]
        omega
      have second : m.index (p.addr + p.filesz) =
          p.addr.toNat + p.filesz.toNat - m.cfg.ramBase.toNat := by
        rw [Memory.index_eq (by omega), next]
      have bss : p.filesz.ult p.memsz = true := by simpa [BitVec.ult] using more
      rw [bss, behind, Bool.and_self, if_pos rfl, second, Segment.latest, Segment.latest,
        Option.none_or, Segment.value?_sub (by omega) above]
    · have bss : p.filesz.ult p.memsz = false := by simpa [BitVec.ult] using more
      have noZeros : p.zeros = [] := by
        rw [Elf32Phdr.zeros, List.replicate_eq_nil_iff]
        omega
      rw [bss, Bool.false_and, if_neg Bool.false_ne_true, noZeros, Segment.value?_nil]
      rfl

/-- The segments that fit are written as their headers describe them. -/
theorem Elf32Phdr.latest_images {l : List Elf32Phdr} (ends : m.cfg.ramEnd < 2 ^ 32)
    (fits : ∀ p ∈ l, p.type = ptLoad → p.Fits m.cfg)
    (inFile : ∀ p ∈ l, p.type = ptLoad → p.offset.toNat + p.filesz.toNat ≤ file.length)
    {a : Nat} (above : m.cfg.ramBase.toNat ≤ a) :
    Segment.latest (l.flatMap (Elf32Phdr.written file m)) (a - m.cfg.ramBase.toNat) =
      Segment.latest ((l.filter fun p => p.type == ptLoad).map (Elf32Phdr.image file)) a := by
  induction l with
  | nil => rfl
  | cons p l ih =>
      rw [List.forall_mem_cons] at fits inFile
      have rest := ih fits.2 inFile.2
      rw [List.flatMap_cons, Segment.latest_append, rest]
      by_cases type : p.type = ptLoad
      · rw [Elf32Phdr.latest_written type (fits.1 type) ends (inFile.1 type) above,
          List.filter_cons_of_pos (by simpa using type), List.map_cons, Segment.latest]
      · have none : p.written file m = [] := by rw [Elf32Phdr.written, if_pos type]
        rw [none, List.filter_cons_of_neg (by simpa using type), Segment.latest, Option.or_none]

/-- A RAM that holds the segments has room for each. -/
theorem Elf32Ehdr.ImageIn.fits {e : Elf32Ehdr} (image : e.ImageIn file m) :
    ∀ p ∈ e.loadable file, p.Fits m.cfg := by
  intro p member
  have length := Elf32Phdr.image_length (image.inFile p member)
  have covered {a : Nat} (low : p.addr.toNat ≤ a)
      (high : a < p.addr.toNat + max p.filesz.toNat p.memsz.toNat) :
      m.cfg.ramBase.toNat ≤ a ∧ a < m.cfg.ramEnd := by
    cases holds : Segment.latest ((e.loadable file).map (Elf32Phdr.image file)) a with
    | none =>
        rw [Segment.latest_eq_none_iff] at holds
        have here := holds _ (List.mem_map_of_mem member)
        rw [Segment.value?_eq_none_iff, length] at here
        simp only [Elf32Phdr.image] at here
        omega
    | some v =>
        obtain ⟨low, high, -⟩ := image.bytes a v holds
        exact ⟨low, high⟩
  by_cases empty : max p.filesz.toNat p.memsz.toNat = 0
  · exact Or.inl empty
  · have first := covered (le_refl _) (by omega)
    have last := covered (a := p.addr.toNat + max p.filesz.toNat p.memsz.toNat - 1)
      (by omega) (by omega)
    exact Or.inr ⟨first.1, by omega⟩

/-- What a load that is done leaves holds the segments exactly when they fit the RAM, or,
where the RAM takes nothing, were there. -/
theorem Elf32Ehdr.imageIn_laid_iff (e : Elf32Ehdr)
    (inFile : ∀ p ∈ e.loadable file, p.Fits m.cfg → m.cfg.ramEnd < 2 ^ 32 →
      p.offset.toNat + p.filesz.toNat ≤ file.length) :
    e.ImageIn file (m.laid ((e.phdrs file (List.range e.phnum.toNat)).flatMap
        (Elf32Phdr.written file m))) ↔
      if m.cfg.ramEnd < 2 ^ 32 then ∀ p ∈ e.loadable file, p.Fits m.cfg else e.ImageIn file m := by
  split_ifs with ends
  · refine ⟨fun image => image.fits, fun fits => ⟨fun p member => inFile p member (fits p member) ends, ?_⟩⟩
    intro a v holds
    have member {p : Elf32Phdr} (there : p ∈ e.phdrs file (List.range e.phnum.toNat))
        (type : p.type = ptLoad) : p ∈ e.loadable file :=
      List.mem_filter.mpr ⟨there, by simpa using type⟩
    have range : m.cfg.ramBase.toNat ≤ a ∧ a < m.cfg.ramEnd := by
      obtain ⟨s, mapped, value⟩ := Segment.latest_mem holds
      obtain ⟨p, there, rfl⟩ := List.mem_map.mp mapped
      have length := Elf32Phdr.image_length (inFile p there (fits p there) ends)
      have covers : ¬ (a < p.addr.toNat ∨
          p.addr.toNat + max p.filesz.toNat p.memsz.toNat ≤ a) := by
        intro outside
        rw [← length] at outside
        rw [(Segment.value?_eq_none_iff (p.image file) a).mpr outside] at value
        cases value
      rcases fits p there with empty | ⟨low, high⟩
      · omega
      · exact ⟨by omega, by omega⟩
    have written : Segment.latest ((e.phdrs file (List.range e.phnum.toNat)).flatMap
        (Elf32Phdr.written file m)) (a - m.cfg.ramBase.toNat) = some v :=
      (Elf32Phdr.latest_images ends (fun p there type => fits p (member there type))
        (fun p there type => inFile p (member there type) (fits p (member there type)) ends)
        range.1).trans holds
    refine ⟨range.1, range.2, ?_⟩
    rw [Memory.laid_cfg, Memory.laid_ram, written]
    rfl
  · have nothing : (e.phdrs file (List.range e.phnum.toNat)).flatMap (Elf32Phdr.written file m) = [] := by
      rw [List.flatMap_eq_nil_iff]
      exact fun p _ => Elf32Phdr.written_of_top ends p
    rw [nothing]
    rfl

/-- In a load that reads inside the file and is done, a segment that fits lies in the file. -/
theorem Elf32Ehdr.segment_inFile {e : Elf32Ehdr} {c : Config} (header : elfHeader file = some e)
    (reads : ReadsInside file c)
    (goes : ∀ p ∈ e.phdrs file (List.range e.phnum.toNat), p.stops file = false) :
    ∀ p ∈ e.loadable file, p.Fits c → c.ramEnd < 2 ^ 32 →
      p.offset.toNat + p.filesz.toNat ≤ file.length := by
  intro p member fits ends
  obtain ⟨there, loads⟩ := List.mem_filter.mp member
  have type : p.type = ptLoad := by simpa using loads
  obtain ⟨i, index, at_⟩ := List.mem_filterMap.mp there
  have below := List.mem_range.mp index
  have reached : e.Reached file 0 i := fun j _ earlier q other =>
    goes q (List.mem_filterMap.mpr ⟨j, List.mem_range.mpr (by omega), other⟩)
  have inside := (reads e header i below reached).2 p at_ type
  have on := goes p there
  have offset := p.offset.isLt
  have sum := BitVec.toNat_add p.offset p.filesz
  by_cases cut : 2 ^ 32 ≤ p.offset.toNat + p.filesz.toNat
  · rcases inside cut with stops | empty | outside | inFile
    · rw [on] at stops
      cases stops
    · rw [empty, BitVec.toNat_ofNat] at cut
      omega
    · refine absurd ⟨?_, ends⟩ outside
      rcases fits with none | ⟨low, high⟩
      · omega
      · exact ⟨low, by omega⟩
    · exact inFile
  · have passes : ¬ file.length < (p.offset + p.filesz).toNat := by
      intro beyond
      rw [(p.stops_iff file).mpr ⟨type, beyond⟩] at on
      cases on
    rw [sum, Nat.mod_eq_of_lt (by omega)] at passes
    omega

theorem allOrNothing_of_refused {s : EmulatorIss} (refused : elfHeader file = none) :
    AllOrNothing s (some file) := by
  have image : loadElfImage file s.memory = some (none, s.memory) := by
    rw [loadElfImage, refused]
  have result : s.loadElf (some file) = some (false, s) := by
    rw [EmulatorIss.loadElf, image]
  unfold AllOrNothing
  rw [result]
  exact ⟨rfl, rfl⟩

theorem allOrNothing_iff_of_header {s : EmulatorIss} {e : Elf32Ehdr}
    (header : elfHeader file = some e) :
    AllOrNothing s (some file) ↔ e.LoadSound file s.memory := by
  have reads := loadElfImage_isSome_iff file s.memory
  have image : loadElfImage file s.memory =
      (e.loadPhdrs file (List.range e.phnum.toNat) s.memory).map fun out =>
        (if out.1 then some e.entry else none, out.2) := by
    rw [loadElfImage, header]
  unfold AllOrNothing Elf32Ehdr.LoadSound EmulatorIss.loadElf
  simp only
  cases loop : e.loadPhdrs file (List.range e.phnum.toNat) s.memory with
  | none =>
      rw [loop] at image
      rw [image] at reads ⊢
      exact iff_of_false not_false fun sound => Bool.false_ne_true (reads.mpr sound.1)
  | some out =>
      rw [loop, Elf32Ehdr.loadPhdrs_eq loop, Option.map_some] at image
      rw [image] at reads ⊢
      have inside := reads.mp rfl
      rw [and_iff_right inside]
      by_cases stop : ∃ p ∈ e.phdrs file (List.range e.phnum.toNat), p.stops file = true
      · have done : ((e.phdrs file (List.range e.phnum.toNat)).all fun p => !p.stops file) = false := by
          obtain ⟨p, member, stops⟩ := stop
          rw [List.all_eq_false]
          exact ⟨p, member, by rw [stops]; exact Bool.false_ne_true⟩
        rw [if_pos stop, done]
        exact (and_iff_left rfl).trans (Memory.laid_eq_self_iff _)
      · have goes : ∀ p ∈ e.phdrs file (List.range e.phnum.toNat), p.stops file = false :=
          fun p member => Bool.eq_false_iff.mpr fun stops => stop ⟨p, member, stops⟩
        have done : ((e.phdrs file (List.range e.phnum.toNat)).all fun p => !p.stops file) = true := by
          rw [List.all_eq_true]
          exact fun p member => by rw [goes p member]; rfl
        have whole : ((e.phdrs file (List.range e.phnum.toNat)).takeWhile fun p => !p.stops file) =
            e.phdrs file (List.range e.phnum.toNat) := by
          rw [List.takeWhile_eq_self_iff]
          exact fun p member => by rw [goes p member]; rfl
        rw [if_neg stop, done, whole,
          ← e.imageIn_laid_iff (Elf32Ehdr.segment_inFile header inside goes)]
        constructor
        · rintro ⟨data, e', opens, same, holds, -⟩
          cases opens
          rw [header] at same
          cases same
          exact holds
        · exact fun holds => ⟨file, e, rfl, header, holds, rfl⟩

/-- A load is all or nothing exactly when its reads stay in the file and its segments fit
the RAM, or those before a header that stops it leave the RAM as it was. -/
theorem loadElf_allOrNothing_iff (s : EmulatorIss) (file : Option (List (BitVec 8))) :
    AllOrNothing s file ↔ ∀ data, file = some data → ∀ e, elfHeader data = some e →
      e.LoadSound data s.memory := by
  cases file with
  | none =>
      have nothing : AllOrNothing s none := by
        unfold AllOrNothing EmulatorIss.loadElf
        exact ⟨rfl, rfl⟩
      exact iff_of_true nothing fun data opens => by cases opens
  | some data =>
      cases header : elfHeader data with
      | none =>
          refine iff_of_true (allOrNothing_of_refused header) fun data' opens e same => ?_
          cases opens
          rw [header] at same
          cases same
      | some e =>
          rw [allOrNothing_iff_of_header header]
          constructor
          · intro sound data' opens e' same
            cases opens
            rw [header] at same
            cases same
            exact sound
          · intro all
            exact all data rfl e header

/-- A file whose second header is refused when the byte of its first is in the RAM. -/
def halfElf : List (BitVec 8) :=
  elfFile 0x20000000#32 [⟨ptLoad, 0x74#32, 0x20000000#32, 0#32, 1#32, 1#32⟩,
    ⟨ptLoad, 0x1000#32, 0x20000004#32, 0#32, 1#32, 1#32⟩] [0xAA#8]

theorem AllOrNothing.of_false {s after : EmulatorIss} {file : Option (List (BitVec 8))}
    (holds : AllOrNothing s file) (loads : s.loadElf file = some (false, after)) :
    after.memory = s.memory := by
  unfold AllOrNothing at holds
  rw [loads] at holds
  exact holds.1

set_option maxRecDepth 4000 in
theorem loadElf_half : ¬ ∀ (s : EmulatorIss) (file : Option (List (BitVec 8))), AllOrNothing s file := by
  intro all
  have result : ((EmulatorIss.create {}).loadElf (some halfElf)).map (fun out =>
      (out.1, out.2.memory.ram 0)) = some (false, 0xAA#8) := by decide
  obtain ⟨⟨done, after⟩, loads, out⟩ := Option.map_eq_some_iff.mp result
  obtain ⟨rfl, byte⟩ := Prod.mk.inj out
  have same := (all _ _).of_false loads
  have zero := congrFun (congrArg Memory.ram same) 0
  rw [byte] at zero
  exact absurd zero (by decide)

end Segments

end NpcMachine.Emulator
