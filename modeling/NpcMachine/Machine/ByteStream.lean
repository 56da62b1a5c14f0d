/-
# Machine.ByteStream -- byte streams that go bad, and little-endian fields

A read fills a buffer from the file.  A file that ends inside the buffer fills its
first bytes only and leaves the stream bad, and a bad stream fills nothing; so every
byte that the file does not have keeps the value the buffer had before.

* `InStream.At.getD`: the bytes of a buffer after a read at offset `o` of the file;
* `InStream.read_front`: a field that was written is read back;
* `write_good`: a stream that is still good wrote everything;
* `getWord_eq_iff`, `getDouble_eq_iff`: little-endian fields by their bytes.
-/
import Mathlib.Data.List.GetD
import NpcMachine.Machine.ByteLanes

namespace NpcMachine.Machine

set_option autoImplicit false

/-! ## Input -/

structure InStream where
  rest : List (BitVec 8)
  good : Bool
  deriving DecidableEq, Repr

namespace InStream

def ofFile (file : List (BitVec 8)) : InStream := ⟨file, true⟩

variable (f : InStream)

/-- The bytes that the next reads can still fill. -/
def left : List (BitVec 8) := if f.good then f.rest else []

/-- A read into a buffer that holds `old`. -/
def read (old : List (BitVec 8)) : List (BitVec 8) × InStream :=
  if f.good then
    (f.rest.take old.length ++ old.drop f.rest.length,
      ⟨f.rest.drop old.length, decide (old.length ≤ f.rest.length)⟩)
  else (old, f)

variable {f}

theorem read_fst (old : List (BitVec 8)) :
    (f.read old).1 = f.left.take old.length ++ old.drop f.left.length := by
  unfold read left
  split_ifs
  · rfl
  · simp

theorem read_good (old : List (BitVec 8)) :
    (f.read old).2.good = true ↔ f.good = true ∧ old.length ≤ f.left.length := by
  unfold read left
  split_ifs with good
  · simp [good]
  · simp [good]

theorem read_left (old : List (BitVec 8)) :
    (f.read old).2.left = f.left.drop old.length := by
  unfold read left
  split_ifs with good whole
  · rfl
  · have short : f.rest.length ≤ old.length := by
      simp only [decide_eq_true_eq] at whole
      omega
    exact (List.drop_eq_nil_of_le short).symm
  · simp

@[simp] theorem read_length (old : List (BitVec 8)) : (f.read old).1.length = old.length := by
  rw [read_fst, List.length_append, List.length_take, List.length_drop]
  omega

/-- A byte of the buffer after a read is the byte of the file, or else the old one. -/
theorem read_getD (old : List (BitVec 8)) {k : Nat} (inside : k < old.length) (d : BitVec 8) :
    (f.read old).1.getD k d = f.left.getD k (old.getD k d) := by
  rw [read_fst]
  by_cases has : k < f.left.length
  · have front : k < (f.left.take old.length).length := by
      rw [List.length_take]
      omega
    rw [List.getD_append _ _ _ _ front, List.getD_eq_getElem _ _ front,
      List.getD_eq_getElem _ _ has, List.getElem_take]
  · have front : (f.left.take old.length).length = f.left.length := by
      rw [List.length_take]
      omega
    rw [List.getD_append_right _ _ _ _ (by omega), front, List.getD_eq_getElem?_getD,
      List.getElem?_drop, Nat.add_sub_cancel' (by omega), List.getD_eq_default _ _ (by omega),
      List.getD_eq_getElem?_getD]

/-- The stream is at offset `o` of the file. -/
def At (f : InStream) (file : List (BitVec 8)) (o : Nat) : Prop :=
  f.left = file.drop o ∧ (f.good = true ↔ o ≤ file.length)

theorem ofFile_at (file : List (BitVec 8)) : (ofFile file).At file 0 :=
  ⟨rfl, fun _ => Nat.zero_le _, fun _ => rfl⟩

/-- The next field starts where the last one ends. -/
theorem At.next {file : List (BitVec 8)} {o : Nat} (there : f.At file o) (old : List (BitVec 8)) :
    (f.read old).2.At file (o + old.length) := by
  obtain ⟨left, good⟩ := there
  constructor
  · rw [read_left, left, List.drop_drop]
  · rw [read_good, good, left, List.length_drop]
    omega

theorem At.getD {file : List (BitVec 8)} {o : Nat} (there : f.At file o) {old : List (BitVec 8)}
    {k : Nat} (inside : k < old.length) (d : BitVec 8) :
    (f.read old).1.getD k d = file.getD (o + k) (old.getD k d) := by
  rw [read_getD old inside, there.1, List.getD_eq_getElem?_getD, List.getElem?_drop,
    ← List.getD_eq_getElem?_getD]

/-- A field at the front of what is left is read whole, and no more. -/
theorem read_front {field after : List (BitVec 8)} (front : f.left = field ++ after)
    {old : List (BitVec 8)} (same : old.length = field.length) :
    (f.read old).1 = field ∧ (f.read old).2.left = after := by
  constructor
  · rw [read_fst, front, same, List.take_left,
      List.drop_eq_nil_of_le (by rw [List.length_append]; omega), List.append_nil]
  · rw [read_left, front, same, List.drop_left]

end InStream

/-! ## Output -/

/-- What was written so far and the bytes that there still is room for. -/
structure OutStream where
  written : List (BitVec 8)
  room : Nat
  good : Bool
  deriving DecidableEq, Repr

namespace OutStream

def onDisk (room : Nat) : OutStream := ⟨[], room, true⟩

variable {f : OutStream}

def write (f : OutStream) (data : List (BitVec 8)) : OutStream :=
  if f.good then
    ⟨f.written ++ data.take f.room, f.room - data.length, decide (data.length ≤ f.room)⟩
  else f

theorem write_good {data : List (BitVec 8)} (good : (f.write data).good = true) :
    f.good = true ∧ (f.write data).written = f.written ++ data := by
  unfold write at good ⊢
  split_ifs at good ⊢ with was
  · refine ⟨was, ?_⟩
    have fits : data.length ≤ f.room := of_decide_eq_true good
    show f.written ++ data.take f.room = f.written ++ data
    rw [List.take_of_length_le fits]
  · exact absurd good was

end OutStream

/-! ## Little-endian fields -/

theorem eq_iff_getD {l m : List (BitVec 8)} (length : l.length = m.length) :
    l = m ↔ ∀ k, k < m.length → l.getD k 0#8 = m.getD k 0#8 := by
  constructor
  · rintro rfl k _
    rfl
  · intro bytes
    refine List.ext_getElem length fun k left right => ?_
    have byte := bytes k right
    rwa [List.getD_eq_getElem _ _ left, List.getD_eq_getElem _ _ right] at byte

/-- An array of `n` words as its bytes. -/
def putWords (words : Nat → BitVec 32) (n : Nat) : List (BitVec 8) :=
  (List.range (4 * n)).map fun k => byteOf (words (k / 4)) (k % 4)

def putDouble (v : BitVec 64) : List (BitVec 8) := (List.range 8).map (byteOf v)

/-- Word `i` of an array. -/
def getWord (l : List (BitVec 8)) (i : Nat) : BitVec 32 := ofBytes fun k => l.getD (4 * i + k) 0#8

def getDouble (l : List (BitVec 8)) : BitVec 64 := getWord l 1 ++ getWord l 0

@[simp] theorem putWords_length (words : Nat → BitVec 32) (n : Nat) :
    (putWords words n).length = 4 * n := by
  simp [putWords]

@[simp] theorem putDouble_length (v : BitVec 64) : (putDouble v).length = 8 := by
  simp [putDouble]

theorem range_map_getD (byte : Nat → BitVec 8) {n k : Nat} (inside : k < n) (d : BitVec 8) :
    ((List.range n).map byte).getD k d = byte k := by
  rw [List.getD_eq_getElem _ _ (by simpa using inside), List.getElem_map, List.getElem_range]

theorem putWords_getD (words : Nat → BitVec 32) {n k : Nat} (inside : k < 4 * n) (d : BitVec 8) :
    (putWords words n).getD k d = byteOf (words (k / 4)) (k % 4) :=
  range_map_getD _ inside d

theorem putDouble_getD (v : BitVec 64) {k : Nat} (inside : k < 8) (d : BitVec 8) :
    (putDouble v).getD k d = byteOf v k :=
  range_map_getD _ inside d

theorem eq_iff_byteOf {n : Nat} (v w : BitVec (8 * n)) :
    v = w ↔ ∀ k, k < n → byteOf v k = byteOf w k := by
  constructor
  · rintro rfl k _
    rfl
  · intro bytes
    apply BitVec.eq_of_getLsbD_eq
    intro i inside
    have bit := congrArg (fun b : BitVec 8 => b.getLsbD (i % 8)) (bytes (i / 8) (by omega))
    have place : 8 * (i / 8) + i % 8 = i := Nat.div_add_mod i 8
    simpa [byteOf, place, Nat.mod_lt] using bit

theorem getWord_eq_iff (l : List (BitVec 8)) (i : Nat) (w : BitVec 32) :
    getWord l i = w ↔ ∀ k, k < 4 → l.getD (4 * i + k) 0#8 = byteOf w k := by
  rw [eq_iff_byteOf (n := 4)]
  refine forall_congr' fun k => forall_congr' fun inside => ?_
  rw [getWord, byteOf_ofBytes _ inside]

/-- Words `a` to `b` of an array. -/
theorem getWords_eq_iff (l : List (BitVec 8)) (words : Nat → BitVec 32) (a b : Nat) :
    (∀ i, a ≤ i → i < b → getWord l i = words i) ↔
      ∀ k, 4 * a ≤ k → k < 4 * b → l.getD k 0#8 = byteOf (words (k / 4)) (k % 4) := by
  constructor
  · intro each k low high
    have byte := (getWord_eq_iff l (k / 4) _).mp (each (k / 4) (by omega) (by omega)) (k % 4)
      (Nat.mod_lt _ (by omega))
    rwa [Nat.div_add_mod] at byte
  · intro bytes i low high
    rw [getWord_eq_iff]
    intro k inside
    have byte := bytes (4 * i + k) (by omega) (by omega)
    have word : (4 * i + k) / 4 = i := by omega
    have place : (4 * i + k) % 4 = k := by omega
    rwa [word, place] at byte

/-- The bytes above those of the lower part. -/
theorem byteOf_append_high {n m : Nat} (x : BitVec n) (y : BitVec (8 * m)) (k : Nat) :
    byteOf (x ++ y) (m + k) = byteOf x k := by
  apply BitVec.eq_of_getLsbD_eq
  intro b small
  have high : ¬ 8 * (m + k) + b < 8 * m := by omega
  have place : 8 * (m + k) + b - 8 * m = 8 * k + b := by omega
  rw [byteOf, byteOf, BitVec.getLsbD_extractLsb', BitVec.getLsbD_extractLsb',
    BitVec.getLsbD_append, if_neg high, place]

theorem getDouble_eq_iff (l : List (BitVec 8)) (v : BitVec 64) :
    getDouble l = v ↔ ∀ k, k < 8 → l.getD k 0#8 = byteOf v k := by
  rw [eq_iff_byteOf (n := 8)]
  refine forall_congr' fun k => forall_congr' fun inside => ?_
  rw [getDouble]
  by_cases low : k < 4
  · rw [byteOf_append _ _ (by omega), getWord, byteOf_ofBytes _ low]
    simp
  · obtain ⟨j, rfl⟩ : ∃ j, k = 4 + j := ⟨k - 4, by omega⟩
    have high := byteOf_append_high (m := 4) (getWord l 1) (getWord l 0) j
    rw [high, getWord, byteOf_ofBytes _ (by omega)]

theorem getWord_putWords (words : Nat → BitVec 32) {n i : Nat} (inside : i < n) :
    getWord (putWords words n) i = words i := by
  rw [getWord_eq_iff]
  intro k small
  have word : (4 * i + k) / 4 = i := by omega
  have place : (4 * i + k) % 4 = k := by omega
  rw [putWords_getD _ (by omega), word, place]

theorem getDouble_putDouble (v : BitVec 64) : getDouble (putDouble v) = v := by
  rw [getDouble_eq_iff]
  intro k inside
  exact putDouble_getD v inside _

end NpcMachine.Machine
