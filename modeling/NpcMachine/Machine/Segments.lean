/-
# Machine.Segments -- runs of values laid over a memory

A memory is a function from indices to values.  A segment is a run of values from an
index on; `place` lays it over a memory and `placeAll` lays several, the later over the
earlier ones.  `latest` is the value that the last segment over an index has there.

* `placeAll_apply`: after the segments an index holds its latest value, or what it held;
* `placeAll_eq_self_iff`: they change nothing exactly when every latest value is there.

`leAt` is the little-endian value of bytes, `wordSegment` the bytes of a word.
-/
import NpcMachine.Machine.ByteLanes

namespace NpcMachine.Machine

set_option autoImplicit false

universe u

structure Segment (α : Type u) where
  start : Nat
  values : List α

namespace Segment

variable {α : Type u}

def value? (s : Segment α) (a : Nat) : Option α :=
  if s.start ≤ a then s.values[a - s.start]? else none

def place (f : Nat → α) (s : Segment α) : Nat → α := fun a => (s.value? a).getD (f a)

def placeAll (f : Nat → α) (l : List (Segment α)) : Nat → α := l.foldl place f

def latest : List (Segment α) → Nat → Option α
  | [], _ => none
  | s :: rest, a => (latest rest a).or (s.value? a)

theorem value?_eq_none_iff (s : Segment α) (a : Nat) :
    s.value? a = none ↔ a < s.start ∨ s.start + s.values.length ≤ a := by
  unfold value?
  split_ifs with low
  · rw [List.getElem?_eq_none_iff]
    omega
  · exact iff_of_true rfl (Or.inl (by omega))

theorem value?_nil (start a : Nat) : (⟨start, []⟩ : Segment α).value? a = none := by
  rw [value?_eq_none_iff]
  simp only [List.length_nil]
  omega

theorem place_apply (f : Nat → α) (s : Segment α) (a : Nat) :
    place f s a = (s.value? a).getD (f a) := rfl

theorem place_nil (f : Nat → α) (start : Nat) : place f ⟨start, []⟩ = f := by
  funext a
  rw [place_apply, value?_nil]
  rfl

theorem placeAll_cons (f : Nat → α) (s : Segment α) (l : List (Segment α)) :
    placeAll f (s :: l) = placeAll (place f s) l := rfl

theorem placeAll_append (f : Nat → α) (l k : List (Segment α)) :
    placeAll f (l ++ k) = placeAll (placeAll f l) k := List.foldl_append

theorem latest_append (l k : List (Segment α)) (a : Nat) :
    latest (l ++ k) a = (latest k a).or (latest l a) := by
  induction l with
  | nil => simp [latest]
  | cons s l ih => rw [List.cons_append, latest, latest, ih, Option.or_assoc]

theorem latest_mem {l : List (Segment α)} {a : Nat} {v : α} (holds : latest l a = some v) :
    ∃ s ∈ l, s.value? a = some v := by
  induction l with
  | nil => cases holds
  | cons s l ih =>
      rw [latest, Option.or_eq_some_iff] at holds
      rcases holds with later | ⟨-, here⟩
      · obtain ⟨t, member, value⟩ := ih later
        exact ⟨t, List.mem_cons_of_mem s member, value⟩
      · exact ⟨s, List.mem_cons_self, here⟩

theorem latest_eq_none_iff (l : List (Segment α)) (a : Nat) :
    latest l a = none ↔ ∀ s ∈ l, s.value? a = none := by
  induction l with
  | nil => simp [latest]
  | cons s l ih =>
      rw [latest, Option.or_eq_none_iff, ih, List.forall_mem_cons]
      exact And.comm

/-- A segment is its front and what follows it. -/
theorem value?_append (start : Nat) (l k : List α) (a : Nat) :
    (⟨start, l ++ k⟩ : Segment α).value? a =
      ((⟨start + l.length, k⟩ : Segment α).value? a).or ((⟨start, l⟩ : Segment α).value? a) := by
  simp only [value?]
  by_cases low : start ≤ a
  · by_cases front : a < start + l.length
    · have inside : a - start < l.length := by omega
      rw [if_pos low, if_neg (by omega), if_pos low, List.getElem?_append_left inside]
      rfl
    · have offset : a - start - l.length = a - (start + l.length) := by omega
      have beyond : l[a - start]? = none := List.getElem?_eq_none (by omega)
      rw [if_pos low, if_pos (by omega), if_pos low, beyond, Option.or_none,
        List.getElem?_append_right (by omega), offset]
  · rw [if_neg low, if_neg (by omega), if_neg low]
    rfl

/-- Counting the indices from another origin. -/
theorem value?_sub {start base a : Nat} (below : base ≤ start) (low : base ≤ a) (l : List α) :
    (⟨start - base, l⟩ : Segment α).value? (a - base) = (⟨start, l⟩ : Segment α).value? a := by
  have offset : a - base - (start - base) = a - start := by omega
  unfold value?
  simp only [offset]
  by_cases reached : start ≤ a
  · rw [if_pos (by omega), if_pos reached]
  · rw [if_neg (by omega), if_neg reached]

/-- After the segments an index holds its latest value. -/
theorem placeAll_apply (f : Nat → α) (l : List (Segment α)) (a : Nat) :
    placeAll f l a = (latest l a).getD (f a) := by
  induction l generalizing f with
  | nil => rfl
  | cons s l ih =>
      rw [placeAll_cons, ih, latest, place_apply]
      cases latest l a <;> rfl

theorem placeAll_eq_self_iff (f : Nat → α) (l : List (Segment α)) :
    placeAll f l = f ↔ ∀ a v, latest l a = some v → f a = v := by
  constructor
  · intro same a v holds
    rw [← congrFun same a, placeAll_apply, holds]
    rfl
  · intro there
    funext a
    rw [placeAll_apply]
    cases holds : latest l a with
    | none => rfl
    | some v => exact (there a v holds).symm

end Segment

/-! ## Little-endian words -/

/-- The little-endian value of the `n` bytes from index `p`. -/
def leAt (f : Nat → BitVec 8) (p : Nat) : Nat → Nat
  | 0 => 0
  | n + 1 => leAt f p n + (f (p + n)).toNat * 2 ^ (8 * n)

/-- The bytes of a word from `start` on. -/
def wordSegment (start n : Nat) (v : BitVec 32) : Segment (BitVec 8) :=
  ⟨start, (List.range n).map (byteOf v)⟩

theorem wordSegment_value? (start n : Nat) (v : BitVec 32) (a : Nat) :
    (wordSegment start n v).value? a =
      if start ≤ a ∧ a < start + n then some (byteOf v (a - start)) else none := by
  by_cases low : start ≤ a
  · by_cases high : a < start + n
    · have below : a - start < n := by omega
      simp [wordSegment, Segment.value?, low, high, below]
    · have beyond : n ≤ a - start := by omega
      simp [wordSegment, Segment.value?, low, high, beyond]
  · simp [wordSegment, Segment.value?, low]

end NpcMachine.Machine
