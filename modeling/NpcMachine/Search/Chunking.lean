/-
# Search.Chunking -- the chunks of a text

`chunk_text` of `chunking.py`.  A string is a list of characters, `isSpace` is the white
space of `\s` and `strip`, and `pySlice` is `s[a:b]` with its negative indices.  The loop
over a long paragraph runs on fuel, and a call `Returns` a list when some fuel is enough.

`chunkText_iff`: with a positive size the call returns, with chunks of 1 to
`max_chunk_chars` characters that put the paragraphs together again, exactly when the
overlap is below the size or no paragraph is longer than the size.  Otherwise the window
moves back or stays, and the loop never ends.
-/
import Mathlib.Algebra.GroupWithZero.Nat
import Mathlib.Algebra.Order.BigOperators.Group.List
import Mathlib.Algebra.Order.Group.Nat
import Mathlib.Data.List.DropRight
import Mathlib.Data.List.Forall2

namespace NpcMachine.Search

set_option autoImplicit false

abbrev Str := List Char

/-- `str.isspace`, which is also `\s`. -/
def isSpace (c : Char) : Bool :=
  [0x09, 0x0A, 0x0B, 0x0C, 0x0D, 0x1C, 0x1D, 0x1E, 0x1F, 0x20, 0x85, 0xA0, 0x1680, 0x2000, 0x2001,
    0x2002, 0x2003, 0x2004, 0x2005, 0x2006, 0x2007, 0x2008, 0x2009, 0x200A, 0x2028, 0x2029, 0x202F,
    0x205F, 0x3000].contains c.toNat

def strip (s : Str) : Str := (s.dropWhile isSpace).rdropWhile isSpace

/-- How much of the blanks in front a separator takes: up to their last newline. -/
def separatorLength (s : Str) : Nat := ((s.takeWhile isSpace).rdropWhile (· != '\n')).length

/-- `re.split(r"\n\s*\n", s)`, inside a separator that goes on for `skip` characters. -/
def splitBlank (skip : Nat) : Str → List Str
  | [] => [[]]
  | c :: s =>
      match skip with
      | skip + 1 => splitBlank skip s
      | 0 =>
          if c = '\n' ∧ '\n' ∈ s.takeWhile isSpace then [] :: splitBlank (separatorLength s) s
          else
            match splitBlank 0 s with
            | [] => [[c]]
            | p :: ps => (c :: p) :: ps

/-- `re.sub(r"\s+", " ", s)`. -/
def collapse : Str → Str
  | [] => []
  | c :: s =>
      if isSpace c then
        if s.head?.any isSpace then collapse s else ' ' :: collapse s
      else c :: collapse s

def paragraphs (text : Str) : List Str := splitBlank 0 (strip text)

/-- A paragraph as it is chunked. -/
def normalise (para : Str) : Str := strip (collapse para)

/-- An index of a slice, counted from the end where it is negative. -/
def sliceIndex (s : Str) (i : Int) : Nat :=
  if i < 0 then (i + s.length).toNat else min i.toNat s.length

def pySlice (s : Str) (start stop : Int) : Str :=
  (s.take (sliceIndex s stop)).drop (sliceIndex s start)

/-- The loop over a long paragraph. -/
def overlapSplit (maxChunk overlap : Int) (para : Str) : Nat → Int → Option (List Str)
  | 0, _ => none
  | fuel + 1, start =>
      if start < para.length then
        let stop := start + maxChunk
        let piece := pySlice para start stop
        if para.length ≤ stop then some [piece]
        else (overlapSplit maxChunk overlap para fuel (stop - overlap)).map (piece :: ·)
      else some []

def chunkParagraph (maxChunk overlap : Int) (fuel : Nat) (para : Str) : Option (List Str) :=
  let para := normalise para
  if para = [] then some []
  else if para.length ≤ maxChunk then some [para]
  else overlapSplit maxChunk overlap para fuel 0

def chunkText (maxChunk overlap : Int) (fuel : Nat) (text : Str) : Option (List Str) :=
  ((paragraphs text).mapM (chunkParagraph maxChunk overlap fuel)).map List.flatten

def Returns (maxChunk overlap : Int) (text : Str) (chunks : List Str) : Prop :=
  ∃ fuel, chunkText maxChunk overlap fuel text = some chunks

/-! ## The law -/

/-- The pieces of a paragraph, each after the first without its overlap. -/
def stitch (overlap : Int) : List Str → Str
  | [] => []
  | c :: cs => c ++ (cs.map (List.drop overlap.toNat)).flatten

structure Chunks (maxChunk overlap : Int) (text : Str) (chunks : List Str) : Prop where
  sizes : ∀ c ∈ chunks, 1 ≤ c.length ∧ c.length ≤ maxChunk
  covers : ∃ parts : List (List Str), chunks = parts.flatten ∧
    List.Forall₂ (fun para part => stitch overlap part = normalise para) (paragraphs text) parts

/-! ## Slices -/

theorem pySlice_ofNat (s : Str) (a b : Nat) : pySlice s a b = (s.drop a).take (b - a) := by
  have index : ∀ n : Nat, sliceIndex s n = min n s.length := by
    intro n
    have pos : ¬ (n : Int) < 0 := by omega
    rw [sliceIndex, if_neg pos, Int.toNat_natCast]
  rw [pySlice, index, index, List.drop_take]
  rcases Nat.lt_or_ge a s.length with low | high
  · rw [Nat.min_eq_left (Nat.le_of_lt low)]
    rcases Nat.le_total b s.length with short | long
    · rw [Nat.min_eq_left short]
    · rw [Nat.min_eq_right long, List.take_of_length_le (by rw [List.length_drop]),
        List.take_of_length_le (by rw [List.length_drop]; omega)]
  · rw [List.drop_eq_nil_of_le (by omega), List.drop_eq_nil_of_le high, List.take_nil, List.take_nil]

/-! ## The loop -/

section Loop

variable {maxChunk overlap : Int} {para : Str}

/-- The pieces from `start` on, while the window moves ahead. -/
theorem overlapSplit_some (pos : 1 ≤ maxChunk) (nonneg : 0 ≤ overlap) (ahead : overlap < maxChunk)
    (fuel start : Nat) (inside : start < para.length) (enough : para.length - start < fuel) :
    ∃ c cs, overlapSplit maxChunk overlap para fuel start = some (c :: cs) ∧
      stitch overlap (c :: cs) = para.drop start ∧
      (∀ d ∈ c :: cs, 1 ≤ d.length ∧ d.length ≤ maxChunk) ∧
      (start + overlap.toNat ≤ para.length → overlap.toNat ≤ c.length) := by
  obtain ⟨size, rfl⟩ := Int.eq_ofNat_of_zero_le (Int.le_trans Int.one_nonneg pos)
  obtain ⟨back, rfl⟩ := Int.eq_ofNat_of_zero_le nonneg
  induction fuel generalizing start with
  | zero => omega
  | succ fuel ih =>
      have piece := pySlice_ofNat para start (start + size)
      have width : start + size - start = size := by omega
      rw [width] at piece
      have length : ((para.drop start).take size).length = min size (para.length - start) := by
        rw [List.length_take, List.length_drop]
      have run : (start : Int) < para.length := by omega
      have stop : (start : Int) + (size : Int) = ((start + size : Nat) : Int) := by omega
      rw [overlapSplit, if_pos run]
      simp only [stop, piece]
      by_cases last : para.length ≤ start + size
      · refine ⟨(para.drop start).take size, [], if_pos (by omega), ?_, ?_, ?_⟩
        · rw [stitch, List.map_nil, List.flatten_nil, List.append_nil]
          exact List.take_of_length_le (by rw [List.length_drop]; omega)
        · intro d held
          rw [List.mem_singleton.mp held, length]
          omega
        · intro room
          rw [length, Int.toNat_natCast]
          omega
      · have next : ((start + size : Nat) : Int) - (back : Int) = ((start + size - back : Nat) : Int) := by
          omega
        obtain ⟨c, cs, found, joined, sizes, front⟩ :=
          ih (start + size - back) (by omega) (by omega)
        refine ⟨(para.drop start).take size, c :: cs, ?_, ?_, ?_, ?_⟩
        · rw [if_neg (by omega), next, found]
          rfl
        · -- the overlap is dropped off the first of the later pieces
          have kept := front (by omega)
          rw [Int.toNat_natCast] at kept
          have rest : ((c :: cs).map (List.drop back)).flatten = para.drop (start + size) := by
            have whole := congrArg (List.drop back) joined
            rw [stitch, List.drop_append_of_le_length kept, List.drop_drop, Int.toNat_natCast,
              Nat.sub_add_cancel (by omega)] at whole
            rw [List.map_cons, List.flatten_cons]
            exact whole
          rw [stitch, Int.toNat_natCast, rest, ← List.drop_drop]
          exact List.take_append_drop size (para.drop start)
        · intro d held
          rcases List.mem_cons.mp held with rfl | later
          · rw [length]
            omega
          · exact sizes d later
        · intro room
          rw [length, Int.toNat_natCast]
          omega

/-- A window that does not move ahead never reaches the end. -/
theorem overlapSplit_none (behind : maxChunk ≤ overlap) (long : maxChunk < para.length) (fuel : Nat)
    {start : Int} (front : start ≤ 0) (some : para ≠ []) :
    overlapSplit maxChunk overlap para fuel start = none := by
  have pos := List.length_pos_iff.mpr some
  induction fuel generalizing start with
  | zero => rfl
  | succ fuel ih =>
      rw [overlapSplit, if_pos (by omega)]
      simp only [show ¬ (para.length : Int) ≤ start + maxChunk by omega, if_false]
      rw [ih (by omega)]
      rfl

end Loop

/-! ## Enough fuel -/

theorem overlapSplit_enough {maxChunk overlap : Int} {para : Str} (ahead : overlap < maxChunk)
    (fuel : Nat) (start : Int) (enough : ((para.length : Int) - start).toNat < fuel) :
    ∃ pieces, overlapSplit maxChunk overlap para fuel start = some pieces := by
  induction fuel generalizing start with
  | zero => omega
  | succ fuel ih =>
      rw [overlapSplit]
      by_cases inside : start < para.length
      · rw [if_pos inside]
        by_cases last : (para.length : Int) ≤ start + maxChunk
        · exact ⟨_, if_pos last⟩
        · obtain ⟨pieces, found⟩ := ih (start + maxChunk - overlap) (by omega)
          refine ⟨pySlice para start (start + maxChunk) :: pieces, (if_neg last).trans ?_⟩
          rw [found]
          rfl
      · exact ⟨[], if_neg inside⟩

theorem overlapSplit_mono {maxChunk overlap : Int} {para : Str} {pieces : List Str} (fuel more : Nat)
    (start : Int) (found : overlapSplit maxChunk overlap para fuel start = some pieces) :
    overlapSplit maxChunk overlap para (fuel + more) start = some pieces := by
  induction fuel generalizing start pieces with
  | zero => cases found
  | succ fuel ih =>
      have next : fuel + 1 + more = (fuel + more) + 1 := by omega
      rw [next, overlapSplit]
      rw [overlapSplit] at found
      split_ifs at found ⊢ with inside
      · simp only at found ⊢
        split_ifs at found ⊢ with last
        · exact found
        · obtain ⟨rest, same, rfl⟩ := Option.map_eq_some_iff.mp found
          rw [ih _ same]
          rfl
      · exact found

/-- Fuel for each paragraph of a text. -/
def fuelFor (text : Str) : Nat := ((paragraphs text).map fun para => (normalise para).length).sum + 1

theorem lt_fuelFor {text para : Str} (held : para ∈ paragraphs text) :
    (normalise para).length < fuelFor text :=
  Nat.lt_succ_of_le (List.le_sum_of_mem
    (List.mem_map_of_mem (f := fun para => (normalise para).length) held))

theorem chunkParagraph_fuel {maxChunk overlap : Int} {para : Str} {part : List Str} {fuel more : Nat}
    (found : chunkParagraph maxChunk overlap fuel para = some part)
    (enough : (normalise para).length < more) :
    chunkParagraph maxChunk overlap more para = some part := by
  simp only [chunkParagraph] at found ⊢
  split_ifs at found ⊢ with empty short
  · exact found
  · exact found
  · have ahead : overlap < maxChunk := by
      by_contra behind
      rw [overlapSplit_none (by omega) (by omega) fuel (Int.le_refl 0) empty] at found
      cases found
    have room : (((normalise para).length : Int) - 0).toNat < more := by omega
    obtain ⟨other, run⟩ := overlapSplit_enough ahead more 0 room
    have left := overlapSplit_mono fuel more 0 found
    have right := overlapSplit_mono more fuel 0 run
    rw [Nat.add_comm, left] at right
    rw [run, right]

theorem mapM_congr {α β : Type} {f g : α → Option β} {xs : List α} {ys : List β}
    (found : xs.mapM f = some ys) (each : ∀ x ∈ xs, ∀ y, f x = some y → g x = some y) :
    xs.mapM g = some ys := by
  induction xs generalizing ys with
  | nil => exact found
  | cons x xs ih =>
      rw [List.mapM_cons] at found ⊢
      cases here : f x with
      | none => simp [here] at found
      | some y =>
          cases rest : xs.mapM f with
          | none => simp [here, rest] at found
          | some zs =>
              rw [here, rest] at found
              rw [each x List.mem_cons_self y here,
                ih rest fun z held => each z (List.mem_cons_of_mem _ held)]
              exact found

/-- A call that returns at all returns on this fuel. -/
theorem returns_iff (maxChunk overlap : Int) (text : Str) (chunks : List Str) :
    Returns maxChunk overlap text chunks ↔
      chunkText maxChunk overlap (fuelFor text) text = some chunks := by
  constructor
  · rintro ⟨fuel, found⟩
    obtain ⟨parts, mapped, rfl⟩ := Option.map_eq_some_iff.mp found
    have same := mapM_congr mapped fun para held part here =>
      chunkParagraph_fuel here (lt_fuelFor held)
    rw [chunkText, same]
    rfl
  · intro found
    exact ⟨_, found⟩

/-! ## Paragraphs -/

theorem chunkParagraph_some {maxChunk overlap : Int} (pos : 1 ≤ maxChunk) (nonneg : 0 ≤ overlap)
    {para : Str} (fits : overlap < maxChunk ∨ (normalise para).length ≤ maxChunk) {fuel : Nat}
    (enough : (normalise para).length < fuel) :
    ∃ part, chunkParagraph maxChunk overlap fuel para = some part ∧
      stitch overlap part = normalise para ∧ ∀ c ∈ part, 1 ≤ c.length ∧ c.length ≤ maxChunk := by
  unfold chunkParagraph
  by_cases empty : normalise para = []
  · exact ⟨[], by simp [empty], empty.symm, fun c none => absurd none List.not_mem_nil⟩
  · have some := List.length_pos_iff.mpr empty
    by_cases short : (normalise para).length ≤ maxChunk
    · refine ⟨[normalise para], by simp [empty, short], ?_, ?_⟩
      · rw [stitch, List.map_nil, List.flatten_nil, List.append_nil]
      · intro c held
        rw [List.mem_singleton.mp held]
        omega
    · have ahead := fits.resolve_right short
      obtain ⟨c, cs, found, joined, sizes, -⟩ := overlapSplit_some pos nonneg ahead fuel 0
        some (by omega)
      refine ⟨c :: cs, ?_, joined, sizes⟩
      simp only [empty, short, if_false]
      exact found

theorem chunkParagraph_none {maxChunk overlap : Int} (behind : maxChunk ≤ overlap) {para : Str}
    (pos : 1 ≤ maxChunk) (long : maxChunk < (normalise para).length) (fuel : Nat) :
    chunkParagraph maxChunk overlap fuel para = none := by
  have some : normalise para ≠ [] := by
    intro empty
    rw [empty, List.length_nil] at long
    omega
  unfold chunkParagraph
  simp only [some, show ¬ ((normalise para).length : Int) ≤ maxChunk by omega, if_false]
  exact overlapSplit_none behind long fuel (Int.le_refl 0) some

/-- A list mapped with no result missing. -/
theorem mapM_some {α β : Type} {f : α → Option β} {Q : α → β → Prop} {xs : List α}
    (each : ∀ x ∈ xs, ∃ y, f x = some y ∧ Q x y) : ∃ ys, xs.mapM f = some ys ∧ List.Forall₂ Q xs ys := by
  induction xs with
  | nil => exact ⟨[], rfl, .nil⟩
  | cons x xs ih =>
      obtain ⟨y, found, good⟩ := each x List.mem_cons_self
      obtain ⟨ys, rest, all⟩ := ih fun z held => each z (List.mem_cons_of_mem _ held)
      exact ⟨y :: ys, by simp [List.mapM_cons, found, rest], .cons good all⟩

theorem mapM_none {α β : Type} {f : α → Option β} {xs : List α} {x : α} (held : x ∈ xs)
    (missing : f x = none) : xs.mapM f = none := by
  induction xs with
  | nil => cases held
  | cons y xs ih =>
      rw [List.mapM_cons]
      rcases List.mem_cons.mp held with rfl | later
      · rw [missing]
        rfl
      · rw [ih later]
        cases f y <;> rfl

theorem forall₂_flatten {P : Str → Prop} {Q : Str → List Str → Prop} {ps : List Str}
    {parts : List (List Str)} (all : List.Forall₂ Q ps parts)
    (each : ∀ p part, Q p part → ∀ c ∈ part, P c) : ∀ c ∈ parts.flatten, P c := by
  induction all with
  | nil => exact fun c none => absurd none List.not_mem_nil
  | cons good _ ih =>
      intro c held
      rw [List.flatten_cons, List.mem_append] at held
      rcases held with here | later
      · exact each _ _ good c here
      · exact ih c later

/-- `chunk_text` ends with chunks of the right sizes that cover the text exactly when the
window moves ahead or is never moved. -/
theorem chunkText_iff (text : Str) (maxChunk overlap : Int) (pos : 1 ≤ maxChunk)
    (nonneg : 0 ≤ overlap) :
    (∃ chunks, Returns maxChunk overlap text chunks ∧ Chunks maxChunk overlap text chunks) ↔
      overlap < maxChunk ∨ ∀ para ∈ paragraphs text, (normalise para).length ≤ maxChunk := by
  constructor
  · rintro ⟨chunks, ⟨fuel, found⟩, -⟩
    by_contra behind
    obtain ⟨back, some⟩ := not_or.mp behind
    push Not at some
    obtain ⟨para, held, long⟩ := some
    rw [chunkText, mapM_none held (chunkParagraph_none (Int.not_lt.mp back) pos long fuel)] at found
    cases found
  · intro fits
    have each : ∀ para ∈ paragraphs text, ∃ part,
        chunkParagraph maxChunk overlap (fuelFor text) para = some part ∧
          (stitch overlap part = normalise para ∧ ∀ c ∈ part, 1 ≤ c.length ∧ c.length ≤ maxChunk) :=
      fun para held =>
        chunkParagraph_some pos nonneg (fits.imp_right fun all => all para held) (lt_fuelFor held)
    obtain ⟨parts, found, all⟩ := mapM_some each
    refine ⟨parts.flatten, ⟨_, by rw [chunkText, found]; rfl⟩, ?_, parts, rfl, ?_⟩
    · exact forall₂_flatten all fun _ _ good => good.2
    · exact all.imp fun _ _ good => good.1

/-- Two paragraphs in windows of four characters that share two. -/
theorem chunkText_two :
    ∃ chunks, Returns 4 2 "hello world\n\nab".toList chunks ∧
      Chunks 4 2 "hello world\n\nab".toList chunks :=
  (chunkText_iff "hello world\n\nab".toList 4 2 (by decide) (by decide)).mpr (Or.inl (by decide))

/-- An overlap as large as the chunks: no list is ever returned. -/
theorem chunkText_stuck :
    ¬ ∀ (text : Str) (maxChunk overlap : Int), 1 ≤ maxChunk → 0 ≤ overlap →
      ∃ chunks, Returns maxChunk overlap text chunks ∧ Chunks maxChunk overlap text chunks := by
  intro all
  obtain ⟨chunks, ⟨fuel, found⟩, -⟩ := all "ab".toList 1 1 (by decide) (by decide)
  have held : "ab".toList ∈ paragraphs "ab".toList := by decide
  rw [chunkText, mapM_none held (chunkParagraph_none (by decide) (by decide) (by decide) fuel)] at found
  cases found

end NpcMachine.Search
