/-
# Klib.Vsnprintf -- the bounded printers of klib

`vsnprintf` folds `printf_putch` over the characters of the formatter: the count always
goes up, and a character is stored while the count is below the limit.

A format is written as `Piece`s, and `textOf` is its text without a terminator.  The
formatter puts that text and then the terminator of the format (`printfBackend_eq`), which
is stored and counted like any other character.  So `vsnprintf` meets its law for the text
with a terminator of its own (`vsnprintf_law`), and for the text itself never
(`vsnprintf_never`).
-/
import Mathlib.Data.List.GetD
import NpcMachine.Klib.Printf
import NpcMachine.Machine.ByteCopy
import NpcMachine.Machine.ByteLanes

namespace NpcMachine.Klib

open NpcMachine.Machine

set_option autoImplicit false

/-- `printf_state_t`; `putch` says that there is a function to put characters with, and
`console` is what it was given. -/
structure PrintState where
  dest : BitVec 32
  count : BitVec 32 := 0#32
  maxCount : BitVec 32
  putch : Bool
  mem : Bytes
  console : CStr := []

def printfPutch (s : PrintState) (ch : BitVec 8) : PrintState :=
  let s :=
    if s.count < s.maxCount then
      if s.putch then { s with console := s.console ++ [ch] }
      else { s with mem := Function.update s.mem (s.dest + s.count) ch }
    else s
  { s with count := s.count + 1#32 }

/-- The part of `vsnprintf` behind the formatter, which puts `text`. -/
def storeText (m : Bytes) (out n : BitVec 32) (text : CStr) : BitVec 32 × Bytes :=
  let state := text.foldl printfPutch
    { dest := out, maxCount := if 0#32 < n then n - 1#32 else 0#32, putch := false, mem := m }
  if 0#32 < n then
    let term := if state.count < n - 1#32 then state.count else n - 1#32
    (state.count, Function.update state.mem (out + term) 0#8)
  else (state.count, state.mem)

def vsnprintf (m : Bytes) (out n : BitVec 32) (fmt : CStr) (args : List Arg) :
    Option (BitVec 32 × Bytes) := (printfBackend fmt args).map (storeText m out n)

def sprintf (m : Bytes) (out : BitVec 32) (fmt : CStr) (args : List Arg) :
    Option (BitVec 32 × Bytes) := vsnprintf m out 0xFFFFFFFF#32 fmt args

/-! ## Formats -/

inductive Piece where
  | char (c : BitVec 8)
  | conv (d : Spec)

namespace Piece

def Wf : Piece → Prop
  | char c => c ≠ chr '%' ∧ c ≠ 0#8
  | conv d => d.Wf

def render : Piece → CStr
  | char c => [c]
  | conv d => d.render

end Piece

/-- The formatter's own text of a format for the arguments, without a terminator: a conversion
counts with the characters that the code makes of it. -/
def textOf : List Piece → List Arg → Option CStr
  | [], _ => some []
  | .char c :: ps, args => (textOf ps args).map (c :: ·)
  | .conv d :: ps, args => (d.convert args).bind fun out => (textOf ps out.2).map (out.1 ++ ·)

theorem formatLoop_pieces (ps : List Piece) (wf : ∀ p ∈ ps, p.Wf) (args : List Arg) {fuel : Nat}
    (enough : (ps.flatMap Piece.render).length < fuel) :
    formatLoop fuel (ps.flatMap Piece.render ++ [0#8]) args = (textOf ps args).map (· ++ [0#8]) := by
  induction ps generalizing args fuel with
  | nil =>
      obtain _ | fuel := fuel
      · omega
      · rw [List.flatMap_nil, List.nil_append, formatLoop_char fuel [] args (by decide), formatLoop_nil]
        rfl
  | cons p ps ih =>
      have rest := fun args => @ih (fun q held => wf q (List.mem_cons_of_mem _ held)) args
      have here := wf p List.mem_cons_self
      rw [List.flatMap_cons, List.length_append] at enough
      obtain _ | fuel := fuel
      · omega
      rw [List.flatMap_cons, List.append_assoc]
      cases p with
      | char c =>
          rw [Piece.render] at enough ⊢
          rw [List.length_singleton] at enough
          rw [List.singleton_append, formatLoop_char fuel _ args here.1, rest args (by omega), textOf]
          cases textOf ps args <;> rfl
      | conv d =>
          have some : 0 < d.render.length := Nat.succ_pos _
          rw [Piece.render] at enough ⊢
          rw [formatLoop_spec fuel here, textOf]
          cases d.convert args with
          | none => rfl
          | some out =>
              rw [Option.bind_some, Option.bind_some, rest out.2 (by omega)]
              cases textOf ps out.2 <;> simp

/-- The formatter puts the text and the terminator of the format. -/
theorem printfBackend_eq (ps : List Piece) (wf : ∀ p ∈ ps, p.Wf) (args : List Arg) :
    printfBackend (ps.flatMap Piece.render) args = (textOf ps args).map (· ++ [0#8]) :=
  formatLoop_pieces ps wf args (Nat.lt_succ_self _)

/-! ## Putting characters -/

section Putting

variable {s : PrintState}

theorem printfPutch_frame (s : PrintState) (ch : BitVec 8) :
    (printfPutch s ch).dest = s.dest ∧ (printfPutch s ch).maxCount = s.maxCount ∧
      (printfPutch s ch).putch = s.putch ∧ (printfPutch s ch).count = s.count + 1#32 := by
  unfold printfPutch
  split_ifs <;> exact ⟨rfl, rfl, rfl, rfl⟩

theorem printfPutch_mem {s : PrintState} (store : s.putch = false) (ch : BitVec 8) (a : BitVec 32) :
    (printfPutch s ch).mem a =
      if s.count.toNat < s.maxCount.toNat ∧ (a - s.dest).toNat = s.count.toNat then ch
      else s.mem a := by
  have place : a = s.dest + s.count ↔ (a - s.dest).toNat = s.count.toNat := by
    have far := eq_add_iff a s.dest s.count.isLt
    rwa [BitVec.ofNat_toNat, BitVec.setWidth_eq] at far
  unfold printfPutch
  by_cases room : s.count < s.maxCount
  · simp only [room, store, Bool.false_eq_true, if_true, if_false, BitVec.lt_def.mp room, true_and]
    by_cases here : (a - s.dest).toNat = s.count.toNat
    · rw [if_pos here, place.mpr here, Function.update_self]
    · rw [if_neg here, Function.update_of_ne fun same => here (place.mp same)]
  · have full : ¬ s.count.toNat < s.maxCount.toNat := fun low => room (BitVec.lt_def.mpr low)
    simp only [room, full, if_false, false_and]

theorem count_foldl (text : CStr) (s : PrintState) :
    (text.foldl printfPutch s).count = s.count + BitVec.ofNat 32 text.length := by
  induction text generalizing s with
  | nil => exact (BitVec.add_zero _).symm
  | cons c text ih =>
      have one : 1#32 + BitVec.ofNat 32 text.length = BitVec.ofNat 32 (text.length + 1) := by
        rw [Nat.add_comm, BitVec.ofNat_add]
      rw [List.foldl_cons, ih, (printfPutch_frame s c).2.2.2, BitVec.add_assoc, one, List.length_cons]

/-- The characters are stored from the count on, up to the limit. -/
theorem mem_foldl (text : CStr) (s : PrintState) (store : s.putch = false)
    (room : s.count.toNat + text.length < 2 ^ 32) (a : BitVec 32) :
    (text.foldl printfPutch s).mem a =
      if s.count.toNat ≤ (a - s.dest).toNat ∧
          (a - s.dest).toNat < min (s.count.toNat + text.length) s.maxCount.toNat then
        text.getD ((a - s.dest).toNat - s.count.toNat) 0#8
      else s.mem a := by
  induction text generalizing s with
  | nil =>
      have none : ¬ (s.count.toNat ≤ (a - s.dest).toNat ∧
          (a - s.dest).toNat < min (s.count.toNat + 0) s.maxCount.toNat) := by omega
      exact (if_neg none).symm
  | cons c text ih =>
      obtain ⟨dest, maxCount, putch, count⟩ := printfPutch_frame s c
      rw [List.length_cons] at room
      have one : (1#32).toNat = 1 := rfl
      have next : (printfPutch s c).count.toNat = s.count.toNat + 1 := by
        rw [count, BitVec.toNat_add_of_lt (by omega), one]
      rw [List.foldl_cons, ih _ (putch.trans store) (by omega), next, dest, maxCount,
        printfPutch_mem store, List.length_cons]
      generalize (a - s.dest).toNat = k
      rcases Nat.lt_trichotomy k s.count.toNat with before | here | after
      · rw [if_neg (by omega), if_neg (by omega), if_neg (by omega)]
      · subst here
        rw [if_neg (by omega), Nat.sub_self, List.getD_cons_zero]
        by_cases inside : s.count.toNat < s.maxCount.toNat
        · rw [if_pos ⟨inside, rfl⟩, if_pos (by omega)]
        · rw [if_neg (by omega), if_neg (by omega)]
      · have index : k - s.count.toNat = k - (s.count.toNat + 1) + 1 := by omega
        rw [index, List.getD_cons_succ]
        by_cases inside : k < min (s.count.toNat + 1 + text.length) s.maxCount.toNat
        · rw [if_pos (by omega), if_pos (by omega)]
        · rw [if_neg (by omega), if_neg (by omega), if_neg (by omega)]

end Putting

/-! ## The law of vsnprintf -/

/-- Where the terminator of a text belongs. -/
def termIndex (T : CStr) (n : BitVec 32) : Nat := min T.length (n.toNat - 1)

structure VsnprintfLaw (T : CStr) (m : Bytes) (out n : BitVec 32) (reply : BitVec 32 × Bytes) :
    Prop where
  returned : reply.1 = BitVec.ofNat 32 T.length
  text : n ≠ 0#32 → ∀ i, i < termIndex T n → reply.2 (out + BitVec.ofNat 32 i) = T.getD i 0#8
  terminated : n ≠ 0#32 → reply.2 (out + BitVec.ofNat 32 (termIndex T n)) = 0#8
  kept : ∀ a, n = 0#32 ∨ termIndex T n < (a - out).toNat → reply.2 a = m a

/-- `sprintf` writes the text and one terminator. -/
structure SprintfLaw (T : CStr) (m : Bytes) (out : BitVec 32) (reply : BitVec 32 × Bytes) : Prop where
  text : ∀ i, i < T.length → reply.2 (out + BitVec.ofNat 32 i) = T.getD i 0#8
  terminated : reply.2 (out + BitVec.ofNat 32 T.length) = 0#8
  kept : ∀ a, T.length < (a - out).toNat → reply.2 a = m a

section Law

variable {m : Bytes} {out n : BitVec 32} {text : CStr}

theorem storeText_count (m : Bytes) (out n : BitVec 32) (text : CStr) :
    (storeText m out n text).1 = BitVec.ofNat 32 text.length := by
  unfold storeText
  split_ifs <;> exact (count_foldl text _).trans (BitVec.zero_add _)

theorem storeText_none (small : text.length < 2 ^ 32) : (storeText m out 0#32 text).2 = m := by
  funext a
  have zero : (0#32).toNat = 0 := rfl
  have empty : ¬ 0#32 < 0#32 := BitVec.lt_irrefl _
  rw [storeText, if_neg empty, if_neg empty]
  refine (mem_foldl text _ rfl (by simpa using small) a).trans (if_neg ?_)
  simp only [zero]
  omega

theorem storeText_mem (small : text.length < 2 ^ 32) (some : n ≠ 0#32) (a : BitVec 32) :
    (storeText m out n text).2 a =
      if (a - out).toNat < termIndex text n then text.getD (a - out).toNat 0#8
      else if (a - out).toNat = termIndex text n then 0#8 else m a := by
  have zero : (0#32).toNat = 0 := rfl
  have one : (1#32).toNat = 1 := rfl
  have pos : 0 < n.toNat := by
    rcases Nat.eq_zero_or_pos n.toNat with none | pos
    · exact absurd (BitVec.eq_of_toNat_eq none) some
    · exact pos
  have less : (n - 1#32).toNat = n.toNat - 1 := BitVec.toNat_sub_of_le pos
  have length : (BitVec.ofNat 32 text.length).toNat = text.length := by
    rw [BitVec.toNat_ofNat, Nat.mod_eq_of_lt small]
  have count := fun s => count_foldl text s
  have term : (if BitVec.ofNat 32 text.length < n - 1#32 then BitVec.ofNat 32 text.length
      else n - 1#32) = BitVec.ofNat 32 (termIndex text n) := by
    apply BitVec.eq_of_toNat_eq
    have bound := n.isLt
    rw [BitVec.toNat_ofNat, Nat.mod_eq_of_lt (by unfold termIndex; omega), termIndex]
    by_cases below : text.length < n.toNat - 1
    · rw [if_pos (by rw [BitVec.lt_def, length, less]; exact below), length]
      omega
    · rw [if_neg (by rw [BitVec.lt_def, length, less]; exact below), less]
      omega
  have inside : termIndex text n < 2 ^ 32 := by
    unfold termIndex
    omega
  have folded : min text.length (n.toNat - 1) = termIndex text n := rfl
  have mem := mem_foldl text
    { dest := out, maxCount := n - 1#32, putch := false, mem := m } rfl (by simpa using small) a
  have nonempty : 0#32 < n := by
    rw [BitVec.lt_def, zero]
    exact pos
  rw [storeText, if_pos nonempty, if_pos nonempty]
  simp only [count, BitVec.zero_add, term]
  by_cases here : (a - out).toNat = termIndex text n
  · rw [if_neg (by omega), if_pos here, (eq_add_iff a out inside).mpr here, Function.update_self]
  · rw [if_neg here, Function.update_of_ne fun same => here ((eq_add_iff a out inside).mp same), mem]
    simp only [zero, less, Nat.zero_le, true_and, Nat.zero_add, Nat.sub_zero, folded]

/-- What is put obeys the law, as a text with a terminator of its own. -/
theorem storeText_law (small : text.length < 2 ^ 32) : VsnprintfLaw text m out n (storeText m out n text) where
  returned := storeText_count m out n text
  text some i inside := by
    have low : i < 2 ^ 32 := by
      unfold termIndex at inside
      omega
    rw [storeText_mem small some, (eq_add_iff _ out low).mp rfl, if_pos inside]
  terminated some := by
    have low : termIndex text n < 2 ^ 32 := by
      unfold termIndex
      omega
    rw [storeText_mem small some, (eq_add_iff _ out low).mp rfl, if_neg (Nat.lt_irrefl _), if_pos rfl]
  kept a outside := by
    by_cases none : n = 0#32
    · rw [none, storeText_none small]
    · have far := outside.resolve_left none
      rw [storeText_mem small none, if_neg (by omega), if_neg (by omega)]

end Law

theorem vsnprintf_eq {ps : List Piece} (wf : ∀ p ∈ ps, p.Wf) {args : List Arg} {T : CStr}
    (text : textOf ps args = some T) (m : Bytes) (out n : BitVec 32) :
    vsnprintf m out n (ps.flatMap Piece.render) args = some (storeText m out n (T ++ [0#8])) := by
  rw [vsnprintf, printfBackend_eq ps wf, text]
  rfl

/-- The law, for the text with the terminator of the format. -/
theorem vsnprintf_law {ps : List Piece} (wf : ∀ p ∈ ps, p.Wf) {args : List Arg} {T : CStr}
    (text : textOf ps args = some T) (small : T.length + 1 < 2 ^ 32) (m : Bytes) (out n : BitVec 32) :
    ∃ reply, vsnprintf m out n (ps.flatMap Piece.render) args = some reply ∧
      VsnprintfLaw (T ++ [0#8]) m out n reply :=
  ⟨_, vsnprintf_eq wf text m out n, storeText_law (by simpa using small)⟩

/-- The count is one too high. -/
theorem storeText_not_law (T : CStr) (m : Bytes) (out n : BitVec 32) :
    ¬ VsnprintfLaw T m out n (storeText m out n (T ++ [0#8])) := by
  intro law
  have count := law.returned
  rw [storeText_count, List.length_append, List.length_singleton, BitVec.ofNat_add] at count
  have one : BitVec.ofNat 32 1 = 0#32 := by
    have same : BitVec.ofNat 32 T.length + BitVec.ofNat 32 1 = BitVec.ofNat 32 T.length + 0#32 := by
      rw [count, BitVec.add_zero]
    exact (BitVec.add_right_inj _).mp same
  exact absurd one (by decide)

/-- A second terminator follows the first. -/
theorem sprintf_not_law {T : CStr} (small : T.length + 2 < 2 ^ 32) (out : BitVec 32) :
    ∃ m, ¬ SprintfLaw T m out (storeText m out 0xFFFFFFFF#32 (T ++ [0#8])) := by
  refine ⟨fun _ => 1#8, fun law => ?_⟩
  have size : (0xFFFFFFFF#32).toNat = 2 ^ 32 - 1 := rfl
  have place : termIndex (T ++ [0#8]) 0xFFFFFFFF#32 = T.length + 1 := by
    rw [termIndex, List.length_append, List.length_singleton, size]
    omega
  have both : VsnprintfLaw (T ++ [0#8]) (fun _ => 1#8) out 0xFFFFFFFF#32 _ :=
    storeText_law (by rw [List.length_append, List.length_singleton]; omega)
  have twice := both.terminated (by decide)
  have kept := law.kept (out + BitVec.ofNat 32 (T.length + 1))
    (by rw [(eq_add_iff _ out (by omega)).mp rfl]; omega)
  rw [place, kept] at twice
  exact absurd twice (by decide)

/-- No call of `vsnprintf` meets the law for the text of its format, nor does `sprintf` write
one terminator alone. -/
theorem vsnprintf_never (ps : List Piece) (wf : ∀ p ∈ ps, p.Wf) (args : List Arg) (T : CStr)
    (text : textOf ps args = some T) (m : Bytes) (out n : BitVec 32) :
    (∃ reply, vsnprintf m out n (ps.flatMap Piece.render) args = some reply ∧
      ¬ VsnprintfLaw T m out n reply) ∧
    (T.length + 2 < 2 ^ 32 → ∃ m reply, sprintf m out (ps.flatMap Piece.render) args = some reply ∧
      ¬ SprintfLaw T m out reply) := by
  refine ⟨⟨_, vsnprintf_eq wf text m out n, storeText_not_law T m out n⟩, fun small => ?_⟩
  obtain ⟨m, stray⟩ := sprintf_not_law small out
  exact ⟨m, _, vsnprintf_eq wf text m out _, stray⟩

/-- The format `a%c` for `b`. -/
theorem vsnprintf_never_ab :
    (∃ reply, vsnprintf (fun _ => 7#8) 0x80000000#32 8#32
        ([Piece.char (chr 'a'), .conv { conv := chr 'c' }].flatMap Piece.render) [.int 98#32] = some reply ∧
      ¬ VsnprintfLaw [chr 'a', chr 'b'] (fun _ => 7#8) 0x80000000#32 8#32 reply) ∧
    ((2 : Nat) + 2 < 2 ^ 32 → ∃ m reply, sprintf m 0x80000000#32
        ([Piece.char (chr 'a'), .conv { conv := chr 'c' }].flatMap Piece.render) [.int 98#32] = some reply ∧
      ¬ SprintfLaw [chr 'a', chr 'b'] m 0x80000000#32 reply) := by
  refine vsnprintf_never [.char (chr 'a'), .conv { conv := chr 'c' }] ?_ [.int 98#32] [chr 'a', chr 'b']
    (by decide) _ _ _
  intro p held
  rcases List.mem_cons.mp held with rfl | held
  · exact ⟨by decide, by decide⟩
  · rw [List.mem_singleton.mp held]
    exact { flags := fun c none => absurd none List.not_mem_nil
            width := fun c none => absurd none List.not_mem_nil
            widthHead := by decide
            precision := fun p none => nomatch none
            mods := fun c none => absurd none List.not_mem_nil
            conv := by unfold IsConversion; decide }

/-- `vsnprintf(out, 8, "hi")` returns 3. -/
theorem vsnprintf_hi :
    ¬ ∀ (ps : List Piece) (args : List Arg) (T : CStr) (m : Bytes) (out n : BitVec 32),
      (∀ p ∈ ps, p.Wf) → textOf ps args = some T →
      ∃ reply, vsnprintf m out n (ps.flatMap Piece.render) args = some reply ∧
        VsnprintfLaw T m out n reply := by
  intro all
  have wf : ∀ p ∈ [Piece.char (chr 'h'), .char (chr 'i')], p.Wf := by
    intro p held
    rcases List.mem_cons.mp held with rfl | held
    · exact ⟨by decide, by decide⟩
    · rw [List.mem_singleton.mp held]
      exact ⟨by decide, by decide⟩
  obtain ⟨reply, run, law⟩ := all _ [] [chr 'h', chr 'i'] (fun _ => 7#8) 0x80000000#32 8#32 wf rfl
  rw [vsnprintf_eq wf rfl] at run
  cases run
  exact storeText_not_law _ _ _ _ law

end NpcMachine.Klib
