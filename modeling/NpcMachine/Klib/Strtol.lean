/-
# Klib.Strtol -- strtol, strtoul and %d of sscanf

A pointer into a string is the part of the string from there on, and `long` is 32 bits,
whose sums wrap.  The two functions differ in the sign alone, and so share `scanNumber`.

`Subject` is the grammar of the C standard and `Reads` its meaning: the value and the end
of the longest subject sequence at the front, or 0 and the whole string where there is
none.  The code consumes blanks, sign and prefix before it knows whether a digit follows.
`Parses` says when that does no harm (`scanNumber_reads_iff`): with a digit in front, the
prefix must not be a bare `0x`; without one, nothing may have been consumed.
-/
import Mathlib.Data.List.TakeWhile
import NpcMachine.Klib.Printf

namespace NpcMachine.Klib

set_option autoImplicit false

/-! ## The character classes -/

def isSpace (c : BitVec 8) : Bool := (" \u000c\n\r\t\u000b".toList.map chr).contains c

def isDigit (c : BitVec 8) : Bool := chr '0' ≤ c && c ≤ chr '9'

def isUpper (c : BitVec 8) : Bool := chr 'A' ≤ c && c ≤ chr 'Z'

def isLower (c : BitVec 8) : Bool := chr 'a' ≤ c && c ≤ chr 'z'

/-! ## The code -/

/-- The digit of the parse loop, `none` where it breaks off. -/
def digitOf (c : BitVec 8) : Option Nat :=
  if isDigit c then some (c.toNat - (chr '0').toNat)
  else if isUpper c then some (c.toNat - (chr 'A').toNat + 10)
  else if isLower c then some (c.toNat - (chr 'a').toNat + 10)
  else none

def skipSpace : CStr → CStr
  | [] => []
  | c :: s => if isSpace c then skipSpace s else c :: s

/-- The sign of `strtol`, and the string behind it. -/
def takeSign (signed : Bool) : CStr → Bool × CStr
  | [] => (false, [])
  | c :: s =>
      if signed = true ∧ c = chr '+' then (false, s)
      else if signed = true ∧ c = chr '-' then (true, s)
      else (false, c :: s)

def isX (c : BitVec 8) : Bool := c == chr 'x' || c == chr 'X'

def detectBase (base : Nat) (s : CStr) : Nat × CStr :=
  if base = 0 then
    if s.head? = some (chr '0') then
      let s := s.tail
      if s.head?.any isX then (16, s.tail) else (8, s)
    else (10, s)
  else if base = 16 then
    let s := if s.head? = some (chr '0') then s.tail else s
    (16, if s.head?.any isX then s.tail else s)
  else (base, s)

def parseDigits (base : Nat) (result : BitVec 32) : CStr → BitVec 32 × CStr
  | [] => (result, [])
  | c :: s =>
      match digitOf c with
      | none => (result, c :: s)
      | some digit =>
          if base ≤ digit then (result, c :: s)
          else parseDigits base (result * BitVec.ofNat 32 base + BitVec.ofNat 32 digit) s

/-- The value and `*endptr`. -/
def scanNumber (signed : Bool) (str : CStr) (base : Nat) : BitVec 32 × CStr :=
  if base ≠ 0 ∧ (base < 2 ∨ 36 < base) then (0#32, str)
  else
    let sign := takeSign signed (skipSpace str)
    let start := detectBase base sign.2
    let digits := parseDigits start.1 0#32 start.2
    (if sign.1 then -digits.1 else digits.1, digits.2)

def strtol (str : CStr) (base : Nat) : BitVec 32 × CStr := scanNumber true str base

def strtoul (str : CStr) (base : Nat) : BitVec 32 × CStr := scanNumber false str base

/-! ## The grammar -/

/-- `c` is a digit of the base. -/
def below (radix : Nat) (c : BitVec 8) : Bool := (digitOf c).any fun d => decide (d < radix)

def digitsValue (radix : Nat) (digits : CStr) : Nat :=
  digits.foldl (fun v c => v * radix + (digitOf c).getD 0) 0

/-- The base that a base of 0 stands for. -/
def radixOf (base : Nat) (pre digits : CStr) : Nat :=
  if base ≠ 0 then base
  else if pre ≠ [] then 16
  else if digits.head? = some (chr '0') then 8
  else 10

def signedValue (negative : Bool) (n : Nat) : Int := if negative then -(n : Int) else n

/-- A subject sequence, blanks included, and its value. -/
def Subject (signed : Bool) (base : Nat) (s : CStr) (v : Int) : Prop :=
  ∃ blanks sign pre digits, s = blanks ++ (sign ++ (pre ++ digits)) ∧
    (∀ c ∈ blanks, isSpace c = true) ∧
    (sign = [] ∨ signed = true ∧ (sign = [chr '+'] ∨ sign = [chr '-'])) ∧
    (pre = [] ∨ (base = 0 ∨ base = 16) ∧ (pre = [chr '0', chr 'x'] ∨ pre = [chr '0', chr 'X'])) ∧
    digits ≠ [] ∧ (∀ c ∈ digits, below (radixOf base pre digits) c = true) ∧
    v = signedValue (decide (sign = [chr '-'])) (digitsValue (radixOf base pre digits) digits)

/-- The value and the rest of the string that the standard asks for. -/
def Reads (signed : Bool) (base : Nat) (str : CStr) (reply : BitVec 32 × CStr) : Prop :=
  (∃ s v, str = s ++ reply.2 ∧ Subject signed base s v ∧ reply.1 = BitVec.ofInt 32 v ∧
    ∀ s' v' rest, str = s' ++ rest → Subject signed base s' v' → s'.length ≤ s.length) ∨
  ((∀ s v rest, str = s ++ rest → ¬ Subject signed base s v) ∧ reply = (0#32, str))

/-! ## When the code reads as it should -/

/-- The string where the number starts. -/
def numberAt (signed : Bool) (str : CStr) : CStr := (takeSign signed (skipSpace str)).2

/-- `0x` and no hexadecimal digit. -/
def BarePrefix (r : CStr) : Prop :=
  r.head? = some (chr '0') ∧ r.tail.head?.any isX = true ∧ r.tail.tail.head?.any (below 16) = false

def Parses (signed : Bool) (base : Nat) (str : CStr) : Prop :=
  let r := numberAt signed str
  if r.head?.any (below (if base = 0 then 10 else base)) = true then
    ¬ ((base = 0 ∨ base = 16) ∧ BarePrefix r)
  else r = str ∧ ¬ (base = 16 ∧ r.head?.any isX = true)

/-! ## Characters -/

theorem space_plain : ∀ c : BitVec 8, isSpace c = true →
    c ≠ chr '+' ∧ c ≠ chr '-' ∧ digitOf c = none := by decide

theorem sign_plain : ∀ c : BitVec 8, c = chr '+' ∨ c = chr '-' → digitOf c = none := by decide

theorem x_digit : ∀ c : BitVec 8, isX c = true → digitOf c = some 33 ∧ c ≠ chr '0' := by decide

theorem below_digit {radix : Nat} {c : BitVec 8} (digit : below radix c = true) :
    ∃ d, digitOf c = some d ∧ d < radix := by
  unfold below at digit
  cases found : digitOf c with
  | none => simp [found] at digit
  | some d => exact ⟨d, rfl, by simpa [found] using digit⟩

theorem below_not_space {radix : Nat} {c : BitVec 8} (digit : below radix c = true) :
    isSpace c = false := by
  obtain ⟨d, found, -⟩ := below_digit digit
  by_contra space
  rw [(space_plain c (by simpa using space)).2.2] at found
  cases found

theorem below_not_sign {radix : Nat} {c : BitVec 8} (digit : below radix c = true) :
    c ≠ chr '+' ∧ c ≠ chr '-' := by
  obtain ⟨d, found, -⟩ := below_digit digit
  constructor
  · intro plus
    rw [sign_plain c (Or.inl plus)] at found
    cases found
  · intro minus
    rw [sign_plain c (Or.inr minus)] at found
    cases found

theorem x_not_below {radix : Nat} (small : radix ≤ 33) {c : BitVec 8} (x : isX c = true) :
    below radix c = false := by
  unfold below
  rw [(x_digit c x).1]
  simpa using small

theorem zero_below {radix : Nat} (pos : 0 < radix) : below radix (chr '0') = true := by
  have zero : digitOf (chr '0') = some 0 := by decide
  unfold below
  rw [zero]
  simpa using pos

/-! ## Blanks and signs -/

theorem skipSpace_append {blanks : CStr} (all : ∀ c ∈ blanks, isSpace c = true) (t : CStr) :
    skipSpace (blanks ++ t) = skipSpace t := by
  induction blanks with
  | nil => rfl
  | cons c blanks ih =>
      rw [List.cons_append, skipSpace, if_pos (all c List.mem_cons_self)]
      exact ih fun d held => all d (List.mem_cons_of_mem _ held)

theorem skipSpace_stop {c : BitVec 8} (plain : isSpace c = false) (t : CStr) :
    skipSpace (c :: t) = c :: t := by
  rw [skipSpace, plain]
  exact if_neg Bool.false_ne_true

theorem skipSpace_split (str : CStr) :
    ∃ blanks, str = blanks ++ skipSpace str ∧ ∀ c ∈ blanks, isSpace c = true := by
  induction str with
  | nil => exact ⟨[], rfl, fun c none => absurd none List.not_mem_nil⟩
  | cons c str ih =>
      obtain ⟨blanks, split, all⟩ := ih
      by_cases space : isSpace c = true
      · refine ⟨c :: blanks, ?_, ?_⟩
        · rw [skipSpace, if_pos space, List.cons_append, ← split]
        · intro d held
          rcases List.mem_cons.mp held with rfl | rest
          · exact space
          · exact all d rest
      · refine ⟨[], ?_, fun d none => absurd none List.not_mem_nil⟩
        rw [skipSpace, if_neg space, List.nil_append]

theorem takeSign_split (signed : Bool) (s : CStr) :
    ∃ sign, s = sign ++ (takeSign signed s).2 ∧
      (sign = [] ∨ signed = true ∧ (sign = [chr '+'] ∨ sign = [chr '-'])) ∧
      (takeSign signed s).1 = decide (sign = [chr '-']) := by
  cases s with
  | nil => exact ⟨[], rfl, Or.inl rfl, rfl⟩
  | cons c s =>
      rw [takeSign]
      split_ifs with plus minus
      · exact ⟨[chr '+'], by rw [plus.2]; rfl, Or.inr ⟨plus.1, Or.inl rfl⟩, rfl⟩
      · exact ⟨[chr '-'], by rw [minus.2]; rfl, Or.inr ⟨minus.1, Or.inr rfl⟩, rfl⟩
      · exact ⟨[], rfl, Or.inl rfl, by simp⟩

/-- Blanks and a sign in front of a character that is neither. -/
theorem takeSign_append {signed : Bool} {blanks sign : CStr} {c : BitVec 8} (t : CStr)
    (all : ∀ d ∈ blanks, isSpace d = true)
    (form : sign = [] ∨ signed = true ∧ (sign = [chr '+'] ∨ sign = [chr '-']))
    (plain : isSpace c = false ∧ c ≠ chr '+' ∧ c ≠ chr '-') :
    takeSign signed (skipSpace (blanks ++ (sign ++ c :: t))) =
      (decide (sign = [chr '-']), c :: t) := by
  rw [skipSpace_append all]
  rcases form with rfl | ⟨allowed, rfl | rfl⟩
  · rw [List.nil_append, skipSpace_stop plain.1, takeSign, if_neg fun plus => plain.2.1 plus.2,
      if_neg fun minus => plain.2.2 minus.2]
    simp
  · rw [List.singleton_append, skipSpace_stop (by decide), takeSign, if_pos ⟨allowed, rfl⟩]
    rfl
  · have other : chr '-' ≠ chr '+' := by decide
    rw [List.singleton_append, skipSpace_stop (by decide), takeSign, if_neg fun plus => other plus.2,
      if_pos ⟨allowed, rfl⟩]
    simp

/-! ## The longest number -/

def HexFollows (r : CStr) : Prop :=
  r.head? = some (chr '0') ∧ r.tail.head?.any isX = true ∧ r.tail.tail.head?.any (below 16) = true

instance (r : CStr) : Decidable (HexFollows r) := inferInstanceAs (Decidable (_ ∧ _ ∧ _))

/-- The number at the front of `r` by the standard: its absolute value and what follows. -/
def numberOf (base : Nat) (r : CStr) : Option (Nat × CStr) :=
  if (base = 0 ∨ base = 16) ∧ HexFollows r then
    some (digitsValue 16 (r.tail.tail.takeWhile (below 16)), r.tail.tail.dropWhile (below 16))
  else if r.head?.any (below (radixOf base [] r)) = true then
    some (digitsValue (radixOf base [] r) (r.takeWhile (below (radixOf base [] r))),
      r.dropWhile (below (radixOf base [] r)))
  else none

def subjectOf (signed : Bool) (base : Nat) (str : CStr) : Option (Int × CStr) :=
  let sign := takeSign signed (skipSpace str)
  (numberOf base sign.2).map fun out => (signedValue sign.1 out.1, out.2)

/-- A prefix that the grammar allows. -/
def PrefixForm (base : Nat) (pre : CStr) : Prop :=
  pre = [] ∨ (base = 0 ∨ base = 16) ∧ (pre = [chr '0', chr 'x'] ∨ pre = [chr '0', chr 'X'])

theorem prefix_cases {base : Nat} {pre : CStr} (form : PrefixForm base pre) :
    pre = [] ∨ (base = 0 ∨ base = 16) ∧ ∃ x, isX x = true ∧ pre = [chr '0', x] := by
  rcases form with none | ⟨based, rfl | rfl⟩
  · exact Or.inl none
  · exact Or.inr ⟨based, chr 'x', by decide, rfl⟩
  · exact Or.inr ⟨based, chr 'X', by decide, rfl⟩

theorem radixOf_hex {base : Nat} (based : base = 0 ∨ base = 16) (c x : BitVec 8) (digits : CStr) :
    radixOf base [c, x] digits = 16 := by
  rcases based with rfl | rfl <;> simp [radixOf]

/-- In front of a 0 the bases 0 and 16 have no digit x. -/
theorem radixOf_zero {base : Nat} (based : base = 0 ∨ base = 16) {r : CStr}
    (zero : r.head? = some (chr '0')) : 0 < radixOf base [] r ∧ radixOf base [] r ≤ 33 := by
  rcases based with rfl | rfl <;> simp [radixOf, zero]

/-- A number in front of `t` is found, as far as it goes. -/
theorem numberOf_append {base : Nat} {pre digits : CStr} (form : PrefixForm base pre)
    (nonempty : digits ≠ []) (all : ∀ c ∈ digits, below (radixOf base pre digits) c = true) (t : CStr) :
    ∃ n rest, numberOf base (pre ++ digits ++ t) = some (n, rest) ∧ rest.length ≤ t.length ∧
      (t = [] → n = digitsValue (radixOf base pre digits) digits) := by
  obtain ⟨c, ds, rfl⟩ := List.exists_cons_of_ne_nil nonempty
  rcases prefix_cases form with rfl | ⟨based, x, isx, rfl⟩
  · have same : radixOf base [] (c :: ds ++ t) = radixOf base [] (c :: ds) := rfl
    rw [List.nil_append]
    by_cases hex : (base = 0 ∨ base = 16) ∧ HexFollows (c :: ds ++ t)
    · -- the digits are the 0 of a prefix, and the longest number goes on
      obtain ⟨based, zero, x, digit⟩ := hex
      have small := (radixOf_zero based zero).2
      rw [same] at small
      cases ds with
      | cons d ds =>
          have digit := all d (List.mem_cons_of_mem _ List.mem_cons_self)
          rw [x_not_below small x] at digit
          cases digit
      | nil =>
          refine ⟨_, _, by rw [numberOf, if_pos ⟨based, zero, x, digit⟩], ?_, ?_⟩
          · have shorter := List.length_dropWhile_le (below 16) t.tail
            have tail : t.tail.length ≤ t.length := by simp
            exact Nat.le_trans shorter tail
          · rintro rfl
            simp at x
    · have front : (c :: ds ++ t).head?.any (below (radixOf base [] (c :: ds ++ t))) = true := by
        rw [same]
        exact all c List.mem_cons_self
      refine ⟨_, _, by rw [numberOf, if_neg hex, if_pos front], ?_, ?_⟩
      · rw [same, List.dropWhile_append_of_pos all]
        exact List.length_dropWhile_le _ t
      · rintro rfl
        rw [same, List.append_nil, List.takeWhile_eq_self_iff.mpr all]
  · rw [radixOf_hex based] at all ⊢
    have follows : HexFollows ([chr '0', x] ++ (c :: ds) ++ t) :=
      ⟨rfl, isx, all c List.mem_cons_self⟩
    refine ⟨_, _, by rw [numberOf, if_pos ⟨based, follows⟩], ?_, ?_⟩
    · have tail : ([chr '0', x] ++ (c :: ds) ++ t).tail.tail = c :: ds ++ t := rfl
      rw [tail, List.dropWhile_append_of_pos all]
      exact List.length_dropWhile_le _ t
    · rintro rfl
      have tail : ([chr '0', x] ++ (c :: ds) ++ []).tail.tail = c :: ds ++ [] := rfl
      rw [tail, List.append_nil, List.takeWhile_eq_self_iff.mpr all]

theorem takeWhile_head {p : BitVec 8 → Bool} {s : CStr} (first : s.head?.any p = true) :
    (s.takeWhile p).head? = s.head? := by
  cases s with
  | nil => rfl
  | cons c s =>
      have here : p c = true := first
      rw [List.takeWhile_cons_of_pos here]
      rfl

theorem takeWhile_front {p : BitVec 8 → Bool} {s : CStr} (first : s.head?.any p = true) :
    s.takeWhile p ≠ [] := by
  intro none
  have head := takeWhile_head first
  rw [none] at head
  rw [← head] at first
  cases first

/-- What is found is a number of the grammar. -/
theorem numberOf_sound {base : Nat} {r rest : CStr} {n : Nat} (found : numberOf base r = some (n, rest)) :
    ∃ pre digits, r = pre ++ digits ++ rest ∧ PrefixForm base pre ∧ digits ≠ [] ∧
      (∀ c ∈ digits, below (radixOf base pre digits) c = true) ∧
      n = digitsValue (radixOf base pre digits) digits := by
  rw [numberOf] at found
  split_ifs at found with hex digit
  · obtain ⟨rfl, rfl⟩ := Prod.mk.inj (Option.some.inj found)
    obtain ⟨based, zero, x, hexDigit⟩ := hex
    obtain ⟨c, r, rfl⟩ : ∃ c t, r = c :: t := List.exists_cons_of_ne_nil (by rintro rfl; simp at zero)
    obtain ⟨d, r, rfl⟩ : ∃ c t, r = c :: t := List.exists_cons_of_ne_nil (by rintro rfl; simp at x)
    have first : c = chr '0' := Option.some.inj zero
    have form : PrefixForm base [c, d] := by
      have each : d = chr 'x' ∨ d = chr 'X' := by simpa [isX] using x
      rw [first]
      rcases each with rfl | rfl
      · exact Or.inr ⟨based, Or.inl rfl⟩
      · exact Or.inr ⟨based, Or.inr rfl⟩
    refine ⟨[c, d], r.takeWhile (below 16), ?_, form, takeWhile_front hexDigit, ?_, ?_⟩
    · rw [List.append_assoc, List.tail_cons, List.tail_cons, List.takeWhile_append_dropWhile]
      rfl
    · rw [radixOf_hex based]
      exact fun c held => List.mem_takeWhile_imp held
    · rw [radixOf_hex based]
      rfl
  · obtain ⟨rfl, rfl⟩ := Prod.mk.inj (Option.some.inj found)
    have nonempty := takeWhile_front digit
    have same : radixOf base [] (r.takeWhile (below (radixOf base [] r))) = radixOf base [] r := by
      have head := takeWhile_head digit
      unfold radixOf
      unfold radixOf at head
      rw [head]
    refine ⟨[], r.takeWhile (below (radixOf base [] r)), ?_, Or.inl rfl, nonempty, ?_, ?_⟩
    · rw [List.nil_append, List.takeWhile_append_dropWhile]
    · rw [same]
      exact fun c held => List.mem_takeWhile_imp held
    · rw [same]

/-! ## The longest subject sequence -/

/-- The character behind blanks and sign, at a number. -/
theorem number_head {base : Nat} {pre digits : CStr} (form : PrefixForm base pre) (nonempty : digits ≠ [])
    (all : ∀ c ∈ digits, below (radixOf base pre digits) c = true) :
    ∃ c t, pre ++ digits = c :: t ∧ isSpace c = false ∧ c ≠ chr '+' ∧ c ≠ chr '-' := by
  rcases prefix_cases form with rfl | ⟨-, x, -, rfl⟩
  · obtain ⟨c, ds, rfl⟩ := List.exists_cons_of_ne_nil nonempty
    have digit := all c List.mem_cons_self
    exact ⟨c, ds, rfl, below_not_space digit, below_not_sign digit⟩
  · exact ⟨chr '0', x :: digits, rfl, by decide, by decide, by decide⟩

theorem subjectOf_append {signed : Bool} {base : Nat} {s : CStr} {v : Int}
    (subject : Subject signed base s v) (t : CStr) :
    ∃ v' rest, subjectOf signed base (s ++ t) = some (v', rest) ∧ rest.length ≤ t.length ∧
      (t = [] → v' = v) := by
  obtain ⟨blanks, sign, pre, digits, rfl, blank, signForm, form, nonempty, all, rfl⟩ := subject
  obtain ⟨c, u, text, plain⟩ := number_head form nonempty all
  obtain ⟨n, rest, found, short, whole⟩ := numberOf_append form nonempty all t
  have split : blanks ++ (sign ++ (pre ++ digits)) ++ t = blanks ++ (sign ++ c :: (u ++ t)) := by
    rw [text]
    simp
  have front : pre ++ digits ++ t = c :: (u ++ t) := by
    rw [text, List.cons_append]
  rw [front] at found
  refine ⟨signedValue (decide (sign = [chr '-'])) n, rest, ?_, short, ?_⟩
  · rw [split, subjectOf]
    simp only [takeSign_append (u ++ t) blank signForm plain, found, Option.map_some]
  · intro none
    rw [whole none]

theorem subjectOf_sound {signed : Bool} {base : Nat} {str rest : CStr} {v : Int}
    (found : subjectOf signed base str = some (v, rest)) :
    ∃ s, str = s ++ rest ∧ Subject signed base s v := by
  obtain ⟨blanks, split, blank⟩ := skipSpace_split str
  obtain ⟨sign, parts, signForm, negative⟩ := takeSign_split signed (skipSpace str)
  rw [subjectOf] at found
  obtain ⟨out, number, same⟩ := Option.map_eq_some_iff.mp found
  obtain ⟨rfl, rfl⟩ := Prod.mk.inj same
  obtain ⟨pre, digits, text, form, nonempty, all, value⟩ := numberOf_sound number
  refine ⟨blanks ++ (sign ++ (pre ++ digits)), ?_, blanks, sign, pre, digits, rfl, blank, signForm,
    form, nonempty, all, ?_⟩
  · calc str = blanks ++ skipSpace str := split
      _ = blanks ++ (sign ++ (takeSign signed (skipSpace str)).2) := by rw [← parts]
      _ = blanks ++ (sign ++ (pre ++ digits ++ out.2)) := by rw [text]
      _ = blanks ++ (sign ++ (pre ++ digits)) ++ out.2 := by simp
  · rw [negative, value]

/-- The reply that the standard asks for. -/
def standardReply (signed : Bool) (base : Nat) (str : CStr) : BitVec 32 × CStr :=
  match subjectOf signed base str with
  | some (v, rest) => (BitVec.ofInt 32 v, rest)
  | none => (0#32, str)

theorem reads_iff (signed : Bool) (base : Nat) (str : CStr) (reply : BitVec 32 × CStr) :
    Reads signed base str reply ↔ reply = standardReply signed base str := by
  unfold standardReply
  constructor
  · rintro (⟨s, v, split, subject, value, longest⟩ | ⟨none, rfl⟩)
    · obtain ⟨v', rest, found, short, -⟩ := subjectOf_append subject reply.2
      rw [← split] at found
      obtain ⟨s', split', subject'⟩ := subjectOf_sound found
      have bound := longest s' v' rest split' subject'
      have lengths : s.length + reply.2.length = s'.length + rest.length := by
        rw [← List.length_append, ← List.length_append, ← split, split']
      obtain ⟨sameText, sameRest⟩ := List.append_inj (split.symm.trans split') (by omega)
      subst sameText
      obtain ⟨v₁, rest₁, found₁, -, whole₁⟩ := subjectOf_append subject []
      obtain ⟨v₂, rest₂, found₂, -, whole₂⟩ := subjectOf_append subject' []
      have sameValue : v = v' := by
        rw [found₁] at found₂
        rw [← whole₁ rfl, ← whole₂ rfl]
        exact (Prod.mk.inj (Option.some.inj found₂)).1
      rw [found]
      exact Prod.ext (by rw [value, sameValue]) sameRest
    · cases found : subjectOf signed base str with
      | none => rfl
      | some out =>
          obtain ⟨s, split, subject⟩ := subjectOf_sound found
          exact absurd subject (none s _ _ split)
  · rintro rfl
    cases found : subjectOf signed base str with
    | none =>
        right
        refine ⟨fun s v rest split subject => ?_, rfl⟩
        obtain ⟨v', rest', other, -⟩ := subjectOf_append subject rest
        rw [← split, found] at other
        cases other
    | some out =>
        left
        obtain ⟨s, split, subject⟩ := subjectOf_sound found
        refine ⟨s, out.1, split, subject, rfl, fun s' v' rest' split' subject' => ?_⟩
        obtain ⟨v'', rest'', other, short, -⟩ := subjectOf_append subject' rest'
        rw [← split', found] at other
        obtain ⟨rfl, rfl⟩ := Prod.mk.inj (Option.some.inj other)
        have lengths : s.length + out.2.length = s'.length + rest'.length := by
          rw [← List.length_append, ← List.length_append, ← split, split']
        omega

/-! ## What the code reads -/

theorem parseDigits_eq (base n : Nat) (s : CStr) :
    parseDigits base (BitVec.ofNat 32 n) s =
      (BitVec.ofNat 32 ((s.takeWhile (below base)).foldl (fun v c => v * base + (digitOf c).getD 0) n),
        s.dropWhile (below base)) := by
  induction s generalizing n with
  | nil => rfl
  | cons c s ih =>
      rw [parseDigits]
      cases found : digitOf c with
      | none =>
          have stop : ¬ below base c = true := by simp [below, found]
          rw [List.takeWhile_cons_of_neg stop, List.dropWhile_cons_of_neg stop]
          rfl
      | some d =>
          by_cases small : d < base
          · have go : below base c = true := by simp [below, found, small]
            rw [List.takeWhile_cons_of_pos go, List.dropWhile_cons_of_pos go]
            simp only [Nat.not_le.mpr small, if_false]
            rw [← BitVec.ofNat_mul, ← BitVec.ofNat_add, ih, List.foldl_cons, found]
            rfl
          · have stop : ¬ below base c = true := by simp [below, found, small]
            rw [List.takeWhile_cons_of_neg stop, List.dropWhile_cons_of_neg stop]
            simp only [Nat.not_lt.mp small, if_true]
            rfl

/-- The number that the code reads at `r`, and what it leaves. -/
def codeNumber (base : Nat) (r : CStr) : Nat × CStr :=
  let start := detectBase base r
  (digitsValue start.1 (start.2.takeWhile (below start.1)), start.2.dropWhile (below start.1))

theorem scanNumber_eq (signed : Bool) (str : CStr) {base : Nat} (valid : base = 0 ∨ 2 ≤ base ∧ base ≤ 36) :
    scanNumber signed str base =
      (BitVec.ofInt 32 (signedValue (takeSign signed (skipSpace str)).1
          (codeNumber base (numberAt signed str)).1),
        (codeNumber base (numberAt signed str)).2) := by
  have good : ¬ (base ≠ 0 ∧ (base < 2 ∨ 36 < base)) := by omega
  rw [scanNumber, if_neg good]
  simp only [codeNumber, numberAt, digitsValue]
  have zero : 0#32 = BitVec.ofNat 32 0 := rfl
  rw [zero, parseDigits_eq]
  unfold signedValue
  split_ifs
  · rw [BitVec.ofInt_neg, BitVec.ofInt_natCast]
  · rw [BitVec.ofInt_natCast]

theorem digitsValue_zero (radix : Nat) (ds : CStr) :
    digitsValue radix (chr '0' :: ds) = digitsValue radix ds := by
  have zero : digitOf (chr '0') = some 0 := by decide
  rw [digitsValue, List.foldl_cons, zero, Nat.zero_mul]
  rfl

theorem any_head {p : BitVec 8 → Bool} {r : CStr} (first : r.head?.any p = true) :
    ∃ c t, r = c :: t ∧ p c = true := by
  cases r with
  | nil => cases first
  | cons c t => exact ⟨c, t, rfl, first⟩

/-- With a digit in front and no bare prefix the code reads the number of the standard. -/
theorem codeNumber_digit {base : Nat} {r : CStr} (valid : base = 0 ∨ 2 ≤ base ∧ base ≤ 36)
    (digit : r.head?.any (below (if base = 0 then 10 else base)) = true)
    (whole : ¬ ((base = 0 ∨ base = 16) ∧ BarePrefix r)) : numberOf base r = some (codeNumber base r) := by
  by_cases zero : (base = 0 ∨ base = 16) ∧ r.head? = some (chr '0')
  · obtain ⟨based, zero⟩ := zero
    obtain ⟨c, t, rfl, -⟩ := any_head digit
    have first : c = chr '0' := Option.some.inj zero
    subst first
    by_cases x : t.head?.any isX = true
    · have follows : HexFollows (chr '0' :: t) := by
        refine ⟨rfl, x, ?_⟩
        by_contra none
        exact whole ⟨based, rfl, x, by simpa using none⟩
      rw [numberOf, if_pos ⟨based, follows⟩]
      have tail : (chr '0' :: t).tail = t := rfl
      rcases based with rfl | rfl
      · simp [codeNumber, detectBase, x]
      · simp [codeNumber, detectBase, x]
    · have plain : ¬ ((base = 0 ∨ base = 16) ∧ HexFollows (chr '0' :: t)) := fun hex => x hex.2.2.1
      have pos : 0 < radixOf base [] (chr '0' :: t) := (radixOf_zero based zero).1
      have go := zero_below pos
      have front : (chr '0' :: t).head?.any (below (radixOf base [] (chr '0' :: t))) = true := go
      rw [numberOf, if_neg plain, if_pos front, List.takeWhile_cons_of_pos go,
        List.dropWhile_cons_of_pos go, digitsValue_zero]
      rcases based with rfl | rfl
      · simp [codeNumber, detectBase, radixOf, x]
      · simp [codeNumber, detectBase, radixOf, x]
  · have plain : ¬ ((base = 0 ∨ base = 16) ∧ HexFollows r) := fun hex => zero ⟨hex.1, hex.2.1⟩
    have radix : radixOf base [] r = if base = 0 then 10 else base := by
      by_cases none : base = 0
      · have other : r.head? ≠ some (chr '0') := fun first => zero ⟨Or.inl none, first⟩
        simp [radixOf, none, other]
      · simp [radixOf, none]
    rw [numberOf, if_neg plain, radix, if_pos digit]
    by_cases none : base = 0
    · have other : r.head? ≠ some (chr '0') := fun first => zero ⟨Or.inl none, first⟩
      simp [codeNumber, detectBase, none, other]
    · by_cases hex : base = 16
      · obtain ⟨c, t, rfl, first⟩ := any_head digit
        have other : c ≠ chr '0' := fun same => zero ⟨Or.inr hex, congrArg some same⟩
        have notX : isX c = false := by
          by_contra x
          rw [x_not_below (by simp [hex]) (by simpa using x)] at first
          cases first
        simp [codeNumber, detectBase, hex, other, notX]
      · simp [codeNumber, detectBase, none, hex]

/-- A bare prefix: the standard stops behind the 0. -/
theorem codeNumber_bare {base : Nat} {r : CStr} (based : base = 0 ∨ base = 16) (bare : BarePrefix r) :
    ∃ n rest, numberOf base r = some (n, rest) ∧ (codeNumber base r).2.length < rest.length := by
  obtain ⟨zero, x, noDigit⟩ := bare
  obtain ⟨c, t, rfl⟩ : ∃ c t, r = c :: t := List.exists_cons_of_ne_nil (by rintro rfl; cases zero)
  obtain ⟨d, u, rfl, isx⟩ := any_head x
  have first : c = chr '0' := Option.some.inj zero
  subst first
  have plain : ¬ ((base = 0 ∨ base = 16) ∧ HexFollows (chr '0' :: d :: u)) := by
    rintro ⟨-, -, -, digit⟩
    rw [noDigit] at digit
    cases digit
  have radix := radixOf_zero based zero
  have go := zero_below radix.1
  have front : (chr '0' :: d :: u).head?.any (below (radixOf base [] (chr '0' :: d :: u))) = true := go
  have stop : ¬ below (radixOf base [] (chr '0' :: d :: u)) d = true := by
    rw [x_not_below radix.2 isx]
    exact Bool.false_ne_true
  refine ⟨digitsValue (radixOf base [] (chr '0' :: d :: u))
    ((chr '0' :: d :: u).takeWhile (below (radixOf base [] (chr '0' :: d :: u)))), d :: u, ?_, ?_⟩
  · rw [numberOf, if_neg plain, if_pos front, List.dropWhile_cons_of_pos go,
      List.dropWhile_cons_of_neg stop]
  · have start : detectBase base (chr '0' :: d :: u) = (16, u) := by
      rcases based with rfl | rfl <;> simp [detectBase, isx]
    rw [codeNumber, start, List.length_cons]
    exact Nat.lt_succ_of_le (List.length_dropWhile_le _ u)

/-- Without a digit in front there is no number; the code may still take an x. -/
theorem codeNumber_none {base : Nat} {r : CStr} (valid : base = 0 ∨ 2 ≤ base ∧ base ≤ 36)
    (noDigit : ¬ r.head?.any (below (if base = 0 then 10 else base)) = true) :
    numberOf base r = none ∧ ((base = 16 ∧ r.head?.any isX = true) →
        (codeNumber base r).2.length < r.length) ∧
      (¬ (base = 16 ∧ r.head?.any isX = true) → codeNumber base r = (0, r)) := by
  have other : r.head? ≠ some (chr '0') := by
    intro zero
    rw [zero] at noDigit
    exact noDigit (zero_below (by split_ifs <;> omega))
  have radix : radixOf base [] r = if base = 0 then 10 else base := by
    by_cases none : base = 0
    · simp [radixOf, none, other]
    · simp [radixOf, none]
  have empty : ∀ k, k = (if base = 0 then 10 else base) →
      r.takeWhile (below k) = [] ∧ r.dropWhile (below k) = r := by
    rintro k rfl
    cases r with
    | nil => exact ⟨rfl, rfl⟩
    | cons c t => exact ⟨List.takeWhile_cons_of_neg noDigit, List.dropWhile_cons_of_neg noDigit⟩
  refine ⟨?_, ?_, ?_⟩
  · rw [numberOf, if_neg fun hex => other hex.2.1, radix, if_neg noDigit]
  · rintro ⟨rfl, x⟩
    obtain ⟨c, t, rfl, isx⟩ := any_head x
    have start : detectBase 16 (c :: t) = (16, t) := by simp [detectBase, (x_digit c isx).2, isx]
    rw [codeNumber, start, List.length_cons]
    exact Nat.lt_succ_of_le (List.length_dropWhile_le _ t)
  · intro plain
    have start : detectBase base r = (if base = 0 then 10 else base, r) := by
      by_cases none : base = 0
      · simp [detectBase, none, other]
      · by_cases hex : base = 16
        · have notX : ¬ r.head?.any isX = true := fun x => plain ⟨hex, x⟩
          simp [detectBase, hex, other, notX]
        · simp [detectBase, none, hex]
    obtain ⟨taken, left⟩ := empty _ rfl
    rw [codeNumber, start]
    simp only [taken, left]
    rfl

theorem numberAt_length (signed : Bool) (str : CStr) : (numberAt signed str).length ≤ str.length := by
  obtain ⟨blanks, split, -⟩ := skipSpace_split str
  obtain ⟨sign, parts, -⟩ := takeSign_split signed (skipSpace str)
  have whole := congrArg List.length split
  have part := congrArg List.length parts
  rw [List.length_append] at whole part
  unfold numberAt
  omega

theorem scanNumber_standard_iff (signed : Bool) (str : CStr) {base : Nat}
    (valid : base = 0 ∨ 2 ≤ base ∧ base ≤ 36) :
    scanNumber signed str base = standardReply signed base str ↔ Parses signed base str := by
  rw [scanNumber_eq signed str valid]
  unfold standardReply subjectOf Parses
  have length := numberAt_length signed str
  have same : (takeSign signed (skipSpace str)).2 = numberAt signed str := rfl
  simp only [same]
  by_cases digit : (numberAt signed str).head?.any (below (if base = 0 then 10 else base)) = true
  · rw [if_pos digit]
    by_cases bare : (base = 0 ∨ base = 16) ∧ BarePrefix (numberAt signed str)
    · obtain ⟨n, rest, number, shorter⟩ := codeNumber_bare bare.1 bare.2
      rw [number]
      refine iff_of_false (fun equal => ?_) (fun whole => whole bare)
      have rests : (codeNumber base (numberAt signed str)).2.length = rest.length :=
        congrArg List.length (Prod.mk.inj equal).2
      omega
    · rw [codeNumber_digit valid digit bare]
      exact iff_of_true rfl bare
  · rw [if_neg digit]
    obtain ⟨none, takesX, plain⟩ := codeNumber_none valid digit
    rw [none]
    by_cases x : base = 16 ∧ (numberAt signed str).head?.any isX = true
    · have shorter := takesX x
      refine iff_of_false (fun equal => ?_) (fun right => right.2 x)
      have rests := congrArg List.length (Prod.mk.inj equal).2
      omega
    · have zero : BitVec.ofInt 32 (signedValue (takeSign signed (skipSpace str)).1 0) = 0#32 := by
        cases (takeSign signed (skipSpace str)).1 <;> rfl
      rw [plain x]
      simp only [Option.map_none, zero, Prod.mk.injEq, true_and]
      exact (and_iff_left x).symm

theorem scanNumber_reads_iff (signed : Bool) (str : CStr) {base : Nat}
    (valid : base = 0 ∨ 2 ≤ base ∧ base ≤ 36) :
    Reads signed base str (scanNumber signed str base) ↔ Parses signed base str := by
  rw [reads_iff, scanNumber_standard_iff signed str valid]

/-! ## sscanf -/

structure IntScan where
  stored : Option (BitVec 32)
  counted : Bool
  rest : CStr

/-- `case 'd'`: the value is stored before the end of the number is looked at. -/
def scanInt (pstr : CStr) : IntScan :=
  let number := strtol pstr 10
  ⟨some number.1, decide (number.2 ≠ pstr), number.2⟩

inductive Store where
  | int (v : BitVec 32)
  | char (c : BitVec 8)

/-- The loop over the format: the item count, what was stored and where the string was left.
No result for a conversion that is not supported, or a `%c` behind the terminator. -/
def scanLoop : Nat → CStr → CStr → Int → List Store → Option (Int × List Store × CStr)
  | 0, _, pstr, item, stores => some (item, stores, pstr)
  | _ + 1, [], pstr, item, stores => some (item, stores, pstr)
  | fuel + 1, ch :: pfmt, pstr, item, stores =>
      if isSpace ch then scanLoop fuel (skipSpace pfmt) (skipSpace pstr) (item + 1) stores
      else if ch ≠ chr '%' then
        if pstr.head? = some ch then scanLoop fuel pfmt pstr.tail (item + 1) stores
        else some (item, stores, pstr)
      else
        match pfmt with
        | [] => none
        | conv :: pfmt =>
            if conv = chr 'd' then
              let scan := scanInt pstr
              let stores := stores ++ (scan.stored.map Store.int).toList
              if scan.counted then scanLoop fuel pfmt scan.rest (item + 1) stores
              else some (item, stores, pstr)
            else if conv = chr 'c' then
              match pstr with
              | [] => none
              | c :: pstr => scanLoop fuel pfmt pstr (item + 1) (stores ++ [.char c])
            else none

def vsscanf (str fmt : CStr) : Option (Int × List Store × CStr) :=
  scanLoop (fmt.length + 1) fmt str (-1) []

/-- A `%d` anywhere in a format adds what `scanInt` stores, and goes on where it counts. -/
theorem scanLoop_int (fuel : Nat) (pfmt pstr : CStr) (item : Int) (stores : List Store) :
    scanLoop (fuel + 1) (chr '%' :: chr 'd' :: pfmt) pstr item stores =
      if (scanInt pstr).counted then
        scanLoop fuel pfmt (scanInt pstr).rest (item + 1)
          (stores ++ ((scanInt pstr).stored.map Store.int).toList)
      else some (item, stores ++ ((scanInt pstr).stored.map Store.int).toList, pstr) := by
  have plain : isSpace (chr '%') = false := by decide
  simp only [scanLoop, plain, Bool.false_eq_true, if_false, ne_eq, not_true_eq_false, if_true]

/-- There is a decimal number at the front exactly when a digit follows blanks and sign. -/
theorem subject_ten_iff (str : CStr) :
    (∃ s v rest, str = s ++ rest ∧ Subject true 10 s v) ↔
      (numberAt true str).head?.any (below 10) = true := by
  have plain : ∀ r, ¬ ((10 = 0 ∨ 10 = 16) ∧ HexFollows r) := by
    rintro r ⟨based, -⟩
    omega
  have ten : ∀ r, numberOf 10 r = if r.head?.any (below 10) = true then
      some (digitsValue 10 (r.takeWhile (below 10)), r.dropWhile (below 10)) else none := by
    intro r
    rw [numberOf, if_neg (plain r)]
    rfl
  constructor
  · rintro ⟨s, v, rest, rfl, subject⟩
    obtain ⟨v', rest', found, -⟩ := subjectOf_append subject rest
    obtain ⟨out, number, -⟩ := Option.map_eq_some_iff.mp found
    rw [ten] at number
    by_contra none
    have same : (takeSign true (skipSpace (s ++ rest))).2 = numberAt true (s ++ rest) := rfl
    rw [same, if_neg none] at number
    cases number
  · intro digit
    have number := ten (numberAt true str)
    rw [if_pos digit] at number
    have found : subjectOf true 10 str = some (signedValue (takeSign true (skipSpace str)).1 _, _) :=
      congrArg (Option.map _) number
    obtain ⟨s, split, subject⟩ := subjectOf_sound found
    exact ⟨s, _, _, split, subject⟩

/-- `strtol` and `strtoul` read what the standard asks for exactly where `Parses` says so, and
`%d` stores and counts for digits alone exactly where there is one. -/
theorem strtol_reads_iff (str : CStr) (base : Nat) (valid : base = 0 ∨ 2 ≤ base ∧ base ≤ 36) :
    (Reads true base str (strtol str base) ↔ Parses true base str) ∧
    (Reads false base str (strtoul str base) ↔ Parses false base str) ∧
    ((((scanInt str).stored ≠ none ∨ (scanInt str).counted = true) →
        ∃ s v rest, str = s ++ rest ∧ Subject true 10 s v) ↔
      (numberAt true str).head?.any (below 10) = true) := by
  refine ⟨scanNumber_reads_iff true str valid, scanNumber_reads_iff false str valid, ?_⟩
  rw [subject_ten_iff]
  have stored : (scanInt str).stored ≠ none := Option.some_ne_none _
  exact ⟨fun law => law (Or.inl stored), fun digit _ => digit⟩

/-- ` -0x1f` in base 16 is read. -/
theorem strtol_reads_hex :
    (2 ≤ 16 ∧ 16 ≤ 36) ∧
    Reads true 16 (" -0x1f".toList.map chr) (strtol (" -0x1f".toList.map chr) 16) :=
  ⟨by decide, ((strtol_reads_iff (" -0x1f".toList.map chr) 16 (by decide)).1).mpr
    (by unfold Parses BarePrefix; decide)⟩

/-- `0xz` in base 16: the end is put behind the x. -/
theorem strtol_bare_prefix :
    ¬ ∀ (str : CStr) (base : Nat), base = 0 ∨ 2 ≤ base ∧ base ≤ 36 →
      Reads true base str (strtol str base) := by
  intro all
  have reads := all ("0xz".toList.map chr) 16 (by decide)
  rw [reads_iff] at reads
  exact absurd reads (by decide)

end NpcMachine.Klib
