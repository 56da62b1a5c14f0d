/-
# Klib.PrintInt -- %d against the C standard

`standardText` is the field of the standard: the sign, if there is one, and the decimal
digits, padded to the width on the right, with zeros behind the sign, or on the left.
The code puts the sign before it pads and takes it off the unsigned width.

`Prints` is the condition under which the two are the same text
(`printInt_standard_iff`): a printed sign needs a width, which otherwise wraps below 0;
spaces on the left come after the sign; 0 never gets a sign; and of `+` and a space the
last flag wins.
-/
import Mathlib.Data.Nat.Digits.Lemmas
import NpcMachine.Klib.Printf

namespace NpcMachine.Klib

set_option autoImplicit false

/-! ## Numerals -/

def decimal (n : Nat) : CStr := (Nat.toDigits 10 n).map chr

theorem digit_chr : ∀ d, d < 10 → chr (Nat.digitChar d) = digitChar false d := by decide

theorem digit_isDigit : ∀ d, d < 10 → IsDigit (digitChar false d) := by decide

theorem digit_value : ∀ d, d < 10 → ((digitChar false d - chr '0').setWidth 32).toNat = d := by decide

theorem digit_ne_zero : ∀ d, d < 10 → d ≠ 0 → digitChar false d ≠ chr '0' := by decide

theorem decimal_eq (n : Nat) : decimal n =
    if n < 10 then [digitChar false n] else decimal (n / 10) ++ [digitChar false (n % 10)] := by
  unfold decimal
  rw [Nat.toDigits_eq_if (by decide)]
  split_ifs with small
  · rw [List.map_singleton, digit_chr n small]
  · rw [List.map_append, List.map_singleton, digit_chr _ (Nat.mod_lt n (by decide))]

theorem decimal_length_pos (n : Nat) : 0 < (decimal n).length := by
  rw [decimal, List.length_map]
  exact Nat.length_toDigits_pos

theorem decimal_length_le {n : Nat} (small : n < 2 ^ 64) : (decimal n).length ≤ 20 := by
  rw [decimal, List.length_map]
  exact Nat.toDigits_length 10 n 20 (by decide) (by omega)

theorem decimal_isDigit (n : Nat) : ∀ c ∈ decimal n, IsDigit c := by
  induction n using Nat.strong_induction_on with
  | _ n ih =>
      intro c held
      rw [decimal_eq] at held
      split_ifs at held with small
      · rw [List.mem_singleton.mp held]
        exact digit_isDigit n small
      · rcases List.mem_append.mp held with front | last
        · exact ih (n / 10) (by omega) c front
        · rw [List.mem_singleton.mp last]
          exact digit_isDigit _ (Nat.mod_lt n (by decide))

/-- A numeral that is not 0 has no leading 0. -/
theorem decimal_head (n : Nat) (pos : n ≠ 0) : (decimal n).head? ≠ some (chr '0') := by
  induction n using Nat.strong_induction_on with
  | _ n ih =>
      rw [decimal_eq]
      split_ifs with small
      · intro zero
        exact digit_ne_zero n small pos (Option.some.inj zero)
      · have some := List.length_pos_iff.mp (decimal_length_pos (n / 10))
        rw [List.head?_append_of_ne_nil _ some]
        exact ih (n / 10) (by omega) (by omega)

/-- The digits of the buffer, in the order they are put. -/
theorem decimal_eq_buffer (n : Nat) :
    ((digitBuffer 10 n).map (digitChar false)).reverse = decimal n := by
  have digits : ∀ n, n ≠ 0 → ((Nat.digits 10 n).map (digitChar false)).reverse = decimal n := by
    intro n
    induction n using Nat.strong_induction_on with
    | _ n ih =>
        intro pos
        rw [Nat.digits_eq_cons_digits_div (by decide) pos, decimal_eq, List.map_cons,
          List.reverse_cons]
        split_ifs with small
        · have none : n / 10 = 0 := by omega
          rw [none, Nat.mod_eq_of_lt small]
          rfl
        · rw [ih (n / 10) (by omega) (by omega)]
  unfold digitBuffer
  split_ifs with zero
  · rw [zero]
    rfl
  · exact digits n zero

/-- A width, written out; 0 is no width at all. -/
def widthText (W : Nat) : CStr := if W = 0 then [] else decimal W

theorem widthOf_append (s : CStr) (c : BitVec 8) :
    widthOf (s ++ [c]) = widthOf s * 10#32 + (c - chr '0').setWidth 32 := by
  rw [widthOf, List.foldl_append]
  rfl

theorem widthOf_decimal (W : Nat) : widthOf (decimal W) = BitVec.ofNat 32 W := by
  induction W using Nat.strong_induction_on with
  | _ W ih =>
      have last := digit_value (W % 10) (Nat.mod_lt W (by decide))
      have ten : (10#32).toNat = 10 := rfl
      apply BitVec.eq_of_toNat_eq
      rw [decimal_eq]
      split_ifs with small
      · have one : widthOf [digitChar false W] = 0#32 * 10#32 + (digitChar false W - chr '0').setWidth 32 := rfl
        rw [one, BitVec.zero_mul, BitVec.zero_add, digit_value W small, BitVec.toNat_ofNat]
        omega
      · rw [widthOf_append, ih (W / 10) (by omega), BitVec.toNat_add, BitVec.toNat_mul, last, ten,
          BitVec.toNat_ofNat, BitVec.toNat_ofNat]
        omega

theorem widthOf_widthText (W : Nat) : widthOf (widthText W) = BitVec.ofNat 32 W := by
  unfold widthText
  split_ifs with zero
  · rw [zero]
    rfl
  · exact widthOf_decimal W

/-! ## Flags -/

/-- The sign that the flags leave: the last one asked for. -/
def lastSign (fl : CStr) : BitVec 8 :=
  fl.foldl (fun sign c => if c = chr '+' then chr '+' else if c = chr ' ' then chr ' ' else sign) 0#8

theorem set_foldl (fl : CStr) (f : Flags) (all : ∀ c ∈ fl, IsFlag c) :
    fl.foldl Flags.set f =
      ⟨f.leftJustified || fl.contains (chr '-'),
        fl.foldl (fun sign c => if c = chr '+' then chr '+' else if c = chr ' ' then chr ' ' else sign)
          f.sign,
        if chr '0' ∈ fl then chr '0' else f.padding⟩ := by
  induction fl generalizing f with
  | nil => simp
  | cons c fl ih =>
      have each : c = chr '-' ∨ c = chr '+' ∨ c = chr ' ' ∨ c = chr '0' ∨ c = chr '#' := by
        simpa [IsFlag] using all c List.mem_cons_self
      rw [List.foldl_cons, ih _ fun d held => all d (List.mem_cons_of_mem _ held), List.foldl_cons]
      rcases each with rfl | rfl | rfl | rfl | rfl
      all_goals simp [Flags.set, chr]

theorem lastSign_cases (fl : CStr) :
    (lastSign fl = 0#8 ∧ chr '+' ∉ fl ∧ chr ' ' ∉ fl) ∨ (lastSign fl = chr '+' ∧ chr '+' ∈ fl) ∨
      (lastSign fl = chr ' ' ∧ chr ' ' ∈ fl) := by
  induction fl using List.reverseRecOn with
  | nil => exact Or.inl ⟨rfl, List.not_mem_nil, List.not_mem_nil⟩
  | append_singleton fl c ih =>
      have step : lastSign (fl ++ [c]) =
          if c = chr '+' then chr '+' else if c = chr ' ' then chr ' ' else lastSign fl := by
        rw [lastSign, List.foldl_append]
        rfl
      rw [step]
      split_ifs with plus space
      · exact Or.inr (Or.inl ⟨rfl, by simp [plus]⟩)
      · exact Or.inr (Or.inr ⟨rfl, by simp [space]⟩)
      · rcases ih with ⟨none, noPlus, noSpace⟩ | ⟨last, held⟩ | ⟨last, held⟩
        · refine Or.inl ⟨none, ?_, ?_⟩
          · simp [noPlus, Ne.symm plus]
          · simp [noSpace, Ne.symm space]
        · exact Or.inr (Or.inl ⟨last, List.mem_append_left _ held⟩)
        · exact Or.inr (Or.inr ⟨last, List.mem_append_left _ held⟩)

/-! ## The field of the standard -/

def standardSign (v : Int) (fl : CStr) : CStr :=
  if v < 0 then [chr '-'] else if chr '+' ∈ fl then [chr '+'] else if chr ' ' ∈ fl then [chr ' '] else []

/-- The text of `%d` for the value `v` under the flags `fl` and the width `W`. -/
def standardText (v : Int) (fl : CStr) (W : Nat) : CStr :=
  let sign := standardSign v fl
  let digits := decimal v.natAbs
  let pad := W - (sign.length + digits.length)
  if chr '-' ∈ fl then sign ++ digits ++ List.replicate pad (chr ' ')
  else if chr '0' ∈ fl then sign ++ List.replicate pad (chr '0') ++ digits
  else List.replicate pad (chr ' ') ++ sign ++ digits

/-- The values, flags and widths that are printed as the standard says. -/
def Prints (v : Int) (fl : CStr) (W : Nat) : Prop :=
  let digits := (decimal v.natAbs).length
  if v < 0 then
    (1 ≤ W ∧ W ≤ 2 ^ 32) ∧ (chr '-' ∈ fl ∨ chr '0' ∈ fl ∨ W ≤ digits + 1)
  else if chr '+' ∉ fl ∧ chr ' ' ∉ fl then W < 2 ^ 32
  else if v = 0 then
    (chr '+' ∉ fl ∧ chr '-' ∉ fl ∧ chr '0' ∉ fl) ∧ 2 ≤ W ∧ W < 2 ^ 32
  else
    (1 ≤ W ∧ W ≤ 2 ^ 32) ∧ (chr '+' ∈ fl → lastSign fl = chr '+') ∧
      (chr '-' ∈ fl ∨ chr '0' ∈ fl ∨ chr '+' ∉ fl ∨ W ≤ digits + 1)

/-! ## The text of the code -/

/-- Digits in a field of `w` characters, behind a sign that is already out. -/
def fieldText (digits : CStr) (fl : CStr) (w : Nat) : CStr :=
  let pad := w - digits.length
  if chr '-' ∈ fl then digits ++ List.replicate pad (chr ' ')
  else List.replicate pad (if chr '0' ∈ fl then chr '0' else chr ' ') ++ digits

theorem printfNumber_eq (n : Nat) (width : BitVec 32) (fl : CStr) :
    printfNumber 10 false n width (fl.contains (chr '-')) (if chr '0' ∈ fl then chr '0' else chr ' ') =
      fieldText (decimal n) fl width.toNat := by
  have digits := decimal_eq_buffer n
  have length : ((digitBuffer 10 n).map (digitChar false)).length = (decimal n).length := by
    rw [← digits, List.length_reverse]
  unfold printfNumber fieldText printfPad
  simp only [digits, length]
  by_cases left : chr '-' ∈ fl
  · have flag : fl.contains (chr '-') = true := List.contains_iff_mem.mpr left
    rw [flag, if_pos left]
    by_cases wide : (decimal n).length < width.toNat
    · simp [wide]
    · have none : width.toNat - (decimal n).length = 0 := by omega
      simp [wide, none]
  · have flag : fl.contains (chr '-') = false := by
      rw [← Bool.not_eq_true, List.contains_iff_mem]
      exact left
    rw [flag, if_neg left]
    by_cases wide : (decimal n).length < width.toNat
    · simp [wide]
    · have none : width.toNat - (decimal n).length = 0 := by omega
      simp [wide, none]

/-- `width - 1` on 32 bits. -/
def lessOne (W : Nat) : Nat := (W % 2 ^ 32 + (2 ^ 32 - 1)) % 2 ^ 32

def codeText (v : Int) (fl : CStr) (W : Nat) : CStr :=
  if lastSign fl ≠ 0#8 ∧ 0 < v then lastSign fl :: fieldText (decimal v.natAbs) fl (lessOne W)
  else if v < 0 then chr '-' :: fieldText (decimal v.natAbs) fl (lessOne W)
  else fieldText (decimal v.natAbs) fl (W % 2 ^ 32)

theorem toNat_neg_eq {w : Nat} {n : BitVec w} (negative : n.toInt < 0) : (-n).toNat = n.toInt.natAbs := by
  have bound := n.isLt
  rw [BitVec.toInt_eq_toNat_cond] at negative ⊢
  rw [BitVec.toNat_neg]
  split_ifs at negative ⊢ with low
  · omega
  · rw [Nat.mod_eq_of_lt (by omega)]
    omega

theorem toNat_eq_natAbs {w : Nat} {n : BitVec w} (positive : 0 ≤ n.toInt) : n.toNat = n.toInt.natAbs := by
  have bound := n.isLt
  rw [BitVec.toInt_eq_toNat_cond] at positive ⊢
  split_ifs at positive ⊢ with low
  · exact (Int.natAbs_natCast _).symm
  · omega

theorem printfInt_eq {w : Nat} (n : BitVec w) (fl : CStr) (W : Nat) :
    printfInt n (BitVec.ofNat 32 W) (fl.contains (chr '-')) (if chr '0' ∈ fl then chr '0' else chr ' ')
      (lastSign fl) = codeText n.toInt fl W := by
  have one : (1#32).toNat = 1 := rfl
  have width : (BitVec.ofNat 32 W).toNat = W % 2 ^ 32 := BitVec.toNat_ofNat W 32
  have less : (BitVec.ofNat 32 W - 1#32).toNat = lessOne W := by
    rw [BitVec.toNat_sub, width, one, Nat.add_comm]
    rfl
  unfold printfInt codeText
  rw [printfNumber_eq, printfNumber_eq, printfNumber_eq, less, width]
  split_ifs with signed negative
  · rw [toNat_eq_natAbs (by omega)]
  · rw [toNat_neg_eq negative]
  · rw [toNat_eq_natAbs (by omega)]

/-! ## Both texts -/

theorem replicate_cons_iff {x s t : BitVec 8} {p q : Nat} (D : CStr) :
    s :: (List.replicate p x ++ D) = List.replicate q x ++ t :: D ↔
      p = q ∧ s = t ∧ (t = x ∨ q = 0) := by
  constructor
  · intro same
    have length := congrArg List.length same
    simp only [List.length_cons, List.length_append, List.length_replicate] at length
    have pads : p = q := by omega
    subst pads
    cases p with
    | zero => exact ⟨rfl, (List.cons.inj same).1, Or.inr rfl⟩
    | succ p =>
        rw [List.replicate_succ', List.append_assoc, ← List.replicate_succ', List.replicate_succ,
          List.cons_append, List.cons_append] at same
        obtain ⟨head, rest⟩ := List.cons.inj same
        have last := (List.cons.inj (List.append_cancel_left rest)).1
        exact ⟨rfl, by rw [head, last], Or.inl last.symm⟩
  · rintro ⟨rfl, rfl, rfl | none⟩
    · rw [← List.cons_append, ← List.replicate_succ, List.replicate_succ', List.append_assoc]
      rfl
    · rw [none]
      rfl

theorem lessOne_iff {W digits : Nat} (pos : 0 < digits) (few : digits ≤ 20) :
    lessOne W - digits = W - (1 + digits) ↔ 1 ≤ W ∧ W ≤ 2 ^ 32 := by
  unfold lessOne
  omega

/-- A sign that is printed. -/
theorem signed_iff {s t : BitVec 8} {D : CStr} (fl : CStr) (W : Nat) (pos : 0 < D.length)
    (few : D.length ≤ 20) :
    s :: fieldText D fl (lessOne W) =
      (if chr '-' ∈ fl then [t] ++ D ++ List.replicate (W - (1 + D.length)) (chr ' ')
        else if chr '0' ∈ fl then [t] ++ List.replicate (W - (1 + D.length)) (chr '0') ++ D
        else List.replicate (W - (1 + D.length)) (chr ' ') ++ [t] ++ D) ↔
      (1 ≤ W ∧ W ≤ 2 ^ 32) ∧ s = t ∧
        (chr '-' ∈ fl ∨ chr '0' ∈ fl ∨ t = chr ' ' ∨ W ≤ D.length + 1) := by
  rw [← lessOne_iff pos few]
  unfold fieldText
  by_cases left : chr '-' ∈ fl
  · simp [left, List.replicate_inj, and_comm]
  · by_cases zero : chr '0' ∈ fl
    · simp [left, zero, List.replicate_inj, and_comm]
    · have none : W - (1 + D.length) = 0 ↔ W ≤ D.length + 1 := by omega
      simp only [left, zero, if_false, false_or, List.append_assoc, List.singleton_append]
      rw [replicate_cons_iff, none]

/-- No sign on either side. -/
theorem unsigned_iff {D : CStr} (fl : CStr) (W : Nat) (pos : 0 < D.length) (few : D.length ≤ 20) :
    fieldText D fl (W % 2 ^ 32) =
      (if chr '-' ∈ fl then D ++ List.replicate (W - D.length) (chr ' ')
        else if chr '0' ∈ fl then List.replicate (W - D.length) (chr '0') ++ D
        else List.replicate (W - D.length) (chr ' ') ++ D) ↔ W < 2 ^ 32 := by
  have width : W % 2 ^ 32 - D.length = W - D.length ↔ W < 2 ^ 32 := by omega
  rw [← width]
  unfold fieldText
  by_cases left : chr '-' ∈ fl
  · simp [left, List.replicate_inj]
  · by_cases zero : chr '0' ∈ fl
    · simp [left, zero, List.replicate_inj]
    · simp [left, zero, List.replicate_inj]

/-- The value 0, whose sign is only asked for. -/
theorem zero_iff {t : BitVec 8} (fl : CStr) (W : Nat) (sign : t = chr '+' ∨ t = chr ' ') :
    fieldText [chr '0'] fl (W % 2 ^ 32) =
      (if chr '-' ∈ fl then [t] ++ [chr '0'] ++ List.replicate (W - 2) (chr ' ')
        else if chr '0' ∈ fl then [t] ++ List.replicate (W - 2) (chr '0') ++ [chr '0']
        else List.replicate (W - 2) (chr ' ') ++ [t] ++ [chr '0']) ↔
      (t = chr ' ' ∧ chr '-' ∉ fl ∧ chr '0' ∉ fl) ∧ 2 ≤ W ∧ W < 2 ^ 32 := by
  have other : chr '0' ≠ t := by
    rcases sign with rfl | rfl <;> decide
  unfold fieldText
  by_cases left : chr '-' ∈ fl
  · simp [left, other]
  · by_cases zero : chr '0' ∈ fl
    · have pads : ∀ p, List.replicate p (chr '0') ++ [chr '0'] = chr '0' :: List.replicate p (chr '0') := by
        intro p
        rw [← List.replicate_succ', List.replicate_succ]
      simp [left, zero, pads, other]
    · have width : W % 2 ^ 32 - 1 = W - 2 + 1 ↔ 2 ≤ W ∧ W < 2 ^ 32 := by omega
      have pads : List.replicate (W % 2 ^ 32 - 1) (chr ' ') = List.replicate (W - 2) (chr ' ') ++ [t] ↔
          W % 2 ^ 32 - 1 = W - 2 + 1 ∧ t = chr ' ' := by
        constructor
        · intro same
          have length := congrArg List.length same
          rw [List.length_append, List.length_replicate, List.length_replicate] at length
          rw [length, List.length_singleton, List.replicate_succ'] at same
          exact ⟨length, (List.cons.inj (List.append_cancel_left same)).1.symm⟩
        · rintro ⟨length, rfl⟩
          rw [length, List.replicate_succ']
      simp only [left, zero, if_false, List.length_singleton, not_false_eq_true, and_true]
      rw [List.append_cancel_right_eq, pads, width, and_comm]

theorem lastSign_eq_zero_iff (fl : CStr) : lastSign fl = 0#8 ↔ chr '+' ∉ fl ∧ chr ' ' ∉ fl := by
  have some : chr '+' ≠ 0#8 ∧ chr ' ' ≠ 0#8 := by decide
  rcases lastSign_cases fl with zero | plus | space
  · exact iff_of_true zero.1 zero.2
  · exact iff_of_false (plus.1 ▸ some.1) fun none => none.1 plus.2
  · exact iff_of_false (space.1 ▸ some.2) fun none => none.2 space.2

/-- The sign that the standard puts in front of a number that is not negative. -/
def plainSign (fl : CStr) : BitVec 8 := if chr '+' ∈ fl then chr '+' else chr ' '

theorem plainSign_asked {fl : CStr} (asked : ¬ (chr '+' ∉ fl ∧ chr ' ' ∉ fl)) :
    (if chr '+' ∈ fl then [chr '+'] else if chr ' ' ∈ fl then [chr ' '] else []) = [plainSign fl] := by
  unfold plainSign
  by_cases plus : chr '+' ∈ fl
  · simp [plus]
  · have space : chr ' ' ∈ fl := by
      by_contra noSpace
      exact asked ⟨plus, noSpace⟩
    simp [plus, space]

/-- The last flag is the sign of the standard unless a space comes behind a `+`. -/
theorem lastSign_eq_iff {fl : CStr} (asked : ¬ (chr '+' ∉ fl ∧ chr ' ' ∉ fl)) :
    lastSign fl = plainSign fl ↔ (chr '+' ∈ fl → lastSign fl = chr '+') := by
  unfold plainSign
  by_cases plus : chr '+' ∈ fl
  · simp [plus]
  · have space : lastSign fl = chr ' ' := by
      rcases lastSign_cases fl with zero | other | space
      · exact absurd zero.2 asked
      · exact absurd other.2 plus
      · exact space.1
    simp [plus, space]

theorem plainSign_eq_space_iff (fl : CStr) : plainSign fl = chr ' ' ↔ chr '+' ∉ fl := by
  have plusSpace : chr '+' ≠ chr ' ' := by decide
  unfold plainSign
  split_ifs with plus <;> simp [plus, plusSpace]

theorem codeText_iff (v : Int) (fl : CStr) (W : Nat) (small : v.natAbs < 2 ^ 64) :
    codeText v fl W = standardText v fl W ↔ Prints v fl W := by
  have pos := decimal_length_pos v.natAbs
  have few := decimal_length_le small
  have minus : chr '-' ≠ chr ' ' := by decide
  unfold codeText standardText standardSign Prints
  by_cases negative : v < 0
  · have notPos : ¬ (lastSign fl ≠ 0#8 ∧ 0 < v) := by omega
    simp only [negative, notPos, if_true, if_false, List.length_singleton]
    rw [signed_iff fl W pos few]
    simp [minus]
  · by_cases none : chr '+' ∉ fl ∧ chr ' ' ∉ fl
    · have noSign := (lastSign_eq_zero_iff fl).mpr none
      simp only [negative, none, noSign, ne_eq, not_true_eq_false, false_and, if_false, not_false_eq_true,
        and_self, if_true, List.length_nil, Nat.zero_add, List.nil_append, List.append_nil]
      exact unsigned_iff fl W pos few
    · have someSign : lastSign fl ≠ 0#8 := fun zero => none ((lastSign_eq_zero_iff fl).mp zero)
      simp only [negative, none, if_false, plainSign_asked none, List.length_singleton]
      by_cases zero : v = 0
      · subst zero
        have digits : decimal (Int.natAbs 0) = [chr '0'] := rfl
        simp only [lt_irrefl, and_false, if_false, digits, if_true, List.length_singleton]
        rw [zero_iff fl W (by unfold plainSign; split_ifs <;> simp), plainSign_eq_space_iff]
      · have positive : lastSign fl ≠ 0#8 ∧ 0 < v := ⟨someSign, by omega⟩
        rw [if_pos positive, if_neg zero, signed_iff fl W pos few, lastSign_eq_iff none, plainSign_eq_space_iff]

/-! ## %d, %ld and %lld -/

inductive IntArg where
  | int (n : BitVec 32)
  | long (n : BitVec 32)
  | longLong (n : BitVec 64)

namespace IntArg

def value : IntArg → Int
  | int n => n.toInt
  | long n => n.toInt
  | longLong n => n.toInt

def mods : IntArg → CStr
  | int _ => []
  | long _ => [chr 'l']
  | longLong _ => [chr 'l', chr 'l']

def arg : IntArg → Arg
  | int n => .int n
  | long n => .int n
  | longLong n => .llong n

theorem value_small (x : IntArg) : x.value.natAbs < 2 ^ 64 := by
  cases x with
  | int n =>
      have low := n.le_toInt
      have high := n.toInt_lt
      simp only [value]
      omega
  | long n =>
      have low := n.le_toInt
      have high := n.toInt_lt
      simp only [value]
      omega
  | longLong n =>
      have low := n.le_toInt
      have high := n.toInt_lt
      simp only [value]
      omega

/-- The conversion of the argument with the flags `fl` and the width `W`. -/
def spec (x : IntArg) (fl : CStr) (W : Nat) : Spec :=
  { flags := fl, width := widthText W, mods := x.mods, conv := chr 'd' }

theorem spec_wf (x : IntArg) {fl : CStr} (flags : ∀ c ∈ fl, IsFlag c) (W : Nat) : (x.spec fl W).Wf where
  flags := flags
  width := by
    intro c held
    simp only [spec, widthText] at held
    split_ifs at held
    · exact absurd held List.not_mem_nil
    · exact decimal_isDigit W c held
  widthHead := by
    simp only [spec, widthText]
    split_ifs with zero
    · simp
    · exact decimal_head W zero
  precision := fun p none => nomatch none
  mods := by
    unfold IsLength
    cases x <;> simp [spec, mods]
  conv := by
    unfold IsConversion
    simp only [spec]
    decide

theorem convert_eq (x : IntArg) {fl : CStr} (flags : ∀ c ∈ fl, IsFlag c) (W : Nat) :
    (x.spec fl W).convert [x.arg] = some (codeText x.value fl W, []) := by
  have set : fl.foldl Flags.set {} = ⟨fl.contains (chr '-'), lastSign fl,
      if chr '0' ∈ fl then chr '0' else chr ' '⟩ := by
    rw [set_foldl fl {} flags, Bool.false_or]
    rfl
  simp only [Spec.convert, spec, set, widthOf_widthText]
  cases x with
  | int n => exact congrArg (fun text => some (text, [])) (printfInt_eq n fl W)
  | long n => exact congrArg (fun text => some (text, [])) (printfInt_eq n fl W)
  | longLong n => exact congrArg (fun text => some (text, [])) (printfInt_eq n fl W)

theorem backend_eq (x : IntArg) {fl : CStr} (flags : ∀ c ∈ fl, IsFlag c) (W : Nat) :
    printfBackend (x.spec fl W).render [x.arg] = some (codeText x.value fl W ++ [0#8]) := by
  have more : ∀ fuel, 0 < fuel → formatLoop fuel [0#8] [] = some [0#8] := by
    rintro (_ | fuel) pos
    · omega
    · rw [formatLoop_char fuel [] [] (by decide), formatLoop_nil]
      rfl
  rw [printfBackend, formatLoop_spec _ (x.spec_wf flags W), convert_eq x flags W, Option.bind_some,
    more _ (by simp [Spec.render])]
  rfl

end IntArg

/-- `%d`, `%ld` and `%lld` hand the characters of the standard's text to `printf_putch` exactly
when `Prints` holds; the format loop hands it the terminator after them.  A `max_count` of the
caller cuts later than this. -/
theorem printInt_standard_iff (x : IntArg) (fl : CStr) (flags : ∀ c ∈ fl, c ∈ "-0+ ".toList.map chr)
    (W : Nat) :
    printfBackend (x.spec fl W).render [x.arg] = some (standardText x.value fl W ++ [0#8]) ↔
      Prints x.value fl W := by
  have all : ∀ c ∈ fl, IsFlag c := by
    intro c held
    have sub : ∀ c ∈ "-0+ ".toList.map chr, c ∈ "-+ 0#".toList.map chr := by decide
    exact sub c (flags c held)
  rw [x.backend_eq all W, Option.some_inj, List.append_cancel_right_eq]
  exact codeText_iff x.value fl W x.value_small

/-- `-42` in six places behind zeros, and `-5` in six places behind spaces. -/
theorem printInt_standard_negative :
    (printfBackend ((IntArg.int (-42)).spec [chr '0'] 6).render [(IntArg.int (-42)).arg] =
      some (standardText (-42) [chr '0'] 6 ++ [0#8])) ∧
    ¬ (printfBackend ((IntArg.int (-5)).spec [] 6).render [(IntArg.int (-5)).arg] =
      some (standardText (-5) [] 6 ++ [0#8])) :=
  ⟨(printInt_standard_iff (.int (-42)) [chr '0'] (by decide) 6).mpr (by unfold Prints; decide),
    fun same => absurd ((printInt_standard_iff (.int (-5)) [] (by decide) 6).mp same)
      (by unfold Prints; decide)⟩

/-- `%6d` puts `-    5` for -5. -/
theorem printInt_six :
    ¬ ∀ (x : IntArg) (fl : CStr) (W : Nat), (∀ c ∈ fl, c ∈ "-0+ ".toList.map chr) →
      printfBackend (x.spec fl W).render [x.arg] = some (standardText x.value fl W ++ [0#8]) := by
  intro all
  have same := all (.int (-5)) [] 6 (by decide)
  have code : printfBackend ((IntArg.int (-5)).spec [] 6).render [(IntArg.int (-5)).arg] =
      some ("-    5".toList.map chr ++ [0#8]) := by decide
  rw [code] at same
  exact absurd same (by decide)

end NpcMachine.Klib
