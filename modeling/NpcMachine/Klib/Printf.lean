/-
# Klib.Printf -- the formatter of klib

`printf_backend` of `stdio.c` on a 32-bit machine.  The formatter touches its state only
through `printf_putch`, so each function of it is the list of characters that it puts, in
order, and `printfPutch` is folded over that list by the callers.  A character is a byte,
`size_t` and `int` are 32 bits, and `va_list` is the list of the arguments left: a
conversion that finds no argument of its type has no defined result.

The format loop runs over `strlen(fmt) + 1` characters; `convert` is its `switch`.

* `formatLoop_spec`: the loop at a conversion that is written out by `Spec.render`;
* `formatLoop_char`: the loop at any other character, the terminator included.
-/
import Mathlib.Data.BitVec
import Mathlib.Data.Nat.Digits.Defs

namespace NpcMachine.Klib

set_option autoImplicit false

abbrev CStr := List (BitVec 8)

def chr (c : Char) : BitVec 8 := BitVec.ofNat 8 c.toNat

instance (c : BitVec 8) (s : CStr) : Decidable (c ∈ s) := List.instDecidableMemOfLawfulBEq c s

/-! ## Conversions -/

def printfPad (ch : BitVec 8) (n : Nat) : CStr := List.replicate n ch

def printfChar (ch : BitVec 8) (width : BitVec 32) (left : Bool) : CStr :=
  let pad := if 1#32 < width then printfPad (chr ' ') (width - 1#32).toNat else []
  if left then ch :: pad else pad ++ [ch]

def printfString (s : CStr) (width : BitVec 32) (left : Bool) : CStr :=
  let len := s.length
  (if len < width.toNat ∧ left = false then printfPad (chr ' ') (width.toNat - len) else []) ++ s ++
    (if len < width.toNat ∧ left = true then printfPad (chr ' ') (width.toNat - len) else [])

/-- The character of a digit. -/
def digitChar (upperCase : Bool) (d : Nat) : BitVec 8 :=
  if d < 10 then BitVec.ofNat 8 d + chr '0'
  else BitVec.ofNat 8 (d - 10) + (if upperCase then chr 'A' else chr 'a')

/-- The digits of `n` in the buffer, least significant first. -/
def digitBuffer (base n : Nat) : List Nat := if n = 0 then [0] else Nat.digits base n

/-- The common body of the unsigned conversions. -/
def printfNumber (base : Nat) (upperCase : Bool) (n : Nat) (width : BitVec 32) (left : Bool)
    (padding : BitVec 8) : CStr :=
  let buffer := (digitBuffer base n).map (digitChar upperCase)
  let digits := buffer.length
  (if left = false ∧ digits < width.toNat then printfPad padding (width.toNat - digits) else []) ++
    buffer.reverse ++
    (if left = true ∧ digits < width.toNat then printfPad (chr ' ') (width.toNat - digits) else [])

def printfUint32 (n width : BitVec 32) (left : Bool) (padding : BitVec 8) : CStr :=
  printfNumber 10 false n.toNat width left padding

def printfUint64 (n : BitVec 64) (width : BitVec 32) (left : Bool) (padding : BitVec 8) : CStr :=
  printfNumber 10 false n.toNat width left padding

def printfHex32 (n width : BitVec 32) (left : Bool) (padding : BitVec 8) (upperCase : Bool) : CStr :=
  printfNumber 16 upperCase n.toNat width left padding

def printfHex64 (n : BitVec 64) (width : BitVec 32) (left : Bool) (padding : BitVec 8)
    (upperCase : Bool) : CStr :=
  printfNumber 16 upperCase n.toNat width left padding

def printfOctal32 (n width : BitVec 32) (left : Bool) (padding : BitVec 8) : CStr :=
  printfNumber 8 false n.toNat width left padding

def printfOctal64 (n : BitVec 64) (width : BitVec 32) (left : Bool) (padding : BitVec 8) : CStr :=
  printfNumber 8 false n.toNat width left padding

/-- The common body of the signed conversions: `-n` wraps, and so does `width - 1`. -/
def printfInt {w : Nat} (n : BitVec w) (width : BitVec 32) (left : Bool) (padding sign : BitVec 8) :
    CStr :=
  if sign ≠ 0#8 ∧ 0 < n.toInt then
    sign :: printfNumber 10 false n.toNat (width - 1#32) left padding
  else if n.toInt < 0 then
    chr '-' :: printfNumber 10 false (-n).toNat (width - 1#32) left padding
  else printfNumber 10 false n.toNat width left padding

def printfInt32 (n width : BitVec 32) (left : Bool) (padding sign : BitVec 8) : CStr :=
  printfInt n width left padding sign

def printfInt64 (n : BitVec 64) (width : BitVec 32) (left : Bool) (padding sign : BitVec 8) : CStr :=
  printfInt n width left padding sign

/-! ## The conversion specification -/

structure Flags where
  leftJustified : Bool := false
  sign : BitVec 8 := 0#8
  padding : BitVec 8 := chr ' '
  deriving DecidableEq

/-- The flag loop, up to the first character that is no flag. -/
def parseFlags (f : Flags) : CStr → Flags × CStr
  | [] => (f, [])
  | c :: rest =>
      if c = chr '-' then parseFlags { f with leftJustified := true } rest
      else if c = chr '+' then parseFlags { f with sign := chr '+' } rest
      else if c = chr ' ' then parseFlags { f with sign := chr ' ' } rest
      else if c = chr '0' then parseFlags { f with padding := chr '0' } rest
      else if c = chr '#' then parseFlags f rest
      else (f, c :: rest)

def IsDigit (c : BitVec 8) : Prop := chr '0' ≤ c ∧ c ≤ chr '9'

instance (c : BitVec 8) : Decidable (IsDigit c) := inferInstanceAs (Decidable (_ ∧ _))

def parseWidth (width : BitVec 32) : CStr → BitVec 32 × CStr
  | [] => (width, [])
  | c :: rest =>
      if IsDigit c then parseWidth (width * 10#32 + (c - chr '0').setWidth 32) rest
      else (width, c :: rest)

def skipDigits : CStr → CStr
  | [] => []
  | c :: rest => if IsDigit c then skipDigits rest else c :: rest

def skipPrecision : CStr → CStr
  | [] => []
  | c :: rest => if c = chr '.' then skipDigits rest else c :: rest

def parseLength (level : Int) : CStr → Int × CStr
  | [] => (level, [])
  | c :: rest =>
      if c = chr 'l' then parseLength (level + 1) rest
      else if c = chr 'h' then parseLength (level - 1) rest
      else (level, c :: rest)

inductive Arg where
  | int (n : BitVec 32)
  | llong (n : BitVec 64)
  | str (s : Option CStr)
  | double (bits : BitVec 64)
  deriving DecidableEq

/-- A conversion that takes a 32-bit argument, `long` included, or a 64-bit one. -/
def takeInt (level : Int) (args : List Arg) (narrow : BitVec 32 → CStr) (wide : BitVec 64 → CStr) :
    Option (CStr × List Arg) :=
  if level ≤ 1 then
    match args with
    | .int n :: args => some (narrow n, args)
    | _ => none
  else
    match args with
    | .llong n :: args => some (wide n, args)
    | _ => none

/-- The `switch` over the conversion character. -/
def convert (f : Flags) (width : BitVec 32) (level : Int) (conv : BitVec 8) (args : List Arg) :
    Option (CStr × List Arg) :=
  if conv = chr '%' then some (printfChar (chr '%') width f.leftJustified, args)
  else if conv = chr 'c' then
    match args with
    | .int n :: args => some (printfChar (n.setWidth 8) width f.leftJustified, args)
    | _ => none
  else if conv = chr 's' then
    match args with
    | .str s :: args =>
        some (printfString (s.getD ("(null)".toList.map chr)) width f.leftJustified, args)
    | _ => none
  else if conv = chr 'd' ∨ conv = chr 'i' then
    takeInt level args (printfInt32 · width f.leftJustified f.padding f.sign)
      (printfInt64 · width f.leftJustified f.padding f.sign)
  else if conv = chr 'u' then
    takeInt level args (printfUint32 · width f.leftJustified f.padding)
      (printfUint64 · width f.leftJustified f.padding)
  else if conv = chr 'x' ∨ conv = chr 'X' ∨ conv = chr 'p' then
    let upperCase := decide (conv = chr 'X')
    takeInt level args (printfHex32 · width f.leftJustified f.padding upperCase)
      (printfHex64 · width f.leftJustified f.padding upperCase)
  else if conv = chr 'o' then
    takeInt level args (printfOctal32 · width f.leftJustified f.padding)
      (printfOctal64 · width f.leftJustified f.padding)
  else if conv ∈ "fFeEgGaA".toList.map chr then
    match args with
    | .double _ :: args => some ([], args)
    | _ => none
  else some ([], args)

/-! ## The format loop -/

/-- The characters put for the rest of a format; each round takes at least one of them. -/
def formatLoop : Nat → CStr → List Arg → Option CStr
  | 0, _, _ => some []
  | _ + 1, [], _ => some []
  | fuel + 1, c :: rest, args =>
      if c = chr '%' then
        let flags := parseFlags {} rest
        let width := parseWidth 0#32 flags.2
        let level := parseLength 0 (skipPrecision width.2)
        match level.2 with
        | [] => some []
        | conv :: rest => do
            let (text, args) ← convert flags.1 width.1 level.1 conv args
            let more ← formatLoop fuel rest args
            return text ++ more
      else do
        let more ← formatLoop fuel rest args
        return c :: more

/-- The format is the string before its terminator. -/
def printfBackend (fmt : CStr) (args : List Arg) : Option CStr :=
  formatLoop (fmt.length + 1) (fmt ++ [0#8]) args

/-! ## Written conversions -/

def IsFlag (c : BitVec 8) : Prop := c ∈ "-+ 0#".toList.map chr

def IsLength (c : BitVec 8) : Prop := c = chr 'l' ∨ c = chr 'h'

/-- The conversions that are implemented. -/
def IsConversion (c : BitVec 8) : Prop := c ∈ "%csdiuxXpo".toList.map chr

/-- One round of the flag loop. -/
def Flags.set (f : Flags) (c : BitVec 8) : Flags :=
  if c = chr '-' then { f with leftJustified := true }
  else if c = chr '+' then { f with sign := chr '+' }
  else if c = chr ' ' then { f with sign := chr ' ' }
  else if c = chr '0' then { f with padding := chr '0' }
  else f

def levelOf (mods : CStr) : Int :=
  mods.foldl (fun level c => if c = chr 'l' then level + 1 else level - 1) 0

def widthOf (digits : CStr) : BitVec 32 :=
  digits.foldl (fun width c => width * 10#32 + (c - chr '0').setWidth 32) 0#32

structure Spec where
  flags : CStr := []
  width : CStr := []
  precision : Option CStr := none
  mods : CStr := []
  conv : BitVec 8

/-- A width starts with a digit other than 0, which would be a flag. -/
structure Spec.Wf (d : Spec) : Prop where
  flags : ∀ c ∈ d.flags, IsFlag c
  width : ∀ c ∈ d.width, IsDigit c
  widthHead : d.width.head? ≠ some (chr '0')
  precision : ∀ p, d.precision = some p → ∀ c ∈ p, IsDigit c
  mods : ∀ c ∈ d.mods, IsLength c
  conv : IsConversion d.conv

def precisionText : Option CStr → CStr
  | none => []
  | some p => chr '.' :: p

def Spec.render (d : Spec) : CStr :=
  chr '%' :: (d.flags ++ (d.width ++
    (precisionText d.precision ++ (d.mods ++ [d.conv]))))

def Spec.convert (d : Spec) (args : List Arg) : Option (CStr × List Arg) :=
  Klib.convert (d.flags.foldl Flags.set {}) (widthOf d.width) (levelOf d.mods) d.conv args

/-- No character of a class stands first. -/
def Stops (P : BitVec 8 → Prop) (rest : CStr) : Prop := ∀ c, rest.head? = some c → ¬ P c

section Stops

variable {P : BitVec 8 → Prop}

theorem stops_append {s rest : CStr} (here : ∀ c ∈ s, ¬ P c) (after : Stops P rest) :
    Stops P (s ++ rest) := by
  cases s with
  | nil => exact after
  | cons c s =>
      intro d first
      cases first
      exact here c List.mem_cons_self

theorem stops_cons {c : BitVec 8} {rest : CStr} (here : ¬ P c) : Stops P (c :: rest) := by
  intro d first
  cases first
  exact here

end Stops

theorem flag_of_digit {c : BitVec 8} (flag : IsFlag c) (digit : IsDigit c) : c = chr '0' := by
  have each : ∀ c ∈ "-+ 0#".toList.map chr, IsDigit c → c = chr '0' := by decide
  exact each c flag digit

/-- A width does not start with a flag. -/
theorem width_stops {digits rest : CStr} (all : ∀ c ∈ digits, IsDigit c)
    (head : digits.head? ≠ some (chr '0')) (after : Stops IsFlag rest) :
    Stops IsFlag (digits ++ rest) := by
  cases digits with
  | nil => exact after
  | cons c digits =>
      refine stops_cons fun flag => head ?_
      rw [flag_of_digit flag (all c List.mem_cons_self)]
      rfl

theorem conversion_plain {c : BitVec 8} (conv : IsConversion c) :
    ¬ IsFlag c ∧ ¬ IsDigit c ∧ c ≠ chr '.' ∧ ¬ IsLength c := by
  have each : ∀ c ∈ "%csdiuxXpo".toList.map chr, c ∉ "-+ 0#".toList.map chr ∧ ¬ IsDigit c ∧
      c ≠ chr '.' ∧ ¬ (c = chr 'l' ∨ c = chr 'h') := by decide
  exact each c conv

theorem length_plain {c : BitVec 8} (mod : IsLength c) : ¬ IsFlag c ∧ ¬ IsDigit c ∧ c ≠ chr '.' := by
  unfold IsFlag
  rcases mod with rfl | rfl <;> decide

theorem parseFlags_cons (f : Flags) (c : BitVec 8) (rest : CStr) (flag : IsFlag c) :
    parseFlags f (c :: rest) = parseFlags (f.set c) rest := by
  have each : c = chr '-' ∨ c = chr '+' ∨ c = chr ' ' ∨ c = chr '0' ∨ c = chr '#' := by
    simpa [IsFlag] using flag
  rcases each with rfl | rfl | rfl | rfl | rfl <;> rfl

theorem parseFlags_stop (f : Flags) {rest : CStr} (stops : Stops IsFlag rest) :
    parseFlags f rest = (f, rest) := by
  cases rest with
  | nil => rfl
  | cons c rest =>
      have plain : ¬ IsFlag c := stops c rfl
      have each : ¬ (c = chr '-' ∨ c = chr '+' ∨ c = chr ' ' ∨ c = chr '0' ∨ c = chr '#') := by
        simpa [IsFlag] using plain
      simp only [not_or] at each
      obtain ⟨minus, plus, space, zero, hash⟩ := each
      simp only [parseFlags, minus, plus, space, zero, hash, if_false]

theorem parseFlags_append (f : Flags) {fl rest : CStr} (all : ∀ c ∈ fl, IsFlag c)
    (stops : Stops IsFlag rest) : parseFlags f (fl ++ rest) = (fl.foldl Flags.set f, rest) := by
  induction fl generalizing f with
  | nil => exact parseFlags_stop f stops
  | cons c fl ih =>
      rw [List.cons_append, parseFlags_cons f c _ (all c List.mem_cons_self), List.foldl_cons]
      exact ih _ fun d held => all d (List.mem_cons_of_mem _ held)

theorem parseWidth_append (w : BitVec 32) {digits rest : CStr} (all : ∀ c ∈ digits, IsDigit c)
    (stops : Stops IsDigit rest) : parseWidth w (digits ++ rest) =
      (digits.foldl (fun width c => width * 10#32 + (c - chr '0').setWidth 32) w, rest) := by
  induction digits generalizing w with
  | nil =>
      cases rest with
      | nil => rfl
      | cons c rest => exact if_neg (stops c rfl)
  | cons c digits ih =>
      rw [List.cons_append, parseWidth, if_pos (all c List.mem_cons_self), List.foldl_cons]
      exact ih _ fun d held => all d (List.mem_cons_of_mem _ held)

theorem skipDigits_append {digits rest : CStr} (all : ∀ c ∈ digits, IsDigit c)
    (stops : Stops IsDigit rest) : skipDigits (digits ++ rest) = rest := by
  induction digits with
  | nil =>
      cases rest with
      | nil => rfl
      | cons c rest => exact if_neg (stops c rfl)
  | cons c digits ih =>
      rw [List.cons_append, skipDigits, if_pos (all c List.mem_cons_self)]
      exact ih fun d held => all d (List.mem_cons_of_mem _ held)

theorem parseLength_append (level : Int) {mods rest : CStr} (all : ∀ c ∈ mods, IsLength c)
    (stops : Stops IsLength rest) : parseLength level (mods ++ rest) =
      (mods.foldl (fun level c => if c = chr 'l' then level + 1 else level - 1) level, rest) := by
  induction mods generalizing level with
  | nil =>
      cases rest with
      | nil => rfl
      | cons c rest =>
          have plain := not_or.mp (stops c rfl)
          simp only [List.nil_append, List.foldl_nil, parseLength, plain.1, plain.2, if_false]
  | cons c mods ih =>
      have rest := fun d held => all d (List.mem_cons_of_mem _ held)
      rcases all c List.mem_cons_self with rfl | rfl
      · exact ih _ rest
      · exact ih _ rest

/-- The text between the width and the length is passed over. -/
theorem skipPrecision_append {precision : Option CStr} {rest : CStr}
    (all : ∀ p, precision = some p → ∀ c ∈ p, IsDigit c) (stops : Stops IsDigit rest)
    (plain : Stops (· = chr '.') rest) :
    skipPrecision (precisionText precision ++ rest) = rest := by
  cases precision with
  | none =>
      cases rest with
      | nil => rfl
      | cons c rest => exact if_neg (plain c rfl)
  | some p =>
      rw [precisionText, List.cons_append, skipPrecision, if_pos rfl]
      exact skipDigits_append (all p rfl) stops

theorem formatLoop_char (fuel : Nat) {c : BitVec 8} (rest : CStr) (args : List Arg)
    (plain : c ≠ chr '%') : formatLoop (fuel + 1) (c :: rest) args =
      (formatLoop fuel rest args).map (c :: ·) := by
  rw [formatLoop, if_neg plain]
  cases formatLoop fuel rest args <;> rfl

/-- The loop at a written conversion: its text, then the rest of the format. -/
theorem formatLoop_spec (fuel : Nat) {d : Spec} (wf : d.Wf) (tail : CStr) (args : List Arg) :
    formatLoop (fuel + 1) (d.render ++ tail) args =
      (d.convert args).bind fun out => (formatLoop fuel tail out.2).map (out.1 ++ ·) := by
  have conv := conversion_plain wf.conv
  have afterMods : Stops IsLength (d.conv :: tail) := stops_cons conv.2.2.2
  have modsDigit : Stops IsDigit (d.mods ++ d.conv :: tail) :=
    stops_append (fun c held => (length_plain (wf.mods c held)).2.1) (stops_cons conv.2.1)
  have modsDot : Stops (· = chr '.') (d.mods ++ d.conv :: tail) :=
    stops_append (fun c held => (length_plain (wf.mods c held)).2.2) (stops_cons conv.2.2.1)
  have modsFlag : Stops IsFlag (d.mods ++ d.conv :: tail) :=
    stops_append (fun c held => (length_plain (wf.mods c held)).1) (stops_cons conv.1)
  have dot : ¬ IsFlag (chr '.') ∧ ¬ IsDigit (chr '.') := by
    unfold IsFlag
    decide
  have precDigit : Stops IsDigit
      (precisionText d.precision ++ (d.mods ++ d.conv :: tail)) := by
    unfold precisionText
    split
    · exact modsDigit
    · exact stops_cons dot.2
  have precFlag : Stops IsFlag
      (precisionText d.precision ++ (d.mods ++ d.conv :: tail)) := by
    unfold precisionText
    split
    · exact modsFlag
    · exact stops_cons dot.1
  have widthFlag : Stops IsFlag (d.width ++
      (precisionText d.precision ++
        (d.mods ++ d.conv :: tail))) := width_stops wf.width wf.widthHead precFlag
  have text : d.render ++ tail = chr '%' :: (d.flags ++ (d.width ++
      (precisionText d.precision ++
        (d.mods ++ d.conv :: tail)))) := by
    simp [Spec.render]
  rw [text, formatLoop, if_pos rfl]
  simp only [parseFlags_append {} wf.flags widthFlag, parseWidth_append 0#32 wf.width precDigit,
    skipPrecision_append wf.precision modsDigit modsDot, parseLength_append 0 wf.mods afterMods,
    Spec.convert, widthOf, levelOf]
  cases Klib.convert _ _ _ d.conv args with
  | none => rfl
  | some out => cases more : formatLoop fuel tail out.2 <;> simp [more]

theorem formatLoop_nil (fuel : Nat) (args : List Arg) : formatLoop fuel [] args = some [] := by
  cases fuel <;> rfl

end NpcMachine.Klib
