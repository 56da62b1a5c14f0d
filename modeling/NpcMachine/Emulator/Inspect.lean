/-
# Emulator.Inspect -- the inspection commands of the shell

`print`, `dump state`, `last` and `list-breaks` read the state.  One of their reads takes a
byte out of the input queue of the UART, and a number that does not parse throws out of the
shell; else a command changes nothing (`undisturbed_iff`), and such commands can be put
anywhere into a script (`runScript_inserted`).
-/
import NpcMachine.Emulator.Shell

namespace NpcMachine.Emulator

set_option autoImplicit false

/-! ## Memory reads -/

namespace EmulatorIss

variable {s : EmulatorIss}

/-- A read of a byte at `a` takes the front of the input queue. -/
def Pops (s : EmulatorIss) (a : U32) : Prop :=
  s.cfg.inClint a = false ∧ s.cfg.inUart a = true ∧ s.uart.input ≠ []

theorem readMem_kept {a : U32} (quiet : ¬ s.Pops a) : (s.readMem a 1#32).2 = s := by
  unfold readMem
  split_ifs with clint uart
  · rfl
  · have empty : s.uart.input = [] := by
      by_contra some
      exact quiet ⟨Bool.eq_false_iff.mpr clint, uart, some⟩
    rw [Uart.load, if_neg (by decide), empty]
  · rfl

theorem readMem_pops {a : U32} (pops : s.Pops a) :
    (s.readMem a 1#32).2.uart.input = s.uart.input.tail := by
  obtain ⟨clint, uart, nonempty⟩ := pops
  obtain ⟨ch, rest, input⟩ := List.exists_cons_of_ne_nil nonempty
  rw [readMem, clint, uart, Uart.load, if_neg Bool.false_ne_true, if_pos rfl, if_neg (by decide),
    input]
  rfl

theorem readMem_input_le (a : U32) :
    (s.readMem a 1#32).2.uart.input.length ≤ s.uart.input.length := by
  by_cases pops : s.Pops a
  · rw [readMem_pops pops, List.length_tail]
    omega
  · rw [readMem_kept pops]

end EmulatorIss

namespace Shell

section Memory

variable {addr : U32}

theorem memBytes_kept {s : EmulatorIss} {k n : Nat}
    (quiet : ∀ i, i < n → ¬ s.Pops (addr + BitVec.ofNat 32 (k + i))) :
    (memBytes addr k n s).2 = s := by
  induction n generalizing k with
  | zero => rfl
  | succ n ih =>
      have first := EmulatorIss.readMem_kept (quiet 0 (by omega))
      rw [Nat.add_zero] at first
      simp only [memBytes, first]
      apply ih
      intro i below
      have next := quiet (i + 1) (by omega)
      rwa [← Nat.add_assoc, Nat.add_right_comm] at next

theorem memBytes_input_le (addr : U32) (s : EmulatorIss) (k n : Nat) :
    (memBytes addr k n s).2.uart.input.length ≤ s.uart.input.length := by
  induction n generalizing s k with
  | zero => exact le_rfl
  | succ n ih => exact (ih _ _).trans (EmulatorIss.readMem_input_le _)

theorem memBytes_pops {s : EmulatorIss} {k n : Nat}
    (pops : ∃ i, i < n ∧ s.Pops (addr + BitVec.ofNat 32 (k + i))) :
    (memBytes addr k n s).2.uart.input.length < s.uart.input.length := by
  induction n generalizing s k with
  | zero => obtain ⟨i, below, -⟩ := pops; omega
  | succ n ih =>
      by_cases here : s.Pops (addr + BitVec.ofNat 32 k)
      · have rest := memBytes_input_le addr (s.readMem (addr + BitVec.ofNat 32 k) 1#32).2 (k + 1) n
        have shorter := List.length_pos_of_ne_nil here.2.2
        rw [EmulatorIss.readMem_pops here, List.length_tail] at rest
        simp only [memBytes]
        omega
      · obtain ⟨i, below, later⟩ := pops
        have same := EmulatorIss.readMem_kept here
        simp only [memBytes, same]
        cases i with
        | zero => exact absurd later here
        | succ i =>
            refine ih ⟨i, by omega, ?_⟩
            rwa [Nat.add_right_comm]

theorem memBytes_kept_iff (s : EmulatorIss) (n : Nat) :
    (memBytes addr 0 n s).2 = s ↔ ¬ ∃ i, i < n ∧ s.Pops (addr + BitVec.ofNat 32 i) := by
  constructor
  · rintro same ⟨i, below, pops⟩
    have first : ∃ i, i < n ∧ s.Pops (addr + BitVec.ofNat 32 (0 + i)) :=
      ⟨i, below, by rwa [Nat.zero_add]⟩
    have shorter := memBytes_pops first
    rw [same] at shorter
    omega
  · intro quiet
    apply memBytes_kept
    intro i below pops
    rw [Nat.zero_add] at pops
    exact quiet ⟨i, below, pops⟩

end Memory

/-! ## One command -/

section Commands

variable {sh : Shell} {fuel : Nat} {tok : List Str}

/-- The inspection commands, with any arguments. -/
def Inspection (tok : List Str) : Prop :=
  (tok.getD 0 [] = str "print" ∧
      (tok.getD 1 [] = str "pc" ∨ tok.getD 1 [] = str "reg" ∨ tok.getD 1 [] = str "csr" ∨
        tok.getD 1 [] = str "mem")) ∨
    (tok.getD 0 [] = str "dump" ∧ tok.getD 1 [] = str "state") ∨
    tok.getD 0 [] = str "last" ∨ tok.getD 0 [] = str "list-breaks"

instance (tok : List Str) : Decidable (Inspection tok) := inferInstanceAs (Decidable (_ ∨ _))

/-- The command prints and goes on, with nothing else changed. -/
def Undisturbed (sh : Shell) (tok : List Str) : Prop :=
  ∀ fuel, ∃ text, sh.runTokens fuel tok = ⟨text, [], .ok (sh, fuel)⟩

/-- The numbers that the command asks for are there to be parsed. -/
def ArgumentsParse (tok : List Str) : Prop :=
  (tok.getD 0 [] = str "print" → tok.getD 1 [] = str "reg" → 2 < tok.length →
      (parseInt (tok.getD 2 [])).isSome) ∧
    (tok.getD 0 [] = str "print" → tok.getD 1 [] = str "csr" → 2 < tok.length →
      (parseHex (tok.getD 2 [])).isSome) ∧
    (tok.getD 0 [] = str "print" → tok.getD 1 [] = str "mem" → 3 < tok.length →
      (parseHex (tok.getD 2 [])).isSome ∧ (parseInt (tok.getD 3 [])).isSome) ∧
    (tok.getD 0 [] = str "last" → 1 < tok.length → (parseInt (tok.getD 1 [])).isSome)

/-- The command dumps the address of the UART while the input queue is not empty. -/
def DumpsInput (s : EmulatorIss) (tok : List Str) : Prop :=
  tok.getD 0 [] = str "print" ∧ tok.getD 1 [] = str "mem" ∧ 3 < tok.length ∧
    ∃ addr size, parseHex (tok.getD 2 []) = some addr ∧ parseInt (tok.getD 3 []) = some size ∧
      ∃ i, i < size.toNat ∧ s.Pops (addr + BitVec.ofNat 32 i)

theorem say_undisturbed (text : Str) : ∃ t, sh.say fuel text = ⟨t, [], .ok (sh, fuel)⟩ :=
  ⟨text, rfl⟩

theorem put_undisturbed_iff (text : Str) (iss : EmulatorIss) :
    (∃ t, sh.put fuel text iss = ⟨t, [], .ok (sh, fuel)⟩) ↔ iss = sh.iss := by
  constructor
  · rintro ⟨t, same⟩
    have next := congrArg Turn.next same
    rw [put] at next
    exact congrArg (fun turn : Shell × Nat => turn.1.iss) (Except.ok.inj next)
  · rintro rfl
    exact ⟨text, rfl⟩

theorem withNumber_undisturbed_iff (number : Option U32) (command : U32 → Turn) :
    (∃ t, withNumber number command = ⟨t, [], .ok (sh, fuel)⟩) ↔
      ∃ v, number = some v ∧ ∃ t, command v = ⟨t, [], .ok (sh, fuel)⟩ := by
  cases number with
  | none =>
      refine iff_of_false ?_ ?_
      · rintro ⟨t, same⟩
        have next := congrArg Turn.next same
        cases next
      · rintro ⟨v, none, -⟩
        cases none
  | some v =>
      constructor
      · exact fun command => ⟨v, rfl, command⟩
      · rintro ⟨w, same, command⟩
        cases same
        exact command

/-- A command that only prints asks for its number to parse. -/
theorem withNumber_say_iff (number : Option U32) (text : U32 → Str) :
    (∃ t, withNumber number (fun v => sh.say fuel (text v)) = ⟨t, [], .ok (sh, fuel)⟩) ↔
      number.isSome := by
  rw [withNumber_undisturbed_iff, Option.isSome_iff_exists]
  exact exists_congr fun v => and_iff_left (say_undisturbed _)

theorem runTokens_print (rest : List Str) :
    sh.runTokens fuel (str "print" :: rest) = sh.cmdPrint fuel (str "print" :: rest) := rfl

theorem runTokens_dump (rest : List Str) :
    sh.runTokens fuel (str "dump" :: rest) = sh.cmdDump fuel (str "dump" :: rest) := rfl

theorem runTokens_last (rest : List Str) :
    sh.runTokens fuel (str "last" :: rest) = sh.cmdLast fuel (str "last" :: rest) := rfl

theorem runTokens_listBreaks (rest : List Str) :
    sh.runTokens fuel (str "list-breaks" :: rest) = sh.say fuel sh.printBreakpoints := rfl

/-- A token that is not empty is there. -/
theorem token_there {k : Nat} {t : Str} (token : tok.getD k [] = t) (nonempty : t ≠ []) :
    k < tok.length := by
  by_contra beyond
  rw [List.getD_eq_default _ _ (Nat.not_lt.mp beyond)] at token
  exact nonempty token.symm

theorem cons_of_token {t : Str} (token : tok.getD 0 [] = t) (nonempty : t ≠ []) :
    ∃ rest, tok = t :: rest := by
  cases tok with
  | nil => exact absurd token.symm nonempty
  | cons cmd rest =>
      rw [List.getD_cons_zero] at token
      exact ⟨rest, by rw [token]⟩

theorem cmdPrint_pc (second : tok.getD 1 [] = str "pc") :
    ∃ t, sh.cmdPrint fuel tok = ⟨t, [], .ok (sh, fuel)⟩ := by
  have there := token_there second (by decide)
  rw [cmdPrint, if_neg (by omega), if_pos second]
  exact say_undisturbed _

theorem cmdPrint_reg (second : tok.getD 1 [] = str "reg") :
    (∃ t, sh.cmdPrint fuel tok = ⟨t, [], .ok (sh, fuel)⟩) ↔
      (2 < tok.length → (parseInt (tok.getD 2 [])).isSome) := by
  have there := token_there second (by decide)
  have other : str "reg" ≠ str "pc" := by decide
  rw [cmdPrint, if_neg (by omega), second, if_neg other, if_pos rfl]
  split_ifs with more
  · exact (withNumber_say_iff _ _).trans (imp_iff_right more).symm
  · exact iff_of_true (say_undisturbed _) fun longer => absurd longer more

theorem cmdPrint_csr (second : tok.getD 1 [] = str "csr") :
    (∃ t, sh.cmdPrint fuel tok = ⟨t, [], .ok (sh, fuel)⟩) ↔
      (2 < tok.length → (parseHex (tok.getD 2 [])).isSome) := by
  have there := token_there second (by decide)
  have notPc : str "csr" ≠ str "pc" := by decide
  have notReg : str "csr" ≠ str "reg" := by decide
  rw [cmdPrint, if_neg (by omega), second, if_neg notPc, if_neg notReg, if_pos rfl]
  split_ifs with more
  · exact (withNumber_say_iff _ _).trans (imp_iff_right more).symm
  · exact iff_of_true (say_undisturbed _) fun longer => absurd longer more

theorem printMem_iff (addr size : U32) :
    (∃ t, sh.printMem fuel addr size = ⟨t, [], .ok (sh, fuel)⟩) ↔
      ¬ ∃ i, i < size.toNat ∧ sh.iss.Pops (addr + BitVec.ofNat 32 i) := by
  rw [printMem, put_undisturbed_iff, memBytes_kept_iff]

theorem cmdPrint_mem (second : tok.getD 1 [] = str "mem") :
    (∃ t, sh.cmdPrint fuel tok = ⟨t, [], .ok (sh, fuel)⟩) ↔ (3 < tok.length →
      ∃ addr size, parseHex (tok.getD 2 []) = some addr ∧ parseInt (tok.getD 3 []) = some size ∧
        ¬ ∃ i, i < size.toNat ∧ sh.iss.Pops (addr + BitVec.ofNat 32 i)) := by
  have there := token_there second (by decide)
  have notPc : str "mem" ≠ str "pc" := by decide
  have notReg : str "mem" ≠ str "reg" := by decide
  have notCsr : str "mem" ≠ str "csr" := by decide
  rw [cmdPrint, if_neg (by omega), second, if_neg notPc, if_neg notReg, if_neg notCsr, if_pos rfl]
  split_ifs with less
  · exact iff_of_true (say_undisturbed _) fun longer => by omega
  · simp only [withNumber_undisturbed_iff, printMem_iff]
    constructor
    · rintro ⟨addr, first, size, second, quiet⟩ -
      exact ⟨addr, size, first, second, quiet⟩
    · intro all
      obtain ⟨addr, size, first, second, quiet⟩ := all (by omega)
      exact ⟨addr, first, size, second, quiet⟩

theorem cmdLast_iff (sh : Shell) (fuel : Nat) (tok : List Str) :
    (∃ t, sh.cmdLast fuel tok = ⟨t, [], .ok (sh, fuel)⟩) ↔
      (1 < tok.length → (parseInt (tok.getD 1 [])).isSome) := by
  rw [cmdLast, withNumber_say_iff, argument]
  split_ifs with more
  · exact (imp_iff_right more).symm
  · exact iff_of_true rfl fun longer => absurd longer more

theorem cmdDump_state (second : tok.getD 1 [] = str "state") :
    ∃ t, sh.cmdDump fuel tok = ⟨t, [], .ok (sh, fuel)⟩ := by
  have there := token_there second (by decide)
  rw [cmdDump, if_neg]
  · exact say_undisturbed _
  · rintro (short | other)
    · omega
    · exact other second

/-- A dump with both numbers that reads no input. -/
theorem dump_iff (asks : Prop) (first second : Option U32) (reads : U32 → U32 → Prop) :
    (asks → ∃ addr size, first = some addr ∧ second = some size ∧ ¬ reads addr size) ↔
      (asks → first.isSome ∧ second.isSome) ∧
        ¬ (asks ∧ ∃ addr size, first = some addr ∧ second = some size ∧ reads addr size) := by
  constructor
  · intro all
    refine ⟨fun asked => ?_, ?_⟩
    · obtain ⟨addr, size, one, two, -⟩ := all asked
      rw [one, two]
      exact ⟨rfl, rfl⟩
    · rintro ⟨asked, addr, size, one, two, hit⟩
      obtain ⟨addr', size', one', two', quiet⟩ := all asked
      rw [one] at one'
      rw [two] at two'
      cases one'
      cases two'
      exact quiet hit
  · rintro ⟨parse, quiet⟩ asked
    obtain ⟨one, two⟩ := parse asked
    obtain ⟨addr, one⟩ := Option.isSome_iff_exists.mp one
    obtain ⟨size, two⟩ := Option.isSome_iff_exists.mp two
    exact ⟨addr, size, one, two, fun hit => quiet ⟨asked, addr, size, one, two, hit⟩⟩

/-- An inspection command changes nothing and lets the shell go on exactly when its numbers
parse and it does not dump a UART with input. -/
theorem undisturbed_iff (inspects : Inspection tok) :
    Undisturbed sh tok ↔ ArgumentsParse tok ∧ ¬ DumpsInput sh.iss tok := by
  unfold Undisturbed ArgumentsParse DumpsInput
  rcases inspects with ⟨first, second⟩ | ⟨first, second⟩ | first | first
  · obtain ⟨rest, cmd⟩ := cons_of_token first (by decide)
    have run (fuel : Nat) : sh.runTokens fuel tok = sh.cmdPrint fuel tok := by
      rw [cmd, runTokens_print]
    have notLast : str "print" ≠ str "last" := by decide
    simp only [run, first, true_implies, notLast, false_implies, and_true, true_and]
    rcases second with second | second | second | second
    · have notReg : str "pc" ≠ str "reg" := by decide
      have notCsr : str "pc" ≠ str "csr" := by decide
      have notMem : str "pc" ≠ str "mem" := by decide
      simp only [second, notReg, notCsr, notMem, false_implies, false_and, not_false_eq_true, and_true]
      exact iff_of_true (fun fuel => cmdPrint_pc second) trivial
    · have notCsr : str "reg" ≠ str "csr" := by decide
      have notMem : str "reg" ≠ str "mem" := by decide
      simp only [cmdPrint_reg second, forall_const, second, notCsr, notMem,
        false_implies, false_and, not_false_eq_true, and_true]
    · have notReg : str "csr" ≠ str "reg" := by decide
      have notMem : str "csr" ≠ str "mem" := by decide
      simp only [cmdPrint_csr second, forall_const, second, notReg, notMem,
        false_implies, false_and, not_false_eq_true, true_and, and_true]
    · have notReg : str "mem" ≠ str "reg" := by decide
      have notCsr : str "mem" ≠ str "csr" := by decide
      simp only [cmdPrint_mem second, forall_const, second, notReg, notCsr,
        false_implies, true_and]
      exact dump_iff _ _ _ _
  · obtain ⟨rest, cmd⟩ := cons_of_token first (by decide)
    have run (fuel : Nat) : sh.runTokens fuel tok = sh.cmdDump fuel tok := by
      rw [cmd, runTokens_dump]
    have notPrint : str "dump" ≠ str "print" := by decide
    have notLast : str "dump" ≠ str "last" := by decide
    simp only [run, first, notPrint, notLast, false_implies, false_and, not_false_eq_true, and_self]
    exact iff_of_true (fun fuel => cmdDump_state second) trivial
  · obtain ⟨rest, cmd⟩ := cons_of_token first (by decide)
    have run (fuel : Nat) : sh.runTokens fuel tok = sh.cmdLast fuel tok := by
      rw [cmd, runTokens_last]
    have notPrint : str "last" ≠ str "print" := by decide
    simp only [run, cmdLast_iff, first, notPrint, false_implies, false_and, not_false_eq_true,
      and_true, true_and, forall_const]
  · obtain ⟨rest, cmd⟩ := cons_of_token first (by decide)
    have run (fuel : Nat) : sh.runTokens fuel tok = sh.say fuel sh.printBreakpoints := by
      rw [cmd, runTokens_listBreaks]
    have notPrint : str "list-breaks" ≠ str "print" := by decide
    have notLast : str "list-breaks" ≠ str "last" := by decide
    simp only [run, first, notPrint, notLast, false_implies, false_and, not_false_eq_true, and_self]
    exact iff_of_true (fun fuel => say_undisturbed _) trivial

end Commands

/-! ## Whole scripts -/

/-- The commands of a line; the marked ones are put in. -/
abbrev Marked := List (Bool × List Str)

section Scripts

variable {sh : Shell} {fuel : Nat}

/-- The line with the commands that are put in. -/
def full (line : Marked) : List (List Str) := line.map Prod.snd

/-- The line without them. -/
def plain (line : Marked) : List (List Str) := (line.filter fun p => !p.1).map Prod.snd

/-- The commands that are put into a line inspect, and where they run their numbers parse
and they dump no input. -/
def HarmlessLine : Marked → Shell → Nat → Prop
  | [], _, _ => True
  | (true, tok) :: rest, sh, fuel =>
      (Inspection tok ∧ ArgumentsParse tok ∧ ¬ DumpsInput sh.iss tok) ∧ HarmlessLine rest sh fuel
  | (false, tok) :: rest, sh, fuel =>
      match (sh.runTokens fuel tok).next with
      | .ok (sh, fuel) => HarmlessLine rest sh fuel
      | .error _ => True

/-- The same of every line that is run. -/
def HarmlessScript : List Marked → Shell → Nat → Prop
  | [], _, _ => True
  | line :: rest, sh, fuel => sh.running = true → HarmlessLine line sh fuel ∧
      match (runParts (plain line) sh fuel).next with
      | .ok (sh, fuel) => HarmlessScript rest sh fuel
      | .error _ => True

/-- The same events, and the same shell after them. -/
def SameTurn (t u : Turn) : Prop := t.events = u.events ∧ t.next = u.next

theorem SameTurn.andThen {t u : Turn} {after after' : Shell → Nat → Turn} (alike : SameTurn t u)
    (rest : ∀ sh fuel, u.next = .ok (sh, fuel) → SameTurn (after sh fuel) (after' sh fuel)) :
    SameTurn (andThen t after) (andThen u after') := by
  obtain ⟨events, next⟩ := alike
  unfold Shell.andThen
  rw [next]
  cases done : u.next with
  | error e => exact ⟨events, by rw [next, done]⟩
  | ok out =>
      obtain ⟨same, last⟩ := rest out.1 out.2 done
      exact ⟨by simp only [events, same], last⟩

theorem runParts_inserted {line : Marked} (harmless : HarmlessLine line sh fuel) :
    SameTurn (runParts (full line) sh fuel) (runParts (plain line) sh fuel) := by
  induction line generalizing sh fuel with
  | nil => exact ⟨rfl, rfl⟩
  | cons part rest ih =>
      obtain ⟨inserted, tok⟩ := part
      cases inserted with
      | true =>
          obtain ⟨⟨inspects, parse, quiet⟩, later⟩ := harmless
          obtain ⟨text, turn⟩ := (undisturbed_iff inspects).mpr ⟨parse, quiet⟩ fuel
          have after : runParts (full ((true, tok) :: rest)) sh fuel =
              andThen (sh.runTokens fuel tok) (runParts (full rest)) := rfl
          rw [after, turn]
          exact ih later
      | false =>
          refine SameTurn.andThen ⟨rfl, rfl⟩ fun next left done => ih ?_
          rw [HarmlessLine, done] at harmless
          exact harmless

/-- Inspection commands that are put into a script, wherever they stand, change no event of
it and not what it leaves. -/
theorem runScript_inserted {script : List Marked} (harmless : HarmlessScript script sh fuel) :
    SameTurn (runScript (script.map full) sh fuel) (runScript (script.map plain) sh fuel) := by
  induction script generalizing sh fuel with
  | nil => exact ⟨rfl, rfl⟩
  | cons line rest ih =>
      rw [List.map_cons, List.map_cons, runScript, runScript]
      by_cases running : sh.running = true
      · obtain ⟨here, later⟩ := harmless running
        rw [if_pos running, if_pos running]
        refine SameTurn.andThen (runParts_inserted here) fun next left done => ih ?_
        rw [done] at later
        exact later
      · rw [if_neg running, if_neg running]
        exact ⟨rfl, rfl⟩

/-- An inspection command leaves the whole state and lets the shell go on exactly when its
numbers parse and it does not dump the UART's address while there is input; a script with
such commands put in has the events of the script without them. -/
theorem inspection_undisturbed (sh : Shell) :
    (∀ tok : List Str, Inspection tok →
      (Undisturbed sh tok ↔ ArgumentsParse tok ∧ ¬ DumpsInput sh.iss tok)) ∧
    ∀ (script : List Marked) (fuel : Nat), HarmlessScript script sh fuel →
      (runScript (script.map full) sh fuel).events = (runScript (script.map plain) sh fuel).events ∧
        (runScript (script.map full) sh fuel).next = (runScript (script.map plain) sh fuel).next :=
  ⟨fun _ => undisturbed_iff, fun _ _ => runScript_inserted⟩

/-- A shell at its start, with `input` for the UART. -/
def start (input : List (BitVec 8)) : Shell :=
  Shell.fresh { EmulatorIss.create {} with uart := ⟨input, []⟩ }

def dumpUart : List Str := [str "print", str "mem", str "10000000", str "1"]

theorem inspection_undisturbed_start :
    Undisturbed (start []) dumpUart ∧
      (runScript [[dumpUart, [str "step"]]] (start []) 5).events =
        (runScript [[[str "step"]]] (start []) 5).events := by
  have quiet : ¬ DumpsInput (start []).iss dumpUart := by
    rintro ⟨-, -, -, addr, size, -, -, i, -, -, -, input⟩
    exact input rfl
  have parse : ArgumentsParse dumpUart := by
    unfold ArgumentsParse
    decide
  have step : HarmlessLine [(false, [str "step"])] (start []) 5 := by
    unfold HarmlessLine
    split <;> trivial
  obtain ⟨command, script⟩ := inspection_undisturbed (start [])
  refine ⟨(command _ (by decide)).mpr ⟨parse, quiet⟩,
    (script [[(true, dumpUart), (false, [str "step"])]] _ ?_).1⟩
  intro _
  refine ⟨⟨⟨by decide, parse, quiet⟩, step⟩, ?_⟩
  split <;> trivial

/-- With a byte in the input queue the same dump takes it. -/
theorem dumpUart_takes_input :
    ¬ ∀ (sh : Shell) (tok : List Str), Inspection tok → Undisturbed sh tok := by
  intro all
  have turn := all (start [0x41#8]) dumpUart (by decide)
  refine ((undisturbed_iff (by decide)).mp turn).2 ⟨by decide, by decide, by decide,
    0x10000000#32, 1#32, by decide, by decide, 0, by decide, by decide, by decide, ?_⟩
  exact List.cons_ne_nil _ _

end Scripts

end Shell

end NpcMachine.Emulator
