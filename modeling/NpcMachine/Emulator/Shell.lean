/-
# Emulator.Shell -- the command shell of `shell.cpp` over an `EmulatorISS`

A string is the list of its bytes.  `runTokens` is one command, `runLoop` the loop behind
`run`, `runParts` a line and `runScript` a script.  A command gives the text it prints and
the events of the `step_inst` calls it makes; it is given the number of retirements it may
make, so that a `run` that never stops has a meaning for every such number.  A command
whose number does not parse throws out of the shell.

The file system is the function `files`; what the UART or a trace writes is not followed
into it.
-/
import Mathlib.Data.List.Infix
import NpcMachine.Emulator.Checkpoint

namespace NpcMachine.Emulator

set_option autoImplicit false

/-! ## Strings and numbers -/

/-- `std::string`. -/
abbrev Str := List (BitVec 8)

/-- The bytes of a literal. -/
def str (s : String) : Str := s.toList.map fun c => BitVec.ofNat 8 c.toNat

/-- `isspace` in the C locale. -/
def isSpace (b : BitVec 8) : Bool := b == 0x20#8 || (BitVec.ule 0x09#8 b && b.ule 0x0D#8)

def digitValue (b : BitVec 8) : Option Nat :=
  if BitVec.ule 0x30#8 b && b.ule 0x39#8 then some (b.toNat - 0x30)
  else if BitVec.ule 0x61#8 b && b.ule 0x7A#8 then some (b.toNat - 0x61 + 10)
  else if BitVec.ule 0x41#8 b && b.ule 0x5A#8 then some (b.toNat - 0x41 + 10)
  else none

/-- The digits at the front of a string. -/
def digits (base : Nat) (s : Str) : List Nat :=
  ((s.map digitValue).takeWhile fun d => (d.map fun d => decide (d < base)).getD false).filterMap id

/-- The string starts with `0x` or `0X`. -/
def hexPrefix (s : Str) : Bool := s.take 2 == str "0x" || s.take 2 == str "0X"

/-- `std::stoul`; `none` when it throws `invalid_argument` or `out_of_range`. -/
def stoul (base : Nat) (s : Str) : Option (BitVec 64) :=
  let s := s.dropWhile isSpace
  let negative := s.take 1 == str "-"
  let s := if negative || s.take 1 == str "+" then s.drop 1 else s
  let prefixed := base == 16 && hexPrefix s
  let ds := digits base (if prefixed then s.drop 2 else s)
  let value := ds.foldl (fun v d => v * base + d) 0
  if ds.isEmpty && !prefixed then none
  else if 2 ^ 64 ≤ value then none
  else some (if negative then -BitVec.ofNat 64 value else BitVec.ofNat 64 value)

def parseHex (s : Str) : Option U32 := (stoul 16 s).map fun v => v.setWidth 32

def parseInt (s : Str) : Option U32 :=
  if decide (2 < s.length) && hexPrefix s then parseHex s
  else (stoul 10 s).map fun v => v.setWidth 32

def tokenize (line : Str) : List Str := (line.splitOnP isSpace).filter fun tok => !tok.isEmpty

/-! ## Text -/

def hexDigit (n : Nat) : BitVec 8 := BitVec.ofNat 8 (if n < 10 then 0x30 + n else 0x61 + n - 10)

/-- `hex`, which is shell.cpp's own. -/
def hexWord (v : U32) : Str :=
  str "0x" ++ (List.range 8).map fun k => hexDigit (v.toNat / 16 ^ (7 - k) % 16)

def dec (n : Nat) : Str := str (toString n)

/-- `setw(2)` and `setfill('0')`. -/
def dec2 (n : Nat) : Str := if n < 10 then str "0" ++ dec n else dec n

def newline : Str := [0x0A#8]

def fmtInst (ev : CommitEvent) : Str :=
  str "PC=" ++ hexWord ev.pc ++ str " I=" ++ hexWord ev.inst ++ str " RD=" ++ dec ev.rd.toNat ++
    str " RV=" ++ hexWord ev.rdValue ++ str " NPC=" ++ hexWord ev.nextPc ++
    if ev.exception then str " EXC CAUSE=" ++ dec ev.cause.toNat else []

/-! ## The state -/

inductive TraceFilterKind where
  | all | branches | loads | stores | exceptions | reg | pcRange
  deriving DecidableEq, Repr, Inhabited

structure TraceFilter where
  enabled : Bool := false
  kind : TraceFilterKind := .all
  regIdx : U32 := 0#32
  pcLo : U32 := 0#32
  pcHi : U32 := 0#32
  deriving DecidableEq, Repr, Inhabited

/-- The fields of `Config` that only the loop behind `run` reads. -/
structure RunLimits where
  maxCycles : BitVec 64 := 0#64
  maxPcStuck : U32 := 0#32
  deriving DecidableEq, Repr, Inhabited

/-- The shell and what it acts on.  `room` is the space that a file opened for writing has
(`none` when it does not open), `arrays` what the arrays of the coming `load_checkpoint`
calls hold. -/
structure Shell where
  iss : EmulatorIss
  limits : RunLimits
  breakpoints : List U32
  running : Bool
  logLevel : U32
  filter : TraceFilter
  files : Str → Option (List (BitVec 8))
  room : Str → Option Nat
  arrays : Nat → Stack

/-- A shell that has just started, on an empty disk. -/
def Shell.fresh (iss : EmulatorIss) : Shell where
  iss := iss
  limits := {}
  breakpoints := []
  running := true
  logLevel := 0#32
  filter := {}
  files := fun _ => none
  room := fun _ => none
  arrays := fun _ => ⟨fun _ => 0#8, fun _ => 0#8⟩

structure RunCondition where
  maxInst : BitVec 64 := 0#64
  stopPc : Bool := false
  targetPc : U32 := 0#32
  stopReg : Bool := false
  targetReg : U32 := 0#32
  targetRegValue : U32 := 0#32
  stopUart : Bool := false
  targetUart : Str := []
  uartSeenBefore : Str := []
  deriving DecidableEq, Repr, Inhabited

/-- `last_events`: the retired instructions, the last one first. -/
def EmulatorIss.lastEvents (s : EmulatorIss) (n : Nat) : List CommitEvent :=
  let count := if s.ring.full then ringSize else s.ring.head
  (List.range (min (min n ringSize) count)).map fun i =>
    s.ring.buffer ((s.ring.head + ringSize - 1 - i) % ringSize)

def EmulatorIss.csr (s : EmulatorIss) (addr : U32) : U32 := (s.hart.readCsr addr).getD 0#32

/-! ## The loop behind `run` -/

/-- Why the loop is left. -/
inductive StopReason where
  | refused | maxCycles | pcStuck | maxInst | pc | reg | uart | breakpoint
  deriving DecidableEq, Repr, Inhabited

structure LoopState where
  iss : EmulatorIss
  count : BitVec 64 := 0#64
  stuckPc : U32 := 0#32
  stuckCount : U32 := 0#32

def checkUartTrigger (out before target : Str) : Bool :=
  if out.length ≤ before.length then false else decide (target <:+: out)

section Loop

variable (limits : RunLimits) (breakpoints : List U32) (cond : RunCondition)

/-- The counters after a retirement. -/
def LoopState.retired (st : LoopState) (iss : EmulatorIss) (ev : CommitEvent) : LoopState :=
  let stuck := !ev.exception && ev.pc == st.stuckPc
  { iss := iss
    count := st.count + 1#64
    stuckPc := if stuck then st.stuckPc else if ev.exception then 0#32 else ev.pc
    stuckCount :=
      if stuck then st.stuckCount + 1#32 else if ev.exception then 0#32 else 1#32 }

/-- The tests after a retirement, in their order. -/
def LoopState.stop (st : LoopState) : Option StopReason :=
  if limits.maxCycles ≠ 0#64 ∧ limits.maxCycles.ule st.iss.cycle then some .maxCycles
  else if limits.maxPcStuck ≠ 0#32 ∧ limits.maxPcStuck.ule st.stuckCount then some .pcStuck
  else if cond.maxInst ≠ 0#64 ∧ cond.maxInst.ule st.count then some .maxInst
  else if cond.stopPc ∧ st.iss.hart.pc = cond.targetPc then some .pc
  else if cond.stopReg ∧ st.iss.hart.readReg cond.targetReg = cond.targetRegValue then some .reg
  else if cond.stopUart ∧
      checkUartTrigger st.iss.uart.output cond.uartSeenBefore cond.targetUart = true then some .uart
  else if st.iss.hart.pc ∈ breakpoints then some .breakpoint
  else none

/-- What the loop leaves: `reason` is `none` when it would go on after the retirements that
it may make. -/
structure LoopOut where
  events : List CommitEvent
  reason : Option StopReason
  last : LoopState
  left : Nat

def runLoop : Nat → LoopState → LoopOut
  | 0, st => ⟨[], if st.iss.stepInst.isNone then some .refused else none, st, 0⟩
  | fuel + 1, st =>
      match st.iss.stepInst with
      | none => ⟨[], some .refused, st, fuel + 1⟩
      | some (iss, ev) =>
          let st := st.retired iss ev
          match st.stop limits breakpoints cond with
          | some reason => ⟨[ev], some reason, st, fuel⟩
          | none =>
              let rest := runLoop fuel st
              { rest with events := ev :: rest.events }

/-- The line that a stop prints. -/
def LoopOut.stopText (out : LoopOut) : Str :=
  match out.reason with
  | some .maxCycles =>
      str "stopped: max-cycles reached (" ++ dec limits.maxCycles.toNat ++ str ")" ++ newline
  | some .pcStuck =>
      str "stopped: pc stuck at " ++ hexWord out.last.stuckPc ++ str " for " ++
        dec out.last.stuckCount.toNat ++ str " retirements" ++ newline
  | some .pc => str "stopped at pc " ++ hexWord cond.targetPc ++ newline
  | some .reg =>
      str "stopped: x" ++ dec cond.targetReg.toNat ++ str " = " ++ hexWord cond.targetRegValue ++ newline
  | some .uart =>
      str "stopped: uart output contains \"" ++ cond.targetUart ++ str "\"" ++ newline
  | some .breakpoint => str "stopped at breakpoint " ++ hexWord out.last.iss.hart.pc ++ newline
  | some .refused | some .maxInst | none => []

end Loop

/-- The loop of `step`. -/
def stepLoop : Nat → Nat → EmulatorIss → LoopOut
  | fuel, 0, s => ⟨[], some .maxInst, { iss := s }, fuel⟩
  | 0, _ + 1, s => ⟨[], if s.stepInst.isNone then some .refused else none, { iss := s }, 0⟩
  | fuel + 1, n + 1, s =>
      match s.stepInst with
      | none => ⟨[], some .refused, { iss := s }, fuel + 1⟩
      | some (iss, ev) =>
          let rest := stepLoop fuel n iss
          { rest with events := ev :: rest.events }

/-! ## Commands -/

/-- Why the shell does not come to the next command. -/
inductive Ended where
  | threw | undefined | outOfSteps
  deriving DecidableEq, Repr, Inhabited

/-- What a command prints, the events it makes, and the shell after it with the number of
retirements that are left. -/
structure Turn where
  text : Str
  events : List CommitEvent
  next : Except Ended (Shell × Nat)

namespace Shell

variable (sh : Shell) (fuel : Nat)

/-- A command that only prints. -/
def say (text : Str) : Turn := ⟨text, [], .ok (sh, fuel)⟩

/-- A command that goes on with another state of the model. -/
def put (text : Str) (iss : EmulatorIss) : Turn := ⟨text, [], .ok ({ sh with iss := iss }, fuel)⟩

def throw : Turn := ⟨[], [], .error .threw⟩

/-- A command whose number parses. -/
def withNumber (number : Option U32) (command : U32 → Turn) : Turn :=
  match number with
  | none => throw
  | some v => command v

/-- The argument of a command, or its default. -/
def argument (parse : Str → Option U32) (tok : List Str) (k : Nat) (default : U32) : Option U32 :=
  if k < tok.length then parse (tok.getD k []) else some default

def cmdLoad (tok : List Str) : Turn :=
  if tok.length < 2 then sh.say fuel (str "usage: load <file> [addr]" ++ newline)
  else
    withNumber (argument parseHex tok 2 0x20000000#32) fun addr =>
      match sh.iss.loadBin (sh.files (tok.getD 1 [])) addr with
      | (true, iss) => sh.put fuel [] iss
      | (false, iss) => sh.put fuel (str "failed to load " ++ tok.getD 1 [] ++ newline) iss

def cmdLoadElf (tok : List Str) : Turn :=
  if tok.length < 2 then sh.say fuel (str "usage: load_elf <file>" ++ newline)
  else
    match sh.iss.loadElf (sh.files (tok.getD 1 [])) with
    | none => ⟨[], [], .error .undefined⟩
    | some (true, iss) => sh.put fuel [] iss
    | some (false, iss) => sh.put fuel (str "failed to load ELF " ++ tok.getD 1 [] ++ newline) iss

def cmdReset (tok : List Str) : Turn :=
  withNumber (argument parseHex tok 1 0x20000000#32) fun addr => sh.put fuel [] (sh.iss.reset addr)

/-- A loop of retirements as a command. -/
def ofLoop (text : Str) (out : LoopOut) : Turn :=
  ⟨text, out.events,
    if out.reason.isNone then .error .outOfSteps
    else .ok ({ sh with iss := out.last.iss }, out.left)⟩

def cmdStep (tok : List Str) : Turn :=
  withNumber (argument parseInt tok 1 1#32) fun n => sh.ofLoop [] (stepLoop fuel n.toNat sh.iss)

def runWithCondition (cond : RunCondition) : Turn :=
  let out := runLoop sh.limits sh.breakpoints cond fuel { iss := sh.iss }
  sh.ofLoop (out.stopText sh.limits cond ++ str "ran " ++ dec out.last.count.toNat ++
    str " instructions" ++ newline) out

def runUsage : Str :=
  str "usage: run until uart <string> | run until reg <i> <value>" ++ newline

def cmdRun (tok : List Str) : Turn :=
  if tok.length ≤ 1 then sh.runWithCondition fuel {}
  else if tok.getD 1 [] = str "to" ∧ 2 < tok.length then
    withNumber (parseHex (tok.getD 2 [])) fun addr =>
      sh.runWithCondition fuel { stopPc := true, targetPc := addr }
  else if tok.getD 1 [] = str "until" ∧ 2 < tok.length then
    if tok.getD 2 [] = str "uart" ∧ 3 < tok.length then
      sh.runWithCondition fuel
        { stopUart := true, targetUart := tok.getD 3 [], uartSeenBefore := sh.iss.uart.output }
    else if tok.getD 2 [] = str "reg" ∧ 4 < tok.length then
      withNumber (parseInt (tok.getD 3 [])) fun reg =>
        withNumber (parseHex (tok.getD 4 [])) fun value =>
          sh.runWithCondition fuel { stopReg := true, targetReg := reg, targetRegValue := value }
    else sh.say fuel runUsage
  else
    withNumber (parseInt (tok.getD 1 [])) fun n =>
      sh.runWithCondition fuel { maxInst := n.setWidth 64 }

/-- The set of breakpoints, in ascending order. -/
def insertBreak (addr : U32) : List U32 → List U32
  | [] => [addr]
  | b :: rest =>
      if addr.ult b then addr :: b :: rest else if addr = b then b :: rest
      else b :: insertBreak addr rest

def cmdBreak (tok : List Str) (usage : Str) (change : U32 → List U32 → List U32) : Turn :=
  if tok.length < 2 then sh.say fuel (usage ++ newline)
  else
    withNumber (parseHex (tok.getD 1 [])) fun addr =>
      ⟨[], [], .ok ({ sh with breakpoints := change addr sh.breakpoints }, fuel)⟩

def printBreakpoints : Str :=
  if sh.breakpoints.isEmpty then str "no breakpoints" ++ newline
  else
    str "breakpoints:" ++ newline ++
      sh.breakpoints.flatMap fun addr => str "  " ++ hexWord addr ++ newline

/-! ### Inspection -/

def regText (i : Nat) : Str :=
  str "x" ++ dec i ++ str " = " ++ hexWord (sh.iss.hart.readReg (BitVec.ofNat 32 i))

/-- The bytes from number `k` on; each is read as the shell reads memory, devices first. -/
def memBytes (addr : U32) : Nat → Nat → EmulatorIss → Str × EmulatorIss
  | _, 0, s => ([], s)
  | k, n + 1, s =>
      let a := addr + BitVec.ofNat 32 k
      let byte := s.readMem a 1#32
      let rest := memBytes addr (k + 1) n byte.2
      ((if k % 16 = 0 then hexWord a ++ str ":" else []) ++ str " " ++
        dec2 (byte.1 &&& 0xFF#32).toNat ++ (if (k + 1) % 16 = 0 then newline else []) ++ rest.1,
        rest.2)

def printMem (addr size : U32) : Turn :=
  let bytes := memBytes addr 0 size.toNat sh.iss
  sh.put fuel (bytes.1 ++ if size.toNat % 16 ≠ 0 then newline else []) bytes.2

def cmdPrint (tok : List Str) : Turn :=
  if tok.length < 2 then
    sh.say fuel (str "usage: print pc|reg [i]|csr [addr]|mem <addr> <size>" ++ newline)
  else if tok.getD 1 [] = str "pc" then sh.say fuel (str "pc = " ++ hexWord sh.iss.hart.pc ++ newline)
  else if tok.getD 1 [] = str "reg" then
    if 2 < tok.length then
      withNumber (parseInt (tok.getD 2 [])) fun i => sh.say fuel (sh.regText i.toNat ++ newline)
    else sh.say fuel ((List.range gprCount.toNat).flatMap fun i => sh.regText i ++ newline)
  else if tok.getD 1 [] = str "csr" then
    if 2 < tok.length then
      withNumber (parseHex (tok.getD 2 [])) fun a =>
        sh.say fuel (str "csr[" ++ hexWord a ++ str "] = " ++ hexWord (sh.iss.csr a) ++ newline)
    else sh.say fuel []
  else if tok.getD 1 [] = str "mem" then
    if tok.length < 4 then sh.say fuel (str "usage: print mem <addr> <size>" ++ newline)
    else
      withNumber (parseHex (tok.getD 2 [])) fun addr =>
        withNumber (parseInt (tok.getD 3 [])) fun size => sh.printMem fuel addr size
  else sh.say fuel []

def dumpText : Str :=
  str "pc = " ++ hexWord sh.iss.hart.pc ++ newline ++
    ((List.range gprCount.toNat).flatMap fun i =>
      sh.regText i ++ if i % 4 = 3 then newline else str "  ") ++
    str "mstatus=" ++ hexWord (sh.iss.csr csrMstatus) ++ str " mepc=" ++ hexWord (sh.iss.csr csrMepc) ++
    str " mtvec=" ++ hexWord (sh.iss.csr csrMtvec) ++ str " mcause=" ++ hexWord (sh.iss.csr csrMcause) ++
    newline

def cmdDump (tok : List Str) : Turn :=
  if tok.length < 2 ∨ tok.getD 1 [] ≠ str "state" then
    sh.say fuel (str "usage: dump state" ++ newline)
  else sh.say fuel sh.dumpText

def cmdLast (tok : List Str) : Turn :=
  withNumber (argument parseInt tok 1 10#32) fun n =>
    let evs := sh.iss.lastEvents n.toNat
    sh.say fuel (str "last " ++ dec evs.length ++ str " instruction(s):" ++ newline ++
      evs.flatMap fun ev => str "  " ++ fmtInst ev ++ newline)

/-! ### The other commands -/

def cmdCheckpoint (tok : List Str) : Turn :=
  if tok.length < 3 then sh.say fuel (str "usage: checkpoint save|load <file>" ++ newline)
  else
    let path := tok.getD 2 []
    if tok.getD 1 [] = str "save" then
      let saved := sh.iss.saveCheckpoint (sh.room path)
      let files := if (sh.room path).isSome then Function.update sh.files path (some saved.2) else sh.files
      ⟨if saved.1 then [] else str "save failed" ++ newline, [], .ok ({ sh with files := files }, fuel)⟩
    else if tok.getD 1 [] = str "load" then
      let loaded := sh.iss.loadCheckpoint (sh.arrays 0) (sh.files path)
      ⟨if loaded.1 then [] else str "load failed" ++ newline, [],
        .ok ({ sh with iss := loaded.2, arrays := fun k => sh.arrays (k + 1) }, fuel)⟩
    else sh.say fuel []

/-- The bytes of a string of hexadecimal digits, two for each; an odd digit at the end is
not read. -/
def inputBytes : Str → Option (List (BitVec 8))
  | a :: b :: rest => do
      let byte ← stoul 16 [a, b]
      let bytes ← inputBytes rest
      some (byte.setWidth 8 :: bytes)
  | _ => some []

def cmdUart (tok : List Str) : Turn :=
  if tok.length < 3 then
    sh.say fuel (str "usage: uart input <file|hex> | uart output <file>" ++ newline)
  else
    let arg := tok.getD 2 []
    if tok.getD 1 [] = str "input" then
      if hexPrefix arg then
        match inputBytes (arg.drop 2) with
        | none => throw
        | some bytes => sh.put fuel [] { sh.iss with uart := sh.iss.uart.setInput bytes }
      else
        match sh.files arg with
        | none => sh.say fuel []
        | some bytes => sh.put fuel [] { sh.iss with uart := sh.iss.uart.setInput bytes }
    else if tok.getD 1 [] = str "output" then
      let files := if (sh.room arg).isSome then Function.update sh.files arg (some []) else sh.files
      ⟨[], [], .ok ({ sh with files := files }, fuel)⟩
    else sh.say fuel []

def cmdLog (tok : List Str) : Turn :=
  if tok.length < 2 then sh.say fuel (str "usage: log <level>" ++ newline)
  else
    withNumber (parseInt (tok.getD 1 [])) fun level =>
      ⟨[], [], .ok ({ sh with logLevel := level }, fuel)⟩

def setFilter (filter : TraceFilter) : Turn := ⟨[], [], .ok ({ sh with filter := filter }, fuel)⟩

/-- `trace on` and `parse_trace_filter`. -/
def cmdTraceOn (tok : List Str) : Turn :=
  let kind := tok.getD 2 []
  if tok.length < 3 then
    sh.say fuel (str "usage: trace on all | branches | loads | stores | exceptions | reg <i> | pc <low> <high>"
      ++ newline)
  else if kind = str "all" then sh.setFilter fuel { enabled := true, kind := .all }
  else if kind = str "branches" then sh.setFilter fuel { enabled := true, kind := .branches }
  else if kind = str "loads" then sh.setFilter fuel { enabled := true, kind := .loads }
  else if kind = str "stores" then sh.setFilter fuel { enabled := true, kind := .stores }
  else if kind = str "exceptions" then sh.setFilter fuel { enabled := true, kind := .exceptions }
  else if kind = str "reg" then
    if tok.length < 4 then sh.say fuel (str "usage: trace on reg <i>" ++ newline)
    else
      withNumber (parseInt (tok.getD 3 [])) fun i =>
        sh.setFilter fuel { enabled := true, kind := .reg, regIdx := i }
  else if kind = str "pc" then
    if tok.length < 5 then sh.say fuel (str "usage: trace on pc <low> <high>" ++ newline)
    else
      withNumber (parseHex (tok.getD 3 [])) fun lo =>
        withNumber (parseHex (tok.getD 4 [])) fun hi =>
          sh.setFilter fuel { enabled := true, kind := .pcRange, pcLo := lo, pcHi := hi }
  else sh.say fuel (str "unknown trace filter: " ++ kind ++ newline)

def cmdTrace (tok : List Str) : Turn :=
  if tok.length < 2 then sh.say fuel (str "usage: trace on <filter> | trace off" ++ newline)
  else if tok.getD 1 [] = str "off" then sh.setFilter fuel {}
  else if tok.getD 1 [] = str "on" then sh.cmdTraceOn fuel tok
  else sh.say fuel (str "usage: trace on <filter> | trace off" ++ newline)

def runTokens (tok : List Str) : Turn :=
  match tok with
  | [] => sh.say fuel []
  | cmd :: _ =>
      if cmd = str "load" ∨ cmd = str "load_bin" then sh.cmdLoad fuel tok
      else if cmd = str "load_elf" then sh.cmdLoadElf fuel tok
      else if cmd = str "reset" then sh.cmdReset fuel tok
      else if cmd = str "step" then sh.cmdStep fuel tok
      else if cmd = str "run" then sh.cmdRun fuel tok
      else if cmd = str "break" then sh.cmdBreak fuel tok (str "usage: break <addr>") insertBreak
      else if cmd = str "delete-break" then
        sh.cmdBreak fuel tok (str "usage: delete-break <addr>") fun addr breaks => breaks.erase addr
      else if cmd = str "clear-breaks" then ⟨[], [], .ok ({ sh with breakpoints := [] }, fuel)⟩
      else if cmd = str "list-breaks" then sh.say fuel sh.printBreakpoints
      else if cmd = str "print" then sh.cmdPrint fuel tok
      else if cmd = str "dump" then sh.cmdDump fuel tok
      else if cmd = str "checkpoint" then sh.cmdCheckpoint fuel tok
      else if cmd = str "uart" then sh.cmdUart fuel tok
      else if cmd = str "log" then sh.cmdLog fuel tok
      else if cmd = str "trace" then sh.cmdTrace fuel tok
      else if cmd = str "last" then sh.cmdLast fuel tok
      else if cmd = str "exit" ∨ cmd = str "quit" then
        ⟨[], [], .ok ({ sh with running := false }, fuel)⟩
      else sh.say fuel (str "unknown command: " ++ cmd ++ newline)

/-! ## Lines and scripts -/

/-- The next command after the shell that one leaves. -/
def andThen (turn : Turn) (next : Shell → Nat → Turn) : Turn :=
  match turn.next with
  | .error _ => turn
  | .ok (sh, fuel) =>
      let after := next sh fuel
      ⟨turn.text ++ after.text, turn.events ++ after.events, after.next⟩

/-- The commands of a line; an `exit` among them does not keep the others from running. -/
def runParts : List (List Str) → Shell → Nat → Turn
  | [], sh, fuel => sh.say fuel []
  | tok :: rest, sh, fuel => andThen (sh.runTokens fuel tok) (runParts rest)

/-- The commands of a line: what is behind `#` is a comment, `;` parts them. -/
def parts (line : Str) : List (List Str) :=
  ((line.takeWhile fun b => b != 0x23#8).splitOnP fun b => b == 0x3B#8).map tokenize

/-- The lines of a script, as their commands; an `exit` is obeyed at the end of its line. -/
def runScript : List (List (List Str)) → Shell → Nat → Turn
  | [], sh, fuel => sh.say fuel []
  | line :: rest, sh, fuel =>
      if sh.running then andThen (runParts line sh fuel) (runScript rest) else sh.say fuel []

end Shell

end NpcMachine.Emulator
