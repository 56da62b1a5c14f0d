/-
# Emulator.EmulatorIss -- the reference model of `emulator_iss.cpp`

`execute` is one instruction and `stepInst` one retirement.  The two ways out of
`execute` are `trap` and `retire`; every early return of the source is a `trap`.  The
tracer and the log level are left out.
-/
import NpcMachine.Emulator.Decoder
import NpcMachine.Emulator.Hart

namespace NpcMachine.Emulator

set_option autoImplicit false

/-! ## Commit events -/

structure CommitEvent where
  cycle : BitVec 64
  pc : U32
  inst : U32
  rd : U32
  rdValue : U32
  exception : Bool
  cause : U32
  nextPc : U32
  deriving DecidableEq, Repr, Inhabited

def ringSize : Nat := 64

/-- The buffer behind `last_events`. -/
structure Ring where
  buffer : Nat → CommitEvent
  head : Nat
  full : Bool
  deriving Inhabited

def Ring.push (r : Ring) (ev : CommitEvent) : Ring where
  buffer := Function.update r.buffer r.head ev
  head := (r.head + 1) % ringSize
  full := if (r.head + 1) % ringSize = 0 then true else r.full

structure EmulatorIss where
  cfg : Config
  hart : Hart
  memory : Memory
  clint : Clint
  uart : Uart
  cycle : BitVec 64
  retireIdx : BitVec 64
  ring : Ring
  deriving Inhabited

/-! ## The operations by type -/

/-- The result of the `OP-IMM` types. -/
def opImmValue (type : InstType) (op1 imm : U32) : U32 :=
  match type with
  | .addi => op1 + imm
  | .slti => if op1.slt imm then 1#32 else 0#32
  | .sltiu => if op1.ult imm then 1#32 else 0#32
  | .xori => op1 ^^^ imm
  | .ori => op1 ||| imm
  | .andi => op1 &&& imm
  | .slli => op1 <<< (imm &&& 0x1F#32)
  | .srli => op1 >>> (imm &&& 0x1F#32)
  | .srai => op1.sshiftRight (imm &&& 0x1F#32).toNat
  | _ => 0#32

/-- The result of the `OP` types. -/
def opValue (type : InstType) (op1 op2 : U32) : U32 :=
  match type with
  | .add => op1 + op2
  | .sub => op1 - op2
  | .sll => op1 <<< (op2 &&& 0x1F#32)
  | .slt => if op1.slt op2 then 1#32 else 0#32
  | .sltu => if op1.ult op2 then 1#32 else 0#32
  | .xor => op1 ^^^ op2
  | .srl => op1 >>> (op2 &&& 0x1F#32)
  | .sra => op1.sshiftRight (op2 &&& 0x1F#32).toNat
  | .or => op1 ||| op2
  | .and => op1 &&& op2
  | _ => 0#32

/-- The condition of the branch types. -/
def branchCondition (type : InstType) (op1 op2 : U32) : Bool :=
  match type with
  | .beq => op1 == op2
  | .bne => op1 != op2
  | .blt => op1.slt op2
  | .bge => !op1.slt op2
  | .bltu => op1.ult op2
  | .bgeu => !op1.ult op2
  | _ => false

/-- The access size of the load and store types, and the sign extension of a load. -/
def accessSize : InstType → U32
  | .lb | .lbu | .sb => 1#32
  | .lh | .lhu | .sh => 2#32
  | .lw | .sw => 4#32
  | _ => 0#32

def accessSext : InstType → Bool
  | .lb | .lh => true
  | _ => false

/-- `csr_new` and whether it is written; `source` is the immediate or the register. -/
def csrUpdate (d : DecodedInst) (old source : U32) : U32 × Bool :=
  match d.type with
  | .csrrw | .csrrwi => (source, true)
  | .csrrs => (old ||| source, !(d.rs1 == 0#32 && !d.isCsrImm))
  | .csrrsi => (old ||| source, d.imm != 0#32)
  | .csrrc => (old &&& ~~~source, !(d.rs1 == 0#32 && !d.isCsrImm))
  | .csrrci => (old &&& ~~~source, d.imm != 0#32)
  | _ => (old, true)

/-! ## Register validation -/

def hasRd : InstType → Bool
  | .sb | .sh | .sw | .beq | .bne | .blt | .bge | .bltu | .bgeu => false
  | _ => true

/-- The types whose `rs1` is checked; the `OP` types are not among them. -/
def hasRs1Reg : InstType → Bool
  | .addi | .slti | .sltiu | .xori | .ori | .andi | .slli | .srli | .srai | .jalr
  | .lb | .lh | .lw | .lbu | .lhu | .sb | .sh | .sw
  | .beq | .bne | .blt | .bge | .bltu | .bgeu | .csrrw | .csrrs | .csrrc => true
  | _ => false

def hasRs2Reg : InstType → Bool
  | .add | .sub | .sll | .slt | .sltu | .xor | .srl | .sra | .or | .and
  | .sb | .sh | .sw | .beq | .bne | .blt | .bge | .bltu | .bgeu => true
  | _ => false

/-- A register number that RV32E does not have. -/
def reservedReg (d : DecodedInst) : Bool :=
  d.type != .unknown &&
    ((hasRd d.type && gprCount.ule d.rd) || (hasRs1Reg d.type && gprCount.ule d.rs1) ||
      (hasRs2Reg d.type && gprCount.ule d.rs2))

namespace EmulatorIss

/-- The constructor: the RAM starts as zeros. -/
def create (cfg : Config) : EmulatorIss where
  cfg := cfg
  hart := Hart.reset cfg.resetVector
  memory := ⟨cfg, fun _ => 0#8⟩
  clint := ⟨cfg, 0#64⟩
  uart := Uart.reset
  cycle := 0#64
  retireIdx := 0#64
  ring := ⟨fun _ => default, 0, false⟩

variable (s : EmulatorIss)

def reset (resetAddr : U32) : EmulatorIss :=
  { s with
    cycle := 0#64
    retireIdx := 0#64
    ring := { s.ring with head := 0, full := false }
    hart := Hart.reset resetAddr
    clint := s.clint.reset
    uart := Uart.reset }

/-! ## The two ways out -/

def commit (ev : CommitEvent) : EmulatorIss :=
  { s with ring := s.ring.push ev, retireIdx := s.retireIdx + 1#64 }

/-- `take_exc` and the commit of the exception. -/
def trap (d : DecodedInst) (cause : U32) : EmulatorIss × CommitEvent :=
  let hart := s.hart.takeException cause
  let ev : CommitEvent :=
    { cycle := s.cycle, pc := s.hart.pc, inst := d.inst, rd := 0#32, rdValue := 0#32
      exception := true, cause := cause, nextPc := hart.pc }
  (commit { s with hart := hart } ev, ev)

/-- The register write, the new pc and the commit at the end of `execute`. -/
def retire (d : DecodedInst) (rd rdValue nextPc : U32) : EmulatorIss × CommitEvent :=
  let hart := { s.hart.writeReg rd rdValue with pc := nextPc }
  let ev : CommitEvent :=
    { cycle := s.cycle, pc := s.hart.pc, inst := d.inst, rd := rd, rdValue := rdValue
      exception := false, cause := 0#32, nextPc := nextPc }
  (commit { s with hart := hart } ev, ev)

/-- A jump is checked for alignment before it links. -/
def jump (d : DecodedInst) (target : U32) : EmulatorIss × CommitEvent :=
  if target &&& 3#32 ≠ 0#32 then s.trap d causeInstMisaligned
  else s.retire d d.rd (s.hart.pc + 4#32) target

/-- A branch is checked for alignment only if it leaves the straight line. -/
def branch (d : DecodedInst) (taken : Bool) : EmulatorIss × CommitEvent :=
  let nextPc := if taken then s.hart.pc + d.imm else s.hart.pc + 4#32
  if nextPc ≠ s.hart.pc + 4#32 ∧ nextPc &&& 3#32 ≠ 0#32 then s.trap d causeInstMisaligned
  else s.retire d 0#32 0#32 nextPc

/-! ## Data accesses -/

def loadMem (addr size : U32) : MemResult × U32 × EmulatorIss :=
  if s.cfg.inClint addr then
    if size ≠ 4#32 then (.misaligned, 0#32, s)
    else
      match s.clint.load addr size with
      | some value => (.ok, value, s)
      | none => (.accessFault, 0#32, s)
  else if s.cfg.inUart addr then
    match s.uart.load size with
    | some (value, uart) => (.ok, value, { s with uart := uart })
    | none => (.accessFault, 0#32, s)
  else ((s.memory.load addr size 0#32).1, (s.memory.load addr size 0#32).2, s)

def storeMem (addr size data : U32) : MemResult × EmulatorIss :=
  if s.cfg.inClint addr then
    if size ≠ 4#32 then (.misaligned, s)
    else
      match s.clint.store addr size data with
      | some clint => (.ok, { s with clint := clint })
      | none => (.accessFault, s)
  else if s.cfg.inUart addr then
    match s.uart.store size data with
    | some uart => (.ok, { s with uart := uart })
    | none => (.accessFault, s)
  else
    ((s.memory.store addr size data).1, { s with memory := (s.memory.store addr size data).2 })

def loadValue (type : InstType) (value : U32) : U32 :=
  if accessSext type then
    if accessSize type = 1#32 then signExtend (value &&& 0xFF#32) 8
    else if accessSize type = 2#32 then signExtend (value &&& 0xFFFF#32) 16
    else value
  else value

def executeLoad (d : DecodedInst) (addr : U32) : EmulatorIss × CommitEvent :=
  match s.loadMem addr (accessSize d.type) with
  | (.ok, value, s) => s.retire d d.rd (loadValue d.type value) (s.hart.pc + 4#32)
  | (.misaligned, _, s) => s.trap d causeLoadMisaligned
  | (.accessFault, _, s) => s.trap d causeLoadAccessFault

def executeStore (d : DecodedInst) (addr data : U32) : EmulatorIss × CommitEvent :=
  match s.storeMem addr (accessSize d.type) data with
  | (.ok, s) => s.retire d 0#32 0#32 (s.hart.pc + 4#32)
  | (.misaligned, s) => s.trap d causeStoreMisaligned
  | (.accessFault, s) => s.trap d causeStoreAccessFault

/-! ## CSR instructions -/

def executeCsr (d : DecodedInst) : EmulatorIss × CommitEvent :=
  match s.hart.readCsr d.csr with
  | none => s.trap d causeIllegalInst
  | some old =>
      let source := if d.isCsrImm then d.imm else s.hart.readReg d.rs1
      let update := csrUpdate d old source
      let rdValue := if d.rd ≠ 0#32 then old else 0#32
      if update.2 then
        match s.hart.writeCsr d.csr update.1 with
        | none => s.trap d causeIllegalInst
        | some hart => retire { s with hart := hart } d d.rd rdValue (s.hart.pc + 4#32)
      else s.retire d d.rd rdValue (s.hart.pc + 4#32)

/-! ## One instruction -/

def execute (d : DecodedInst) : EmulatorIss × CommitEvent :=
  let pc := s.hart.pc
  let op1 := s.hart.readReg d.rs1
  let op2 := s.hart.readReg d.rs2
  if reservedReg d then s.trap d causeIllegalInst
  else
    match d.type with
    | .addi | .slti | .sltiu | .xori | .ori | .andi | .slli | .srli | .srai =>
        s.retire d d.rd (opImmValue d.type op1 d.imm) (pc + 4#32)
    | .add | .sub | .sll | .slt | .sltu | .xor | .srl | .sra | .or | .and =>
        s.retire d d.rd (opValue d.type op1 op2) (pc + 4#32)
    | .lui => s.retire d d.rd d.imm (pc + 4#32)
    | .auipc => s.retire d d.rd (pc + d.imm) (pc + 4#32)
    | .jal => s.jump d (pc + d.imm)
    | .jalr => s.jump d ((op1 + d.imm) &&& 0xFFFFFFFE#32)
    | .beq | .bne | .blt | .bge | .bltu | .bgeu => s.branch d (branchCondition d.type op1 op2)
    | .lb | .lh | .lw | .lbu | .lhu => s.executeLoad d (op1 + d.imm)
    | .sb | .sh | .sw => s.executeStore d (op1 + d.imm) op2
    | .fence | .fenceI | .wfi => s.retire d 0#32 0#32 (pc + 4#32)
    | .ecall => s.trap d causeEcallM
    | .ebreak => trap { s with hart := { s.hart with halted := true } } d causeBreakpoint
    | .mret => s.retire d 0#32 0#32 s.hart.mepc
    | .csrrw | .csrrs | .csrrc | .csrrwi | .csrrsi | .csrrci => s.executeCsr d
    | .unknown => s.trap d causeIllegalInst

/-- A failed fetch: the event is built after the exception, so its pc is the handler's. -/
def fetchTrap (inst cause : U32) : EmulatorIss × CommitEvent :=
  let hart := s.hart.takeException cause
  let ev : CommitEvent :=
    { cycle := s.cycle, pc := hart.pc, inst := inst, rd := 0#32, rdValue := 0#32
      exception := true, cause := cause, nextPc := hart.pc }
  (commit { s with hart := hart } ev, ev)

def stepBody : EmulatorIss × CommitEvent :=
  match s.memory.fetch s.hart.pc 0#32 with
  | (.misaligned, inst) => s.fetchTrap inst causeInstMisaligned
  | (.accessFault, inst) => s.fetchTrap inst causeInstAccessFault
  | (.ok, inst) => s.execute (decode inst)

def tick : EmulatorIss := { s with clint := s.clint.tick, cycle := s.cycle + 1#64 }

/-- `step_inst`; `none` when it returns false, on a halted hart. -/
def stepInst : Option (EmulatorIss × CommitEvent) :=
  if s.hart.halted then none else some (s.stepBody.1.tick, s.stepBody.2)

theorem stepInst_some {s after : EmulatorIss} {ev : CommitEvent}
    (step : s.stepInst = some (after, ev)) :
    s.hart.halted = false ∧ after = s.stepBody.1.tick ∧ ev = s.stepBody.2 := by
  unfold stepInst at step
  split_ifs at step with halted
  cases step
  exact ⟨by simpa using halted, rfl, rfl⟩

/-- The state after `n` calls of `step_inst`. -/
def run (n : Nat) : EmulatorIss := (fun s => (s.stepInst.map Prod.fst).getD s)^[n] s

/-- The event of call `k`. -/
def event (k : Nat) : Option CommitEvent := (s.run k).stepInst.map Prod.snd

theorem run_succ (k : Nat) :
    s.run (k + 1) = ((s.run k).stepInst.map Prod.fst).getD (s.run k) :=
  Function.iterate_succ_apply' _ k s

/-- What a step keeps, a run keeps. -/
theorem run_invariant {s : EmulatorIss} {P : EmulatorIss → Prop} (start : P s)
    (kept : ∀ t after ev, P t → t.stepInst = some (after, ev) → P after) (n : Nat) :
    P (s.run n) := by
  induction n with
  | zero => exact start
  | succ n ih =>
      rw [run_succ]
      cases step : (s.run n).stepInst with
      | none => exact ih
      | some out => exact kept _ _ _ ih step

end EmulatorIss

end NpcMachine.Emulator
