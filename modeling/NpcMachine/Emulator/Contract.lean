/-
# Emulator.Contract -- the runs of the reference model that the core is to follow

`Contract e n` is about the first `n` instructions of the reference model: no exception,
no `SYSTEM` or `MISC-MEM` word, no device access, no store into a line that is executed
or lies straight behind an executed word, and all of these words in the RAM.  In such a
run every instruction retires as the RTL's datapath has it (`Contract.steps`), and the
words on those lines stay the words of the image (`Contract.fetch_guarded`).
-/
import NpcMachine.Emulator.StepAgree
import NpcMachine.Rtl.IcacheContents

namespace NpcMachine.Emulator

open NpcMachine.Rtl

set_option autoImplicit false

namespace EmulatorIss

variable (e : EmulatorIss)

/-- The reference model under the default configuration, reset with a RAM image. -/
def boot (ram : Nat → BitVec 8) : EmulatorIss :=
  reset { e with cfg := {}, clint := { e.clint with cfg := {} }, memory := ⟨{}, ram⟩ }
    0x20000000#32

/-- The word at `pc`. -/
def word : U32 := (e.memory.fetch e.hart.pc 0#32).2

def isStore (d : DecodedInst) : Bool := d.type == .sb || d.type == .sh || d.type == .sw

/-- The address of a store. -/
def storeAddr (d : DecodedInst) : Option U32 := if isStore d then e.dataAddr d else none

end EmulatorIss

/-! ## The contract -/

structure Contract (e : EmulatorIss) (n : Nat) : Prop where
  quiet : ∀ k, k < n → ∃ ev, e.event k = some ev ∧ ev.exception = false
  base : ∀ k, k < n →
    opcode (e.run k).word ≠ 0b1110011#7 ∧ opcode (e.run k).word ≠ 0b0001111#7
  device : ∀ k, k < n → ∀ a, (e.run k).dataAddr (decode (e.run k).word) = some a →
    (e.run k).cfg.inClint a = false ∧ (e.run k).cfg.inUart a = false
  stores : ∀ k, k < n → ∀ a, (e.run k).storeAddr (decode (e.run k).word) = some a →
    ∀ j, j < n → lineAddr a ≠ lineAddr (e.run j).hart.pc ∧
      lineAddr a ≠ lineAddr ((e.run j).hart.pc + 4#32)
  ram : ∀ k, k < n → (e.run k).cfg.inRam (e.run k).hart.pc = true ∧
    (e.run k).cfg.inRam ((e.run k).hart.pc + 4#32) = true

/-- The contract as a test of each instruction. -/
theorem contract_iff (e : EmulatorIss) (n : Nat) : Contract e n ↔ ∀ k, k < n →
    (e.event k).map (·.exception) = some false ∧
    (opcode (e.run k).word ≠ 0b1110011#7 ∧ opcode (e.run k).word ≠ 0b0001111#7) ∧
    ((e.run k).dataAddr (decode (e.run k).word)).all (fun a =>
      decide ((e.run k).cfg.inClint a = false ∧ (e.run k).cfg.inUart a = false)) = true ∧
    ((e.run k).storeAddr (decode (e.run k).word)).all (fun a => decide (∀ j, j < n →
      lineAddr a ≠ lineAddr (e.run j).hart.pc ∧
        lineAddr a ≠ lineAddr ((e.run j).hart.pc + 4#32))) = true ∧
    (e.run k).cfg.inRam (e.run k).hart.pc = true ∧
      (e.run k).cfg.inRam ((e.run k).hart.pc + 4#32) = true := by
  simp only [Option.all_eq_true, decide_eq_true_eq]
  constructor
  · intro contract k early
    obtain ⟨ev, event, quiet⟩ := contract.quiet k early
    exact ⟨by rw [event, ← quiet]; rfl, contract.base k early, contract.device k early,
      contract.stores k early, contract.ram k early⟩
  · intro each
    refine ⟨fun k early => ?_, fun k early => (each k early).2.1,
      fun k early => (each k early).2.2.1, fun k early => (each k early).2.2.2.1,
      fun k early => (each k early).2.2.2.2⟩
    exact Option.map_eq_some_iff.mp (each k early).1

instance (e : EmulatorIss) (n : Nat) : Decidable (Contract e n) :=
  decidable_of_iff _ (contract_iff e n).symm

/-- The line of an address is executed or lies straight behind an executed word. -/
def Guarded (e : EmulatorIss) (n : Nat) (a : Word) : Prop :=
  ∃ j, j < n ∧ (lineAddr a = lineAddr (e.run j).hart.pc ∨
    lineAddr a = lineAddr ((e.run j).hart.pc + 4#32))

/-! ## One instruction -/

/-- A step without an exception fetched its word and executed it. -/
theorem stepInst_quiet {e : EmulatorIss} {out : EmulatorIss × CommitEvent}
    (step : e.stepInst = some out) (quiet : out.2.exception = false) :
    e.memory.fetch e.hart.pc 0#32 = (.ok, e.word) ∧
      out = ((e.execute (decode e.word)).1.tick, (e.execute (decode e.word)).2) := by
  obtain ⟨after, ev⟩ := out
  obtain ⟨-, rfl, rfl⟩ := EmulatorIss.stepInst_some step
  have word : e.word = (e.memory.fetch e.hart.pc 0#32).2 := rfl
  unfold EmulatorIss.stepBody at quiet ⊢
  rcases fetched : e.memory.fetch e.hart.pc 0#32 with ⟨result, inst⟩
  rw [fetched] at quiet word
  cases result with
  | misaligned => contradiction
  | accessFault => contradiction
  | ok =>
      rw [word]
      exact ⟨rfl, rfl⟩

theorem aligned_of_fetch {m : Memory} {a w : U32} (fetched : m.fetch a 0#32 = (.ok, w)) :
    misaligned4 a = false := by
  rw [misaligned4_iff]
  by_contra off
  rw [Memory.fetch, if_pos (by simpa using off)] at fetched
  cases fetched

/-- Instruction `k` of the run on the operand values `v1` and `v2`. -/
structure Steps (e : EmulatorIss) (k : Nat) (v1 v2 : U32) : Prop where
  fetch : (e.run k).memory.fetch (e.run k).hart.pc 0#32 = (.ok, (e.run k).word)
  retires : Retires (e.run k) (e.run k).word v1 v2
    ((e.run k).execute (decode (e.run k).word))
  next : e.run (k + 1) = ((e.run k).execute (decode (e.run k).word)).1.tick
  event : e.event k = some ((e.run k).execute (decode (e.run k).word)).2

namespace Steps

variable {e : EmulatorIss} {k : Nat} {v1 v2 : U32}

theorem pc (steps : Steps e k v1 v2) :
    (e.run (k + 1)).hart.pc = nextPcOf (e.run k).word (e.run k).hart.pc v1 v2 := by
  rw [steps.next]
  exact steps.retires.hartPc

theorem memory (steps : Steps e k v1 v2) : (e.run (k + 1)).memory =
    performOption (storeOf (e.run k).word (e.run k).hart.pc v1 v2) (e.run k).memory := by
  rw [steps.next]
  exact steps.retires.memory

/-- The registers after the instruction; `value` is what it writes. -/
theorem reg (steps : Steps e k v1 v2) {value : Word}
    (result : (decoder (e.run k).word).regWrite = true → value =
      resultOf (e.run k).word (e.run k).hart.pc v1 v2 (loadedOf (e.run k).word
        (loadOf (e.run k).memory (e.run k).word (e.run k).hart.pc v1 v2).2))
    (r : BitVec 4) : (e.run (k + 1)).hart.reg r =
      if (decoder (e.run k).word).regWrite = true ∧ r ≠ 0#4 ∧ r = (decoder (e.run k).word).rd
      then value else (e.run k).hart.reg r := by
  rw [steps.next]
  refine (steps.retires.regs r).trans ?_
  by_cases writes : (decoder (e.run k).word).regWrite = true ∧ r ≠ 0#4 ∧
      r = (decoder (e.run k).word).rd
  · rw [if_pos writes, if_pos writes, steps.retires.rdValue writes.1, result writes.1]
  · rw [if_neg writes, if_neg writes]

end Steps

/-! ## Lines -/

theorem lineAddr_of_sameWord {a b : Word} (same : Memory.SameWord a b) :
    lineAddr a = lineAddr b := by
  have word : a.toNat / 4 = b.toNat / 4 := same
  apply BitVec.eq_of_toNat_eq
  rw [toNat_lineAddr, toNat_lineAddr]
  omega

/-- The RAM consists of whole lines. -/
theorem inRam_of_line {m : Memory} {a pc : Word} (cfg : m.cfg = {})
    (inside : ({} : Config).inRam pc = true) (line : lineAddr a = lineAddr pc)
    (aligned : a &&& 3#32 = 0#32) : m.inRam a 4#32 = true := by
  have word : a.toNat % 4 = 0 := Memory.aligned_of_mask (k := 2) (by omega) aligned
  have same := congrArg BitVec.toNat line
  rw [toNat_lineAddr, toNat_lineAddr] at same
  simp only [Config.inRam, Bool.and_eq_true, BitVec.ule_eq_decide, BitVec.ult_eq_decide,
    decide_eq_true_eq] at inside
  obtain ⟨low, high⟩ := inside
  have base : ((0x20000000#32 : U32)).toNat = 0x20000000 := rfl
  have top : ((0x20000000#32 : U32) + 0x00100000#32).toNat = 0x20100000 := rfl
  have four : (4#32).toNat = 4 := rfl
  rw [base] at low
  rw [top] at high
  have sum : (a + 4#32).toNat = a.toNat + 4 := by
    rw [BitVec.toNat_add, four]
    omega
  have below : a.ult m.cfg.ramBase = false := by
    rw [cfg, BitVec.ult_eq_decide, base]
    simp only [decide_eq_false_iff_not]
    omega
  have noWrap : (a + 4#32).ult a = false := by
    rw [BitVec.ult_eq_decide, sum]
    simp
  have fits : (a + 4#32).ule (m.cfg.ramBase + m.cfg.ramSize) = true := by
    rw [cfg, BitVec.ule_eq_decide, sum, top]
    simp only [decide_eq_true_eq]
    omega
  simp [Memory.inRam, below, noWrap, fits]

@[simp] theorem performOption_cfg (op : Option StoreOp) (m : Memory) :
    (performOption op m).cfg = m.cfg := by
  cases op <;> simp

section Run

variable {e : EmulatorIss} {n : Nat} (contract : Contract e n)

namespace Contract

include contract

theorem executes {k : Nat} (early : k < n) :
    (e.run k).memory.fetch (e.run k).hart.pc 0#32 = (.ok, (e.run k).word) ∧
      ((e.run k).execute (decode (e.run k).word)).2.exception = false ∧
      e.run (k + 1) = ((e.run k).execute (decode (e.run k).word)).1.tick ∧
      e.event k = some ((e.run k).execute (decode (e.run k).word)).2 := by
  obtain ⟨ev, event, quiet⟩ := contract.quiet k early
  cases step : (e.run k).stepInst with
  | none =>
      rw [EmulatorIss.event, step] at event
      contradiction
  | some out =>
      have same : out.2 = ev := by
        rw [EmulatorIss.event, step] at event
        exact Option.some.inj event
      obtain ⟨fetch, split⟩ := stepInst_quiet step (by rw [same]; exact quiet)
      refine ⟨fetch, ?_, ?_, ?_⟩
      · rw [← congrArg Prod.snd split, same]
        exact quiet
      · rw [EmulatorIss.run_succ, step]
        exact congrArg Prod.fst split
      · rw [EmulatorIss.event, step]
        show some out.2 = _
        rw [split]

variable (cfg : e.cfg = {}) (real : ∀ k, k < n → OpRs1Real (e.run k).word)

include real

theorem steps_of_cfg {k : Nat} (early : k < n) (same : (e.run k).cfg = {}) {v1 v2 : U32}
    (rs1 : (decoder (e.run k).word).hasRs1 = true →
      v1 = (e.run k).hart.reg (decoder (e.run k).word).rs1)
    (rs2 : (decoder (e.run k).word).hasRs2 = true →
      v2 = (e.run k).hart.reg (decoder (e.run k).word).rs2) : Steps e k v1 v2 := by
  obtain ⟨fetch, quiet, next, event⟩ := contract.executes early
  exact ⟨fetch, execute_retires same (aligned_of_fetch fetch) quiet (contract.base k early).1
    (contract.base k early).2 (contract.device k early) (real k early) rs1 rs2, next, event⟩

include cfg

theorem cfg_run {k : Nat} (early : k ≤ n) :
    (e.run k).cfg = {} ∧ (e.run k).memory.cfg = e.memory.cfg := by
  induction k with
  | zero => exact ⟨cfg, rfl⟩
  | succ k ih =>
      obtain ⟨same, ram⟩ := ih (by omega)
      have steps := contract.steps_of_cfg real (by omega) same (fun _ => rfl) (fun _ => rfl)
      refine ⟨?_, ?_⟩
      · rw [steps.next]
        exact steps.retires.cfg.trans same
      · rw [steps.memory, performOption_cfg, ram]

/-- Every instruction, whatever values its unused operands have. -/
theorem steps {k : Nat} (early : k < n) {v1 v2 : U32}
    (rs1 : (decoder (e.run k).word).hasRs1 = true →
      v1 = (e.run k).hart.reg (decoder (e.run k).word).rs1)
    (rs2 : (decoder (e.run k).word).hasRs2 = true →
      v2 = (e.run k).hart.reg (decoder (e.run k).word).rs2) : Steps e k v1 v2 :=
  contract.steps_of_cfg real early (contract.cfg_run cfg real (by omega)).1 rs1 rs2

/-- What an instruction stores goes to the address that the contract speaks of. -/
theorem storeAddr_eq {k : Nat} (early : k < n) {v1 v2 : U32}
    (rs1 : (decoder (e.run k).word).hasRs1 = true →
      v1 = (e.run k).hart.reg (decoder (e.run k).word).rs1)
    (rs2 : (decoder (e.run k).word).hasRs2 = true →
      v2 = (e.run k).hart.reg (decoder (e.run k).word).rs2)
    {op : StoreOp} (stores : storeOf (e.run k).word (e.run k).hart.pc v1 v2 = some op) :
    (e.run k).storeAddr (decode (e.run k).word) = some op.addr := by
  obtain ⟨-, quiet, -, -⟩ := contract.executes early
  obtain ⟨base, checked⟩ :=
    base_of_quiet quiet (contract.base k early).1 (contract.base k early).2
  have ops : Operands (e.run k) (e.run k).word v1 v2 := ⟨base, checked, real k early, rs1, rs2⟩
  unfold storeOf at stores
  split_ifs at stores with writes
  have arm : (control (decodeType (e.run k).word)).memWrite = true :=
    (congrArg Control.memWrite ops.ctl).symm.trans writes
  have type : EmulatorIss.isStore (decode (e.run k).word) = true ∧
      accessSize (decode (e.run k).word).type ≠ 0#32 ∧
      (control (decodeType (e.run k).word)).hasRs1 = true := by
    have known : ∀ t : InstType, (control t).memWrite = true →
        (t == .sb || t == .sh || t == .sw) = true ∧ accessSize t ≠ 0#32 ∧
          (control t).hasRs1 = true := by
      intro t
      cases t <;> decide
    exact known _ arm
  have addr := (ops.access_ram (contract.cfg_run cfg real (Nat.le_of_lt early)).1
    (contract.device k early) (Or.inr arm) type.2.2).1
  cases stores
  rw [EmulatorIss.storeAddr, if_pos type.1, EmulatorIss.dataAddr, if_neg type.2.1, addr]

/-- No instruction changes the words of a guarded line. -/
theorem fetch_guarded {k : Nat} (early : k ≤ n) {a : Word} (guarded : Guarded e n a) :
    (e.run k).memory.fetch a 0#32 = e.memory.fetch a 0#32 := by
  induction k with
  | zero => rfl
  | succ k ih =>
      have steps := contract.steps cfg real early (fun _ => rfl) (fun _ => rfl)
      rw [← ih (Nat.le_of_lt early), steps.memory]
      cases stores : storeOf (e.run k).word (e.run k).hart.pc
          ((e.run k).hart.reg (decoder (e.run k).word).rs1)
          ((e.run k).hart.reg (decoder (e.run k).word).rs2) with
      | none => rfl
      | some op =>
          have addr := contract.storeAddr_eq cfg real early (fun _ => rfl) (fun _ => rfl) stores
          obtain ⟨j, inside, here | behind⟩ := guarded
          · have apart := (contract.stores k early op.addr addr j inside).1
            exact Memory.fetch_store (fun same => apart ((lineAddr_of_sameWord same).trans here)) _
          · have apart := (contract.stores k early op.addr addr j inside).2
            exact Memory.fetch_store (fun same => apart ((lineAddr_of_sameWord same).trans behind)) _

/-- The words of a guarded line lie in the RAM. -/
theorem fetch_ok {a : Word} (ram : e.memory.cfg = {}) (guarded : Guarded e n a)
    (aligned : a &&& 3#32 = 0#32) : (e.memory.fetch a 0#32).1 = .ok := by
  obtain ⟨j, inside, line⟩ := guarded
  have inRam := contract.ram j inside
  rw [(contract.cfg_run cfg real (Nat.le_of_lt inside)).1] at inRam
  have room : e.memory.inRam a 4#32 = true := by
    rcases line with here | behind
    · exact inRam_of_line ram inRam.1 here aligned
    · exact inRam_of_line ram inRam.2 behind aligned
  simp [Memory.fetch, aligned, room]

end Contract

end Run

end NpcMachine.Emulator
