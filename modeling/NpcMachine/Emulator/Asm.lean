/-
# Emulator.Asm -- assembly on the reference model

The instructions that the trap entry is written in, with the words the assembler makes of
them and what they do to the registers, the CSRs and the memory.  `step_asm` is one
`step_inst` on such a word, `run_block` a block of them that lies in the RAM and does not
write to itself.
-/
import NpcMachine.Emulator.Words
import NpcMachine.Emulator.RoundTrip
import NpcMachine.Emulator.Outcome
import NpcMachine.Emulator.RunLoop

namespace NpcMachine.Emulator

set_option autoImplicit false

/-! ## Instructions -/

/-- `csrr` and `csrw` are the pseudo-instructions, `x0` standing for the other operand. -/
inductive Asm where
  | addi (rd rs1 : BitVec 4) (imm : BitVec 12)
  | auipc (rd : BitVec 4) (imm : BitVec 20)
  | jalr (rd rs1 : BitVec 4) (offset : BitVec 12)
  | lw (rd rs1 : BitVec 4) (offset : BitVec 12)
  | sw (rs2 rs1 : BitVec 4) (offset : BitVec 12)
  | csrr (rd : BitVec 4) (number : BitVec 12)
  | csrw (number : BitVec 12) (rs1 : BitVec 4)
  | mret
  deriving DecidableEq, Repr

def Hart.setReg (h : Hart) (r : BitVec 4) (value : U32) : Hart :=
  if r = 0#4 then h else { h with x := Function.update h.x r value }

/-- The address is that of a word that loads and stores find in the RAM. -/
def PlainWord (c : Config) (m : Memory) (a : U32) : Prop :=
  m.HasWord a ∧ c.inClint a = false ∧ c.inUart a = false

instance (c : Config) (m : Memory) (a : U32) : Decidable (PlainWord c m a) :=
  inferInstanceAs (Decidable (_ ∧ _))

namespace Asm

/-- A register number in its field. -/
def field (r : BitVec 4) : BitVec 5 := r.setWidth 5

def type : Asm → InstType
  | addi .. => .addi
  | auipc .. => .auipc
  | jalr .. => .jalr
  | lw .. => .lw
  | sw .. => .sw
  | csrr .. => .csrrs
  | csrw .. => .csrrw
  | mret => .mret

def args : (i : Asm) → Args i.type.format
  | addi rd rs1 imm => .i (field rd) (field rs1) imm
  | auipc rd imm => .u (field rd) imm
  | jalr rd rs1 offset => .jalr (field rd) (field rs1) offset
  | lw rd rs1 offset => .i (field rd) (field rs1) offset
  | sw rs2 rs1 offset => .s (field rs1) (field rs2) offset
  | csrr rd number => .csr (field rd) 0#5 number
  | csrw number rs1 => .csr 0#5 (field rs1) number
  | mret => .system

def word (i : Asm) : U32 := encode i.type i.args

/-- The address of an access or the target of a jump. -/
def address (h : Hart) (rs1 : BitVec 4) (offset : BitVec 12) : U32 := h.reg rs1 + offset.signExtend 32

/-- What an instruction makes of the hart and the memory. -/
def exec : Asm → Hart × Memory → Hart × Memory
  | addi rd rs1 imm, (h, m) => ({ h.setReg rd (address h rs1 imm) with pc := h.pc + 4#32 }, m)
  | auipc rd imm, (h, m) => ({ h.setReg rd (h.pc + (imm ++ 0#12)) with pc := h.pc + 4#32 }, m)
  | jalr rd rs1 offset, (h, m) =>
      ({ h.setReg rd (h.pc + 4#32) with pc := address h rs1 offset &&& 0xFFFFFFFE#32 }, m)
  | lw rd rs1 offset, (h, m) =>
      ({ h.setReg rd (m.word (address h rs1 offset)) with pc := h.pc + 4#32 }, m)
  | sw rs2 rs1 offset, (h, m) =>
      ({ h with pc := h.pc + 4#32 }, m.writeWord (address h rs1 offset) (h.reg rs2))
  | csrr rd number, (h, m) =>
      ({ h.setReg rd ((h.readCsr (number.setWidth 32)).getD 0#32) with pc := h.pc + 4#32 }, m)
  | csrw number rs1, (h, m) =>
      ({ (h.writeCsr (number.setWidth 32) (h.reg rs1)).getD h with pc := h.pc + 4#32 }, m)
  | mret, (h, m) => ({ h with pc := h.mepc }, m)

/-- The operands with which an instruction does not trap. -/
def Fits (c : Config) : Asm → Hart × Memory → Prop
  | lw _ rs1 offset, (h, m) | sw _ rs1 offset, (h, m) => PlainWord c m (address h rs1 offset)
  | jalr _ rs1 offset, (h, _) => (address h rs1 offset &&& 0xFFFFFFFE#32) &&& 3#32 = 0#32
  | csrr _ number, (h, _) | csrw number _, (h, _) => (h.readCsr (number.setWidth 32)).isSome = true
  | addi .., _ | auipc .., _ | mret, _ => True

theorem field_real (r : BitVec 4) : (field r).getLsbD 4 = false := by
  rw [field, BitVec.getLsbD_setWidth]
  simp

theorem readReg_field (h : Hart) (r : BitVec 4) : h.readReg ((field r).setWidth 32) = h.reg r := by
  rw [readReg_register h (field_real r)]
  congr 1
  revert r
  decide

theorem field_eq_zero_iff (r : BitVec 4) : ((field r).setWidth 32 : U32) = 0#32 ↔ r = 0#4 := by
  revert r
  decide

theorem writeReg_field (h : Hart) (r : BitVec 4) (value : U32) :
    h.writeReg ((field r).setWidth 32) value = h.setReg r value := by
  have number : ((field r).setWidth 32 : U32).setWidth 4 = r := by
    revert r
    decide
  rw [Hart.writeReg, gprCount_ule, field_real, Bool.or_false, Hart.setReg]
  simp only [beq_iff_eq, field_eq_zero_iff, number]

theorem decode_type (i : Asm) : (decode i.word).type = i.type := decodeType_encodeAs i.type i.args rfl

theorem decode_args (i : Asm) : i.args.Read (decode i.word) := encodeAs_read i.type i.args rfl

theorem field_ule (r : BitVec 4) : gprCount.ule ((field r).setWidth 32) = false := by
  rw [gprCount_ule, field_real]

theorem zero_ule : gprCount.ule ((0#5 : BitVec 5).setWidth 32) = false := by decide

/-- The registers of the instructions exist. -/
theorem decode_checked (i : Asm) : reservedReg (decode i.word) = false := by
  have type := decode_type i
  have args := decode_args i
  cases i with
  | addi rd rs1 imm | jalr rd rs1 imm | lw rd rs1 imm =>
      obtain ⟨dRd, dRs1, -⟩ := args
      rw [reservedReg, type, dRd, dRs1, field_ule, field_ule]
      rfl
  | auipc rd imm =>
      rw [reservedReg, type, args.1, field_ule]
      rfl
  | sw rs2 rs1 offset =>
      obtain ⟨dRs1, dRs2, -⟩ := args
      rw [reservedReg, type, dRs1, dRs2, field_ule, field_ule]
      rfl
  | csrr rd number =>
      obtain ⟨dRd, dRs1, -⟩ := args
      rw [reservedReg, type, dRd, dRs1, field_ule, zero_ule]
      rfl
  | csrw number rs1 =>
      obtain ⟨dRd, dRs1, -⟩ := args
      rw [reservedReg, type, dRd, dRs1, field_ule, zero_ule]
      rfl
  | mret =>
      have rd : (decode (word .mret)).rd = 0#32 := by decide
      rw [reservedReg, type, rd]
      rfl

/-- The hart and the memory of a model. -/
def view (s : EmulatorIss) : Hart × Memory := (s.hart, s.memory)

theorem retire_view (s : EmulatorIss) (d : DecodedInst) (r : BitVec 4) (value next : U32) :
    view (s.retire d ((field r).setWidth 32) value next).1 =
      ({ s.hart.setReg r value with pc := next }, s.memory) := by
  rw [← writeReg_field]
  rfl

theorem retire_zero (s : EmulatorIss) (d : DecodedInst) (value next : U32) :
    view (s.retire d 0#32 value next).1 = ({ s.hart with pc := next }, s.memory) := rfl

theorem loadMem_plain {s : EmulatorIss} {a : U32} (plain : PlainWord s.cfg s.memory a) :
    s.loadMem a 4#32 = (.ok, s.memory.word a, s) := by
  obtain ⟨has, clint, uart⟩ := plain
  rw [EmulatorIss.loadMem, clint, uart, has.load]
  rfl

theorem storeMem_plain {s : EmulatorIss} {a : U32} (plain : PlainWord s.cfg s.memory a) (v : U32) :
    s.storeMem a 4#32 v = (.ok, { s with memory := s.memory.writeWord a v }) := by
  obtain ⟨has, clint, uart⟩ := plain
  rw [EmulatorIss.storeMem, clint, uart, has.store]
  rfl

/-- `execute` on the word of an instruction whose operands fit. -/
theorem execute_word (i : Asm) {s : EmulatorIss} (fits : i.Fits s.cfg (view s)) :
    view (s.execute (decode i.word)).1 = i.exec (view s) := by
  have type := decode_type i
  have args := decode_args i
  have checked := decode_checked i
  generalize decode i.word = d at *
  cases i with
  | addi rd rs1 imm =>
      obtain ⟨dRd, dRs1, dImm⟩ := args
      simp only [EmulatorIss.execute, checked, type, Asm.type, Bool.false_eq_true, if_false, dRd, dRs1, dImm,
        readReg_field]
      exact retire_view ..
  | auipc rd imm =>
      obtain ⟨dRd, dImm⟩ := args
      simp only [EmulatorIss.execute, checked, type, Asm.type, Bool.false_eq_true, if_false, dRd, dImm]
      exact retire_view ..
  | jalr rd rs1 offset =>
      obtain ⟨dRd, dRs1, dImm⟩ := args
      have target : ¬ (s.hart.reg rs1 + offset.signExtend 32 &&& 0xFFFFFFFE#32) &&& 3#32 ≠ 0#32 :=
        not_ne_iff.mpr fits
      simp only [EmulatorIss.execute, checked, type, Asm.type, Bool.false_eq_true, if_false, dRs1, dImm,
        readReg_field, EmulatorIss.jump, if_neg target, dRd]
      exact retire_view ..
  | lw rd rs1 offset =>
      obtain ⟨dRd, dRs1, dImm⟩ := args
      simp only [EmulatorIss.execute, checked, type, Asm.type, Bool.false_eq_true, if_false, dRs1, dImm,
        readReg_field, EmulatorIss.executeLoad, accessSize]
      have plain : PlainWord s.cfg s.memory (s.hart.reg rs1 + offset.signExtend 32) := fits
      rw [loadMem_plain plain, dRd]
      exact retire_view ..
  | sw rs2 rs1 offset =>
      obtain ⟨dRs1, dRs2, dImm⟩ := args
      simp only [EmulatorIss.execute, checked, type, Asm.type, Bool.false_eq_true, if_false, dRs1, dRs2, dImm,
        readReg_field, EmulatorIss.executeStore, accessSize]
      have plain : PlainWord s.cfg s.memory (s.hart.reg rs1 + offset.signExtend 32) := fits
      rw [storeMem_plain plain]
      exact retire_zero ..
  | csrr rd number =>
      obtain ⟨dRd, dRs1, dCsr, notImm, -⟩ := args
      obtain ⟨old, read⟩ := Option.isSome_iff_exists.mp fits
      have update : (csrUpdate d old (s.hart.readReg d.rs1)).2 = false := by
        rw [csrUpdate, type, dRs1, notImm]
        rfl
      simp only [EmulatorIss.execute, checked, type, Asm.type, Bool.false_eq_true, if_false,
        EmulatorIss.executeCsr, dCsr, notImm, read, update, dRd]
      show _ = exec _ (s.hart, s.memory)
      rw [retire_view, exec, read]
      by_cases zero : rd = 0#4
      · rw [zero]
        rfl
      · rw [if_pos (fun none => zero ((field_eq_zero_iff rd).mp none))]
        rfl
  | csrw number rs1 =>
      obtain ⟨dRd, dRs1, dCsr, notImm, -⟩ := args
      obtain ⟨old, read⟩ := Option.isSome_iff_exists.mp fits
      obtain ⟨after, written⟩ := writeCsr_of_read read (s.hart.reg rs1)
      have update : csrUpdate d old (s.hart.reg rs1) = (s.hart.reg rs1, true) := by
        rw [csrUpdate, type]
        rfl
      simp only [EmulatorIss.execute, checked, type, Asm.type, Bool.false_eq_true, if_false,
        EmulatorIss.executeCsr, dCsr, notImm, read, dRs1, readReg_field, update, if_true, written, dRd]
      show _ = exec _ (s.hart, s.memory)
      rw [exec, written]
      exact retire_zero ..
  | mret =>
      simp only [EmulatorIss.execute, checked, type, Asm.type, Bool.false_eq_true, if_false]
      exact retire_zero ..

/-- The instructions after which the next one follows. -/
def straight : Asm → Bool
  | jalr .. | mret => false
  | _ => true

/-- Where an instruction stores. -/
def target : Asm → Hart × Memory → Option U32
  | sw _ rs1 offset, (h, _) => some (address h rs1 offset)
  | _, _ => none

@[simp] theorem setReg_pc (h : Hart) (r : BitVec 4) (v : U32) : (h.setReg r v).pc = h.pc := by
  unfold Hart.setReg
  split_ifs <;> rfl

@[simp] theorem setReg_halted (h : Hart) (r : BitVec 4) (v : U32) :
    (h.setReg r v).halted = h.halted := by
  unfold Hart.setReg
  split_ifs <;> rfl

@[simp] theorem setReg_reg (h : Hart) (r q : BitVec 4) (v : U32) :
    (h.setReg r v).reg q = if q = r ∧ r ≠ 0#4 then v else h.reg q := by
  unfold Hart.setReg Hart.reg
  by_cases zero : r = 0#4
  · simp [zero]
  · by_cases same : q = r
    · simp [zero, same]
    · simp [zero, same]

@[simp] theorem setReg_mepc (h : Hart) (r : BitVec 4) (v : U32) : (h.setReg r v).mepc = h.mepc := by
  unfold Hart.setReg
  split_ifs <;> rfl

theorem exec_pc {i : Asm} (straight : i.straight = true) (c : Hart × Memory) :
    (i.exec c).1.pc = c.1.pc + 4#32 := by
  cases i with
  | jalr | mret => cases straight
  | addi | auipc | lw | sw | csrr | csrw => rfl

theorem exec_halted (i : Asm) (c : Hart × Memory) : (i.exec c).1.halted = c.1.halted := by
  cases i with
  | addi | auipc | jalr | lw | csrr => exact setReg_halted ..
  | sw | mret => rfl
  | csrw number rs1 =>
      show ((c.1.writeCsr _ _).getD c.1).halted = c.1.halted
      cases written : c.1.writeCsr (number.setWidth 32) (c.1.reg rs1) with
      | none => rfl
      | some after => exact (writeCsr_keeps written).2.2

theorem exec_memory {i : Asm} {c : Hart × Memory} (keeps : i.target c = none) :
    (i.exec c).2 = c.2 := by
  cases i with
  | sw => cases keeps
  | addi | auipc | jalr | lw | csrr | csrw | mret => rfl

end Asm

/-! ## Blocks -/

/-- The words of `code` lie in the RAM from `a` on. -/
def CodeAt (m : Memory) : U32 → List Asm → Prop
  | _, [] => True
  | a, i :: is => m.HasWord a ∧ m.word a = i.word ∧ CodeAt m (a + 4#32) is

/-- No word of `n` from `a` on is the one at `b`. -/
def Apart (b : U32) : U32 → Nat → Prop
  | _, 0 => True
  | a, n + 1 => b ≠ a ∧ Apart b (a + 4#32) n

instance decidableCodeAt (m : Memory) : (a : U32) → (code : List Asm) → Decidable (CodeAt m a code)
  | _, [] => inferInstanceAs (Decidable True)
  | a, _ :: is =>
      have := decidableCodeAt m (a + 4#32) is
      inferInstanceAs (Decidable (_ ∧ _ ∧ _))

instance decidableApart (b : U32) : (a : U32) → (n : Nat) → Decidable (Apart b a n)
  | _, 0 => inferInstanceAs (Decidable True)
  | a, n + 1 =>
      have := decidableApart b (a + 4#32) n
      inferInstanceAs (Decidable (_ ∧ _))

section Blocks

variable {m : Memory} {a b : U32}

theorem codeAt_append (a : U32) (is js : List Asm) :
    CodeAt m a (is ++ js) ↔ CodeAt m a is ∧ CodeAt m (a + BitVec.ofNat 32 (4 * is.length)) js := by
  induction is generalizing a with
  | nil => simp [CodeAt]
  | cons i is ih =>
      have shift : a + 4#32 + BitVec.ofNat 32 (4 * is.length) =
          a + BitVec.ofNat 32 (4 * (is.length + 1)) := by
        rw [BitVec.add_assoc, Nat.mul_succ, Nat.add_comm, BitVec.ofNat_add]
      rw [List.cons_append, CodeAt, CodeAt, ih, shift, List.length_cons, and_assoc, and_assoc]

theorem codeAt_writeWord (has : m.HasWord b) (v : U32) {code : List Asm} (held : CodeAt m a code)
    (apart : Apart b a code.length) : CodeAt (m.writeWord b v) a code := by
  induction code generalizing a with
  | nil => trivial
  | cons i is ih =>
      obtain ⟨here, word, rest⟩ := held
      obtain ⟨differ, others⟩ := apart
      refine ⟨here, ?_, ih rest others⟩
      rw [Memory.word_writeWord_other has here (Ne.symm differ), word]

/-- The whole code at `base`, and the operands with which its block runs from `c` on. -/
def FitsAll (cfg : Config) (base : U32) (length : Nat) : List Asm → Hart × Memory → Prop
  | [], _ => True
  | i :: is, c => i.straight = true ∧ i.Fits cfg c ∧ (∀ b, i.target c = some b → Apart b base length) ∧
      FitsAll cfg base length is (i.exec c)

def execAll (code : List Asm) (c : Hart × Memory) : Hart × Memory := code.foldl (fun c i => i.exec c) c

theorem execAll_append (is js : List Asm) (c : Hart × Memory) :
    execAll (is ++ js) c = execAll js (execAll is c) := List.foldl_append

theorem fitsAll_append {cfg : Config} {base : U32} {length : Nat} (is js : List Asm)
    (c : Hart × Memory) : FitsAll cfg base length (is ++ js) c ↔
      FitsAll cfg base length is c ∧ FitsAll cfg base length js (execAll is c) := by
  induction is generalizing c with
  | nil => simp [FitsAll, execAll]
  | cons i is ih =>
      rw [List.cons_append, FitsAll, FitsAll, ih]
      simp only [and_assoc, execAll, List.foldl_cons]

end Blocks

namespace EmulatorIss

open Asm

variable {s : EmulatorIss} {i : Asm}

/-- One step on the word of an instruction. -/
theorem step_asm (live : s.hart.halted = false) (has : s.memory.HasWord s.hart.pc)
    (word : s.memory.word s.hart.pc = i.word) (fits : i.Fits s.cfg (view s)) :
    ∃ next ev, s.stepInst = some (next, ev) ∧ view next = i.exec (view s) ∧ next.cfg = s.cfg := by
  have body : s.stepBody = s.execute (decode i.word) := by
    rw [stepBody, has.fetch, word]
  have step : s.stepInst = some (s.stepBody.1.tick, s.stepBody.2) := by
    rw [stepInst, live]
    rfl
  refine ⟨_, _, step, ?_, s.stepBody_config.cfg⟩
  rw [body]
  exact execute_word i fits

/-- The code lies at `base`, and the hart is in front of its instruction `k`. -/
structure AtCode (s : EmulatorIss) (base : U32) (code : List Asm) (k : Nat) : Prop where
  pc : s.hart.pc = base + BitVec.ofNat 32 (4 * k)
  live : s.hart.halted = false
  code : CodeAt s.memory base code

/-- A block of the code runs as its instructions say. -/
theorem run_block {base : U32} (pre is post : List Asm)
    (ready : s.AtCode base (pre ++ (is ++ post)) pre.length)
    (fits : FitsAll s.cfg base (pre ++ (is ++ post)).length is (view s)) :
    view (s.run is.length) = execAll is (view s) ∧
      (s.run is.length).AtCode base (pre ++ (is ++ post)) (pre.length + is.length) := by
  induction is generalizing s pre with
  | nil => exact ⟨rfl, ready⟩
  | cons i is ih =>
      obtain ⟨straight, fitsHere, stores, fitsRest⟩ := fits
      obtain ⟨-, here⟩ := (codeAt_append base pre ((i :: is) ++ post)).mp ready.code
      rw [← ready.pc] at here
      obtain ⟨next, ev, step, leaves, cfg⟩ := step_asm ready.live here.1 here.2.1 fitsHere
      have split : pre ++ ((i :: is) ++ post) = (pre ++ [i]) ++ (is ++ post) := by simp
      have length : (pre ++ [i]).length = pre.length + 1 := by simp
      rw [split] at ready fitsRest stores ⊢
      have after : next.AtCode base ((pre ++ [i]) ++ (is ++ post)) (pre ++ [i]).length := by
        refine ⟨?_, ?_, ?_⟩
        · have pc : next.hart.pc = s.hart.pc + 4#32 :=
            (congrArg (fun c => c.1.pc) leaves).trans (exec_pc straight (view s))
          rw [pc, ready.pc, length, Nat.mul_succ, BitVec.ofNat_add, BitVec.add_assoc]
        · have halted : next.hart.halted = s.hart.halted :=
            (congrArg (fun c => c.1.halted) leaves).trans (exec_halted i (view s))
          rw [halted, ready.live]
        · have memory : next.memory = (i.exec (view s)).2 := congrArg Prod.snd leaves
          rw [memory]
          cases at' : i.target (view s) with
          | none =>
              rw [exec_memory at']
              exact ready.code
          | some b =>
              cases i with
              | sw rs2 rs1 offset =>
                  obtain rfl : address s.hart rs1 offset = b := Option.some.inj at'
                  exact codeAt_writeWord fitsHere.1 _ ready.code (stores _ at')
              | addi | auipc | jalr | lw | csrr | csrw | mret => cases at'
      rw [← leaves, ← cfg] at fitsRest
      obtain ⟨views, there⟩ := ih (pre ++ [i]) after fitsRest
      rw [List.length_cons, run_one_add step]
      refine ⟨?_, ?_⟩
      · rw [views, leaves]
        rfl
      · rwa [length, Nat.add_assoc, Nat.add_comm 1] at there

end EmulatorIss

end NpcMachine.Emulator
