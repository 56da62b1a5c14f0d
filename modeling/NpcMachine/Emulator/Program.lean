/-
# Emulator.Program -- register programs on the reference model

A program is a list of instructions that compute on registers; its branches and jumps name
the instruction they go to.  `Program.next` runs it on a hart.  A program that lies in the
RAM runs on the reference model as `next` says, and leaves the memory and the UART alone
(`reaches_run`).
-/
import NpcMachine.Machine.Reach
import NpcMachine.Emulator.Asm

namespace NpcMachine.Emulator

open NpcMachine.Machine

set_option autoImplicit false

/-! ## Instructions -/

/-- The types of a layout. -/
abbrev InstType.Of (f : Format) : Type := { t : InstType // t.format = f }

/-- The types of `OP-IMM` that have a whole immediate. -/
abbrev InstType.OpImm : Type := { t : InstType // t.format = .i ∧ t.code = 0x13#7 }

inductive Ins where
  | opImm (t : InstType.OpImm) (rd rs1 : BitVec 4) (imm : BitVec 12)
  | shift (t : InstType.Of .shift) (rd rs1 : BitVec 4) (shamt : BitVec 5)
  | op (t : InstType.Of .r) (rd rs1 rs2 : BitVec 4)
  | branch (t : InstType.Of .b) (rs1 rs2 : BitVec 4) (dest : Nat)
  | jal (rd : BitVec 4) (dest : Nat)
  | auipc (rd : BitVec 4) (imm : BitVec 20)
  | jalr (rd rs1 : BitVec 4) (offset : BitVec 12)
  deriving DecidableEq

/-- The address of instruction `k`. -/
def insAddress (base : U32) (k : Nat) : U32 := base + BitVec.ofNat 32 (4 * k)

/-- The hart in front of another instruction. -/
def Hart.goto (h : Hart) (pc : U32) : Hart := { h with pc := pc }

/-- Half of the distance between two instructions, as branches and jumps hold it. -/
def halfOffset (w here dest : Nat) : BitVec w := BitVec.ofInt w (2 * ((dest : Int) - here))

namespace Ins

open Asm (field)

/-- The word that the assembler makes of instruction `k`. -/
def word (k : Nat) : Ins → U32
  | opImm t rd rs1 imm => encodeAs t.1 (.i (field rd) (field rs1) imm)
  | shift t rd rs1 shamt => encodeAs t.1 (.shift (field rd) (field rs1) shamt)
  | op t rd rs1 rs2 => encodeAs t.1 (.r (field rd) (field rs1) (field rs2))
  | branch t rs1 rs2 dest => encodeAs t.1 (.b (field rs1) (field rs2) (halfOffset 12 k dest))
  | jal rd dest => encodeAs .jal (.j (field rd) (halfOffset 20 k dest))
  | auipc rd imm => encodeAs .auipc (.u (field rd) imm)
  | jalr rd rs1 offset => encodeAs .jalr (.jalr (field rd) (field rs1) offset)

/-- The offset fits its field. -/
def Near (k : Nat) : Ins → Prop
  | branch _ _ _ dest => dest < k + 1024 ∧ k ≤ dest + 1024
  | jal _ dest => dest < k + 262144 ∧ k ≤ dest + 262144
  | _ => True

instance (k : Nat) (i : Ins) : Decidable (i.Near k) := by
  unfold Near
  split <;> infer_instance

/-- What instruction `k` makes of the hart. -/
def exec (base : U32) (k : Nat) (h : Hart) : Ins → Hart
  | opImm t rd rs1 imm =>
      (h.setReg rd (opImmValue t.1 (h.reg rs1) (imm.signExtend 32))).goto (insAddress base (k + 1))
  | shift t rd rs1 shamt =>
      (h.setReg rd (opImmValue t.1 (h.reg rs1) (shamt.setWidth 32))).goto (insAddress base (k + 1))
  | op t rd rs1 rs2 =>
      (h.setReg rd (opValue t.1 (h.reg rs1) (h.reg rs2))).goto (insAddress base (k + 1))
  | branch t rs1 rs2 dest =>
      h.goto (if branchCondition t.1 (h.reg rs1) (h.reg rs2) then insAddress base dest
        else insAddress base (k + 1))
  | jal rd dest => (h.setReg rd (insAddress base (k + 1))).goto (insAddress base dest)
  | auipc rd imm =>
      (h.setReg rd (insAddress base k + (imm ++ 0#12))).goto (insAddress base (k + 1))
  | jalr rd rs1 offset =>
      (h.setReg rd (insAddress base (k + 1))).goto (Asm.address h rs1 offset &&& 0xFFFFFFFE#32)

/-- A register holds a target that jumps accept. -/
def Fits (h : Hart) : Ins → Prop
  | jalr _ rs1 offset => (Asm.address h rs1 offset &&& 0xFFFFFFFE#32) &&& 3#32 = 0#32
  | _ => True

instance (h : Hart) (i : Ins) : Decidable (i.Fits h) := by
  unfold Fits
  split <;> infer_instance

end Ins

/-! ## Instructions by name -/

namespace Ins

def andi (rd rs1 : BitVec 4) (imm : BitVec 12) : Ins := opImm ⟨.andi, rfl, rfl⟩ rd rs1 imm
def slli (rd rs1 : BitVec 4) (shamt : BitVec 5) : Ins := shift ⟨.slli, rfl⟩ rd rs1 shamt
def srli (rd rs1 : BitVec 4) (shamt : BitVec 5) : Ins := shift ⟨.srli, rfl⟩ rd rs1 shamt
def add (rd rs1 rs2 : BitVec 4) : Ins := op ⟨.add, rfl⟩ rd rs1 rs2
def sub (rd rs1 rs2 : BitVec 4) : Ins := op ⟨.sub, rfl⟩ rd rs1 rs2
def or (rd rs1 rs2 : BitVec 4) : Ins := op ⟨.or, rfl⟩ rd rs1 rs2
def bltu (rs1 rs2 : BitVec 4) (dest : Nat) : Ins := branch ⟨.bltu, rfl⟩ rs1 rs2 dest
def bgeu (rs1 rs2 : BitVec 4) (dest : Nat) : Ins := branch ⟨.bgeu, rfl⟩ rs1 rs2 dest

def li (rd : BitVec 4) (imm : BitVec 12) : Ins := opImm ⟨.addi, rfl, rfl⟩ rd 0#4 imm
def mv (rd rs : BitVec 4) : Ins := opImm ⟨.addi, rfl, rfl⟩ rd rs 0#12
def neg (rd rs : BitVec 4) : Ins := sub rd 0#4 rs
def beqz (rs : BitVec 4) (dest : Nat) : Ins := branch ⟨.beq, rfl⟩ rs 0#4 dest
def bnez (rs : BitVec 4) (dest : Nat) : Ins := branch ⟨.bne, rfl⟩ rs 0#4 dest
def bltz (rs : BitVec 4) (dest : Nat) : Ins := branch ⟨.blt, rfl⟩ rs 0#4 dest
def bgez (rs : BitVec 4) (dest : Nat) : Ins := branch ⟨.bge, rfl⟩ rs 0#4 dest
def blez (rs : BitVec 4) (dest : Nat) : Ins := branch ⟨.bge, rfl⟩ 0#4 rs dest
def bgtz (rs : BitVec 4) (dest : Nat) : Ins := branch ⟨.blt, rfl⟩ 0#4 rs dest
def bgtu (rs rt : BitVec 4) (dest : Nat) : Ins := bltu rt rs dest
def j (dest : Nat) : Ins := jal 0#4 dest
def jr (rs : BitVec 4) : Ins := jalr 0#4 rs 0#12
def ret : Ins := jr 1#4

/-- `call` at instruction `k`, an `auipc` and a `jalr` that has the whole offset. -/
def call (k dest : Nat) : List Ins :=
  [auipc 1#4 0#20, jalr 1#4 1#4 (BitVec.ofInt 12 (4 * ((dest : Int) - k)))]

end Ins

structure Program where
  code : List Ins
  short : code.length < 2 ^ 30
  near : ∀ k (inside : k < code.length), code[k].Near k

namespace Program

variable (p : Program) (base : U32)

/-- One step of the program at `base`. -/
def next (h : Hart) : Option Hart :=
  let offset := (h.pc - base).toNat
  if h.halted = false ∧ offset % 4 = 0 then
    p.code[offset / 4]?.bind fun i => if i.Fits h then some (i.exec base (offset / 4) h) else none
  else none

/-- The words of the program lie in the RAM. -/
def In (m : Memory) : Prop :=
  ∀ k (inside : k < p.code.length),
    m.HasWord (insAddress base k) ∧ m.word (insAddress base k) = p.code[k].word k

instance (m : Memory) : Decidable (p.In base m) := inferInstanceAs (Decidable (∀ _ _, _))

end Program

/-! ## Offsets -/

theorem insAddress_succ (base : U32) (k : Nat) : insAddress base (k + 1) = insAddress base k + 4#32 := by
  rw [insAddress, insAddress, Nat.mul_succ, BitVec.ofNat_add, BitVec.add_assoc]

theorem insAddress_ofInt (base : U32) (here dest : Nat) :
    insAddress base here + BitVec.ofInt 32 (4 * ((dest : Int) - here)) = insAddress base dest := by
  rw [insAddress, insAddress, BitVec.add_assoc, ← BitVec.ofInt_natCast, ← BitVec.ofInt_natCast,
    ← BitVec.ofInt_add]
  congr 2
  push_cast
  omega

theorem toInt_append_zero {w : Nat} (x : BitVec w) : (x ++ 0#1).toInt = 2 * x.toInt := by
  have whole : (x ++ 0#1).toNat = 2 * x.toNat := by
    rw [BitVec.toNat_append]
    simp [Nat.shiftLeft_eq, Nat.mul_comm]
  rw [BitVec.toInt_eq_toNat_cond, BitVec.toInt_eq_toNat_cond, whole, pow_succ]
  split_ifs <;> push_cast <;> omega

/-- An offset in its field is the distance of the two instructions. -/
theorem halfOffset_extend {w here dest : Nat} (low : -2 ^ w ≤ 2 * ((dest : Int) - here))
    (high : 2 * ((dest : Int) - here) < 2 ^ w) :
    (halfOffset (w + 1) here dest ++ 0#1).signExtend 32 = BitVec.ofInt 32 (4 * ((dest : Int) - here)) := by
  have small : (halfOffset (w + 1) here dest).toInt = 2 * ((dest : Int) - here) := by
    rw [halfOffset, BitVec.toInt_ofInt]
    apply Int.bmod_eq_of_le <;> push_cast <;> omega
  rw [BitVec.signExtend, toInt_append_zero, small]
  congr 1
  omega

theorem mask_of_aligned {a : U32} (aligned : a.toNat % 4 = 0) : a &&& 3#32 = 0#32 := by
  have low : a &&& 3#32 = (a.extractLsb' 0 2).setWidth 32 := and_low a 2 (by omega)
  rw [low, ← BitVec.toNat_inj]
  simp [aligned]

/-- Every instruction of a program at an aligned address is aligned. -/
theorem insAddress_aligned {base : U32} (aligned : base.toNat % 4 = 0) (k : Nat) :
    (insAddress base k).toNat % 4 = 0 := by
  rw [insAddress, BitVec.toNat_add, BitVec.toNat_ofNat]
  omega

/-! ## One instruction -/

/-- Nothing but the hart and the record of the step has changed. -/
structure EmulatorIss.Moves (s after : EmulatorIss) (h : Hart) : Prop where
  hart : after.hart = h
  memory : after.memory = s.memory
  uart : after.uart = s.uart
  cfg : after.cfg = s.cfg

namespace Ins

open Asm (field readReg_field writeReg_field field_ule)

variable {s : EmulatorIss} {base : U32} {k : Nat}

theorem retire_moves (d : DecodedInst) (r : BitVec 4) (value next : U32) :
    s.Moves (s.retire d ((field r).setWidth 32) value next).1 ((s.hart.setReg r value).goto next) := by
  rw [← writeReg_field]
  exact ⟨rfl, rfl, rfl, rfl⟩

def type : Ins → InstType
  | opImm t .. => t.1
  | shift t .. => t.1
  | op t .. => t.1
  | branch t .. => t.1
  | jal .. => .jal
  | auipc .. => .auipc
  | jalr .. => .jalr

theorem decode_type (i : Ins) : (decode (i.word k)).type = i.type := by
  cases i with
  | opImm t => exact decodeType_encodeAs _ _ t.2.1
  | shift t | op t | branch t => exact decodeType_encodeAs _ _ t.2
  | jal | auipc | jalr => exact decodeType_encodeAs _ _ rfl

/-- The registers of the instructions exist. -/
theorem decode_checked (i : Ins) : reservedReg (decode (i.word k)) = false := by
  have type := decode_type (k := k) i
  cases i with
  | opImm t rd rs1 imm =>
      obtain ⟨dRd, dRs1, -⟩ := encodeAs_read t.1 (.i (field rd) (field rs1) imm) t.2.1
      have noRs2 : hasRs2Reg t.1 = false := by
        obtain ⟨t, format, code⟩ := t
        cases t <;> first | rfl | cases format
      rw [reservedReg, type]
      show _ = false
      simp only [word, dRd, dRs1, field_ule, Ins.type, noRs2]
      simp
  | shift t rd rs1 shamt =>
      obtain ⟨dRd, dRs1, -⟩ := encodeAs_read t.1 (.shift (field rd) (field rs1) shamt) t.2
      have noRs2 : hasRs2Reg t.1 = false := by
        obtain ⟨t, format⟩ := t
        cases t <;> first | rfl | cases format
      rw [reservedReg, type]
      simp only [word, dRd, dRs1, field_ule, Ins.type, noRs2]
      simp
  | op t rd rs1 rs2 =>
      obtain ⟨dRd, dRs1, dRs2, -⟩ := encodeAs_read t.1 (.r (field rd) (field rs1) (field rs2)) t.2
      rw [reservedReg, type]
      simp only [word, dRd, dRs1, dRs2, field_ule]
      simp
  | branch t rs1 rs2 dest =>
      obtain ⟨dRs1, dRs2, -⟩ :=
        encodeAs_read t.1 (.b (field rs1) (field rs2) (halfOffset 12 k dest)) t.2
      have noRd : hasRd t.1 = false := by
        obtain ⟨t, format⟩ := t
        cases t <;> first | rfl | cases format
      rw [reservedReg, type]
      simp only [word, dRs1, dRs2, field_ule, Ins.type, noRd]
      simp
  | jal rd dest =>
      obtain ⟨dRd, -⟩ := encodeAs_read .jal (.j (field rd) (halfOffset 20 k dest)) rfl
      rw [reservedReg, type]
      simp only [word, dRd, field_ule]
      rfl
  | auipc rd imm =>
      obtain ⟨dRd, -⟩ := encodeAs_read .auipc (.u (field rd) imm) rfl
      rw [reservedReg, type]
      simp only [word, dRd, field_ule]
      rfl
  | jalr rd rs1 offset =>
      obtain ⟨dRd, dRs1, -⟩ := encodeAs_read .jalr (.jalr (field rd) (field rs1) offset) rfl
      rw [reservedReg, type]
      simp only [word, dRd, dRs1, field_ule]
      rfl

theorem exec_jump {d : DecodedInst} {rd : BitVec 4} {target : U32} (number : d.rd = (field rd).setWidth 32)
    (aligned : target &&& 3#32 = 0#32) (pc : s.hart.pc = insAddress base k) :
    s.Moves (s.jump d target).1 ((s.hart.setReg rd (insAddress base (k + 1))).goto target) := by
  rw [EmulatorIss.jump, if_neg (not_not.mpr aligned), number, pc, ← insAddress_succ]
  exact retire_moves ..

theorem exec_branch {d : DecodedInst} {dest : Nat} {taken : Bool} (aligned : base.toNat % 4 = 0)
    (pc : s.hart.pc = insAddress base k) (goes : s.hart.pc + d.imm = insAddress base dest) :
    s.Moves (s.branch d taken).1
      (s.hart.goto (if taken then insAddress base dest else insAddress base (k + 1))) := by
  rw [EmulatorIss.branch, goes, pc, ← insAddress_succ, if_neg]
  · exact ⟨rfl, rfl, rfl, rfl⟩
  · rintro ⟨-, off⟩
    refine off ?_
    split_ifs <;> exact mask_of_aligned (insAddress_aligned aligned _)

/-- `execute` on the word of an instruction whose operands fit. -/
theorem execute_word (i : Ins) (near : i.Near k) (aligned : base.toNat % 4 = 0)
    (pc : s.hart.pc = insAddress base k) (fits : i.Fits s.hart) :
    s.Moves (s.execute (decode (i.word k))).1 (i.exec base k s.hart) := by
  have type := decode_type (k := k) i
  have checked := decode_checked (k := k) i
  have after : s.hart.pc + 4#32 = insAddress base (k + 1) := by rw [pc, insAddress_succ]
  cases i with
  | opImm t rd rs1 imm =>
      obtain ⟨dRd, dRs1, dImm⟩ := encodeAs_read t.1 (.i (field rd) (field rs1) imm) t.2.1
      rw [word] at type checked ⊢
      generalize decode (encodeAs t.1 (.i (field rd) (field rs1) imm)) = d at *
      obtain ⟨t, format, code⟩ := t
      cases t with
      | addi | slti | sltiu | xori | ori | andi =>
          simp only [EmulatorIss.execute, checked, type, Ins.type, Bool.false_eq_true, if_false, dRd, dRs1,
            dImm, readReg_field, after]
          exact retire_moves ..
      | _ => first | exact absurd format (by decide) | exact absurd code (by decide)
  | shift t rd rs1 shamt =>
      obtain ⟨dRd, dRs1, dImm⟩ := encodeAs_read t.1 (.shift (field rd) (field rs1) shamt) t.2
      rw [word] at type checked ⊢
      generalize decode (encodeAs t.1 (.shift (field rd) (field rs1) shamt)) = d at *
      obtain ⟨t, format⟩ := t
      cases t with
      | slli | srli | srai =>
          simp only [EmulatorIss.execute, checked, type, Ins.type, Bool.false_eq_true, if_false, dRd, dRs1,
            dImm, readReg_field, after]
          exact retire_moves ..
      | _ => cases format
  | op t rd rs1 rs2 =>
      obtain ⟨dRd, dRs1, dRs2, -⟩ := encodeAs_read t.1 (.r (field rd) (field rs1) (field rs2)) t.2
      rw [word] at type checked ⊢
      generalize decode (encodeAs t.1 (.r (field rd) (field rs1) (field rs2))) = d at *
      obtain ⟨t, format⟩ := t
      cases t with
      | add | sub | sll | slt | sltu | xor | srl | sra | or | and =>
          simp only [EmulatorIss.execute, checked, type, Ins.type, Bool.false_eq_true, if_false, dRd, dRs1,
            dRs2, readReg_field, after]
          exact retire_moves ..
      | _ => cases format
  | branch t rs1 rs2 dest =>
      obtain ⟨dRs1, dRs2, dImm⟩ :=
        encodeAs_read t.1 (.b (field rs1) (field rs2) (halfOffset 12 k dest)) t.2
      rw [halfOffset_extend (by have := near.2; push_cast; omega) (by have := near.1; push_cast; omega)] at dImm
      rw [word] at type checked ⊢
      generalize decode (encodeAs t.1 (.b (field rs1) (field rs2) (halfOffset 12 k dest))) = d at *
      have goes : s.hart.pc + d.imm = insAddress base dest := by rw [dImm, pc, insAddress_ofInt]
      obtain ⟨t, format⟩ := t
      cases t with
      | beq | bne | blt | bge | bltu | bgeu =>
          simp only [EmulatorIss.execute, checked, type, Ins.type, Bool.false_eq_true, if_false, dRs1, dRs2,
            readReg_field]
          exact exec_branch aligned pc goes
      | _ => cases format
  | jal rd dest =>
      obtain ⟨dRd, dImm⟩ := encodeAs_read .jal (.j (field rd) (halfOffset 20 k dest)) rfl
      rw [halfOffset_extend (by have := near.2; push_cast; omega) (by have := near.1; push_cast; omega)] at dImm
      simp only [EmulatorIss.execute, checked, type, Ins.type, Bool.false_eq_true, if_false]
      rw [word, dImm, pc, insAddress_ofInt]
      exact exec_jump dRd (mask_of_aligned (insAddress_aligned aligned dest)) pc
  | auipc rd imm =>
      obtain ⟨dRd, dImm⟩ := encodeAs_read .auipc (.u (field rd) imm) rfl
      simp only [EmulatorIss.execute, checked, type, Ins.type, Bool.false_eq_true, if_false, after]
      rw [word, dRd, dImm, pc]
      exact retire_moves ..
  | jalr rd rs1 offset =>
      obtain ⟨dRd, dRs1, dImm⟩ := encodeAs_read .jalr (.jalr (field rd) (field rs1) offset) rfl
      simp only [EmulatorIss.execute, checked, type, Ins.type, Bool.false_eq_true, if_false]
      rw [word, dRs1, dImm, readReg_field]
      exact exec_jump dRd fits pc

end Ins

/-! ## Runs -/

namespace Program

variable {p : Program} {base : U32}

/-- The step at instruction `k`. -/
theorem next_at {h : Hart} {k : Nat} {i : Ins} (live : h.halted = false)
    (pc : h.pc = insAddress base k) (here : p.code[k]? = some i) (fits : i.Fits h) :
    p.next base h = some (i.exec base k h) := by
  have short := p.short
  have inside := (List.getElem?_eq_some_iff.mp here).1
  have offset : (h.pc - base).toNat = 4 * k := by
    rw [pc, insAddress, BitVec.add_comm, BitVec.add_sub_cancel, BitVec.toNat_ofNat]
    omega
  rw [next, offset, if_pos ⟨live, Nat.mul_mod_right 4 k⟩, Nat.mul_div_cancel_left k (by decide), here]
  exact if_pos fits

/-- A step of the program is a step at one of its instructions. -/
theorem next_cases {h after : Hart} (goes : p.next base h = some after) :
    h.halted = false ∧ ∃ k, ∃ inside : k < p.code.length, h.pc = insAddress base k ∧
      p.code[k].Fits h ∧ after = p.code[k].exec base k h := by
  rw [next] at goes
  split_ifs at goes with ready
  obtain ⟨live, whole⟩ := ready
  rcases found : p.code[(h.pc - base).toNat / 4]? with _ | i
  · rw [found] at goes
    cases goes
  · rw [found, Option.bind_some] at goes
    split_ifs at goes with fits
    obtain ⟨inside, is⟩ := List.getElem?_eq_some_iff.mp found
    refine ⟨live, _, inside, ?_, by rwa [is], by rw [is]; exact (Option.some.inj goes).symm⟩
    rw [insAddress, Nat.mul_div_cancel' (Nat.dvd_of_mod_eq_zero whole), BitVec.ofNat_toNat,
      BitVec.setWidth_eq, BitVec.add_comm, BitVec.sub_add_cancel]

/-- The model has the hart `h`, and everything else as in `first`, the program included. -/
structure Runs (p : Program) (base : U32) (first : EmulatorIss) (h : Hart) (s : EmulatorIss) : Prop where
  moves : first.Moves s h
  held : p.In base first.memory

theorem Runs.step {first s : EmulatorIss} {h after : Hart} (runs : p.Runs base first h s)
    (aligned : base.toNat % 4 = 0) (goes : p.next base h = some after) :
    ∃ next, s.stepInst.map Prod.fst = some next ∧ p.Runs base first after next := by
  obtain ⟨live, k, inside, pc, fits, rfl⟩ := next_cases goes
  obtain ⟨⟨hart, memory, uart, cfg⟩, held⟩ := runs
  obtain ⟨has, word⟩ := held k inside
  rw [← pc, ← hart, ← memory] at has word
  have body : s.stepBody = s.execute (decode (p.code[k].word k)) := by
    rw [EmulatorIss.stepBody, has.fetch, word]
  have step : s.stepInst = some (s.stepBody.1.tick, s.stepBody.2) := by
    rw [EmulatorIss.stepInst, hart, live]
    rfl
  obtain ⟨afterHart, afterMemory, afterUart, afterCfg⟩ := Ins.execute_word (s := s) p.code[k]
    (p.near k inside) aligned (by rw [hart, pc]) (by rw [hart]; exact fits)
  rw [← body] at afterHart afterMemory afterUart afterCfg
  refine ⟨s.stepBody.1.tick, by rw [step]; rfl, ⟨?_, ?_, ?_, ?_⟩, held⟩
  · rw [← hart]
    exact afterHart
  · exact afterMemory.trans memory
  · exact afterUart.trans uart
  · exact afterCfg.trans cfg

/-- What the program reaches, the reference model reaches with the program in its RAM. -/
theorem reaches_run {s : EmulatorIss} {Q : Hart → Prop} (aligned : base.toNat % 4 = 0)
    (held : p.In base s.memory) (reaches : Reaches (p.next base) Q s.hart) :
    ∃ n, Q (s.run n).hart ∧ s.Moves (s.run n) (s.run n).hart := by
  have start : p.Runs base s s.hart s := ⟨⟨rfl, rfl, rfl, rfl⟩, held⟩
  obtain ⟨n, h, runs, holds⟩ := (reaches.simulate start fun h t next runs goes =>
    runs.step aligned goes).iterate
  obtain rfl := runs.moves.hart
  exact ⟨n, holds, runs.moves⟩

end Program

end NpcMachine.Emulator
