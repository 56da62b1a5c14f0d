/-
# Emulator.ProgramLogic -- rules for register programs

`p.Leads base first Q k f` says that every hart in front of instruction `k` with the
registers `f` goes on until `Q`; what no instruction of a register program touches is that
of `first`.  There is one rule for each instruction, backwards from what follows it, a rule
for a call and its return, and one for loops.
-/
import NpcMachine.Emulator.Program

namespace NpcMachine.Emulator

open NpcMachine.Machine

set_option autoImplicit false

/-! ## Harts in front of an instruction -/

abbrev Regs : Type := BitVec 4 → U32

/-- The same CSRs and the same halted flag. -/
def Hart.SameRest (h first : Hart) : Prop := { h with pc := first.pc, x := first.x } = first

theorem Hart.SameRest.refl (h : Hart) : h.SameRest h := rfl

theorem Hart.SameRest.setReg {h first : Hart} (same : h.SameRest first) (r : BitVec 4) (v pc : U32) :
    ((h.setReg r v).goto pc).SameRest first := by
  unfold Hart.setReg
  split_ifs <;> exact same

/-- The hart stands in front of instruction `k` with the registers `f`. -/
structure Hart.At (h : Hart) (base : U32) (first : Hart) (k : Nat) (f : Regs) : Prop where
  pc : h.pc = insAddress base k
  live : h.halted = false
  reg : ∀ r, h.reg r = f r
  rest : h.SameRest first

/-- Every hart in front of instruction `k` with the registers `f` goes on until `Q`. -/
def Program.Leads (p : Program) (base : U32) (first : Hart) (Q : Hart → Prop) (k : Nat) (f : Regs) :
    Prop :=
  ∀ h, h.At base first k f → Reaches (p.next base) Q h

namespace Program.Leads

variable {p : Program} {base : U32} {first : Hart} {Q : Hart → Prop} {k : Nat} {f g : Regs}

/-- `x0` is zero in every register file that a hart shows. -/
theorem zero (leads : f 0#4 = 0#32 → p.Leads base first Q k f) : p.Leads base first Q k f :=
  fun h at_ => leads (at_.reg 0#4).symm h at_

/-! ## Instructions -/

/-- The register file after a write, as a hart shows it. -/
theorem at_setReg {h : Hart} {j : Nat} {rd : BitVec 4} {v : U32} (at_ : h.At base first k f)
    (real : rd ≠ 0#4) :
    ((h.setReg rd v).goto (insAddress base j)).At base first j (Function.update f rd v) := by
  refine ⟨rfl, (Asm.setReg_halted h rd v).trans at_.live, fun r => ?_, at_.rest.setReg rd v _⟩
  have shows : ((h.setReg rd v).goto (insAddress base j)).reg r = (h.setReg rd v).reg r := rfl
  rw [shows, Asm.setReg_reg, Function.update_apply, at_.reg]
  simp [real]

theorem opImm {t : InstType.OpImm} {rd rs1 : BitVec 4} {imm : BitVec 12}
    (here : p.code[k]? = some (.opImm t rd rs1 imm)) (real : rd ≠ 0#4)
    (then_ : p.Leads base first Q (k + 1)
      (Function.update f rd (opImmValue t.1 (f rs1) (imm.signExtend 32)))) :
    p.Leads base first Q k f := by
  intro h at_
  refine .step (next_at at_.live at_.pc here trivial) (then_ _ ?_)
  rw [← at_.reg]
  exact at_setReg at_ real

theorem shift {t : InstType.Of .shift} {rd rs1 : BitVec 4} {shamt : BitVec 5}
    (here : p.code[k]? = some (.shift t rd rs1 shamt)) (real : rd ≠ 0#4)
    (then_ : p.Leads base first Q (k + 1)
      (Function.update f rd (opImmValue t.1 (f rs1) (shamt.setWidth 32)))) :
    p.Leads base first Q k f := by
  intro h at_
  refine .step (next_at at_.live at_.pc here trivial) (then_ _ ?_)
  rw [← at_.reg]
  exact at_setReg at_ real

theorem op {t : InstType.Of .r} {rd rs1 rs2 : BitVec 4}
    (here : p.code[k]? = some (.op t rd rs1 rs2)) (real : rd ≠ 0#4)
    (then_ : p.Leads base first Q (k + 1)
      (Function.update f rd (opValue t.1 (f rs1) (f rs2)))) :
    p.Leads base first Q k f := by
  intro h at_
  refine .step (next_at at_.live at_.pc here trivial) (then_ _ ?_)
  rw [← at_.reg, ← at_.reg]
  exact at_setReg at_ real

theorem branch {t : InstType.Of .b} {rs1 rs2 : BitVec 4} {dest : Nat}
    (here : p.code[k]? = some (.branch t rs1 rs2 dest))
    (taken : branchCondition t.1 (f rs1) (f rs2) = true → p.Leads base first Q dest f)
    (falls : branchCondition t.1 (f rs1) (f rs2) = false → p.Leads base first Q (k + 1) f) :
    p.Leads base first Q k f := by
  intro h at_
  refine .step (next_at at_.live at_.pc here trivial) ?_
  rw [Ins.exec, at_.reg, at_.reg]
  cases condition : branchCondition t.1 (f rs1) (f rs2) with
  | true => exact taken condition _ { at_ with pc := rfl }
  | false => exact falls condition _ { at_ with pc := rfl }

theorem jump {dest : Nat} (here : p.code[k]? = some (.jal 0#4 dest))
    (then_ : p.Leads base first Q dest f) : p.Leads base first Q k f := by
  intro h at_
  refine .step (next_at at_.live at_.pc here trivial) (then_ _ ?_)
  exact { at_ with pc := rfl }

/-! ## Pseudo-instructions -/

theorem mv {rd rs : BitVec 4} (here : p.code[k]? = some (.mv rd rs)) (real : rd ≠ 0#4)
    (then_ : p.Leads base first Q (k + 1) (Function.update f rd (f rs))) :
    p.Leads base first Q k f := by
  refine opImm here real ?_
  have value : opImmValue .addi (f rs) ((0#12).signExtend 32) = f rs := BitVec.add_zero _
  rwa [value]

theorem li {rd : BitVec 4} {imm : BitVec 12} (here : p.code[k]? = some (.li rd imm)) (real : rd ≠ 0#4)
    (then_ : p.Leads base first Q (k + 1) (Function.update f rd (imm.signExtend 32))) :
    p.Leads base first Q k f := by
  refine zero fun zero => opImm here real ?_
  have value : opImmValue .addi (f 0#4) (imm.signExtend 32) = imm.signExtend 32 := by
    rw [zero]
    exact BitVec.zero_add _
  rwa [value]

theorem neg {rd rs : BitVec 4} (here : p.code[k]? = some (.neg rd rs)) (real : rd ≠ 0#4)
    (then_ : p.Leads base first Q (k + 1) (Function.update f rd (-f rs))) :
    p.Leads base first Q k f := by
  refine zero fun zero => op here real ?_
  have value : opValue .sub (f 0#4) (f rs) = -f rs := by
    rw [zero]
    exact BitVec.zero_sub _
  rwa [value]

/-! ## Calls -/

theorem even_of_aligned {a : U32} (aligned : a.toNat % 4 = 0) : a &&& 0xFFFFFFFE#32 = a := by
  have low : a &&& 1#32 = 0#32 := by
    have bit : a &&& 1#32 = (a.extractLsb' 0 1).setWidth 32 := and_low a 1 (by omega)
    rw [bit, ← BitVec.toNat_inj]
    simp
    omega
  have whole : a &&& 0xFFFFFFFE#32 ||| a &&& 1#32 = a := by
    rw [← BitVec.and_or_distrib_left]
    exact BitVec.and_allOnes
  rwa [low, BitVec.or_zero] at whole

/-- A jump to the aligned address in a register. -/
theorem jalr {rd rs1 : BitVec 4} {offset : BitVec 12} {h : Hart} (at_ : h.At base first k f)
    (here : p.code[k]? = some (.jalr rd rs1 offset))
    (aligned : (f rs1 + offset.signExtend 32).toNat % 4 = 0) :
    p.next base h = some ((h.setReg rd (insAddress base (k + 1))).goto (f rs1 + offset.signExtend 32)) := by
  have target : Asm.address h rs1 offset &&& 0xFFFFFFFE#32 = f rs1 + offset.signExtend 32 := by
    rw [Asm.address, at_.reg, even_of_aligned aligned]
  rw [next_at at_.live at_.pc here (by rw [Ins.Fits, target]; exact mask_of_aligned aligned), Ins.exec,
    target]

/-- `call`, an `auipc` and a `jalr` that has the whole offset. -/
theorem call {rd : BitVec 4} {dest : Nat} (aligned : base.toNat % 4 = 0)
    (first_ : p.code[k]? = some (.auipc rd 0#20))
    (second : p.code[k + 1]? = some (.jalr rd rd (BitVec.ofInt 12 (4 * ((dest : Int) - k)))))
    (real : rd ≠ 0#4) (near : dest < k + 512 ∧ k ≤ dest + 512)
    (then_ : p.Leads base first Q dest (Function.update f rd (insAddress base (k + 2)))) :
    p.Leads base first Q k f := by
  intro h at_
  refine .step (next_at at_.live at_.pc first_ trivial) ?_
  have linked := at_setReg (j := k + 1) (v := insAddress base k + (0#20 ++ 0#12)) at_ real
  have offset : (BitVec.ofInt 12 (4 * ((dest : Int) - k))).signExtend 32 =
      BitVec.ofInt 32 (4 * ((dest : Int) - k)) := by
    rw [BitVec.signExtend, BitVec.toInt_ofInt]
    congr 1
    apply Int.bmod_eq_of_le <;> omega
  have target : Function.update f rd (insAddress base k + (0#20 ++ 0#12)) rd +
      (BitVec.ofInt 12 (4 * ((dest : Int) - k))).signExtend 32 = insAddress base dest := by
    rw [Function.update_self, offset]
    show insAddress base k + 0#32 + _ = _
    rw [BitVec.add_zero, insAddress_ofInt]
  have goes := jalr linked second (by rw [target]; exact insAddress_aligned aligned dest)
  rw [target] at goes
  refine .step goes (then_ _ ?_)
  have again := at_setReg (j := dest) (v := insAddress base (k + 2)) linked real
  rwa [Function.update_idem] at again

/-- The return from a call inside the program. -/
theorem back {rs1 : BitVec 4} {j : Nat} (aligned : base.toNat % 4 = 0)
    (here : p.code[k]? = some (.jalr 0#4 rs1 0#12)) (linked : f rs1 = insAddress base j)
    (then_ : p.Leads base first Q j f) : p.Leads base first Q k f := by
  intro h at_
  have target : f rs1 + (0#12).signExtend 32 = insAddress base j := by
    rw [linked]
    exact BitVec.add_zero _
  have goes := jalr at_ here (by rw [target]; exact insAddress_aligned aligned j)
  rw [target] at goes
  exact .step goes (then_ _ { at_ with pc := rfl })

/-- The return to the caller of the program. -/
theorem leave {rs1 : BitVec 4} (here : p.code[k]? = some (.jalr 0#4 rs1 0#12))
    (aligned : (f rs1).toNat % 4 = 0)
    (then_ : ∀ h : Hart, h.pc = f rs1 → h.halted = false → (∀ r, h.reg r = f r) →
      h.SameRest first → Q h) : p.Leads base first Q k f := by
  intro h at_
  have target : f rs1 + (0#12).signExtend 32 = f rs1 := BitVec.add_zero _
  have goes := jalr at_ here (by rwa [target])
  rw [target] at goes
  exact .step goes (.here (then_ _ rfl at_.live at_.reg at_.rest))

/-! ## Loops -/

/-- An invariant at instruction `k`, and a rank that is lower whenever `k` is reached again. -/
theorem loop (Inv : Regs → Prop) (rank : Regs → Nat)
    (body : ∀ f, Inv f → (∀ g, Inv g → rank g < rank f → p.Leads base first Q k g) →
      p.Leads base first Q k f) (start : Inv f) : p.Leads base first Q k f := by
  induction bound : rank f using Nat.strongRecOn generalizing f with
  | ind n ih => exact body f start fun g holds lower => ih (rank g) (bound ▸ lower) holds rfl

end Program.Leads

end NpcMachine.Emulator
