/-
# Emulator.DecodeAgree -- the two decoders on one word

A table entry fixes `opcode` and, by its mask, `funct3` and `funct7`
(`decodeType_fields`).  From these fields the RTL decoder is computed: for every type
outside `SYSTEM` and `MISC-MEM`, `control` lists its control signals and
`decoder_of_base` says that the decoder drives exactly them.  The immediates agree too,
but for the shift amounts, where only the low five bits count.
-/
import NpcMachine.Emulator.Decoder
import NpcMachine.Rtl.Datapath
import NpcMachine.Machine.Bits

namespace NpcMachine.Emulator

open NpcMachine.Rtl NpcMachine.Machine

set_option autoImplicit false

/-! ## Fields under a mask -/

theorem and_mask_iff {mask : U32} {lo n : Nat}
    (bits : ∀ i, i < 32 → mask.getLsbD i = (decide (lo ≤ i) && decide (i < lo + n)))
    (fits : lo + n ≤ 32) (w m : U32) :
    w &&& mask = m &&& mask ↔ w.extractLsb' lo n = m.extractLsb' lo n := by
  constructor
  · intro same
    apply BitVec.eq_of_getLsbD_eq
    intro i small
    have bit := congrArg (fun x => x.getLsbD (lo + i)) same
    simp only [BitVec.getLsbD_and, bits (lo + i) (by omega)] at bit
    simpa [small] using bit
  · intro same
    apply BitVec.eq_of_getLsbD_eq
    intro i small
    rw [BitVec.getLsbD_and, BitVec.getLsbD_and, bits i small]
    by_cases inside : lo ≤ i ∧ i < lo + n
    · have bit := congrArg (fun x => x.getLsbD (i - lo)) same
      have near : i - lo < n := by omega
      simp only [BitVec.getLsbD_extractLsb', near, decide_true, Bool.true_and,
        Nat.add_sub_cancel' inside.1] at bit
      rw [bit]
    · have outside : (decide (lo ≤ i) && decide (i < lo + n)) = false := by
        simp only [Bool.and_eq_false_iff, decide_eq_false_iff_not]
        omega
      simp [outside]

theorem opcode_mask (w m : U32) : w &&& maskOpcode = m &&& maskOpcode ↔ opcode w = opcode m :=
  and_mask_iff (by decide) (by omega) w m

theorem funct3_mask (w m : U32) : w &&& maskF3 = m &&& maskF3 ↔ funct3 w = funct3 m :=
  and_mask_iff (by decide) (by omega) w m

theorem funct7_mask (w m : U32) : w &&& maskF7 = m &&& maskF7 ↔ funct7 w = funct7 m :=
  and_mask_iff (by decide) (by omega) w m

/-- A matching word agrees with the code under every part of the mask. -/
theorem and_part {w : U32} {e : Entry} (hit : w &&& e.mask = e.code) {part : U32}
    (inside : e.mask &&& part = part) : w &&& part = e.code &&& part := by
  rw [← hit, BitVec.and_assoc, inside]

/-- The type of a known word comes from an entry that matches it. -/
theorem decodeType_entry {w : U32} (known : decodeType w ≠ .unknown) :
    ∃ e ∈ decodeTable, e.type = decodeType w ∧ w &&& e.mask = e.code := by
  unfold decodeType at known ⊢
  cases found : decodeTable.find? (fun e => w &&& e.mask == e.code) with
  | none => rw [found] at known; exact absurd rfl known
  | some e =>
      refine ⟨e, List.mem_of_find?_eq_some found, rfl, ?_⟩
      have hit := List.find?_some found
      simpa using hit

/-- The entry of a type; every type but `unknown` has one. -/
def entryOf (type : InstType) : Option Entry := decodeTable.find? fun e => e.type == type

theorem decodeType_fields {w : U32} {e : Entry} (entry : entryOf (decodeType w) = some e) :
    opcode w = opcode e.code ∧ (e.mask &&& maskF3 = maskF3 → funct3 w = funct3 e.code) ∧
      (e.mask &&& maskF7 = maskF7 → funct7 w = funct7 e.code) := by
  have known : decodeType w ≠ .unknown := by
    intro missing
    have noEntry : entryOf .unknown = Option.none := by decide
    rw [missing, noEntry] at entry
    contradiction
  obtain ⟨f, mem, type, hit⟩ := decodeType_entry known
  have unique : ∀ g ∈ decodeTable, entryOf g.type = some g := by decide
  have whole : ∀ g ∈ decodeTable, g.mask &&& maskOpcode = maskOpcode := by decide
  have same : f = e := by
    have found := unique f mem
    rw [type, entry] at found
    exact (Option.some.inj found).symm
  subst same
  exact ⟨(opcode_mask _ _).mp (and_part hit (whole f mem)),
    fun inside => (funct3_mask _ _).mp (and_part hit inside),
    fun inside => (funct7_mask _ _).mp (and_part hit inside)⟩

/-! ## Control signals -/

/-- The decoder outputs that steer the datapath. -/
structure Control where
  illegal : Bool
  ecall : Bool
  ebreak : Bool
  mret : Bool
  fenceI : Bool
  csrOp : CsrOp
  aluOp : AluOp
  aluSrcA : AluSrcA
  aluSrcB : AluSrcB
  immSel : ImmSel
  regWrite : Bool
  memRead : Bool
  memWrite : Bool
  memSize : BitVec 2
  memSext : Bool
  branchType : BranchType
  jump : Bool
  jumpReg : Bool
  hasRd : Bool
  hasRs1 : Bool
  hasRs2 : Bool
  deriving DecidableEq, Repr

def Control.of (d : DecoderOut) : Control where
  illegal := d.illegal
  ecall := d.ecall
  ebreak := d.ebreak
  mret := d.mret
  fenceI := d.fenceI
  csrOp := d.csrOp
  aluOp := d.aluOp
  aluSrcA := d.aluSrcA
  aluSrcB := d.aluSrcB
  immSel := d.immSel
  regWrite := d.regWrite
  memRead := d.memRead
  memWrite := d.memWrite
  memSize := d.memSize
  memSext := d.memSext
  branchType := d.branchType
  jump := d.jump
  jumpReg := d.jumpReg
  hasRd := d.hasRd
  hasRs1 := d.hasRs1
  hasRs2 := d.hasRs2

namespace Control

/-- The defaults: an addition of `rs1` and the I-immediate that nothing keeps. -/
def idle : Control where
  illegal := false
  ecall := false
  ebreak := false
  mret := false
  fenceI := false
  csrOp := .none
  aluOp := .add
  aluSrcA := .rs1
  aluSrcB := .imm
  immSel := .i
  regWrite := false
  memRead := false
  memWrite := false
  memSize := memSizeByte
  memSext := false
  branchType := .none
  jump := false
  jumpReg := false
  hasRd := false
  hasRs1 := false
  hasRs2 := false

def opImm (op : AluOp) : Control :=
  { idle with aluOp := op, regWrite := true, hasRd := true, hasRs1 := true }

def op (op : AluOp) : Control :=
  { idle with
    aluOp := op, aluSrcB := .rs2, regWrite := true, hasRd := true, hasRs1 := true, hasRs2 := true }

def upper (src : AluSrcA) : Control :=
  { idle with aluSrcA := src, immSel := .u, regWrite := true, hasRd := true }

def jal : Control :=
  { idle with aluSrcA := .pc, immSel := .j, regWrite := true, jump := true, hasRd := true }

def jalr : Control :=
  { idle with regWrite := true, jump := true, jumpReg := true, hasRd := true, hasRs1 := true }

def branch (type : BranchType) : Control :=
  { idle with
    aluSrcB := .rs2, immSel := .b, branchType := type, hasRs1 := true, hasRs2 := true }

def load (size : BitVec 2) (sext : Bool) : Control :=
  { idle with
    regWrite := true, memRead := true, memSize := size, memSext := sext, hasRd := true
    hasRs1 := true }

def store (size : BitVec 2) : Control :=
  { idle with immSel := .s, memWrite := true, memSize := size, hasRs1 := true, hasRs2 := true }

end Control

/-- The control signals of each type; `MISC-MEM` and `SYSTEM` drive others as well. -/
def control : InstType → Control
  | .addi => .opImm .add
  | .slti => .opImm .slt
  | .sltiu => .opImm .sltu
  | .xori => .opImm .xor
  | .ori => .opImm .or
  | .andi => .opImm .and
  | .slli => .opImm .sll
  | .srli => .opImm .srl
  | .srai => .opImm .sra
  | .add => .op .add
  | .sub => .op .sub
  | .sll => .op .sll
  | .slt => .op .slt
  | .sltu => .op .sltu
  | .xor => .op .xor
  | .srl => .op .srl
  | .sra => .op .sra
  | .or => .op .or
  | .and => .op .and
  | .lui => .upper .zero
  | .auipc => .upper .pc
  | .jal => .jal
  | .jalr => .jalr
  | .beq => .branch .beq
  | .bne => .branch .bne
  | .blt => .branch .blt
  | .bge => .branch .bge
  | .bltu => .branch .bltu
  | .bgeu => .branch .bgeu
  | .lb => .load memSizeByte true
  | .lh => .load memSizeHalf true
  | .lw => .load memSizeWord true
  | .lbu => .load memSizeByte false
  | .lhu => .load memSizeHalf false
  | .sb => .store memSizeByte
  | .sh => .store memSizeHalf
  | .sw => .store memSizeWord
  | .fence | .fenceI | .ecall | .ebreak | .mret | .wfi | .csrrw | .csrrs | .csrrc | .csrrwi
  | .csrrsi | .csrrci | .unknown => .idle

/-- The types outside `MISC-MEM` and `SYSTEM`. -/
def isBase : InstType → Bool
  | .fence | .fenceI | .ecall | .ebreak | .mret | .wfi | .csrrw | .csrrs | .csrrc | .csrrwi
  | .csrrsi | .csrrci | .unknown => false
  | _ => true

/-- On a base type the decoder drives exactly the listed signals. -/
theorem decoder_of_base {w : U32} (base : isBase (decodeType w) = true) :
    Control.of (decoder w) = control (decodeType w) := by
  generalize type : decodeType w = t at base ⊢
  cases t
  all_goals first
    | exact absurd base (by decide)
    | skip
  -- each type pins the fields that its arm of the opcode case reads
  all_goals
    obtain ⟨op, f3, f7⟩ := decodeType_fields (w := w) (by rw [type]; exact rfl)
    simp [maskOpcode, maskF3, maskF7, opcode, funct3, funct7] at op f3 f7
    simp [decoder, major, opcode, funct3, funct7, op, f3, f7, decodeOpImm, decodeOp, decodeLui,
      decodeAuipc, decodeJal, decodeJalr, decodeBranch, decodeLoad, decodeStore, decoderDefault,
      shiftRightOp, shiftRightIllegal, opAluOp, opIllegal, memSizeByte, memSizeHalf, memSizeWord,
      Control.of, control, Control.idle, Control.opImm, Control.op, Control.upper, Control.jal,
      Control.jalr, Control.branch, Control.load, Control.store]

/-- A base type raises nothing and drives no CSR. -/
theorem control_plain {t : InstType} (base : isBase t = true) :
    (control t).illegal = false ∧ (control t).ecall = false ∧ (control t).ebreak = false ∧
      (control t).mret = false ∧ (control t).fenceI = false ∧ (control t).csrOp = .none := by
  revert base
  cases t <;> decide

/-- A load writes a register and a store does not. -/
theorem control_load {t : InstType} (reads : (control t).memRead = true) :
    (control t).regWrite = true := by
  revert reads
  cases t <;> decide

theorem control_store {t : InstType} (writes : (control t).memWrite = true) :
    (control t).regWrite = false := by
  revert writes
  cases t <;> decide

/-! ## Immediates -/

/-- A field shifted over a narrower one is their concatenation. -/
theorem shift_or_eq_append {a b : Nat} (x : BitVec a) (y : BitVec b) (fits : a + b ≤ 32) :
    (x.setWidth 32 <<< b) ||| y.setWidth 32 = (x ++ y).setWidth 32 := by
  apply BitVec.eq_of_getLsbD_eq
  intro i small
  simp only [BitVec.getLsbD_or, BitVec.getLsbD_shiftLeft, BitVec.getLsbD_setWidth,
    BitVec.getLsbD_append]
  by_cases low : i < b
  · simp [low, small]
  · have high : i - b < 32 := by omega
    simp [low, small, high, BitVec.getLsbD_of_ge y i (by omega)]

theorem extract_eq (inst : U32) {lo hi : Nat} (order : lo ≤ hi) (fits : hi < 32 + lo - 1) :
    extract inst lo hi = (inst.extractLsb' lo (hi - lo + 1)).setWidth 32 :=
  extract_eq_setWidth inst lo (hi - lo + 1) (by omega)

theorem signExtend_eq {n : Nat} (x : BitVec (n + 1)) (fits : n + 1 ≤ 32) :
    signExtend (x.setWidth 32) (n + 1) = x.signExtend 32 :=
  xor_sub_eq_signExtend x fits

theorem immI_eq (inst : U32) : signExtend (extract inst 20 31) 12 = imm inst .i := by
  rw [extract_eq inst (by omega) (by omega)]
  exact signExtend_eq (n := 11) _ (by omega)

theorem immS_eq (inst : U32) :
    signExtend ((extract inst 25 31 <<< 5) ||| extract inst 7 11) 12 = imm inst .s := by
  rw [extract_eq inst (by omega) (by omega), extract_eq inst (by omega) (by omega),
    shift_or_eq_append _ _ (by omega)]
  exact signExtend_eq (n := 11) _ (by omega)

/-- Four fields over a zero bit, as the branch and the jump immediates put them together. -/
theorem fields_eq_append {a b c d : Nat} (w : BitVec a) (x : BitVec b) (y : BitVec c)
    (z : BitVec d) (fits : a + b + c + d + 1 ≤ 32) :
    (w.setWidth 32 <<< (b + c + d + 1)) ||| (x.setWidth 32 <<< (c + d + 1)) |||
      (y.setWidth 32 <<< (d + 1)) ||| (z.setWidth 32 <<< 1) =
        (w ++ x ++ y ++ z ++ 0#1).setWidth 32 := by
  have zero : (z.setWidth 32 <<< 1 : BitVec 32) = (z ++ 0#1).setWidth 32 := by
    rw [← shift_or_eq_append z 0#1 (by omega)]
    simp
  rw [← shift_or_eq_append (w ++ x ++ y ++ z) 0#1 (by omega),
    ← shift_or_eq_append (w ++ x ++ y) z (by omega), ← shift_or_eq_append (w ++ x) y (by omega),
    ← shift_or_eq_append w x (by omega)]
  simp [BitVec.shiftLeft_or_distrib, ← BitVec.shiftLeft_add, Nat.add_assoc]

theorem immB_eq (inst : U32) :
    signExtend ((extract inst 31 31 <<< 12) ||| (extract inst 7 7 <<< 11) |||
      (extract inst 25 30 <<< 5) ||| (extract inst 8 11 <<< 1)) 13 = imm inst .b := by
  iterate 4 rw [extract_eq inst (by omega) (by omega)]
  have append := fields_eq_append (inst.extractLsb' 31 1) (inst.extractLsb' 7 1)
    (inst.extractLsb' 25 6) (inst.extractLsb' 8 4) (by omega)
  exact (congrArg (signExtend · 13) append).trans (signExtend_eq (n := 12) _ (by omega))

theorem immU_eq (inst : U32) : inst &&& 0xFFFFF000#32 = imm inst .u := by
  apply BitVec.eq_of_getLsbD_eq
  intro i small
  have mask : (0xFFFFF000#32).getLsbD i = decide (12 ≤ i) := by
    revert i
    decide
  rw [imm, BitVec.getLsbD_and, mask, BitVec.getLsbD_append]
  by_cases low : i < 12
  · simp [low]
  · have field : i - 12 < 20 := by omega
    have same : 12 + (i - 12) = i := by omega
    have high : 12 ≤ i := by omega
    simp [low, field, same, high]

theorem immJ_eq (inst : U32) :
    signExtend ((extract inst 31 31 <<< 20) ||| (extract inst 12 19 <<< 12) |||
      (extract inst 20 20 <<< 11) ||| (extract inst 21 30 <<< 1)) 21 = imm inst .j := by
  iterate 4 rw [extract_eq inst (by omega) (by omega)]
  have append := fields_eq_append (inst.extractLsb' 31 1) (inst.extractLsb' 12 8)
    (inst.extractLsb' 20 1) (inst.extractLsb' 21 10) (by omega)
  exact (congrArg (signExtend · 21) append).trans (signExtend_eq (n := 20) _ (by omega))

theorem shamt_and (x : U32) : (x &&& 0x1F#32).toNat = shamt x := by
  have mask : (0x1F#32).toNat = 2 ^ 5 - 1 := rfl
  rw [shamt, BitVec.toNat_and, mask, Nat.and_two_pow_sub_one_eq_mod, toNat_extract]
  omega

/-- The amount of a shift is the low end of the I-immediate. -/
theorem shamt_imm (inst : U32) : shamt (imm inst .i) = shamt (extract inst 20 24) := by
  rw [extract_eq inst (by omega) (by omega), shamt, shamt]
  congr 1
  apply BitVec.eq_of_getLsbD_eq
  intro i small
  have word : i < 32 := by omega
  have field : i < 12 := by omega
  simp only [imm, BitVec.getLsbD_extractLsb', BitVec.getLsbD_signExtend, BitVec.getLsbD_setWidth,
    Nat.zero_add, small, word, field, decide_true, Bool.true_and, if_true]

end NpcMachine.Emulator
