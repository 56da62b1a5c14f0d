/-
# Emulator.RoundTrip -- decoding an encoded instruction

`roundTrip` takes every type and all of its operands: the word that the encoder builds
matches the row of the type and no other row, `decode` gives the operands back, and the
immediate of the core for that word is the decoded one.
-/
import NpcMachine.Emulator.Encode

namespace NpcMachine.Emulator

open NpcMachine.Rtl NpcMachine.Machine

set_option autoImplicit false

/-! ## What is to come back -/

/-- The decoded instruction has these operands, and no immediate where there is none. -/
def Args.Read : {f : Format} → Args f → DecodedInst → Prop
  | _, .r rd rs1 rs2, d =>
      d.rd = rd.setWidth 32 ∧ d.rs1 = rs1.setWidth 32 ∧ d.rs2 = rs2.setWidth 32 ∧ d.imm = 0#32
  | _, .shift rd rs1 shamt, d =>
      d.rd = rd.setWidth 32 ∧ d.rs1 = rs1.setWidth 32 ∧ d.imm = shamt.setWidth 32
  | _, .i rd rs1 imm, d =>
      d.rd = rd.setWidth 32 ∧ d.rs1 = rs1.setWidth 32 ∧ d.imm = imm.signExtend 32
  | _, .jalr rd rs1 offset, d =>
      d.rd = rd.setWidth 32 ∧ d.rs1 = rs1.setWidth 32 ∧ d.imm = offset.signExtend 32
  | _, .s rs1 rs2 offset, d =>
      d.rs1 = rs1.setWidth 32 ∧ d.rs2 = rs2.setWidth 32 ∧ d.imm = offset.signExtend 32
  | _, .b rs1 rs2 half, d =>
      d.rs1 = rs1.setWidth 32 ∧ d.rs2 = rs2.setWidth 32 ∧ d.imm = (half ++ 0#1).signExtend 32
  | _, .u rd imm, d => d.rd = rd.setWidth 32 ∧ d.imm = imm ++ 0#12
  | _, .j rd half, d => d.rd = rd.setWidth 32 ∧ d.imm = (half ++ 0#1).signExtend 32
  | _, .fenceI rd rs1, d =>
      d.rd = rd.setWidth 32 ∧ d.rs1 = rs1.setWidth 32 ∧ d.imm = 0#32
  | _, .csr rd rs1 number, d =>
      d.rd = rd.setWidth 32 ∧ d.rs1 = rs1.setWidth 32 ∧ d.csr = number.setWidth 32 ∧
        d.isCsrImm = false ∧ d.imm = 0#32
  | _, .csrImm rd uimm number, d =>
      d.rd = rd.setWidth 32 ∧ d.imm = uimm.setWidth 32 ∧ d.csr = number.setWidth 32 ∧
        d.isCsrImm = true
  | _, .system, d => d.imm = 0#32

/-- `npc_imm` under the selection of `npc_decoder` gives the immediate `v`; of the amount of
a shift only the low five bits count. -/
def Format.ImmAgrees (w v : U32) : Format → Prop
  | .i | .jalr | .s | .b | .u | .j | .csrImm => imm w (decoder w).immSel = v
  | .shift => ((imm w (decoder w).immSel).extractLsb' 0 5).setWidth 32 = v
  | .r | .fenceI | .csr | .system | .unknown => True

structure RoundTrip (t : InstType) (args : Args t.format) : Prop where
  type : (decode (encode t args)).type = t
  row : ∀ e ∈ decodeTable, encode t args &&& e.mask = e.code ↔ e.type = t
  operands : args.Read (decode (encode t args))
  imm : t.format.ImmAgrees (encode t args) (decode (encode t args)).imm

/-! ## The row of a word -/

/-- A known word matches the row of its type and no other. -/
theorem row_iff {w : U32} (known : decodeType w ≠ .unknown) {e : Entry} (mem : e ∈ decodeTable) :
    w &&& e.mask = e.code ↔ e.type = decodeType w := by
  constructor
  · intro hit
    exact (decodeType_of_hit mem hit).symm
  · intro type
    have unique : ∀ g ∈ decodeTable, entryOf g.type = some g := by decide
    obtain ⟨f, memF, typeF, hit⟩ := decodeType_entry known
    have found := unique e mem
    rw [type, ← typeF, unique f memF] at found
    rwa [← Option.some.inj found]

/-- The rows that compare `funct3`, and those that compare `funct7`. -/
def Format.hasF3 : Format → Bool
  | .u | .j => false
  | _ => true

def Format.hasF7 : Format → Bool
  | .r | .shift => true
  | _ => false

/-- The layouts whose rows compare the opcode, `funct3` and `funct7` at most. -/
def Format.plain : Format → Bool
  | .fenceI | .system | .unknown => false
  | _ => true

theorem plain_row (t : InstType) (plain : t.format.plain = true) : ∃ e ∈ decodeTable, e.type = t ∧
    e.plain = true ∧ opcode e.code = t.code ∧
      (e.mask &&& maskF3 = maskF3 → t.format.hasF3 = true ∧ funct3 e.code = t.f3) ∧
        (e.mask &&& maskF7 = maskF7 → t.format.hasF7 = true ∧ funct7 e.code = t.f7) := by
  revert plain
  cases t <;> decide

/-- The fields that a row compares give the type. -/
theorem decodeType_of_code {w : U32} {t : InstType} (plain : t.format.plain = true)
    (op : opcode w = t.code) (f3 : t.format.hasF3 = true → funct3 w = t.f3)
    (f7 : t.format.hasF7 = true → funct7 w = t.f7) : decodeType w = t := by
  obtain ⟨e, mem, type, narrow, sameOp, sameF3, sameF7⟩ := plain_row t plain
  rw [← type]
  apply decodeType_of_hit mem
  apply hit_of_fits mem narrow
  simp only [Entry.fits, Bool.and_eq_true, Bool.or_eq_true, beq_iff_eq, bne_iff_ne]
  refine ⟨⟨sameOp.trans op.symm, ?_⟩, ?_⟩
  · by_cases inMask : e.mask &&& maskF3 = maskF3
    · obtain ⟨has, same⟩ := sameF3 inMask
      exact Or.inr (same.trans (f3 has).symm)
    · exact Or.inl inMask
  · by_cases inMask : e.mask &&& maskF7 = maskF7
    · obtain ⟨has, same⟩ := sameF7 inMask
      exact Or.inr (same.trans (f7 has).symm)
    · exact Or.inl inMask

/-! ## The immediate of a layout -/

def Format.immOf (w : U32) : Format → U32
  | .i | .jalr | .fenceI => imm w .i
  | .shift => (w.extractLsb' 20 5).setWidth 32
  | .s => imm w .s
  | .b => imm w .b
  | .u => imm w .u
  | .j => imm w .j
  | .csrImm => imm w .z
  | .r | .csr | .system | .unknown => 0#32

theorem decodeImm_eq_immOf (w : U32) (t : InstType) : decodeImm w t = t.format.immOf w := by
  cases t with
  | addi | slti | sltiu | xori | ori | andi | jalr | lb | lh | lw | lbu | lhu | fence | fenceI =>
      exact immI_eq w
  | slli | srli | srai => exact extract_eq w (by omega) (by omega)
  | sb | sh | sw => exact immS_eq w
  | beq | bne | blt | bge | bltu | bgeu => exact immB_eq w
  | lui | auipc => exact immU_eq w
  | jal => exact immJ_eq w
  | csrrwi | csrrsi | csrrci => exact extract_eq w (by omega) (by omega)
  | add | sub | sll | slt | sltu | xor | srl | sra | or | and | ecall | ebreak | mret | wfi | csrrw
  | csrrs | csrrc | unknown => rfl

theorem decode_imm {w : U32} {t : InstType} (type : decodeType w = t) :
    (decode w).imm = t.format.immOf w := by
  rw [← decodeImm_eq_immOf, ← type]
  rfl

theorem decode_isCsrImm {w : U32} {t : InstType} (type : decodeType w = t) :
    (decode w).isCsrImm = (t.format == .csrImm) := by
  have flag : (decode w).isCsrImm = (decodeType w == .csrrwi || decodeType w == .csrrsi ||
      decodeType w == .csrrci) := rfl
  rw [flag, type]
  cases t <;> rfl

theorem decode_number (w : U32) : (decode w).csr = (w.extractLsb' 20 12).setWidth 32 :=
  extract_eq w (by omega) (by omega)

/-- The selection that a layout needs. -/
def Format.sel : Format → Option ImmSel
  | .i | .jalr | .shift => some .i
  | .s => some .s
  | .b => some .b
  | .u => some .u
  | .j => some .j
  | .csrImm => some .z
  | .r | .fenceI | .csr | .system | .unknown => none

theorem immSel_eq {w : U32} {t : InstType} (type : decodeType w = t) {sel : ImmSel}
    (needs : t.format.sel = some sel) : (decoder w).immSel = sel := by
  by_cases base : isBase t = true
  · have ctl := congrArg Control.immSel (decoder_of_base (type ▸ base))
    rw [type] at ctl
    refine Eq.trans ctl ?_
    revert needs base
    cases t <;> cases sel <;> decide
  · cases t with
    | fence =>
        obtain ⟨op, -⟩ := decodeType_fields (w := w) (by rw [type]; exact rfl)
        rw [decoder, major_miscMem op]
        exact Option.some.inj needs
    | csrrwi | csrrsi | csrrci =>
        obtain ⟨-, -, -, -, -, -, selZ⟩ := decoder_of_csrType (w := w) (by rw [type]; decide)
        rw [selZ (by rw [decode, type]; rfl)]
        exact Option.some.inj needs
    | fenceI | ecall | ebreak | mret | wfi | csrrw | csrrs | csrrc | unknown => cases needs
    | _ => exact absurd rfl base

/-- On every word of a type, the core and the model have the same immediate. -/
theorem immAgrees {w : U32} {t : InstType} (type : decodeType w = t) :
    t.format.ImmAgrees w (decode w).imm := by
  have sel (which : ImmSel) (needs : t.format.sel = some which) :
      imm w (decoder w).immSel = imm w which := by
    rw [immSel_eq type needs]
  rw [decode_imm type]
  cases format : t.format with
  | i | jalr => exact sel .i (by rw [format]; rfl)
  | s => exact sel .s (by rw [format]; rfl)
  | b => exact sel .b (by rw [format]; rfl)
  | u => exact sel .u (by rw [format]; rfl)
  | j => exact sel .j (by rw [format]; rfl)
  | csrImm => exact sel .z (by rw [format]; rfl)
  | shift =>
      show ((imm w (decoder w).immSel).extractLsb' 0 5).setWidth 32 = (w.extractLsb' 20 5).setWidth 32
      rw [sel .i (by rw [format]; rfl), imm, extract_signExtend _ (by omega) (by omega),
        extract_extract _ (by omega)]
  | r | fenceI | csr | system | unknown => exact trivial

/-! ## Offsets -/

/-- The two parts of a store offset. -/
theorem join_s (x : BitVec 12) :
    ((x.signExtend 32).extractLsb' 5 7 ++ (x.signExtend 32).extractLsb' 0 5).signExtend 32 =
      x.signExtend 32 := by
  rw [extract_signExtend x (by omega) (by omega), extract_signExtend x (by omega) (by omega)]
  exact congrArg (BitVec.signExtend 32)
    ((BitVec.extractLsb'_append_extractLsb'_eq_extractLsb' rfl).trans BitVec.extractLsb'_eq_self)

/-- Four adjacent parts over a zero bit, as a branch and a jump keep an even offset. -/
theorem join_even {a b c d : Nat} (x : BitVec (a + b + c + d)) (v : U32)
    (offset : v = (x ++ 0#1).signExtend 32) (fits : a + b + c + d + 1 ≤ 32) :
    v.extractLsb' (d + c + b + 1) a ++ v.extractLsb' (d + c + 1) b ++ v.extractLsb' (d + 1) c ++
      v.extractLsb' 1 d ++ 0#1 = x ++ 0#1 := by
  have part (lo n : Nat) (inside : lo + n ≤ a + b + c + d) :
      v.extractLsb' (lo + 1) n = x.extractLsb' lo n := by
    rw [offset, extract_signExtend _ (by omega) fits,
      BitVec.extractLsb'_append_eq_of_le (by omega), Nat.add_sub_cancel]
  have low : v.extractLsb' 1 d = x.extractLsb' 0 d := part 0 d (by omega)
  rw [part (d + c + b) a (by omega), part (d + c) b (by omega), part d c (by omega), low,
    BitVec.extractLsb'_append_extractLsb'_eq_extractLsb' rfl,
    BitVec.extractLsb'_append_extractLsb'_eq_extractLsb' rfl,
    BitVec.extractLsb'_append_extractLsb'_eq_extractLsb' (Nat.zero_add d).symm,
    BitVec.extractLsb'_eq_self]

/-! ## Every instruction -/

/-- The encoders of five layouts set the opcode themselves. -/
def Format.opcode? : Format → Option (BitVec 7)
  | .jalr => some 0x67#7
  | .s => some 0x23#7
  | .b => some 0x63#7
  | .j => some 0x6F#7
  | .csr | .csrImm => some 0x73#7
  | _ => none

theorem code_of_format (t : InstType) {c : BitVec 7} (fixed : t.format.opcode? = some c) :
    t.code = c := by
  revert fixed
  cases t <;> first
    | exact fun same => Option.some.inj same
    | intro none; cases none

/-- The encoder of a layout sets the opcode and the function fields of the type. -/
theorem decodeType_encodeAs (t : InstType) {f : Format} (args : Args f) (format : t.format = f) :
    decodeType (encodeAs t args) = t := by
  have plain (narrow : f.plain = true) : t.format.plain = true := format ▸ narrow
  have code (c : BitVec 7) (fixed : f.opcode? = some c) : t.code = c :=
    code_of_format t (format ▸ fixed)
  generalize encodes : encodeAs t args = w
  have noF3 (none : f.hasF3 = false) (has : t.format.hasF3 = true) : funct3 w = t.f3 := by
    rw [format, none] at has
    cases has
  have noF7 (none : f.hasF7 = false) (has : t.format.hasF7 = true) : funct7 w = t.f7 := by
    rw [format, none] at has
    cases has
  cases args with
  | r rd rs1 rs2 | shift rd rs1 shamt =>
      obtain ⟨op, f3, f7, -⟩ := encodeR_fields encodes
      exact decodeType_of_code (plain rfl) op (fun _ => f3) (fun _ => f7)
  | i rd rs1 imm =>
      obtain ⟨op, f3, -⟩ := encodeI_fields encodes
      exact decodeType_of_code (plain rfl) op (fun _ => f3) (noF7 rfl)
  | jalr rd rs1 offset =>
      have f3Zero : t.f3 = 0#3 := by
        revert format
        cases t <;> decide
      obtain ⟨op, f3, -⟩ := encodeJalr_fields encodes
      exact decodeType_of_code (plain rfl) (op.trans (code _ rfl).symm)
        (fun _ => f3.trans f3Zero.symm) (noF7 rfl)
  | s rs1 rs2 offset =>
      obtain ⟨op, f3, -⟩ := encodeS_fields encodes
      exact decodeType_of_code (plain rfl) (op.trans (code _ rfl).symm) (fun _ => f3) (noF7 rfl)
  | b rs1 rs2 half =>
      obtain ⟨op, f3, -⟩ := encodeB_fields encodes
      exact decodeType_of_code (plain rfl) (op.trans (code _ rfl).symm) (fun _ => f3) (noF7 rfl)
  | u rd imm =>
      obtain ⟨op, -⟩ := encodeU_fields encodes
      exact decodeType_of_code (plain rfl) op (noF3 rfl) (noF7 rfl)
  | j rd half =>
      obtain ⟨op, -⟩ := encodeJ_fields encodes
      exact decodeType_of_code (plain rfl) (op.trans (code _ rfl).symm) (noF3 rfl) (noF7 rfl)
  | fenceI rd rs1 =>
      -- fence.i alone is decoded with its immediate field, which the layout leaves zero
      have only : t = .fenceI := by
        revert format
        cases t <;> decide
      obtain ⟨op, f3, -, -, field⟩ := encodeI_fields encodes
      rw [only] at op f3
      exact (decodeType_fenceI op f3 field).trans only.symm
  | csr rd rs1 number | csrImm rd uimm number =>
      obtain ⟨op, f3, -⟩ := encodeCsr_fields number encodes
      exact decodeType_of_code (plain rfl) (op.trans (code _ rfl).symm) (fun _ => f3) (noF7 rfl)
  | system =>
      rw [← encodes]
      revert format
      cases t <;> decide

/-- The decoded instruction has the operands that were encoded. -/
theorem encodeAs_read (t : InstType) {f : Format} (args : Args f) (format : t.format = f) :
    args.Read (decode (encodeAs t args)) := by
  have type := decodeType_encodeAs t args format
  generalize encodes : encodeAs t args = w at type
  cases args with
  | r rd rs1 rs2 =>
      obtain ⟨-, -, -, dest, first, second⟩ := encodeR_fields encodes
      refine ⟨?_, ?_, ?_, ?_⟩
      · rw [decode_rd, dest]
      · rw [decode_rs1, first]
      · rw [decode_rs2, second]
      · rw [decode_imm type, format]
        rfl
  | shift rd rs1 shamt =>
      obtain ⟨-, -, -, dest, first, second⟩ := encodeR_fields encodes
      refine ⟨?_, ?_, ?_⟩
      · rw [decode_rd, dest]
      · rw [decode_rs1, first]
      · rw [decode_imm type, format, Format.immOf, second]
  | i rd rs1 imm =>
      obtain ⟨-, -, dest, first, field⟩ := encodeI_fields encodes
      refine ⟨?_, ?_, ?_⟩
      · rw [decode_rd, dest]
      · rw [decode_rs1, first]
      · rw [decode_imm type, format, Format.immOf, Rtl.imm, field, low_signExtend imm (by omega)]
  | jalr rd rs1 offset =>
      obtain ⟨-, -, dest, first, field⟩ := encodeJalr_fields encodes
      refine ⟨?_, ?_, ?_⟩
      · rw [decode_rd, dest]
      · rw [decode_rs1, first]
      · rw [decode_imm type, format, Format.immOf, Rtl.imm, field, low_signExtend offset (by omega)]
  | s rs1 rs2 offset =>
      obtain ⟨-, -, first, second, low, high⟩ := encodeS_fields encodes
      refine ⟨?_, ?_, ?_⟩
      · rw [decode_rs1, first]
      · rw [decode_rs2, second]
      · rw [decode_imm type, format, Format.immOf, Rtl.imm, low, high, join_s]
  | b rs1 rs2 half =>
      obtain ⟨-, -, first, second, bit11, low, high, sign⟩ := encodeB_fields encodes
      refine ⟨?_, ?_, ?_⟩
      · rw [decode_rs1, first]
      · rw [decode_rs2, second]
      · have even := join_even (a := 1) (b := 1) (c := 6) (d := 4) half _ rfl (by omega)
        rw [decode_imm type, format, Format.immOf, Rtl.imm, bit11, low, high, sign]
        exact congrArg (BitVec.signExtend 32) even
  | u rd imm =>
      obtain ⟨-, dest, field⟩ := encodeU_fields encodes
      refine ⟨?_, ?_⟩
      · rw [decode_rd, dest]
      · rw [decode_imm type, format, Format.immOf, Rtl.imm, field, BitVec.extractLsb'_append_eq_left]
  | j rd half =>
      obtain ⟨-, dest, top, bit11, low, sign⟩ := encodeJ_fields encodes
      refine ⟨?_, ?_⟩
      · rw [decode_rd, dest]
      · have even := join_even (a := 1) (b := 8) (c := 1) (d := 10) half _ rfl (by omega)
        rw [decode_imm type, format, Format.immOf, Rtl.imm, top, bit11, low, sign]
        exact congrArg (BitVec.signExtend 32) even
  | fenceI rd rs1 =>
      obtain ⟨-, -, dest, first, field⟩ := encodeI_fields encodes
      refine ⟨?_, ?_, ?_⟩
      · rw [decode_rd, dest]
      · rw [decode_rs1, first]
      · rw [decode_imm type, format, Format.immOf, Rtl.imm, field]
        rfl
  | csr rd rs1 number =>
      obtain ⟨-, -, dest, first, field⟩ := encodeCsr_fields number encodes
      refine ⟨?_, ?_, ?_, ?_, ?_⟩
      · rw [decode_rd, dest]
      · rw [decode_rs1, first]
      · rw [decode_number, field]
      · rw [decode_isCsrImm type, format]
        rfl
      · rw [decode_imm type, format]
        rfl
  | csrImm rd uimm number =>
      obtain ⟨-, -, dest, first, field⟩ := encodeCsr_fields number encodes
      refine ⟨?_, ?_, ?_, ?_⟩
      · rw [decode_rd, dest]
      · rw [decode_imm type, format, Format.immOf, Rtl.imm, first]
      · rw [decode_number, field]
      · rw [decode_isCsrImm type, format]
        rfl
  | system =>
      show (decode w).imm = 0#32
      rw [decode_imm type, format]
      rfl

/-- Every type, with all of its operands, survives the round trip. -/
theorem roundTrip (t : InstType) (args : Args t.format) : RoundTrip t args := by
  have type : decodeType (encode t args) = t := decodeType_encodeAs t args rfl
  have operands : args.Read (decode (encode t args)) := encodeAs_read t args rfl
  have known : t ≠ .unknown := by
    rintro rfl
    cases args
  refine ⟨type, fun e mem => ?_, operands, immAgrees type⟩
  have rows := row_iff (w := encode t args) (by rw [type]; exact known) mem
  rwa [type] at rows

end NpcMachine.Emulator
