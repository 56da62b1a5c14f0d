/-
# Emulator.Accept -- which words the two decoders accept

A word has at most one entry in the table (`decodeType_of_hit`), and every word that the
RTL decoder lets pass has one, but for the instructions with `funct12` (`known_of_legal`).
The languages differ on four kinds of words, `DecodersDiffer`.

* `illegal_agree_iff`: the two verdicts on a word are equal unless it is of such a kind.
-/
import NpcMachine.Emulator.StepAgree

namespace NpcMachine.Emulator

open NpcMachine.Rtl NpcMachine.Machine

set_option autoImplicit false

/-! ## The two verdicts -/

/-- `ctrl_illegal`, or a register field that names no register. -/
def rtlIllegal (w : U32) : Bool :=
  (decoder w).illegal || ((decoder w).hasRd && (decoder w).rd5.getLsbD 4) ||
    ((decoder w).hasRs1 && (decoder w).rs15.getLsbD 4) ||
    ((decoder w).hasRs2 && (decoder w).rs25.getLsbD 4)

/-- No entry matches, or the register validation of `execute` fails. -/
def emulatorIllegal (w : U32) : Bool := (decode w).type == .unknown || reservedReg (decode w)

/-- EX raises the illegal instruction for a decoded word by that verdict, and for a CSR. -/
theorem rtlIllegal_idEx {p : Pipeline} (decoded : p.idEx.Decoded) :
    (p.idEx.ctl.illegal || p.idExReservedRd || p.idExReservedRs1 || p.idExReservedRs2) =
      rtlIllegal p.idEx.inst := by
  rw [Pipeline.idExReservedRd, Pipeline.idExReservedRs1, Pipeline.idExReservedRs2, decoded.ctl]
  rfl

theorem rtlIllegal_eq (w : U32) : rtlIllegal w =
    ((decoder w).illegal || ((decoder w).hasRd && (w.extractLsb' 7 5).getLsbD 4) ||
      ((decoder w).hasRs1 && (w.extractLsb' 15 5).getLsbD 4) ||
      ((decoder w).hasRs2 && (w.extractLsb' 20 5).getLsbD 4)) := by
  rw [rtlIllegal, decoder_rd5, decoder_rs15, decoder_rs25]

theorem emulatorIllegal_eq (w : U32) : emulatorIllegal w =
    (decodeType w == .unknown || (hasRd (decodeType w) && (w.extractLsb' 7 5).getLsbD 4) ||
      (hasRs1Reg (decodeType w) && (w.extractLsb' 15 5).getLsbD 4) ||
      (hasRs2Reg (decodeType w) && (w.extractLsb' 20 5).getLsbD 4)) := by
  have type : (decode w).type = decodeType w := rfl
  rw [emulatorIllegal, reservedReg, decode_rd, decode_rs1, decode_rs2, gprCount_ule, gprCount_ule,
    gprCount_ule, type, bne]
  cases decodeType w == .unknown with
  | true => rfl
  | false => simp only [Bool.false_or, Bool.not_false, Bool.true_and]

/-! ## Entries -/

/-- Two entries never match the same word. -/
theorem entries_apart : ∀ e ∈ decodeTable, ∀ f ∈ decodeTable, e ≠ f →
    (e.code ^^^ f.code) &&& (e.mask &&& f.mask) ≠ 0#32 := by
  decide +kernel

theorem decodeType_of_hit {w : U32} {e : Entry} (mem : e ∈ decodeTable)
    (hit : w &&& e.mask = e.code) : decodeType w = e.type := by
  have found : ∃ f, decodeTable.find? (fun f => w &&& f.mask == f.code) = some f := by
    rw [← Option.isSome_iff_exists, List.find?_isSome]
    exact ⟨e, mem, by simpa using hit⟩
  obtain ⟨f, found⟩ := found
  have memF := List.mem_of_find?_eq_some found
  have hitF : w &&& f.mask = f.code := by simpa using List.find?_some found
  have same : e = f := by
    by_contra other
    refine entries_apart e mem f memF other ?_
    rw [← hit, ← hitF]
    apply BitVec.eq_of_getLsbD_eq
    intro i _
    simp only [BitVec.getLsbD_and, BitVec.getLsbD_xor, BitVec.getLsbD_zero]
    cases w.getLsbD i <;> cases e.mask.getLsbD i <;> cases f.mask.getLsbD i <;> rfl
  rw [decodeType, found, same]
  rfl

theorem type_known : ∀ e ∈ decodeTable, e.type ≠ .unknown := by decide

/-- The masks of the formats that no `funct12` selects. -/
def Entry.plain (e : Entry) : Bool :=
  e.mask == maskOpcode || e.mask == maskOpcode ||| maskF3 ||
    e.mask == maskOpcode ||| maskF3 ||| maskF7

/-- The fields that the mask of an entry compares are these. -/
def Entry.fits (e : Entry) (op : BitVec 7) (f3 : BitVec 3) (f7 : BitVec 7) : Bool :=
  opcode e.code == op && (e.mask &&& maskF3 != maskF3 || funct3 e.code == f3) &&
    (e.mask &&& maskF7 != maskF7 || funct7 e.code == f7)

/-- A mask in two parts compares both. -/
theorem and_parts {w code a b : U32} (whole : code &&& (a ||| b) = code)
    (first : w &&& a = code &&& a) (second : w &&& b = code &&& b) : w &&& (a ||| b) = code := by
  rw [← whole, BitVec.and_or_distrib_left, BitVec.and_or_distrib_left, first, second]

theorem code_inside : ∀ e ∈ decodeTable, e.code &&& e.mask = e.code := by decide

theorem hit_of_fits {w : U32} {e : Entry} (mem : e ∈ decodeTable) (plain : e.plain = true)
    (fits : e.fits (opcode w) (funct3 w) (funct7 w) = true) : w &&& e.mask = e.code := by
  have inside := code_inside e mem
  simp only [Entry.fits, Bool.and_eq_true, Bool.or_eq_true, beq_iff_eq, bne_iff_ne] at fits
  obtain ⟨⟨op, f3⟩, f7⟩ := fits
  have opHit := (opcode_mask w e.code).mpr op.symm
  have f3Hit (inMask : e.mask &&& maskF3 = maskF3) : w &&& maskF3 = e.code &&& maskF3 :=
    (funct3_mask w e.code).mpr (f3.resolve_left (not_not_intro inMask)).symm
  have f7Hit (inMask : e.mask &&& maskF7 = maskF7) : w &&& maskF7 = e.code &&& maskF7 :=
    (funct7_mask w e.code).mpr (f7.resolve_left (not_not_intro inMask)).symm
  simp only [Entry.plain, Bool.or_eq_true, beq_iff_eq] at plain
  rcases plain with (mask | mask) | mask
  · rw [mask] at inside ⊢
    rw [opHit, inside]
  · rw [mask] at inside f3Hit ⊢
    exact and_parts inside opHit (f3Hit (by decide))
  · rw [mask] at inside f3Hit f7Hit ⊢
    refine and_parts inside ?_ (f7Hit (by decide))
    rw [BitVec.and_or_distrib_left, BitVec.and_or_distrib_left, opHit, f3Hit (by decide)]

/-- A plain entry that fits makes the word known. -/
theorem known_of_fits {w : U32}
    (some : (decodeTable.any fun e => e.plain && e.fits (opcode w) (funct3 w) (funct7 w)) = true) :
    decodeType w ≠ .unknown := by
  obtain ⟨e, mem, fits⟩ := List.any_eq_true.mp some
  rw [Bool.and_eq_true] at fits
  rw [decodeType_of_hit mem (hit_of_fits mem fits.1 fits.2)]
  exact type_known e mem

/-! ## What the RTL lets pass -/

theorem opImm_fits : ∀ (f3 : BitVec 3) (f7 : BitVec 7),
    ((f3 == 0b101#3 && shiftRightIllegal f7) || (f3 == 0b001#3 && f7 != 0b0000000#7)) = false →
      (decodeTable.any fun e => e.plain && e.fits 0b0010011#7 f3 f7) = true := by
  decide +kernel

theorem op_fits : ∀ (f3 : BitVec 3) (f7 : BitVec 7),
    (if f3 = 0b000#3 ∨ f3 = 0b101#3 then shiftRightIllegal f7 else f7 != 0b0000000#7) = false →
      (decodeTable.any fun e => e.plain && e.fits 0b0110011#7 f3 f7) = true := by
  decide +kernel

/-- The opcodes whose entries compare `funct3` at most. -/
theorem narrow_fits {op : BitVec 7} {f3 : BitVec 3} (f7 : BitVec 7)
    (some : (decodeTable.any fun e => e.plain && e.mask &&& maskF7 != maskF7 &&
      e.fits op f3 0#7) = true) :
    (decodeTable.any fun e => e.plain && e.fits op f3 f7) = true := by
  obtain ⟨e, mem, fits⟩ := List.any_eq_true.mp some
  refine List.any_eq_true.mpr ⟨e, mem, ?_⟩
  simp only [Entry.fits, Bool.and_eq_true, Bool.or_eq_true] at fits ⊢
  exact ⟨fits.1.1, fits.2.1, .inl fits.1.2⟩

theorem jalr_fits : ∀ f3 : BitVec 3, (f3 != 0b000#3) = false →
    (decodeTable.any fun e => e.plain && e.mask &&& maskF7 != maskF7 &&
      e.fits 0b1100111#7 f3 0#7) = true := by
  decide

theorem branch_fits : ∀ f3 : BitVec 3, (f3 == 0b010#3 || f3 == 0b011#3) = false →
    (decodeTable.any fun e => e.plain && e.mask &&& maskF7 != maskF7 &&
      e.fits 0b1100011#7 f3 0#7) = true := by
  decide

theorem load_fits : ∀ f3 : BitVec 3,
    (f3.extractLsb' 0 2 == 0b11#2 || (f3 == 0b010#3 && f3.getLsbD 2) ||
      (f3 == 0b110#3 || f3 == 0b111#3)) = false →
    (decodeTable.any fun e => e.plain && e.mask &&& maskF7 != maskF7 &&
      e.fits 0b0000011#7 f3 0#7) = true := by
  decide

theorem store_fits : ∀ f3 : BitVec 3, (f3.getLsbD 2 || f3.extractLsb' 0 2 == 0b11#2) = false →
    (decodeTable.any fun e => e.plain && e.mask &&& maskF7 != maskF7 &&
      e.fits 0b0100011#7 f3 0#7) = true := by
  decide

theorem csr_fits : ∀ f3 : BitVec 3, f3 ≠ 0b000#3 → (f3 == 0b100#3) = false →
    (decodeTable.any fun e => e.plain && e.mask &&& maskF7 != maskF7 &&
      e.fits 0b1110011#7 f3 0#7) = true := by
  decide

theorem upper_fits : ∀ op : BitVec 7, op = 0b0110111#7 ∨ op = 0b0010111#7 ∨ op = 0b1101111#7 →
    ∀ f3 : BitVec 3, (decodeTable.any fun e => e.plain && e.mask &&& maskF7 != maskF7 &&
      e.fits op f3 0#7) = true := by
  rintro _ (rfl | rfl | rfl) <;> decide

theorem fence_fits : (decodeTable.any fun e => e.plain && e.mask &&& maskF7 != maskF7 &&
    e.fits 0b0001111#7 0b000#3 0#7) = true := by
  decide

theorem major_system {w : U32} (op : opcode w = 0b1110011#7) :
    major w = if funct3 w = 0b000#3 then .priv else .csr := by
  unfold major
  rw [op]
  rfl

theorem major_miscMem {w : U32} (op : opcode w = 0b0001111#7) : major w = .miscMem := by
  unfold major
  rw [op]
  rfl

theorem major_priv {w : U32} (priv : major w = .priv) :
    opcode w = 0b1110011#7 ∧ funct3 w = 0b000#3 := by
  have op : opcode w = 0b1110011#7 := by
    rw [opcode_of_major w (by rw [priv]; decide), priv]
    rfl
  refine ⟨op, ?_⟩
  by_contra other
  rw [major_system op, if_neg other] at priv
  contradiction

theorem major_csr {w : U32} (csr : major w = .csr) : funct3 w ≠ 0b000#3 := by
  intro zero
  have op : opcode w = 0b1110011#7 := by
    rw [opcode_of_major w (by rw [csr]; decide), csr]
    rfl
  rw [major_system op, if_pos zero] at csr
  contradiction

/-- A word that the RTL decoder accepts is in the table, but for `SYSTEM` with `funct3 = 0`
and `FENCE.I`. -/
theorem known_of_legal {w : U32} (legal : (decoder w).illegal = false) (notPriv : major w ≠ .priv)
    (notFenceI : major w = .miscMem → funct3 w = 0b000#3) : decodeType w ≠ .unknown := by
  have code (known : major w ≠ .unknown) := opcode_of_major w known
  apply known_of_fits
  unfold decoder at legal
  cases arm : major w with
  | opImm =>
      rw [arm] at legal
      rw [code (by rw [arm]; decide), arm]
      exact opImm_fits _ _ legal
  | op =>
      rw [arm] at legal
      rw [code (by rw [arm]; decide), arm]
      exact op_fits _ _ legal
  | lui =>
      rw [code (by rw [arm]; decide), arm]
      exact narrow_fits _ (upper_fits _ (by decide) _)
  | auipc =>
      rw [code (by rw [arm]; decide), arm]
      exact narrow_fits _ (upper_fits _ (by decide) _)
  | jal =>
      rw [code (by rw [arm]; decide), arm]
      exact narrow_fits _ (upper_fits _ (by decide) _)
  | jalr =>
      rw [arm] at legal
      rw [code (by rw [arm]; decide), arm]
      exact narrow_fits _ (jalr_fits _ legal)
  | branch =>
      rw [arm] at legal
      rw [code (by rw [arm]; decide), arm]
      exact narrow_fits _ (branch_fits _ legal)
  | load =>
      rw [arm] at legal
      rw [code (by rw [arm]; decide), arm]
      exact narrow_fits _ (load_fits _ legal)
  | store =>
      rw [arm] at legal
      rw [code (by rw [arm]; decide), arm]
      exact narrow_fits _ (store_fits _ legal)
  | miscMem =>
      rw [code (by rw [arm]; decide), arm, notFenceI arm]
      exact narrow_fits _ fence_fits
  | priv => exact absurd arm notPriv
  | csr =>
      rw [arm] at legal
      rw [code (by rw [arm]; decide), arm]
      exact narrow_fits _ (csr_fits _ (major_csr arm) legal)
  | unknown =>
      rw [arm] at legal
      exact Bool.noConfusion legal

/-! ## Words by their fields -/

theorem word_eq_fields (w : U32) :
    w = funct12 w ++ w.extractLsb' 15 5 ++ funct3 w ++ w.extractLsb' 7 5 ++ opcode w := by
  apply BitVec.eq_of_getLsbD_eq
  intro i small
  simp only [funct12, funct3, opcode, BitVec.getLsbD_append, BitVec.getLsbD_extractLsb']
  split_ifs with a b c d
  · simp [a]
  · simp [b, Nat.add_sub_cancel' (Nat.le_of_not_lt a)]
  · simp only [c, decide_true, Bool.true_and]
    congr 1
    omega
  · simp only [d, decide_true, Bool.true_and]
    congr 1
    omega
  · have last : i - 7 - 5 - 3 - 5 < 12 := by omega
    simp only [last, decide_true, Bool.true_and]
    congr 1
    omega

/-- The words with an entry for all of their bits. -/
theorem exact_iff {w code : U32} : w = code ↔ opcode w = opcode code ∧ funct3 w = funct3 code ∧
    funct12 w = funct12 code ∧ w.extractLsb' 7 5 = code.extractLsb' 7 5 ∧
      w.extractLsb' 15 5 = code.extractLsb' 15 5 := by
  constructor
  · rintro rfl
    exact ⟨rfl, rfl, rfl, rfl, rfl⟩
  · rintro ⟨op, f3, f12, rd, rs1⟩
    rw [word_eq_fields w, word_eq_fields code, op, f3, f12, rd, rs1]

/-! ## The registers that an accepted word names -/

/-- The CSR types, by the operation of the RTL. -/
def csrOpOf : InstType → CsrOp
  | .csrrw => .rw
  | .csrrs => .rs
  | .csrrc => .rc
  | .csrrwi => .rwi
  | .csrrsi => .rsi
  | .csrrci => .rci
  | _ => .none

/-- The `OP` types, whose `rs1` the reference model does not check. -/
def isOp : InstType → Bool
  | .add | .sub | .sll | .slt | .sltu | .xor | .srl | .sra | .or | .and => true
  | _ => false

theorem csr_major {w : U32} (csr : csrOpOf (decodeType w) ≠ .none) : major w = .csr := by
  have entries : ∀ t : InstType, csrOpOf t ≠ .none → ∃ e, entryOf t = some e ∧
      opcode e.code = 0b1110011#7 ∧ e.mask &&& maskF3 = maskF3 ∧ funct3 e.code ≠ 0b000#3 := by
    intro t csr
    cases t with
    | csrrw | csrrs | csrrc | csrrwi | csrrsi | csrrci =>
        exact ⟨_, rfl, by decide, by decide, by decide⟩
    | _ => exact absurd rfl csr
  obtain ⟨e, entry, op, mask, f3⟩ := entries _ csr
  obtain ⟨sameOp, sameF3, -⟩ := decodeType_fields entry
  rw [major_system (sameOp.trans op), sameF3 mask, if_neg f3]

theorem decoder_of_csrType {w : U32} (csr : csrOpOf (decodeType w) ≠ .none) :
    (decoder w).illegal = false ∧ (decoder w).csrOp = csrOpOf (decodeType w) ∧
      (decoder w).csrSrc = (decode w).isCsrImm ∧ (decoder w).hasRd = true ∧
      (decoder w).hasRs1 = hasRs1Reg (decodeType w) ∧ (decoder w).hasRs2 = false ∧
      ((decode w).isCsrImm = true → (decoder w).immSel = .z) := by
  have body : decoder w = decodeCsr w := by rw [decoder, csr_major csr]
  have imm : (decode w).isCsrImm = (decodeType w == .csrrwi || decodeType w == .csrrsi ||
      decodeType w == .csrrci) := rfl
  rw [body, imm]
  cases type : decodeType w with
  | csrrw | csrrs | csrrc | csrrwi | csrrsi | csrrci =>
      obtain ⟨-, f3, -⟩ := decodeType_fields (w := w) (by rw [type]; exact rfl)
      have field := f3 (by decide)
      simp only [decodeCsr, decoderDefault, field]
      decide
  | _ =>
      rw [type] at csr
      exact absurd rfl csr

/-- A word of a base or CSR type is legal for the RTL, and both check the same fields, but
for `rs1` of the `OP` types. -/
theorem fields_of_known {w : U32}
    (known : isBase (decodeType w) = true ∨ csrOpOf (decodeType w) ≠ .none) :
    (decoder w).illegal = false ∧ (decoder w).hasRd = hasRd (decodeType w) ∧
      (decoder w).hasRs1 = (hasRs1Reg (decodeType w) || isOp (decodeType w)) ∧
      (decoder w).hasRs2 = hasRs2Reg (decodeType w) := by
  rcases known with base | csr
  · have ctl := decoder_of_base base
    have rs1 : (control (decodeType w)).hasRs1 =
        (hasRs1Reg (decodeType w) || isOp (decodeType w)) := by
      revert base
      cases decodeType w <;> decide
    exact ⟨(congrArg Control.illegal ctl).trans (control_plain base).1,
      (congrArg Control.hasRd ctl).trans (hasRd_base base).symm,
      (congrArg Control.hasRs1 ctl).trans rs1,
      (congrArg Control.hasRs2 ctl).trans (hasRs2_base base).symm⟩
  · obtain ⟨illegal, -, -, rd, rs1, rs2, -⟩ := decoder_of_csrType csr
    have flags : hasRd (decodeType w) = true ∧ isOp (decodeType w) = false ∧
        hasRs2Reg (decodeType w) = false := by
      revert csr
      cases decodeType w <;> decide
    rw [flags.1, flags.2.1, flags.2.2, Bool.or_false]
    exact ⟨illegal, rd, rs1, rs2⟩

/-! ## Where the languages differ -/

/-- The words on which the verdicts differ. -/
inductive DecodersDiffer (w : U32) : Prop where
  /-- An `OP` word whose only reserved register is `rs1`. -/
  | op (code : opcode w = 0b0110011#7)
      (function : funct7 w = 0b0000000#7 ∨
        (funct7 w = 0b0100000#7 ∧ (funct3 w = 0b000#3 ∨ funct3 w = 0b101#3)))
      (rs1 : (w.extractLsb' 15 5).getLsbD 4 = true) (rd : (w.extractLsb' 7 5).getLsbD 4 = false)
      (rs2 : (w.extractLsb' 20 5).getLsbD 4 = false)
  /-- A `FENCE` with a reserved register in its `rd` field. -/
  | fence (code : opcode w = 0b0001111#7) (function : funct3 w = 0b000#3)
      (rd : (w.extractLsb' 7 5).getLsbD 4 = true)
  /-- A `FENCE.I` whose `rs1` field is zero and whose `rd` field is reserved, or neither. -/
  | fenceI (code : opcode w = 0b0001111#7) (function : funct3 w = 0b001#3)
      (zero : funct12 w = 0x000#12)
      (fields : w.extractLsb' 15 5 = 0#5 ↔ (w.extractLsb' 7 5).getLsbD 4 = true)
  /-- `ECALL`, `EBREAK`, `MRET` or `WFI` with a register field that is not zero. -/
  | priv (code : opcode w = 0b1110011#7) (function : funct3 w = 0b000#3)
      (kind : funct12 w = 0x000#12 ∨ funct12 w = 0x001#12 ∨ funct12 w = 0x302#12 ∨
        funct12 w = 0x105#12)
      (fields : w.extractLsb' 7 5 ≠ 0#5 ∨ w.extractLsb' 15 5 ≠ 0#5)

section

variable {w : U32}

/-! ### `MISC-MEM` -/

theorem rtlIllegal_miscMem (code : opcode w = 0b0001111#7) :
    rtlIllegal w = (funct3 w != 0b000#3 && !isFenceI w) := by
  have body : decoder w = decodeMiscMem w := by rw [decoder, major_miscMem code]
  rw [rtlIllegal, body]
  simp [decodeMiscMem, decoderDefault]

theorem decodeType_fence (code : opcode w = 0b0001111#7) (function : funct3 w = 0b000#3) :
    decodeType w = .fence := by
  have mem : (⟨maskOpcode ||| maskF3, 0x0000000F#32, .fence⟩ : Entry) ∈ decodeTable := by decide
  refine decodeType_of_hit mem (hit_of_fits mem (by decide) ?_)
  rw [code, function]
  rfl

theorem funct12_mask (w m : U32) : w &&& maskF12 = m &&& maskF12 ↔ funct12 w = funct12 m :=
  and_mask_iff (by decide) (by omega) w m

theorem decodeType_fenceI (code : opcode w = 0b0001111#7) (function : funct3 w = 0b001#3)
    (zero : funct12 w = 0x000#12) : decodeType w = .fenceI := by
  have mem : (⟨maskOpcode ||| maskF3 ||| maskF12, 0x0000100F#32, .fenceI⟩ : Entry) ∈
      decodeTable := by decide
  refine decodeType_of_hit mem (and_parts (by decide) (and_parts (by decide) ?_ ?_) ?_)
  · exact (opcode_mask w _).mpr (code.trans (by decide))
  · exact (funct3_mask w _).mpr (function.trans (by decide))
  · exact (funct12_mask w _).mpr (zero.trans (by decide))

theorem decodeType_miscMem (code : opcode w = 0b0001111#7) (known : decodeType w ≠ .unknown) :
    funct3 w = 0b000#3 ∨ (funct3 w = 0b001#3 ∧ funct12 w = 0x000#12) := by
  have entries : ∀ e ∈ decodeTable, opcode e.code = 0b0001111#7 → e.mask &&& maskF3 = maskF3 ∧
      (funct3 e.code = 0b000#3 ∨
        (funct3 e.code = 0b001#3 ∧ e.mask &&& maskF12 = maskF12 ∧ funct12 e.code = 0x000#12)) := by
    decide
  have opcodes : ∀ e ∈ decodeTable, e.mask &&& maskOpcode = maskOpcode := by decide
  obtain ⟨e, mem, -, hit⟩ := decodeType_entry known
  have op := (opcode_mask _ _).mp (and_part hit (opcodes e mem))
  obtain ⟨mask, fence | ⟨f3, maskF12, zero⟩⟩ := entries e mem (op.symm.trans code)
  · exact .inl (((funct3_mask _ _).mp (and_part hit mask)).trans fence)
  · exact .inr ⟨((funct3_mask _ _).mp (and_part hit mask)).trans f3,
      ((funct12_mask _ _).mp (and_part hit maskF12)).trans zero⟩

theorem isFenceI_iff : isFenceI w = true ↔
    funct3 w = 0b001#3 ∧ funct12 w = 0x000#12 ∧ w.extractLsb' 15 5 = 0#5 := by
  have split : w.extractLsb' 15 (12 + 5) = w.extractLsb' 20 12 ++ w.extractLsb' 15 5 :=
    (BitVec.extractLsb'_append_extractLsb'_eq_extractLsb' rfl).symm
  have zeros : ∀ (a : BitVec 12) (b : BitVec 5), a ++ b = 0#17 ↔ a = 0x000#12 ∧ b = 0#5 := by
    intro a b
    have halves : (0#17 : BitVec (12 + 5)) = 0#12 ++ 0#5 := by decide
    rw [halves]
    constructor
    · intro same
      have high := congrArg (BitVec.extractLsb' 5 12) same
      have low := congrArg (BitVec.extractLsb' 0 5) same
      rw [BitVec.extractLsb'_append_eq_left, BitVec.extractLsb'_append_eq_left] at high
      rw [BitVec.extractLsb'_append_eq_right, BitVec.extractLsb'_append_eq_right] at low
      exact ⟨high, low⟩
    · rintro ⟨rfl, rfl⟩
      rfl
  rw [isFenceI, Bool.and_eq_true, beq_iff_eq, beq_iff_eq, split, zeros]
  rfl

theorem miscMem_agree_iff (code : opcode w = 0b0001111#7) :
    rtlIllegal w = emulatorIllegal w ↔ ¬ DecodersDiffer w := by
  rw [rtlIllegal_miscMem code, emulatorIllegal_eq]
  by_cases fence : funct3 w = 0b000#3
  · rw [decodeType_fence code fence, fence]
    have verdicts : ((0b000#3 != 0b000#3 && !isFenceI w) = (InstType.fence == .unknown ||
        (hasRd .fence && (w.extractLsb' 7 5).getLsbD 4) ||
        (hasRs1Reg .fence && (w.extractLsb' 15 5).getLsbD 4) ||
        (hasRs2Reg .fence && (w.extractLsb' 20 5).getLsbD 4))) ↔
        (w.extractLsb' 7 5).getLsbD 4 = false := by
      cases (w.extractLsb' 7 5).getLsbD 4 <;> simp [hasRd, hasRs1Reg, hasRs2Reg]
    rw [verdicts]
    constructor
    · intro low differ
      cases differ with
      | op other => rw [code] at other; contradiction
      | fence _ _ high => rw [low] at high; contradiction
      | fenceI _ other => rw [fence] at other; contradiction
      | priv other => rw [code] at other; contradiction
    · intro same
      rw [← Bool.not_eq_true]
      exact fun high => same (.fence code fence high)
  · by_cases fenceI : funct3 w = 0b001#3 ∧ funct12 w = 0x000#12
    · rw [decodeType_fenceI code fenceI.1 fenceI.2]
      have exact_ : isFenceI w = decide (w.extractLsb' 15 5 = 0#5) := by
        rw [Bool.eq_iff_iff, isFenceI_iff, decide_eq_true_iff]
        exact ⟨fun all => all.2.2, fun zero => ⟨fenceI.1, fenceI.2, zero⟩⟩
      have verdicts : ((funct3 w != 0b000#3 && !isFenceI w) = (InstType.fenceI == .unknown ||
          (hasRd .fenceI && (w.extractLsb' 7 5).getLsbD 4) ||
          (hasRs1Reg .fenceI && (w.extractLsb' 15 5).getLsbD 4) ||
          (hasRs2Reg .fenceI && (w.extractLsb' 20 5).getLsbD 4))) ↔
          ¬ (w.extractLsb' 15 5 = 0#5 ↔ (w.extractLsb' 7 5).getLsbD 4 = true) := by
        rw [exact_, fenceI.1]
        cases (w.extractLsb' 7 5).getLsbD 4 <;> by_cases zero : w.extractLsb' 15 5 = 0#5 <;>
          simp [hasRd, hasRs1Reg, hasRs2Reg, zero]
      rw [verdicts, not_iff_not]
      constructor
      · intro fields
        exact .fenceI code fenceI.1 fenceI.2 fields
      · intro differ
        cases differ with
        | op other => rw [code] at other; contradiction
        | fence _ other => exact absurd other fence
        | fenceI _ _ _ fields => exact fields
        | priv other => rw [code] at other; contradiction
    · have unknown : decodeType w = .unknown := by
        by_contra known
        exact (decodeType_miscMem code known).elim fence fenceI
      have notFenceI : isFenceI w = false := by
        rw [← Bool.not_eq_true, isFenceI_iff]
        exact fun all => fenceI ⟨all.1, all.2.1⟩
      have rtl : (funct3 w != 0b000#3) = true := by simpa using fence
      rw [unknown, notFenceI, rtl]
      refine iff_of_true (by rfl) ?_
      intro differ
      cases differ with
      | op other => rw [code] at other; contradiction
      | fence _ other => exact fence other
      | fenceI _ other zero => exact fenceI ⟨other, zero⟩
      | priv other => rw [code] at other; contradiction

/-! ### `SYSTEM` with `funct3 = 0` -/

/-- The instructions that `funct12` selects. -/
def PrivCode (w : U32) : Prop :=
  funct12 w = 0x000#12 ∨ funct12 w = 0x001#12 ∨ funct12 w = 0x302#12 ∨ funct12 w = 0x105#12

theorem rtlIllegal_priv (code : opcode w = 0b1110011#7) (function : funct3 w = 0b000#3) :
    rtlIllegal w = false ↔ PrivCode w := by
  have body : decoder w = decodePriv w := by
    rw [decoder, major_system code, if_pos function]
  rw [rtlIllegal, body]
  simp only [decodePriv, decoderDefault, PrivCode, Bool.false_and, Bool.or_false,
    Bool.not_eq_false', Bool.or_eq_true, beq_iff_eq, or_assoc]

/-- A word that is an entry by itself. -/
theorem decodeType_exact {e : Entry} (mem : e ∈ decodeTable) (full : e.mask = 0xFFFFFFFF#32)
    (same : w = e.code) : decodeType w = e.type := by
  refine decodeType_of_hit mem ?_
  rw [full, same]
  exact BitVec.and_allOnes

theorem emulatorIllegal_priv (code : opcode w = 0b1110011#7) (function : funct3 w = 0b000#3) :
    emulatorIllegal w = false ↔
      PrivCode w ∧ w.extractLsb' 7 5 = 0#5 ∧ w.extractLsb' 15 5 = 0#5 := by
  rw [emulatorIllegal_eq]
  constructor
  · intro legal
    have entries : ∀ e ∈ decodeTable, opcode e.code = 0b1110011#7 →
        (e.mask &&& maskF3 = maskF3 ∧ funct3 e.code ≠ 0b000#3) ∨
          (e.mask = 0xFFFFFFFF#32 ∧
            (funct12 e.code = 0x000#12 ∨ funct12 e.code = 0x001#12 ∨ funct12 e.code = 0x302#12 ∨
              funct12 e.code = 0x105#12) ∧
            e.code.extractLsb' 7 5 = 0#5 ∧ e.code.extractLsb' 15 5 = 0#5) := by
      decide
    have opcodes : ∀ e ∈ decodeTable, e.mask &&& maskOpcode = maskOpcode := by decide
    have known : decodeType w ≠ .unknown := by
      intro unknown
      rw [unknown] at legal
      contradiction
    obtain ⟨e, mem, -, hit⟩ := decodeType_entry known
    have op := (opcode_mask _ _).mp (and_part hit (opcodes e mem))
    rcases entries e mem (op.symm.trans code) with ⟨mask, f3⟩ | ⟨full, kind, rd, rs1⟩
    · exact absurd (((funct3_mask _ _).mp (and_part hit mask)).symm.trans function) f3
    · have same : w = e.code := by
        rw [← hit, full]
        exact BitVec.and_allOnes.symm
      rw [same]
      exact ⟨kind, rd, rs1⟩
  · rintro ⟨kind, rd, rs1⟩
    have entry : ∃ e ∈ decodeTable, e.mask = 0xFFFFFFFF#32 ∧ w = e.code ∧
        hasRs1Reg e.type = false ∧ hasRs2Reg e.type = false := by
      rcases kind with ecall | ebreak | mret | wfi
      · exact ⟨⟨0xFFFFFFFF#32, 0x00000073#32, .ecall⟩, by decide, rfl,
          exact_iff.mpr ⟨code, function, ecall, rd, rs1⟩, rfl, rfl⟩
      · exact ⟨⟨0xFFFFFFFF#32, 0x00100073#32, .ebreak⟩, by decide, rfl,
          exact_iff.mpr ⟨code, function, ebreak, rd, rs1⟩, rfl, rfl⟩
      · exact ⟨⟨0xFFFFFFFF#32, 0x30200073#32, .mret⟩, by decide, rfl,
          exact_iff.mpr ⟨code, function, mret, rd, rs1⟩, rfl, rfl⟩
      · exact ⟨⟨0xFFFFFFFF#32, 0x10500073#32, .wfi⟩, by decide, rfl,
          exact_iff.mpr ⟨code, function, wfi, rd, rs1⟩, rfl, rfl⟩
    obtain ⟨e, mem, full, same, noRs1, noRs2⟩ := entry
    have known : (e.type == .unknown) = false := by
      simpa using type_known e mem
    rw [decodeType_exact mem full same, known, noRs1, noRs2, rd]
    simp

theorem priv_agree_iff (code : opcode w = 0b1110011#7) (function : funct3 w = 0b000#3) :
    rtlIllegal w = emulatorIllegal w ↔ ¬ DecodersDiffer w := by
  have rtl := rtlIllegal_priv code function
  have emulator := emulatorIllegal_priv code function
  have verdicts : rtlIllegal w = emulatorIllegal w ↔
      ¬ (PrivCode w ∧ (w.extractLsb' 7 5 ≠ 0#5 ∨ w.extractLsb' 15 5 ≠ 0#5)) := by
    have same : rtlIllegal w = emulatorIllegal w ↔
        (rtlIllegal w = false ↔ emulatorIllegal w = false) := by
      cases rtlIllegal w <;> cases emulatorIllegal w <;> decide
    rw [same, rtl, emulator, iff_self_and, not_and, not_or, not_ne_iff, not_ne_iff]
  rw [verdicts, not_iff_not]
  constructor
  · rintro ⟨kind, fields⟩
    exact .priv code function kind fields
  · intro differ
    cases differ with
    | op other => rw [code] at other; contradiction
    | fence other => rw [code] at other; contradiction
    | fenceI other => rw [code] at other; contradiction
    | priv _ _ kind fields => exact ⟨kind, fields⟩

/-! ### The other opcodes -/

/-- The types of an opcode, outside `MISC-MEM` and `SYSTEM` with `funct3 = 0`. -/
theorem known_plain (notFence : opcode w ≠ 0b0001111#7)
    (notPriv : opcode w = 0b1110011#7 → funct3 w ≠ 0b000#3) (known : decodeType w ≠ .unknown) :
    (isBase (decodeType w) = true ∨ csrOpOf (decodeType w) ≠ .none) ∧
      isOp (decodeType w) = (opcode w == 0b0110011#7) := by
  have entries : ∀ e ∈ decodeTable, opcode e.code = 0b0001111#7 ∨
      (opcode e.code = 0b1110011#7 ∧ e.mask &&& maskF3 = maskF3 ∧ funct3 e.code = 0b000#3) ∨
      ((isBase e.type = true ∨ csrOpOf e.type ≠ .none) ∧
        isOp e.type = (opcode e.code == 0b0110011#7)) := by
    decide
  have opcodes : ∀ e ∈ decodeTable, e.mask &&& maskOpcode = maskOpcode := by decide
  obtain ⟨e, mem, type, hit⟩ := decodeType_entry known
  have op := (opcode_mask _ _).mp (and_part hit (opcodes e mem))
  rcases entries e mem with fence | ⟨system, mask, f3⟩ | plain
  · exact absurd (op.trans fence) notFence
  · exact absurd (((funct3_mask _ _).mp (and_part hit mask)).trans f3)
      (notPriv (op.trans system))
  · rw [← type, op]
    exact plain

theorem opIllegal_iff : opIllegal w = false ↔ funct7 w = 0b0000000#7 ∨
    (funct7 w = 0b0100000#7 ∧ (funct3 w = 0b000#3 ∨ funct3 w = 0b101#3)) := by
  unfold opIllegal shiftRightIllegal
  split_ifs with two
  · simp only [Bool.and_eq_false_iff, bne_eq_false_iff_eq]
    tauto
  · simp only [bne_eq_false_iff_eq]
    tauto

theorem plain_agree_iff (notFence : opcode w ≠ 0b0001111#7)
    (notPriv : opcode w = 0b1110011#7 → funct3 w ≠ 0b000#3) :
    rtlIllegal w = emulatorIllegal w ↔ ¬ DecodersDiffer w := by
  have arms : major w ≠ .priv ∧ major w ≠ .miscMem := by
    constructor
    · intro priv
      exact notPriv (major_priv priv).1 (major_priv priv).2
    · intro fence
      refine notFence ?_
      rw [opcode_of_major w (by rw [fence]; decide), fence]
      rfl
  have differs : DecodersDiffer w ↔ opcode w = 0b0110011#7 ∧ opIllegal w = false ∧
      (w.extractLsb' 15 5).getLsbD 4 = true ∧ (w.extractLsb' 7 5).getLsbD 4 = false ∧
        (w.extractLsb' 20 5).getLsbD 4 = false := by
    rw [opIllegal_iff]
    constructor
    · intro differ
      cases differ with
      | op code function rs1 rd rs2 => exact ⟨code, function, rs1, rd, rs2⟩
      | fence other => exact absurd other notFence
      | fenceI other => exact absurd other notFence
      | priv other function => exact absurd function (notPriv other)
    · rintro ⟨code, function, rs1, rd, rs2⟩
      exact .op code function rs1 rd rs2
  rw [differs, rtlIllegal_eq, emulatorIllegal_eq]
  by_cases known : decodeType w = .unknown
  · have illegal : (decoder w).illegal = true := by
      by_contra legal
      exact known_of_legal (by simpa using legal) arms.1 (fun fence => absurd fence arms.2) known
    rw [known, illegal]
    refine iff_of_true (by simp) ?_
    rintro ⟨code, legal, -⟩
    have arm : major w = .op := by
      unfold major
      rw [code]
      rfl
    rw [decoder, arm] at illegal
    exact Bool.noConfusion (illegal.symm.trans legal)
  · obtain ⟨plain, op⟩ := known_plain notFence notPriv known
    obtain ⟨illegal, rd, rs1, rs2⟩ := fields_of_known plain
    have type : (decodeType w == .unknown) = false := by simpa using known
    rw [illegal, rd, rs1, rs2, type, op]
    by_cases code : opcode w = 0b0110011#7
    · have body : opIllegal w = false := by
        rw [← illegal, decoder]
        have arm : major w = .op := by
          unfold major
          rw [code]
          rfl
        rw [arm]
        rfl
      have flags : hasRd (decodeType w) = true ∧ hasRs1Reg (decodeType w) = false ∧
          hasRs2Reg (decodeType w) = true := by
        have isOpType : isOp (decodeType w) = true := by rw [op, code]; rfl
        revert isOpType
        cases decodeType w <;> decide
      rw [flags.1, flags.2.1, flags.2.2, code, body]
      cases (w.extractLsb' 7 5).getLsbD 4 <;> cases (w.extractLsb' 15 5).getLsbD 4 <;>
        cases (w.extractLsb' 20 5).getLsbD 4 <;> simp
    · have other : (opcode w == 0b0110011#7) = false := by simpa using code
      rw [other, Bool.or_false]
      exact iff_of_true rfl fun all => code all.1

end

/-- The RTL and the reference model judge a word alike unless it is of one of four kinds. -/
theorem illegal_agree_iff (w : U32) : rtlIllegal w = emulatorIllegal w ↔ ¬ DecodersDiffer w := by
  by_cases fence : opcode w = 0b0001111#7
  · exact miscMem_agree_iff fence
  · by_cases priv : opcode w = 0b1110011#7 ∧ funct3 w = 0b000#3
    · exact priv_agree_iff priv.1 priv.2
    · exact plain_agree_iff fence fun system zero => priv ⟨system, zero⟩

/-- `add x1, x16, x0`: the RTL traps and the reference model executes it. -/
theorem opRs1_differs : rtlIllegal 0x000800B3#32 = true ∧ emulatorIllegal 0x000800B3#32 = false := by
  decide

end NpcMachine.Emulator
