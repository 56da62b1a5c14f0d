/-
# Emulator.ClintAccess -- loads and stores in the CLINT window

MEM checks the alignment of every access and reads the CLINT for any size.  The reference
model tests the size alone: it takes every narrow access for misaligned and checks no
alignment of a word.

* `clintAgrees_iff`: the two agree on an access in the window, and trap when it is
  misaligned and only then, exactly for the aligned words and the halfwords at odd
  addresses.
-/
import NpcMachine.Emulator.ClintAgree
import NpcMachine.Emulator.DatapathAgree
import NpcMachine.Rtl.ClintRead

namespace NpcMachine.Emulator

open NpcMachine.Rtl NpcMachine.Machine

set_option autoImplicit false

/-! ## The access -/

/-- MEM of the core and the reference model are at one load or store in the window, with
one counter value. -/
structure ClintAccess (c : Core) (s : EmulatorIss) : Prop where
  valid : c.pipeline.exMem.valid = true
  quiet : c.pipeline.exMem.exception = false
  decoded : c.pipeline.exMem.Decoded
  accepted : emulatorIllegal c.pipeline.exMem.inst = false
  kind : (decoder c.pipeline.exMem.inst).memRead = true ∨
    (decoder c.pipeline.exMem.inst).memWrite = true
  addr : c.pipeline.exMem.aluResult = s.hart.readReg (decode c.pipeline.exMem.inst).rs1 +
    (decode c.pipeline.exMem.inst).imm
  window : Rtl.inClint c.pipeline.exMem.aluResult = true
  map : SameMap s
  time : c.pipeline.clint.mtime = s.clint.time

/-- The cause of a misaligned access. -/
def misalignedCause (w : U32) : U32 :=
  if (decoder w).memRead then causeLoadMisaligned else causeStoreMisaligned

/-- What the two sides are to have in common, and the rule for both. -/
structure ClintAgrees (c : Core) (i : AxiIn) (s : EmulatorIss) : Prop where
  traps : c.pipeline.memException (c.pipelineIn i) =
    (s.execute (decode c.pipeline.exMem.inst)).2.exception
  cause : (s.execute (decode c.pipeline.exMem.inst)).2.exception = true →
    c.pipeline.memCause (c.pipelineIn i) = (s.execute (decode c.pipeline.exMem.inst)).2.cause
  value : (decoder c.pipeline.exMem.inst).memRead = true →
    (s.execute (decode c.pipeline.exMem.inst)).2.exception = false →
      c.pipeline.memStageRdValue (c.pipelineIn i) =
        (s.execute (decode c.pipeline.exMem.inst)).2.rdValue
  misaligned : Memory.sizeMisaligned c.pipeline.exMem.aluResult
      (accessSize (decode c.pipeline.exMem.inst).type) = true →
    (c.pipeline.memException (c.pipelineIn i) = true ∧
      c.pipeline.memCause (c.pipelineIn i) = misalignedCause c.pipeline.exMem.inst) ∧
    (s.execute (decode c.pipeline.exMem.inst)).2.exception = true ∧
      (s.execute (decode c.pipeline.exMem.inst)).2.cause =
        misalignedCause c.pipeline.exMem.inst
  aligned : Memory.sizeMisaligned c.pipeline.exMem.aluResult
      (accessSize (decode c.pipeline.exMem.inst).type) = false →
    c.pipeline.memException (c.pipelineIn i) = false ∧
      (s.execute (decode c.pipeline.exMem.inst)).2.exception = false

/-- The accesses that both sides treat alike: aligned words and odd halfwords. -/
def ClintFits (size addr : U32) : Prop :=
  (size = 4#32 ∧ Memory.sizeMisaligned addr size = false) ∨
    (size = 2#32 ∧ Memory.sizeMisaligned addr size = true)

instance (size addr : U32) : Decidable (ClintFits size addr) :=
  inferInstanceAs (Decidable (_ ∨ _))

/-! ## MEM -/

section

variable {c : Core} {s : EmulatorIss}

/-- A load or store word is one of the eight types. -/
theorem base_of_access {w : U32} (accepted : emulatorIllegal w = false)
    (kind : (decoder w).memRead = true ∨ (decoder w).memWrite = true) :
    isBase (decodeType w) = true ∧ reservedReg (decode w) = false := by
  rw [emulatorIllegal, Bool.or_eq_false_iff] at accepted
  have known : decodeType w ≠ .unknown := by
    have type : (decodeType w == .unknown) = false := accepted.1
    simpa using type
  have arm : major w = .load ∨ major w = .store := by
    simpa [decoder_memRead, decoder_memWrite] using kind
  have code : opcode w = 0b0000011#7 ∨ opcode w = 0b0100011#7 := by
    rcases arm with load | store
    · left
      rw [opcode_of_major w (by rw [load]; decide), load]
      rfl
    · right
      rw [opcode_of_major w (by rw [store]; decide), store]
      rfl
  have plain := known_plain (by rcases code with op | op <;> rw [op] <;> decide)
    (by rcases code with op | op <;> rw [op] <;> intro never <;> contradiction) known
  refine ⟨?_, accepted.2⟩
  rcases plain.1 with base | csr
  · exact base
  · obtain ⟨-, op, -⟩ := decoder_of_csrType csr
    have csrOp : (decoder w).csrOp ≠ .none := by rwa [op]
    have none := decoder_of_csrOp csrOp
    rcases kind with reads | writes
    · exact absurd (none.1.symm.trans reads) (by decide)
    · exact absurd (none.2.symm.trans writes) (by decide)

theorem access_lsu (access : ClintAccess c s) :
    c.pipeline.lsu.memRead = (decoder c.pipeline.exMem.inst).memRead ∧
      c.pipeline.lsu.memWrite = (decoder c.pipeline.exMem.inst).memWrite ∧
      c.pipeline.lsu.memSize = (decoder c.pipeline.exMem.inst).memSize := by
  refine ⟨?_, ?_, access.decoded.memSize⟩
  · show (c.pipeline.exMem.valid && c.pipeline.exMem.memRead && !c.pipeline.exMem.exception) = _
    rw [access.valid, access.quiet, access.decoded.memRead, Bool.true_and, Bool.not_false,
      Bool.and_true]
  · show (c.pipeline.exMem.valid && c.pipeline.exMem.memWrite && !c.pipeline.exMem.exception) = _
    rw [access.valid, access.quiet, access.decoded.memWrite, Bool.true_and, Bool.not_false,
      Bool.and_true]

/-- The size code of a load or store. -/
theorem access_size {w : U32} (base : isBase (decodeType w) = true)
    (kind : (decoder w).memRead = true ∨ (decoder w).memWrite = true) :
    (decoder w).memSize ≠ 0b11#2 ∧
      axiSizeBytes ((decoder w).memSize.setWidth 3) = accessSize (decode w).type := by
  have ctl := decoder_of_base base
  have kind' : (control (decodeType w)).memRead = true ∨ (control (decodeType w)).memWrite = true :=
    kind.imp (fun reads => (congrArg Control.memRead ctl).symm.trans reads)
      fun writes => (congrArg Control.memWrite ctl).symm.trans writes
  have size : (decoder w).memSize = (control (decodeType w)).memSize := congrArg Control.memSize ctl
  refine ⟨?_, accessSize_load base kind'⟩
  rw [size]
  revert kind'
  cases decodeType w <;> decide

theorem access_memFault (access : ClintAccess c s) (i : AxiIn) :
    c.pipeline.memFault (c.pipelineIn i) =
      if Memory.sizeMisaligned c.pipeline.exMem.aluResult
          (accessSize (decode c.pipeline.exMem.inst).type) then
        some (misalignedCause c.pipeline.exMem.inst)
      else none := by
  obtain ⟨reads, writes, code⟩ := access_lsu access
  obtain ⟨noLoadFault, noStoreFault⟩ := Core.clint_noFault (c := c) access.window i
  obtain ⟨base, -⟩ := base_of_access access.accepted access.kind
  obtain ⟨sized, bytes⟩ := access_size base access.kind
  have off : c.pipeline.lsu.addrMisaligned = Memory.sizeMisaligned c.pipeline.exMem.aluResult
      (accessSize (decode c.pipeline.exMem.inst).type) := by
    rw [addrMisaligned_eq _ (by rwa [code]), code, bytes]
    rfl
  have noLoad : (c.pipelineIn i).respLoadMisaligned = false := rfl
  have noStore : (c.pipelineIn i).respStoreMisaligned = false := rfl
  rw [Pipeline.memFault, access.quiet, access.decoded.memRead, access.decoded.memWrite,
    LsuIn.loadMisaligned, LsuIn.storeMisaligned, reads, writes, off, noLoadFault, noStoreFault,
    noLoad, noStore, misalignedCause]
  have either := access.kind
  revert either
  cases (decoder c.pipeline.exMem.inst).memRead <;>
    cases (decoder c.pipeline.exMem.inst).memWrite <;>
      cases Memory.sizeMisaligned c.pipeline.exMem.aluResult
        (accessSize (decode c.pipeline.exMem.inst).type) <;> intro either <;>
          first | rfl | simp at either

/-- An aligned load gets the addressed half of the counter. -/
theorem access_value (access : ClintAccess c s) (i : AxiIn)
    (reads : (decoder c.pipeline.exMem.inst).memRead = true) :
    s.clint.load c.pipeline.exMem.aluResult 4#32 =
      some (c.pipeline.memStageRdValue (c.pipelineIn i)) := by
  obtain ⟨lsuReads, lsuWrites, -⟩ := access_lsu access
  have noWrite := (decoder_of_memRead reads).1
  have window : c.pipeline.lsu.clintIsAccess = true := access.window
  have valid : c.pipeline.lsu.clintReqValid = true := by
    rw [LsuIn.clintReqValid, lsuReads, reads, window]
    rfl
  have wen : c.pipeline.lsu.clintReqWen = false := by
    rw [LsuIn.clintReqWen, lsuWrites, noWrite]
  have memRead : c.pipeline.exMem.memRead = true := by rw [access.decoded.memRead, reads]
  have inside : s.clint.cfg.inClint c.pipeline.exMem.aluResult = true := by
    rw [access.map.clint, access.map.inClint, access.window]
  have offset : c.pipeline.exMem.aluResult - s.clint.cfg.clintBase =
      Rtl.Clint.offset c.pipeline.exMem.aluResult := by
    rw [access.map.clint, access.map.base]
    rfl
  have addr : c.pipeline.lsu.memAddr = c.pipeline.exMem.aluResult := rfl
  rw [Clint.load, inside, Bool.not_true, if_neg (by decide), if_neg (by decide), offset,
    Pipeline.memStageRdValue, memRead, if_pos rfl, Pipeline.loadFinalData, LsuIn.loadFinalData,
    window, if_pos rfl, Pipeline.clintRdata, Rtl.Clint.respRdata, valid, wen, addr,
    Rtl.Clint.isMtime, Rtl.Clint.isMtimeh, ← access.time]
  simp only [beq_iff_eq]
  have low : Clint.mtimeOffset = clintMtimeOffset := rfl
  have high : Clint.mtimehOffset = clintMtimehOffset := rfl
  rw [low, high, Bool.not_false, Bool.and_true, if_pos rfl]
  split_ifs <;> rfl

/-! ## The reference model -/

theorem access_execute (access : ClintAccess c s) :
    ((decoder c.pipeline.exMem.inst).memRead = true ∧
      s.execute (decode c.pipeline.exMem.inst) =
        s.executeLoad (decode c.pipeline.exMem.inst) c.pipeline.exMem.aluResult) ∨
    ((decoder c.pipeline.exMem.inst).memRead = false ∧
      s.execute (decode c.pipeline.exMem.inst) =
        s.executeStore (decode c.pipeline.exMem.inst) c.pipeline.exMem.aluResult
          (s.hart.readReg (decode c.pipeline.exMem.inst).rs2)) := by
  obtain ⟨base, checked⟩ := base_of_access access.accepted access.kind
  have ctl := decoder_of_base base
  have typed : (decode c.pipeline.exMem.inst).type = decodeType c.pipeline.exMem.inst := rfl
  have reads : (decoder c.pipeline.exMem.inst).memRead =
      (control (decodeType c.pipeline.exMem.inst)).memRead := congrArg Control.memRead ctl
  have writes : (decoder c.pipeline.exMem.inst).memWrite =
      (control (decodeType c.pipeline.exMem.inst)).memWrite := congrArg Control.memWrite ctl
  have kind := access.kind
  rw [reads, writes] at kind
  rw [reads, EmulatorIss.execute, checked, typed, access.addr]
  revert kind
  cases decodeType c.pipeline.exMem.inst with
  | lb | lh | lw | lbu | lhu => exact fun _ => .inl ⟨rfl, rfl⟩
  | sb | sh | sw => exact fun _ => .inr ⟨rfl, rfl⟩
  | _ =>
      intro kind
      exact absurd kind (by decide)

/-- The reference model traps on every access that is not a word. -/
theorem execute_clint (access : ClintAccess c s) (i : AxiIn) :
    (s.execute (decode c.pipeline.exMem.inst)).2.exception =
        (accessSize (decode c.pipeline.exMem.inst).type != 4#32) ∧
      (accessSize (decode c.pipeline.exMem.inst).type ≠ 4#32 →
        (s.execute (decode c.pipeline.exMem.inst)).2.cause =
          misalignedCause c.pipeline.exMem.inst) ∧
      ((decoder c.pipeline.exMem.inst).memRead = true →
        accessSize (decode c.pipeline.exMem.inst).type = 4#32 →
          (s.execute (decode c.pipeline.exMem.inst)).2.rdValue =
            c.pipeline.memStageRdValue (c.pipelineIn i)) := by
  have window : s.cfg.inClint c.pipeline.exMem.aluResult = true := by
    rw [access.map.inClint, access.window]
  rcases access_execute access with ⟨reads, leaves⟩ | ⟨noRead, leaves⟩
  · rw [misalignedCause, reads, if_pos rfl, leaves, EmulatorIss.executeLoad, EmulatorIss.loadMem,
      if_pos window]
    by_cases word : accessSize (decode c.pipeline.exMem.inst).type = 4#32
    · have value := access_value access i reads
      have plain : ∀ t : InstType, accessSize t = 4#32 → ∀ v, EmulatorIss.loadValue t v = v := by
        intro t full v
        cases t <;> first | rfl | exact absurd full (by decide)
      rw [if_neg (not_not_intro word)]
      simp only [word, value]
      exact ⟨rfl, fun other => absurd rfl other, fun _ _ => plain _ word _⟩
    · have narrow : (accessSize (decode c.pipeline.exMem.inst).type != 4#32) = true := by
        simpa using word
      rw [if_pos word, narrow]
      exact ⟨rfl, fun _ => rfl, fun _ full => absurd full word⟩
  · rw [misalignedCause, noRead, if_neg (by decide : ¬ false = true), leaves,
      EmulatorIss.executeStore, EmulatorIss.storeMem, if_pos window]
    by_cases word : accessSize (decode c.pipeline.exMem.inst).type = 4#32
    · have inside : s.clint.cfg.inClint c.pipeline.exMem.aluResult = true := by
        rw [access.map.clint, access.map.inClint, access.window]
      rw [if_neg (not_not_intro word), word]
      cases stored : s.clint.store c.pipeline.exMem.aluResult 4#32
          (s.hart.readReg (decode c.pipeline.exMem.inst).rs2) with
      | none =>
          rw [Clint.store, inside] at stored
          split_ifs at stored
          contradiction
      | some clint => exact ⟨rfl, fun other => absurd rfl other, fun never => Bool.noConfusion never⟩
    · have narrow : (accessSize (decode c.pipeline.exMem.inst).type != 4#32) = true := by
        simpa using word
      rw [if_pos word, narrow]
      exact ⟨rfl, fun _ => rfl, fun never => Bool.noConfusion never⟩

/-! ## Where they agree -/

theorem size_cases {w : U32} (base : isBase (decodeType w) = true)
    (kind : (decoder w).memRead = true ∨ (decoder w).memWrite = true) :
    accessSize (decode w).type = 1#32 ∨ accessSize (decode w).type = 2#32 ∨
      accessSize (decode w).type = 4#32 := by
  have ctl := decoder_of_base base
  have kind' : (control (decodeType w)).memRead = true ∨ (control (decodeType w)).memWrite = true :=
    kind.imp (fun reads => (congrArg Control.memRead ctl).symm.trans reads)
      fun writes => (congrArg Control.memWrite ctl).symm.trans writes
  have typed : (decode w).type = decodeType w := rfl
  rw [typed]
  revert kind'
  cases decodeType w <;> decide

/-- The two sides treat an access alike, and as the alignment rule asks, exactly when it is
an aligned word or a halfword at an odd address. -/
theorem clintAgrees_iff (access : ClintAccess c s) (i : AxiIn) : ClintAgrees c i s ↔
    ClintFits (accessSize (decode c.pipeline.exMem.inst).type) c.pipeline.exMem.aluResult := by
  obtain ⟨base, -⟩ := base_of_access access.accepted access.kind
  obtain ⟨traps, cause, value⟩ := execute_clint access i
  have fault := access_memFault access i
  have exception : c.pipeline.memException (c.pipelineIn i) = Memory.sizeMisaligned
      c.pipeline.exMem.aluResult (accessSize (decode c.pipeline.exMem.inst).type) := by
    rw [Pipeline.memException, fault, access.quiet]
    split_ifs with off
    · rw [off]
      rfl
    · rw [Bool.not_eq_true] at off
      rw [off]
      rfl
  have raised (off : Memory.sizeMisaligned c.pipeline.exMem.aluResult
      (accessSize (decode c.pipeline.exMem.inst).type) = true) :
      c.pipeline.memCause (c.pipelineIn i) = misalignedCause c.pipeline.exMem.inst := by
    rw [Pipeline.memCause, fault, if_pos off]
    rfl
  constructor
  · intro agrees
    have same := agrees.traps
    rw [exception, traps] at same
    rcases size_cases base access.kind with byte | half | word
    · have aligned : Memory.sizeMisaligned c.pipeline.exMem.aluResult 1#32 = false := by
        have zero : c.pipeline.exMem.aluResult &&& (1#32 - 1#32) = 0#32 := BitVec.and_zero
        rw [Memory.sizeMisaligned, zero]
        rfl
      rw [byte, aligned] at same
      exact absurd same (by decide)
    · rw [half] at same ⊢
      exact .inr ⟨rfl, same⟩
    · rw [word] at same ⊢
      exact .inl ⟨rfl, same⟩
  · intro fits
    have size : (accessSize (decode c.pipeline.exMem.inst).type != 4#32) = Memory.sizeMisaligned
        c.pipeline.exMem.aluResult (accessSize (decode c.pipeline.exMem.inst).type) := by
      rcases fits with ⟨word, aligned⟩ | ⟨half, off⟩
      · rw [aligned, word]
        rfl
      · rw [off, half]
        rfl
    have narrow (off : Memory.sizeMisaligned c.pipeline.exMem.aluResult
        (accessSize (decode c.pipeline.exMem.inst).type) = true) :
        accessSize (decode c.pipeline.exMem.inst).type ≠ 4#32 := by
      rw [off] at size
      simpa using size
    constructor
    · rw [exception, traps, size]
    · intro trapped
      rw [traps, size] at trapped
      rw [raised trapped, cause (narrow trapped)]
    · intro reads quiet
      rw [traps] at quiet
      exact (value reads (by simpa using quiet)).symm
    · intro off
      rw [exception, traps, size]
      exact ⟨⟨off, raised off⟩, off, cause (narrow off)⟩
    · intro aligned
      rw [exception, traps, size]
      exact ⟨aligned, aligned⟩

end

/-! ## A load alone in MEM -/

/-- A core whose MEM holds a word that EX computed from the registers of a hart. -/
def memAt (inst : U32) (h : Hart) : Core :=
  { Core.reset default with
    pipeline := { Pipeline.reset default with exMem := (exAt inst h).executed } }

/-- After reset, with one value in all registers. -/
def filled (value : U32) : EmulatorIss :=
  { EmulatorIss.create {} with hart := { Hart.reset 0x20000000#32 with x := fun _ => value } }

theorem clintAccess_memAt {inst value : U32}
    (fetched : (exAt inst (filled value).hart).exException = false)
    (accepted : emulatorIllegal inst = false)
    (kind : (decoder inst).memRead = true ∨ (decoder inst).memWrite = true)
    (addr : (exAt inst (filled value).hart).exAluResult =
      (filled value).hart.readReg (decode inst).rs1 + (decode inst).imm)
    (window : Rtl.inClint (exAt inst (filled value).hart).exAluResult = true) :
    ClintAccess (memAt inst (filled value).hart) (filled value) where
  valid := rfl
  quiet := fetched
  decoded := Pipeline.executed_decoded ⟨rfl, rfl, rfl⟩
  accepted := accepted
  kind := kind
  addr := addr
  window := window
  map := ⟨rfl, rfl, rfl⟩
  time := rfl

/-- `lw x1, 0(x2)` of `mtime`. -/
theorem clintAgrees_lw :
    ClintAgrees (memAt 0x00012083#32 (filled 0x0200BFF8#32).hart) nopBeats
        (filled 0x0200BFF8#32) ↔ ClintFits 4#32 0x0200BFF8#32 :=
  clintAgrees_iff (clintAccess_memAt (by decide) (by decide) (by decide) (by decide) (by decide))
    nopBeats

/-- `lb x1, 0(x2)` of the low byte of `mtime`: the reference model traps and MEM loads. -/
theorem narrowClint_differs :
    ClintAccess (memAt 0x00010083#32 (filled 0x0200BFF8#32).hart) (filled 0x0200BFF8#32) ∧
      ((memAt 0x00010083#32 (filled 0x0200BFF8#32).hart).pipeline.memException
        ((memAt 0x00010083#32 (filled 0x0200BFF8#32).hart).pipelineIn nopBeats)) = false ∧
      ((filled 0x0200BFF8#32).execute (decode 0x00010083#32)).2.exception = true ∧
      ¬ ClintAgrees (memAt 0x00010083#32 (filled 0x0200BFF8#32).hart) nopBeats
        (filled 0x0200BFF8#32) :=
  ⟨clintAccess_memAt (by decide) (by decide) (by decide) (by decide) (by decide), by decide,
    by decide, fun agrees => absurd agrees.traps (by decide)⟩

end NpcMachine.Emulator
