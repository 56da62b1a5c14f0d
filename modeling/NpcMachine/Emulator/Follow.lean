/-
# Emulator.Follow -- the stages behind ID against a run of the reference model

When `c` instructions have retired, WB, MEM and EX hold the instructions `c`, `c + 1`, …
of the reference model, as far as the stages are occupied (`memTurn`, `exTurn`,
`idTurn`).

* `AtWb`, `AtMem`, `AtEx`, `AtId`: a stage register holds what instruction `k` has at
  this stage;
* `Back`: the register file, WB and MEM hold what the reference model has at their turns;
* `Back.exValue`: so the operands in EX are the registers of its instruction;
* `Back.next`: one edge.
-/
import NpcMachine.Emulator.Contract
import NpcMachine.Emulator.CsrCommit

namespace NpcMachine.Rtl.Pipeline

set_option autoImplicit false

/-! ## Turns -/

variable (p : Pipeline) (c : Nat)

/-- The number of the instruction in MEM, when WB holds number `c` or nothing. -/
def memTurn : Nat := c + p.memWb.valid.toNat

def exTurn : Nat := p.memTurn c + p.exMem.valid.toNat

def idTurn : Nat := p.exTurn c + p.idEx.valid.toNat

variable {p c}

theorem le_memTurn : c ≤ p.memTurn c := Nat.le_add_right _ _

theorem exTurn_le_idTurn : p.exTurn c ≤ p.idTurn c := Nat.le_add_right _ _

theorem memTurn_of_valid (valid : p.memWb.valid = true) : p.memTurn c = c + 1 := by
  rw [memTurn, valid]
  rfl

theorem memTurn_of_empty (empty : p.memWb.valid = false) : p.memTurn c = c := by
  rw [memTurn, empty]
  rfl

theorem exTurn_of_valid (valid : p.exMem.valid = true) : p.exTurn c = p.memTurn c + 1 := by
  rw [exTurn, valid]
  rfl

theorem exTurn_of_empty (empty : p.exMem.valid = false) : p.exTurn c = p.memTurn c := by
  rw [exTurn, empty]
  rfl

theorem idTurn_of_valid (valid : p.idEx.valid = true) : p.idTurn c = p.exTurn c + 1 := by
  rw [idTurn, valid]
  rfl

theorem idTurn_of_empty (empty : p.idEx.valid = false) : p.idTurn c = p.exTurn c := by
  rw [idTurn, empty]
  rfl

theorem exTurn_succ_le : p.exTurn c ≤ p.memTurn c + 1 := by
  cases valid : p.exMem.valid with
  | true => rw [exTurn_of_valid valid]
  | false =>
      rw [exTurn_of_empty valid]
      exact Nat.le_succ _

section Next

variable {i : PipelineIn} (runs : p.wbWillHalt = false) (fine : p.memRedirect i = false)

include runs fine

/-- An edge on which MEM moves on brings every instruction one stage further. -/
theorem turns_of_goes (goes : p.memAccessWait i = false) :
    (p.next i).memTurn (p.memTurn c) = p.exTurn c ∧
      (p.next i).exTurn (p.memTurn c) = p.idTurn c := by
  obtain ⟨exMem, memWb⟩ := next_of_goes runs fine goes
  have mem : (p.next i).memTurn (p.memTurn c) = p.exTurn c := by
    rw [memTurn, memWb]
    rfl
  refine ⟨mem, ?_⟩
  rw [exTurn, mem, exMem]
  rfl

theorem turns_of_waits (waits : p.memAccessWait i = true) :
    (p.next i).memTurn (p.memTurn c) = p.memTurn c ∧
      (p.next i).exTurn (p.memTurn c) = p.exTurn c := by
  obtain ⟨exMem, memWb⟩ := next_of_waits runs fine waits
  have mem : (p.next i).memTurn (p.memTurn c) = p.memTurn c :=
    memTurn_of_empty (by rw [memWb, MemWb.clear_valid])
  refine ⟨mem, ?_⟩
  rw [exTurn, mem, exMem]
  rfl

/-- When a wait finds EX empty, the turn of EX is the one that ID had. -/
theorem exTurn_next (empty : p.memAccessWait i = true → p.idEx.valid = false) :
    (p.next i).exTurn (p.memTurn c) = p.idTurn c := by
  cases waits : p.memAccessWait i with
  | true => rw [(turns_of_waits runs fine waits).2, idTurn_of_empty (empty waits)]
  | false => exact (turns_of_goes runs fine waits).2

end Next

end NpcMachine.Rtl.Pipeline

namespace NpcMachine.Emulator

open NpcMachine.Rtl

set_option autoImplicit false

/-! ## An instruction in a stage -/

section

variable (e : EmulatorIss) (k : Nat) (v1 v2 : Word)

structure AtId (r : IfId) : Prop where
  pc : r.pc = (e.run k).hart.pc
  inst : r.inst = (e.run k).word
  fetchFault : r.fetchFault = false
  fetchMisaligned : r.fetchMisaligned = false

structure AtEx (r : IdEx) : Prop where
  pc : r.pc = (e.run k).hart.pc
  inst : r.inst = (e.run k).word
  fetchFault : r.fetchFault = false
  fetchMisaligned : r.fetchMisaligned = false

structure AtMem (r : ExMem) : Prop where
  steps : Steps e k v1 v2
  pc : r.pc = (e.run k).hart.pc
  inst : r.inst = (e.run k).word
  aluResult : r.aluResult = aluOf (e.run k).word (e.run k).hart.pc v1 v2
  rs2Data : r.rs2Data = v2
  exception : r.exception = false
  nextPc : r.nextPc = nextPcOf (e.run k).word (e.run k).hart.pc v1 v2

/-- The value for `rd` of instruction `k`. -/
def valueOf : Word :=
  resultOf (e.run k).word (e.run k).hart.pc v1 v2 (loadedOf (e.run k).word
    (loadOf (e.run k).memory (e.run k).word (e.run k).hart.pc v1 v2).2)

structure AtWb (r : MemWb) : Prop where
  steps : Steps e k v1 v2
  pc : r.pc = (e.run k).hart.pc
  inst : r.inst = (e.run k).word
  rdValue : (decoder (e.run k).word).regWrite = true → r.rdValue = valueOf e k v1 v2
  exception : r.exception = false
  nextPc : r.nextPc = nextPcOf (e.run k).word (e.run k).hart.pc v1 v2

end

/-- The register file, WB and MEM against the turns from `c` on. -/
structure Back (e : EmulatorIss) (n c : Nat) (p : Pipeline) : Prop where
  regs : ∀ r, p.regfile.read r = (e.run c).hart.reg r
  memWb : p.memWb.valid = true → ∃ v1 v2, AtWb e c v1 v2 p.memWb
  exMem : p.exMem.valid = true → p.memTurn c < n → ∃ v1 v2, AtMem e (p.memTurn c) v1 v2 p.exMem

namespace Back

variable {e : EmulatorIss} {n c : Nat} {p : Pipeline} {i : PipelineIn}

/-! ## Registers -/

/-- The registers once WB has retired. -/
theorem reg_memTurn (back : Back e n c p) (wf : p.Wf) {r : BitVec 4} (real : r ≠ 0#4) :
    (e.run (p.memTurn c)).hart.reg r =
      if p.regWen = true ∧ r = p.memWb.rd then p.memWb.rdValue else p.regfile.read r := by
  cases valid : p.memWb.valid with
  | false =>
      have silent : p.regWen = false := by simp [Pipeline.regWen, valid]
      rw [Pipeline.memTurn_of_empty valid, silent, if_neg (by simp), back.regs]
  | true =>
      obtain ⟨v1, v2, wb⟩ := back.memWb valid
      have decoded := wf.memWb valid
      have writes : p.memWb.regWrite = (decoder (e.run c).word).regWrite := by
        rw [decoded.regWrite, wb.inst]
      have number : p.memWb.rd = (decoder (e.run c).word).rd := by rw [decoded.rd, wb.inst]
      rw [Pipeline.memTurn_of_valid valid, wb.steps.reg wb.rdValue r, back.regs, number]
      refine if_congr ?_ rfl rfl
      constructor
      · rintro ⟨write, -, same⟩
        refine ⟨?_, same⟩
        have named : p.memWb.rd ≠ 0#4 := by
          rw [number, ← same]
          exact real
        simp [Pipeline.regWen, valid, writes, write, wb.exception, named]
      · rintro ⟨wen, same⟩
        simp only [Pipeline.regWen, Bool.and_eq_true, writes] at wen
        exact ⟨wen.1.1.2, real, same⟩

/-- The register file after the edge. -/
theorem next_regs (back : Back e n c p) (wf : p.Wf) (r : BitVec 4) :
    (p.next i).regfile.read r = (e.run (p.memTurn c)).hart.reg r := by
  by_cases real : r = 0#4
  · rw [real, Regfile.read_zero]
    rfl
  · rw [Pipeline.read_next_regfile p i r real, back.reg_memTurn wf real]

/-- What MEM forwards when it holds no load. -/
theorem forwardValue {k : Nat} {v1 v2 : Word} (wf : p.Wf) (valid : p.exMem.valid = true)
    (mem : AtMem e k v1 v2 p.exMem) (noRead : p.exMem.memRead = false) :
    p.exForwardValue = valueOf e k v1 v2 := by
  have decoded := wf.exMem valid
  have plain : p.exMem.csrOp = .none := by
    rw [decoded.csrOp, mem.inst]
    exact mem.steps.retires.legal.csrOp
  have reads : (decoder (e.run k).word).memRead = false := by
    rw [← mem.inst, ← decoded.memRead]
    exact noRead
  rw [Pipeline.exForwardValue, plain, if_neg (by simp), valueOf, resultOf, reads,
    decoded.jump, mem.inst, mem.pc, mem.aluResult]
  rfl

/-- The registers once MEM has retired as well, for the sources that EX can use. -/
theorem reg_exTurn (back : Back e n c p) (wf : p.Wf) (early : p.exTurn c ≤ n) {r : BitVec 4}
    (real : r ≠ 0#4) (noLoad : p.exMem.valid = true → p.exMem.regWrite = true →
      p.exMem.memRead = true → p.exMem.rd ≠ r) :
    (e.run (p.exTurn c)).hart.reg r =
      if p.exMemCanForward = true ∧ p.exMem.rd = r then p.exForwardValue
      else (e.run (p.memTurn c)).hart.reg r := by
  cases valid : p.exMem.valid with
  | false =>
      have silent : p.exMemCanForward = false := by simp [Pipeline.exMemCanForward, valid]
      rw [Pipeline.exTurn_of_empty valid, silent, if_neg (by simp)]
  | true =>
      have turn := Pipeline.exTurn_of_valid (c := c) valid
      obtain ⟨v1, v2, mem⟩ := back.exMem valid (by omega)
      have decoded := wf.exMem valid
      have writes : p.exMem.regWrite = (decoder (e.run (p.memTurn c)).word).regWrite := by
        rw [decoded.regWrite, mem.inst]
      have number : p.exMem.rd = (decoder (e.run (p.memTurn c)).word).rd := by
        rw [decoded.rd, mem.inst]
      have register := mem.steps.reg (fun _ => rfl : _ → _ = valueOf e (p.memTurn c) v1 v2) r
      rw [turn, register, ← number, ← writes]
      by_cases written : p.exMem.regWrite = true ∧ r ≠ 0#4 ∧ r = p.exMem.rd
      · obtain ⟨write, -, same⟩ := written
        have noRead : p.exMem.memRead = false := by
          by_contra reads
          exact noLoad valid write (by simpa using reads) same.symm
        have named : p.exMem.rd ≠ 0#4 := same ▸ real
        have forwards : p.exMemCanForward = true := by
          simp [Pipeline.exMemCanForward, valid, write, noRead, mem.exception, named]
        rw [if_pos ⟨write, real, same⟩, if_pos ⟨forwards, same.symm⟩,
          forwardValue wf valid mem noRead]
      · rw [if_neg written, if_neg]
        rintro ⟨forwards, same⟩
        simp only [Pipeline.exMemCanForward, Bool.and_eq_true] at forwards
        exact written ⟨forwards.1.1.1.2, real, same.symm⟩

/-- The operands in EX are the registers that its instruction reads. -/
theorem exValue (back : Back e n c p) (wf : p.Wf) (fresh : p.Fresh) (early : p.exTurn c ≤ n)
    (valid : p.idEx.valid = true) (s : Source) (uses : p.idEx.uses s = true) :
    p.exValue s = (e.run (p.exTurn c)).hart.reg (p.idEx.reg s) := by
  by_cases real : p.idEx.reg s = 0#4
  · rw [Pipeline.exValue, real, fresh.zero s valid real]
    simp [Pipeline.exSource, Hart.reg]
  · rw [back.reg_exTurn wf early real (fresh.noLoad s valid uses real),
      back.reg_memTurn wf real, Pipeline.exValue, Pipeline.exSource_eq p real]
    by_cases ahead : p.exMemCanForward = true ∧ p.exMem.rd = p.idEx.reg s
    · rw [if_pos ahead, if_pos ahead]
    · rw [if_neg ahead, if_neg ahead]
      by_cases wb : p.regWen = true ∧ p.idEx.reg s = p.memWb.rd
      · rw [if_pos wb, if_pos wb]
      · rw [if_neg wb, if_neg wb]
        rcases fresh.source s valid uses real with mem | forwards | captured
        · exact absurd mem ahead
        · exact absurd ⟨forwards.1, forwards.2.symm⟩ wb
        · exact captured

end Back

/-! ## EX -/

section Ex

variable {e : EmulatorIss} {n c : Nat} {p : Pipeline}

/-- EX computes with the operands of its instruction. -/
theorem Back.steps (back : Back e n c p) (contract : Contract e n) (cfg : e.cfg = {})
    (real : ∀ k, k < n → OpRs1Real (e.run k).word) (wf : p.Wf) (fresh : p.Fresh)
    (valid : p.idEx.valid = true) (early : p.exTurn c < n) (ex : AtEx e (p.exTurn c) p.idEx) :
    Steps e (p.exTurn c) p.exRs1Value p.exRs2Value := by
  have ctl : p.idEx.ctl = (decoder (e.run (p.exTurn c)).word).toCtl := by
    rw [(wf.idEx valid).ctl, ex.inst]
  apply contract.steps cfg real early
  · intro has
    have uses : p.idEx.uses .rs1 = true := by
      rw [IdEx.uses, ctl]
      exact has
    have value := back.exValue wf fresh (Nat.le_of_lt early) valid .rs1 uses
    rw [IdEx.reg, ctl] at value
    exact value
  · intro has
    have uses : p.idEx.uses .rs2 = true := by
      rw [IdEx.uses, ctl]
      exact has
    have value := back.exValue wf fresh (Nat.le_of_lt early) valid .rs2 uses
    rw [IdEx.reg, ctl] at value
    exact value

namespace AtEx

variable {k : Nat} (ex : AtEx e k p.idEx) (steps : Steps e k p.exRs1Value p.exRs2Value)

include ex steps

theorem legal : Legal p.idEx.inst p.idEx.pc p.exRs1Value p.exRs2Value := by
  rw [ex.inst, ex.pc]
  exact steps.retires.legal

/-- The next pc that EX computes is the one of the reference model. -/
theorem exNextPc (wf : p.Wf) (aligned : p.Aligned) (valid : p.idEx.valid = true) :
    p.exNextPc = (e.run (k + 1)).hart.pc := by
  rw [Pipeline.exNextPc_of_legal (wf.idEx valid) (aligned.idEx valid) ex.fetchFault
    ex.fetchMisaligned (ex.legal steps), ex.inst, ex.pc, steps.pc]

/-- An instruction that does not redirect goes on to the next word. -/
theorem straight (wf : p.Wf) (valid : p.idEx.valid = true) (straight : p.exRedirect = false) :
    (e.run (k + 1)).hart.pc = p.idEx.pc + 4#32 := by
  rw [steps.pc, ← ex.inst, ← ex.pc]
  exact Pipeline.nextPcOf_of_straight (wf.idEx valid) valid straight

theorem executed (wf : p.Wf) (aligned : p.Aligned) (valid : p.idEx.valid = true) :
    AtMem e k p.exRs1Value p.exRs2Value p.executed := by
  have decoded := wf.idEx valid
  have fine : p.exFault = none := Pipeline.exFault_of_legal decoded (aligned.idEx valid)
    ex.fetchFault ex.fetchMisaligned (ex.legal steps)
  refine ⟨steps, ex.pc, ex.inst, ?_, rfl, ?_, ?_⟩
  · show p.exAluResult = _
    rw [Pipeline.exAluResult_eq decoded, ex.inst, ex.pc]
  · show p.exException = false
    rw [Pipeline.exException, fine]
    rfl
  · show p.exNextPc = _
    rw [ex.exNextPc steps wf aligned valid, steps.pc]

end AtEx

end Ex

/-! ## MEM -/

namespace AtMem

variable {e : EmulatorIss} {k : Nat} {v1 v2 : Word} {s : RtlIss}
  (mem : AtMem e k v1 v2 s.top.pipeline.exMem) (valid : s.top.pipeline.exMem.valid = true)
  (wf : s.top.pipeline.Wf)

include mem valid wf

theorem lsu_eq : s.top.pipeline.lsu =
    ⟨aluOf (e.run k).word (e.run k).hart.pc v1 v2, v2, (decoder (e.run k).word).memRead,
      (decoder (e.run k).word).memWrite, (decoder (e.run k).word).memSize,
      (decoder (e.run k).word).memSext⟩ := by
  have decoded := wf.exMem valid
  simp [Pipeline.lsu, valid, mem.exception, mem.aluResult, mem.rs2Data, decoded.memRead,
    decoded.memWrite, decoded.memSize, decoded.memSext, mem.inst]

/-- The store that MEM asks for is that of its instruction. -/
theorem storeRequest_eq : storeRequest s.top.pipeline =
    storeOf (e.run k).word (e.run k).hart.pc v1 v2 := by
  have outside := mem.steps.retires.access
  unfold storeRequest storeOf
  simp only [Pipeline.reqStoreValid, Pipeline.reqStoreAddr, Pipeline.reqStoreSize,
    Pipeline.reqStoreData, mem.lsu_eq valid wf, LsuIn.reqStoreValid, LsuIn.clintIsAccess,
    LsuIn.memAddr, LsuIn.storeData]
  cases writes : (decoder (e.run k).word).memWrite with
  | false => rfl
  | true =>
      rw [outside (Or.inr writes)]
      rfl

variable (memory : s.memory = (e.run (k + 1)).memory)

include memory

/-- The RAM answers a load as the reference model's does. -/
theorem load_eq (reads : (decoder (e.run k).word).memRead = true) :
    s.memory.load s.top.pipeline.reqLoadAddr
        (axiSizeBytes (s.top.pipeline.reqLoadSize.setWidth 3)) 0#32 =
      loadOf (e.run k).memory (e.run k).word (e.run k).hart.pc v1 v2 := by
  have noStore : storeOf (e.run k).word (e.run k).hart.pc v1 v2 = none := by
    simp [storeOf, (decoder_of_memRead reads).1]
  rw [memory, mem.steps.memory, noStore, Pipeline.reqLoadAddr, Pipeline.reqLoadSize,
    mem.lsu_eq valid wf]
  rfl

/-- A store succeeds as it does in the reference model. -/
theorem store_ok (writes : (decoder (e.run k).word).memWrite = true) :
    (s.memory.store s.top.pipeline.reqStoreAddr
      (axiSizeBytes (s.top.pipeline.reqStoreSize.setWidth 3))
      s.top.pipeline.reqStoreData).1 = .ok := by
  have cfg : s.memory.cfg = (e.run k).memory.cfg := by
    rw [memory, mem.steps.memory, performOption_cfg]
  rw [Memory.store_result s.memory cfg, Pipeline.reqStoreAddr, Pipeline.reqStoreSize,
    Pipeline.reqStoreData, mem.lsu_eq valid wf]
  exact mem.steps.retires.store writes

theorem memFault_none : s.top.pipeline.memFault s.pipelineIn = none := by
  have decoded := wf.exMem valid
  have memRead : s.top.pipeline.exMem.memRead = (decoder (e.run k).word).memRead := by
    rw [decoded.memRead, mem.inst]
  have memWrite : s.top.pipeline.exMem.memWrite = (decoder (e.run k).word).memWrite := by
    rw [decoded.memWrite, mem.inst]
  have silentLoad : s.pipelineIn.respLoadMisaligned = false := rfl
  have silentStore : s.pipelineIn.respStoreMisaligned = false := rfl
  cases reads : (decoder (e.run k).word).memRead with
  | true =>
      have answer := mem.load_eq valid wf memory reads
      have ok := mem.steps.retires.load reads
      have aligned : s.top.pipeline.lsu.loadMisaligned = false :=
        aligned_of_load (m := s.memory) (by rw [answer]; exact ok)
      have good : s.pipelineIn.respLoadFault = false := by
        cases active : s.top.axiMaster.dataLoadActive s.top.axiReq with
        | false => exact (s.loadReply_none active).2
        | true =>
            rw [(s.loadReply active).2.2, answer, ok]
            rfl
      have noWrite := (decoder_of_memRead reads).1
      simp [Pipeline.memFault, mem.exception, memRead, memWrite, reads, noWrite, aligned, good,
        silentLoad]
  | false =>
      cases writes : (decoder (e.run k).word).memWrite with
      | false => simp [Pipeline.memFault, mem.exception, memRead, memWrite, reads, writes]
      | true =>
          have ok := mem.store_ok valid wf memory writes
          have aligned := aligned_of_store ok
          have good : s.pipelineIn.respStoreFault = false := by
            cases asks : s.top.pipeline.reqStoreValid with
            | false => exact s.storeReply_none wf asks
            | true =>
                rw [(s.storeReply wf asks).2, ok]
                rfl
          simp [Pipeline.memFault, mem.exception, memRead, memWrite, reads, writes, aligned, good,
            silentStore]

theorem fine : s.top.pipeline.memRedirect s.pipelineIn = false := by
  by_contra faults
  rw [Bool.not_eq_false, Pipeline.memRedirect_iff, mem.memFault_none valid wf memory] at faults
  exact absurd faults.2.2 (by simp)

/-- When MEM does not wait, WB gets the value that the reference model writes. -/
theorem accessed (goes : s.top.pipeline.memAccessWait s.pipelineIn = false) :
    AtWb e k v1 v2 (s.top.pipeline.accessed s.pipelineIn) := by
  have decoded := wf.exMem valid
  have fine := mem.fine valid wf memory
  refine ⟨mem.steps, mem.pc, mem.inst, fun _ => ?_, ?_, ?_⟩
  · show s.top.pipeline.memStageRdValue s.pipelineIn = _
    have memRead : s.top.pipeline.exMem.memRead = (decoder (e.run k).word).memRead := by
      rw [decoded.memRead, mem.inst]
    cases reads : (decoder (e.run k).word).memRead with
    | false =>
        rw [Pipeline.memStageRdValue, memRead, reads, if_neg (by simp)]
        exact Back.forwardValue wf valid mem (memRead.trans reads)
    | true =>
        have answer := mem.load_eq valid wf memory reads
        have ok := mem.steps.retires.load reads
        have aligned : s.top.pipeline.lsu.loadMisaligned = false :=
          aligned_of_load (m := s.memory) (by rw [answer]; exact ok)
        have outside : s.top.pipeline.lsu.clintIsAccess = false := by
          rw [LsuIn.clintIsAccess, LsuIn.memAddr, mem.lsu_eq valid wf]
          exact mem.steps.retires.access (Or.inl reads)
        have noWrite : s.top.pipeline.exMem.memWrite = false := by
          rw [decoded.memWrite, mem.inst]
          exact (decoder_of_memRead reads).1
        have ready : s.pipelineIn.reqLoadReady = true := by
          simpa [Pipeline.memAccessWait, valid, mem.exception, memRead, reads, noWrite, aligned,
            outside] using goes
        have active : s.top.axiMaster.dataLoadActive s.top.axiReq = true := by
          by_contra idle
          rw [Bool.not_eq_true] at idle
          rw [(s.loadReply_none idle).1] at ready
          exact Bool.noConfusion ready
        rw [Pipeline.memStageRdValue, memRead, reads, if_pos rfl, Pipeline.loadFinalData,
          LsuIn.loadFinalData, outside, if_neg (by simp), (s.loadReply active).2.1, answer,
          mem.lsu_eq valid wf, valueOf, resultOf, if_pos reads]
        rfl
  · rw [Pipeline.accessed_exception fine valid]
    exact mem.exception
  · rw [Pipeline.accessed_nextPc fine]
    exact mem.nextPc

end AtMem

/-! ## One edge -/

namespace Back

variable {e : EmulatorIss} {n c : Nat} {s : RtlIss}

/-- While the next instruction to retire is one of the first `n`, the core neither halts
nor traps. -/
theorem control (back : Back e n c s.top.pipeline) (wf : s.top.pipeline.Wf)
    (early : s.top.pipeline.memTurn c < n)
    (memory : s.memory = (e.run (s.top.pipeline.exTurn c)).memory) :
    s.top.pipeline.wbWillHalt = false ∧ s.top.pipeline.memRedirect s.pipelineIn = false := by
  constructor
  · by_contra halts
    rw [Bool.not_eq_false] at halts
    obtain ⟨valid, raised, -⟩ := Pipeline.wbWillHalt_valid halts
    obtain ⟨v1, v2, wb⟩ := back.memWb valid
    rw [wb.exception] at raised
    exact Bool.noConfusion raised
  · cases valid : s.top.pipeline.exMem.valid with
    | false => simp [Pipeline.memRedirect, Pipeline.memNewException, valid]
    | true =>
        obtain ⟨v1, v2, mem⟩ := back.exMem valid early
        rw [Pipeline.exTurn_of_valid valid] at memory
        exact mem.fine valid wf memory

/-- One edge, by which WB retires. -/
theorem next (back : Back e n c s.top.pipeline) (contract : Contract e n) (cfg : e.cfg = {})
    (real : ∀ k, k < n → OpRs1Real (e.run k).word) (wf : s.top.pipeline.Wf)
    (aligned : s.top.pipeline.Aligned) (fresh : s.top.pipeline.Fresh)
    (early : s.top.pipeline.memTurn c < n)
    (memory : s.memory = (e.run (s.top.pipeline.exTurn c)).memory)
    (ex : s.top.pipeline.idEx.valid = true → s.top.pipeline.exTurn c < n →
      AtEx e (s.top.pipeline.exTurn c) s.top.pipeline.idEx) :
    Back e n (s.top.pipeline.memTurn c) (s.top.pipeline.next s.pipelineIn) := by
  obtain ⟨runs, fine⟩ := back.control wf early memory
  cases waits : s.top.pipeline.memAccessWait s.pipelineIn with
  | true =>
      obtain ⟨exMem, memWb⟩ := Pipeline.next_of_waits runs fine waits
      obtain ⟨turn, -⟩ := Pipeline.turns_of_waits (c := c) runs fine waits
      refine ⟨back.next_regs wf, by simp [memWb], ?_⟩
      rw [turn, exMem]
      exact back.exMem
  | false =>
      obtain ⟨exMem, memWb⟩ := Pipeline.next_of_goes runs fine waits
      obtain ⟨turn, -⟩ := Pipeline.turns_of_goes (c := c) runs fine waits
      refine ⟨back.next_regs wf, ?_, ?_⟩
      · rw [memWb]
        intro valid
        obtain ⟨v1, v2, mem⟩ := back.exMem valid early
        rw [Pipeline.exTurn_of_valid valid] at memory
        exact ⟨v1, v2, mem.accessed valid wf memory waits⟩
      · rw [turn, exMem]
        intro valid inside
        have steps := back.steps contract cfg real wf fresh valid inside (ex valid inside)
        exact ⟨_, _, (ex valid inside).executed steps wf aligned valid⟩

end Back

end NpcMachine.Emulator
