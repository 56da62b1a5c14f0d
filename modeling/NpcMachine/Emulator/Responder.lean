/-
# Emulator.Responder -- how `drive_axi_memory` answers the core

In both clock phases the responder accepts every address and answers every data
request of the core that it drives (`Answers`).  With such a slave a memory wait is
always a load that finds the bridge busy with a fill, and EX is empty then
(`memAccessWait_idEx`).
-/
import NpcMachine.Emulator.RtlIss
import NpcMachine.Rtl.FillTiming

namespace NpcMachine.Emulator

open NpcMachine.Rtl

set_option autoImplicit false

/-- `io` accepts addresses and answers the data request of `c`. -/
structure Answers (c : Core) (io : AxiIn) : Prop where
  addr : io.arready = true
  load : c.axiMaster.dataLoadActive c.axiReq = true → io.rvalid = true ∧ io.rid = axiIdData
  store : c.axiReq.dataStoreActive = true →
    io.awready = true ∧ io.wready = true ∧ io.bvalid = true ∧ io.bid = axiIdData

theorem axiOut_of_load {c : Core} (active : c.axiMaster.dataLoadActive c.axiReq = true) :
    c.axiOut.arvalid = true ∧ c.axiOut.arid = 1#4 ∧ c.axiOut.arlen = 0#8 ∧
      c.axiOut.araddr = c.pipeline.reqLoadAddr ∧
      c.axiOut.arsize = c.pipeline.reqLoadSize.setWidth 3 := AxiMaster.out_of_load active

namespace RtlIss

variable (s : RtlIss)

/-! ## The parts of one drive -/

@[simp] theorem driveAxiMemory_top : s.driveAxiMemory.top = s.top := by
  unfold driveAxiMemory; split <;> rfl

@[simp] theorem driveAxiMemory_read : s.driveAxiMemory.read = s.read := by
  unfold driveAxiMemory; split <;> rfl

@[simp] theorem clockLow_top : s.clockLow.top = s.top := by
  simp [clockLow, waited]

@[simp] theorem clockLow_read : s.clockLow.read = s.waited.read := by
  simp [clockLow]

@[simp] theorem clockHigh_top (low : RtlIss) (top : Core) : (low.clockHigh top).top = top := by
  simp [clockHigh]

/-- The slave side after a drive: the R channel is `driveRead`'s. -/
theorem driveAxiMemory_rvalid :
    s.driveAxiMemory.ioMaster.rvalid = (s.driveRead s.top.axiOut s.acceptAddr).rvalid := by
  unfold driveAxiMemory; split <;> rfl

theorem driveAxiMemory_rid :
    s.driveAxiMemory.ioMaster.rid = (s.driveRead s.top.axiOut s.acceptAddr).rid := by
  unfold driveAxiMemory; split <;> rfl

theorem driveAxiMemory_rdata :
    s.driveAxiMemory.ioMaster.rdata = (s.driveRead s.top.axiOut s.acceptAddr).rdata := by
  unfold driveAxiMemory; split <;> rfl

theorem driveAxiMemory_rresp :
    s.driveAxiMemory.ioMaster.rresp = (s.driveRead s.top.axiOut s.acceptAddr).rresp := by
  unfold driveAxiMemory; split <;> rfl

theorem driveAxiMemory_rlast :
    s.driveAxiMemory.ioMaster.rlast = (s.driveRead s.top.axiOut s.acceptAddr).rlast := by
  unfold driveAxiMemory; split <;> rfl

theorem driveAxiMemory_answers : Answers s.top s.driveAxiMemory.ioMaster where
  addr := by
    unfold driveAxiMemory driveRead
    split_ifs <;> rfl
  load active := by
    obtain ⟨valid, id, len, -⟩ := axiOut_of_load active
    rw [driveAxiMemory_rvalid, driveAxiMemory_rid]
    simp [driveRead, valid, id, len, axiIdData]
  store active := by
    have writes : writeRequest s.top.axiOut = true := by
      simp [writeRequest, Core.axiOut, AxiMaster.out, active]
    unfold driveAxiMemory driveRead
    rw [if_pos writes]
    split_ifs <;> exact ⟨rfl, rfl, rfl, rfl⟩

/-! ## The core inside the wrapper -/

theorem clockLow_answers : Answers s.top s.clockLow.ioMaster := by
  exact s.waited.driveAxiMemory_answers

theorem clockHigh_answers (low : RtlIss) (top : Core) :
    Answers top (low.clockHigh top).ioMaster := by
  have answers := driveAxiMemory_answers { low with top := top }
  have same : (low.clockHigh top).ioMaster =
      (driveAxiMemory { low with top := top }).ioMaster := by simp [clockHigh]
  rw [same]
  exact answers

/-- The inputs of the pipeline at the next edge. -/
def pipelineIn : PipelineIn := s.top.pipelineIn s.clockLow.ioMaster

/-- A data read of a bad size fails like the load of that size. -/
theorem dataRead_eq (out : AxiOut) :
    s.dataRead out = s.memory.load out.araddr (axiSizeBytes out.arsize) 0#32 := by
  unfold dataRead
  split_ifs with none
  · rw [none]
    rfl
  · rfl

/-- A load that the bridge shows is answered at once, from the RAM. -/
theorem loadReply (active : s.top.axiMaster.dataLoadActive s.top.axiReq = true) :
    s.pipelineIn.reqLoadReady = true ∧
      s.pipelineIn.respLoadData = (s.memory.load s.top.pipeline.reqLoadAddr
        (axiSizeBytes (s.top.pipeline.reqLoadSize.setWidth 3)) 0#32).2 ∧
      s.pipelineIn.respLoadFault = axiFault (axiResp (s.memory.load s.top.pipeline.reqLoadAddr
        (axiSizeBytes (s.top.pipeline.reqLoadSize.setWidth 3)) 0#32).1) := by
  obtain ⟨valid, id, len, addr, size⟩ := axiOut_of_load active
  obtain ⟨rvalid, rid⟩ := s.clockLow_answers.load active
  have ready : s.pipelineIn.reqLoadReady = true := by
    show s.top.axiMaster.reqLoadReady s.top.axiReq s.clockLow.ioMaster = true
    simp [AxiMaster.reqLoadReady, AxiMaster.rDataBeat, active, rvalid, rid]
  have read : s.waited.dataRead s.waited.top.axiOut = s.memory.load s.top.pipeline.reqLoadAddr
      (axiSizeBytes (s.top.pipeline.reqLoadSize.setWidth 3)) 0#32 := by
    rw [dataRead_eq]
    show s.memory.load s.top.axiOut.araddr (axiSizeBytes s.top.axiOut.arsize) 0#32 = _
    rw [addr, size]
  have channel : s.waited.driveRead s.waited.top.axiOut s.waited.acceptAddr =
      { s.waited.acceptAddr with
        rvalid := true, rresp := axiResp (s.waited.dataRead s.waited.top.axiOut).1
        rdata := (s.waited.dataRead s.waited.top.axiOut).2
        rlast := true, rid := s.waited.top.axiOut.arid } := by
    have asks : (s.waited.top.axiOut.arvalid && s.waited.top.axiOut.arid == 1#4 &&
        s.waited.top.axiOut.arlen == 0#8) = true := by
      show (s.top.axiOut.arvalid && s.top.axiOut.arid == 1#4 && s.top.axiOut.arlen == 0#8) = true
      rw [valid, id, len]
      rfl
    rw [driveRead, if_pos asks]
  refine ⟨ready, ?_, ?_⟩
  · have data : s.clockLow.ioMaster.rdata = (s.waited.dataRead s.waited.top.axiOut).2 := by
      rw [clockLow, driveAxiMemory_rdata, channel]
    rw [← read, ← data]
    show s.top.axiMaster.respLoadData s.top.axiReq s.clockLow.ioMaster = _
    rw [AxiMaster.respLoadData, active, if_pos rfl]
  · have resp : s.clockLow.ioMaster.rresp =
        axiResp (s.waited.dataRead s.waited.top.axiOut).1 := by
      rw [clockLow, driveAxiMemory_rresp, channel]
    rw [← read, ← resp]
    show s.top.axiMaster.respLoadFault s.top.axiReq s.clockLow.ioMaster = _
    have beat : s.top.axiMaster.rDataBeat s.top.axiReq s.clockLow.ioMaster = true := ready
    rw [AxiMaster.respLoadFault, active, beat, Bool.true_and, Bool.true_and]

/-- Without a load on the bus there is no answer. -/
theorem loadReply_none (idle : s.top.axiMaster.dataLoadActive s.top.axiReq = false) :
    s.pipelineIn.reqLoadReady = false ∧ s.pipelineIn.respLoadFault = false := by
  constructor
  · show s.top.axiMaster.reqLoadReady s.top.axiReq s.clockLow.ioMaster = false
    simp [AxiMaster.reqLoadReady, AxiMaster.rDataBeat, idle]
  · show s.top.axiMaster.respLoadFault s.top.axiReq s.clockLow.ioMaster = false
    simp [AxiMaster.respLoadFault, idle]

theorem toggleClock_top : s.toggleClock.top = s.top.next s.clockLow.ioMaster := by
  simp [toggleClock]

theorem toggleClock_pipeline : s.toggleClock.top.pipeline = s.top.pipeline.next s.pipelineIn := by
  rw [toggleClock_top]
  rfl

theorem toggleClock_axiMaster : s.toggleClock.top.axiMaster =
    s.top.axiMaster.next s.top.axiReq s.clockLow.ioMaster := by
  rw [toggleClock_top]
  rfl

theorem toggleClock_icache : s.toggleClock.top.icache =
    s.top.icache.next (s.top.icacheIn s.clockLow.ioMaster) := by
  rw [toggleClock_top]
  rfl

/-- The core inside the wrapper runs with the answers of the low phases. -/
theorem run_top (n : Nat) :
    (s.run n).top = s.top.run (fun k => (s.run k).clockLow.ioMaster) n :=
  Machine.run_project (fun s (_ : Unit) => s.toggleClock_top) s (fun _ => ()) n

theorem toggleReset_top : s.toggleReset.top = s.top.reset.reset := by
  simp [toggleReset]

theorem toggleReset_answers : Answers s.toggleReset.top s.toggleReset.ioMaster := by
  rw [toggleReset, clockHigh_top]
  exact clockHigh_answers _ _

/-- The ten cycles of `reset` end with one. -/
theorem reset_last : s.reset = (toggleReset^[9] s.cleared).toggleReset := by
  rw [reset, show 10 = 9 + 1 from rfl, Function.iterate_succ_apply']

theorem boot_core (image : Memory) : (s.boot image).top = s.reset.top := by rw [boot]

theorem boot_ioMaster (image : Memory) : (s.boot image).ioMaster = s.reset.ioMaster := by
  rw [boot]

/-- Booting leaves the core in a reset state. -/
theorem boot_top (image : Memory) : ∃ c : Core, (s.boot image).top = c.reset := by
  rw [boot_core, reset_last, toggleReset_top]
  exact ⟨_, rfl⟩

/-- In every state the slave side answers the core, in both phases. -/
theorem run_answers (image : Memory) (n : Nat) :
    Answers ((s.boot image).run n).top ((s.boot image).run n).ioMaster ∧
      Answers ((s.boot image).run n).top ((s.boot image).run n).clockLow.ioMaster := by
  refine ⟨?_, clockLow_answers _⟩
  cases n with
  | zero =>
      have boot : Answers s.reset.top s.reset.ioMaster := by
        rw [reset_last]
        exact toggleReset_answers (toggleReset^[9] s.cleared)
      rw [run_zero, boot_core, boot_ioMaster]
      exact boot
  | succ n =>
      rw [run_succ, toggleClock, clockHigh_top]
      exact clockHigh_answers _ _

end RtlIss

/-! ## Invariants of the composition -/

/-- The invariants of the core, in every state of the composition. -/
structure CoreWf (c : Core) : Prop where
  pipeline : c.pipeline.Wf
  fetch : c.pipeline.FetchWf
  aligned : c.pipeline.Aligned
  fill : c.FillWf

theorem coreWf_run (s : RtlIss) (image : Memory) (n : Nat) :
    CoreWf ((s.boot image).run n).top := by
  obtain ⟨c, reset⟩ := s.boot_top image
  rw [RtlIss.run_top, reset]
  exact ⟨Core.wf_run c _ n, Core.fetchWf_run c _ n, Core.aligned_run c _ n,
    Core.fillWf_run c _ n⟩

/-- A fetch that is answered without a fault is a hit. -/
theorem hit_of_respFetch {c : Core} (wf : CoreWf c) {i : AxiIn}
    (answered : (c.pipelineIn i).respFetchValid = true)
    (good : (c.pipelineIn i).respFetchFault = false) : c.icache.hit (c.icacheIn i) = true := by
  have noPulse : c.icache.faultRespValid = false := good
  have noMisaligned := Core.respMisaligned_of_aligned wf.fetch wf.aligned i
  have valid : c.icache.respValid (c.icacheIn i) = true := answered
  simpa [Icache.respValid, noPulse, noMisaligned] using valid

/-- With an answering slave MEM waits only for a bridge that a fill occupies. -/
theorem wait_of_answers {c : Core} {io : AxiIn} (wf : CoreWf c) (answers : Answers c io)
    (waits : c.pipeline.memAccessWait (c.pipelineIn io) = true) :
    c.axiMaster.state ≠ .idle ∧ c.pipeline.reqLoadValid = true := by
  obtain ⟨valid, clean, -⟩ := Pipeline.memAccessWait_valid waits
  have decoded := wf.pipeline.exMem valid
  have access := waits
  simp only [Pipeline.memAccessWait, Bool.and_eq_true, Bool.or_eq_true,
    Bool.not_eq_true'] at access
  obtain ⟨-, ⟨⟨⟨reads, -⟩, outside⟩, notReady⟩ | ⟨⟨⟨writes, -⟩, outside⟩, notReady⟩⟩ := access
  · have asks : c.pipeline.reqLoadValid = true := by
      simp [Pipeline.reqLoadValid, LsuIn.reqLoadValid, outside]
      simp [Pipeline.lsu, valid, clean, reads]
    refine ⟨?_, asks⟩
    intro idle
    have active : c.axiMaster.dataLoadActive c.axiReq = true := by
      simp [AxiMaster.dataLoadActive, idle, Core.axiReq, asks]
    obtain ⟨rvalid, rid⟩ := answers.load active
    have ready : (c.pipelineIn io).reqLoadReady = true := by
      show c.axiMaster.reqLoadReady c.axiReq io = true
      simp [AxiMaster.reqLoadReady, AxiMaster.rDataBeat, active, rvalid, rid]
    rw [ready] at notReady
    contradiction
  · have noRead : c.pipeline.exMem.memRead = false :=
      decoded.memRead.trans (decoder_of_memWrite (decoded.memWrite.symm.trans writes)).1
    have active : c.axiReq.dataStoreActive = true := by
      have asks : c.pipeline.reqStoreValid = true := by
        simp [Pipeline.reqStoreValid, LsuIn.reqStoreValid, outside]
        simp [Pipeline.lsu, valid, clean, writes]
      have noLoad : c.pipeline.reqLoadValid = false := by
        simp [Pipeline.reqLoadValid, LsuIn.reqLoadValid, Pipeline.lsu, noRead]
      simp [AxiReq.dataStoreActive, Core.axiReq, asks, noLoad]
    obtain ⟨awready, wready, bvalid, bid⟩ := answers.store active
    have ready : (c.pipelineIn io).reqStoreReady = true := by
      show AxiMaster.reqStoreReady c.axiReq io = true
      simp [AxiMaster.reqStoreReady, active, awready, wready, bvalid, bid]
    rw [ready] at notReady
    contradiction

/-- So EX is empty while MEM waits: no operand and no redirect can be lost. -/
theorem idEx_of_wait {c : Core} {io : AxiIn} (wf : CoreWf c) (answers : Answers c io)
    (waits : c.pipeline.memAccessWait (c.pipelineIn io) = true) :
    c.pipeline.ifId.valid = false ∧ c.pipeline.idEx.valid = false := by
  obtain ⟨busy, -⟩ := wait_of_answers wf answers waits
  have fill : c.icache.state ≠ .idle := fun none => busy (wf.fill.bridge_idle none)
  exact ⟨wf.fill.ifId fill, wf.fill.idEx busy⟩

/-- In every reachable state of the composition and in both clock phases, a memory wait
finds EX empty. -/
theorem memAccessWait_idEx (s : RtlIss) (image : Memory) (n : Nat) :
    (((s.boot image).run n).top.pipeline.memAccessWait
        (((s.boot image).run n).top.pipelineIn ((s.boot image).run n).ioMaster) = true →
      ((s.boot image).run n).top.pipeline.idEx.valid = false) ∧
    (((s.boot image).run n).top.pipeline.memAccessWait
        (((s.boot image).run n).top.pipelineIn ((s.boot image).run n).clockLow.ioMaster) = true →
      ((s.boot image).run n).top.pipeline.idEx.valid = false) := by
  have wf := coreWf_run s image n
  have answers := RtlIss.run_answers s image n
  constructor
  · intro waits
    exact (idEx_of_wait wf answers.1 waits).2
  · intro waits
    exact (idEx_of_wait wf answers.2 waits).2

/-- The pipeline inside the composition runs from its own reset. -/
theorem RtlIss.boot_pipeline (s : RtlIss) (image : Memory) : ∃ p : Pipeline, ∀ n,
    ((s.boot image).run n).top.pipeline =
      p.reset.run (fun k => ((s.boot image).run k).pipelineIn) n := by
  obtain ⟨c, reset⟩ := s.boot_top image
  refine ⟨c.pipeline, fun n => ?_⟩
  have start : c.pipeline.reset = (s.boot image).top.pipeline := by rw [reset]; rfl
  rw [start]
  induction n with
  | zero => rfl
  | succ n ih => rw [RtlIss.run_succ, RtlIss.toggleClock_pipeline, ih, Pipeline.run_succ, ← ih]

/-- Waits do occur: a load in the last word of a line meets the fill of the next one. -/
def waitingLoad : RtlIss :=
  (default : RtlIss).boot (Memory.ofWords [0x13#32, 0x13#32, 0x13#32, 0x00002103#32])

set_option maxRecDepth 100000 in
example : (waitingLoad.run 16).top.pipeline.memAccessWait
    ((waitingLoad.run 16).top.pipelineIn (waitingLoad.run 16).ioMaster) = true := by
  decide +kernel

end NpcMachine.Emulator
