/-
# Emulator.StoreOrder -- the RAM as a sequence of stores

The responder performs a store request at the end of the cycle before the core
accepts it, and again in that cycle.  The second time changes nothing, a faulted
request changes nothing either, and the lanes that the bridge shifts come back in
place.  So the RAM after `n` cycles is the image with the first `n + 1` cycles' accepted
stores performed in order (`memory_run`); a store commits one cycle after that.
-/
import NpcMachine.Emulator.Responder
import NpcMachine.Rtl.StoreCommit
import NpcMachine.Machine.Bits

namespace NpcMachine.Emulator

open NpcMachine.Rtl

set_option autoImplicit false

/-! ## Store operations -/

/-- A store of the low bytes of a register; `size` is the code of `mem_size`. -/
structure StoreOp where
  addr : Word
  size : BitVec 2
  data : Word
  deriving DecidableEq, Repr

def StoreOp.perform (op : StoreOp) (m : Memory) : Memory :=
  (m.store op.addr (axiSizeBytes (op.size.setWidth 3)) op.data).2

def performAll (ops : List StoreOp) (m : Memory) : Memory :=
  ops.foldl (fun m op => op.perform m) m

/-- The store that MEM asks for. -/
def storeRequest (p : Pipeline) : Option StoreOp :=
  if p.reqStoreValid then some ⟨p.reqStoreAddr, p.reqStoreSize, p.reqStoreData⟩ else none

/-- The store that this cycle accepts. -/
def storeOp (p : Pipeline) (i : PipelineIn) : Option StoreOp :=
  (p.storeAccepted i).map fun e => ⟨e.addr, p.reqStoreSize, p.reqStoreData⟩

def performOption (op : Option StoreOp) (m : Memory) : Memory :=
  op.elim m fun op => op.perform m

@[simp] theorem performOption_none (m : Memory) : performOption none m = m := rfl

@[simp] theorem performOption_some (op : StoreOp) (m : Memory) :
    performOption (some op) m = op.perform m := rfl

@[simp] theorem StoreOp.perform_cfg (op : StoreOp) (m : Memory) : (op.perform m).cfg = m.cfg :=
  Memory.store_cfg _ _ _

theorem performOption_again (op : Option StoreOp) (m : Memory) :
    performOption op (performOption op m) = performOption op m := by
  cases op with
  | none => rfl
  | some op => exact congrArg Prod.snd (Memory.store_store _ _ _)

theorem performAll_append (ops : List StoreOp) (op : Option StoreOp) (m : Memory) :
    performAll (ops ++ op.toList) m = performOption op (performAll ops m) := by
  cases op <;> simp [performAll, performOption]

/-! ## The lanes of a write -/

/-- A byte that the bridge copies into every lane comes back from any of them. -/
theorem byteLane (b : BitVec 8) (lane : BitVec 2) :
    ((((b ++ b ++ b ++ b) <<< (8 * lane.toNat)) >>> (8 * lane.toNat)) &&& 0xFF#32).extractLsb' 0 8
      = b := by
  have low : ∀ x : Word, (x &&& 0xFF#32).extractLsb' 0 8 = x.extractLsb' 0 8 := by
    intro x
    rw [BitVec.extractLsb'_and]
    exact BitVec.and_allOnes
  have cases4 : ∀ w : BitVec 2, w = 0#2 ∨ w = 1#2 ∨ w = 2#2 ∨ w = 3#2 := by decide
  have bound := b.isLt
  rw [low]
  apply BitVec.eq_of_toNat_eq
  rw [Machine.toNat_extract, BitVec.toNat_ushiftRight, BitVec.toNat_shiftLeft,
    Machine.toNat_append_mul, Machine.toNat_append_mul, Machine.toNat_append_mul,
    Nat.shiftRight_eq_div_pow, Nat.shiftLeft_eq]
  rcases cases4 lane with rfl | rfl | rfl | rfl
  all_goals
    simp only [BitVec.toNat_ofNat, Nat.reducePow, Nat.reduceMod, Nat.reduceMul]
    omega

/-- So does a halfword on an even lane. -/
theorem halfLane (h : BitVec 16) (lane : BitVec 2) (even : lane.toNat % 2 = 0) :
    ((((h ++ h) <<< (8 * lane.toNat)) >>> (8 * lane.toNat)) &&& 0xFFFF#32).extractLsb' 0 16
      = h := by
  have low : ∀ x : Word, (x &&& 0xFFFF#32).extractLsb' 0 16 = x.extractLsb' 0 16 := by
    intro x
    rw [BitVec.extractLsb'_and]
    exact BitVec.and_allOnes
  have cases2 : ∀ w : BitVec 2, w.toNat % 2 = 0 → w = 0#2 ∨ w = 2#2 := by decide
  have bound := h.isLt
  rw [low]
  apply BitVec.eq_of_toNat_eq
  rw [Machine.toNat_extract, BitVec.toNat_ushiftRight, BitVec.toNat_shiftLeft,
    Machine.toNat_append_mul, Nat.shiftRight_eq_div_pow, Nat.shiftLeft_eq]
  rcases cases2 lane even with rfl | rfl
  all_goals
    simp only [BitVec.toNat_ofNat, Nat.reducePow, Nat.reduceMod, Nat.reduceMul]
    omega

theorem writeLane (addr : Word) :
    ((addr &&& 3#32) * 8#32).toNat = 8 * (addr.extractLsb' 0 2).toNat := by
  have three : (3#32).toNat = 2 ^ 2 - 1 := rfl
  have eight : (8#32).toNat = 8 := rfl
  rw [BitVec.toNat_mul, BitVec.toNat_and, three, eight, Nat.and_two_pow_sub_one_eq_mod,
    Machine.toNat_extract]
  omega

theorem store_byte_congr (m : Memory) {addr a b : Word}
    (same : a.extractLsb' 0 8 = b.extractLsb' 0 8) : m.store addr 1#32 a = m.store addr 1#32 b := by
  simp [Memory.store, Memory.writeLe8, same]

theorem store_half_congr (m : Memory) {addr a b : Word}
    (same : a.extractLsb' 0 16 = b.extractLsb' 0 16) :
    m.store addr 2#32 a = m.store addr 2#32 b := by
  have low : a.extractLsb' 0 8 = b.extractLsb' 0 8 := by
    have field := congrArg (fun h : BitVec 16 => h.extractLsb' 0 8) same
    simpa using field
  have high : (a >>> 8).extractLsb' 0 8 = (b >>> 8).extractLsb' 0 8 := by
    have field := congrArg (fun h : BitVec 16 => h.extractLsb' 8 8) same
    have shifted : ∀ x : Word, (x >>> 8).extractLsb' 0 8 = x.extractLsb' 8 8 := by
      intro x
      apply BitVec.eq_of_getLsbD_eq
      intro k bound
      simp [bound]
    rw [shifted, shifted]
    simpa using field
  simp [Memory.store, Memory.writeLe16, Memory.writeLe8, low, high]

/-- The bridge's lanes and the responder's narrowing cancel. -/
theorem narrow_store (m : Memory) (addr : Word) (code : BitVec 2) (data : Word) :
    (if axiSizeBytes (code.setWidth 3) = 0#32 then (.accessFault, m)
      else m.store addr (axiSizeBytes (code.setWidth 3))
        (extractNarrowWriteData addr (axiSizeBytes (code.setWidth 3))
          (storeWdataShifted addr code data))) =
      m.store addr (axiSizeBytes (code.setWidth 3)) data := by
  have cases4 : ∀ w : BitVec 2, w = 0#2 ∨ w = 1#2 ∨ w = 2#2 ∨ w = 3#2 := by decide
  rcases cases4 code with rfl | rfl | rfl | rfl
  · refine store_byte_congr m ?_
    simp only [extractNarrowWriteData, writeLane]
    exact byteLane (data.extractLsb' 0 8) (addr.extractLsb' 0 2)
  · by_cases even : (addr.extractLsb' 0 2).toNat % 2 = 0
    · refine store_half_congr m ?_
      simp only [extractNarrowWriteData, writeLane]
      exact halfLane (data.extractLsb' 0 16) (addr.extractLsb' 0 2) even
    · -- An odd halfword address is refused whatever the data.
      have off : Memory.sizeMisaligned addr 2#32 = true := by
        by_contra aligned
        simp only [Memory.sizeMisaligned, bne_iff_ne, ne_eq, not_not] at aligned
        have half := Memory.aligned_of_mask (k := 1) (by omega) aligned
        rw [Machine.toNat_extract] at even
        omega
      show m.store addr 2#32 _ = m.store addr 2#32 data
      simp [Memory.store, off]
  · rfl
  · rfl

/-! ## One drive -/

/-- MEM asks for one thing at a time. -/
theorem reqLoadValid_of_store {p : Pipeline} (wf : p.Wf) (asks : p.reqStoreValid = true) :
    p.reqLoadValid = false := by
  obtain ⟨valid, writes, -, -⟩ := Pipeline.reqStoreValid_valid asks
  have decoded := wf.exMem valid
  have noRead : p.exMem.memRead = false :=
    decoded.memRead.trans (decoder_of_memWrite (decoded.memWrite.symm.trans writes)).1
  simp [Pipeline.reqLoadValid, LsuIn.reqLoadValid, Pipeline.lsu, noRead]

theorem dataStoreActive_eq {c : Core} (wf : c.pipeline.Wf) :
    c.axiReq.dataStoreActive = c.pipeline.reqStoreValid := by
  cases asks : c.pipeline.reqStoreValid with
  | true => simp [AxiReq.dataStoreActive, Core.axiReq, asks, reqLoadValid_of_store wf asks]
  | false => simp [AxiReq.dataStoreActive, Core.axiReq, asks]

theorem writeRequest_eq {c : Core} (wf : c.pipeline.Wf) :
    RtlIss.writeRequest c.axiOut = c.pipeline.reqStoreValid := by
  have active := dataStoreActive_eq wf
  simp only [Core.axiOut, AxiMaster.out, RtlIss.writeRequest, active, Bool.and_self]

/-- The responder's write is the store that MEM asks for. -/
theorem RtlIss.writeStore_eq (s : RtlIss) : s.writeStore s.top.axiOut =
    s.memory.store s.top.pipeline.reqStoreAddr
      (axiSizeBytes (s.top.pipeline.reqStoreSize.setWidth 3)) s.top.pipeline.reqStoreData :=
  narrow_store _ _ _ _

theorem RtlIss.driveAxiMemory_memory (s : RtlIss) (wf : s.top.pipeline.Wf) :
    s.driveAxiMemory.memory = performOption (storeRequest s.top.pipeline) s.memory := by
  unfold driveAxiMemory storeRequest
  rw [writeRequest_eq wf, s.writeStore_eq]
  split_ifs <;> rfl

/-- Both phases of a cycle perform a request: the old one and the new one. -/
theorem RtlIss.toggleClock_memory (s : RtlIss) (wf : s.top.pipeline.Wf) :
    s.toggleClock.memory = performOption (storeRequest s.toggleClock.top.pipeline)
      (performOption (storeRequest s.top.pipeline) s.memory) := by
  have low : s.clockLow.memory = performOption (storeRequest s.top.pipeline) s.memory :=
    s.waited.driveAxiMemory_memory wf
  have high : (s.top.next s.clockLow.ioMaster).pipeline.Wf := wf.next _
  rw [toggleClock_top, ← low]
  simp only [toggleClock, clockHigh, clockLow_top]
  exact driveAxiMemory_memory { s.clockLow with top := s.top.next s.clockLow.ioMaster } high

/-! ## Accepted stores -/

/-- The alignment check of the load/store unit is that of the flat memory. -/
theorem addrMisaligned_eq (u : LsuIn) (sized : u.memSize ≠ 0b11#2) :
    u.addrMisaligned =
      Memory.sizeMisaligned u.memAddr (axiSizeBytes (u.memSize.setWidth 3)) := by
  have low (n : Nat) (fits : n < 32) :
      u.memAddr &&& ((1#32 <<< n) - 1#32) = (u.memAddr.extractLsb' 0 n).setWidth 32 := by
    have whole := Machine.extract_eq_setWidth u.memAddr 0 n fits
    rwa [BitVec.ushiftRight_zero] at whole
  have cases_ : ∀ size : BitVec 2, size ≠ 0b11#2 → size = 0#2 ∨ size = 1#2 ∨ size = 2#2 := by decide
  unfold LsuIn.addrMisaligned Memory.sizeMisaligned
  rcases cases_ u.memSize sized with byte | half | word
  · rw [byte]
    have zero : u.memAddr &&& (axiSizeBytes ((0#2).setWidth 3) - 1#32) = 0#32 := BitVec.and_zero
    rw [zero]
    rfl
  · rw [half]
    have bit : ∀ x : BitVec 1, (x != 0#1) = ((x.setWidth 32 : Word) != 0#32) := by decide
    have mask : u.memAddr &&& (axiSizeBytes ((1#2).setWidth 3) - 1#32) =
        (u.memAddr.extractLsb' 0 1).setWidth 32 := low 1 (by omega)
    rw [mask, ← bit]
    rfl
  · rw [word]
    have bits : ∀ x : BitVec 2, (x != 0#2) = ((x.setWidth 32 : Word) != 0#32) := by decide
    have mask : u.memAddr &&& (axiSizeBytes ((2#2).setWidth 3) - 1#32) =
        (u.memAddr.extractLsb' 0 2).setWidth 32 := low 2 (by omega)
    rw [mask, ← bits]
    rfl

theorem aligned_of_store {p : Pipeline} {m : Memory} (ok : (m.store p.reqStoreAddr
      (axiSizeBytes (p.reqStoreSize.setWidth 3)) p.reqStoreData).1 = .ok) :
    p.lsu.storeMisaligned = false := by
  have sized : p.lsu.memSize ≠ 0b11#2 := by
    intro wide
    have code : p.reqStoreSize = 0b11#2 := wide
    rw [code] at ok
    unfold Memory.store at ok
    rw [if_pos (by decide)] at ok
    contradiction
  have aligned : p.lsu.addrMisaligned = false := by
    rw [addrMisaligned_eq p.lsu sized]
    by_contra off
    rw [Bool.not_eq_false] at off
    have here : Memory.sizeMisaligned p.reqStoreAddr
        (axiSizeBytes (p.reqStoreSize.setWidth 3)) = true := off
    unfold Memory.store at ok
    split_ifs at ok
  rw [LsuIn.storeMisaligned, aligned, Bool.and_false]

theorem aligned_of_load {p : Pipeline} {m : Memory} (ok : (m.load p.reqLoadAddr
      (axiSizeBytes (p.reqLoadSize.setWidth 3)) 0#32).1 = .ok) :
    p.lsu.loadMisaligned = false := by
  have sized : p.lsu.memSize ≠ 0b11#2 := by
    intro wide
    have code : p.reqLoadSize = 0b11#2 := wide
    rw [code] at ok
    unfold Memory.load at ok
    rw [if_pos (by decide)] at ok
    contradiction
  have aligned : p.lsu.addrMisaligned = false := by
    rw [addrMisaligned_eq p.lsu sized]
    by_contra off
    rw [Bool.not_eq_false] at off
    have here : Memory.sizeMisaligned p.reqLoadAddr
        (axiSizeBytes (p.reqLoadSize.setWidth 3)) = true := off
    unfold Memory.load at ok
    split_ifs at ok
  rw [LsuIn.loadMisaligned, aligned, Bool.and_false]

/-- A store request is answered at once. -/
theorem RtlIss.storeReply (s : RtlIss) (wf : s.top.pipeline.Wf)
    (asks : s.top.pipeline.reqStoreValid = true) :
    s.pipelineIn.reqStoreReady = true ∧
      s.pipelineIn.respStoreFault = axiFault (axiResp (s.memory.store
        s.top.pipeline.reqStoreAddr (axiSizeBytes (s.top.pipeline.reqStoreSize.setWidth 3))
        s.top.pipeline.reqStoreData).1) := by
  have active : s.top.axiReq.dataStoreActive = true := (dataStoreActive_eq wf).trans asks
  obtain ⟨awready, wready, bvalid, bid⟩ := s.clockLow_answers.store active
  have bresp : s.clockLow.ioMaster.bresp = axiResp (s.writeStore s.top.axiOut).1 := by
    have writes : RtlIss.writeRequest s.waited.top.axiOut = true := (writeRequest_eq wf).trans asks
    rw [RtlIss.clockLow, RtlIss.driveAxiMemory, if_pos writes]
    rfl
  have ready : AxiMaster.reqStoreReady s.top.axiReq s.clockLow.ioMaster = true := by
    simp [AxiMaster.reqStoreReady, active, awready, wready, bvalid, bid]
  refine ⟨ready, ?_⟩
  rw [← s.writeStore_eq, ← bresp]
  show (AxiMaster.reqStoreReady _ _ && _) = _
  rw [ready, Bool.true_and]

theorem RtlIss.storeReply_none (s : RtlIss) (wf : s.top.pipeline.Wf)
    (idle : s.top.pipeline.reqStoreValid = false) : s.pipelineIn.respStoreFault = false := by
  have silent : s.top.axiReq.dataStoreActive = false := (dataStoreActive_eq wf).trans idle
  show AxiMaster.respStoreFault s.top.axiReq s.clockLow.ioMaster = false
  simp [AxiMaster.respStoreFault, AxiMaster.reqStoreReady, silent]

/-- The store accepted in a cycle and the request of that cycle have the same effect: a
request that is not accepted has failed. -/
theorem performOption_storeOp (s : RtlIss) (wf : s.top.pipeline.Wf) (m : Memory)
    (cfg : m.cfg = s.memory.cfg) :
    performOption (storeOp s.top.pipeline s.pipelineIn) m =
      performOption (storeRequest s.top.pipeline) m := by
  cases asks : s.top.pipeline.reqStoreValid with
  | false => simp [storeOp, storeRequest, Pipeline.storeAccepted_idle asks, asks]
  | true =>
      obtain ⟨ready, fault⟩ := s.storeReply wf asks
      have silent : s.pipelineIn.respStoreMisaligned = false := rfl
      by_cases ok : (s.memory.store s.top.pipeline.reqStoreAddr
          (axiSizeBytes (s.top.pipeline.reqStoreSize.setWidth 3))
          s.top.pipeline.reqStoreData).1 = .ok
      · have good : s.pipelineIn.respStoreFault = false := by rw [fault, ok]; rfl
        have aligned := aligned_of_store ok
        simp [storeOp, storeRequest, Pipeline.storeAccepted, asks, ready, aligned, good, silent]
      · have bad : s.pipelineIn.respStoreFault = true := by
          rw [fault, axiResp, if_neg ok]
          rfl
        have none : s.top.pipeline.storeAccepted s.pipelineIn = none := by
          simp [Pipeline.storeAccepted, bad]
        have same := Memory.store_result m cfg s.top.pipeline.reqStoreAddr
          (axiSizeBytes (s.top.pipeline.reqStoreSize.setWidth 3)) s.top.pipeline.reqStoreData
        rw [← same] at ok
        simp only [storeOp, none, storeRequest, asks, if_true, Option.map_none,
          performOption_none, performOption_some]
        exact (Memory.store_of_not_ok ok).symm

/-! ## The RAM of a run -/

/-- The stores accepted in the first `n` cycles, oldest first. -/
def RtlIss.storesAccepted (s : RtlIss) (n : Nat) : List StoreOp :=
  Machine.log (fun s (_ : Unit) => storeOp s.top.pipeline s.pipelineIn) (fun s _ => s.toggleClock)
    s (fun _ => ()) n

theorem RtlIss.storesAccepted_succ (s : RtlIss) (n : Nat) : s.storesAccepted (n + 1) =
    s.storesAccepted n ++ (storeOp (s.run n).top.pipeline (s.run n).pipelineIn).toList :=
  Machine.log_succ _ _ _ _ n

theorem performAll_cfg (ops : List StoreOp) (m : Memory) : (performAll ops m).cfg = m.cfg := by
  induction ops generalizing m with
  | nil => rfl
  | cons op ops ih => exact (ih (op.perform m)).trans (op.perform_cfg m)

/-- The RAM holds the accepted stores, and already the one of the current cycle. -/
theorem memory_run (s : RtlIss) (image : Memory) (n : Nat) :
    ((s.boot image).run n).memory = performAll ((s.boot image).storesAccepted (n + 1)) image := by
  induction n with
  | zero =>
      have idle : storeOp (s.boot image).top.pipeline (s.boot image).pipelineIn = none := by
        obtain ⟨c, reset⟩ := s.boot_top image
        have none : (s.boot image).top.pipeline.reqStoreValid = false := by rw [reset]; rfl
        simp [storeOp, Pipeline.storeAccepted_idle none]
      rw [RtlIss.storesAccepted_succ, RtlIss.run_zero, idle]
      rfl
  | succ n ih =>
      have wf := (coreWf_run s image n).pipeline
      have wf' := (coreWf_run s image (n + 1)).pipeline
      have cfg : ((s.boot image).run n).memory.cfg = image.cfg := by rw [ih, performAll_cfg]
      have cfg' : ((s.boot image).run (n + 1)).memory.cfg = image.cfg := by
        rw [RtlIss.run_succ, RtlIss.toggleClock_memory _ wf]
        rw [← cfg]
        cases storeRequest ((s.boot image).run n).toggleClock.top.pipeline <;>
          cases storeRequest ((s.boot image).run n).top.pipeline <;> simp
      rw [RtlIss.storesAccepted_succ, performAll_append, ← ih,
        performOption_storeOp _ wf' _ (cfg.trans cfg'.symm), RtlIss.run_succ,
        RtlIss.toggleClock_memory _ wf]
      congr 1
      rw [← performOption_storeOp _ wf _ rfl, ih, RtlIss.storesAccepted_succ, performAll_append,
        performOption_again]

/-- The RAM already has the store that MEM asks for. -/
theorem memory_requested (s : RtlIss) (image : Memory) (n : Nat) :
    performOption (storeRequest ((s.boot image).run n).top.pipeline)
      ((s.boot image).run n).memory = ((s.boot image).run n).memory := by
  have wf := (coreWf_run s image n).pipeline
  rw [← performOption_storeOp _ wf _ rfl, memory_run, RtlIss.storesAccepted_succ,
    performAll_append, performOption_again]

/-- So a cycle only adds the store that MEM asks for after it. -/
theorem memory_succ (s : RtlIss) (image : Memory) (n : Nat) :
    ((s.boot image).run (n + 1)).memory =
      performOption (storeRequest ((s.boot image).run (n + 1)).top.pipeline)
        ((s.boot image).run n).memory := by
  rw [RtlIss.run_succ, RtlIss.toggleClock_memory _ (coreWf_run s image n).pipeline,
    memory_requested]

end NpcMachine.Emulator
