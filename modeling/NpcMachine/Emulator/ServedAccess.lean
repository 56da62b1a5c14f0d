/-
# Emulator.ServedAccess -- the loads and stores of the served core

An access of the execute phase goes to `npc_clint` or through `npc_memory_dpi` to the
memory.  `load_clint`, `load_memory`, `store_clint` and `store_memory` compare it with `loadMem`
and `storeMem`: the same verdict, the same value, the same memory and time.
-/
import NpcMachine.Emulator.SameHart
import NpcMachine.Emulator.MemoryDpi
import NpcMachine.Emulator.ClintAgree

namespace NpcMachine.Emulator

open NpcMachine.Rtl NpcMachine.Machine

set_option autoImplicit false

/-! ## Size codes -/

theorem realSize_axi : ∀ code : BitVec 2, code ≠ 0b11#2 →
    realSize (code.setWidth 32) = some (axiSizeBytes (code.setWidth 3)) ∧
      Memory.badSize (axiSizeBytes (code.setWidth 3)) = false := by decide

/-- The DPI functions check the alignment that the memory checks. -/
theorem npcDpiMemFetch_eq (m : Memory) (addr : U32) :
    npcDpiMemFetch m addr = packResult (m.fetch addr 0#32) := by
  rw [npcDpiMemFetch]
  split_ifs with off
  · rw [Memory.fetch, if_pos (by simpa using off)]
    rfl
  · rfl

theorem npcDpiMemLoad_eq (m : Memory) (addr : U32) {code : BitVec 2} (sized : code ≠ 0b11#2) :
    npcDpiMemLoad m addr (code.setWidth 32) =
      packResult (m.load addr (axiSizeBytes (code.setWidth 3)) 0#32) := by
  obtain ⟨size, fine⟩ := realSize_axi code sized
  rw [npcDpiMemLoad, size]
  show (if _ then _ else _) = _
  split_ifs with off
  · rw [Memory.load, fine, if_neg Bool.false_ne_true,
      if_pos (by simpa [Memory.sizeMisaligned] using off)]
    rfl
  · rfl

theorem npcDpiMemStore_eq (m : Memory) (addr data : U32) {code : BitVec 2} (sized : code ≠ 0b11#2) :
    npcDpiMemStore m addr (code.setWidth 32) data =
      (m.store addr (axiSizeBytes (code.setWidth 3)) data).2 := by
  rw [npcDpiMemStore, (realSize_axi code sized).1]

/-- A load that is not refused for its alignment is aligned. -/
theorem load_misaligned_iff (m : Memory) {addr size : U32} (fine : Memory.badSize size = false) :
    (m.load addr size 0#32).1 = .misaligned ↔ Memory.sizeMisaligned addr size = true := by
  rw [Memory.load, fine, if_neg Bool.false_ne_true]
  split_ifs <;> simp_all

theorem store_misaligned_iff (m : Memory) {addr size data : U32}
    (fine : Memory.badSize size = false) :
    (m.store addr size data).1 = .misaligned ↔ Memory.sizeMisaligned addr size = true := by
  rw [Memory.store, fine, if_neg Bool.false_ne_true]
  split_ifs <;> simp_all

/-! ## The two devices of the contract -/

/-- An access to memory, or a whole aligned word of the CLINT. -/
structure Plainly (e : EmulatorIss) (addr size : U32) : Prop where
  uart : e.cfg.inUart addr = false
  clint : e.cfg.inClint addr = true → size = 4#32 ∧ addr &&& 3#32 = 0#32

instance (e : EmulatorIss) (addr size : U32) : Decidable (Plainly e addr size) :=
  decidable_of_iff (e.cfg.inUart addr = false ∧
    (e.cfg.inClint addr = true → size = 4#32 ∧ addr &&& 3#32 = 0#32))
    ⟨fun both => ⟨both.1, both.2⟩, fun plainly => ⟨plainly.uart, plainly.clint⟩⟩

/-- The size of the access in the execute phase. -/
abbrev Served.size (s : Served) : U32 := axiSizeBytes (s.core.dec.memSize.setWidth 3)

section Access

variable {s : Served} {e : EmulatorIss} (ready : Bool) (sized : s.core.dec.memSize ≠ 0b11#2)

include sized

theorem addrMisaligned_eq_size :
    s.core.lsu.addrMisaligned = Memory.sizeMisaligned s.core.aluResult s.size :=
  addrMisaligned_eq s.core.lsu sized

variable (executes : s.core.executePhase = true)

include executes

/-! ## Loads -/

/-- The exception that an answer of the memory raises at a load. -/
def loadCause : MemResult → Option U32
  | .ok => none
  | .misaligned => some Rtl.causeLoadMisaligned
  | .accessFault => some Rtl.causeLoadAccessFault

section Load

variable (reads : s.core.dec.memRead = true) (noWrite : s.core.dec.memWrite = false)

include reads noWrite

/-- A load of the timer. -/
theorem load_clint (map : SameMap e) (plainly : Plainly e s.core.aluResult s.size)
    (time : s.core.clint.mtime = e.clint.time) (inside : inClint s.core.aluResult = true) :
    s.core.accessFault (s.coreIn ready) = none ∧
      e.loadMem s.core.aluResult s.size = (.ok, s.core.loadFinalData (s.coreIn ready), e) := by
  have window : e.cfg.inClint s.core.aluResult = true := (map.inClint _).trans inside
  obtain ⟨word, aligned⟩ := plainly.clint window
  have straight : s.core.lsu.addrMisaligned = false := by
    rw [addrMisaligned_eq_size sized, word]
    simpa [Memory.sizeMisaligned] using aligned
  have asks : s.core.reqLoadValid = false := by
    show (s.core.lsu.memRead && !inClint s.core.aluResult) = false
    rw [inside, Bool.not_true, Bool.and_false]
  have quiet : s.respLoad = ⟨0#32, false, false⟩ := by
    rw [Served.respLoad, asks]
    rfl
  have value : e.clint.load s.core.aluResult 4#32 = some s.core.clintRdata := by
    have same : SameTime e.cfg e.clint s.core.clint := ⟨map.clint, time.symm⟩
    have loaded : e.clint.loaded (.load s.core.aluResult) =
        clintLoaded s.core.clint (.load s.core.aluResult) := same.loaded map.base window
    have valid : s.core.lsu.clintReqValid = true := by
      show ((s.core.executePhase && s.core.dec.memRead || s.core.executePhase && s.core.dec.memWrite) &&
        inClint s.core.aluResult) = true
      rw [executes, reads, inside]
      rfl
    have noWen : s.core.lsu.clintReqWen = false := by
      show (s.core.executePhase && s.core.dec.memWrite) = false
      rw [noWrite, Bool.and_false]
    rw [SingleCycle.clintRdata, valid, noWen]
    exact loaded
  have final : s.core.loadFinalData (s.coreIn ready) = s.core.clintRdata := if_pos inside
  constructor
  · simp [SingleCycle.accessFault, LsuIn.loadMisaligned, straight, Served.coreIn, quiet, noWrite]
  · rw [EmulatorIss.loadMem, if_pos window, word, if_neg (by simp), value, final]

/-- A load of the memory. -/
theorem load_memory (memory : s.memory = e.memory) (outside : inClint s.core.aluResult = false) :
    s.core.accessFault (s.coreIn ready) =
        loadCause (e.memory.load s.core.aluResult s.size 0#32).1 ∧
      s.core.loadFinalData (s.coreIn ready) =
        s.core.lsu.loadAlignedData (e.memory.load s.core.aluResult s.size 0#32).2 := by
  obtain ⟨-, fine⟩ := realSize_axi _ sized
  have lsuReads : s.core.lsu.memRead = true := by
    show (s.core.executePhase && s.core.dec.memRead) = true
    rw [executes, reads]
    rfl
  have asks : s.core.reqLoadValid = true := by
    show (s.core.lsu.memRead && !inClint s.core.aluResult) = true
    rw [outside, lsuReads]
    rfl
  have asked : s.respLoad = .of (e.memory.load s.core.aluResult s.size 0#32) := by
    have port : npcDpiMemLoad s.memory s.core.reqLoadAddr (s.core.reqLoadSize.setWidth 32) =
        packResult (s.memory.load s.core.aluResult s.size 0#32) := npcDpiMemLoad_eq _ _ sized
    rw [Served.respLoad, asks, port, portResp_packResult, memory]
  have wrong : (e.memory.load s.core.aluResult s.size 0#32).1 = .misaligned ↔
      s.core.lsu.addrMisaligned = true := by
    rw [addrMisaligned_eq_size sized]
    exact load_misaligned_iff e.memory fine
  constructor
  · simp only [SingleCycle.accessFault, LsuIn.loadMisaligned, lsuReads, reads, noWrite,
      Served.coreIn, asked, PortResp.of, Bool.true_and, Bool.false_and, Bool.false_eq_true, if_false]
    cases verdict : (e.memory.load s.core.aluResult s.size 0#32).1 with
    | misaligned =>
        rw [wrong.mp verdict]
        rfl
    | ok | accessFault =>
        have straight : s.core.lsu.addrMisaligned = false := by
          rw [← Bool.not_eq_true, ← wrong, verdict]
          decide
        rw [straight]
        rfl
  · have away : ¬ s.core.lsu.clintIsAccess = true := by
      show ¬ inClint s.core.aluResult = true
      rw [outside]
      decide
    rw [SingleCycle.loadFinalData, LsuIn.loadFinalData, if_neg away]
    show s.core.lsu.loadAlignedData s.respLoad.data = _
    rw [asked]
    rfl

end Load

/-! ## Stores -/

section Store

variable (noRead : s.core.dec.memRead = false) (writes : s.core.dec.memWrite = true)

include noRead writes

/-- A store to the timer, with the tick of the step. -/
theorem store_clint (map : SameMap e) (plainly : Plainly e s.core.aluResult s.size)
    (time : s.core.clint.mtime = e.clint.time) (inside : inClint s.core.aluResult = true) :
    s.core.accessFault (s.coreIn ready) = none ∧ s.stored = s.memory ∧
      ∃ clint, e.storeMem s.core.aluResult s.size s.core.rs2Data = (.ok, { e with clint := clint }) ∧
        (s.core.next (s.coreIn ready)).clint.mtime = clint.tick.time := by
  have window : e.cfg.inClint s.core.aluResult = true := (map.inClint _).trans inside
  obtain ⟨word, aligned⟩ := plainly.clint window
  have straight : s.core.lsu.addrMisaligned = false := by
    rw [addrMisaligned_eq_size sized, word]
    simpa [Memory.sizeMisaligned] using aligned
  refine ⟨?_, ?_, e.clint.operate (.store s.core.aluResult s.core.rs2Data), ?_, ?_⟩
  · simp [SingleCycle.accessFault, LsuIn.storeMisaligned, straight, noRead]
  · have asks : s.core.reqStoreValid = false := by
      show (s.core.lsu.memWrite && !inClint s.core.aluResult) = false
      rw [inside, Bool.not_true, Bool.and_false]
    rw [Served.stored, asks]
    rfl
  · have there : e.clint.cfg.inClint s.core.aluResult = true := by rw [map.clint]; exact window
    have some_ : ∃ clint, e.clint.store s.core.aluResult 4#32 s.core.rs2Data = some clint := by
      rw [Clint.store, there]
      simp only [Bool.not_true, Bool.false_eq_true, if_false, ne_eq, not_true_eq_false]
      split_ifs <;> exact ⟨_, rfl⟩
    obtain ⟨clint, found⟩ := some_
    rw [EmulatorIss.storeMem, if_pos window, word, if_neg (by simp), Clint.operate, found]
    rfl
  · have same : SameTime e.cfg e.clint s.core.clint := ⟨map.clint, time.symm⟩
    have valid : s.core.lsu.clintReqValid = true := by
      show ((s.core.executePhase && s.core.dec.memRead || s.core.executePhase && s.core.dec.memWrite) &&
        inClint s.core.aluResult) = true
      rw [executes, writes, inside, noRead]
      rfl
    have wen : s.core.lsu.clintReqWen = true := by
      show (s.core.executePhase && s.core.dec.memWrite) = true
      rw [executes, writes]
      rfl
    show (s.core.clint.next s.core.executePhase s.core.lsu.clintReqValid s.core.lsu.clintReqWen
      s.core.aluResult s.core.rs2Data).mtime = _
    rw [executes, valid, wen]
    exact (same.stored map.base s.core.rs2Data window).symm

/-- A store to the memory. -/
theorem store_memory (memory : s.memory = e.memory) (outside : inClint s.core.aluResult = false) :
    s.core.accessFault (s.coreIn ready) =
        (if (e.memory.store s.core.aluResult s.size s.core.rs2Data).1 = .misaligned then
          some Rtl.causeStoreMisaligned else none) ∧
      s.stored = (e.memory.store s.core.aluResult s.size s.core.rs2Data).2 := by
  obtain ⟨-, fine⟩ := realSize_axi _ sized
  have lsuWrites : s.core.lsu.memWrite = true := by
    show (s.core.executePhase && s.core.dec.memWrite) = true
    rw [executes, writes]
    rfl
  have wrong : (e.memory.store s.core.aluResult s.size s.core.rs2Data).1 = .misaligned ↔
      s.core.lsu.addrMisaligned = true := by
    rw [addrMisaligned_eq_size sized]
    exact store_misaligned_iff e.memory fine
  constructor
  · simp only [SingleCycle.accessFault, LsuIn.storeMisaligned, lsuWrites, noRead, writes, wrong,
      Bool.true_and, Bool.false_and, Bool.false_eq_true, if_false]
  · have asks : s.core.reqStoreValid = true := by
      show (s.core.lsu.memWrite && !inClint s.core.aluResult) = true
      rw [outside, lsuWrites]
      rfl
    rw [Served.stored, if_pos asks, memory]
    exact npcDpiMemStore_eq _ _ _ sized

end Store

end Access

/-- Outside a store to the timer it ticks with each execute phase. -/
theorem clint_ticks {s : Served} {ready : Bool} (executes : s.core.executePhase = true)
    (quiet : s.core.dec.memWrite = false ∨ inClint s.core.aluResult = false) :
    (s.core.next (s.coreIn ready)).clint.mtime = s.core.clint.mtime + 1#64 := by
  have silent : (s.core.lsu.clintReqValid && s.core.lsu.clintReqWen) = false := by
    show (((_ || s.core.executePhase && s.core.dec.memWrite) && inClint s.core.aluResult) &&
      (s.core.executePhase && s.core.dec.memWrite)) = false
    rcases quiet with noWrite | outside
    · rw [noWrite, Bool.and_false, Bool.and_false]
    · rw [outside, Bool.and_false, Bool.false_and]
  show (s.core.clint.next s.core.executePhase _ _ _ _).mtime = _
  rw [Rtl.Clint.next, if_pos executes, if_neg (by rw [silent]; decide)]

/-- Without a store the memory stays. -/
theorem stored_quiet {s : Served} (noWrite : s.core.dec.memWrite = false) : s.stored = s.memory := by
  have asks : s.core.reqStoreValid = false := by
    show (s.core.executePhase && s.core.dec.memWrite && _) = false
    rw [noWrite, Bool.and_false, Bool.false_and]
  rw [Served.stored, asks]
  rfl

end NpcMachine.Emulator
