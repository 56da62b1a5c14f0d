/-
# Emulator.MemoryDpi -- `npc_memory_dpi` and the core that it serves

The DPI functions of `npc_memory_dpi.cpp` answer in one packed word; a backend is set.
`Served` is `npc_single_cycle` with its request ports wired to `npc_memory_dpi`.  The module
has no output for `resp_fetch_valid`: the input `ready` of a cycle says whether the core
gets its answer then.
-/
import NpcMachine.Emulator.Memory
import NpcMachine.Rtl.SingleCycle

namespace NpcMachine.Emulator

open NpcMachine.Rtl

set_option autoImplicit false

/-! ## `npc_memory_dpi.cpp` -/

def packResp (data : U32) (accessFault misaligned : Bool) : BitVec 64 :=
  let r : BitVec 64 := data.setWidth 64
  let r := if accessFault then r ||| 1#64 <<< 32 else r
  if misaligned then r ||| 1#64 <<< 33 else r

def packResult (answer : MemResult × U32) : BitVec 64 :=
  packResp answer.2 (answer.1 == .accessFault) (answer.1 == .misaligned)

/-- The `switch` over the size code. -/
def realSize (size : U32) : Option U32 :=
  if size = 0#32 then some 1#32
  else if size = 1#32 then some 2#32
  else if size = 2#32 then some 4#32
  else none

def npcDpiMemFetch (m : Memory) (addr : U32) : BitVec 64 :=
  if addr &&& 3#32 ≠ 0#32 then packResp 0#32 false true else packResult (m.fetch addr 0#32)

def npcDpiMemLoad (m : Memory) (addr size : U32) : BitVec 64 :=
  match realSize size with
  | none => packResp 0#32 true false
  | some size =>
      if addr &&& (size - 1#32) ≠ 0#32 then packResp 0#32 false true
      else packResult (m.load addr size 0#32)

def npcDpiMemStore (m : Memory) (addr size data : U32) : Memory :=
  match realSize size with
  | none => m
  | some size => (m.store addr size data).2

/-! ## The fields of an answer -/

theorem packResp_data (data : U32) (accessFault misaligned : Bool) :
    (packResp data accessFault misaligned).extractLsb' 0 32 = data := by
  have low : (data.setWidth 64).extractLsb' 0 32 = data := by
    rw [BitVec.extractLsb'_setWidth_of_le (by omega), ← BitVec.setWidth_eq_extractLsb' (by omega),
      BitVec.setWidth_eq]
  have fault : (1#64 <<< 32).extractLsb' 0 32 = 0#32 := by decide
  have off : (1#64 <<< 33).extractLsb' 0 32 = 0#32 := by decide
  cases accessFault <;> cases misaligned <;>
    simp only [packResp, BitVec.extractLsb'_or, low, fault, off, BitVec.or_zero, if_true,
      Bool.false_eq_true, if_false]

theorem packResp_flags (data : U32) (accessFault misaligned : Bool) :
    (packResp data accessFault misaligned).getLsbD 32 = accessFault ∧
      (packResp data accessFault misaligned).getLsbD 33 = misaligned := by
  have bits : (data.setWidth 64).getLsbD 32 = false ∧ (data.setWidth 64).getLsbD 33 = false := by
    simp
  have fault : (1#64 <<< 32).getLsbD 32 = true ∧ (1#64 <<< 32).getLsbD 33 = false := by decide
  have off : (1#64 <<< 33).getLsbD 32 = false ∧ (1#64 <<< 33).getLsbD 33 = true := by decide
  cases accessFault <;> cases misaligned <;>
    simp only [packResp, BitVec.getLsbD_or, bits, fault, off, Bool.or_false, Bool.or_true, if_true,
      Bool.false_eq_true, if_false, and_self]

/-! ## `npc_memory_dpi` -/

/-- The answer on the fetch or the load port. -/
structure PortResp where
  data : Word
  fault : Bool
  misaligned : Bool
  deriving DecidableEq, Repr

/-- The fields of a packed answer, or zeros when nothing is asked. -/
def portResp (valid : Bool) (r : BitVec 64) : PortResp :=
  if valid then ⟨r.extractLsb' 0 32, r.getLsbD 32, r.getLsbD 33⟩ else ⟨0#32, false, false⟩

/-- What a port says of a result of the memory. -/
def PortResp.of (answer : MemResult × U32) : PortResp :=
  ⟨answer.2, answer.1 == .accessFault, answer.1 == .misaligned⟩

theorem portResp_packResult (answer : MemResult × U32) :
    portResp true (packResult answer) = .of answer := by
  obtain ⟨fault, off⟩ := packResp_flags answer.2 (answer.1 == .accessFault) (answer.1 == .misaligned)
  rw [portResp, if_pos rfl, packResult, packResp_data, fault, off, PortResp.of]

/-- The core and the memory behind its ports. -/
structure Served where
  core : SingleCycle
  memory : Memory
  deriving Inhabited

namespace Served

variable (s : Served) (ready : Bool)

def respFetch : PortResp :=
  portResp s.core.reqFetchValid (npcDpiMemFetch s.memory s.core.reqFetchAddr)

def respLoad : PortResp :=
  portResp s.core.reqLoadValid
    (npcDpiMemLoad s.memory s.core.reqLoadAddr (s.core.reqLoadSize.setWidth 32))

/-- The inputs of the core; the two store responses stay 0. -/
def coreIn : SingleCycleIn where
  respFetchValid := ready
  respFetchInst := s.respFetch.data
  respFetchFault := s.respFetch.fault
  respFetchMisaligned := s.respFetch.misaligned
  respLoadData := s.respLoad.data
  respLoadFault := s.respLoad.fault
  respLoadMisaligned := s.respLoad.misaligned
  respStoreFault := false
  respStoreMisaligned := false

/-- The store at the clock edge. -/
def stored : Memory :=
  if s.core.reqStoreValid then
    npcDpiMemStore s.memory s.core.reqStoreAddr (s.core.reqStoreSize.setWidth 32)
      s.core.reqStoreData
  else s.memory

/-- One clock edge. -/
def next : Served := ⟨s.core.next (s.coreIn ready), s.stored⟩

/-- The state after `n` edges from reset. -/
abbrev run (ready : Nat → Bool) (n : Nat) : Served :=
  Machine.run next ⟨s.core.reset, s.memory⟩ ready n

end Served

end NpcMachine.Emulator
