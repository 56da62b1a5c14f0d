/-
# Rtl.ArchState -- the architectural state of the core

`npc_regfile`, `npc_csr_file` and `npc_clint`: a read function and one clock edge
each.  `reset` gives the values the reset branch assigns.
-/
import NpcMachine.Rtl.Datapath

namespace NpcMachine.Rtl

set_option autoImplicit false

/-! ## `npc_regfile` -/

structure Regfile where
  regs : BitVec 4 → Word
  deriving Inhabited

namespace Regfile

def reset : Regfile := ⟨fun _ => 0#32⟩

def read (r : Regfile) (addr : BitVec 4) : Word := if addr = 0#4 then 0#32 else r.regs addr

def next (r : Regfile) (wen : Bool) (rdAddr : BitVec 4) (rdData : Word) : Regfile :=
  if wen && rdAddr != 0#4 then ⟨fun a => if a = rdAddr then rdData else r.regs a⟩ else r

@[simp] theorem read_zero (r : Regfile) : r.read 0#4 = 0#32 := by simp [read]

@[simp] theorem read_reset (a : BitVec 4) : reset.read a = 0#32 := by simp [read, reset]

@[simp] theorem next_idle (r : Regfile) (rd : BitVec 4) (data : Word) :
    r.next false rd data = r := by simp [next]

theorem read_next (r : Regfile) (wen : Bool) (rd a : BitVec 4) (data : Word) :
    (r.next wen rd data).read a =
      if wen = true ∧ a ≠ 0#4 ∧ a = rd then data else r.read a := by
  cases wen with
  | false => simp
  | true =>
      by_cases zero : a = 0#4
      · simp [zero]
      · by_cases hit : a = rd
        · subst hit
          simp [next, read, zero]
        · by_cases none : rd = 0#4 <;> simp [next, read, zero, hit, none]

end Regfile

/-! ## `npc_csr_file` -/

structure CsrFile where
  mstatus : Word
  mtvec : Word
  mepc : Word
  mcause : Word
  deriving DecidableEq, Repr, Inhabited

/-- The write and exception ports, as WB drives them. -/
structure CsrWrite where
  writeEn : Bool
  writeAddr : BitVec 12
  writeData : Word
  excEn : Bool
  excMepc : Word
  excMcause : Word
  deriving DecidableEq, Repr, Inhabited

namespace CsrFile

def reset : CsrFile where
  mstatus := mstatusReset
  mtvec := 0#32
  mepc := 0#32
  mcause := 0#32

def readData (c : CsrFile) (addr : BitVec 12) : Word :=
  if addr = csrMvendorid then 0#32
  else if addr = csrMarchid then 0#32
  else if addr = csrMstatus then c.mstatus
  else if addr = csrMtvec then c.mtvec
  else if addr = csrMepc then c.mepc
  else if addr = csrMcause then c.mcause
  else 0#32

def readFault (addr : BitVec 12) : Bool :=
  !(addr == csrMvendorid || addr == csrMarchid || addr == csrMstatus ||
    addr == csrMtvec || addr == csrMepc || addr == csrMcause)

def write (c : CsrFile) (addr : BitVec 12) (data : Word) : CsrFile :=
  if addr = csrMstatus then { c with mstatus := mstatusReset }
  else if addr = csrMtvec then { c with mtvec := data &&& 0xFFFFFFFC#32 }
  else if addr = csrMepc then { c with mepc := data &&& 0xFFFFFFFC#32 }
  else if addr = csrMcause then { c with mcause := data }
  else c

/-- One clock edge: the exception port has priority over the write port. -/
def next (c : CsrFile) (w : CsrWrite) : CsrFile :=
  if w.excEn then { c with mepc := w.excMepc, mcause := w.excMcause }
  else if w.writeEn then c.write w.writeAddr w.writeData
  else c

end CsrFile

/-! ## `npc_clint` -/

structure Clint where
  mtime : BitVec 64
  deriving DecidableEq, Repr, Inhabited

namespace Clint

def reset : Clint := ⟨0#64⟩

def offset (reqAddr : Word) : Word := reqAddr - clintBase
def isMtime (reqAddr : Word) : Bool := offset reqAddr == clintMtimeOffset
def isMtimeh (reqAddr : Word) : Bool := offset reqAddr == clintMtimehOffset

def respRdata (c : Clint) (reqValid reqWen : Bool) (reqAddr : Word) : Word :=
  if reqValid && !reqWen then
    if isMtime reqAddr then c.mtime.extractLsb' 0 32
    else if isMtimeh reqAddr then c.mtime.extractLsb' 32 32
    else 0#32
  else 0#32

def next (c : Clint) (tickEn reqValid reqWen : Bool) (reqAddr reqWdata : Word) : Clint :=
  if tickEn then
    if reqValid && reqWen then
      if isMtime reqAddr then ⟨c.mtime.extractLsb' 32 32 ++ reqWdata + 1#64⟩
      else if isMtimeh reqAddr then ⟨reqWdata ++ c.mtime.extractLsb' 0 32 + 1#64⟩
      else ⟨c.mtime + 1#64⟩
    else ⟨c.mtime + 1#64⟩
  else c

end Clint

end NpcMachine.Rtl
