/-
# Emulator.Hart -- the hart, the timer and the UART of the reference model

`hart.cpp`, `clint.cpp` and `uart.cpp`.  Register and CSR numbers are 32-bit as in the
source.
-/
import NpcMachine.Emulator.Memory

namespace NpcMachine.Emulator

set_option autoImplicit false

/-! ## Causes and CSR addresses of `common.h` -/

def gprCount : U32 := 16#32

def causeInstMisaligned : U32 := 0#32
def causeInstAccessFault : U32 := 1#32
def causeIllegalInst : U32 := 2#32
def causeBreakpoint : U32 := 3#32
def causeLoadMisaligned : U32 := 4#32
def causeLoadAccessFault : U32 := 5#32
def causeStoreMisaligned : U32 := 6#32
def causeStoreAccessFault : U32 := 7#32
def causeEcallM : U32 := 11#32

def csrMvendorid : U32 := 0xF11#32
def csrMarchid : U32 := 0xF12#32
def csrMstatus : U32 := 0x300#32
def csrMtvec : U32 := 0x305#32
def csrMepc : U32 := 0x341#32
def csrMcause : U32 := 0x342#32

/-! ## `Hart` -/

structure Hart where
  pc : U32
  x : BitVec 4 → U32
  halted : Bool
  mstatus : U32
  mepc : U32
  mtvec : U32
  mcause : U32
  deriving Inhabited

namespace Hart

def mvendorid : U32 := 0#32
def marchid : U32 := 0#32

variable (h : Hart)

def readReg (idx : U32) : U32 :=
  if idx = 0#32 then 0#32
  else if gprCount.ule idx then 0#32
  else h.x (idx.setWidth 4)

def writeReg (idx value : U32) : Hart :=
  if idx == 0#32 || gprCount.ule idx then h
  else { h with x := Function.update h.x (idx.setWidth 4) value }

/-- `none` when the CSR is not implemented. -/
def readCsr (addr : U32) : Option U32 :=
  if addr = csrMvendorid then some mvendorid
  else if addr = csrMarchid then some marchid
  else if addr = csrMstatus then some h.mstatus
  else if addr = csrMtvec then some h.mtvec
  else if addr = csrMepc then some h.mepc
  else if addr = csrMcause then some h.mcause
  else none

def writeCsr (addr value : U32) : Option Hart :=
  if addr = csrMstatus then some { h with mstatus := 0x00001800#32 }
  else if addr = csrMtvec then some { h with mtvec := value &&& 0xFFFFFFFC#32 }
  else if addr = csrMepc then some { h with mepc := value &&& 0xFFFFFFFC#32 }
  else if addr = csrMcause then some { h with mcause := value }
  else if addr = csrMvendorid ∨ addr = csrMarchid then some h
  else none

/-- `tval` is not implemented. -/
def takeException (cause : U32) : Hart :=
  { h with mepc := h.pc, mcause := cause, pc := h.mtvec }

def reset (resetVector : U32) : Hart where
  pc := resetVector
  x := fun _ => 0#32
  halted := false
  mstatus := 0x00001800#32
  mepc := 0#32
  mtvec := 0#32
  mcause := 0#32

end Hart

/-- A CSR that can be read can be written. -/
theorem writeCsr_of_read {h : Hart} {addr old : U32} (read : h.readCsr addr = some old)
    (value : U32) : ∃ after, h.writeCsr addr value = some after := by
  unfold Hart.readCsr at read
  unfold Hart.writeCsr
  split_ifs at read ⊢ <;> first | exact ⟨_, rfl⟩ | simp_all

/-! ## `Clint` -/

structure Clint where
  cfg : Config
  time : BitVec 64
  deriving DecidableEq, Repr, Inhabited

namespace Clint

def mtimeOffset : U32 := 0xBFF8#32
def mtimehOffset : U32 := 0xBFFC#32

variable (t : Clint)

def reset : Clint := { t with time := 0#64 }
def tick : Clint := { t with time := t.time + 1#64 }

/-- `none` when the address is not in the window. -/
def load (addr size : U32) : Option U32 :=
  if !t.cfg.inClint addr then none
  else if size ≠ 4#32 then some 0#32
  else if addr - t.cfg.clintBase = mtimeOffset then some (t.time.extractLsb' 0 32)
  else if addr - t.cfg.clintBase = mtimehOffset then some (t.time.extractLsb' 32 32)
  else some 0#32

def store (addr size data : U32) : Option Clint :=
  if !t.cfg.inClint addr then none
  else if size ≠ 4#32 then some t
  else if addr - t.cfg.clintBase = mtimeOffset then
    some { t with time := t.time.extractLsb' 32 32 ++ data }
  else if addr - t.cfg.clintBase = mtimehOffset then
    some { t with time := data ++ t.time.extractLsb' 0 32 }
  else some t

end Clint

/-! ## `Uart` -/

/-- The input queue and the bytes put out so far. -/
structure Uart where
  input : List (BitVec 8)
  output : List (BitVec 8)
  deriving DecidableEq, Repr, Inhabited

namespace Uart

variable (u : Uart)

def reset : Uart := ⟨[], []⟩

def setInput (data : List (BitVec 8)) : Uart := { u with input := data }

/-- The offset is not read. -/
def load (size : U32) : Option (U32 × Uart) :=
  if Memory.badSize size then none
  else
    match u.input with
    | [] => some (0xFF#32, u)
    | ch :: rest => some (ch.setWidth 32, { u with input := rest })

def store (size data : U32) : Option Uart :=
  if Memory.badSize size then none
  else some { u with output := u.output ++ [data.extractLsb' 0 8] }

end Uart

end NpcMachine.Emulator
