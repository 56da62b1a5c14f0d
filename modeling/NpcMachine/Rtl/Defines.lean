/-
# Rtl.Defines -- the constants and encodings of `npc_defines.vh`

Groups of `` `define `` codes that only name alternatives (ALU operation, source
select, immediate type, branch condition, CSR operation) are enumerations.
Access sizes stay two-bit vectors: the decoder copies `funct3[1:0]` into them, so
the fourth code occurs on illegal words.
-/
import Mathlib.Data.BitVec

namespace NpcMachine.Rtl

set_option autoImplicit false

abbrev Word := BitVec 32

/-! ## Core configuration -/

def resetVector : Word := 0x20000000#32
def clintBase : Word := 0x02000000#32
def clintSize : Word := 0x00010000#32

/-! ## Control encodings -/

inductive AluOp where
  | add | sub | slt | sltu | xor | or | and | sll | srl | sra
  deriving DecidableEq, Repr, Inhabited

inductive AluSrcA where
  | rs1 | pc | zero
  deriving DecidableEq, Repr, Inhabited

inductive AluSrcB where
  | rs2 | imm
  deriving DecidableEq, Repr, Inhabited

inductive ImmSel where
  | i | s | b | u | j | z
  deriving DecidableEq, Repr, Inhabited

inductive BranchType where
  | none | beq | bne | blt | bge | bltu | bgeu
  deriving DecidableEq, Repr, Inhabited

inductive CsrOp where
  | none | rw | rs | rc | rwi | rsi | rci
  deriving DecidableEq, Repr, Inhabited

def memSizeByte : BitVec 2 := 0b00#2
def memSizeHalf : BitVec 2 := 0b01#2
def memSizeWord : BitVec 2 := 0b10#2

/-! ## Exception causes -/

def causeInstMisaligned : Word := 0#32
def causeInstAccessFault : Word := 1#32
def causeIllegalInst : Word := 2#32
def causeBreakpoint : Word := 3#32
def causeLoadMisaligned : Word := 4#32
def causeLoadAccessFault : Word := 5#32
def causeStoreMisaligned : Word := 6#32
def causeStoreAccessFault : Word := 7#32
def causeEcallM : Word := 11#32

/-! ## CSR addresses and the `mstatus` value -/

def csrMvendorid : BitVec 12 := 0xF11#12
def csrMarchid : BitVec 12 := 0xF12#12
def csrMstatus : BitVec 12 := 0x300#12
def csrMtvec : BitVec 12 := 0x305#12
def csrMepc : BitVec 12 := 0x341#12
def csrMcause : BitVec 12 := 0x342#12

def mstatusReset : Word := 0x00001800#32

/-! ## CLINT registers and AXI response codes -/

def clintMtimeOffset : Word := 0x0000BFF8#32
def clintMtimehOffset : Word := 0x0000BFFC#32

def axrespOkay : BitVec 2 := 0b00#2
def axrespExokay : BitVec 2 := 0b01#2
def axrespSlverr : BitVec 2 := 0b10#2
def axrespDecerr : BitVec 2 := 0b11#2

end NpcMachine.Rtl
