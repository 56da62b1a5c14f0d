/-
# Rtl.Icache -- `npc_icache`

Two direct-mapped lines of four words, filled by a burst.  A failed fill answers
with `fault_resp_valid`, a registered pulse that carries no address.
-/
import NpcMachine.Rtl.Defines

namespace NpcMachine.Rtl

set_option autoImplicit false

/-- The states of `npc_icache`; the source's fourth code is never assigned. -/
inductive IcacheState where
  | idle | req | data
  deriving DecidableEq, Repr, Inhabited

/-- Four words of a line, addressed by `addr[3:2]`. -/
structure LineWords where
  word0 : Word
  word1 : Word
  word2 : Word
  word3 : Word
  deriving DecidableEq, Repr, Inhabited

namespace LineWords

def zero : LineWords := ⟨0#32, 0#32, 0#32, 0#32⟩

def get (l : LineWords) (word : BitVec 2) : Word :=
  if word = 0#2 then l.word0
  else if word = 1#2 then l.word1
  else if word = 2#2 then l.word2
  else l.word3

def set (l : LineWords) (word : BitVec 2) (data : Word) : LineWords :=
  if word = 0#2 then { l with word0 := data }
  else if word = 1#2 then { l with word1 := data }
  else if word = 2#2 then { l with word2 := data }
  else { l with word3 := data }

theorem get_set (l : LineWords) (word other : BitVec 2) (data : Word) :
    (l.set word data).get other = if other = word then data else l.get other := by
  have cases4 : ∀ w : BitVec 2, w = 0#2 ∨ w = 1#2 ∨ w = 2#2 ∨ w = 3#2 := by decide
  rcases cases4 word with rfl | rfl | rfl | rfl <;>
    rcases cases4 other with rfl | rfl | rfl | rfl <;> simp [set, get]

end LineWords

structure CacheLine where
  valid : Bool
  tag : BitVec 27
  words : LineWords
  deriving DecidableEq, Repr, Inhabited

structure Icache where
  state : IcacheState
  line0 : CacheLine
  line1 : CacheLine
  missAddr : Word
  missTag : BitVec 27
  missIndex : BitVec 1
  missWord : BitVec 2
  fillBeat : BitVec 2
  fillFaultSeen : Bool
  fill : LineWords
  faultRespValid : Bool
  counterAccess : Word
  counterHit : Word
  counterMiss : Word
  counterMissCycles : Word
  deriving DecidableEq, Repr, Inhabited

structure IcacheIn where
  flush : Bool
  lookupValid : Bool
  lookupAddr : Word
  fillReqReady : Bool
  fillRespValid : Bool
  fillRespData : Word
  fillRespLast : Bool
  fillRespFault : Bool
  deriving DecidableEq, Repr, Inhabited

def lookupTag (addr : Word) : BitVec 27 := addr.extractLsb' 5 27
def lookupIndex (addr : Word) : BitVec 1 := addr.extractLsb' 4 1
def lookupWord (addr : Word) : BitVec 2 := addr.extractLsb' 2 2
def lookupAligned (addr : Word) : Bool := addr.extractLsb' 0 2 == 0#2

/-- `{addr[31:4], 4'b0}`: the first byte of the 16-byte line of an address. -/
def lineAddr (addr : Word) : Word := addr.extractLsb' 4 28 ++ 0#4

namespace Icache

variable (c : Icache) (i : IcacheIn)

def line (index : BitVec 1) : CacheLine := if index = 1#1 then c.line1 else c.line0

def hit : Bool :=
  i.lookupValid && lookupAligned i.lookupAddr && c.state == .idle &&
    (c.line (lookupIndex i.lookupAddr)).valid &&
    (c.line (lookupIndex i.lookupAddr)).tag == lookupTag i.lookupAddr

def miss : Bool :=
  i.lookupValid && lookupAligned i.lookupAddr && c.state == .idle && !c.hit i

def hitInst : Word := (c.line (lookupIndex i.lookupAddr)).words.get (lookupWord i.lookupAddr)

def selectedFillWord : Word :=
  if c.missWord == c.fillBeat && i.fillRespValid then i.fillRespData else c.fill.get c.missWord

def fillDoneFault : Bool := c.fillFaultSeen || i.fillRespFault

def fillReqValid : Bool := c.state == .req
def fillReqAddr : Word := lineAddr c.missAddr

def respMisaligned : Bool :=
  i.lookupValid && !lookupAligned i.lookupAddr && c.state == .idle

def respValid : Bool := c.respMisaligned i || c.hit i || c.faultRespValid
def respInst : Word := if c.hit i then c.hitInst i else c.selectedFillWord i
def respFault : Bool := c.faultRespValid

/-- What every edge does first: the pulse drops and a flush clears the valid bits.
A fill that ends in the same cycle is installed after this. -/
def flushed : Icache :=
  if i.flush then
    { c with
      faultRespValid := false
      line0 := { c.line0 with valid := false }
      line1 := { c.line1 with valid := false } }
  else { c with faultRespValid := false }

/-- A missed lookup latches its address and clears the fill buffer. -/
def startMiss : Icache :=
  { c.flushed i with
    counterAccess := c.counterAccess + 1#32
    counterMiss := c.counterMiss + 1#32
    missAddr := i.lookupAddr
    missTag := lookupTag i.lookupAddr
    missIndex := lookupIndex i.lookupAddr
    missWord := lookupWord i.lookupAddr
    fillBeat := 0#2
    fillFaultSeen := false
    fill := .zero
    state := .req }

/-- `STATE_IDLE`. -/
def nextIdle : Icache :=
  if i.lookupValid && !c.faultRespValid then
    if c.hit i then
      { c.flushed i with
        counterAccess := c.counterAccess + 1#32
        counterHit := c.counterHit + 1#32 }
    else if lookupAligned i.lookupAddr then c.startMiss i
    else { c.flushed i with counterAccess := c.counterAccess + 1#32 }
  else c.flushed i

/-- `STATE_REQ`. -/
def nextReq : Icache :=
  { c.flushed i with
    counterMissCycles := c.counterMissCycles + 1#32
    state := if i.fillReqReady then .data else .req }

/-- The line a good fill installs, with the word of the last beat. -/
def filledLine : CacheLine where
  valid := true
  tag := c.missTag
  words := c.fill.set c.fillBeat i.fillRespData

/-- One beat in `STATE_DATA`: the buffer and the fault flag. -/
def beat : Icache :=
  { c.flushed i with
    counterMissCycles := c.counterMissCycles + 1#32
    fill := c.fill.set c.fillBeat i.fillRespData
    fillFaultSeen := c.fillDoneFault i }

/-- `STATE_DATA`. -/
def nextData : Icache :=
  if i.fillRespValid then
    if i.fillRespLast then
      if c.fillDoneFault i then { c.beat i with faultRespValid := true, state := .idle }
      else if c.missIndex = 1#1 then { c.beat i with line1 := c.filledLine i, state := .idle }
      else { c.beat i with line0 := c.filledLine i, state := .idle }
    else { c.beat i with fillBeat := c.fillBeat + 1#2 }
  else { c.flushed i with counterMissCycles := c.counterMissCycles + 1#32 }

/-- One clock edge with `reset` low. -/
def next : Icache :=
  match c.state with
  | .idle => c.nextIdle i
  | .req => c.nextReq i
  | .data => c.nextData i

def reset : Icache where
  state := .idle
  line0 := ⟨false, 0#27, .zero⟩
  line1 := ⟨false, 0#27, .zero⟩
  missAddr := 0#32
  missTag := 0#27
  missIndex := 0#1
  missWord := 0#2
  fillBeat := 0#2
  fillFaultSeen := false
  fill := .zero
  faultRespValid := false
  counterAccess := 0#32
  counterHit := 0#32
  counterMiss := 0#32
  counterMissCycles := 0#32

end Icache

end NpcMachine.Rtl
