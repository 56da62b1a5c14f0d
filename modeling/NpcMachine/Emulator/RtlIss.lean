/-
# Emulator.RtlIss -- the core composed with the AXI responder of `rtl_iss.cpp`

`toggleClock` follows the two phases of the wrapper: with the clock low the
responder answers the settled core, the edge takes that answer, and with the clock
high the responder answers once more.  A store request is therefore performed when
it enters MEM, at the end of the cycle before the one the core spends it in, and
again in that cycle.
-/
import NpcMachine.Rtl.Core
import NpcMachine.Emulator.Memory
import NpcMachine.Machine.Run

namespace NpcMachine.Emulator

open NpcMachine.Rtl

set_option autoImplicit false

/-- The `read_*_` members of `RtlISS::Impl`: the burst under way. -/
structure ReadBurst where
  active : Bool
  waitCycles : U32
  addr : U32
  size : U32
  beatsLeft : U32
  id : BitVec 4
  deriving DecidableEq, Repr, Inhabited

/-- `RtlISS::Impl`.  `write_active_` and `write_id_` keep their reset values and
`write_seen_this_cycle_` is never read; the three are left out. -/
structure RtlIss where
  top : Core
  /-- The `io_master` inputs as the responder last drove them. -/
  ioMaster : AxiIn
  memory : Memory
  writeResult : MemResult
  read : ReadBurst
  cycle : BitVec 64
  deriving Inhabited

def axiSizeBytes (axsize : BitVec 3) : U32 :=
  if axsize = 0#3 then 1#32
  else if axsize = 1#3 then 2#32
  else if axsize = 2#3 then 4#32
  else 0#32

def extractNarrowWriteData (addr size wdata : U32) : U32 :=
  let shift := ((addr &&& 3#32) * 8#32).toNat
  if size = 1#32 then (wdata >>> shift) &&& 0xFF#32
  else if size = 2#32 then (wdata >>> shift) &&& 0xFFFF#32
  else wdata

/-- `result == MemResult::OK ? 0 : 2`. -/
def axiResp (result : MemResult) : BitVec 2 := if result = .ok then axrespOkay else axrespSlverr

namespace RtlIss

variable (s : RtlIss)

/-- The read of one beat of the active burst. -/
def burstRead : MemResult × U32 :=
  if s.read.size ≠ 0#32 then
    if s.read.id = 0#4 ∧ s.read.size = 4#32 then s.memory.fetch s.read.addr 0#32
    else s.memory.load s.read.addr s.read.size 0#32
  else (.accessFault, 0#32)

/-- The read of a data request. -/
def dataRead (out : AxiOut) : MemResult × U32 :=
  if axiSizeBytes out.arsize = 0#32 then (.accessFault, 0#32)
  else s.memory.load out.araddr (axiSizeBytes out.arsize) 0#32

/-- The R channel: a data read is answered at once and goes before the burst. -/
def driveRead (out : AxiOut) (io : AxiIn) : AxiIn :=
  if out.arvalid && out.arid == 1#4 && out.arlen == 0#8 then
    { io with
      rvalid := true, rresp := axiResp (s.dataRead out).1, rdata := (s.dataRead out).2
      rlast := true, rid := out.arid }
  else if s.read.active && s.read.waitCycles == 0#32 then
    { io with
      rvalid := true, rresp := axiResp s.burstRead.1, rdata := s.burstRead.2
      rlast := s.read.beatsLeft == 1#32, rid := s.read.id }
  else { io with rvalid := false, rresp := 0#2, rdata := 0#32, rlast := false, rid := s.read.id }

/-- The store of a write request. -/
def writeStore (out : AxiOut) : MemResult × Memory :=
  let size := axiSizeBytes out.awsize
  if size = 0#32 then (.accessFault, s.memory)
  else s.memory.store out.awaddr size (extractNarrowWriteData out.awaddr size out.wdata)

/-- The inputs at the start of a drive: every address and every write word is accepted. -/
def acceptAddr : AxiIn := { s.ioMaster with awready := true, wready := true, arready := true }

def writeRequest (out : AxiOut) : Bool := out.awvalid && out.wvalid

/-- `drive_axi_memory`: the read is answered before the write is performed. -/
def driveAxiMemory : RtlIss :=
  if writeRequest s.top.axiOut then
    { s with
      writeResult := (s.writeStore s.top.axiOut).1
      memory := (s.writeStore s.top.axiOut).2
      ioMaster :=
        { s.driveRead s.top.axiOut s.acceptAddr with
          bvalid := true
          bresp := axiResp (s.writeStore s.top.axiOut).1
          bid := s.top.axiOut.awid } }
  else
    { s with
      ioMaster :=
        { s.driveRead s.top.axiOut s.acceptAddr with
          bvalid := false, bresp := axiResp s.writeResult, bid := 0#4 } }

/-- The wait counter of a burst counts down once a cycle. -/
def waited : RtlIss :=
  { s with
    read :=
      { s.read with
        waitCycles := if s.read.waitCycles = 0#32 then 0#32 else s.read.waitCycles - 1#32 } }

/-- The low phase of `toggle_clock`: the state whose `ioMaster` the edge takes. -/
def clockLow : RtlIss := s.waited.driveAxiMemory

def readAddrHandshake : Bool :=
  s.top.axiOut.arvalid && s.ioMaster.arready && s.top.axiOut.arid == 0#4

def readDataHandshake : Bool := s.ioMaster.rvalid && s.top.axiOut.rready && s.read.active

/-- The bookkeeping after the edge, from the handshakes sampled before it. -/
def endRead (r : ReadBurst) : ReadBurst :=
  if s.readDataHandshake then
    if r.beatsLeft = 1#32 then { r with active := false, beatsLeft := 0#32 }
    else { r with beatsLeft := r.beatsLeft - 1#32, addr := r.addr + r.size }
  else r

def startRead (r : ReadBurst) : ReadBurst :=
  if s.readAddrHandshake then
    { active := true
      waitCycles := 2#32
      addr := s.top.axiOut.araddr
      size := axiSizeBytes s.top.axiOut.arsize
      beatsLeft := s.top.axiOut.arlen.setWidth 32 + 1#32
      id := s.top.axiOut.arid }
  else r

/-- The high phase of `toggle_clock` after a low phase, with the core already at
`top`. -/
def clockHigh (low : RtlIss) (top : Core) : RtlIss :=
  let s := driveAxiMemory { low with top := top }
  { s with read := low.startRead (low.endRead s.read), cycle := s.cycle + 1#64 }

/-- `toggle_clock` with `reset` low. -/
def toggleClock : RtlIss :=
  let low := s.clockLow
  low.clockHigh (low.top.next low.ioMaster)

/-- `toggle_clock` with `reset` high; the reset is asynchronous. -/
def toggleReset : RtlIss :=
  let low := clockLow { s with top := s.top.reset }
  low.clockHigh low.top.reset

/-- The assignments of `RtlISS::reset` ahead of its ten cycles. -/
def cleared : RtlIss :=
  { s with
    cycle := 0#64
    read := { s.read with active := false, waitCycles := 0#32, beatsLeft := 0#32 } }

/-- `RtlISS::reset`. -/
def reset : RtlIss := toggleReset^[10] s.cleared

/-- A reset wrapper given a RAM image. -/
def boot (image : Memory) : RtlIss := { s.reset with memory := image }

/-- The state after `n` cycles. -/
def run (n : Nat) : RtlIss := Machine.run (fun s (_ : Unit) => s.toggleClock) s (fun _ => ()) n

theorem run_zero : s.run 0 = s := rfl

theorem run_succ (n : Nat) : s.run (n + 1) = (s.run n).toggleClock := rfl

end RtlIss

end NpcMachine.Emulator
