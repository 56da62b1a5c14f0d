/-
# Rtl.AxiMaster -- `npc_axi_master`

The bridge shares one AXI port between I-cache fills (ID 0, four-beat bursts) and
data accesses (ID 1, single beats).  Of its registers only the state and the fill
address are ever read; `size_reg`, `store_data_reg` and the two data-fault flags
are left out.
-/
import NpcMachine.Rtl.Defines

namespace NpcMachine.Rtl

set_option autoImplicit false

inductive AxiState where
  | idle | ifAr | ifR | dataAr | dataR | dataW | dataB
  deriving DecidableEq, Repr, Inhabited

structure AxiMaster where
  state : AxiState
  addrReg : Word
  deriving DecidableEq, Repr, Inhabited

/-- The requests of the I-cache and of the MEM stage. -/
structure AxiReq where
  reqFetchValid : Bool
  reqFetchAddr : Word
  reqLoadValid : Bool
  reqLoadAddr : Word
  reqLoadSize : BitVec 2
  reqStoreValid : Bool
  reqStoreAddr : Word
  reqStoreSize : BitVec 2
  reqStoreData : Word
  deriving DecidableEq, Repr, Inhabited

/-- The slave side of the AXI port. -/
structure AxiIn where
  awready : Bool
  wready : Bool
  bvalid : Bool
  bresp : BitVec 2
  bid : BitVec 4
  arready : Bool
  rvalid : Bool
  rresp : BitVec 2
  rdata : Word
  rlast : Bool
  rid : BitVec 4
  deriving DecidableEq, Repr, Inhabited

/-- The master side of the AXI port: the address, write-data and ready signals. -/
structure AxiOut where
  awvalid : Bool
  awaddr : Word
  awid : BitVec 4
  awlen : BitVec 8
  awsize : BitVec 3
  wvalid : Bool
  wdata : Word
  wstrb : BitVec 4
  wlast : Bool
  bready : Bool
  arvalid : Bool
  araddr : Word
  arid : BitVec 4
  arlen : BitVec 8
  arsize : BitVec 3
  rready : Bool
  deriving DecidableEq, Repr, Inhabited

def axiIdFetch : BitVec 4 := 0#4
def axiIdData : BitVec 4 := 1#4

/-- `SLVERR` or `DECERR`. -/
def axiFault (resp : BitVec 2) : Bool := resp == axrespSlverr || resp == axrespDecerr

/-- `8 * addr[1:0]`. -/
def byteShift (addr : Word) : Nat := 8 * (addr.extractLsb' 0 2).toNat

def storeWstrb (addr : Word) (size : BitVec 2) : BitVec 4 :=
  if size = memSizeByte then 0b0001#4 <<< (addr.extractLsb' 0 2).toNat
  else if size = memSizeHalf then if addr.getLsbD 1 then 0b1100#4 else 0b0011#4
  else 0b1111#4

def storeWdataShifted (addr : Word) (size : BitVec 2) (data : Word) : Word :=
  if size = memSizeByte then
    let b := data.extractLsb' 0 8
    (b ++ b ++ b ++ b) <<< byteShift addr
  else if size = memSizeHalf then
    let h := data.extractLsb' 0 16
    (h ++ h) <<< byteShift addr
  else data

namespace AxiMaster

variable (m : AxiMaster) (q : AxiReq) (i : AxiIn)

def dataLoadActive : Bool := m.state == .idle && q.reqLoadValid

def startFetch : Bool :=
  m.state == .idle && !q.reqLoadValid && !q.reqStoreValid && q.reqFetchValid

end AxiMaster

def AxiReq.dataStoreActive (q : AxiReq) : Bool := !q.reqLoadValid && q.reqStoreValid

namespace AxiMaster

variable (m : AxiMaster) (q : AxiReq) (i : AxiIn)

def out : AxiOut where
  awvalid := q.dataStoreActive
  awaddr := q.reqStoreAddr
  awid := axiIdData
  awlen := 0#8
  awsize := q.reqStoreSize.setWidth 3
  wvalid := q.dataStoreActive
  wdata := storeWdataShifted q.reqStoreAddr q.reqStoreSize q.reqStoreData
  wstrb := storeWstrb q.reqStoreAddr q.reqStoreSize
  wlast := true
  bready := true
  arvalid := m.state == .ifAr || m.dataLoadActive q
  araddr := if m.dataLoadActive q then q.reqLoadAddr else m.addrReg
  arid := if m.dataLoadActive q then axiIdData else axiIdFetch
  arlen := if m.state = .ifAr then 3#8 else 0#8
  arsize := if m.dataLoadActive q then q.reqLoadSize.setWidth 3 else 0b010#3
  rready := m.state == .ifR || m.dataLoadActive q

def rFetchBeat : Bool := m.state == .ifR && i.rvalid && i.rid == axiIdFetch
def rDataBeat : Bool := m.dataLoadActive q && i.rvalid && i.rid == axiIdData
def bDataBeat : Bool := m.state == .dataB && i.bvalid && i.bid == axiIdData

def reqFetchReady : Bool := m.state == .ifAr && i.arready
def respFetchValid : Bool := m.rFetchBeat i
def respFetchData : Word := i.rdata
def respFetchLast : Bool := i.rlast
def respFetchFault : Bool := m.rFetchBeat i && axiFault i.rresp

def reqLoadReady : Bool := m.rDataBeat q i
def respLoadData : Word := if m.dataLoadActive q then i.rdata else 0#32
def respLoadFault : Bool := m.dataLoadActive q && m.rDataBeat q i && axiFault i.rresp
def respLoadMisaligned : Bool := false

def reqStoreReady : Bool :=
  q.dataStoreActive && i.awready && i.wready && i.bvalid && i.bid == axiIdData

def respStoreFault : Bool := reqStoreReady q i && axiFault i.bresp
def respStoreMisaligned : Bool := false

/-- One clock edge with `reset` low. -/
def next : AxiMaster :=
  match m.state with
  | .idle => if m.startFetch q then { state := .ifAr, addrReg := q.reqFetchAddr } else m
  | .ifAr => if i.arready then { m with state := .ifR } else m
  | .ifR => if m.rFetchBeat i && i.rlast then { m with state := .idle } else m
  | .dataAr => { m with state := .idle }
  | .dataR => { m with state := .idle }
  | .dataW => if i.awready && i.wready then { m with state := .dataB } else m
  | .dataB => if m.bDataBeat i then { m with state := .idle } else m

def reset : AxiMaster where
  state := .idle
  addrReg := 0#32

/-- A data load is the only address with the data ID on the bus. -/
theorem out_of_load {m : AxiMaster} {q : AxiReq} (active : m.dataLoadActive q = true) :
    (m.out q).arvalid = true ∧ (m.out q).arid = 1#4 ∧ (m.out q).arlen = 0#8 ∧
      (m.out q).araddr = q.reqLoadAddr ∧ (m.out q).arsize = q.reqLoadSize.setWidth 3 := by
  have idle : m.state = .idle := by
    simp only [dataLoadActive, Bool.and_eq_true, beq_iff_eq] at active
    exact active.1
  simp only [out, active, idle, Bool.or_true, if_true]
  exact ⟨trivial, rfl, rfl, trivial, trivial⟩

end AxiMaster

end NpcMachine.Rtl
