/-
# Emulator.BusAgree -- the accesses of the load/store unit over the bus

`Bench` is the wrapper of `rtl_iss.cpp` with the load/store unit and the bridge in the
place of the core.  The unit is given a list of aligned loads and stores, and the fetch
port may ask for anything.  The bridge copies and shifts the data of a store, the
responder takes it back out of the lanes, and performs it in every phase in which it is
shown; a load waits while a fetch burst is under way.

`bus_agrees`: all accesses are answered, and then the results of the loads and the RAM are
those of `EmulatorISS` after the same accesses.
-/
import NpcMachine.Emulator.StoreOrder
import NpcMachine.Emulator.ValueAgree
import NpcMachine.Rtl.LaneAccess

namespace NpcMachine.Emulator

open NpcMachine.Rtl NpcMachine.Machine

set_option autoImplicit false

/-! ## The responder for any master -/

namespace RtlIss

variable (s : RtlIss) (out : AxiOut)

/-- `drive_axi_memory` for a master with these outputs. -/
def driveFor : RtlIss :=
  if writeRequest out then
    { s with
      writeResult := (s.writeStore out).1
      memory := (s.writeStore out).2
      ioMaster :=
        { s.driveRead out s.acceptAddr with
          bvalid := true
          bresp := axiResp (s.writeStore out).1
          bid := out.awid } }
  else
    { s with
      ioMaster :=
        { s.driveRead out s.acceptAddr with
          bvalid := false, bresp := axiResp s.writeResult, bid := 0#4 } }

def endReadFor (r : ReadBurst) : ReadBurst :=
  if s.ioMaster.rvalid && out.rready && s.read.active then
    if r.beatsLeft = 1#32 then { r with active := false, beatsLeft := 0#32 }
    else { r with beatsLeft := r.beatsLeft - 1#32, addr := r.addr + r.size }
  else r

def startReadFor (r : ReadBurst) : ReadBurst :=
  if out.arvalid && s.ioMaster.arready && out.arid == 0#4 then
    { active := true
      waitCycles := 2#32
      addr := out.araddr
      size := axiSizeBytes out.arsize
      beatsLeft := out.arlen.setWidth 32 + 1#32
      id := out.arid }
  else r

/-- `toggle_clock` around a master that answers the edge with the outputs `after`. -/
def toggleFor (after : AxiIn → AxiOut) : RtlIss :=
  let low := s.waited.driveFor out
  let high := low.driveFor (after low.ioMaster)
  { high with read := low.startReadFor out (low.endReadFor out high.read), cycle := high.cycle + 1#64 }

theorem driveAxiMemory_eq : s.driveAxiMemory = s.driveFor s.top.axiOut := rfl

/-- The core is not looked at by the responder. -/
theorem driveFor_top (top : Core) : driveFor { s with top := top } out = { s.driveFor out with top := top } := by
  unfold driveFor
  split_ifs <;> rfl

/-- The wrapper is this around its core. -/
theorem toggleClock_eq : s.toggleClock =
    { s.toggleFor s.top.axiOut (fun io => (s.top.next io).axiOut) with
      top := s.top.next s.clockLow.ioMaster } := by
  have core : s.clockLow.top = s.top := s.clockLow_top
  have low : s.clockLow = s.waited.driveFor s.top.axiOut := rfl
  have read (r : ReadBurst) : s.clockLow.startRead (s.clockLow.endRead r) =
      s.clockLow.startReadFor s.top.axiOut (s.clockLow.endReadFor s.top.axiOut r) := by
    rw [← core]
    rfl
  simp only [toggleClock, clockHigh, driveAxiMemory_eq, driveFor_top, read, core, toggleFor, ← low]

end RtlIss

/-! ## The unit and the bridge in the place of the core -/

/-- What the rest of the core drives in a cycle. -/
structure BenchIn where
  reqFetchValid : Bool
  reqFetchAddr : Word
  clintRdata : Word
  deriving Inhabited

structure Bench where
  port : LsuPort
  wrapper : RtlIss

/-- No access. -/
def idleAccess : Access where
  lsu := ⟨0#32, 0#32, false, false, memSizeWord, false⟩
  sized := by decide
  aligned := by decide
  single := by decide

def accessAt (ops : List Access) (n : Nat) : Access := ops.getD n idleAccess

namespace Bench

variable (ops : List Access) (s : Bench) (i : BenchIn)

/-- The outputs of the bridge; the fetch request and the slave are not in them. -/
def axiOut : AxiOut := s.port.out (accessAt ops) ⟨i.reqFetchValid, i.reqFetchAddr, default⟩

/-- The inputs of the bridge and the unit at the next edge. -/
def portIn : PortIn :=
  ⟨i.reqFetchValid, i.reqFetchAddr, (s.wrapper.waited.driveFor (s.axiOut ops i)).ioMaster⟩

def next : Bench where
  port := s.port.next (accessAt ops) (s.portIn ops i)
  wrapper := s.wrapper.toggleFor (s.axiOut ops i) fun io =>
    (s.port.next (accessAt ops) ⟨i.reqFetchValid, i.reqFetchAddr, io⟩).out (accessAt ops)
      ⟨i.reqFetchValid, i.reqFetchAddr, io⟩

/-- The result of a load that is answered, `none` with a fault. -/
def loadResult : Option (Option Word) :=
  if s.port.reqLoadReady (accessAt ops) (s.portIn ops i) then
    some (if s.port.bridge.respLoadFault (s.port.req (accessAt ops) (s.portIn ops i))
        (s.portIn ops i).axi then none
      else some (s.port.loaded (accessAt ops) (s.portIn ops i) i.clintRdata))
  else none

/-- After reset, with a RAM image. -/
def start (power : RtlIss) (image : Memory) : Bench := ⟨.reset, power.boot image⟩

end Bench

/-! ## The same accesses in `EmulatorISS` -/

/-- The load and the store of each size. -/
def loadType (a : Access) : InstType :=
  if a.lsu.memSize = memSizeByte then if a.lsu.memSext then .lb else .lbu
  else if a.lsu.memSize = memSizeHalf then if a.lsu.memSext then .lh else .lhu
  else .lw

def storeType (a : Access) : InstType :=
  if a.lsu.memSize = memSizeByte then .sb
  else if a.lsu.memSize = memSizeHalf then .sh
  else .sw

namespace EmulatorIss

/-- The access of a load or store instruction, as in `execute`. -/
def access (e : EmulatorIss) (a : Access) : EmulatorIss :=
  if a.lsu.memRead then (e.loadMem a.lsu.memAddr (accessSize (loadType a))).2.2
  else if a.lsu.memWrite then
    (e.storeMem a.lsu.memAddr (accessSize (storeType a)) a.lsu.storeData).2
  else e

/-- What a load writes to its register, `none` when it traps. -/
def loadResult (e : EmulatorIss) (a : Access) : Option (Option U32) :=
  if a.lsu.memRead then
    match e.loadMem a.lsu.memAddr (accessSize (loadType a)) with
    | (.ok, value, _) => some (some (loadValue (loadType a) value))
    | _ => some none
  else none

end EmulatorIss

/-- An access, if it is one, to neither device. -/
def Plain (cfg : Config) (a : Access) : Prop := a.lsu.memRead = true ∨ a.lsu.memWrite = true →
  a.lsu.clintIsAccess = false ∧ cfg.inClint a.lsu.memAddr = false ∧ cfg.inUart a.lsu.memAddr = false

/-- The interpreter after the first `n` accesses, and the results of the loads among them. -/
abbrev EmulatorIss.accesses (e : EmulatorIss) (ops : List Access) (n : Nat) : EmulatorIss :=
  Machine.run EmulatorIss.access e (accessAt ops) n

abbrev EmulatorIss.loadResults (e : EmulatorIss) (ops : List Access) (n : Nat) : List (Option U32) :=
  Machine.log EmulatorIss.loadResult EmulatorIss.access e (accessAt ops) n

/-- The bench after `n` cycles, and the results of the loads that were answered. -/
abbrev Bench.cycles (s : Bench) (ops : List Access) (ins : Nat → BenchIn) (n : Nat) : Bench :=
  Machine.run (Bench.next ops) s ins n

abbrev Bench.loadResults (s : Bench) (ops : List Access) (ins : Nat → BenchIn) (n : Nat) :
    List (Option Word) :=
  Machine.log (Bench.loadResult ops) (Bench.next ops) s ins n

/-- The store of an access. -/
def storeOfAccess (a : Access) : Option StoreOp :=
  if a.lsu.reqStoreValid then some ⟨a.lsu.memAddr, a.lsu.memSize, a.lsu.storeData⟩ else none

/-! ## One access in `EmulatorISS` -/

section Interpreter

variable {e : EmulatorIss} {a : Access}

theorem accessSize_loadType (a : Access) :
    accessSize (loadType a) = axiSizeBytes (a.lsu.memSize.setWidth 3) := by
  have sizes := a.sizes
  unfold loadType
  rcases sizes with size | size | size
  all_goals
    rw [size]
    cases a.lsu.memSext <;> rfl

theorem accessSize_storeType (a : Access) :
    accessSize (storeType a) = axiSizeBytes (a.lsu.memSize.setWidth 3) := by
  have sizes := a.sizes
  unfold storeType
  rcases sizes with size | size | size <;> rw [size] <;> rfl

/-- The instruction has the size and the extension of the access. -/
theorem control_loadType (a : Access) : (control (loadType a)).memRead = true ∧
    ∀ data, LsuIn.loadAlignedData ⟨0#32, 0#32, true, false, (control (loadType a)).memSize,
      (control (loadType a)).memSext⟩ data = a.lsu.loadAlignedData data := by
  have sizes := a.sizes
  unfold loadType LsuIn.loadAlignedData
  rcases sizes with size | size | size
  all_goals
    rw [size]
    cases a.lsu.memSext <;> exact ⟨rfl, fun _ => rfl⟩

theorem access_cfg (plain : Plain e.cfg a) : (e.access a).cfg = e.cfg := by
  unfold EmulatorIss.access
  split_ifs with reads writes
  · obtain ⟨-, clint, uart⟩ := plain (Or.inl reads)
    rw [EmulatorIss.loadMem, clint, uart]
    rfl
  · obtain ⟨-, clint, uart⟩ := plain (Or.inr writes)
    rw [EmulatorIss.storeMem, clint, uart]
    rfl
  · rfl

/-- Outside the CLINT window the unit asks the bridge for every access. -/
theorem requests_of_plain {cfg : Config} (plain : Plain cfg a) :
    a.lsu.reqLoadValid = a.lsu.memRead ∧ a.lsu.reqStoreValid = a.lsu.memWrite := by
  unfold LsuIn.reqLoadValid LsuIn.reqStoreValid
  constructor
  · cases reads : a.lsu.memRead with
    | false => rfl
    | true =>
        rw [(plain (Or.inl reads)).1]
        rfl
  · cases writes : a.lsu.memWrite with
    | false => rfl
    | true =>
        rw [(plain (Or.inr writes)).1]
        rfl

/-- A store of the interpreter is performed on its RAM. -/
theorem access_memory (plain : Plain e.cfg a) :
    (e.access a).memory = performOption (storeOfAccess a) e.memory := by
  unfold EmulatorIss.access storeOfAccess
  rw [(requests_of_plain plain).2]
  cases reads : a.lsu.memRead with
  | true =>
      obtain ⟨-, clint, uart⟩ := plain (Or.inl reads)
      have writes : a.lsu.memWrite = false := Bool.eq_false_iff.mpr fun writes => a.single ⟨reads, writes⟩
      rw [writes, EmulatorIss.loadMem, clint, uart]
      rfl
  | false =>
      cases writes : a.lsu.memWrite with
      | false => rfl
      | true =>
          obtain ⟨-, clint, uart⟩ := plain (Or.inr writes)
          rw [EmulatorIss.storeMem, clint, uart, accessSize_storeType]
          rfl

/-- A load of the interpreter widens the word that its RAM answers, as the unit does. -/
theorem loadResult_eq (plain : Plain e.cfg a) (reads : a.lsu.memRead = true) :
    e.loadResult a =
      let read := e.memory.load a.lsu.memAddr (axiSizeBytes (a.lsu.memSize.setWidth 3)) 0#32
      some (if read.1 = .ok then some (a.lsu.loadAlignedData read.2) else none) := by
  obtain ⟨-, clint, uart⟩ := plain (Or.inl reads)
  have value : EmulatorIss.loadValue (loadType a) (e.memory.load a.lsu.memAddr (accessSize (loadType a)) 0#32).2 =
      a.lsu.loadAlignedData (e.memory.load a.lsu.memAddr (accessSize (loadType a)) 0#32).2 := by
    obtain ⟨isLoad, same⟩ := control_loadType a
    rw [loadValue_type isLoad, same]
  rw [accessSize_loadType] at value
  rw [EmulatorIss.loadResult, if_pos reads, EmulatorIss.loadMem, clint, uart, accessSize_loadType]
  simp only [Bool.false_eq_true, if_false]
  rw [← value]
  cases (e.memory.load a.lsu.memAddr (axiSizeBytes (a.lsu.memSize.setWidth 3)) 0#32).1 <;> rfl

end Interpreter

/-! ## One drive -/

namespace RtlIss

variable {w : RtlIss}

/-- A drive performs the store of the access in the unit. -/
theorem driveFor_memory (seq : Nat → Access) (p : LsuPort) (i : PortIn) :
    (w.driveFor (p.out seq i)).memory = performOption (storeOfAccess (p.access seq)) w.memory := by
  obtain ⟨awvalid, wvalid, awaddr, -, wdata⟩ := LsuPort.out_store seq p i
  have store : w.writeStore (p.out seq i) = w.memory.store (p.access seq).lsu.memAddr
      (axiSizeBytes ((p.access seq).lsu.memSize.setWidth 3)) (p.access seq).lsu.storeData := by
    unfold writeStore
    rw [awaddr, wdata]
    exact narrow_store w.memory _ _ _
  unfold driveFor storeOfAccess writeRequest
  rw [awvalid, wvalid, Bool.and_self, store]
  split_ifs <;> rfl

theorem driveFor_burst (out : AxiOut) : (w.driveFor out).read = w.read := by
  unfold driveFor
  split_ifs <;> rfl

theorem endReadFor_quiet {out : AxiOut} {r : ReadBurst} (quiet : w.read.active = false) :
    w.endReadFor out r = r := by
  rw [endReadFor, quiet, Bool.and_false, if_neg Bool.false_ne_true]

theorem startReadFor_none {out : AxiOut} {r : ReadBurst}
    (noFetch : (out.arvalid && out.arid == 0#4) = false) : w.startReadFor out r = r := by
  have none : (out.arvalid && w.ioMaster.arready && out.arid == 0#4) = false := by
    rw [Bool.and_right_comm, noFetch, Bool.false_and]
  rw [startReadFor, none, if_neg Bool.false_ne_true]

theorem driveFor_ready (out : AxiOut) : (w.driveFor out).ioMaster.arready = true ∧
    (w.driveFor out).ioMaster.awready = true ∧ (w.driveFor out).ioMaster.wready = true := by
  unfold driveFor driveRead
  split_ifs <;> exact ⟨rfl, rfl, rfl⟩

/-- A write is answered in the drive in which it is shown. -/
theorem driveFor_write {out : AxiOut} (writes : writeRequest out = true) :
    (w.driveFor out).ioMaster.bvalid = true ∧ (w.driveFor out).ioMaster.bid = out.awid := by
  rw [driveFor, if_pos writes]
  exact ⟨rfl, rfl⟩

/-- The R channel of a drive. -/
theorem driveFor_read (out : AxiOut) :
    (w.driveFor out).ioMaster.rvalid = (w.driveRead out w.acceptAddr).rvalid ∧
      (w.driveFor out).ioMaster.rid = (w.driveRead out w.acceptAddr).rid ∧
      (w.driveFor out).ioMaster.rdata = (w.driveRead out w.acceptAddr).rdata ∧
      (w.driveFor out).ioMaster.rresp = (w.driveRead out w.acceptAddr).rresp ∧
      (w.driveFor out).ioMaster.rlast = (w.driveRead out w.acceptAddr).rlast := by
  unfold driveFor
  split_ifs <;> exact ⟨rfl, rfl, rfl, rfl, rfl⟩

end RtlIss

namespace Bench

variable {ops : List Access} {s : Bench} {i : BenchIn}

/-- The access in the unit. -/
theorem access_eq : s.port.access (accessAt ops) = accessAt ops s.port.issued := rfl

theorem next_memory : (s.next ops i).wrapper.memory =
    performOption (storeOfAccess (accessAt ops (s.next ops i).port.issued))
      (performOption (storeOfAccess (accessAt ops s.port.issued)) s.wrapper.memory) := by
  have low : (s.wrapper.waited.driveFor (s.axiOut ops i)).memory =
      performOption (storeOfAccess (accessAt ops s.port.issued)) s.wrapper.memory :=
    RtlIss.driveFor_memory (accessAt ops) s.port _
  rw [← low]
  exact RtlIss.driveFor_memory (accessAt ops) (s.next ops i).port _

/-- A load that the bridge shows is answered at once, from the RAM. -/
theorem loadReply (active : s.port.bridge.dataLoadActive (s.port.req (accessAt ops) (s.portIn ops i)) =
    true) :
    let a := accessAt ops s.port.issued
    let read := s.wrapper.memory.load a.lsu.memAddr (axiSizeBytes (a.lsu.memSize.setWidth 3)) 0#32
    s.port.reqLoadReady (accessAt ops) (s.portIn ops i) = true ∧
      (s.portIn ops i).axi.rdata = read.2 ∧ (s.portIn ops i).axi.rresp = axiResp read.1 := by
  intro a read
  obtain ⟨valid, id, len, addr, size⟩ := AxiMaster.out_of_load active
  change (s.axiOut ops i).arvalid = true at valid
  change (s.axiOut ops i).arid = 1#4 at id
  change (s.axiOut ops i).arlen = 0#8 at len
  change (s.axiOut ops i).araddr = a.lsu.memAddr at addr
  change (s.axiOut ops i).arsize = a.lsu.memSize.setWidth 3 at size
  obtain ⟨rvalid, rid, rdata, rresp, -⟩ := s.wrapper.waited.driveFor_read (s.axiOut ops i)
  have asks : ((s.axiOut ops i).arvalid && (s.axiOut ops i).arid == 1#4 &&
      (s.axiOut ops i).arlen == 0#8) = true := by
    rw [valid, id, len]
    rfl
  have answer : s.wrapper.waited.dataRead (s.axiOut ops i) = read := by
    rw [RtlIss.dataRead_eq, addr, size]
    rfl
  rw [RtlIss.driveRead, if_pos asks, answer] at rvalid rid rdata rresp
  refine ⟨?_, rdata, rresp⟩
  unfold LsuPort.reqLoadReady AxiMaster.reqLoadReady AxiMaster.rDataBeat
  rw [active]
  change (true && (s.wrapper.waited.driveFor (s.axiOut ops i)).ioMaster.rvalid &&
    (s.wrapper.waited.driveFor (s.axiOut ops i)).ioMaster.rid == axiIdData) = true
  rw [rvalid, rid, id]
  rfl

/-- A load that is not shown is not answered. -/
theorem active_of_ready (ready : s.port.reqLoadReady (accessAt ops) (s.portIn ops i) = true) :
    s.port.bridge.dataLoadActive (s.port.req (accessAt ops) (s.portIn ops i)) = true := by
  simp only [LsuPort.reqLoadReady, AxiMaster.reqLoadReady, AxiMaster.rDataBeat,
    Bool.and_eq_true] at ready
  exact ready.1.1

/-- The result of a load is that of the interpreter on the same RAM. -/
theorem loadResult_some {e : EmulatorIss} (plain : Plain e.cfg (accessAt ops s.port.issued))
    (same : s.wrapper.memory = e.memory)
    (ready : s.port.reqLoadReady (accessAt ops) (s.portIn ops i) = true) :
    s.loadResult ops i = e.loadResult (accessAt ops s.port.issued) := by
  have active := active_of_ready ready
  obtain ⟨-, rdata, rresp⟩ := loadReply active
  obtain ⟨loads, -, -, -, loaded⟩ := LsuPort.loaded_of_ready ready
  have reads : (accessAt ops s.port.issued).lsu.memRead = true :=
    (requests_of_plain plain).1.symm.trans loads
  have fault : s.port.bridge.respLoadFault (s.port.req (accessAt ops) (s.portIn ops i))
      (s.portIn ops i).axi = axiFault (s.portIn ops i).axi.rresp := by
    have beat : s.port.bridge.rDataBeat (s.port.req (accessAt ops) (s.portIn ops i))
        (s.portIn ops i).axi = true := ready
    rw [AxiMaster.respLoadFault, active, beat, Bool.true_and, Bool.true_and]
  rw [loadResult, if_pos ready, fault, loaded, rdata, rresp, loadResult_eq plain reads, same, access_eq]
  simp only
  cases (e.memory.load (accessAt ops s.port.issued).lsu.memAddr
    (axiSizeBytes ((accessAt ops s.port.issued).lsu.memSize.setWidth 3)) 0#32).1 <;> rfl

theorem store_ready (stores : (accessAt ops s.port.issued).lsu.reqStoreValid = true) :
    s.port.reqStoreReady (accessAt ops) (s.portIn ops i) = true := by
  obtain ⟨awvalid, wvalid, -⟩ := LsuPort.out_store (accessAt ops) s.port
    ⟨i.reqFetchValid, i.reqFetchAddr, default⟩
  have active : (s.port.req (accessAt ops) (s.portIn ops i)).dataStoreActive = true :=
    awvalid.trans stores
  have writes : RtlIss.writeRequest (s.axiOut ops i) = true := by
    unfold RtlIss.writeRequest axiOut
    rw [awvalid, wvalid, access_eq, stores]
    rfl
  obtain ⟨-, awready, wready⟩ := s.wrapper.waited.driveFor_ready (s.axiOut ops i)
  obtain ⟨bvalid, bid⟩ := s.wrapper.waited.driveFor_write writes
  unfold LsuPort.reqStoreReady AxiMaster.reqStoreReady
  rw [active]
  change (true && (s.wrapper.waited.driveFor (s.axiOut ops i)).ioMaster.awready &&
    (s.wrapper.waited.driveFor (s.axiOut ops i)).ioMaster.wready &&
    (s.wrapper.waited.driveFor (s.axiOut ops i)).ioMaster.bvalid &&
    (s.wrapper.waited.driveFor (s.axiOut ops i)).ioMaster.bid == axiIdData) = true
  rw [awready, wready, bvalid, bid]
  rfl

/-- An access is done when the bridge is free or it is no load. -/
theorem done_of_free (free : s.port.bridge.state = .idle ∨
    (accessAt ops s.port.issued).lsu.reqLoadValid = false) :
    s.port.done (accessAt ops) (s.portIn ops i) = true := by
  unfold LsuPort.done
  rw [access_eq]
  have load : (!(accessAt ops s.port.issued).lsu.reqLoadValid ||
      s.port.reqLoadReady (accessAt ops) (s.portIn ops i)) = true := by
    cases loads : (accessAt ops s.port.issued).lsu.reqLoadValid with
    | false => rfl
    | true =>
        have idle := free.resolve_right (by simp [loads])
        have active : s.port.bridge.dataLoadActive (s.port.req (accessAt ops) (s.portIn ops i)) =
            true := by
          unfold AxiMaster.dataLoadActive
          rw [idle]
          exact loads
        rw [(loadReply active).1]
        rfl
  have store : (!(accessAt ops s.port.issued).lsu.reqStoreValid ||
      s.port.reqStoreReady (accessAt ops) (s.portIn ops i)) = true := by
    cases stores : (accessAt ops s.port.issued).lsu.reqStoreValid with
    | false => rfl
    | true =>
        rw [store_ready stores]
        rfl
  rw [load, store]
  rfl

/-- A load is answered in the cycle in which it is done, and nothing else is. -/
theorem ready_iff : s.port.reqLoadReady (accessAt ops) (s.portIn ops i) = true ↔
    (accessAt ops s.port.issued).lsu.reqLoadValid = true ∧
      s.port.done (accessAt ops) (s.portIn ops i) = true := by
  constructor
  · intro ready
    have loads : (accessAt ops s.port.issued).lsu.reqLoadValid = true :=
      (LsuPort.loaded_of_ready ready).1
    refine ⟨loads, ?_⟩
    rw [LsuPort.done, ready, access_eq, (accessAt ops s.port.issued).noStore loads, Bool.or_true]
    rfl
  · rintro ⟨loads, done⟩
    rw [LsuPort.done, access_eq, loads] at done
    exact (Bool.and_eq_true_iff.mp done).1

/-! ## Fetch bursts -/

/-- The bridge and the responder are at the same place of a burst. -/
def Paired (s : Bench) : Prop :=
  match s.port.bridge.state with
  | .idle | .ifAr => s.wrapper.read.active = false
  | .ifR => s.wrapper.read.active = true ∧ s.wrapper.read.id = 0#4 ∧ 1 ≤ s.wrapper.read.beatsLeft.toNat
  | _ => False

/-- A bound on the cycles to the end of the burst. -/
def busy (s : Bench) : Nat :=
  match s.port.bridge.state with
  | .ifAr => 7
  | .ifR => s.wrapper.read.waitCycles.toNat + s.wrapper.read.beatsLeft.toNat
  | _ => 0

theorem next_bridge : (s.next ops i).port.bridge = s.port.bridge.next
    (s.port.req (accessAt ops) (s.portIn ops i)) (s.portIn ops i).axi := rfl

theorem next_read : (s.next ops i).wrapper.read =
    (s.wrapper.waited.driveFor (s.axiOut ops i)).startReadFor (s.axiOut ops i)
      ((s.wrapper.waited.driveFor (s.axiOut ops i)).endReadFor (s.axiOut ops i)
        s.wrapper.waited.read) := by
  simp only [next, RtlIss.toggleFor, RtlIss.driveFor_burst]

/-- From an idle bridge a fetch may start; the responder learns of it one cycle later. -/
theorem paired_of_idle (paired : s.Paired) (idle : s.port.bridge.state = .idle) :
    (s.next ops i).Paired := by
  have quiet : s.wrapper.read.active = false := by simpa [Paired, idle] using paired
  have noFetch : ((s.axiOut ops i).arvalid && (s.axiOut ops i).arid == 0#4) = false := by
    simp only [axiOut, LsuPort.out, AxiMaster.out, idle]
    split_ifs with active <;> simp [active, axiIdData]
  have read : (s.next ops i).wrapper.read = s.wrapper.waited.read := by
    rw [next_read, RtlIss.endReadFor_quiet (by rw [RtlIss.driveFor_burst]; exact quiet)]
    exact RtlIss.startReadFor_none noFetch
  have still : (s.next ops i).wrapper.read.active = false := by
    rw [read]
    exact quiet
  unfold Paired
  rw [next_bridge, AxiMaster.next, idle]
  simp only
  split_ifs
  · exact still
  · rw [idle]
    exact still

/-- Loads wait for a busy bridge. -/
theorem quiet_of_busy (busy : s.port.bridge.state ≠ .idle) (q : AxiReq) :
    s.port.bridge.dataLoadActive q = false := by
  rw [AxiMaster.dataLoadActive, Bool.and_eq_false_iff, beq_eq_false_iff_ne]
  exact Or.inl busy

/-- An address that is shown is taken, and a burst of four words starts. -/
theorem paired_of_ifAr (shows : s.port.bridge.state = .ifAr) :
    (s.next ops i).Paired ∧ (s.next ops i).busy < s.busy := by
  have quietLoad := quiet_of_busy (s := s) (by simp [shows])
  obtain ⟨arready, -⟩ := s.wrapper.waited.driveFor_ready (s.axiOut ops i)
  have fetches : ((s.axiOut ops i).arvalid && (s.wrapper.waited.driveFor (s.axiOut ops i)).ioMaster.arready &&
      (s.axiOut ops i).arid == 0#4) = true := by
    rw [arready]
    simp [axiOut, LsuPort.out, AxiMaster.out, shows, quietLoad, axiIdFetch]
  have beats : (s.axiOut ops i).arlen = 3#8 := by
    simp [axiOut, LsuPort.out, AxiMaster.out, shows]
  have id : (s.axiOut ops i).arid = 0#4 := by
    simpa using (Bool.and_eq_true_iff.mp fetches).2
  have read : (s.next ops i).wrapper.read = ⟨true, 2#32, (s.axiOut ops i).araddr,
      axiSizeBytes (s.axiOut ops i).arsize, 4#32, 0#4⟩ := by
    rw [next_read, RtlIss.startReadFor, if_pos fetches, beats, id]
    rfl
  have taken : (s.next ops i).port.bridge.state = .ifR := by
    have ready : (s.portIn ops i).axi.arready = true := arready
    rw [next_bridge, AxiMaster.next, shows]
    simp only [ready, if_true]
  unfold Paired busy
  rw [taken, shows, read]
  have four : (4#32 : U32).toNat = 4 := rfl
  have two : (2#32 : U32).toNat = 2 := rfl
  simp only
  exact ⟨⟨trivial, trivial, by omega⟩, by omega⟩

section Burst

variable (ops i) (reads : s.port.bridge.state = .ifR) (going : s.wrapper.read.active = true)

include reads

theorem out_of_ifR : (s.axiOut ops i).arvalid = false ∧ (s.axiOut ops i).rready = true := by
  have quietLoad := quiet_of_busy (s := s) (by simp [reads])
  simp [axiOut, LsuPort.out, AxiMaster.out, reads, quietLoad]

theorem burst_state : (s.next ops i).port.bridge.state =
    if (s.portIn ops i).axi.rvalid && (s.portIn ops i).axi.rid == axiIdFetch &&
      (s.portIn ops i).axi.rlast then .idle else .ifR := by
  rw [next_bridge, AxiMaster.next, reads]
  simp only [AxiMaster.rFetchBeat, reads, beq_self_eq_true, Bool.true_and]
  split_ifs
  · rfl
  · exact reads

theorem burst_busy : s.busy = s.wrapper.read.waitCycles.toNat + s.wrapper.read.beatsLeft.toNat := by
  rw [busy, reads]

include going

theorem burst_read : (s.next ops i).wrapper.read =
    if (s.portIn ops i).axi.rvalid then
      if s.wrapper.read.beatsLeft = 1#32 then
        { s.wrapper.waited.read with active := false, beatsLeft := 0#32 }
      else
        { s.wrapper.waited.read with
          active := true
          beatsLeft := s.wrapper.read.beatsLeft - 1#32
          addr := s.wrapper.read.addr + s.wrapper.read.size }
    else s.wrapper.waited.read := by
  obtain ⟨noAddr, rready⟩ := out_of_ifR ops i reads
  have active : s.wrapper.waited.read.active = true := going
  rw [next_read, RtlIss.startReadFor_none (by rw [noAddr]; rfl), RtlIss.endReadFor, rready,
    RtlIss.driveFor_burst, active, Bool.and_true, Bool.and_true]
  rfl

/-- A word is on the R channel when the wait is over. -/
theorem burst_channel :
    (s.portIn ops i).axi.rvalid = decide (s.wrapper.waited.read.waitCycles = 0#32) ∧
      (s.wrapper.waited.read.waitCycles = 0#32 → (s.portIn ops i).axi.rid = s.wrapper.read.id ∧
        (s.portIn ops i).axi.rlast = (s.wrapper.read.beatsLeft == 1#32)) := by
  obtain ⟨noAddr, -⟩ := out_of_ifR ops i reads
  have active : s.wrapper.waited.read.active = true := going
  obtain ⟨rvalid, rid, -, -, rlast⟩ := s.wrapper.waited.driveFor_read (s.axiOut ops i)
  rw [RtlIss.driveRead, noAddr, active] at rvalid rid rlast
  simp only [Bool.false_and, Bool.true_and, Bool.false_eq_true, if_false, beq_iff_eq] at rvalid rid rlast
  by_cases done : s.wrapper.waited.read.waitCycles = 0#32
  · rw [if_pos done] at rvalid rid rlast
    exact ⟨rvalid.trans (decide_eq_true done).symm, fun _ => ⟨rid, rlast⟩⟩
  · rw [if_neg done] at rvalid
    exact ⟨rvalid.trans (decide_eq_false done).symm, fun none => absurd none done⟩

/-- A word is taken, and with the last one the burst ends. -/
theorem paired_of_word (id : s.wrapper.read.id = 0#4) (pos : 1 ≤ s.wrapper.read.beatsLeft.toNat)
    (arrives : s.wrapper.waited.read.waitCycles = 0#32) :
    (s.next ops i).Paired ∧ (s.next ops i).busy < s.busy := by
  obtain ⟨rvalid, word⟩ := burst_channel ops i reads going
  obtain ⟨rid, rlast⟩ := word arrives
  have state := burst_state ops i reads
  have read := burst_read ops i reads going
  rw [decide_eq_true arrives] at rvalid
  rw [rvalid, if_pos rfl] at read
  rw [rvalid, rid, rlast, id] at state
  by_cases last : s.wrapper.read.beatsLeft = 1#32
  · have ended : (s.next ops i).port.bridge.state = .idle := by
      rw [state, last]
      rfl
    have closed : (s.next ops i).wrapper.read.active = false := by
      rw [read, if_pos last]
    refine ⟨by simpa [Paired, ended] using closed, ?_⟩
    rw [burst_busy reads, busy, ended]
    simp only
    omega
  · have stays : (s.next ops i).port.bridge.state = .ifR := by simp [state, last]
    have rest : (s.wrapper.read.beatsLeft - 1#32).toNat = s.wrapper.read.beatsLeft.toNat - 1 :=
      BitVec.toNat_sub_of_le pos
    have several : 1 < s.wrapper.read.beatsLeft.toNat :=
      Nat.lt_of_le_of_ne pos fun one => last (BitVec.eq_of_toNat_eq one.symm)
    rw [if_neg last] at read
    unfold Paired
    rw [burst_busy reads, busy, stays, read, arrives]
    simp only [rest, BitVec.toNat_ofNat]
    exact ⟨⟨trivial, id, by omega⟩, by omega⟩

theorem paired_of_wait (id : s.wrapper.read.id = 0#4) (pos : 1 ≤ s.wrapper.read.beatsLeft.toNat)
    (waits : ¬ s.wrapper.waited.read.waitCycles = 0#32) :
    (s.next ops i).Paired ∧ (s.next ops i).busy < s.busy := by
  obtain ⟨rvalid, -⟩ := burst_channel ops i reads going
  have state := burst_state ops i reads
  have read := burst_read ops i reads going
  rw [decide_eq_false waits] at rvalid
  rw [rvalid, if_neg Bool.false_ne_true] at read
  have stays : (s.next ops i).port.bridge.state = .ifR := by
    rw [state, rvalid]
    rfl
  have down : s.wrapper.waited.read.waitCycles =
      if s.wrapper.read.waitCycles = 0#32 then 0#32 else s.wrapper.read.waitCycles - 1#32 := rfl
  have waiting : s.wrapper.read.waitCycles ≠ 0#32 := by
    intro none
    rw [down, if_pos none] at waits
    exact waits rfl
  have above : 1 ≤ s.wrapper.read.waitCycles.toNat :=
    Nat.one_le_iff_ne_zero.mpr fun zero => waiting (BitVec.eq_of_toNat_eq zero)
  have less : (s.wrapper.read.waitCycles - 1#32).toNat = s.wrapper.read.waitCycles.toNat - 1 :=
    BitVec.toNat_sub_of_le above
  unfold Paired
  rw [burst_busy reads, busy, stays, read, down, if_neg waiting, less]
  refine ⟨⟨going, id, pos⟩, ?_⟩
  change _ + s.wrapper.read.beatsLeft.toNat < _
  omega

end Burst

/-- A burst goes on, at one word a cycle after the wait. -/
theorem paired_of_ifR (paired : s.Paired) (reads : s.port.bridge.state = .ifR) :
    (s.next ops i).Paired ∧ (s.next ops i).busy < s.busy := by
  obtain ⟨going, id, pos⟩ : s.wrapper.read.active = true ∧ s.wrapper.read.id = 0#4 ∧
      1 ≤ s.wrapper.read.beatsLeft.toNat := by simpa [Paired, reads] using paired
  by_cases arrives : s.wrapper.waited.read.waitCycles = 0#32
  · exact paired_of_word ops i reads going id pos arrives
  · exact paired_of_wait ops i reads going id pos arrives

/-- The bridge is never in one of its states for data, and no burst lasts. -/
theorem next_paired (paired : s.Paired) (i : BenchIn) : (s.next ops i).Paired ∧
    (s.port.bridge.state ≠ .idle → (s.next ops i).busy < s.busy) := by
  cases state : s.port.bridge.state with
  | idle => exact ⟨paired_of_idle paired state, fun busy => absurd rfl busy⟩
  | ifAr => exact ⟨(paired_of_ifAr state).1, fun _ => (paired_of_ifAr state).2⟩
  | ifR => exact ⟨(paired_of_ifR paired state).1, fun _ => (paired_of_ifR paired state).2⟩
  | _ => simp [Paired, state] at paired

end Bench

/-! ## A run -/

section Run

variable {e : EmulatorIss} {ops : List Access}

theorem plain_accessAt {cfg : Config} (plain : ∀ a ∈ ops, Plain cfg a) (n : Nat) :
    Plain cfg (accessAt ops n) := by
  rcases Nat.lt_or_ge n ops.length with inside | beyond
  · have held : accessAt ops n = ops[n] := by simp [accessAt, inside]
    rw [held]
    exact plain _ (List.getElem_mem inside)
  · have none : accessAt ops n = idleAccess := by simp [accessAt, beyond]
    rw [none]
    intro access
    simp [idleAccess] at access

variable (plain : ∀ a ∈ ops, Plain e.cfg a)

include plain

theorem accesses_cfg (n : Nat) : (e.accesses ops n).cfg = e.cfg := by
  induction n with
  | zero => rfl
  | succ n ih =>
      rw [EmulatorIss.accesses, run_succ, access_cfg (by rw [ih]; exact plain_accessAt plain n)]
      exact ih

theorem plain_after (n : Nat) : Plain (e.accesses ops n).cfg (accessAt ops n) := by
  rw [accesses_cfg plain n]
  exact plain_accessAt plain n

theorem accesses_memory (n : Nat) : (e.accesses ops (n + 1)).memory =
    performOption (storeOfAccess (accessAt ops n)) (e.accesses ops n).memory :=
  access_memory (plain_after plain n)

/-- The RAM of the bench has the accesses that are done, or these and the one in the unit. -/
def Bench.Held (e : EmulatorIss) (ops : List Access) (s : Bench) : Prop :=
  s.wrapper.memory = (e.accesses ops s.port.issued).memory ∨
    s.wrapper.memory = (e.accesses ops (s.port.issued + 1)).memory

theorem Bench.Held.performed {s : Bench} (held : s.Held e ops) :
    performOption (storeOfAccess (accessAt ops s.port.issued)) s.wrapper.memory =
      (e.accesses ops (s.port.issued + 1)).memory := by
  have next := accesses_memory plain s.port.issued
  rcases held with same | same
  · rw [same, next]
  · rw [same, next, performOption_again]

theorem Bench.Held.next {s : Bench} (held : s.Held e ops) (i : BenchIn) :
    (s.next ops i).Held e ops := by
  have performed := held.performed plain
  right
  rw [Bench.next_memory, performed]
  have issued : (s.next ops i).port.issued =
      if s.port.done (accessAt ops) (s.portIn ops i) then s.port.issued + 1 else s.port.issued := rfl
  rw [issued]
  split_ifs
  · exact (accesses_memory plain (s.port.issued + 1)).symm
  · rw [accesses_memory plain s.port.issued, performOption_again]

/-- The load that is answered now has the result of the interpreter. -/
theorem Bench.Held.loadResult {s : Bench} (held : s.Held e ops) (i : BenchIn) :
    s.loadResult ops i =
      if s.port.done (accessAt ops) (s.portIn ops i) then
        (e.accesses ops s.port.issued).loadResult (accessAt ops s.port.issued)
      else none := by
  have answered : s.port.reqLoadReady (accessAt ops) (s.portIn ops i) = true ↔ _ := Bench.ready_iff
  have after := plain_after plain s.port.issued
  obtain ⟨loads, stores⟩ := requests_of_plain after
  by_cases ready : s.port.reqLoadReady (accessAt ops) (s.portIn ops i) = true
  · obtain ⟨asks, done⟩ := answered.mp ready
    rw [done, if_pos rfl]
    refine Bench.loadResult_some after ?_ ready
    -- a load leaves the RAM as it is
    have noStore : storeOfAccess (accessAt ops s.port.issued) = none := by
      rw [storeOfAccess, (accessAt ops s.port.issued).noStore asks, if_neg Bool.false_ne_true]
    have same := accesses_memory plain s.port.issued
    rw [noStore] at same
    rcases held with kept | kept
    · exact kept
    · exact kept.trans same
  · rw [Bench.loadResult, if_neg ready]
    split_ifs with done
    · have noLoad : (accessAt ops s.port.issued).lsu.memRead = false := by
        rw [← loads, Bool.eq_false_iff]
        exact fun asks => ready (answered.mpr ⟨asks, done⟩)
      rw [EmulatorIss.loadResult, noLoad, if_neg Bool.false_ne_true]
    · rfl

/-! ## The main result -/

variable {s : Bench} {ins : Nat → BenchIn}

omit plain in
theorem cycles_issued (n : Nat) : (s.cycles ops ins (n + 1)).port.issued =
    if (s.cycles ops ins n).port.done (accessAt ops) ((s.cycles ops ins n).portIn ops (ins n)) then
      (s.cycles ops ins n).port.issued + 1 else (s.cycles ops ins n).port.issued := rfl

/-- Along a run the RAM and the results are those of the accesses that are done. -/
theorem bench_follows (fresh : s.port.issued = 0) (same : s.wrapper.memory = e.memory) (n : Nat) :
    (s.cycles ops ins n).Held e ops ∧
      s.loadResults ops ins n = e.loadResults ops (s.cycles ops ins n).port.issued := by
  induction n with
  | zero =>
      refine ⟨Or.inl ?_, ?_⟩
      · change s.wrapper.memory = (e.accesses ops s.port.issued).memory
        rw [fresh, same]
        rfl
      · change [] = e.loadResults ops s.port.issued
        rw [fresh]
        rfl
  | succ n ih =>
      obtain ⟨held, results⟩ := ih
      refine ⟨held.next plain (ins n), ?_⟩
      rw [Bench.loadResults, log_succ, held.loadResult plain (ins n), cycles_issued]
      rw [Bench.loadResults] at results
      rw [results]
      split_ifs
      · rw [EmulatorIss.loadResults, EmulatorIss.loadResults, log_succ]
      · rw [Option.toList_none, List.append_nil]

omit plain

/-- An access that is not done waits for a fetch burst, and that ends. -/
theorem issues_again (paired : ∀ n, (s.cycles ops ins n).Paired) (bound n : Nat)
    (within : (s.cycles ops ins n).busy ≤ bound) :
    ∃ m, (s.cycles ops ins m).port.issued = (s.cycles ops ins n).port.issued + 1 := by
  induction bound generalizing n with
  | zero =>
      refine ⟨n + 1, ?_⟩
      have free : (s.cycles ops ins n).port.bridge.state = .idle := by
        by_contra going
        have less : (s.cycles ops ins (n + 1)).busy < (s.cycles ops ins n).busy :=
          (Bench.next_paired (paired n) (ins n)).2 going
        omega
      rw [cycles_issued, if_pos (Bench.done_of_free (Or.inl free))]
  | succ bound ih =>
      by_cases done : (s.cycles ops ins n).port.done (accessAt ops)
          ((s.cycles ops ins n).portIn ops (ins n)) = true
      · refine ⟨n + 1, ?_⟩
        rw [cycles_issued, if_pos done]
      · have going : (s.cycles ops ins n).port.bridge.state ≠ .idle :=
          fun free => done (Bench.done_of_free (Or.inl free))
        have less : (s.cycles ops ins (n + 1)).busy < (s.cycles ops ins n).busy :=
          (Bench.next_paired (paired n) (ins n)).2 going
        obtain ⟨m, more⟩ := ih (n + 1) (by omega)
        refine ⟨m, more.trans ?_⟩
        rw [cycles_issued, if_neg done]

/-- Every access is done at some time. -/
theorem bench_progresses (paired : s.Paired) (count : Nat) :
    ∃ n, count ≤ (s.cycles ops ins n).port.issued := by
  have always : ∀ n, (s.cycles ops ins n).Paired :=
    run_invariant paired fun n held => (Bench.next_paired held (ins n)).1
  induction count with
  | zero => exact ⟨0, Nat.zero_le _⟩
  | succ count ih =>
      obtain ⟨n, reached⟩ := ih
      obtain ⟨m, more⟩ := issues_again always _ n (Nat.le_refl _)
      exact ⟨m, by omega⟩

theorem issued_mono {n m : Nat} (later : n ≤ m) :
    (s.cycles ops ins n).port.issued ≤ (s.cycles ops ins m).port.issued := by
  refine monotone_nat_of_le_succ (f := fun k => (s.cycles ops ins k).port.issued) (fun k => ?_) later
  simp only [cycles_issued]
  split_ifs <;> omega

/-- Behind its last access the list asks for nothing. -/
theorem accesses_beyond {n : Nat} (beyond : ops.length ≤ n) :
    e.accesses ops n = e.accesses ops ops.length ∧ e.loadResults ops n = e.loadResults ops ops.length := by
  induction n, beyond using Nat.le_induction with
  | base => exact ⟨rfl, rfl⟩
  | succ n beyond ih =>
      have idle : accessAt ops n = idleAccess := by simp [accessAt, beyond]
      rw [← ih.1, ← ih.2, EmulatorIss.accesses, EmulatorIss.loadResults, run_succ, log_succ, idle]
      have silent : (run EmulatorIss.access e (accessAt ops) n).loadResult idleAccess = none := rfl
      rw [silent, Option.toList_none, List.append_nil]
      exact ⟨rfl, rfl⟩

/-- A core in reset shows no address, so no burst starts. -/
theorem toggleReset_quiet {w : RtlIss} (quiet : w.read.active = false) :
    w.toggleReset.read.active = false := by
  have low : (RtlIss.clockLow { w with top := w.top.reset }).read.active = false := by
    rw [RtlIss.clockLow_read]
    exact quiet
  have noAddr : (RtlIss.clockLow { w with top := w.top.reset }).readAddrHandshake = false := by
    rw [RtlIss.readAddrHandshake, RtlIss.clockLow_top]
    rfl
  have noData : (RtlIss.clockLow { w with top := w.top.reset }).readDataHandshake = false := by
    rw [RtlIss.readDataHandshake, low, Bool.and_false]
  rw [RtlIss.toggleReset, RtlIss.clockHigh, RtlIss.startRead, noAddr, RtlIss.endRead, noData]
  simp only [Bool.false_eq_true, if_false, RtlIss.driveAxiMemory_read]
  exact low

theorem start_paired (power : RtlIss) (image : Memory) : (Bench.start power image).Paired := by
  have quiet : ∀ n, (RtlIss.toggleReset^[n] power.cleared).read.active = false := by
    intro n
    induction n with
    | zero => rfl
    | succ n ih =>
        rw [Function.iterate_succ_apply']
        exact toggleReset_quiet ih
  exact quiet 10

/-- All of the accesses are answered, with the results and the RAM of the interpreter. -/
theorem bus_agrees (e : EmulatorIss) (power : RtlIss) (ops : List Access) (ins : Nat → BenchIn)
    (plain : ∀ a ∈ ops, Plain e.cfg a) :
    ∃ last, ∀ n, last ≤ n →
      (Bench.start power e.memory).loadResults ops ins n = e.loadResults ops ops.length ∧
        ((Bench.start power e.memory).cycles ops ins n).wrapper.memory =
          (e.accesses ops ops.length).memory := by
  obtain ⟨last, reached⟩ :
      ∃ n, ops.length ≤ ((Bench.start power e.memory).cycles ops ins n).port.issued :=
    bench_progresses (start_paired power e.memory) ops.length
  refine ⟨last, fun n later => ?_⟩
  have beyond := Nat.le_trans reached (issued_mono later)
  obtain ⟨held, results⟩ := bench_follows (s := Bench.start power e.memory) plain rfl rfl n
  constructor
  · exact results.trans (accesses_beyond beyond).2
  · rcases held with same | same
    · rw [same, (accesses_beyond beyond).1]
    · rw [same, (accesses_beyond (Nat.le_succ_of_le beyond)).1]

end Run

/-- A word, a byte and a half into it, and loads of each size between them. -/
def busAccesses : List Access :=
  [⟨⟨0x20000000#32, 0x80C1D2E3#32, false, true, memSizeWord, false⟩, by decide, by decide, by decide⟩,
    ⟨⟨0x20000001#32, 0xCD#32, false, true, memSizeByte, false⟩, by decide, by decide, by decide⟩,
    ⟨⟨0x20000003#32, 0#32, true, false, memSizeByte, true⟩, by decide, by decide, by decide⟩,
    ⟨⟨0x20000000#32, 0#32, true, false, memSizeHalf, false⟩, by decide, by decide, by decide⟩,
    ⟨⟨0x20000002#32, 0x1234#32, false, true, memSizeHalf, false⟩, by decide, by decide, by decide⟩,
    ⟨⟨0x20000000#32, 0#32, true, false, memSizeWord, false⟩, by decide, by decide, by decide⟩]

/-- They are answered as the interpreter does, while the fetch port asks all the time. -/
theorem bus_agrees_sample :
    ∃ last, ∀ n, last ≤ n →
      (Bench.start default (EmulatorIss.create {}).memory).loadResults busAccesses
          (fun _ => ⟨true, 0x20000100#32, 0#32⟩) n =
        [some 0xFFFFFF80#32, some 0xCDE3#32, some 0x1234CDE3#32] := by
  obtain ⟨last, agrees⟩ := bus_agrees (EmulatorIss.create {}) default busAccesses
    (fun _ => ⟨true, 0x20000100#32, 0#32⟩) (by unfold Plain; decide)
  have values : (EmulatorIss.create {}).loadResults busAccesses busAccesses.length =
      [some 0xFFFFFF80#32, some 0xCDE3#32, some 0x1234CDE3#32] := by decide
  exact ⟨last, fun n later => (agrees n later).1.trans values⟩

end NpcMachine.Emulator
