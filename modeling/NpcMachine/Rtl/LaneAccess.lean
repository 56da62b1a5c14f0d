/-
# Rtl.LaneAccess -- loads and stores in front of the AXI port

The bridge moves the data of a store to the lanes that its address selects
(`writeLanes_store`).  The load/store unit takes the data of a load from lane 0, whatever the
address (`loadAlignedData_iff`).

`LsuPort` is the unit and the bridge in front of the AXI port: it issues a sequence of
accesses, each held until it is answered, while the fetch port asks for anything.
`ReturnsStored` says of a run of it that each load returns the value last stored at its bytes.
-/
import NpcMachine.Rtl.RequestAlign
import NpcMachine.Rtl.LaneMemory

namespace NpcMachine.Rtl

open NpcMachine.Machine

set_option autoImplicit false

/-! ## Accesses -/

namespace LsuIn

variable (u : LsuIn)

/-- The size of the access in bytes. -/
def bytes : Nat := 2 ^ u.memSize.toNat

/-- The requests of the bridge: those of the unit and a fetch request. -/
def axiReq (reqFetchValid : Bool) (reqFetchAddr : Word) : AxiReq where
  reqFetchValid := reqFetchValid
  reqFetchAddr := reqFetchAddr
  reqLoadValid := u.reqLoadValid
  reqLoadAddr := u.memAddr
  reqLoadSize := u.memSize
  reqStoreValid := u.reqStoreValid
  reqStoreAddr := u.memAddr
  reqStoreSize := u.memSize
  reqStoreData := u.storeData

/-- A loaded value as the register gets it. -/
def widen (x : BitVec (8 * u.bytes)) : Word :=
  if u.memSext then x.signExtend 32 else x.setWidth 32

/-- What a load should return from a memory: its little-endian value, extended. -/
def loadedValue (m : Bytes) : Word :=
  u.widen (BitVec.ofNat (8 * u.bytes) (leNat m u.memAddr u.bytes))

end LsuIn

/-- An aligned load or store, or neither. -/
structure Access where
  lsu : LsuIn
  sized : lsu.memSize ≠ 0b11#2
  aligned : lsu.Aligned
  single : ¬ (lsu.memRead = true ∧ lsu.memWrite = true)

namespace Access

variable (a : Access)

theorem sizes : a.lsu.memSize = memSizeByte ∨ a.lsu.memSize = memSizeHalf ∨
    a.lsu.memSize = memSizeWord := by
  have each : ∀ size : BitVec 2, size ≠ 0b11#2 →
      size = memSizeByte ∨ size = memSizeHalf ∨ size = memSizeWord := by decide
  exact each _ a.sized

/-- An aligned access lies within one word. -/
theorem fits : lane a.lsu.memAddr + a.lsu.bytes ≤ 4 := by
  have aligned := a.aligned
  unfold LsuIn.Aligned at aligned
  unfold lane LsuIn.bytes
  rcases a.sizes with size | size | size
  all_goals
    rw [size] at aligned ⊢
    simp only [memSizeByte, memSizeHalf, memSizeWord, BitVec.toNat_ofNat, Nat.reducePow,
      Nat.reduceMod] at aligned ⊢
    omega

theorem wide : 8 * a.lsu.bytes ≤ 32 := by
  have fits := a.fits
  omega

theorem noStore (loads : a.lsu.reqLoadValid = true) : a.lsu.reqStoreValid = false := by
  simp only [LsuIn.reqLoadValid, Bool.and_eq_true] at loads
  cases writes : a.lsu.memWrite with
  | false => simp [LsuIn.reqStoreValid, writes]
  | true => exact absurd ⟨loads.1, writes⟩ a.single

theorem noLoad (stores : a.lsu.reqStoreValid = true) : a.lsu.reqLoadValid = false := by
  cases loads : a.lsu.reqLoadValid with
  | false => rfl
  | true => exact stores.symm.trans (a.noStore loads)

/-! ## The lanes of a store -/

theorem lane_eq (addr : Word) : lane addr = (addr.extractLsb' 0 2).toNat := by
  rw [toNat_extract, Nat.pow_zero, Nat.div_one]
  rfl

theorem lane_of_half (half : a.lsu.memSize = memSizeHalf) : lane a.lsu.memAddr % 2 = 0 := by
  have aligned := a.aligned
  rw [LsuIn.Aligned, half] at aligned
  simp only [memSizeHalf, BitVec.toNat_ofNat, Nat.reducePow, Nat.reduceMod] at aligned
  unfold lane
  omega

/-- The strobes cover the bytes of the access. -/
theorem storeWstrb_covers (k : Nat) (inside : k < 4) :
    (storeWstrb a.lsu.memAddr a.lsu.memSize).getLsbD k = true ↔
      lane a.lsu.memAddr ≤ k ∧ k < lane a.lsu.memAddr + a.lsu.bytes := by
  have fits := a.fits
  have even := a.lane_of_half
  have bit : a.lsu.memAddr.getLsbD 1 = (a.lsu.memAddr.extractLsb' 0 2).getLsbD 1 := by
    simp
  unfold LsuIn.bytes at fits ⊢
  rw [storeWstrb, bit]
  rw [lane_eq] at fits even ⊢
  generalize a.lsu.memAddr.extractLsb' 0 2 = r at fits even ⊢
  rcases a.sizes with size | size | size
  · have shifts : ∀ r : BitVec 2, ∀ k, k < 4 →
        ((0b0001#4 <<< r.toNat).getLsbD k = true ↔ r.toNat ≤ k ∧ k < r.toNat + 1) := by decide
    rw [size, if_pos rfl]
    exact shifts r k inside
  · have pairs : ∀ r : BitVec 2, ∀ k, k < 4 → r.toNat % 2 = 0 →
        ((if r.getLsbD 1 then 0b1100#4 else 0b0011#4).getLsbD k = true ↔
          r.toNat ≤ k ∧ k < r.toNat + 2) := by decide
    rw [size, if_neg (by decide), if_pos rfl]
    exact pairs r k inside (even size)
  · have all : ∀ r : BitVec 2, ∀ k, k < 4 → r.toNat + 4 ≤ 4 →
        ((0b1111#4).getLsbD k = true ↔ r.toNat ≤ k ∧ k < r.toNat + 4) := by decide
    rw [size] at fits ⊢
    rw [if_neg (by decide), if_neg (by decide)]
    exact all r k inside fits

/-- Every strobed lane gets its byte of the data. -/
theorem storeWdata_shifted (k : Nat) (inside : k < a.lsu.bytes) :
    byteOf (storeWdataShifted a.lsu.memAddr a.lsu.memSize a.lsu.storeData)
      (lane a.lsu.memAddr + k) = byteOf a.lsu.storeData k := by
  have fits := a.fits
  generalize a.lsu.storeData = data
  have shift : byteShift a.lsu.memAddr = 8 * lane a.lsu.memAddr := by rw [byteShift, lane_eq]
  rw [storeWdataShifted, shift]
  unfold LsuIn.bytes at fits inside
  rcases a.sizes with size | size | size
  · rw [size] at fits inside ⊢
    have first : k = 0 := by
      simp only [memSizeByte, BitVec.toNat_ofNat, Nat.reduceMod, Nat.reducePow] at inside
      omega
    let b := data.extractLsb' 0 8
    have replicated : byteOf (b ++ b ++ b ++ b) 0 = byteOf b 0 := byteOf_append (b ++ b ++ b) b (by omega)
    rw [if_pos rfl, byteOf_shiftLeft _ (by omega), first]
    exact replicated.trans (byteOf_low data (by omega))
  · rw [size] at fits inside ⊢
    have two : k < 2 := inside
    let h := data.extractLsb' 0 16
    have replicated : byteOf (h ++ h) k = byteOf h k := byteOf_append h h (by omega)
    rw [if_neg (by decide), if_pos rfl, byteOf_shiftLeft _ (by omega)]
    exact replicated.trans (byteOf_low data (by omega))
  · rw [size] at fits inside ⊢
    have zero : lane a.lsu.memAddr = 0 := by
      simp only [memSizeWord, BitVec.toNat_ofNat, Nat.reduceMod, Nat.reducePow] at fits
      omega
    rw [if_neg (by decide), if_neg (by decide), zero, Nat.zero_add]

/-- So the memory sees the little-endian store of the access. -/
theorem writeLanes_store (m : Bytes) :
    writeLanes m a.lsu.memAddr (storeWstrb a.lsu.memAddr a.lsu.memSize)
        (storeWdataShifted a.lsu.memAddr a.lsu.memSize a.lsu.storeData) =
      storeLe m a.lsu.memAddr a.lsu.bytes a.lsu.storeData :=
  writeLanes_eq_storeLe m a.fits a.storeWstrb_covers a.storeWdata_shifted

/-! ## The lanes of a load -/

theorem loadAlignedData_eq (data : Word) :
    a.lsu.loadAlignedData data = a.lsu.widen (data.extractLsb' 0 (8 * a.lsu.bytes)) := by
  have mask8 : ∀ x : BitVec 8, x.signExtend 32 &&& 0x000000FF#32 = x.setWidth 32 := by
    intro x
    rw [show x.signExtend 32 &&& 0x000000FF#32 = _ from and_low _ 8 (by omega),
      low_signExtend x (by omega)]
  have mask16 : ∀ x : BitVec 16, x.signExtend 32 &&& 0x0000FFFF#32 = x.setWidth 32 := by
    intro x
    rw [show x.signExtend 32 &&& 0x0000FFFF#32 = _ from and_low _ 16 (by omega),
      low_signExtend x (by omega)]
  have sizes := a.sizes
  generalize a.lsu = u at sizes ⊢
  obtain ⟨aluResult, rs2Data, memRead, memWrite, memSize, memSext⟩ := u
  simp only at sizes
  rcases sizes with rfl | rfl | rfl
  · rw [LsuIn.loadAlignedData, if_pos rfl, LsuIn.widen]
    split_ifs
    · rfl
    · exact mask8 _
  · rw [LsuIn.loadAlignedData, if_neg (by decide : ¬ memSizeHalf = memSizeByte), if_pos rfl,
      LsuIn.widen]
    split_ifs
    · rfl
    · exact mask16 _
  · have whole : data.extractLsb' 0 32 = data := by simp
    rw [LsuIn.loadAlignedData, if_neg (by decide : ¬ memSizeWord = memSizeByte),
      if_neg (by decide : ¬ memSizeWord = memSizeHalf), LsuIn.widen]
    show data = if memSext then (data.extractLsb' 0 32).signExtend 32
      else (data.extractLsb' 0 32).setWidth 32
    rw [whole, BitVec.signExtend_eq, BitVec.setWidth_eq, ite_self]

theorem widen_inj {x y : BitVec (8 * a.lsu.bytes)} (same : a.lsu.widen x = a.lsu.widen y) :
    x = y := by
  unfold LsuIn.widen at same
  split_ifs at same
  · rw [← low_signExtend x a.wide, same, low_signExtend y a.wide]
  · rw [← low_setWidth x a.wide, same, low_setWidth y a.wide]

/-- The unit returns the right value when the lanes from 0 carry the bytes. -/
theorem loadAlignedData_iff (data : Word) (m : Bytes) :
    a.lsu.loadAlignedData data = a.lsu.loadedValue m ↔
      ∀ k, k < a.lsu.bytes → byteOf data k = m (a.lsu.memAddr + BitVec.ofNat 32 k) := by
  rw [a.loadAlignedData_eq, LsuIn.loadedValue, ← low_eq_leNat_iff]
  constructor
  · intro same
    exact a.widen_inj same
  · intro same
    rw [same]

end Access

/-! ## The unit and the bridge in front of the AXI port -/

/-- The bridge and the number of accesses that are done. -/
structure LsuPort where
  bridge : AxiMaster
  issued : Nat
  deriving DecidableEq, Repr

/-- The rest of a cycle: the fetch request and the slave. -/
structure PortIn where
  reqFetchValid : Bool
  reqFetchAddr : Word
  axi : AxiIn
  deriving Inhabited

namespace LsuPort

variable (seq : Nat → Access) (s : LsuPort) (i : PortIn)

def reset : LsuPort := ⟨.reset, 0⟩

/-- The access in the unit. -/
def access : Access := seq s.issued

def req : AxiReq := (s.access seq).lsu.axiReq i.reqFetchValid i.reqFetchAddr

def out : AxiOut := s.bridge.out (s.req seq i)

def reqLoadReady : Bool := s.bridge.reqLoadReady (s.req seq i) i.axi
def reqStoreReady : Bool := AxiMaster.reqStoreReady (s.req seq i) i.axi

/-- The access is answered, or asks for nothing. -/
def done : Bool :=
  (!(s.access seq).lsu.reqLoadValid || s.reqLoadReady seq i) &&
    (!(s.access seq).lsu.reqStoreValid || s.reqStoreReady seq i)

/-- `load_final_data`. -/
def loaded (clintRdata : Word) : Word :=
  (s.access seq).lsu.loadFinalData (s.bridge.respLoadData (s.req seq i) i.axi) clintRdata

def next : LsuPort where
  bridge := s.bridge.next (s.req seq i) i.axi
  issued := if s.done seq i then s.issued + 1 else s.issued

abbrev run (ins : Nat → PortIn) (n : Nat) : LsuPort := Machine.run (next seq) reset ins n

end LsuPort

/-! ## What loads should return -/

/-- The bytes after the first `n` accesses. -/
def stored (seq : Nat → Access) (m : Bytes) : Nat → Bytes
  | 0 => m
  | n + 1 =>
      if (seq n).lsu.reqStoreValid then
        storeLe (stored seq m n) (seq n).lsu.memAddr (seq n).lsu.bytes (seq n).lsu.storeData
      else stored seq m n

/-- In this run each load returns the value last stored at its bytes. -/
def ReturnsStored (seq : Nat → Access) (ins : Nat → PortIn) (init : Bytes) : Prop :=
  ∀ n, (LsuPort.run seq ins n).reqLoadReady seq (ins n) = true →
    ∀ clintRdata, (LsuPort.run seq ins n).loaded seq (ins n) clintRdata =
      ((LsuPort.run seq ins n).access seq).lsu.loadedValue
        (stored seq init (LsuPort.run seq ins n).issued)

/-- The unit, the fetch port and the slave as the bridge sees them. -/
def LsuPort.bridgeIn (seq : Nat → Access) (ins : Nat → PortIn) (n : Nat) : BridgeIn :=
  ⟨(LsuPort.run seq ins n).req seq (ins n), (ins n).axi⟩

/-- Against every memory that follows the byte lanes, whatever the fetch port does. -/
def LoadsReturnStored (seq : Nat → Access) : Prop :=
  ∀ (ins : Nat → PortIn) (mem : Nat → Bytes),
    FollowsLanes (LsuPort.bridgeIn seq ins) mem → ReturnsStored seq ins (mem 0)

namespace LsuPort

variable {seq : Nat → Access} {s : LsuPort} {i : PortIn}

theorem out_store (seq : Nat → Access) (s : LsuPort) (i : PortIn) :
    (s.out seq i).awvalid = (s.access seq).lsu.reqStoreValid ∧
    (s.out seq i).wvalid = (s.access seq).lsu.reqStoreValid ∧
    (s.out seq i).awaddr = (s.access seq).lsu.memAddr ∧
    (s.out seq i).wstrb = storeWstrb (s.access seq).lsu.memAddr (s.access seq).lsu.memSize ∧
    (s.out seq i).wdata = storeWdataShifted (s.access seq).lsu.memAddr
      (s.access seq).lsu.memSize (s.access seq).lsu.storeData := by
  have active : (s.req seq i).dataStoreActive = (s.access seq).lsu.reqStoreValid := by
    show (!(s.access seq).lsu.reqLoadValid && (s.access seq).lsu.reqStoreValid) = _
    cases loads : (s.access seq).lsu.reqLoadValid with
    | false => rfl
    | true => rw [(s.access seq).noStore loads, Bool.and_false]
  exact ⟨active, active, rfl, rfl, rfl⟩

/-- A load on the bus has the address and the size of its access. -/
theorem out_load (active : s.bridge.dataLoadActive (s.req seq i) = true) :
    (s.out seq i).araddr = (s.access seq).lsu.memAddr ∧
      2 ^ (s.out seq i).arsize.toNat = (s.access seq).lsu.bytes := by
  obtain ⟨-, -, -, araddr, arsize⟩ := AxiMaster.out_of_load active
  rw [out, araddr, arsize]
  refine ⟨rfl, ?_⟩
  show 2 ^ ((s.access seq).lsu.memSize.setWidth 3).toNat = _
  rw [LsuIn.bytes, BitVec.toNat_setWidth, Nat.mod_eq_of_lt]
  exact Nat.lt_of_lt_of_le (BitVec.isLt _) (by decide)

/-- An answered load: what the slave sees and what the unit makes of the data. -/
theorem loaded_of_ready (ready : s.reqLoadReady seq i = true) :
    (s.access seq).lsu.reqLoadValid = true ∧
      ((s.out seq i).arvalid && (s.out seq i).arid == axiIdData && i.axi.rvalid &&
        i.axi.rid == axiIdData) = true ∧
      (s.out seq i).araddr = (s.access seq).lsu.memAddr ∧
      2 ^ (s.out seq i).arsize.toNat = (s.access seq).lsu.bytes ∧
      ∀ clintRdata, s.loaded seq i clintRdata =
        (s.access seq).lsu.loadAlignedData i.axi.rdata := by
  simp only [reqLoadReady, AxiMaster.reqLoadReady, AxiMaster.rDataBeat, Bool.and_eq_true] at ready
  obtain ⟨⟨active, rvalid⟩, rid⟩ := ready
  have loads : (s.access seq).lsu.reqLoadValid = true := by
    simp only [AxiMaster.dataLoadActive, Bool.and_eq_true] at active
    exact active.2
  have outside : (s.access seq).lsu.clintIsAccess = false := by
    simpa [LsuIn.reqLoadValid] using (Bool.and_eq_true_iff.mp loads).2
  obtain ⟨araddr, arsize⟩ := out_load active
  refine ⟨loads, ?_, araddr, arsize, ?_⟩
  · simp [out, AxiMaster.out, active, rvalid, rid]
  · intro clintRdata
    simp [loaded, LsuIn.loadFinalData, outside, AxiMaster.respLoadData, active]

theorem reqStoreValid_of_ready (ready : s.reqStoreReady seq i = true) :
    (s.access seq).lsu.reqStoreValid = true := by
  simp only [reqStoreReady, AxiMaster.reqStoreReady, AxiReq.dataStoreActive, Bool.and_eq_true] at ready
  exact ready.1.1.1.1.2

theorem next_of_waiting (waits : s.done seq i = false) : (s.next seq i).access seq = s.access seq := by
  rw [access, next, waits]
  rfl

end LsuPort

end NpcMachine.Rtl
