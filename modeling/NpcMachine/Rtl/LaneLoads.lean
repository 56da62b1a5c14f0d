/-
# Rtl.LaneLoads -- what loads return from a memory that follows the byte lanes

Against a memory that puts every byte on the lane of its address and takes each request once,
a load gets the value last stored exactly when it is on lane 0 (`loadsReturnStored_iff`).  A
memory that takes an address again answers it again, and the next load gets that answer.
-/
import NpcMachine.Rtl.LaneAccess

namespace NpcMachine.Rtl

open NpcMachine.Machine

set_option autoImplicit false

namespace LsuPort

variable {seq : Nat → Access} {s : LsuPort} {i : PortIn}

/-! ## The bridge in a run -/

section Bridge

variable (seq) (ins : Nat → PortIn)

theorem runBridge_bridgeIn (n : Nat) :
    AxiMaster.runBridge (bridgeIn seq ins) n = (run seq ins n).bridge := by
  induction n with
  | zero => rfl
  | succ n ih =>
      rw [AxiMaster.runBridge_succ, ih]
      rfl

theorem outAt_bridgeIn (n : Nat) :
    AxiMaster.outAt (bridgeIn seq ins) n = (run seq ins n).out seq (ins n) := by
  rw [AxiMaster.outAt, runBridge_bridgeIn]
  rfl

theorem loadServed_bridgeIn (n : Nat) :
    AxiMaster.loadServed (bridgeIn seq ins) n = (run seq ins n).reqLoadReady seq (ins n) := by
  rw [AxiMaster.loadServed, runBridge_bridgeIn]
  rfl

/-- The unit holds what it asks for. -/
theorem requester_bridgeIn : Requester (bridgeIn seq ins) := by
  constructor
  · intro n asks waits
    rw [loadServed_bridgeIn] at waits
    have loads : ((run seq ins n).access seq).lsu.reqLoadValid = true := asks
    have unfinished : (run seq ins n).done seq (ins n) = false := by
      rw [done, waits, loads]
      rfl
    have lsu : ((run seq ins (n + 1)).access seq).lsu = ((run seq ins n).access seq).lsu :=
      congrArg Access.lsu (next_of_waiting unfinished)
    exact ⟨(congrArg LsuIn.reqLoadValid lsu).trans loads, congrArg LsuIn.memAddr lsu,
      congrArg LsuIn.memSize lsu⟩
  · intro n asks waits
    have stores : ((run seq ins n).access seq).lsu.reqStoreValid = true := asks
    have unserved : (run seq ins n).reqStoreReady seq (ins n) = false := waits
    have unfinished : (run seq ins n).done seq (ins n) = false := by
      rw [done, unserved, stores]
      exact Bool.and_false _
    have lsu : ((run seq ins (n + 1)).access seq).lsu = ((run seq ins n).access seq).lsu :=
      congrArg Access.lsu (next_of_waiting unfinished)
    exact ⟨(congrArg LsuIn.reqStoreValid lsu).trans stores, congrArg LsuIn.memAddr lsu,
      congrArg LsuIn.memSize lsu, congrArg LsuIn.storeData lsu⟩

/-- One access at a time: no load hides a store. -/
theorem alone_bridgeIn (n : Nat) (shown : AxiMaster.storeShown (bridgeIn seq ins) n = true)
    (waits : AxiMaster.storeServed (bridgeIn seq ins) n = false) :
    (bridgeIn seq ins (n + 1)).req.reqLoadValid = false := by
  have asks : (bridgeIn seq ins n).req.reqStoreValid = true := by
    simp only [AxiMaster.storeShown, AxiReq.dataStoreActive, Bool.and_eq_true] at shown
    exact shown.2
  have again := ((requester_bridgeIn seq ins).store n asks waits).1
  exact ((run seq ins (n + 1)).access seq).noLoad again

end Bridge

/-- One cycle of a memory that changes by the stores that are answered. -/
theorem stored_next (init m : Bytes) (held : m = stored seq init s.issued) :
    (if s.reqStoreReady seq i then
      writeLanes m (s.out seq i).awaddr (s.out seq i).wstrb (s.out seq i).wdata else m) =
        stored seq init (s.next seq i).issued := by
  obtain ⟨-, -, awaddr, wstrb, wdata⟩ := out_store seq s i
  have moves : (s.next seq i).issued = if s.done seq i then s.issued + 1 else s.issued := rfl
  have step : stored seq init (s.issued + 1) = if (s.access seq).lsu.reqStoreValid then
      storeLe m (s.access seq).lsu.memAddr (s.access seq).lsu.bytes (s.access seq).lsu.storeData
      else m := by
    rw [held]
    rfl
  rw [moves, awaddr, wstrb, wdata, (s.access seq).writeLanes_store]
  cases stores : (s.access seq).lsu.reqStoreValid with
  | true =>
      have noLoad := (s.access seq).noLoad stores
      have finished : s.done seq i = s.reqStoreReady seq i := by
        rw [done, noLoad, stores]
        rfl
      rw [finished]
      split_ifs
      · rw [step, if_pos stores]
      · exact held
  | false =>
      have unserved : s.reqStoreReady seq i = false := eq_false_of_imp reqStoreValid_of_ready stores
      rw [unserved, if_neg Bool.false_ne_true]
      split_ifs
      · rw [step, stores, if_neg Bool.false_ne_true]
      · exact held

/-- Up to a load that is answered the memory has the accesses that are done. -/
theorem stored_run {ins : Nat → PortIn} {mem : Nat → Bytes}
    (follows : FollowsLanes (bridgeIn seq ins) mem) (accepts : AcceptsOnce (bridgeIn seq ins))
    {n : Nat} (ready : (run seq ins n).reqLoadReady seq (ins n) = true) (j : Nat) (upto : j ≤ n) :
    mem j = stored seq (mem 0) (run seq ins j).issued := by
  have none : AxiMaster.storeShown (bridgeIn seq ins) n = false := by
    have loads := (loaded_of_ready ready).1
    show (!((run seq ins n).access seq).lsu.reqLoadValid && _) = false
    rw [loads]
    rfl
  induction j with
  | zero => rfl
  | succ j ih =>
      have changes := accepts.writes_served (requester_bridgeIn seq ins) (alone_bridgeIn seq ins)
        follows none (j := j) (by omega)
      rw [outAt_bridgeIn] at changes
      rw [changes]
      exact stored_next (mem 0) (mem j) (ih (by omega))

/-- While a load is shown its access stays in the unit. -/
theorem access_of_span {ins : Nat → PortIn} {k n : Nat}
    (span : Span (AxiMaster.loadShown (bridgeIn seq ins)) (AxiMaster.loadServed (bridgeIn seq ins)) k n)
    (t : Nat) (after : k ≤ t) (before : t ≤ n) :
    (run seq ins t).issued = (run seq ins k).issued := by
  induction t, after using Nat.le_induction with
  | base => rfl
  | succ t after ih =>
      obtain ⟨shown, waits⟩ := span.waits t after (by omega)
      rw [loadServed_bridgeIn] at waits
      have loads : ((run seq ins t).access seq).lsu.reqLoadValid = true := by
        simp only [AxiMaster.loadShown, AxiMaster.dataLoadActive, Bool.and_eq_true] at shown
        exact shown.2
      have unfinished : (run seq ins t).done seq (ins t) = false := by
        rw [done, waits, loads]
        rfl
      rw [← ih (by omega)]
      show (if (run seq ins t).done seq (ins t) then (run seq ins t).issued + 1
        else (run seq ins t).issued) = _
      rw [unfinished, if_neg Bool.false_ne_true]

/-- The address and the size that are taken for a load are its own. -/
theorem out_of_span {ins : Nat → PortIn} {k n : Nat}
    (span : Span (AxiMaster.loadShown (bridgeIn seq ins)) (AxiMaster.loadServed (bridgeIn seq ins)) k n) :
    (AxiMaster.outAt (bridgeIn seq ins) k).araddr = ((run seq ins n).access seq).lsu.memAddr ∧
      2 ^ (AxiMaster.outAt (bridgeIn seq ins) k).arsize.toNat =
        ((run seq ins n).access seq).lsu.bytes := by
  have shown : AxiMaster.loadShown (bridgeIn seq ins) k = true :=
    span.asked (AxiMaster.loadServed_active span.ends)
  have same : (run seq ins k).access seq = (run seq ins n).access seq := by
    rw [access, access, access_of_span span n span.le (Nat.le_refl n)]
  rw [AxiMaster.loadShown, runBridge_bridgeIn] at shown
  rw [outAt_bridgeIn, ← same]
  exact out_load shown

/-! ## A prompt slave -/

/-- The bytes of a load on their lanes, and no byte of it below them. -/
def answer (a : Access) (m : Bytes) : Word :=
  ofBytes fun j =>
    if lane a.lsu.memAddr ≤ j then m (a.lsu.memAddr + BitVec.ofNat 32 (j - lane a.lsu.memAddr))
    else ~~~m a.lsu.memAddr

/-- Everything is answered at once, and nothing is fetched. -/
def promptIn (a : Access) (m : Bytes) : PortIn where
  reqFetchValid := false
  reqFetchAddr := 0#32
  axi :=
    { awready := true
      wready := true
      bvalid := a.lsu.reqStoreValid
      bresp := 0#2
      bid := axiIdData
      arready := true
      rvalid := a.lsu.reqLoadValid
      rresp := 0#2
      rdata := answer a m
      rlast := true
      rid := axiIdData }

def promptInputs (seq : Nat → Access) (m : Bytes) (n : Nat) : PortIn :=
  promptIn (seq n) (stored seq m n)

theorem answer_onLanes (a : Access) (m : Bytes) :
    OnLanes (answer a m) m a.lsu.memAddr a.lsu.bytes := by
  intro k inside
  have fits := a.fits
  rw [lane_add fits inside, answer, byteOf_ofBytes _ (by omega), if_pos (by omega)]
  congr 3
  omega

theorem prompt_ready (seq : Nat → Access) (m : Bytes) (idle : s.bridge.state = .idle) :
    s.reqLoadReady seq (promptIn (s.access seq) m) = (s.access seq).lsu.reqLoadValid ∧
      s.reqStoreReady seq (promptIn (s.access seq) m) = (s.access seq).lsu.reqStoreValid := by
  constructor
  · simp [reqLoadReady, AxiMaster.reqLoadReady, AxiMaster.rDataBeat, AxiMaster.dataLoadActive, idle,
      req, LsuIn.axiReq, promptIn]
  · cases stores : (s.access seq).lsu.reqStoreValid with
    | false =>
        simp [reqStoreReady, AxiMaster.reqStoreReady, AxiReq.dataStoreActive, req, LsuIn.axiReq,
          stores]
    | true =>
        have noLoad := (s.access seq).noLoad stores
        simp [reqStoreReady, AxiMaster.reqStoreReady, AxiReq.dataStoreActive, req, LsuIn.axiReq,
          stores, noLoad, promptIn]

theorem prompt_next (seq : Nat → Access) (m : Bytes) (idle : s.bridge.state = .idle) :
    s.next seq (promptIn (s.access seq) m) = ⟨s.bridge, s.issued + 1⟩ := by
  obtain ⟨load, store⟩ := prompt_ready seq m idle
  have finished : s.done seq (promptIn (s.access seq) m) = true := by
    rw [done, load, store]
    simp
  have stays : s.bridge.next (s.req seq (promptIn (s.access seq) m))
      (promptIn (s.access seq) m).axi = s.bridge := by
    simp [AxiMaster.next, idle, AxiMaster.startFetch, req, LsuIn.axiReq, promptIn]
  rw [next, finished, stays]
  rfl

theorem run_prompt (seq : Nat → Access) (m : Bytes) (n : Nat) :
    run seq (promptInputs seq m) n = ⟨.reset, n⟩ := by
  induction n with
  | zero => rfl
  | succ n ih =>
      rw [run, Machine.run_succ]
      rw [run] at ih
      rw [ih]
      exact prompt_next seq _ rfl

section Prompt

variable (seq) (m : Bytes) (n : Nat)

theorem prompt_serves :
    AxiMaster.loadShown (bridgeIn seq (promptInputs seq m)) n = (seq n).lsu.reqLoadValid ∧
    AxiMaster.loadServed (bridgeIn seq (promptInputs seq m)) n = (seq n).lsu.reqLoadValid ∧
    AxiMaster.storeShown (bridgeIn seq (promptInputs seq m)) n = (seq n).lsu.reqStoreValid ∧
    AxiMaster.storeServed (bridgeIn seq (promptInputs seq m)) n = (seq n).lsu.reqStoreValid := by
  have state := run_prompt seq m n
  obtain ⟨load, store⟩ := prompt_ready (s := ⟨.reset, n⟩) seq (stored seq m n) rfl
  have shown := (out_store seq ⟨.reset, n⟩ (promptInputs seq m n)).1
  refine ⟨?_, ?_, ?_, ?_⟩
  · rw [AxiMaster.loadShown, runBridge_bridgeIn, bridgeIn, state]
    rfl
  · rw [loadServed_bridgeIn, state]
    exact load
  · rw [AxiMaster.storeShown, bridgeIn, state]
    exact shown
  · rw [AxiMaster.storeServed, bridgeIn, state]
    exact store

theorem prompt_accepts : AcceptsOnce (bridgeIn seq (promptInputs seq m)) := by
  have served (n : Nat) := prompt_serves seq m n
  constructor
  · intro n ends
    refine ⟨n, ⟨Span.last ends, rfl⟩, ?_⟩
    rintro k ⟨span, -⟩
    by_contra before
    have le := span.le
    obtain ⟨shown, waits⟩ := span.waits k (Nat.le_refl k) (by omega)
    rw [(served k).1, ← (served k).2.1] at shown
    exact Bool.noConfusion (waits.symm.trans shown)
  · intro k n span before
    have le := span.le
    obtain ⟨shown, waits⟩ := span.waits k (Nat.le_refl k) (by omega)
    rw [(served k).2.2.1, ← (served k).2.2.2] at shown
    exact absurd (waits.symm.trans shown) Bool.false_ne_true

theorem prompt_transfers :
    AxiMaster.rTransfer (bridgeIn seq (promptInputs seq m)) n = (seq n).lsu.reqLoadValid ∧
    AxiMaster.arTransfer (bridgeIn seq (promptInputs seq m)) n = (seq n).lsu.reqLoadValid ∧
    AxiMaster.awTransfer (bridgeIn seq (promptInputs seq m)) n = (seq n).lsu.reqStoreValid ∧
    AxiMaster.wTransfer (bridgeIn seq (promptInputs seq m)) n = (seq n).lsu.reqStoreValid ∧
    AxiMaster.bTransfer (bridgeIn seq (promptInputs seq m)) n = (seq n).lsu.reqStoreValid := by
  obtain ⟨load, served, store, -⟩ := prompt_serves seq m n
  refine ⟨?_, ?_, ?_, ?_, ?_⟩
  · cases asks : (seq n).lsu.reqLoadValid with
    | true => rw [AxiMaster.rTransfer_of_shown (load.trans asks), served, asks]
    | false =>
        have silent : (bridgeIn seq (promptInputs seq m) n).slave.rvalid = false := asks
        rw [AxiMaster.rTransfer, silent]
        rfl
  · rw [AxiMaster.arTransfer_eq, ← load]
    exact Bool.and_true _
  · exact (Bool.and_true _).trans store
  · exact (Bool.and_true _).trans store
  · exact (Bool.and_true _).trans (Bool.and_true _)

theorem prompt_follows : FollowsLanes (bridgeIn seq (promptInputs seq m)) (stored seq m) := by
  have transfers (n : Nat) := prompt_transfers seq m n
  have even (n : Nat) : Nat.count
      (fun k => AxiMaster.rTransfer (bridgeIn seq (promptInputs seq m)) k = true) n =
        Nat.count (fun k => AxiMaster.arTransfer (bridgeIn seq (promptInputs seq m)) k = true) n :=
    count_congr fun j _ => (transfers j).1.trans (transfers j).2.1.symm
  refine ⟨fun n answers => ?_, fun n answers => ?_, ?_⟩
  · rw [(transfers n).1, ← (transfers n).2.1] at answers
    rw [even, Nat.count_succ, if_pos answers]
    exact Nat.lt_succ_self _
  · rw [(transfers n).1] at answers
    have taken : AxiMaster.readFrom (bridgeIn seq (promptInputs seq m)) n = n := by
      rw [AxiMaster.readFrom, answered, even]
      exact Nat.nth_count ((transfers n).2.1.trans answers)
    rw [taken, outAt_bridgeIn, run_prompt]
    have ready : (⟨.reset, n⟩ : LsuPort).reqLoadReady seq (promptInputs seq m n) = true :=
      (prompt_ready seq (stored seq m n) rfl).1.trans answers
    obtain ⟨-, -, araddr, arsize, -⟩ := loaded_of_ready ready
    rw [araddr, arsize]
    exact ⟨n, Nat.le_refl n, Nat.le_refl n, answer_onLanes (seq n) (stored seq m n)⟩
  · refine ⟨fun n => Nat.count (fun k => (seq k).lsu.reqStoreValid = true) n, ?_⟩
    have aw (n : Nat) : Nat.count
        (fun k => AxiMaster.awTransfer (bridgeIn seq (promptInputs seq m)) k = true) n =
          Nat.count (fun k => (seq k).lsu.reqStoreValid = true) n :=
      count_congr fun j _ => (transfers j).2.2.1
    have w (n : Nat) : Nat.count
        (fun k => AxiMaster.wTransfer (bridgeIn seq (promptInputs seq m)) k = true) n =
          Nat.count (fun k => (seq k).lsu.reqStoreValid = true) n :=
      count_congr fun j _ => (transfers j).2.2.2.1
    constructor
    · exact Nat.count_zero _
    · exact fun n => Nat.count_monotone _ (Nat.le_succ n)
    · exact fun n => (aw (n + 1)).ge
    · exact fun n => (w (n + 1)).ge
    · exact fun n => (count_congr fun j _ => (transfers j).2.2.2.2).le
    · intro n
      rw [Nat.count_succ, stored]
      by_cases stores : (seq n).lsu.reqStoreValid = true
      · have address := Nat.nth_count (p := fun k =>
          AxiMaster.awTransfer (bridgeIn seq (promptInputs seq m)) k = true)
          ((transfers n).2.2.1.trans stores)
        have word := Nat.nth_count (p := fun k =>
          AxiMaster.wTransfer (bridgeIn seq (promptInputs seq m)) k = true)
          ((transfers n).2.2.2.1.trans stores)
        rw [aw] at address
        rw [w] at word
        rw [if_pos stores, if_pos stores, Nat.add_sub_cancel_left, List.range'_one]
        simp only [List.foldl_cons, List.foldl_nil, AxiMaster.writeStore, address, word]
        rw [outAt_bridgeIn, run_prompt]
        exact ((seq n).writeLanes_store (stored seq m n)).symm
      · rw [if_neg stores, if_neg stores, Nat.add_zero, Nat.sub_self]
        rfl

end Prompt

end LsuPort

/-! ## Narrow loads -/

/-- A load off lane 0 gets a wrong value from some memory that takes each request once. -/
theorem lane_of_returnsStored {seq : Nat → Access}
    (returns : ReturnsStored seq (LsuPort.promptInputs seq fun _ => 0#8) fun _ => 0#8) (n : Nat)
    (loads : (seq n).lsu.reqLoadValid = true) : lane (seq n).lsu.memAddr = 0 := by
  by_contra off
  have value := returns n
  rw [LsuPort.run_prompt] at value
  generalize (fun _ => 0#8 : Bytes) = m at value
  have ready : (⟨.reset, n⟩ : LsuPort).reqLoadReady seq (LsuPort.promptInputs seq m n) = true :=
    (LsuPort.prompt_ready seq (stored seq m n) rfl).1.trans loads
  obtain ⟨-, -, -, -, loaded⟩ := LsuPort.loaded_of_ready ready
  have same := value ready 0#32
  rw [loaded] at same
  have bytes := ((seq n).loadAlignedData_iff _ _).mp same
  have low := bytes 0 (Nat.two_pow_pos _)
  have junk : byteOf (LsuPort.promptInputs seq m n).axi.rdata 0 =
      ~~~stored seq m n (seq n).lsu.memAddr := by
    show byteOf (LsuPort.answer (seq n) (stored seq m n)) 0 = _
    rw [LsuPort.answer, byteOf_ofBytes _ (by omega), if_neg (by omega)]
  rw [junk, BitVec.add_zero] at low
  have flipped (b : BitVec 8) : ~~~b ≠ b := by
    intro same
    have values := congrArg BitVec.toNat same
    rw [BitVec.toNat_not] at values
    omega
  exact flipped _ low

/-- Against every memory that follows the byte lanes and takes each request once, whatever its
delays: the loads of a sequence of aligned accesses return what was stored exactly when each
of them is on lane 0. -/
theorem loadsReturnStored_iff (seq : Nat → Access) :
    (∀ ins mem, FollowsLanes (LsuPort.bridgeIn seq ins) mem →
      AcceptsOnce (LsuPort.bridgeIn seq ins) → ReturnsStored seq ins (mem 0)) ↔
        ∀ n, (seq n).lsu.reqLoadValid = true → (seq n).lsu.memAddr.extractLsb' 0 2 = 0#2 := by
  have low (addr : Word) : addr.extractLsb' 0 2 = 0#2 ↔ lane addr = 0 := by
    rw [Access.lane_eq, ← BitVec.toNat_inj]
    rfl
  constructor
  · intro returns n loads
    have prompt := returns (LsuPort.promptInputs seq fun _ => 0#8) (stored seq fun _ => 0#8)
      (LsuPort.prompt_follows seq _) (LsuPort.prompt_accepts seq _)
    exact (low _).mpr (lane_of_returnsStored prompt n loads)
  · intro lanes ins mem follows accepts n ready clintRdata
    have served : AxiMaster.loadServed (LsuPort.bridgeIn seq ins) n = true :=
      (LsuPort.loadServed_bridgeIn seq ins n).trans ready
    obtain ⟨k, t, span, after, before, carried⟩ :=
      accepts.reads_own (LsuPort.requester_bridgeIn seq ins) follows served
    have held := LsuPort.stored_run follows accepts ready t before
    have there := LsuPort.access_of_span span
    have same := there n span.le (Nat.le_refl n)
    rw [there t after before, ← same] at held
    obtain ⟨loads, -, -, -, loaded⟩ := LsuPort.loaded_of_ready ready
    obtain ⟨araddr, arsize⟩ := LsuPort.out_of_span span
    rw [held, araddr, arsize] at carried
    have first : lane ((LsuPort.run seq ins n).access seq).lsu.memAddr = 0 :=
      (low _).mp (lanes (LsuPort.run seq ins n).issued loads)
    rw [loaded, Access.loadAlignedData_iff]
    intro j inside
    have at_lane := carried j inside
    rw [lane_add ((LsuPort.run seq ins n).access seq).fits inside, first, Nat.zero_add] at at_lane
    exact at_lane

/-! ## A byte on lane 1 -/

/-- `sb` and `lbu` of the byte at `0x20000001`, again and again. -/
def laneAccesses (n : Nat) : Access :=
  if n % 2 = 0 then
    { lsu := ⟨0x20000001#32, 0xAB#32, false, true, memSizeByte, false⟩
      sized := by decide
      aligned := by decide
      single := by decide }
  else
    { lsu := ⟨0x20000001#32, 0#32, true, false, memSizeByte, false⟩
      sized := by decide
      aligned := by decide
      single := by decide }

/-! ## An answer that belongs to the load before -/

/-- `lw` of two words by turns. -/
def turnAccesses (n : Nat) : Access :=
  if n % 2 = 0 then
    { lsu := ⟨0x20000010#32, 0#32, true, false, memSizeWord, false⟩
      sized := by decide
      aligned := by decide
      single := by decide }
  else
    { lsu := ⟨0x20000014#32, 0#32, true, false, memSizeWord, false⟩
      sized := by decide
      aligned := by decide
      single := by decide }

/-- Every cell has the low byte of its address. -/
def lowBytes : Bytes := fun a => a.setWidth 8

/-- Every address is taken, and answered one cycle later; the access of cycle `n` is `n - 1`. -/
def lateInputs (n : Nat) : PortIn where
  reqFetchValid := false
  reqFetchAddr := 0#32
  axi :=
    { (default : AxiIn) with
      arready := true
      rvalid := decide (1 ≤ n)
      rid := axiIdData
      rlast := true
      rdata := LsuPort.answer (turnAccesses (n - 2)) lowBytes }

theorem turnAccesses_load (n : Nat) :
    (turnAccesses n).lsu.reqLoadValid = true ∧ (turnAccesses n).lsu.reqStoreValid = false ∧
      (turnAccesses n).lsu.bytes = 4 := by
  unfold turnAccesses
  split_ifs <;> decide

section Late

variable (j n : Nat)

theorem late_ready : (⟨.reset, j⟩ : LsuPort).reqLoadReady turnAccesses (lateInputs n) =
    decide (1 ≤ n) := by
  have loads : ((⟨.reset, j⟩ : LsuPort).req turnAccesses (lateInputs n)).reqLoadValid = true :=
    (turnAccesses_load j).1
  have shown : AxiMaster.reset.dataLoadActive
      ((⟨.reset, j⟩ : LsuPort).req turnAccesses (lateInputs n)) = true := loads
  rw [LsuPort.reqLoadReady, AxiMaster.reqLoadReady, AxiMaster.rDataBeat, shown]
  exact Bool.and_true _

theorem run_late : LsuPort.run turnAccesses lateInputs n = ⟨.reset, n - 1⟩ := by
  induction n with
  | zero => rfl
  | succ n ih =>
      obtain ⟨loads, stores, -⟩ := turnAccesses_load (n - 1)
      have finished : (⟨.reset, n - 1⟩ : LsuPort).done turnAccesses (lateInputs n) = decide (1 ≤ n) := by
        rw [LsuPort.done, late_ready, LsuPort.access, loads, stores, Bool.not_true, Bool.not_false,
          Bool.false_or, Bool.true_or, Bool.and_true]
      have rests : AxiMaster.reset.next ((⟨.reset, n - 1⟩ : LsuPort).req turnAccesses (lateInputs n))
          (lateInputs n).axi = .reset := by
        simp [AxiMaster.next, AxiMaster.reset, AxiMaster.startFetch, LsuPort.req, LsuIn.axiReq,
          lateInputs]
      rw [LsuPort.run, Machine.run_succ]
      rw [LsuPort.run] at ih
      rw [ih, LsuPort.next, finished, rests]
      by_cases first : n = 0
      · rw [first]
        rfl
      · rw [if_pos (decide_eq_true (by omega))]
        show (⟨.reset, n - 1 + 1⟩ : LsuPort) = ⟨.reset, n⟩
        rw [Nat.sub_add_cancel (by omega)]

theorem late_transfers :
    AxiMaster.rTransfer (LsuPort.bridgeIn turnAccesses lateInputs) n = decide (1 ≤ n) ∧
      AxiMaster.arTransfer (LsuPort.bridgeIn turnAccesses lateInputs) n = true := by
  have shown : AxiMaster.loadShown (LsuPort.bridgeIn turnAccesses lateInputs) n = true := by
    rw [AxiMaster.loadShown, LsuPort.runBridge_bridgeIn, LsuPort.bridgeIn, run_late]
    exact (turnAccesses_load (n - 1)).1
  refine ⟨?_, ?_⟩
  · rw [AxiMaster.rTransfer_of_shown shown, LsuPort.loadServed_bridgeIn, run_late, late_ready]
  · rw [AxiMaster.arTransfer_eq]
    exact Bool.and_eq_true_iff.mpr ⟨shown, rfl⟩

end Late

theorem late_follows : FollowsLanes (LsuPort.bridgeIn turnAccesses lateInputs) fun _ => lowBytes := by
  have taken (n : Nat) : Nat.count
      (fun k => AxiMaster.arTransfer (LsuPort.bridgeIn turnAccesses lateInputs) k = true) n = n :=
    Nat.count_iff_forall.mpr fun k _ => (late_transfers k).2
  have answers (n : Nat) : Nat.count
      (fun k => AxiMaster.rTransfer (LsuPort.bridgeIn turnAccesses lateInputs) k = true) n = n - 1 := by
    induction n with
    | zero => exact Nat.count_zero _
    | succ n ih =>
        rw [Nat.count_succ, ih, (late_transfers n).1]
        by_cases first : 1 ≤ n
        · rw [if_pos (decide_eq_true first)]
          omega
        · rw [if_neg (by simpa using first)]
          omega
  refine ⟨fun n _ => ?_, fun n data => ?_, ?_⟩
  · rw [answers, taken]
    omega
  · rw [(late_transfers n).1, decide_eq_true_eq] at data
    have before : AxiMaster.readFrom (LsuPort.bridgeIn turnAccesses lateInputs) n = n - 1 := by
      have here := Nat.nth_count
        (p := fun k => AxiMaster.arTransfer (LsuPort.bridgeIn turnAccesses lateInputs) k = true)
        (late_transfers (n - 1)).2
      rw [taken] at here
      rw [AxiMaster.readFrom, answered, answers]
      exact here
    have active : (⟨.reset, n - 2⟩ : LsuPort).bridge.dataLoadActive
        ((⟨.reset, n - 2⟩ : LsuPort).req turnAccesses (lateInputs (n - 1))) = true :=
      (turnAccesses_load (n - 2)).1
    obtain ⟨araddr, arsize⟩ := LsuPort.out_load active
    rw [before, LsuPort.outAt_bridgeIn, run_late, Nat.sub_sub, araddr, arsize]
    exact ⟨n, Nat.sub_le n 1, Nat.le_refl n, LsuPort.answer_onLanes (turnAccesses (n - 2)) lowBytes⟩
  · refine ⟨fun _ => 0, rfl, fun _ => Nat.le_refl 0, fun _ => Nat.zero_le _,
      fun _ => Nat.zero_le _, fun n => ?_, fun _ => rfl⟩
    exact (Nat.count_iff_forall_not.mpr fun k _ responds => Bool.noConfusion responds).le

/-- The load of lane 1 gets what the memory has put on lane 0, and a load whose predecessor was
taken twice gets the word of its predecessor. -/
theorem laneAccesses_lose_byte :
    ¬ LoadsReturnStored laneAccesses ∧ ¬ LoadsReturnStored turnAccesses := by
  constructor
  · intro returns
    have prompt := returns (LsuPort.promptInputs laneAccesses fun _ => 0#8)
      (stored laneAccesses fun _ => 0#8) (LsuPort.prompt_follows laneAccesses _)
    exact absurd (lane_of_returnsStored prompt 1 (by decide)) (by decide)
  · intro returns
    have second := returns lateInputs (fun _ => lowBytes) late_follows 2
    rw [run_late] at second
    have ready : (⟨.reset, 1⟩ : LsuPort).reqLoadReady turnAccesses (lateInputs 2) = true :=
      late_ready 1 2
    obtain ⟨-, -, -, -, loaded⟩ := LsuPort.loaded_of_ready ready
    have same := second ready 0#32
    rw [loaded] at same
    exact absurd (((turnAccesses 1).loadAlignedData_iff _ _).mp same 0 (by decide)) (by decide)

end NpcMachine.Rtl
