/-
# Rtl.BridgeHandshake -- data transactions on the five AXI channels

The bridge derives the valids of a data transaction from the request alone, until the
request is answered; nothing records that an address or a word has been taken.  A slave
that takes one before the cycle of its answer is shown it again.  A load hides a store that
is asked for together with it.  `handshakesOnce_iff` says in which runs each request is seen
exactly once.
-/
import NpcMachine.Rtl.AxiMaster
import NpcMachine.Machine.Run
import NpcMachine.Machine.Handshake

namespace NpcMachine.Rtl

open NpcMachine.Machine

set_option autoImplicit false

/-- What the bridge sees in a cycle. -/
structure BridgeIn where
  req : AxiReq
  slave : AxiIn
  deriving Inhabited

namespace AxiMaster

variable (ins : Nat → BridgeIn)

/-! ## The signals of a run -/

/-- The bridge after `n` cycles from reset. -/
def runBridge (n : Nat) : AxiMaster := Machine.run (fun m i => m.next i.req i.slave) reset ins n

def outAt (n : Nat) : AxiOut := (runBridge ins n).out (ins n).req

def loadAsks (n : Nat) : Bool := (ins n).req.reqLoadValid
def storeAsks (n : Nat) : Bool := (ins n).req.reqStoreValid
def loadServed (n : Nat) : Bool := (runBridge ins n).reqLoadReady (ins n).req (ins n).slave
def storeServed (n : Nat) : Bool := reqStoreReady (ins n).req (ins n).slave

def arTransfer (n : Nat) : Bool :=
  (outAt ins n).arvalid && (outAt ins n).arid == axiIdData && (ins n).slave.arready

def awTransfer (n : Nat) : Bool := (outAt ins n).awvalid && (ins n).slave.awready
def wTransfer (n : Nat) : Bool := (outAt ins n).wvalid && (ins n).slave.wready

/-- A data beat on R, and a response on B. -/
def rTransfer (n : Nat) : Bool :=
  (ins n).slave.rvalid && (ins n).slave.rid == axiIdData && (outAt ins n).rready

def bTransfer (n : Nat) : Bool :=
  (ins n).slave.bvalid && (ins n).slave.bid == axiIdData && (outAt ins n).bready

end AxiMaster

/-! ## The two sides of the bridge -/

/-- A requester holds each request unchanged until its ready. -/
structure Requester (ins : Nat → BridgeIn) : Prop where
  load : ∀ n, AxiMaster.loadAsks ins n = true → AxiMaster.loadServed ins n = false →
    (ins (n + 1)).req.reqLoadValid = true ∧
      (ins (n + 1)).req.reqLoadAddr = (ins n).req.reqLoadAddr ∧
      (ins (n + 1)).req.reqLoadSize = (ins n).req.reqLoadSize
  store : ∀ n, AxiMaster.storeAsks ins n = true → AxiMaster.storeServed ins n = false →
    (ins (n + 1)).req.reqStoreValid = true ∧
      (ins (n + 1)).req.reqStoreAddr = (ins n).req.reqStoreAddr ∧
      (ins (n + 1)).req.reqStoreSize = (ins n).req.reqStoreSize ∧
      (ins (n + 1)).req.reqStoreData = (ins n).req.reqStoreData

/-- The rules of AXI for the slave's side of data transactions: no response without its
transfers, and a response is kept until it is taken. -/
structure Axi4Slave (ins : Nat → BridgeIn) : Prop where
  r : AnswersAfter (AxiMaster.rTransfer ins) (AxiMaster.arTransfer ins)
  bAw : AnswersAfter (AxiMaster.bTransfer ins) (AxiMaster.awTransfer ins)
  bW : AnswersAfter (AxiMaster.bTransfer ins) (AxiMaster.wTransfer ins)
  rLast : ∀ n, (ins n).slave.rvalid = true → (ins n).slave.rid = axiIdData →
    (ins n).slave.rlast = true
  rKept : Kept (fun n => (ins n).slave.rvalid) (fun n => (AxiMaster.outAt ins n).rready)
    (fun _ => false) (fun n => ((ins n).slave.rid, (ins n).slave.rdata, (ins n).slave.rresp))
  bKept : Kept (fun n => (ins n).slave.bvalid) (fun n => (AxiMaster.outAt ins n).bready)
    (fun _ => false) (fun n => ((ins n).slave.bid, (ins n).slave.bresp))

/-- Each completed load transfers one address and each completed store one address and
one word, and every valid is kept until its transfer. -/
structure HandshakesOnce (ins : Nat → BridgeIn) : Prop where
  ar : Once (AxiMaster.loadAsks ins) (AxiMaster.loadServed ins) (AxiMaster.arTransfer ins)
  aw : Once (AxiMaster.storeAsks ins) (AxiMaster.storeServed ins) (AxiMaster.awTransfer ins)
  w : Once (AxiMaster.storeAsks ins) (AxiMaster.storeServed ins) (AxiMaster.wTransfer ins)
  arKept : Kept (fun n => (AxiMaster.outAt ins n).arvalid) (fun n => (ins n).slave.arready)
    (AxiMaster.loadServed ins) fun n =>
      ((AxiMaster.outAt ins n).araddr, (AxiMaster.outAt ins n).arid,
        (AxiMaster.outAt ins n).arlen, (AxiMaster.outAt ins n).arsize)
  awKept : Kept (fun n => (AxiMaster.outAt ins n).awvalid) (fun n => (ins n).slave.awready)
    (AxiMaster.storeServed ins) fun n =>
      ((AxiMaster.outAt ins n).awaddr, (AxiMaster.outAt ins n).awid,
        (AxiMaster.outAt ins n).awlen, (AxiMaster.outAt ins n).awsize)
  wKept : Kept (fun n => (AxiMaster.outAt ins n).wvalid) (fun n => (ins n).slave.wready)
    (AxiMaster.storeServed ins) fun n =>
      ((AxiMaster.outAt ins n).wdata, (AxiMaster.outAt ins n).wstrb, (AxiMaster.outAt ins n).wlast)

/-- While it is shown a load or store that completes, the slave accepts nothing before the
cycle in which it answers, and accepts the address of a load in that cycle; no load is asked
for right after a cycle in which a store waits for its address or its word. -/
structure AcceptsOnAnswer (ins : Nat → BridgeIn) : Prop where
  load : ∀ k n, Span (AxiMaster.loadAsks ins) (AxiMaster.loadServed ins) k n →
    (AxiMaster.runBridge ins k).dataLoadActive (ins k).req = true →
    ((ins k).slave.arready = true ↔ k = n)
  store : ∀ k n, Span (AxiMaster.storeAsks ins) (AxiMaster.storeServed ins) k n →
    (ins k).req.dataStoreActive = true → k ≠ n →
      (ins k).slave.awready = false ∧ (ins k).slave.wready = false
  alone : ∀ n, (ins n).req.dataStoreActive = true →
    (ins n).slave.awready = false ∨ (ins n).slave.wready = false →
      (ins (n + 1)).req.reqLoadValid = false

namespace AxiMaster

variable {ins : Nat → BridgeIn}

/-! ## What the bridge shows -/

theorem runBridge_succ (n : Nat) :
    runBridge ins (n + 1) = (runBridge ins n).next (ins n).req (ins n).slave := rfl

theorem arTransfer_eq (n : Nat) : arTransfer ins n =
    ((runBridge ins n).dataLoadActive (ins n).req && (ins n).slave.arready) := by
  unfold arTransfer outAt
  cases active : (runBridge ins n).dataLoadActive (ins n).req with
  | true => simp [out, active]
  | false =>
      have other : (axiIdFetch == axiIdData) = false := by decide
      simp [out, active, other]

theorem loadServed_active {n : Nat} (served : loadServed ins n = true) :
    (runBridge ins n).dataLoadActive (ins n).req = true := by
  simp only [loadServed, reqLoadReady, rDataBeat, Bool.and_eq_true] at served
  exact served.1.1

theorem storeServed_accepts {n : Nat} (served : storeServed ins n = true) :
    (ins n).req.dataStoreActive = true ∧ (ins n).slave.awready = true ∧
      (ins n).slave.wready = true := by
  simp only [storeServed, reqStoreReady, Bool.and_eq_true] at served
  exact ⟨served.1.1.1.1, served.1.1.1.2, served.1.1.2⟩

/-- A load that waits keeps the bridge idle and is shown again. -/
theorem load_kept (requester : Requester ins) {n : Nat}
    (active : (runBridge ins n).dataLoadActive (ins n).req = true) (waits : loadServed ins n = false) :
    (runBridge ins (n + 1)).dataLoadActive (ins (n + 1)).req = true ∧
      (ins (n + 1)).req.reqLoadAddr = (ins n).req.reqLoadAddr ∧
      (ins (n + 1)).req.reqLoadSize = (ins n).req.reqLoadSize := by
  simp only [dataLoadActive, Bool.and_eq_true, beq_iff_eq] at active
  obtain ⟨idle, loads⟩ := active
  obtain ⟨again, addr, size⟩ := requester.load n loads waits
  have rests : (runBridge ins (n + 1)).state = .idle := by
    rw [runBridge_succ, next, idle]
    simp [startFetch, loads, idle]
  refine ⟨?_, addr, size⟩
  rw [dataLoadActive, rests, again]
  rfl

/-- So is a store, unless a load comes between. -/
theorem store_kept (requester : Requester ins) {n : Nat}
    (active : (ins n).req.dataStoreActive = true) (waits : storeServed ins n = false)
    (alone : (ins (n + 1)).req.reqLoadValid = false) :
    (ins (n + 1)).req.dataStoreActive = true ∧
      (ins (n + 1)).req.reqStoreAddr = (ins n).req.reqStoreAddr ∧
      (ins (n + 1)).req.reqStoreSize = (ins n).req.reqStoreSize ∧
      (ins (n + 1)).req.reqStoreData = (ins n).req.reqStoreData := by
  simp only [AxiReq.dataStoreActive, Bool.and_eq_true] at active
  obtain ⟨again, addr, size, data⟩ := requester.store n active.2 waits
  refine ⟨?_, addr, size, data⟩
  rw [AxiReq.dataStoreActive, alone, again]
  rfl

theorem noLoad_of_active {q : AxiReq} (active : q.dataStoreActive = true) :
    q.reqLoadValid = false := by
  simp only [AxiReq.dataStoreActive, Bool.and_eq_true, Bool.not_eq_true'] at active
  exact active.1

/-! ## Stability -/

/-- The address of a fill is kept without any help. -/
theorem fetch_kept {n : Nat} (state : (runBridge ins n).state = .ifAr)
    (waits : (ins n).slave.arready = false) : runBridge ins (n + 1) = runBridge ins n := by
  rw [runBridge_succ, next, state]
  simp [waits]

theorem arKept (requester : Requester ins)
    (accepts : ∀ n, loadServed ins n = true → (ins n).slave.arready = true) :
    Kept (fun n => (outAt ins n).arvalid) (fun n => (ins n).slave.arready) (loadServed ins) fun n =>
      ((outAt ins n).araddr, (outAt ins n).arid, (outAt ins n).arlen, (outAt ins n).arsize) := by
  intro n valid waits
  have waiting : loadServed ins n = false := eq_false_of_imp (accepts n) waits
  cases active : (runBridge ins n).dataLoadActive (ins n).req with
  | true =>
      obtain ⟨again, addr, size⟩ := load_kept requester active waiting
      have idle (m : AxiMaster) (q : AxiReq) (loads : m.dataLoadActive q = true) :
          m.state ≠ .ifAr := by
        intro state
        simp [dataLoadActive, state] at loads
      refine ⟨waiting, ?_, ?_⟩
      · simp [outAt, out, again]
      · simp [outAt, out, active, again, addr, size, idle _ _ active, idle _ _ again]
  | false =>
      have state : (runBridge ins n).state = .ifAr := by
        simpa [outAt, out, active] using valid
      have same := fetch_kept state waits
      have silent (q : AxiReq) : (runBridge ins n).dataLoadActive q = false := by
        simp [dataLoadActive, state]
      refine ⟨waiting, ?_, ?_⟩
      · simp [outAt, out, same, state]
      · simp [outAt, out, same, silent]

theorem awKept (requester : Requester ins) (answers : AcceptsOnAnswer ins) :
    Kept (fun n => (outAt ins n).awvalid) (fun n => (ins n).slave.awready) (storeServed ins) fun n =>
      ((outAt ins n).awaddr, (outAt ins n).awid, (outAt ins n).awlen, (outAt ins n).awsize) := by
  intro n valid waits
  have waiting : storeServed ins n = false :=
    eq_false_of_imp (fun served => (storeServed_accepts served).2.1) waits
  have alone := answers.alone n valid (.inl waits)
  obtain ⟨again, addr, size, -⟩ := store_kept requester valid waiting alone
  refine ⟨waiting, again, ?_⟩
  simp [outAt, out, addr, size]

theorem wKept (requester : Requester ins) (answers : AcceptsOnAnswer ins) :
    Kept (fun n => (outAt ins n).wvalid) (fun n => (ins n).slave.wready) (storeServed ins) fun n =>
      ((outAt ins n).wdata, (outAt ins n).wstrb, (outAt ins n).wlast) := by
  intro n valid waits
  have waiting : storeServed ins n = false :=
    eq_false_of_imp (fun served => (storeServed_accepts served).2.2) waits
  have alone := answers.alone n valid (.inr waits)
  obtain ⟨again, addr, size, data⟩ := store_kept requester valid waiting alone
  refine ⟨waiting, again, ?_⟩
  simp [outAt, out, addr, size, data]

end AxiMaster

/-! ## The slaves that see a request once -/

/-- With any requester and any slave: the bridge transfers each completed request once
and keeps its valids exactly when the slave accepts only on its answer and no load hides a
store that waits. -/
theorem handshakesOnce_iff {ins : Nat → BridgeIn} (requester : Requester ins) :
    HandshakesOnce ins ↔ AcceptsOnAnswer ins := by
  have aw : ∀ n, AxiMaster.storeServed ins n = true → AxiMaster.awTransfer ins n = true := by
    intro n served
    obtain ⟨active, accepts, -⟩ := AxiMaster.storeServed_accepts served
    exact Bool.and_eq_true_iff.mpr ⟨active, accepts⟩
  have w : ∀ n, AxiMaster.storeServed ins n = true → AxiMaster.wTransfer ins n = true := by
    intro n served
    obtain ⟨active, -, accepts⟩ := AxiMaster.storeServed_accepts served
    exact Bool.and_eq_true_iff.mpr ⟨active, accepts⟩
  constructor
  · intro once
    have ar : ∀ n, AxiMaster.loadServed ins n = true → AxiMaster.arTransfer ins n = true := by
      intro n served
      have active := AxiMaster.loadServed_active served
      rw [AxiMaster.arTransfer_eq, active, Bool.true_and]
      by_contra waits
      rw [Bool.not_eq_true] at waits
      have shown : (AxiMaster.outAt ins n).arvalid = true := by
        simp [AxiMaster.outAt, AxiMaster.out, active]
      have withdrawn := (once.arKept n shown waits).1
      rw [served] at withdrawn
      exact Bool.noConfusion withdrawn
    constructor
    · intro k n span active
      constructor
      · intro accepts
        apply (once_iff ar).mp once.ar k n span
        rw [AxiMaster.arTransfer_eq, active, accepts]
        rfl
      · rintro rfl
        have transfers := ar k span.ends
        rw [AxiMaster.arTransfer_eq, active] at transfers
        exact transfers
    · intro k n span active before
      constructor
      · by_contra accepts
        rw [Bool.not_eq_false] at accepts
        apply before
        apply (once_iff aw).mp once.aw k n span
        exact Bool.and_eq_true_iff.mpr ⟨active, accepts⟩
      · by_contra accepts
        rw [Bool.not_eq_false] at accepts
        apply before
        apply (once_iff w).mp once.w k n span
        exact Bool.and_eq_true_iff.mpr ⟨active, accepts⟩
    · rintro n active (waits | waits)
      · exact AxiMaster.noLoad_of_active (once.awKept n active waits).2.1
      · exact AxiMaster.noLoad_of_active (once.wKept n active waits).2.1
  · intro answers
    have accepts : ∀ n, AxiMaster.loadServed ins n = true → (ins n).slave.arready = true := by
      intro n served
      exact (answers.load n n (Span.last served) (AxiMaster.loadServed_active served)).mpr rfl
    have ar : ∀ n, AxiMaster.loadServed ins n = true → AxiMaster.arTransfer ins n = true := by
      intro n served
      rw [AxiMaster.arTransfer_eq, AxiMaster.loadServed_active served, accepts n served]
      rfl
    refine ⟨(once_iff ar).mpr ?_, (once_iff aw).mpr ?_, (once_iff w).mpr ?_,
      AxiMaster.arKept requester accepts, AxiMaster.awKept requester answers,
      AxiMaster.wKept requester answers⟩
    · intro k n span transfers
      rw [AxiMaster.arTransfer_eq, Bool.and_eq_true] at transfers
      exact (answers.load k n span transfers.1).mp transfers.2
    · intro k n span transfers
      obtain ⟨active, taken⟩ := Bool.and_eq_true_iff.mp transfers
      by_contra before
      have never := (answers.store k n span active before).1
      exact Bool.noConfusion (never.symm.trans taken)
    · intro k n span transfers
      obtain ⟨active, taken⟩ := Bool.and_eq_true_iff.mp transfers
      by_contra before
      have never := (answers.store k n span active before).2
      exact Bool.noConfusion (never.symm.trans taken)

/-! ## A slave that answers at once -/

/-- Without fetches the bridge stays where reset leaves it. -/
theorem AxiMaster.runBridge_idle {ins : Nat → BridgeIn}
    (noFetch : ∀ n, (ins n).req.reqFetchValid = false) (n : Nat) :
    AxiMaster.runBridge ins n = AxiMaster.reset := by
  induction n with
  | zero => rfl
  | succ n ih =>
      rw [AxiMaster.runBridge_succ, ih, AxiMaster.next]
      simp [AxiMaster.reset, AxiMaster.startFetch, noFetch n]

/-- A load in every second cycle, answered at once, and a store that is asked for all the
time and answered in between. -/
def promptBridge (n : Nat) : BridgeIn where
  req :=
    { (default : AxiReq) with
      reqLoadValid := n % 2 == 0
      reqStoreValid := true }
  slave :=
    { (default : AxiIn) with
      arready := true
      rvalid := n % 2 == 0
      rid := axiIdData
      rlast := true
      awready := true
      wready := true
      bvalid := true
      bid := axiIdData }

theorem promptBridge_served (n : Nat) :
    AxiMaster.loadServed promptBridge n = AxiMaster.loadAsks promptBridge n ∧
      AxiMaster.storeServed promptBridge n = (promptBridge n).req.dataStoreActive := by
  have idle : AxiMaster.runBridge promptBridge n = AxiMaster.reset :=
    AxiMaster.runBridge_idle (fun _ => rfl) n
  constructor
  · simp [AxiMaster.loadServed, AxiMaster.loadAsks, idle, AxiMaster.reqLoadReady,
      AxiMaster.rDataBeat, AxiMaster.dataLoadActive, AxiMaster.reset, promptBridge]
  · simp [AxiMaster.storeServed, AxiMaster.reqStoreReady, promptBridge]

theorem promptBridge_handshakes : HandshakesOnce promptBridge := by
  have requester : Requester promptBridge := by
    constructor
    · intro n asks waits
      rw [(promptBridge_served n).1, asks] at waits
      exact Bool.noConfusion waits
    · intro n asks waits
      exact ⟨rfl, rfl, rfl, rfl⟩
  apply (handshakesOnce_iff requester).mpr
  constructor
  · intro k n span active
    refine ⟨fun _ => ?_, fun _ => rfl⟩
    by_contra before
    have le := span.le
    have waits := span.waits k (Nat.le_refl k) (by omega)
    rw [(promptBridge_served k).1, waits.1] at waits
    exact Bool.noConfusion waits.2
  · intro k n span active before
    have le := span.le
    have waits := span.waits k (Nat.le_refl k) (by omega)
    rw [(promptBridge_served k).2, active] at waits
    exact Bool.noConfusion waits.2
  · rintro n - (waits | waits) <;> exact Bool.noConfusion waits

/-! ## A slave that answers one cycle later -/

/-- A load in cycles 0 and 1; every address is accepted and answered one cycle later. -/
def lateBridge (n : Nat) : BridgeIn where
  req :=
    { (default : AxiReq) with
      reqLoadValid := decide (n ≤ 1)
      reqLoadAddr := 0x20000000#32
      reqLoadSize := memSizeWord }
  slave :=
    { (default : AxiIn) with
      arready := true
      rvalid := decide (1 ≤ n)
      rid := axiIdData
      rlast := true }

/-- The address is transferred in both cycles; the second answer is left for a later load. -/
theorem lateBridge_repeats_address :
    Requester lateBridge ∧ Axi4Slave lateBridge ∧ ¬ HandshakesOnce lateBridge := by
  have idle : ∀ n, AxiMaster.runBridge lateBridge n = AxiMaster.reset :=
    AxiMaster.runBridge_idle fun _ => rfl
  have shown (n : Nat) : (AxiMaster.outAt lateBridge n).rready = decide (n ≤ 1) := by
    simp [AxiMaster.outAt, AxiMaster.out, idle n, AxiMaster.reset, AxiMaster.dataLoadActive,
      lateBridge]
  refine ⟨?_, ?_, ?_⟩
  · constructor
    · intro n asks waits
      have first : n = 0 := by
        by_contra later
        have second : n = 1 := by
          simp only [AxiMaster.loadAsks, lateBridge, decide_eq_true_eq] at asks
          omega
        rw [second] at waits
        exact absurd waits (by decide)
      rw [first]
      exact ⟨rfl, rfl, rfl⟩
    · intro n asks
      exact Bool.noConfusion asks
  · constructor
    · intro n answers
      have second : n = 1 := by
        simp only [AxiMaster.rTransfer, shown, lateBridge, Bool.and_eq_true,
          decide_eq_true_eq] at answers
        omega
      rw [second]
      decide
    · intro n answers
      exact Bool.noConfusion answers
    · intro n answers
      exact Bool.noConfusion answers
    · intro n _ _
      rfl
    · intro n valid waits
      refine ⟨rfl, ?_, rfl⟩
      simp [lateBridge]
    · intro n valid
      exact Bool.noConfusion valid
  · intro once
    obtain ⟨last, -, only⟩ := once.ar 1 (by decide)
    have early := only 0 ⟨⟨by omega, by decide, by
      intro j after before
      have zero : j = 0 := by omega
      rw [zero]
      decide⟩, by decide⟩
    have late := only 1 ⟨Span.last (by decide), by decide⟩
    omega

end NpcMachine.Rtl
