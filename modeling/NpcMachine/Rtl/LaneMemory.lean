/-
# Rtl.LaneMemory -- an AXI memory behind the bridge

A memory on the data transactions of the bridge, with any delay on any channel.  It takes
addresses and words in every cycle in which it is ready, and what it takes twice it does
twice.  Reads are answered in the order of their addresses, each with bytes that were there
at some time since its address was taken, on the lanes of that address.  A store has the
address and the word of its number; it is performed after both and before its response.

* `AcceptsOnce`: the runs in which the slave takes what it is shown once;
* `AcceptsOnce.reads_own`: then a load is answered with the bytes at its own address;
* `AcceptsOnce.writes_served`: and a store is performed in the cycle in which it is answered.
-/
import NpcMachine.Rtl.BridgeHandshake
import NpcMachine.Machine.ByteLanes

namespace NpcMachine.Rtl

open NpcMachine.Machine

set_option autoImplicit false

namespace AxiMaster

variable (ins : Nat → BridgeIn)

def loadShown (n : Nat) : Bool := (runBridge ins n).dataLoadActive (ins n).req
def storeShown (n : Nat) : Bool := (ins n).req.dataStoreActive

/-- The cycle in which the address of the data beat in cycle `n` was taken. -/
noncomputable def readFrom (n : Nat) : Nat := answered (rTransfer ins) (arTransfer ins) n

/-- Store number `k`: address number `k` and word number `k`. -/
noncomputable def writeStore (m : Bytes) (k : Nat) : Bytes :=
  let address := Nat.nth (fun n => awTransfer ins n = true) k
  let word := Nat.nth (fun n => wTransfer ins n = true) k
  writeLanes m (outAt ins address).awaddr (outAt ins word).wstrb (outAt ins word).wdata

end AxiMaster

/-! ## The memory -/

/-- `done n` stores have been performed before cycle `n`. -/
structure Performs (ins : Nat → BridgeIn) (mem : Nat → Bytes) (done : Nat → Nat) : Prop where
  start : done 0 = 0
  grows : ∀ n, done n ≤ done (n + 1)
  address : ∀ n, done (n + 1) ≤ Nat.count (fun k => AxiMaster.awTransfer ins k = true) (n + 1)
  word : ∀ n, done (n + 1) ≤ Nat.count (fun k => AxiMaster.wTransfer ins k = true) (n + 1)
  response : ∀ n, Nat.count (fun k => AxiMaster.bTransfer ins k = true) (n + 1) ≤ done (n + 1)
  contents : ∀ n, mem (n + 1) =
    (List.range' (done n) (done (n + 1) - done n)).foldl (AxiMaster.writeStore ins) (mem n)

/-- A memory that follows the byte lanes; `mem n` are its bytes at the start of cycle `n`. -/
structure FollowsLanes (ins : Nat → BridgeIn) (mem : Nat → Bytes) : Prop where
  r : AnswersAfter (AxiMaster.rTransfer ins) (AxiMaster.arTransfer ins)
  reads : ∀ n, AxiMaster.rTransfer ins n = true →
    ∃ t, AxiMaster.readFrom ins n ≤ t ∧ t ≤ n ∧
      OnLanes (ins n).slave.rdata (mem t) (AxiMaster.outAt ins (AxiMaster.readFrom ins n)).araddr
        (2 ^ (AxiMaster.outAt ins (AxiMaster.readFrom ins n)).arsize.toNat)
  writes : ∃ done, Performs ins mem done

/-- Of the cycles that show a load which completes the slave is ready for its address in one,
and of those that show a store in none before the answer. -/
structure AcceptsOnce (ins : Nat → BridgeIn) : Prop where
  load : Once (AxiMaster.loadShown ins) (AxiMaster.loadServed ins) fun n => (ins n).slave.arready
  store : ∀ k n, Span (AxiMaster.storeShown ins) (AxiMaster.storeServed ins) k n → k ≠ n →
    (ins k).slave.awready = false ∧ (ins k).slave.wready = false

namespace AxiMaster

variable {ins : Nat → BridgeIn} {n : Nat}

/-! ## Loads -/

theorem loads_requested (requester : Requester ins) :
    Requests (loadShown ins) (loadServed ins) (arTransfer ins) where
  held _ shown waits := (load_kept requester shown waits).1
  asked _ served := loadServed_active served
  only n transfers := (Bool.and_eq_true_iff.mp ((arTransfer_eq n).symm.trans transfers)).1

theorem ar_once (accepts : AcceptsOnce ins) :
    Once (loadShown ins) (loadServed ins) (arTransfer ins) := by
  intro n served
  obtain ⟨k, ⟨span, ready⟩, only⟩ := accepts.load n served
  refine ⟨k, ⟨span, ?_⟩, ?_⟩
  · rw [arTransfer_eq]
    exact Bool.and_eq_true_iff.mpr ⟨span.asked (loadServed_active served), ready⟩
  · rintro j ⟨inside, transfers⟩
    rw [arTransfer_eq, Bool.and_eq_true] at transfers
    exact only j ⟨inside, transfers.2⟩

theorem rTransfer_of_shown (shown : loadShown ins n = true) : rTransfer ins n = loadServed ins n := by
  have active : (runBridge ins n).dataLoadActive (ins n).req = true := shown
  simp [rTransfer, loadServed, reqLoadReady, rDataBeat, outAt, out, active]

/-- Without a load on the bus no address is left to be answered. -/
theorem rTransfer_counts (requester : Requester ins) (accepts : AcceptsOnce ins)
    (r : AnswersAfter (rTransfer ins) (arTransfer ins)) (n : Nat) :
    Nat.count (fun k => rTransfer ins k = true) n =
      Nat.count (fun k => loadServed ins k = true) n := by
  have requests := loads_requested requester
  induction n with
  | zero => rw [Nat.count_zero, Nat.count_zero]
  | succ n ih =>
      have same : rTransfer ins n = loadServed ins n := by
        cases shown : loadShown ins n with
        | true => exact rTransfer_of_shown shown
        | false =>
            have unserved : loadServed ins n = false := eq_false_of_imp (requests.asked n) shown
            have silent : arTransfer ins n = false := eq_false_of_imp (requests.only n) shown
            have even := requests.count_quiet (ar_once accepts) (requests.quiet shown)
            rw [unserved]
            by_contra answers
            rw [Bool.not_eq_false] at answers
            have taken := r n answers
            rw [count_succ_of_not silent, even, ih] at taken
            exact Nat.lt_irrefl _ taken
      rw [Nat.count_succ, Nat.count_succ, ih]
      simp only [same]

end AxiMaster

open AxiMaster

variable {ins : Nat → BridgeIn} {mem : Nat → Bytes} {n : Nat}

/-- A load gets bytes that were at its own address while it was shown. -/
theorem AcceptsOnce.reads_own (accepts : AcceptsOnce ins) (requester : Requester ins)
    (follows : FollowsLanes ins mem) (served : loadServed ins n = true) :
    ∃ k t, Span (loadShown ins) (loadServed ins) k n ∧ k ≤ t ∧ t ≤ n ∧
      OnLanes (ins n).slave.rdata (mem t) (outAt ins k).araddr (2 ^ (outAt ins k).arsize.toNat) := by
  obtain ⟨k, span, transfers, number⟩ := (ar_once accepts).number (loads_requested requester) served
  have from_ : readFrom ins n = k := by
    rw [readFrom, answered, rTransfer_counts requester accepts follows.r, ← number]
    exact Nat.nth_count transfers
  have taken : rTransfer ins n = true :=
    (rTransfer_of_shown (loadServed_active served)).trans served
  obtain ⟨t, after, before, lanes⟩ := follows.reads n taken
  rw [from_] at after lanes
  exact ⟨k, t, span, after, before, lanes⟩

/-! ## Stores -/

/-- Where no store is left, the slave has taken what it has answered. -/
theorem AcceptsOnce.taken (accepts : AcceptsOnce ins) (requester : Requester ins)
    (alone : ∀ k, storeShown ins k = true → storeServed ins k = false →
      (ins (k + 1)).req.reqLoadValid = false)
    (none : storeShown ins n = false) {j : Nat} (before : j < n) :
    awTransfer ins j = storeServed ins j ∧ wTransfer ins j = storeServed ins j := by
  have requests : Requests (storeShown ins) (storeServed ins) (awTransfer ins) :=
    ⟨fun k shown waits => (store_kept requester shown waits (alone k shown waits)).1,
      fun _ served => (storeServed_accepts served).1,
      fun _ transfers => (Bool.and_eq_true_iff.mp transfers).1⟩
  cases served : storeServed ins j with
  | true =>
      obtain ⟨active, address, word⟩ := storeServed_accepts served
      exact ⟨Bool.and_eq_true_iff.mpr ⟨active, address⟩, Bool.and_eq_true_iff.mpr ⟨active, word⟩⟩
  | false =>
      cases shown : storeShown ins j with
      | false =>
          have quiet : (outAt ins j).awvalid = false ∧ (outAt ins j).wvalid = false := ⟨shown, shown⟩
          rw [awTransfer, wTransfer, quiet.1, quiet.2]
          exact ⟨rfl, rfl⟩
      | true =>
          rcases requests.ends shown (Nat.le_of_lt before) with left | ⟨m, -, span⟩
          · exact Bool.noConfusion (none.symm.trans left)
          · have early : j ≠ m := by
              rintro rfl
              exact Bool.noConfusion (served.symm.trans span.ends)
            obtain ⟨address, word⟩ := accepts.store j m span early
            rw [awTransfer, wTransfer, address, word]
            exact ⟨Bool.and_false _, Bool.and_false _⟩

theorem count_congr {p q : Nat → Bool} (same : ∀ j, j < n → p j = q j) :
    Nat.count (fun k => p k = true) n = Nat.count (fun k => q k = true) n := by
  induction n with
  | zero => rw [Nat.count_zero, Nat.count_zero]
  | succ n ih =>
      rw [Nat.count_succ, Nat.count_succ, ih fun j before => same j (by omega)]
      simp only [same n (Nat.lt_succ_self n)]

/-- Then the memory changes in the cycles that answer a store, by that store. -/
theorem AcceptsOnce.writes_served (accepts : AcceptsOnce ins) (requester : Requester ins)
    (alone : ∀ k, storeShown ins k = true → storeServed ins k = false →
      (ins (k + 1)).req.reqLoadValid = false)
    (follows : FollowsLanes ins mem) (none : storeShown ins n = false) {j : Nat} (before : j < n) :
    mem (j + 1) = if storeServed ins j then
      writeLanes (mem j) (outAt ins j).awaddr (outAt ins j).wstrb (outAt ins j).wdata else mem j := by
  obtain ⟨done, performs⟩ := follows.writes
  have aw {k : Nat} (upto : k ≤ n) : Nat.count (fun k => awTransfer ins k = true) k =
      Nat.count (fun k => storeServed ins k = true) k :=
    count_congr fun j inside => (accepts.taken requester alone none (by omega)).1
  have w {k : Nat} (upto : k ≤ n) : Nat.count (fun k => wTransfer ins k = true) k =
      Nat.count (fun k => storeServed ins k = true) k :=
    count_congr fun j inside => (accepts.taken requester alone none (by omega)).2
  -- A store is performed between its transfers and its response, which are in one cycle.
  have performed {k : Nat} (upto : k ≤ n) :
      done k = Nat.count (fun k => storeServed ins k = true) k := by
    cases k with
    | zero => rw [performs.start, Nat.count_zero]
    | succ k =>
        have most := performs.address k
        rw [aw upto] at most
        have responses : Nat.count (fun k => storeServed ins k = true) (k + 1) ≤
            Nat.count (fun k => bTransfer ins k = true) (k + 1) := by
          refine Nat.count_mono_left fun j _ (served : storeServed ins j = true) => ?_
          simp only [storeServed, reqStoreReady, Bool.and_eq_true] at served
          exact Bool.and_eq_true_iff.mpr ⟨Bool.and_eq_true_iff.mpr ⟨served.1.2, served.2⟩, rfl⟩
        exact Nat.le_antisymm most (responses.trans (performs.response k))
  rw [performs.contents j, performed (by omega), performed before, Nat.count_succ]
  cases served : storeServed ins j with
  | false => simp
  | true =>
      obtain ⟨active, address, word⟩ := storeServed_accepts served
      have first : Nat.nth (fun k => awTransfer ins k = true)
          (Nat.count (fun k => storeServed ins k = true) j) = j := by
        rw [← aw (Nat.le_of_lt before)]
        exact Nat.nth_count (p := fun k => awTransfer ins k = true)
          (Bool.and_eq_true_iff.mpr ⟨active, address⟩)
      have second : Nat.nth (fun k => wTransfer ins k = true)
          (Nat.count (fun k => storeServed ins k = true) j) = j := by
        rw [← w (Nat.le_of_lt before)]
        exact Nat.nth_count (p := fun k => wTransfer ins k = true)
          (Bool.and_eq_true_iff.mpr ⟨active, word⟩)
      simp [List.range'_one, writeStore, first, second]

end NpcMachine.Rtl
