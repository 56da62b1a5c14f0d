/-
# Rtl.FillPath -- the I-cache and the bridge as one machine

The part of `npc_core` that fills cache lines, under arbitrary lookups, flushes, data
requests, resets and an arbitrary slave.  The two state machines walk through a fill
together (`Paired`), so the bridge's four states for data accesses are never entered.

`Port` follows the AXI port from outside: a fetch burst is open from the handshake of its
address to its last word.  `lockstep_run`: the I-cache stores the words of the open burst
and nothing else, each once and in order, and a load never takes one of them.
-/
import NpcMachine.Rtl.Core
import NpcMachine.Rtl.IcacheContents
import NpcMachine.Machine.Run

namespace NpcMachine.Rtl

set_option autoImplicit false

structure FillPath where
  icache : Icache
  axiMaster : AxiMaster
  deriving Inhabited

/-- What the pipeline, the slave and the reset line drive. -/
structure PathIn where
  reset : Bool
  flush : Bool
  lookupValid : Bool
  lookupAddr : Word
  reqLoadValid : Bool
  reqLoadAddr : Word
  reqLoadSize : BitVec 2
  reqStoreValid : Bool
  reqStoreAddr : Word
  reqStoreSize : BitVec 2
  reqStoreData : Word
  ioMaster : AxiIn
  deriving DecidableEq, Repr, Inhabited

namespace FillPath

variable (f : FillPath) (i : PathIn)

def axiReq : AxiReq where
  reqFetchValid := f.icache.fillReqValid
  reqFetchAddr := f.icache.fillReqAddr
  reqLoadValid := i.reqLoadValid
  reqLoadAddr := i.reqLoadAddr
  reqLoadSize := i.reqLoadSize
  reqStoreValid := i.reqStoreValid
  reqStoreAddr := i.reqStoreAddr
  reqStoreSize := i.reqStoreSize
  reqStoreData := i.reqStoreData

/-- The `io_master` outputs. -/
def axiOut : AxiOut := f.axiMaster.out (f.axiReq i)

def icacheIn : IcacheIn where
  flush := i.flush
  lookupValid := i.lookupValid
  lookupAddr := i.lookupAddr
  fillReqReady := f.axiMaster.reqFetchReady i.ioMaster
  fillRespValid := f.axiMaster.respFetchValid i.ioMaster
  fillRespData := AxiMaster.respFetchData i.ioMaster
  fillRespLast := AxiMaster.respFetchLast i.ioMaster
  fillRespFault := f.axiMaster.respFetchFault i.ioMaster

def reqLoadReady : Bool := f.axiMaster.reqLoadReady (f.axiReq i) i.ioMaster

def reset : FillPath := ⟨.reset, .reset⟩

def next : FillPath :=
  if i.reset then reset
  else ⟨f.icache.next (f.icacheIn i), f.axiMaster.next (f.axiReq i) i.ioMaster⟩

/-- The run from reset. -/
abbrev run (ins : Nat → PathIn) (n : Nat) : FillPath := Machine.run next reset ins n

end FillPath

/-! ## Inside the core -/

namespace Core

def fillPath (c : Core) : FillPath := ⟨c.icache, c.axiMaster⟩

/-- What the rest of the core drives. -/
def pathIn (c : Core) (i : AxiIn) : PathIn where
  reset := false
  flush := c.pipeline.fenceICommit
  lookupValid := c.pipeline.reqFetchValid (c.dataIn i)
  lookupAddr := c.pipeline.reqFetchAddr
  reqLoadValid := c.pipeline.reqLoadValid
  reqLoadAddr := c.pipeline.reqLoadAddr
  reqLoadSize := c.pipeline.reqLoadSize
  reqStoreValid := c.pipeline.reqStoreValid
  reqStoreAddr := c.pipeline.reqStoreAddr
  reqStoreSize := c.pipeline.reqStoreSize
  reqStoreData := c.pipeline.reqStoreData
  ioMaster := i

theorem next_fillPath (c : Core) (i : AxiIn) :
    (c.next i).fillPath = c.fillPath.next (c.pathIn i) := rfl

/-- The fill path of a core runs as a machine of its own. -/
theorem fillPath_run (c : Core) (ins : Nat → AxiIn) (n : Nat) :
    (Machine.run next c.reset ins n).fillPath =
      FillPath.run (fun k => (Machine.run next c.reset ins k).pathIn (ins k)) n :=
  Machine.run_project next_fillPath c.reset ins n

end Core

/-! ## The joint state -/

/-- The joint states of the I-cache and the bridge. -/
inductive Paired : IcacheState → AxiState → Prop where
  | rest : Paired .idle .idle
  | asks : Paired .req .idle
  | addressed : Paired .req .ifAr
  | burst : Paired .data .ifR

namespace Paired

variable {cache : IcacheState} {bridge : AxiState}

theorem bridge_idle (paired : Paired cache bridge) (idle : cache = .idle) : bridge = .idle := by
  cases paired <;> first | rfl | cases idle

theorem bridge_burst (paired : Paired cache bridge) (data : cache = .data) : bridge = .ifR := by
  cases paired <;> first | rfl | cases data

theorem bridge_cases (paired : Paired cache bridge) :
    bridge = .idle ∨ bridge = .ifAr ∨ bridge = .ifR := by
  cases paired <;> simp

theorem cache_req (paired : Paired cache bridge) (asks : bridge = .ifAr) : cache = .req := by
  cases paired <;> first | rfl | cases asks

theorem cache_data (paired : Paired cache bridge) (burst : bridge = .ifR) : cache = .data := by
  cases paired <;> first | rfl | cases burst

end Paired

namespace FillPath

variable {f : FillPath} {i : PathIn}

theorem next_of_run (runs : i.reset = false) : f.next i =
    ⟨f.icache.next (f.icacheIn i), f.axiMaster.next (f.axiReq i) i.ioMaster⟩ := by
  rw [next, runs]
  rfl

theorem next_paired (paired : Paired f.icache.state f.axiMaster.state) (i : PathIn) :
    Paired (f.next i).icache.state (f.next i).axiMaster.state := by
  cases held : i.reset with
  | true =>
      rw [next, held]
      exact .rest
  | false =>
  rw [next_of_run held]
  show Paired (f.icache.next _).state (f.axiMaster.next _ _).state
  cases Icache.step_cases f.icache (f.icacheIn i) with
  | rest idle _ next =>
      have free := paired.bridge_idle idle
      have noFill : f.axiMaster.startFetch (f.axiReq i) = false := by
        simp [AxiMaster.startFetch, axiReq, Icache.fillReqValid, idle]
      rw [next.state, Icache.flushed_state, idle]
      simp only [AxiMaster.next, free, noFill, Bool.false_eq_true, if_false]
      exact .rest
  | miss idle _ _ next =>
      have free := paired.bridge_idle idle
      have noFill : f.axiMaster.startFetch (f.axiReq i) = false := by
        simp [AxiMaster.startFetch, axiReq, Icache.fillReqValid, idle]
      rw [next.state]
      simp only [AxiMaster.next, free, noFill, Bool.false_eq_true, if_false]
      exact .asks
  | ask req next =>
      rw [next.state]
      have ready : (f.icacheIn i).fillReqReady =
          (f.axiMaster.state == .ifAr && i.ioMaster.arready) := rfl
      rw [req] at paired
      rw [ready]
      cases state : f.axiMaster.state with
      | idle =>
          simp only [AxiMaster.next, state]
          cases f.axiMaster.startFetch (f.axiReq i) with
          | true => exact .addressed
          | false => simpa [state] using Paired.asks
      | ifAr =>
          simp only [AxiMaster.next, state]
          cases i.ioMaster.arready with
          | true => exact .burst
          | false => simpa [state] using Paired.addressed
      | _ => rw [state] at paired; cases paired
  | pause data noBeat next =>
      have state := paired.bridge_burst data
      have silent : f.axiMaster.rFetchBeat i.ioMaster = false := noBeat
      rw [next.state, Icache.flushed_state, data]
      simpa [AxiMaster.next, state, silent] using Paired.burst
  | beat data beats more next =>
      have state := paired.bridge_burst data
      have notLast : i.ioMaster.rlast = false := more
      rw [next.state]
      show Paired (f.icache.flushed _).state _
      rw [Icache.flushed_state, data]
      simpa [AxiMaster.next, state, notLast] using Paired.burst
  | fail data beats last _ next =>
      have state := paired.bridge_burst data
      have isLast : i.ioMaster.rlast = true := last
      have answered : f.axiMaster.rFetchBeat i.ioMaster = true := beats
      rw [next.state]
      simpa [AxiMaster.next, state, isLast, answered] using Paired.rest
  | install data beats last _ next =>
      have state := paired.bridge_burst data
      have isLast : i.ioMaster.rlast = true := last
      have answered : f.axiMaster.rFetchBeat i.ioMaster = true := beats
      rw [next.state, Icache.installed_state]
      simpa [AxiMaster.next, state, isLast, answered] using Paired.rest

/-- What the two state machines keep. -/
structure Locked (f : FillPath) : Prop where
  paired : Paired f.icache.state f.axiMaster.state
  miss : f.icache.MissWf
  addr : f.axiMaster.state = .ifAr → f.axiMaster.addrReg = f.icache.fillReqAddr

theorem locked_reset : reset.Locked where
  paired := .rest
  miss := Icache.missWf_reset
  addr asks := by cases asks

theorem Locked.next (locked : f.Locked) (i : PathIn) : (f.next i).Locked := by
  have paired := next_paired locked.paired i
  cases held : i.reset with
  | true =>
      rw [FillPath.next, held]
      exact locked_reset
  | false =>
      rw [next_of_run held] at paired ⊢
      refine ⟨paired, locked.miss.next _, fun asks => ?_⟩
      have asked : (f.axiMaster.next (f.axiReq i) i.ioMaster).state = .ifAr := asks
      show (f.axiMaster.next (f.axiReq i) i.ioMaster).addrReg =
        (f.icache.next (f.icacheIn i)).fillReqAddr
      rcases locked.paired.bridge_cases with idle | same | burst
      · simp only [AxiMaster.next, idle] at asked ⊢
        split_ifs at asked ⊢ with starts
        · simp only [AxiMaster.startFetch, Bool.and_eq_true] at starts
          have req : f.icache.state = .req := by
            simpa [axiReq, Icache.fillReqValid] using starts.2
          rw [Icache.next_fillReqAddr (by rw [req]; simp)]
          rfl
        · rw [idle] at asked
          contradiction
      · have req := locked.paired.cache_req same
        rw [Icache.next_fillReqAddr (by rw [req]; simp), ← locked.addr same]
        simp only [AxiMaster.next, same]
        split_ifs <;> rfl
      · simp only [AxiMaster.next, burst] at asked
        split_ifs at asked
        rw [burst] at asked
        contradiction

theorem locked_run (ins : Nat → PathIn) (n : Nat) : (run ins n).Locked := by
  induction n with
  | zero => exact locked_reset
  | succ n locked => exact locked.next (ins n)

/-! ## The port from outside -/

/-- The slave takes the address of a fetch burst. -/
def fetchAddressed (f : FillPath) (i : PathIn) : Bool :=
  (f.axiOut i).arvalid && i.ioMaster.arready && (f.axiOut i).arid == axiIdFetch

/-- The master takes a read word with the ID of fetches. -/
def fetchBeat (f : FillPath) (i : PathIn) : Bool :=
  i.ioMaster.rvalid && (f.axiOut i).rready && i.ioMaster.rid == axiIdFetch

/-- The words taken in the open fetch burst, and all words taken so far, each with its
place in its burst modulo four. -/
structure Port where
  burst : Option Nat
  accepted : List (BitVec 2 × Word)

/-- A beat with the fetch ID outside an open burst is not counted. -/
def Port.next (p : Port) (f : FillPath) (i : PathIn) : Port :=
  if i.reset then { p with burst := none }
  else
    match p.burst with
    | none => if f.fetchAddressed i then { p with burst := some 0 } else p
    | some k =>
        if f.fetchBeat i then
          { burst := if i.ioMaster.rlast then none else some (k + 1)
            accepted := p.accepted ++ [(BitVec.ofNat 2 k, i.ioMaster.rdata)] }
        else p

abbrev port (ins : Nat → PathIn) (n : Nat) : Port :=
  Machine.watch next Port.next ⟨none, []⟩ reset ins n

/-- The words that the I-cache filed in its buffer, in order. -/
abbrev stored (ins : Nat → PathIn) (n : Nat) : List (BitVec 2 × Word) :=
  Machine.log (fun f i => if i.reset then none else f.icache.stores (f.icacheIn i)) next reset
    ins n

/-- The port and the log as the two state machines see them. -/
structure Port.Follows (p : Port) (f : FillPath) (stored : List (BitVec 2 × Word)) : Prop where
  open_ : p.burst.isSome = true ↔ f.axiMaster.state = .ifR
  place : ∀ k, p.burst = some k → BitVec.ofNat 2 k = f.icache.fillBeat
  same : stored = p.accepted

theorem fetchAddressed_iff (locked : f.Locked) (i : PathIn) :
    f.fetchAddressed i = (f.axiMaster.state == .ifAr && i.ioMaster.arready) := by
  rcases locked.paired.bridge_cases with state | state | state
  · cases load : i.reqLoadValid <;>
      simp [fetchAddressed, axiOut, AxiMaster.out, AxiMaster.dataLoadActive, axiReq, state, load,
        axiIdData, axiIdFetch]
  · simp [fetchAddressed, axiOut, AxiMaster.out, AxiMaster.dataLoadActive, state]
  · have other : (AxiState.ifR == AxiState.ifAr) = false := by decide
    have busy : (AxiState.ifR == AxiState.idle) = false := by decide
    simp [fetchAddressed, axiOut, AxiMaster.out, AxiMaster.dataLoadActive, state, other, busy]

theorem fetchBeat_of_burst (burst : f.axiMaster.state = .ifR) (i : PathIn) :
    f.fetchBeat i = (f.icacheIn i).fillRespValid := by
  simp [fetchBeat, axiOut, AxiMaster.out, icacheIn, AxiMaster.respFetchValid,
    AxiMaster.rFetchBeat, burst]

theorem stores_of_other (locked : f.Locked) (other : f.axiMaster.state ≠ .ifR) (i : PathIn) :
    f.icache.stores (f.icacheIn i) = none := by
  have noData : f.icache.state ≠ .data := fun data => other (locked.paired.bridge_burst data)
  simp [Icache.stores, noData]

section Follows

variable {p : Port} {stored : List (BitVec 2 × Word)}

theorem Port.next_of_closed (runs : i.reset = false) (closed : p.burst = none) :
    p.next f i = if f.fetchAddressed i then { p with burst := some 0 } else p := by
  rw [Port.next, runs, closed]
  rfl

theorem Port.next_of_open (runs : i.reset = false) {k : Nat} (open_ : p.burst = some k) :
    p.next f i =
      if f.fetchBeat i then
        { burst := if i.ioMaster.rlast then none else some (k + 1)
          accepted := p.accepted ++ [(BitVec.ofNat 2 k, i.ioMaster.rdata)] }
      else p := by
  rw [Port.next, runs, open_]
  rfl

/-- A closed port stores nothing and may open. -/
theorem Port.Follows.next_closed (locked : f.Locked) (follows : p.Follows f stored)
    (runs : i.reset = false) (closed : p.burst = none) :
    (p.next f i).Follows (f.next i) stored := by
  have other : f.axiMaster.state ≠ .ifR := by
    intro burst
    have some := follows.open_.mpr burst
    rw [closed] at some
    contradiction
  rw [Port.next_of_closed runs closed, next_of_run runs, fetchAddressed_iff locked]
  by_cases opens : f.axiMaster.state = .ifAr ∧ i.ioMaster.arready = true
  · obtain ⟨asks, ready⟩ := opens
    have req := locked.paired.cache_req asks
    rw [asks, ready, if_pos (by decide)]
    refine ⟨?_, ?_, follows.same⟩
    · simp [AxiMaster.next, asks, ready]
    · intro k first
      cases first
      show 0#2 = (f.icache.next (f.icacheIn i)).fillBeat
      rw [(Icache.next_of_req req).fillBeat]
      simpa using (locked.miss.fresh req).1.symm
  · have shut : (f.axiMaster.state == .ifAr && i.ioMaster.arready) = false := by
      simpa using opens
    have stays : (f.axiMaster.next (f.axiReq i) i.ioMaster).state ≠ .ifR := by
      rcases locked.paired.bridge_cases with idle | asks | burst
      · simp only [AxiMaster.next, idle]
        split_ifs
        · simp
        · simp [idle]
      · have noReady : ¬ i.ioMaster.arready = true := fun ready => opens ⟨asks, ready⟩
        simp [AxiMaster.next, asks, noReady]
      · exact absurd burst other
    rw [shut, if_neg (by simp)]
    refine ⟨?_, ?_, follows.same⟩
    · simpa [closed] using stays
    · intro k none
      rw [closed] at none
      contradiction

/-- In an open burst the word taken at the port is the word stored. -/
theorem Port.Follows.next_open (locked : f.Locked) (follows : p.Follows f stored)
    (runs : i.reset = false) {k : Nat} (open_ : p.burst = some k) :
    (p.next f i).Follows (f.next i) (stored ++ (f.icache.stores (f.icacheIn i)).toList) := by
  have burst : f.axiMaster.state = .ifR := follows.open_.mp (by rw [open_]; rfl)
  have data := locked.paired.cache_data burst
  have place := follows.place k open_
  rw [Port.next_of_open runs open_, next_of_run runs, fetchBeat_of_burst burst]
  cases beats : (f.icacheIn i).fillRespValid with
  | false =>
      have silent : f.axiMaster.rFetchBeat i.ioMaster = false := beats
      have kept : f.icache.stores (f.icacheIn i) = none := by simp [Icache.stores, beats]
      rw [kept, Option.toList_none, List.append_nil, if_neg (by simp)]
      refine ⟨?_, ?_, follows.same⟩
      · simp [open_, AxiMaster.next, burst, silent]
      · intro j same
        rw [open_] at same
        cases same
        show _ = (f.icache.next (f.icacheIn i)).fillBeat
        rw [(Icache.next_of_pause data beats).fillBeat, Icache.flushed_fillBeat]
        exact place
  | true =>
      have answered : f.axiMaster.rFetchBeat i.ioMaster = true := beats
      have files : f.icache.stores (f.icacheIn i) =
          some (BitVec.ofNat 2 k, i.ioMaster.rdata) := by
        rw [place]
        simp only [Icache.stores, data, beats]
        rfl
      rw [files, if_pos rfl]
      refine ⟨?_, ?_, ?_⟩
      · cases last : i.ioMaster.rlast <;> simp [AxiMaster.next, burst, answered, last]
      · intro j same
        cases last : i.ioMaster.rlast with
        | true => simp [last] at same
        | false =>
            have step : j = k + 1 := by simpa [last] using same.symm
            show _ = (f.icache.next (f.icacheIn i)).fillBeat
            rw [(Icache.next_of_beat data beats last).fillBeat, step, ← place]
            exact BitVec.ofNat_add k 1
      · rw [follows.same]
        rfl

theorem Port.Follows.next (locked : f.Locked) (follows : p.Follows f stored) (i : PathIn) :
    (p.next f i).Follows (f.next i) (stored ++
      (if i.reset then none else f.icache.stores (f.icacheIn i)).toList) := by
  cases held : i.reset with
  | true =>
      rw [Port.next, FillPath.next, held]
      refine ⟨?_, ?_, ?_⟩
      · simp [reset, AxiMaster.reset]
      · intro k none
        cases none
      · simpa using follows.same
  | false =>
      cases burst : p.burst with
      | none =>
          have other : f.axiMaster.state ≠ .ifR := by
            intro state
            have some := follows.open_.mpr state
            rw [burst] at some
            contradiction
          have silent := stores_of_other locked other i
          rw [silent]
          simpa using follows.next_closed locked held burst
      | some k => exact follows.next_open locked held burst

end Follows

theorem follows_run (ins : Nat → PathIn) (n : Nat) :
    (port ins n).Follows (run ins n) (stored ins n) := by
  induction n with
  | zero =>
      refine ⟨?_, ?_, rfl⟩
      · refine ⟨fun open_ => ?_, fun burst => ?_⟩
        · cases open_
        · cases burst
      · intro k none
        cases none
  | succ n follows =>
      rw [stored, Machine.log_succ]
      exact follows.next (locked_run ins n) (ins n)

/-! ## Lockstep -/

/-- The state after `n` cycles and the words of the next. -/
structure InLockstep (ins : Nat → PathIn) (n : Nat) : Prop where
  states : (run ins n).axiMaster.state = .idle ∨ (run ins n).axiMaster.state = .ifAr ∨
    (run ins n).axiMaster.state = .ifR
  ifAr : (run ins n).axiMaster.state = .ifAr → (run ins n).icache.state = .req ∧
    (run ins n).axiMaster.addrReg = lineAddr (run ins n).icache.missAddr
  ifR : (run ins n).axiMaster.state = .ifR ↔ (run ins n).icache.state = .data
  idle : (run ins n).icache.state = .idle → (run ins n).axiMaster.state = .idle
  stored : stored ins n = (port ins n).accepted
  files : ∀ word data, (run ins n).icache.stores ((run ins n).icacheIn (ins n)) =
    some (word, data) → ((run ins n).icache.next ((run ins n).icacheIn (ins n))).fill =
      (run ins n).icache.fill.set word data
  keeps : (run ins n).icache.state = .data →
    (run ins n).icache.stores ((run ins n).icacheIn (ins n)) = none →
    ((run ins n).icache.next ((run ins n).icacheIn (ins n))).fill = (run ins n).icache.fill
  fill : ((run ins n).icacheIn (ins n)).fillRespValid = true →
    (ins n).ioMaster.rid = axiIdFetch ∧ (port ins n).burst.isSome = true
  load : (run ins n).reqLoadReady (ins n) = true →
    (ins n).ioMaster.rid = axiIdData ∧ (port ins n).burst = none

theorem lockstep_run (ins : Nat → PathIn) (n : Nat) : InLockstep ins n := by
  have locked := locked_run ins n
  have follows := follows_run ins n
  refine ⟨locked.paired.bridge_cases, fun asks => ⟨locked.paired.cache_req asks, locked.addr asks⟩,
    ⟨locked.paired.cache_data, locked.paired.bridge_burst⟩, locked.paired.bridge_idle,
    follows.same, fun _ _ => Icache.next_fill_of_stores, Icache.next_fill_of_kept, ?_, ?_⟩
  · intro beats
    have answered : (run ins n).axiMaster.rFetchBeat (ins n).ioMaster = true := beats
    simp only [AxiMaster.rFetchBeat, Bool.and_eq_true, beq_iff_eq] at answered
    exact ⟨answered.2, follows.open_.mpr answered.1.1⟩
  · intro ready
    have answered : (run ins n).axiMaster.rDataBeat ((run ins n).axiReq (ins n))
        (ins n).ioMaster = true := ready
    simp only [AxiMaster.rDataBeat, AxiMaster.dataLoadActive, Bool.and_eq_true, beq_iff_eq]
      at answered
    refine ⟨answered.2, ?_⟩
    cases open_ : (port ins n).burst with
    | none => rfl
    | some k =>
        have burst := follows.open_.mp (by rw [open_]; rfl)
        rw [answered.1.1.1] at burst
        contradiction

end FillPath

end NpcMachine.Rtl
