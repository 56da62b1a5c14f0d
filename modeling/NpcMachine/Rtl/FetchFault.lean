/-
# Rtl.FetchFault -- whose fetch a fault pulse reports

A failed fill answers with a one-cycle pulse that carries no address; IF/ID files it
under the pc of that cycle.  The pulse always reports an error beat of the burst that
just ended (`pulse_has_error`), and the miss address still names the line of that
burst.  The pc need not lie in it any more: a redirect may have moved it on.
-/
import NpcMachine.Rtl.CoreRun

namespace NpcMachine.Rtl

set_option autoImplicit false

namespace Core

/-- An AXI error response arrives in the burst of the current fill. -/
def errorBeat (c : Core) (i : AxiIn) : Bool :=
  c.icache.state == .data && (c.icacheIn i).fillRespFault

/-- The burst that is under way or just over in cycle `n` is the burst of `line`, and
an error response was returned in it. -/
def BurstError (c : Core) (ins : Nat → AxiIn) (line : Word) (n : Nat) : Prop :=
  ∃ m, m < n ∧ (c.run ins m).errorBeat (ins m) = true ∧
    (c.run ins m).icache.fillReqAddr = line ∧
    ∀ k, m < k → k < n → (c.run ins k).icache.state = .data

/-- In cycle `n` IF/ID captures an instruction with the fetch-fault flag. -/
def capturesFault (c : Core) (i : AxiIn) : Bool :=
  c.pipeline.captured (c.pipelineIn i) && (c.pipelineIn i).respFetchFault

/-- Each captured fetch fault belongs to the line of its pc. -/
def FaultAttributed (c : Core) (ins : Nat → AxiIn) : Prop :=
  ∀ n, (c.run ins n).capturesFault (ins n) = true →
    c.BurstError ins (lineAddr (c.run ins n).pipeline.reqFetchAddr) n

/-! ## The burst behind a pulse -/

theorem next_icache (c : Core) (i : AxiIn) : (c.next i).icache = c.icache.next (c.icacheIn i) := rfl

/-- The line of a fill stays while a burst runs and when it ends. -/
theorem next_fillReqAddr {c : Core} (data : c.icache.state = .data) (i : AxiIn) :
    (c.next i).icache.fillReqAddr = c.icache.fillReqAddr := by
  rw [next_icache, Icache.next_fillReqAddr (by rw [data]; simp)]

/-- So an error in a burst is an error of the line that the miss address names. -/
theorem BurstError.line {c : Core} {ins : Nat → AxiIn} {line : Word} {n : Nat}
    (error : c.BurstError ins line n) : (c.run ins n).icache.fillReqAddr = line := by
  obtain ⟨m, before, beat, named, burst⟩ := error
  obtain ⟨k, rfl⟩ := Nat.exists_eq_add_of_lt before
  have started : (c.run ins m).icache.state = .data := by
    simp only [errorBeat, Bool.and_eq_true, beq_iff_eq] at beat
    exact beat.1
  have same : ∀ j, j ≤ k →
      (c.run ins (m + j + 1)).icache.fillReqAddr = (c.run ins m).icache.fillReqAddr := by
    intro j
    induction j with
    | zero => exact fun _ => next_fillReqAddr started (ins m)
    | succ j ih =>
        intro within
        have data := burst (m + j + 1) (by omega) (by omega)
        exact (next_fillReqAddr data (ins (m + j + 1))).trans (ih (by omega))
  rw [← named]
  exact same k (Nat.le_refl k)

/-- One more cycle of a burst keeps its error. -/
theorem BurstError.extend {c : Core} {ins : Nat → AxiIn} {line : Word} {n : Nat}
    (error : c.BurstError ins line n) (data : (c.run ins n).icache.state = .data) :
    c.BurstError ins line (n + 1) := by
  obtain ⟨m, before, beat, named, burst⟩ := error
  refine ⟨m, by omega, beat, named, ?_⟩
  intro k after within
  rcases Nat.lt_succ_iff_lt_or_eq.mp within with earlier | rfl
  · exact burst k after earlier
  · exact data

/-- A burst whose fault flag is up has returned an error. -/
structure FaultSeen (c : Core) (ins : Nat → AxiIn) (n : Nat) : Prop where
  req : (c.run ins n).icache.state = .req → (c.run ins n).icache.fillFaultSeen = false
  data : (c.run ins n).icache.state = .data → (c.run ins n).icache.fillFaultSeen = true →
    c.BurstError ins (c.run ins n).icache.fillReqAddr n

/-- A fault known at a beat comes from an earlier beat or from this one. -/
theorem FaultSeen.done {c : Core} {ins : Nat → AxiIn} {n : Nat} (seen : c.FaultSeen ins n)
    (data : (c.run ins n).icache.state = .data)
    (bad : (c.run ins n).icache.fillDoneFault ((c.run ins n).icacheIn (ins n)) = true) :
    c.BurstError ins (c.run ins n).icache.fillReqAddr (n + 1) := by
  simp only [Icache.fillDoneFault, Bool.or_eq_true] at bad
  rcases bad with earlier | now
  · exact (seen.data data earlier).extend data
  · refine ⟨n, Nat.lt_succ_self n, ?_, rfl, ?_⟩
    · simp [errorBeat, data, now]
    · intro k after within
      omega

theorem FaultSeen.next {c : Core} {ins : Nat → AxiIn} {n : Nat} (seen : c.FaultSeen ins n) :
    c.FaultSeen ins (n + 1) := by
  have next : (c.run ins (n + 1)).icache =
      (c.run ins n).icache.next ((c.run ins n).icacheIn (ins n)) := rfl
  have named : (c.run ins n).icache.state = .data →
      (c.run ins (n + 1)).icache.fillReqAddr = (c.run ins n).icache.fillReqAddr := by
    intro data
    exact next_fillReqAddr data (ins n)
  cases Icache.step_cases (c.run ins n).icache ((c.run ins n).icacheIn (ins n)) with
  | rest idle _ agrees =>
      have state : (c.run ins (n + 1)).icache.state = .idle := by
        rw [next, agrees.state, Icache.flushed_state, idle]
      constructor <;> intro other <;> rw [state] at other <;> contradiction
  | miss _ _ _ agrees =>
      constructor
      · intro _
        rw [next, agrees.fillFaultSeen]
        rfl
      · intro data
        rw [next, agrees.state] at data
        contradiction
  | ask req agrees =>
      have unseen : (c.run ins (n + 1)).icache.fillFaultSeen = false := by
        rw [next, agrees.fillFaultSeen]
        simpa using seen.req req
      constructor
      · exact fun _ => unseen
      · intro _ fault
        rw [unseen] at fault
        contradiction
  | pause data _ agrees =>
      constructor
      · intro req
        rw [next, agrees.state, Icache.flushed_state, data] at req
        contradiction
      · intro _ fault
        rw [next, agrees.fillFaultSeen, Icache.flushed_fillFaultSeen] at fault
        rw [named data]
        exact (seen.data data fault).extend data
  | beat data _ _ agrees =>
      constructor
      · intro req
        have state : (c.run ins (n + 1)).icache.state = .data := by
          rw [next, agrees.state]
          exact (Icache.flushed_state _ _).trans data
        rw [state] at req
        contradiction
      · intro _ fault
        rw [next, agrees.fillFaultSeen] at fault
        rw [named data]
        exact seen.done data fault
  | fail _ _ _ _ agrees =>
      have state : (c.run ins (n + 1)).icache.state = .idle := by rw [next, agrees.state]
      constructor <;> intro other <;> rw [state] at other <;> contradiction
  | install _ _ _ _ agrees =>
      have state : (c.run ins (n + 1)).icache.state = .idle := by
        rw [next, agrees.state, Icache.installed]
        split <;> rfl
      constructor <;> intro other <;> rw [state] at other <;> contradiction

theorem faultSeen_run (c : Core) (ins : Nat → AxiIn) (n : Nat) : c.reset.FaultSeen ins n := by
  induction n with
  | zero => constructor <;> intro state <;> simp [reset, Icache.reset] at state
  | succ n seen => exact seen.next

/-- A pulse reports an error of the burst that just ended. -/
theorem pulse_has_error (c : Core) (ins : Nat → AxiIn) (n : Nat)
    (pulse : (c.reset.run ins n).icache.faultRespValid = true) :
    c.reset.BurstError ins (c.reset.run ins n).icache.fillReqAddr n := by
  cases n with
  | zero => simp [reset, Icache.reset] at pulse
  | succ n =>
      rw [run_succ, next_faultRespValid] at pulse
      simp only [fillFails, Icache.fillFails, Bool.and_eq_true, beq_iff_eq] at pulse
      obtain ⟨⟨⟨data, -⟩, -⟩, bad⟩ := pulse
      have same : (c.reset.run ins (n + 1)).icache.fillReqAddr =
          (c.reset.run ins n).icache.fillReqAddr := next_fillReqAddr data (ins n)
      rw [same]
      exact (faultSeen_run c ins n).done data bad

/-- With any slave: the captured fetch faults belong to the lines of their pcs exactly
in the runs in which, whenever one is captured, pc still lies in the line of the
fill that failed. -/
theorem faultAttributed_iff (c : Core) (ins : Nat → AxiIn) :
    c.reset.FaultAttributed ins ↔
      ∀ n, (c.reset.run ins n).capturesFault (ins n) = true →
        (c.reset.run ins n).icache.fillReqAddr = lineAddr (c.reset.run ins n).pipeline.pc := by
  have addr : ∀ n, (c.reset.run ins n).pipeline.reqFetchAddr =
      (c.reset.run ins n).pipeline.pc := fun n => (fetchWf_run c ins n).reqFetchAddr
  constructor
  · intro attributed n captures
    rw [← addr n]
    exact (attributed n captures).line
  · intro stays n captures
    have pulse : (c.reset.run ins n).icache.faultRespValid = true := by
      simp only [capturesFault, Bool.and_eq_true] at captures
      exact captures.2
    rw [addr n, ← stays n captures]
    exact pulse_has_error c ins n pulse

end Core

/-! The word at `0x2000000C` jumps back to `0x20000000` while the next line is being
filled; only that fill answers with errors. -/

def jumpBackBeats (n : Nat) : AxiIn :=
  { nopBeats with
    rdata := if n = 6 then 0xFF5FF06F#32 else 0x00000013#32
    rresp := if 7 ≤ n then axrespSlverr else axrespOkay
    rlast := n == 6 || n == 17 }

/-- In cycle 18 the jump target is captured with the fault flag, though no fill of its
line ever returned an error. -/
theorem jumpBackBeats_misattribute :
    ¬ (default : Core).reset.FaultAttributed jumpBackBeats ∧
      ∀ m, m < 18 → ((default : Core).reset.run jumpBackBeats m).errorBeat (jumpBackBeats m) =
        true → ((default : Core).reset.run jumpBackBeats m).icache.fillReqAddr ≠
          lineAddr ((default : Core).reset.run jumpBackBeats 18).pipeline.reqFetchAddr := by
  constructor
  · intro attributed
    have line := (attributed 18 (by decide +kernel)).line
    revert line
    decide +kernel
  · decide +kernel

end NpcMachine.Rtl
