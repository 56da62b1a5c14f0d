/-
# Rtl.FillTiming -- where a fill is, and what the pipeline can hold then

The I-cache and the bridge walk through a fill together (`Paired`).  A miss leaves
IF/ID empty until the fill ends, so by the time the bridge has taken the fill over
EX is empty too.  Both facts hold with any slave.
-/
import NpcMachine.Rtl.CoreRun
import NpcMachine.Rtl.FillPath

namespace NpcMachine.Rtl

set_option autoImplicit false

namespace Core

structure FillWf (c : Core) : Prop where
  paired : Paired c.icache.state c.axiMaster.state
  pulse : c.icache.faultRespValid = true → c.icache.state = .idle
  ifId : c.icache.state ≠ .idle → c.pipeline.ifId.valid = false
  idEx : c.axiMaster.state ≠ .idle → c.pipeline.idEx.valid = false

theorem fillWf_reset (c : Core) : c.reset.FillWf where
  paired := .rest
  pulse _ := rfl
  ifId busy := absurd rfl busy
  idEx busy := absurd rfl busy

variable {c : Core}

/-- The bridge is free whenever the I-cache is. -/
theorem FillWf.bridge_idle (wf : c.FillWf) (idle : c.icache.state = .idle) :
    c.axiMaster.state = .idle :=
  wf.paired.bridge_idle idle

theorem next_paired (wf : c.FillWf) (i : AxiIn) :
    Paired (c.next i).icache.state (c.next i).axiMaster.state :=
  FillPath.next_paired (f := c.fillPath) wf.paired (c.pathIn i)

/-! ## The fetch stage during a fill -/

end Core

/-- What IF/ID holds moves on, and nothing is captured behind it. -/
theorem Pipeline.ifId_empty {p : Pipeline} {i : PipelineIn} (silent : i.respFetchValid = false)
    (leaves : p.ifId.valid = true → p.idStall i = false) : (p.next i).ifId.valid = false := by
  have noCapture : p.fetchCapture i = false := by simp [fetchCapture, silent]
  show (p.nextIfId i).valid = false
  unfold nextIfId
  split_ifs with _ _ _ captures clears
  · rfl
  · rfl
  · rfl
  · simp [noCapture] at captures
  · rfl
  · cases valid : p.ifId.valid with
    | false => rfl
    | true => simp [leaves valid, valid] at clears

/-- A request that gets no answer leaves IF/ID empty. -/
theorem Pipeline.ifId_empty_of_request {p : Pipeline} {i : PipelineIn} (fetch : p.FetchWf)
    (asks : p.reqFetchValid i = true) (silent : i.respFetchValid = false) :
    (p.next i).ifId.valid = false := by
  apply ifId_empty silent
  intro valid
  simp only [reqFetchValid, Bool.or_eq_true, Bool.and_eq_true] at asks
  rcases asks with pending | starts
  · rw [fetch.empty pending.1.1] at valid
    contradiction
  · exact (ifIdAccept_of_valid (fetchCanStart_accepts starts) valid).1

/-- An empty IF/ID that captures nothing stays empty. -/
theorem Pipeline.ifId_empty_of_silent {p : Pipeline} {i : PipelineIn}
    (empty : p.ifId.valid = false) (silent : i.respFetchValid = false) :
    (p.next i).ifId.valid = false := by
  apply ifId_empty silent
  intro valid
  rw [empty] at valid
  contradiction

/-- Behind an empty IF/ID, EX is empty after an edge on which nothing is held there. -/
theorem Pipeline.idEx_empty {p : Pipeline} {i : PipelineIn} (empty : p.ifId.valid = false)
    (free : p.idEx.valid = false ∨ p.memAccessWait i = false) :
    (p.next i).idEx.valid = false := by
  cases step_cases p i with
  | halt _ _ idEx => simp [idEx]
  | trap _ _ _ idEx => simp [idEx]
  | redirect _ _ _ _ _ idEx => simp [idEx]
  | lost _ _ _ _ _ idEx => simp [idEx]
  | wait _ _ _ waits _ idEx =>
      rw [idEx]
      rcases free with done | goes
      · exact done
      · rw [waits] at goes
        contradiction
  | stall _ _ _ _ _ _ idEx => simp [idEx]
  | flow _ _ _ _ _ _ idEx => rw [idEx]; exact empty

/-- A wait is a wait for a request on the bridge. -/
theorem Pipeline.memAccessWait_requests {p : Pipeline} {i : PipelineIn}
    (waits : p.memAccessWait i = true) : p.reqLoadValid = true ∨ p.reqStoreValid = true := by
  simp only [memAccessWait, Bool.and_eq_true, Bool.or_eq_true, Bool.not_eq_true'] at waits
  obtain ⟨⟨valid, clean⟩, ⟨⟨⟨access, -⟩, outside⟩, -⟩ | ⟨⟨⟨access, -⟩, outside⟩, -⟩⟩ := waits
  · left
    simp [reqLoadValid, LsuIn.reqLoadValid, outside]
    simp [lsu, valid, clean, access]
  · right
    simp [reqStoreValid, LsuIn.reqStoreValid, outside]
    simp [lsu, valid, clean, access]

namespace Core

variable {c : Core}

/-- During a fill the I-cache answers nothing. -/
theorem FillWf.silent (wf : c.FillWf) (busy : c.icache.state ≠ .idle) (i : AxiIn) :
    (c.pipelineIn i).respFetchValid = false := by
  have noPulse : c.icache.faultRespValid = false := by
    cases pulse : c.icache.faultRespValid with
    | false => rfl
    | true => exact absurd (wf.pulse pulse) busy
  show c.icache.respValid (c.icacheIn i) = false
  have other : (c.icache.state == .idle) = false := by simpa using busy
  simp [Icache.respValid, Icache.respMisaligned, Icache.hit, noPulse, other]

theorem FillWf.next (wf : c.FillWf) (fetch : c.pipeline.FetchWf) (i : AxiIn) :
    (c.next i).FillWf where
  paired := next_paired wf i
  pulse pulse := by
    rw [next_faultRespValid] at pulse
    have fails := pulse
    simp only [fillFails, Icache.fillFails, Bool.and_eq_true, beq_iff_eq] at fails
    obtain ⟨⟨⟨data, beats⟩, last⟩, bad⟩ := fails
    show (c.icache.next (c.icacheIn i)).state = .idle
    rw [(Icache.next_of_fail data beats last bad).state]
  ifId busy := by
    show (c.pipeline.next (c.pipelineIn i)).ifId.valid = false
    by_cases idle : c.icache.state = .idle
    · -- The fill starts with this cycle's miss, which answers nothing.
      have starts : (c.icache.next (c.icacheIn i)).state ≠ .idle := busy
      cases Icache.step_cases c.icache (c.icacheIn i) with
      | rest _ _ next => rw [next.state, Icache.flushed_state] at starts; exact absurd idle starts
      | miss _ noPulse misses =>
          have looked := misses
          simp only [Icache.miss, Bool.and_eq_true, Bool.not_eq_true'] at looked
          obtain ⟨⟨⟨asks, aligned⟩, -⟩, noHit⟩ := looked
          refine Pipeline.ifId_empty_of_request fetch asks ?_
          show c.icache.respValid (c.icacheIn i) = false
          simp [Icache.respValid, Icache.respMisaligned, aligned, noHit, noPulse]
      | ask req => rw [idle] at req; contradiction
      | pause data => rw [idle] at data; contradiction
      | beat data => rw [idle] at data; contradiction
      | fail data => rw [idle] at data; contradiction
      | install data => rw [idle] at data; contradiction
    · exact Pipeline.ifId_empty_of_silent (wf.ifId idle) (wf.silent idle i)
  idEx busy := by
    show (c.pipeline.next (c.pipelineIn i)).idEx.valid = false
    by_cases idle : c.axiMaster.state = .idle
    · -- The bridge takes the fill over: no data request, so nothing is held in EX.
      have starts : c.axiMaster.startFetch c.axiReq = true := by
        by_contra rests
        have stays : (c.next i).axiMaster = c.axiMaster := by
          show c.axiMaster.next c.axiReq i = _
          simp [AxiMaster.next, idle, rests]
        rw [stays] at busy
        exact busy idle
      simp only [AxiMaster.startFetch, Bool.and_eq_true, Bool.not_eq_true'] at starts
      obtain ⟨⟨⟨-, noLoad⟩, noStore⟩, asks⟩ := starts
      have req : c.icache.state ≠ .idle := by
        intro none
        have fill : (c.icache.state == .req) = true := asks
        rw [none] at fill
        contradiction
      refine Pipeline.idEx_empty (wf.ifId req) (Or.inr ?_)
      by_contra waits
      rcases Pipeline.memAccessWait_requests (Bool.not_eq_false _ |>.mp waits) with load | store
      · rw [show c.pipeline.reqLoadValid = false from noLoad] at load
        contradiction
      · rw [show c.pipeline.reqStoreValid = false from noStore] at store
        contradiction
    · have fill : c.icache.state ≠ .idle := fun none => idle (wf.bridge_idle none)
      exact Pipeline.idEx_empty (wf.ifId fill) (Or.inl (wf.idEx idle))

theorem fillWf_run (c : Core) (ins : Nat → AxiIn) (n : Nat) : (c.reset.run ins n).FillWf := by
  induction n with
  | zero => exact fillWf_reset c
  | succ n wf => exact wf.next (fetchWf_run c ins n) (ins n)

end Core

end NpcMachine.Rtl
