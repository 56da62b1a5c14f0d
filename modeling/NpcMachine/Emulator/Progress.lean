/-
# Emulator.Progress -- the core never stops by itself

From every state that a run of `RtlIss` reaches, a core that is not halted commits within
26 cycles, whatever it executes: the oldest instruction waits for one fill at most, and an
empty pipeline for two, the one under way and its own.

* `RtlIss.burst_next`, `RtlIss.fill_next`: a fill comes to its end;
* `RtlIss.rank_next`: what the rank counts falls in every cycle until a commit;
* `step_inst_returns`: so `step_inst` returns an event;
* `core_retires`: and `k` instructions take `26 * k` cycles at most.
-/
import NpcMachine.Emulator.CommitFollow
import NpcMachine.Machine.Within

namespace NpcMachine.Emulator

open NpcMachine.Rtl NpcMachine.Machine

set_option autoImplicit false

/-! ## Reachable states -/

/-- What every state of a booted run has. -/
structure RtlIss.Sound (s : RtlIss) : Prop where
  core : CoreWf s.top
  lock : Lockstep s
  waits : s.read.waitCycles.toNat ≤ 2

namespace RtlIss

variable {s : RtlIss}

theorem waited_waitCycles (s : RtlIss) :
    s.waited.read.waitCycles.toNat = s.read.waitCycles.toNat - 1 := by
  show (if s.read.waitCycles = 0#32 then 0#32 else s.read.waitCycles - 1#32).toNat = _
  split_ifs with none
  · simp [none]
  · have some_ : s.read.waitCycles.toNat ≠ 0 := fun zero => none (BitVec.eq_of_toNat_eq zero)
    rw [BitVec.toNat_sub_of_le (BitVec.le_def.mpr (by simp; omega))]
    simp

/-- A counter starts at 2 and only falls. -/
theorem clockHigh_waitCycles (low : RtlIss) (top : Core) :
    (low.clockHigh top).read.waitCycles.toNat ≤ max 2 low.read.waitCycles.toNat := by
  have kept : (low.endRead low.read).waitCycles = low.read.waitCycles := by
    unfold endRead
    split_ifs <;> rfl
  have read : (low.clockHigh top).read = low.startRead (low.endRead low.read) := by
    simp [clockHigh]
  rw [read, startRead]
  split_ifs
  · exact Nat.le_max_left _ _
  · rw [kept]
    exact Nat.le_max_right _ _

theorem clockLow_waitCycles (s : RtlIss) :
    s.clockLow.read.waitCycles.toNat = s.read.waitCycles.toNat - 1 := by
  rw [clockLow_read, waited_waitCycles]

theorem Sound.next (sound : s.Sound) : s.toggleClock.Sound where
  core := by
    rw [toggleClock_top]
    exact ⟨sound.core.pipeline.next _, sound.core.fetch.next _,
      sound.core.aligned.next sound.core.fetch _, sound.core.fill.next sound.core.fetch _⟩
  lock := sound.lock.next sound.core.fill
  waits := by
    have bound := clockHigh_waitCycles s.clockLow (s.clockLow.top.next s.clockLow.ioMaster)
    have waits := sound.waits
    rw [clockLow_waitCycles] at bound
    exact Nat.le_trans bound (by omega)

theorem sound_boot (power : RtlIss) (image : Memory) : (power.boot image).Sound where
  core := coreWf_run power image 0
  lock := lockstep_boot power image
  waits := by
    show power.reset.read.waitCycles.toNat ≤ 2
    have cycles (n : Nat) : (toggleReset^[n] power.cleared).read.waitCycles.toNat ≤ 2 := by
      induction n with
      | zero => exact Nat.zero_le 2
      | succ n ih =>
          rw [Function.iterate_succ_apply', toggleReset]
          refine Nat.le_trans (clockHigh_waitCycles _ _) ?_
          rw [clockLow_waitCycles]
          show max 2 ((toggleReset^[n] power.cleared).read.waitCycles.toNat - 1) ≤ 2
          omega
    exact cycles 10

theorem sound_run (power : RtlIss) (image : Memory) (n : Nat) :
    ((power.boot image).run n).Sound := by
  induction n with
  | zero => exact sound_boot power image
  | succ n sound => exact sound.next

/-! ## The end of a burst -/

/-- The cycles until the bridge is free. -/
def burstLeft (s : RtlIss) : Nat :=
  match s.top.axiMaster.state with
  | .ifAr => 6
  | .ifR => s.read.waitCycles.toNat - 1 + s.read.beatsLeft.toNat
  | _ => 0

theorem burstLeft_ifR (burst : s.top.axiMaster.state = .ifR) :
    s.burstLeft = s.read.waitCycles.toNat - 1 + s.read.beatsLeft.toNat := by
  rw [burstLeft, burst]

theorem Sound.beatsLeft (sound : s.Sound) (burst : s.top.axiMaster.state = .ifR) :
    1 ≤ s.read.beatsLeft.toNat ∧ s.read.beatsLeft.toNat ≤ 4 := by
  rw [sound.lock.left burst]
  generalize s.top.icache.fillBeat = beat
  revert beat
  decide

theorem Sound.burstLeft_le (sound : s.Sound) : s.burstLeft ≤ 6 := by
  have waits := sound.waits
  cases state : s.top.axiMaster.state with
  | ifR =>
      rw [burstLeft_ifR state]
      have beats := sound.beatsLeft state
      omega
  | idle | ifAr | dataAr | dataR | dataW | dataB => simp [burstLeft, state]

/-- A bridge that is not free comes closer to it in every cycle. -/
theorem burst_next (sound : s.Sound) (busy : s.top.axiMaster.state ≠ .idle) :
    s.toggleClock.burstLeft < s.burstLeft := by
  rcases sound.core.fill.paired.bridge_cases with idle | asks | burst
  · exact absurd idle busy
  · have next : s.toggleClock.top.axiMaster.state = .ifR := by
      rw [toggleClock_axiMaster]
      simp [AxiMaster.next, asks, s.clockLow_answers.addr]
    rw [burstLeft_ifR next, Lockstep.next_read_of_ifAr asks, burstLeft, asks]
    simp
  · have read := sound.lock.next_read_of_ifR burst
    obtain ⟨valid, -, last⟩ := s.clockLow_burst burst (sound.lock.active burst).1
    have beats := sound.beatsLeft burst
    have waits := sound.waits
    have counts := s.waited_waitCycles
    have fetchBeat := sound.lock.rFetchBeat burst
    rw [burstLeft_ifR burst]
    cases answered : s.clockLow.ioMaster.rvalid with
    | false =>
        -- The counter still runs.
        have stays : s.toggleClock.top.axiMaster.state = .ifR := by
          rw [toggleClock_axiMaster]
          simp [AxiMaster.next, burst, fetchBeat, answered]
        have more : s.waited.read.waitCycles.toNat ≠ 0 := by
          intro zero
          rw [answered, BitVec.eq_of_toNat_eq (y := 0#32) zero] at valid
          exact absurd valid (by decide)
        rw [answered, if_neg Bool.false_ne_true] at read
        have same : s.waited.read.beatsLeft = s.read.beatsLeft := rfl
        rw [burstLeft_ifR stays, read, counts, same]
        omega
    | true =>
        rw [answered, if_pos rfl] at read
        have done : s.waited.read.waitCycles.toNat = 0 := by
          have zero : s.waited.read.waitCycles = 0#32 := by simpa [answered] using valid
          rw [zero]
          rfl
        have isLast : s.clockLow.ioMaster.rlast = (s.read.beatsLeft == 1#32) := (last answered).1
        by_cases one : s.read.beatsLeft = 1#32
        · have idle : s.toggleClock.top.axiMaster.state = .idle := by
            rw [toggleClock_axiMaster]
            simp [AxiMaster.next, burst, fetchBeat, answered, isLast, one]
          rw [burstLeft, idle]
          show 0 < _
          omega
        · have stays : s.toggleClock.top.axiMaster.state = .ifR := by
            rw [toggleClock_axiMaster]
            simp [AxiMaster.next, burst, fetchBeat, answered, isLast, one]
          rw [if_neg one] at read
          have fewer : (s.read.beatsLeft - 1#32).toNat = s.read.beatsLeft.toNat - 1 :=
            BitVec.toNat_sub_of_le (BitVec.le_def.mpr beats.1)
          rw [burstLeft_ifR stays, read]
          show s.waited.read.waitCycles.toNat - 1 + (s.read.beatsLeft - 1#32).toNat < _
          rw [fewer, done]
          omega

/-! ## The end of a fill -/

/-- The cycles until the I-cache is free, while no access holds the bridge. -/
def fillLeft (s : RtlIss) : Nat :=
  if s.top.icache.state = .req ∧ s.top.axiMaster.state = .idle then 7 else s.burstLeft

theorem Sound.fillLeft_le (sound : s.Sound) : s.fillLeft ≤ 7 := by
  have burst := sound.burstLeft_le
  unfold fillLeft
  split_ifs <;> omega

/-- Without an access in MEM a fill comes closer to its end in every cycle. -/
theorem fill_next (sound : s.Sound) (busy : s.top.icache.state ≠ .idle)
    (empty : s.top.pipeline.exMem.valid = false) : s.toggleClock.fillLeft < s.fillLeft := by
  have noLoad : s.top.pipeline.reqLoadValid = false := by
    simp [Pipeline.reqLoadValid, LsuIn.reqLoadValid, Pipeline.lsu, empty]
  have noStore : s.top.pipeline.reqStoreValid = false := by
    simp [Pipeline.reqStoreValid, LsuIn.reqStoreValid, Pipeline.lsu, empty]
  by_cases idle : s.top.axiMaster.state = .idle
  · -- The bridge takes the fill over.
    have req : s.top.icache.state = .req := by
      have paired := sound.core.fill.paired
      rw [idle] at paired
      cases cache : s.top.icache.state with
      | idle => exact absurd cache busy
      | req => rfl
      | data => rw [cache] at paired; cases paired
    have next : s.toggleClock.top.axiMaster.state = .ifAr := by
      have starts : s.top.axiMaster.startFetch s.top.axiReq = true := by
        simp [AxiMaster.startFetch, idle, Core.axiReq, noLoad, noStore, Icache.fillReqValid, req]
      rw [toggleClock_axiMaster]
      simp [AxiMaster.next, idle, starts]
    have mine : s.fillLeft = 7 := if_pos ⟨req, idle⟩
    rw [mine, fillLeft, burstLeft, next]
    simp
  · have closer := burst_next sound idle
    have mine : s.fillLeft = s.burstLeft := if_neg fun both => idle both.2
    have later : s.toggleClock.fillLeft = s.toggleClock.burstLeft := by
      -- A bridge that becomes free ends the fill.
      refine if_neg fun both => ?_
      have paired := sound.next.core.fill.paired
      have ends : s.top.icache.state = .data := by
        rcases sound.core.fill.paired.bridge_cases with none | asks | burst
        · exact absurd none idle
        · have next : s.toggleClock.top.axiMaster.state = .ifR := by
            rw [toggleClock_axiMaster]
            simp [AxiMaster.next, asks, s.clockLow_answers.addr]
          rw [both.2] at next
          cases next
        · exact sound.core.fill.paired.cache_data burst
      have again := both.1
      rw [toggleClock_icache] at again
      cases Icache.step_cases s.top.icache (s.top.icacheIn s.clockLow.ioMaster) with
      | rest none => rw [ends] at none; cases none
      | miss none => rw [ends] at none; cases none
      | ask req => rw [ends] at req; cases req
      | pause _ _ next => rw [next.state, Icache.flushed_state, ends] at again; cases again
      | beat _ _ _ next =>
          have same : (s.top.icache.flushed (s.top.icacheIn s.clockLow.ioMaster)).state = .req :=
            next.state.symm.trans again
          rw [Icache.flushed_state, ends] at same
          cases same
      | fail _ _ _ _ next => rw [next.state] at again; cases again
      | install _ _ _ _ next => rw [next.state, Icache.installed_state] at again; cases again
    rw [mine, later]
    exact closer

end RtlIss

/-! ## An empty pipeline -/

/-- No stage holds an instruction. -/
structure EmptyPipeline (p : Pipeline) : Prop extends p.BackEmpty where
  ifId : p.ifId.valid = false

namespace EmptyPipeline

variable {p : Pipeline}

theorem asks (empty : EmptyPipeline p) (live : p.halted = false) (i : PipelineIn) :
    p.reqFetchValid i = true := by
  obtain ⟨runs, fine, straight, goes, -⟩ := empty.control i
  have none : p.haltPending = false := by
    simp [Pipeline.haltPending, empty.idEx, empty.exMem, empty.memWb]
  have accepts : p.ifIdAccept i = true := by simp [Pipeline.ifIdAccept, empty.ifId]
  cases pending : p.fetchPending <;>
    simp [Pipeline.reqFetchValid, Pipeline.fetchCanStart, pending, none, runs, live, goes, accepts,
      straight, fine]

theorem captures (empty : EmptyPipeline p) (i : PipelineIn) :
    p.fetchCapture i = i.respFetchValid := by
  obtain ⟨runs, -, straight, -, -⟩ := empty.control i
  have accepts : p.ifIdAccept i = true := by simp [Pipeline.ifIdAccept, empty.ifId]
  simp [Pipeline.fetchCapture, accepts, straight, runs]

/-- Without an answer it stays empty, in front of the same instruction. -/
theorem next (empty : EmptyPipeline p) {i : PipelineIn} (silent : i.respFetchValid = false) :
    EmptyPipeline (p.next i) ∧ (p.next i).pc = p.pc ∧ (p.next i).halted = p.halted := by
  obtain ⟨runs, fine, straight, -, -⟩ := empty.control i
  obtain ⟨-, idEx, exMem, memWb⟩ := empty.toBackEmpty.next i
  refine ⟨⟨⟨?_, exMem, memWb⟩, Pipeline.ifId_empty_of_silent empty.ifId silent⟩, ?_, ?_⟩
  · rw [idEx]
    exact empty.ifId
  · show p.nextPc i = p.pc
    simp [Pipeline.nextPc, runs, fine, straight, empty.captures, silent]
  · show p.nextHalted = p.halted
    simp [Pipeline.nextHalted, runs]

end EmptyPipeline

theorem installed_line (c : Icache) (i : IcacheIn) :
    (c.installed i).line c.missIndex = c.filledLine i := by
  rw [Icache.line, Icache.installed]
  split_ifs <;> rfl

namespace RtlIss

variable {s : RtlIss}

theorem lookup_of_line {a b : Word} (line : lineAddr a = lineAddr b) :
    lookupTag a = lookupTag b ∧ lookupIndex a = lookupIndex b := by
  have same := congrArg BitVec.toNat line
  rw [toNat_lineAddr, toNat_lineAddr] at same
  constructor
  · apply BitVec.eq_of_toNat_eq
    simp only [lookupTag, toNat_extract]
    omega
  · apply BitVec.eq_of_toNat_eq
    simp only [lookupIndex, toNat_extract]
    omega

/-- The lookup of an empty pipeline. -/
theorem lookup_of_empty (sound : s.Sound) (empty : EmptyPipeline s.top.pipeline)
    (live : s.top.pipeline.halted = false) :
    (s.top.icacheIn s.clockLow.ioMaster).lookupValid = true ∧
      (s.top.icacheIn s.clockLow.ioMaster).lookupAddr = s.top.pipeline.pc ∧
      lookupAligned s.top.pipeline.pc = true := by
  refine ⟨empty.asks live _, sound.core.fetch.reqFetchAddr, ?_⟩
  have pc := sound.core.aligned.pc
  simpa [misaligned4, lookupAligned] using pc

/-- The cycles until the fetch of an empty pipeline is answered; a fill of another line
comes first. -/
def fetchLeft (s : RtlIss) : Nat :=
  if s.top.icache.state = .idle then if s.pipelineIn.respFetchValid then 0 else 8
  else s.fillLeft + if s.top.icache.fillReqAddr = lineAddr s.top.pipeline.pc then 0 else 8

/-- The end of its own fill answers the fetch: with the line, or with the fault. -/
theorem answered_of_fill (sound : s.Sound) (empty : EmptyPipeline s.top.pipeline)
    (live : s.top.pipeline.halted = false) (busy : s.top.icache.state ≠ .idle)
    (line : s.top.icache.fillReqAddr = lineAddr s.top.pipeline.pc)
    (ends : s.toggleClock.top.icache.state = .idle) :
    s.toggleClock.pipelineIn.respFetchValid = true := by
  have silent : s.pipelineIn.respFetchValid = false := sound.core.fill.silent busy _
  obtain ⟨empty', pc', halted'⟩ := empty.next silent
  rw [← toggleClock_pipeline] at empty' pc' halted'
  obtain ⟨asks, addr, aligned⟩ := lookup_of_empty sound.next empty' (halted'.trans live)
  rw [pc'] at addr aligned
  show s.toggleClock.top.icache.respValid (s.toggleClock.top.icacheIn s.toggleClock.clockLow.ioMaster) = true
  have next := s.toggleClock_icache
  cases Icache.step_cases s.top.icache (s.top.icacheIn s.clockLow.ioMaster) with
  | rest idle => exact absurd idle busy
  | miss idle => exact absurd idle busy
  | ask req after =>
      rw [next, after.state] at ends
      revert ends
      show (if _ then IcacheState.data else IcacheState.req) = .idle → _
      split_ifs <;> exact nofun
  | pause data _ after =>
      rw [next, after.state, Icache.flushed_state, data] at ends
      cases ends
  | beat data _ _ after =>
      rw [next, after.state] at ends
      have same : (s.top.icache.flushed (s.top.icacheIn s.clockLow.ioMaster)).state = .idle := ends
      rw [Icache.flushed_state, data] at same
      cases same
  | fail _ _ _ _ after =>
      have pulse : s.toggleClock.top.icache.faultRespValid = true := by
        rw [next, after.faultRespValid]
      simp [Icache.respValid, pulse]
  | install data _ _ _ after =>
      obtain ⟨tag, index⟩ := lookup_of_line line
      have hit : s.toggleClock.top.icache.hit
          (s.toggleClock.top.icacheIn s.toggleClock.clockLow.ioMaster) = true := by
        have held : s.toggleClock.top.icache.line s.top.icache.missIndex =
            s.top.icache.filledLine (s.top.icacheIn s.clockLow.ioMaster) := by
          rw [next, Icache.line, after.line0, after.line1]
          exact installed_line _ _
        rw [sound.lock.miss.index busy, index] at held
        simp [Icache.hit, asks, addr, aligned, ends, held, Icache.filledLine,
          sound.lock.miss.tag busy, tag]
      simp [Icache.respValid, hit]

theorem fetch_next (sound : s.Sound) (empty : EmptyPipeline s.top.pipeline)
    (live : s.top.pipeline.halted = false) (silent : s.pipelineIn.respFetchValid = false) :
    s.toggleClock.fetchLeft < s.fetchLeft := by
  obtain ⟨-, pc', -⟩ := empty.next silent
  rw [← toggleClock_pipeline] at pc'
  by_cases idle : s.top.icache.state = .idle
  · obtain ⟨asks, addr, aligned⟩ := lookup_of_empty sound empty live
    have quiet : s.top.icache.respValid (s.top.icacheIn s.clockLow.ioMaster) = false := silent
    simp only [Icache.respValid, Bool.or_eq_false_iff] at quiet
    have next := s.toggleClock_icache
    have here : s.fetchLeft = 8 := by
      rw [fetchLeft, if_pos idle, silent]
      rfl
    cases Icache.step_cases s.top.icache (s.top.icacheIn s.clockLow.ioMaster) with
    | rest _ calm =>
        have misses : s.top.icache.miss (s.top.icacheIn s.clockLow.ioMaster) = true := by
          simp [Icache.miss, asks, addr, aligned, idle, quiet.1.2]
        rw [misses, quiet.2] at calm
        simp at calm
    | miss _ _ _ after =>
        -- The fill starts with the line of the fetch.
        have req : s.toggleClock.top.icache.state = .req := by
          rw [next, after.state]
          rfl
        have free : s.toggleClock.top.axiMaster.state = .idle := by
          have rests : s.top.axiMaster.startFetch s.top.axiReq = false := by
            simp [AxiMaster.startFetch, Core.axiReq, Icache.fillReqValid, idle]
          rw [toggleClock_axiMaster]
          simp [AxiMaster.next, sound.core.fill.bridge_idle idle, rests]
        have line : s.toggleClock.top.icache.fillReqAddr = lineAddr s.toggleClock.top.pipeline.pc := by
          rw [Icache.fillReqAddr, next, after.missAddr, pc', ← addr]
          rfl
        have fill : s.toggleClock.fillLeft = 7 := if_pos ⟨req, free⟩
        rw [here, fetchLeft, if_neg (by rw [req]; decide), line, if_pos rfl, fill]
        decide
    | ask req => rw [idle] at req; cases req
    | pause data => rw [idle] at data; cases data
    | beat data => rw [idle] at data; cases data
    | fail data => rw [idle] at data; cases data
    | install data => rw [idle] at data; cases data
  · have closer := fill_next sound idle empty.exMem
    have here : s.fetchLeft =
        s.fillLeft + if s.top.icache.fillReqAddr = lineAddr s.top.pipeline.pc then 0 else 8 :=
      if_neg idle
    rw [here, fetchLeft]
    by_cases ends : s.toggleClock.top.icache.state = .idle
    · rw [if_pos ends]
      by_cases line : s.top.icache.fillReqAddr = lineAddr s.top.pipeline.pc
      · rw [if_pos (answered_of_fill sound empty live idle line ends)]
        omega
      · rw [if_neg line]
        split_ifs <;> omega
    · rw [if_neg ends, Lockstep.next_fillReqAddr idle, pc']
      omega

theorem Sound.fetchLeft_le (sound : s.Sound) : s.fetchLeft ≤ 15 := by
  have fill := sound.fillLeft_le
  unfold fetchLeft
  split_ifs <;> omega

/-! ## Commits -/

/-- The cycles until a commit, by the oldest instruction. -/
def rank (s : RtlIss) : Nat :=
  if s.top.pipeline.memWb.valid then 0
  else if s.top.pipeline.exMem.valid then 1 + s.burstLeft
  else if s.top.pipeline.idEx.valid then 8
  else if s.top.pipeline.ifId.valid then 9
  else 10 + s.fetchLeft

theorem Sound.rank_le (sound : s.Sound) : s.rank ≤ 25 := by
  have burst := sound.burstLeft_le
  have fetch := sound.fetchLeft_le
  unfold rank
  split_ifs <;> omega

theorem rank_of_memWb (valid : s.top.pipeline.memWb.valid = true) : s.rank = 0 := if_pos valid

theorem rank_of_exMem (memWb : s.top.pipeline.memWb.valid = false)
    (valid : s.top.pipeline.exMem.valid = true) : s.rank = 1 + s.burstLeft := by
  simp [rank, memWb, valid]

theorem rank_of_idEx (memWb : s.top.pipeline.memWb.valid = false)
    (exMem : s.top.pipeline.exMem.valid = false) (valid : s.top.pipeline.idEx.valid = true) :
    s.rank = 8 := by
  simp [rank, memWb, exMem, valid]

theorem rank_of_ifId (empty : s.top.pipeline.BackEmpty) (valid : s.top.pipeline.ifId.valid = true) :
    s.rank = 9 := by
  simp [rank, empty.memWb, empty.exMem, empty.idEx, valid]

theorem rank_of_empty (empty : EmptyPipeline s.top.pipeline) : s.rank = 10 + s.fetchLeft := by
  simp [rank, empty.memWb, empty.exMem, empty.idEx, empty.ifId]

/-- The instruction in MEM waits for the bridge or commits. -/
theorem rank_next_of_exMem (sound : s.Sound) (memWb : s.top.pipeline.memWb.valid = false)
    (valid : s.top.pipeline.exMem.valid = true) : s.toggleClock.rank < s.rank := by
  have runs : s.top.pipeline.wbWillHalt = false := by simp [Pipeline.wbWillHalt, memWb]
  have leaves : s.toggleClock.top.pipeline.memWb = s.top.pipeline.accessed s.pipelineIn →
      s.toggleClock.rank < s.rank := by
    intro moves
    rw [rank_of_memWb (by rw [moves]; exact valid), rank_of_exMem memWb valid]
    omega
  rw [toggleClock_pipeline] at leaves
  cases Pipeline.step_cases s.top.pipeline s.pipelineIn with
  | halt halts => rw [runs] at halts; cases halts
  | trap _ _ _ _ _ moves => exact leaves moves
  | redirect _ _ _ _ _ _ _ moves => exact leaves moves
  | stall _ _ _ _ _ _ _ _ moves => exact leaves moves
  | flow _ _ _ _ _ _ _ _ moves => exact leaves moves
  | lost runs fine _ waits | wait runs fine _ waits =>
      obtain ⟨busy, -⟩ := wait_of_answers sound.core s.clockLow_answers waits
      obtain ⟨exMem, none⟩ := Pipeline.next_of_waits runs fine waits
      rw [← toggleClock_pipeline] at exMem none
      have closer := burst_next sound busy
      rw [rank_of_exMem (by rw [none]; rfl) (by rw [exMem]; exact valid),
        rank_of_exMem memWb valid]
      omega

/-- The instruction in EX moves on, maybe into a wait. -/
theorem rank_next_of_idEx (sound : s.Sound) (memWb : s.top.pipeline.memWb.valid = false)
    (exMem : s.top.pipeline.exMem.valid = false) (valid : s.top.pipeline.idEx.valid = true) :
    s.toggleClock.rank < s.rank := by
  have runs : s.top.pipeline.wbWillHalt = false := by simp [Pipeline.wbWillHalt, memWb]
  have fine : s.top.pipeline.memRedirect s.pipelineIn = false := by
    simp [Pipeline.memRedirect, Pipeline.memNewException, exMem]
  have goes : s.top.pipeline.memAccessWait s.pipelineIn = false := by
    simp [Pipeline.memAccessWait, exMem]
  obtain ⟨moves, none⟩ := Pipeline.next_of_goes runs fine goes
  rw [← toggleClock_pipeline] at moves none
  have bound := sound.next.burstLeft_le
  rw [rank_of_exMem (by rw [none]; exact exMem) (by rw [moves]; exact valid),
    rank_of_idEx memWb exMem valid]
  omega

/-- One cycle without a commit. -/
theorem rank_next (sound : s.Sound) (live : s.top.pipeline.halted = false)
    (memWb : s.top.pipeline.memWb.valid = false) : s.toggleClock.rank < s.rank := by
  cases exMem : s.top.pipeline.exMem.valid with
  | true => exact rank_next_of_exMem sound memWb exMem
  | false =>
      cases idEx : s.top.pipeline.idEx.valid with
      | true => exact rank_next_of_idEx sound memWb exMem idEx
      | false =>
          have back : s.top.pipeline.BackEmpty := ⟨idEx, exMem, memWb⟩
          obtain ⟨next, decoded, exMem', memWb'⟩ := back.next s.pipelineIn
          rw [← toggleClock_pipeline] at next decoded exMem' memWb'
          cases ifId : s.top.pipeline.ifId.valid with
          | true =>
              rw [rank_of_idEx memWb' exMem' (by rw [decoded]; exact ifId), rank_of_ifId back ifId]
              omega
          | false =>
              have empty : EmptyPipeline s.top.pipeline := ⟨back, ifId⟩
              rw [rank_of_empty empty]
              cases answered : s.pipelineIn.respFetchValid with
              | true =>
                  have back' : s.toggleClock.top.pipeline.BackEmpty :=
                    ⟨by rw [decoded]; exact ifId, exMem', memWb'⟩
                  have captured : s.toggleClock.top.pipeline.ifId.valid = true := by
                    rw [next, Pipeline.fetched, empty.captures, answered]
                    rfl
                  rw [rank_of_ifId back' captured]
                  omega
              | false =>
                  obtain ⟨empty', -, -⟩ := empty.next answered
                  rw [← toggleClock_pipeline] at empty'
                  have closer := fetch_next sound empty live answered
                  rw [rank_of_empty empty']
                  omega

theorem run_eq_iterate (s : RtlIss) (n : Nat) : s.run n = toggleClock^[n] s := by
  induction n with
  | zero => rfl
  | succ n ih => rw [run_succ, ih, Function.iterate_succ_apply']

theorem run_add (s : RtlIss) (m n : Nat) : (s.run m).run n = s.run (m + n) := by
  rw [run_eq_iterate, run_eq_iterate, run_eq_iterate, ← Function.iterate_add_apply, Nat.add_comm]

/-- A core that is not halted commits within 25 cycles. -/
theorem Sound.commits (sound : s.Sound) (live : s.top.pipeline.halted = false) :
    ∃ k, k ≤ 25 ∧ (s.run k).top.pipeline.commitValid = true := by
  have falls (t : RtlIss) (inv : t.Sound ∧ t.top.pipeline.halted = false)
      (silent : ¬ t.top.pipeline.commitValid = true) :
      (t.toggleClock.Sound ∧ t.toggleClock.top.pipeline.halted = false) ∧
        t.toggleClock.rank < t.rank := by
    have none : t.top.pipeline.memWb.valid = false := Bool.not_eq_true _ ▸ silent
    refine ⟨⟨inv.1.next, ?_⟩, rank_next inv.1 inv.2 none⟩
    rw [toggleClock_pipeline]
    show t.top.pipeline.nextHalted = false
    simp [Pipeline.nextHalted, Pipeline.wbWillHalt, none, inv.2]
  have within := (Within.of_rank (Q := fun t => t.top.pipeline.commitValid = true) rank falls
    ⟨sound, live⟩).mono sound.rank_le
  obtain ⟨k, early, valid⟩ := within
  rw [← run_eq_iterate] at valid
  exact ⟨k, early, valid⟩

/-! ## `step_inst` -/

theorem driveAxiMemory_cfg (s : RtlIss) : s.driveAxiMemory.memory.cfg = s.memory.cfg := by
  unfold driveAxiMemory
  split_ifs
  · show (s.writeStore s.top.axiOut).2.cfg = s.memory.cfg
    simp only [writeStore]
    split_ifs <;> simp
  · rfl

theorem run_cfg (s : RtlIss) (n : Nat) : (s.run n).memory.cfg = s.memory.cfg := by
  induction n with
  | zero => rfl
  | succ n ih =>
      rw [run_succ, ← ih]
      exact (driveAxiMemory_cfg _).trans (driveAxiMemory_cfg _)

/-- The loop ends with the first commit, where this comes in time. -/
theorem stepLoop_of_first {m k : Nat} (early : k < m)
    (valid : (s.run (k + 1)).top.pipeline.commitValid = true)
    (first : ∀ j, j < k → (s.run (j + 1)).top.pipeline.commitValid = false) :
    stepLoop m s = (some (s.run (k + 1)).commitEvent, s.run (k + 1)) := by
  have shift (j : Nat) : s.run (j + 1) = s.toggleClock.run j := by
    rw [run_eq_iterate, run_eq_iterate, Function.iterate_succ_apply]
  induction k generalizing m s with
  | zero =>
      obtain ⟨m, rfl⟩ := Nat.exists_eq_succ_of_ne_zero (Nat.ne_zero_of_lt early)
      rw [stepLoop]
      exact if_pos valid
  | succ k ih =>
      obtain ⟨m, rfl⟩ := Nat.exists_eq_succ_of_ne_zero (Nat.ne_zero_of_lt early)
      have silent : s.toggleClock.top.pipeline.commitValid = false := first 0 (Nat.succ_pos k)
      rw [stepLoop]
      simp only [silent, Bool.false_eq_true, if_false]
      rw [shift (k + 1)] at valid ⊢
      refine ih (Nat.lt_of_succ_lt_succ early) valid (fun j before => ?_) fun j => ?_
      · rw [← shift (j + 1)]
        exact first (j + 1) (Nat.succ_lt_succ before)
      · rw [run_eq_iterate, run_eq_iterate, Function.iterate_succ_apply]

end RtlIss

/-- After every number of cycles `step_inst` returns the next commit, 26 cycles later at
most, unless the core is then halted. -/
theorem step_inst_returns (power : RtlIss) (image : Memory) (n : Nat)
    (patient : 25 ≤ image.cfg.commitTimeoutCycles.toNat)
    (live : ((power.boot image).run (n + 1)).top.pipeline.halted = false) :
    ∃ k, k ≤ 25 ∧ ((power.boot image).run (n + (k + 1))).top.pipeline.commitValid = true ∧
      (∀ j, j < k → ((power.boot image).run (n + (j + 1))).top.pipeline.commitValid = false) ∧
      ((power.boot image).run n).stepInst =
        (some ((power.boot image).run (n + (k + 1))).commitEvent,
          (power.boot image).run (n + (k + 1))) := by
  have later (j : Nat) : ((power.boot image).run (n + 1)).run j =
      (power.boot image).run (n + (j + 1)) := by
    rw [RtlIss.run_add, Nat.add_assoc, Nat.add_comm 1 j]
  obtain ⟨d, near, holds⟩ := (RtlIss.sound_run power image (n + 1)).commits live
  rw [later] at holds
  have some_ : ∃ k, ((power.boot image).run (n + (k + 1))).top.pipeline.commitValid = true :=
    ⟨d, holds⟩
  have least := Nat.find_min' some_ holds
  have first (j : Nat) (before : j < Nat.find some_) :
      ((power.boot image).run (n + (j + 1))).top.pipeline.commitValid = false :=
    Bool.not_eq_true _ ▸ Nat.find_min some_ before
  refine ⟨Nat.find some_, Nat.le_trans least near, Nat.find_spec some_, first, ?_⟩
  have waits : Nat.find some_ < ((power.boot image).run n).memory.cfg.commitTimeoutCycles.toNat + 1 := by
    have cfg : ((power.boot image).run n).memory.cfg = image.cfg := RtlIss.run_cfg _ n
    rw [cfg]
    omega
  rw [RtlIss.stepInst, RtlIss.stepLoop_of_first waits, RtlIss.run_add]
  · rw [RtlIss.run_add]
    exact Nat.find_spec some_
  · intro j before
    rw [RtlIss.run_add]
    exact first j before

set_option maxRecDepth 100000 in
/-- The first call, on the image of a store and a load. -/
theorem step_inst_returns_first : ∃ k, k ≤ 25 ∧
    (((default : RtlIss).boot ⟨{}, followImage⟩).run (0 + (k + 1))).top.pipeline.commitValid = true ∧
    (∀ j, j < k → (((default : RtlIss).boot ⟨{}, followImage⟩).run
      (0 + (j + 1))).top.pipeline.commitValid = false) ∧
    (((default : RtlIss).boot ⟨{}, followImage⟩).run 0).stepInst =
      (some (((default : RtlIss).boot ⟨{}, followImage⟩).run (0 + (k + 1))).commitEvent,
        ((default : RtlIss).boot ⟨{}, followImage⟩).run (0 + (k + 1))) :=
  step_inst_returns default ⟨{}, followImage⟩ 0 (by decide) (by decide +kernel)

/-- Whatever the program, the commit with number `k` comes within `26 * k + 25` cycles, unless
the core halts before. -/
theorem core_retires (power : RtlIss) (image : Memory) (k : Nat) :
    ∃ t, t ≤ k * 26 + 25 ∧ (((power.boot image).run t).top.pipeline.halted = true ∨
      ((power.boot image).run t).top.pipeline.commitValid = true ∧
        (power.boot image).commitsBefore t = k) := by
  by_cases halts : ∃ t, t ≤ k * 26 ∧ ((power.boot image).run t).top.pipeline.halted = true
  · obtain ⟨t, early, halted⟩ := halts
    exact ⟨t, by omega, .inl halted⟩
  · obtain ⟨t, early, valid, count⟩ := nth_within (d := 25) (k := k)
      (f := fun t => ((power.boot image).run t).top.pipeline.commitValid = true) fun t early _ => by
        have live : ((power.boot image).run t).top.pipeline.halted = false := by
          by_contra halted
          exact halts ⟨t, early, Bool.not_eq_false _ ▸ halted⟩
        obtain ⟨j, near, valid⟩ := (RtlIss.sound_run power image t).commits live
        rw [RtlIss.run_add] at valid
        exact ⟨j, near, valid⟩
    exact ⟨t, early, .inr ⟨valid, count⟩⟩

end NpcMachine.Emulator
