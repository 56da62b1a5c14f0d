/-
# Emulator.Lockstep -- the burst of the responder and the fill of the core

The responder's read registers follow the fill beat by beat: the burst is active
exactly while the bridge is in `ifR`, and it stands at the word that the fill waits
for (`Lockstep`).  So every beat carries the RAM word at the address under which the
I-cache files it, and the fourth beat is the last one (`Lockstep.beat`).
-/
import NpcMachine.Emulator.Responder
import NpcMachine.Rtl.IcacheContents

namespace NpcMachine.Emulator

open NpcMachine.Rtl

set_option autoImplicit false

/-- The read registers of the responder against the fill of the core. -/
structure Lockstep (s : RtlIss) : Prop where
  rest : s.top.axiMaster.state = .idle ∨ s.top.axiMaster.state = .ifAr → s.read.active = false
  addr : s.top.axiMaster.state = .ifAr → s.top.axiMaster.addrReg = s.top.icache.fillReqAddr
  active : s.top.axiMaster.state = .ifR →
    s.read.active = true ∧ s.read.id = 0#4 ∧ s.read.size = 4#32
  stands : s.top.axiMaster.state = .ifR →
    s.read.addr = s.top.icache.fillReqAddr + s.top.icache.fillBeat.setWidth 32 * 4#32
  left : s.top.axiMaster.state = .ifR →
    s.read.beatsLeft = 4#32 - s.top.icache.fillBeat.setWidth 32
  miss : s.top.icache.MissWf

/-! ## Counting beats -/

theorem beat_stride (base : Word) (beat : BitVec 2) (inner : beat ≠ 3#2) :
    base + beat.setWidth 32 * 4#32 + 4#32 = base + (beat + 1#2).setWidth 32 * 4#32 := by
  have step : ∀ b : BitVec 2, b ≠ 3#2 →
      b.setWidth 32 * 4#32 + 4#32 = (b + 1#2).setWidth 32 * 4#32 := by decide
  rw [BitVec.add_assoc, step beat inner]

theorem beat_left (beat : BitVec 2) (inner : beat ≠ 3#2) :
    4#32 - beat.setWidth 32 - 1#32 = 4#32 - (beat + 1#2).setWidth 32 := by
  revert beat
  decide

/-! ## The bus in each state of the bridge -/

theorem axiOut_of_idle {c : Core} (idle : c.axiMaster.state = .idle) :
    (c.axiOut.arvalid && c.axiOut.arid == 0#4) = false := by
  simp only [Core.axiOut, AxiMaster.out, idle]
  cases c.axiMaster.dataLoadActive c.axiReq <;> rfl

theorem axiOut_of_ifAr {c : Core} (asks : c.axiMaster.state = .ifAr) :
    c.axiOut.arvalid = true ∧ c.axiOut.arid = 0#4 ∧ c.axiOut.araddr = c.axiMaster.addrReg ∧
      c.axiOut.arlen = 3#8 ∧ c.axiOut.arsize = 2#3 := by
  simp [Core.axiOut, AxiMaster.out, AxiMaster.dataLoadActive, asks, axiIdFetch]

theorem axiOut_of_ifR {c : Core} (burst : c.axiMaster.state = .ifR) :
    c.axiOut.arvalid = false ∧ c.axiOut.rready = true := by
  simp [Core.axiOut, AxiMaster.out, AxiMaster.dataLoadActive, burst]

namespace RtlIss

variable (s : RtlIss)

theorem toggleClock_read :
    s.toggleClock.read = s.clockLow.startRead (s.clockLow.endRead s.waited.read) := by
  simp [toggleClock, clockHigh]

/-- The R channel of the low phase while no address is on the bus. -/
theorem clockLow_burst (burst : s.top.axiMaster.state = .ifR) (active : s.read.active = true) :
    s.clockLow.ioMaster.rvalid = (s.waited.read.waitCycles == 0#32) ∧
      s.clockLow.ioMaster.rid = s.read.id ∧
      (s.clockLow.ioMaster.rvalid = true →
        s.clockLow.ioMaster.rlast = (s.read.beatsLeft == 1#32) ∧
        s.clockLow.ioMaster.rdata = s.burstRead.2 ∧
        s.clockLow.ioMaster.rresp = axiResp s.burstRead.1) := by
  have silent : s.waited.top.axiOut.arvalid = false := (axiOut_of_ifR burst).1
  have runs : s.waited.read.active = true := active
  have same : s.waited.burstRead = s.burstRead := rfl
  rw [clockLow, driveAxiMemory_rvalid, driveAxiMemory_rid, driveAxiMemory_rlast,
    driveAxiMemory_rdata, driveAxiMemory_rresp]
  unfold driveRead
  rw [silent, runs, same]
  cases counts : s.waited.read.waitCycles == 0#32 with
  | true => exact ⟨rfl, rfl, fun _ => ⟨rfl, rfl, rfl⟩⟩
  | false => exact ⟨rfl, rfl, fun valid => absurd valid Bool.false_ne_true⟩

end RtlIss

namespace Lockstep

variable {s : RtlIss}

/-! ## The joint state -/

/-- Without a burst the joint state says that the responder rests. -/
theorem of_idle (idle : s.top.axiMaster.state = .idle) (rests : s.read.active = false)
    (miss : s.top.icache.MissWf) : Lockstep s := by
  refine ⟨fun _ => rests, ?_, ?_, ?_, ?_, miss⟩ <;> intro other <;> rw [idle] at other <;>
    exact absurd other (by decide)

theorem of_ifR (burst : s.top.axiMaster.state = .ifR)
    (active : s.read.active = true ∧ s.read.id = 0#4 ∧ s.read.size = 4#32)
    (stands : s.read.addr = s.top.icache.fillReqAddr + s.top.icache.fillBeat.setWidth 32 * 4#32)
    (left : s.read.beatsLeft = 4#32 - s.top.icache.fillBeat.setWidth 32)
    (miss : s.top.icache.MissWf) : Lockstep s := by
  refine ⟨?_, ?_, fun _ => active, fun _ => stands, fun _ => left, miss⟩
  · rintro (other | other) <;> rw [burst] at other <;> exact absurd other (by decide)
  · intro other
    rw [burst] at other
    exact absurd other (by decide)

/-! ## A beat -/

/-- A beat waits for nothing but the counter. -/
theorem rFetchBeat (lock : Lockstep s) (burst : s.top.axiMaster.state = .ifR) :
    s.top.axiMaster.rFetchBeat s.clockLow.ioMaster = s.clockLow.ioMaster.rvalid := by
  obtain ⟨active, id, -⟩ := lock.active burst
  have rid := (s.clockLow_burst burst active).2.1
  simp [AxiMaster.rFetchBeat, burst, rid, id, axiIdFetch]

theorem beatsLeft_one (lock : Lockstep s) (burst : s.top.axiMaster.state = .ifR) :
    (s.read.beatsLeft == 1#32) = (s.top.icache.fillBeat == 3#2) := by
  rw [lock.left burst]
  generalize s.top.icache.fillBeat = beat
  revert beat
  decide

/-- The address of a beat is the address of the word that the I-cache files. -/
theorem beat_addr (lock : Lockstep s) (fill : s.top.FillWf)
    (burst : s.top.axiMaster.state = .ifR) :
    s.read.addr =
      wordAddr s.top.icache.missTag s.top.icache.missIndex s.top.icache.fillBeat := by
  have busy : s.top.icache.state ≠ .idle := by
    rw [fill.paired.cache_data burst]
    simp
  rw [lock.miss.tag busy, lock.miss.index busy, wordAddr_of_line, lock.stands burst]
  rfl

/-- A beat delivers the RAM word at the address under which the I-cache files it; the
fourth beat is the last. -/
theorem beat (lock : Lockstep s) (fill : s.top.FillWf)
    (data : s.top.icache.state = .data)
    (beats : (s.top.icacheIn s.clockLow.ioMaster).fillRespValid = true) :
    (s.top.icacheIn s.clockLow.ioMaster).fillRespLast = (s.top.icache.fillBeat == 3#2) ∧
      (s.top.icacheIn s.clockLow.ioMaster).fillRespData = (s.memory.fetch
        (wordAddr s.top.icache.missTag s.top.icache.missIndex s.top.icache.fillBeat) 0#32).2 ∧
      (s.top.icacheIn s.clockLow.ioMaster).fillRespFault = axiFault (axiResp (s.memory.fetch
        (wordAddr s.top.icache.missTag s.top.icache.missIndex s.top.icache.fillBeat) 0#32).1) := by
  have burst := fill.paired.bridge_burst data
  obtain ⟨active, id, size⟩ := lock.active burst
  have answered : s.top.axiMaster.rFetchBeat s.clockLow.ioMaster = true := beats
  have valid : s.clockLow.ioMaster.rvalid = true := by
    rw [← lock.rFetchBeat burst]
    exact answered
  obtain ⟨last, word, resp⟩ := (s.clockLow_burst burst active).2.2 valid
  have fetched : s.burstRead = s.memory.fetch
      (wordAddr s.top.icache.missTag s.top.icache.missIndex s.top.icache.fillBeat) 0#32 := by
    rw [← lock.beat_addr fill burst]
    simp [RtlIss.burstRead, id, size]
  rw [fetched] at word resp
  refine ⟨?_, word, ?_⟩
  · rw [← lock.beatsLeft_one burst]
    exact last
  · have fault : (s.top.icacheIn s.clockLow.ioMaster).fillRespFault =
        (s.top.axiMaster.rFetchBeat s.clockLow.ioMaster &&
          axiFault s.clockLow.ioMaster.rresp) := rfl
    rw [fault, answered, resp, Bool.true_and]

/-! ## One cycle -/

/-- Between bursts only a fill address starts one. -/
theorem next_read_of_idle (lock : Lockstep s) (idle : s.top.axiMaster.state = .idle) :
    s.toggleClock.read = s.waited.read := by
  have noAddr : s.clockLow.readAddrHandshake = false := by
    have silent := axiOut_of_idle idle
    simp only [Bool.and_eq_false_iff] at silent
    simp only [RtlIss.readAddrHandshake, RtlIss.clockLow_top, Bool.and_eq_false_iff]
    rcases silent with noValid | other
    · exact Or.inl (Or.inl noValid)
    · exact Or.inr other
  have noData : s.clockLow.readDataHandshake = false := by
    have rests : s.waited.read.active = false := lock.rest (Or.inl idle)
    simp [RtlIss.readDataHandshake, rests]
  rw [RtlIss.toggleClock_read, RtlIss.startRead, noAddr, RtlIss.endRead, noData]
  rfl

/-- The handshake of a fill address starts the burst. -/
theorem next_read_of_ifAr (asks : s.top.axiMaster.state = .ifAr) :
    s.toggleClock.read = ⟨true, 2#32, s.top.axiMaster.addrReg, 4#32, 4#32, 0#4⟩ := by
  obtain ⟨valid, id, addr, len, size⟩ := axiOut_of_ifAr asks
  have ready := s.clockLow_answers.addr
  have handshake : s.clockLow.readAddrHandshake = true := by
    simp [RtlIss.readAddrHandshake, valid, id, ready]
  rw [RtlIss.toggleClock_read, RtlIss.startRead, handshake]
  simp only [RtlIss.clockLow_top, addr, size, len, id]
  rfl

/-- During a burst the registers move on with each beat. -/
theorem next_read_of_ifR (lock : Lockstep s) (burst : s.top.axiMaster.state = .ifR) :
    s.toggleClock.read =
      if s.clockLow.ioMaster.rvalid then
        if s.read.beatsLeft = 1#32 then
          { s.waited.read with active := false, beatsLeft := 0#32 }
        else
          { s.waited.read with
            beatsLeft := s.read.beatsLeft - 1#32, addr := s.read.addr + s.read.size }
      else s.waited.read := by
  have noAddr : s.clockLow.readAddrHandshake = false := by
    simp [RtlIss.readAddrHandshake, (axiOut_of_ifR burst).1]
  have takes : s.clockLow.readDataHandshake = s.clockLow.ioMaster.rvalid := by
    have runs : s.waited.read.active = true := (lock.active burst).1
    simp [RtlIss.readDataHandshake, (axiOut_of_ifR burst).2, runs]
  rw [RtlIss.toggleClock_read, RtlIss.startRead, noAddr, RtlIss.endRead, takes]
  rfl

theorem next_miss (lock : Lockstep s) : s.toggleClock.top.icache.MissWf := by
  rw [s.toggleClock_icache]
  exact lock.miss.next _

theorem next_fillReqAddr (busy : s.top.icache.state ≠ .idle) :
    s.toggleClock.top.icache.fillReqAddr = s.top.icache.fillReqAddr := by
  rw [s.toggleClock_icache, Icache.next_fillReqAddr busy]

theorem next_of_idle (lock : Lockstep s) (idle : s.top.axiMaster.state = .idle) :
    Lockstep s.toggleClock := by
  have rests : s.toggleClock.read.active = false := by
    rw [lock.next_read_of_idle idle]
    exact lock.rest (Or.inl idle)
  cases starts : s.top.axiMaster.startFetch s.top.axiReq with
  | false =>
      refine of_idle ?_ rests lock.next_miss
      rw [s.toggleClock_axiMaster]
      simp [AxiMaster.next, idle, starts]
  | true =>
      have req : s.top.icache.state = .req := by
        simp only [AxiMaster.startFetch, Bool.and_eq_true] at starts
        simpa [Core.axiReq, Icache.fillReqValid] using starts.2
      have next : s.toggleClock.top.axiMaster = ⟨.ifAr, s.top.icache.fillReqAddr⟩ := by
        rw [s.toggleClock_axiMaster]
        simp only [AxiMaster.next, idle, starts, if_true]
        rfl
      refine ⟨fun _ => rests, fun _ => ?_, ?_, ?_, ?_, lock.next_miss⟩
      · rw [next, next_fillReqAddr (by rw [req]; simp)]
      all_goals
        intro other
        rw [next] at other
        cases other

theorem next_of_ifAr (lock : Lockstep s) (fill : s.top.FillWf)
    (asks : s.top.axiMaster.state = .ifAr) : Lockstep s.toggleClock := by
  have req := fill.paired.cache_req asks
  have read := next_read_of_ifAr asks
  have none : s.toggleClock.top.icache.fillBeat = 0#2 := by
    rw [s.toggleClock_icache, (Icache.next_of_req req).fillBeat]
    simpa using (lock.miss.fresh req).1
  refine of_ifR ?_ ?_ ?_ ?_ lock.next_miss
  · rw [s.toggleClock_axiMaster]
    simp [AxiMaster.next, asks, s.clockLow_answers.addr]
  · rw [read]
    exact ⟨rfl, rfl, rfl⟩
  · rw [read, none, next_fillReqAddr (by rw [req]; simp), lock.addr asks]
    simp
  · rw [read, none]
    rfl

/-- A cycle of a burst without a beat. -/
theorem next_of_pause (lock : Lockstep s) (fill : s.top.FillWf)
    (burst : s.top.axiMaster.state = .ifR) (silent : s.clockLow.ioMaster.rvalid = false) :
    Lockstep s.toggleClock := by
  have data := fill.paired.cache_data burst
  have noBeat : s.top.axiMaster.rFetchBeat s.clockLow.ioMaster = false := by
    rw [lock.rFetchBeat burst, silent]
  have read := lock.next_read_of_ifR burst
  rw [silent] at read
  have beat : s.toggleClock.top.icache.fillBeat = s.top.icache.fillBeat := by
    rw [s.toggleClock_icache, (Icache.next_of_pause data noBeat).fillBeat, Icache.flushed_fillBeat]
  refine of_ifR ?_ ?_ ?_ ?_ lock.next_miss
  · rw [s.toggleClock_axiMaster]
    simp [AxiMaster.next, burst, noBeat]
  · rw [read]
    exact lock.active burst
  · rw [read, beat, next_fillReqAddr (by rw [data]; simp)]
    exact lock.stands burst
  · rw [read, beat]
    exact lock.left burst

theorem next_of_beat (lock : Lockstep s) (fill : s.top.FillWf)
    (burst : s.top.axiMaster.state = .ifR) (valid : s.clockLow.ioMaster.rvalid = true) :
    Lockstep s.toggleClock := by
  have data := fill.paired.cache_data burst
  obtain ⟨active, id, size⟩ := lock.active burst
  have beats : s.top.axiMaster.rFetchBeat s.clockLow.ioMaster = true := by
    rw [lock.rFetchBeat burst, valid]
  have last := (lock.beat fill data beats).1
  rw [← lock.beatsLeft_one burst] at last
  have read := lock.next_read_of_ifR burst
  rw [valid, if_pos rfl] at read
  cases ends : s.read.beatsLeft == 1#32 with
  | true =>
      have isLast : s.clockLow.ioMaster.rlast = true := last.trans ends
      have one : s.read.beatsLeft = 1#32 := by simpa using ends
      rw [if_pos one] at read
      refine of_idle ?_ (by rw [read]) lock.next_miss
      rw [s.toggleClock_axiMaster]
      simp [AxiMaster.next, burst, beats, isLast]
  | false =>
      have notLast : s.clockLow.ioMaster.rlast = false := last.trans ends
      have more : s.read.beatsLeft ≠ 1#32 := by simpa using ends
      have inner : s.top.icache.fillBeat ≠ 3#2 := by
        have step := lock.beatsLeft_one burst
        rw [ends] at step
        simpa using step.symm
      have beat : s.toggleClock.top.icache.fillBeat = s.top.icache.fillBeat + 1#2 := by
        rw [s.toggleClock_icache, (Icache.next_of_beat data beats notLast).fillBeat]
      rw [if_neg more] at read
      refine of_ifR ?_ ?_ ?_ ?_ lock.next_miss
      · rw [s.toggleClock_axiMaster]
        simp [AxiMaster.next, burst, notLast]
      · rw [read]
        exact ⟨active, id, size⟩
      · rw [read, beat, next_fillReqAddr (by rw [data]; simp), lock.stands burst, size]
        exact beat_stride _ _ inner
      · rw [read, beat, lock.left burst]
        exact beat_left _ inner

theorem next (lock : Lockstep s) (fill : s.top.FillWf) : Lockstep s.toggleClock := by
  rcases fill.paired.bridge_cases with idle | asks | burst
  · exact lock.next_of_idle idle
  · exact lock.next_of_ifAr fill asks
  · cases valid : s.clockLow.ioMaster.rvalid with
    | false => exact lock.next_of_pause fill burst valid
    | true => exact lock.next_of_beat fill burst valid

end Lockstep

/-! ## Every run -/

/-- A core in reset drives no address. -/
theorem toggleReset_rests (s : RtlIss) (rests : s.read.active = false) :
    s.toggleReset.read.active = false := by
  have low : (RtlIss.clockLow { s with top := s.top.reset }).top = s.top.reset := by simp
  have still : (RtlIss.clockLow { s with top := s.top.reset }).read.active = false := by
    rw [RtlIss.clockLow_read]
    exact rests
  have noAddr : (RtlIss.clockLow { s with top := s.top.reset }).readAddrHandshake = false := by
    have silent := axiOut_of_idle (c := s.top.reset) rfl
    simp only [Bool.and_eq_false_iff] at silent
    simp only [RtlIss.readAddrHandshake, low, Bool.and_eq_false_iff]
    rcases silent with noValid | other
    · exact Or.inl (Or.inl noValid)
    · exact Or.inr other
  have noData : (RtlIss.clockLow { s with top := s.top.reset }).readDataHandshake = false := by
    rw [RtlIss.readDataHandshake, still, Bool.and_false]
  simp only [RtlIss.toggleReset, RtlIss.clockHigh, RtlIss.startRead, RtlIss.endRead, noAddr,
    noData, Bool.false_eq_true, if_false, RtlIss.driveAxiMemory_read]
  exact still

theorem reset_rests (s : RtlIss) : s.reset.read.active = false := by
  have rests : ∀ n, (RtlIss.toggleReset^[n] s.cleared).read.active = false := by
    intro n
    induction n with
    | zero => rfl
    | succ n ih =>
        rw [Function.iterate_succ_apply']
        exact toggleReset_rests _ ih
  exact rests 10

theorem lockstep_boot (s : RtlIss) (image : Memory) : Lockstep (s.boot image) := by
  obtain ⟨c, reset⟩ := s.boot_top image
  have idle : (s.boot image).top.axiMaster.state = .idle := by rw [reset]; rfl
  have rests : (s.boot image).read.active = false := by
    rw [RtlIss.boot]
    exact reset_rests s
  refine Lockstep.of_idle idle rests ?_
  rw [reset]
  exact Icache.missWf_reset

theorem fillLockstep_run (s : RtlIss) (image : Memory) (n : Nat) :
    Lockstep ((s.boot image).run n) := by
  induction n with
  | zero => exact lockstep_boot s image
  | succ n lock => exact lock.next (coreWf_run s image n).fill

/-- A beat without an error brings the RAM word. -/
theorem beat_holds (s : RtlIss) (image : Memory) (n : Nat)
    (data : ((s.boot image).run n).top.icache.state = .data)
    (beats : (((s.boot image).run n).top.icacheIn
      ((s.boot image).run n).clockLow.ioMaster).fillRespValid = true)
    (good : (((s.boot image).run n).top.icacheIn
      ((s.boot image).run n).clockLow.ioMaster).fillRespFault = false) :
    ((s.boot image).run n).memory.fetch
        (wordAddr ((s.boot image).run n).top.icache.missTag
          ((s.boot image).run n).top.icache.missIndex
          ((s.boot image).run n).top.icache.fillBeat) 0#32 =
      (.ok, (((s.boot image).run n).top.icacheIn
        ((s.boot image).run n).clockLow.ioMaster).fillRespData) := by
  obtain ⟨-, word, fault⟩ :=
    (fillLockstep_run s image n).beat (coreWf_run s image n).fill data beats
  refine Prod.ext ?_ word.symm
  by_contra bad
  rw [fault, axiResp, if_neg bad] at good
  exact absurd good (by decide)

/-- The I-cache over one cycle: what it held may weaken, and each beat brings the RAM
word. -/
theorem cache_next (s : RtlIss) (image : Memory) {n : Nat} {P Q : Word → Word → Prop}
    (cache : ((s.boot image).run n).top.icache.Holds P)
    (lines : ((s.boot image).run n).top.pipeline.fenceICommit = false →
      ∀ addr word, P addr word → Q addr word)
    (buffer : ((s.boot image).run n).top.icache.state = .data →
      ((s.boot image).run n).top.icache.fillFaultSeen = false → ∀ word,
      word.toNat < ((s.boot image).run n).top.icache.fillBeat.toNat →
      P (wordAddr ((s.boot image).run n).top.icache.missTag
        ((s.boot image).run n).top.icache.missIndex word)
        (((s.boot image).run n).top.icache.fill.get word) →
      Q (wordAddr ((s.boot image).run n).top.icache.missTag
        ((s.boot image).run n).top.icache.missIndex word)
        (((s.boot image).run n).top.icache.fill.get word))
    (arrives : ∀ addr word, ((s.boot image).run n).memory.fetch addr 0#32 = (.ok, word) →
      Q addr word) :
    ((s.boot image).run (n + 1)).top.icache.Holds Q := by
  have lock := fillLockstep_run s image n
  have fill := (coreWf_run s image n).fill
  rw [RtlIss.run_succ, RtlIss.toggleClock_top]
  refine Icache.Holds.next cache lines buffer ?_ ?_ ?_ ?_
  · intro data beats good
    exact arrives _ _ (beat_holds s image n data beats good)
  · intro data beats last
    have ends := (lock.beat fill data beats).1
    rw [last] at ends
    simpa using ends.symm
  · intro data beats more
    have ends := (lock.beat fill data beats).1
    rw [more] at ends
    simpa using ends.symm
  · intro req
    exact (lock.miss.fresh req).1

end NpcMachine.Emulator
