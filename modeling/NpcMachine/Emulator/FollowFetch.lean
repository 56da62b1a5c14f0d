/-
# Emulator.FollowFetch -- the fetch side of the core against a run of the reference model

Ahead of EX the core may be on a wrong path, but only behind a redirect that is about to
be applied.  `Front` speaks of the fetch stage when EX does not redirect; `Supply` of
the RAM and the I-cache while EX has not passed instruction `n`.

* `Front.next`: an edge keeps the fetch stage on the path;
* `Front.guarded`: until EX has passed the first `n` instructions, every lookup is in a
  guarded line;
* `Supply.next`: so every fill succeeds, and the I-cache holds the words of the image.
-/
import NpcMachine.Emulator.Follow
import NpcMachine.Emulator.Lockstep
import NpcMachine.Rtl.StraightLine

namespace NpcMachine.Emulator

open NpcMachine.Rtl

set_option autoImplicit false

/-! ## The fetch stage -/

structure Front (e : EmulatorIss) (n c : Nat) (p : Pipeline) : Prop where
  idEx : p.idEx.valid = true → p.exTurn c < n → AtEx e (p.exTurn c) p.idEx
  ifId : p.exRedirect = false → p.ifId.valid = true → p.idTurn c < n →
    AtId e (p.idTurn c) p.ifId
  pc : p.exRedirect = false → p.ifId.valid = false → p.idTurn c ≤ n →
    p.pc = (e.run (p.idTurn c)).hart.pc

namespace Front

variable {e : EmulatorIss} {n c : Nat} {p : Pipeline} {i : PipelineIn}

/-- ID hands on what it holds. -/
theorem decoded (front : Front e n c p) (straight : p.exRedirect = false)
    (valid : p.ifId.valid = true) (early : p.idTurn c < n) : AtEx e (p.idTurn c) p.decoded :=
  have id := front.ifId straight valid early
  ⟨id.pc, id.inst, id.fetchFault, id.fetchMisaligned⟩

section Fetched

variable (fetch : p.FetchWf)
  (captured : p.exTurn c < n → p.fetchCapture i = true → ∀ k, k < n →
    p.pc = (e.run k).hart.pc → AtId e k (p.fetched i))

include fetch captured

/-- IF/ID and `pc` after an edge on which ID hands on nothing. -/
theorem fetched_held (front : Front e n c p) (straight : p.exRedirect = false)
    (held : p.ifId.valid = true → p.idStall i = true) :
    ((p.fetched i).valid = true → p.idTurn c < n → AtId e (p.idTurn c) (p.fetched i)) ∧
      ((p.fetched i).valid = false → p.idTurn c ≤ n →
        p.pc = (e.run (p.idTurn c)).hart.pc ∧ p.fetchCapture i = false) := by
  rcases Pipeline.fetched_cases_held fetch held with
    ⟨captures, none, valid, -⟩ | ⟨captures, kept⟩ | ⟨captures, none, empty⟩
  · constructor
    · intro _ early
      exact captured (Nat.lt_of_le_of_lt Pipeline.exTurn_le_idTurn early) captures _ early
        (front.pc straight none (Nat.le_of_lt early))
    · intro empty
      rw [valid] at empty
      exact Bool.noConfusion empty
  · rw [kept]
    exact ⟨front.ifId straight, fun none early => ⟨front.pc straight none early, captures⟩⟩
  · refine ⟨fun valid => ?_, fun _ early => ⟨front.pc straight none early, captures⟩⟩
    rw [empty] at valid
    exact Bool.noConfusion valid

/-- IF/ID and `pc` after an edge on which ID hands its instruction to EX, and this one
does not redirect. -/
theorem fetched_moved (pcs : p.PcWf) (valid : p.ifId.valid = true) (ready : p.idStall i = false)
    (ahead : p.idTurn c < n → (e.run (p.idTurn c + 1)).hart.pc = p.ifId.pc + 4#32) :
    ((p.fetched i).valid = true → p.idTurn c + 1 < n →
        AtId e (p.idTurn c + 1) (p.fetched i)) ∧
      ((p.fetched i).valid = false → p.idTurn c + 1 ≤ n →
        p.pc = (e.run (p.idTurn c + 1)).hart.pc ∧ p.fetchCapture i = false) := by
  have le : p.exTurn c ≤ p.idTurn c := Pipeline.exTurn_le_idTurn
  have next (early : p.idTurn c + 1 ≤ n) : p.pc = (e.run (p.idTurn c + 1)).hart.pc := by
    rw [ahead (by omega), pcs.ifId valid]
  rcases Pipeline.fetched_cases (i := i) fetch with
    ⟨captures, held, -⟩ | ⟨-, stalls, -⟩ | ⟨captures, empty, -⟩
  · constructor
    · intro _ early
      exact captured (by omega) captures _ early (next (Nat.le_of_lt early))
    · intro empty
      rw [held] at empty
      exact Bool.noConfusion empty
  · rw [ready] at stalls
    exact Bool.noConfusion stalls
  · refine ⟨fun other => ?_, fun _ early => ⟨next early, captures⟩⟩
    rw [empty] at other
    exact Bool.noConfusion other

/-- An edge after which EX is empty and IF/ID was not cleared. -/
theorem next_held (front : Front e n c p) (straight : p.exRedirect = false)
    (turn : (p.next i).exTurn (p.memTurn c) = p.idTurn c)
    (held : p.ifId.valid = true → p.idStall i = true) (none : (p.next i).idEx.valid = false)
    (ifId : (p.next i).ifId = p.fetched i)
    (pc : (p.next i).pc = if p.fetchCapture i then p.reqFetchAddr + 4#32 else p.pc) :
    Front e n (p.memTurn c) (p.next i) := by
  have same : (p.next i).idTurn (p.memTurn c) = p.idTurn c := by
    rw [Pipeline.idTurn_of_empty none, turn]
  obtain ⟨kept, next⟩ := front.fetched_held fetch captured straight held
  refine ⟨by simp [none], fun _ => ?_, fun _ => ?_⟩
  · rw [ifId, same]
    exact kept
  · rw [ifId, same]
    intro empty early
    rw [pc, (next empty early).2, if_neg (by simp)]
    exact (next empty early).1

/-- One edge.  `ahead` and `redirected` say what EX does with its instruction. -/
theorem next (front : Front e n c p) (pcs : p.PcWf) (runs : p.wbWillHalt = false)
    (fine : p.memRedirect i = false)
    (empty : p.memAccessWait i = true → p.ifId.valid = false ∧ p.idEx.valid = false)
    (redirected : p.exRedirect = true → p.exTurn c < n →
      p.exNextPc = (e.run (p.exTurn c + 1)).hart.pc)
    (ahead : ∀ k, (p.next i).exTurn (p.memTurn c) = k → k < n →
      (p.next i).idEx.valid = true → (p.next i).exRedirect = false →
      AtEx e k (p.next i).idEx → (e.run (k + 1)).hart.pc = (p.next i).idEx.pc + 4#32) :
    Front e n (p.memTurn c) (p.next i) := by
  have turn := Pipeline.exTurn_next (c := c) runs fine fun waits => (empty waits).2
  cases Pipeline.step_cases p i with
  | halt halts => simp [runs] at halts
  | trap _ faults => simp [fine] at faults
  | lost _ _ redirects waits =>
      have valid := Pipeline.exRedirect_valid redirects
      rw [(empty waits).2] at valid
      exact Bool.noConfusion valid
  | redirect _ _ redirects goes ifId idEx exMem memWb pc =>
      have valid := Pipeline.exRedirect_valid redirects
      have gone : (p.next i).idTurn (p.memTurn c) = p.idTurn c := by
        rw [Pipeline.idTurn_of_empty (by simp [idEx]), turn]
      refine ⟨by simp [idEx], by simp [ifId], fun _ _ early => ?_⟩
      rw [gone, Pipeline.idTurn_of_valid valid] at early ⊢
      rw [pc]
      exact redirected redirects early
  | wait _ _ straight waits ifId idEx exMem memWb pc =>
      apply front.next_held fetch captured straight turn ?_ ?_ ifId pc
      · intro valid
        simp [(empty waits).1] at valid
      · rw [idEx]
        exact (empty waits).2
  | stall _ _ straight _ stalls ifId idEx exMem memWb pc =>
      exact front.next_held fetch captured straight turn (fun _ => stalls) (by simp [idEx]) ifId pc
  | flow _ _ straight _ ready ifId idEx exMem memWb pc =>
      cases valid : p.ifId.valid with
      | false =>
          apply front.next_held fetch captured straight turn ?_ ?_ ifId pc
          · intro other
            simp [valid] at other
          · rw [idEx]
            exact valid
      | true =>
          have some : (p.next i).idEx.valid = true := by
            rw [idEx]
            exact valid
          have moved : (p.next i).idTurn (p.memTurn c) = p.idTurn c + 1 := by
            rw [Pipeline.idTurn_of_valid some, turn]
          have path (goesOn : (p.next i).exRedirect = false) (early : p.idTurn c < n) :
              (e.run (p.idTurn c + 1)).hart.pc = p.ifId.pc + 4#32 := by
            have ex := front.decoded straight valid early
            rw [← idEx] at ex
            rw [ahead _ turn early some goesOn ex, idEx]
            rfl
          refine ⟨fun _ => ?_, fun goesOn => ?_, fun goesOn => ?_⟩
          · rw [turn, idEx]
            exact front.decoded straight valid
          · rw [ifId, moved]
            exact (fetched_moved fetch captured pcs valid ready (path goesOn)).1
          · rw [ifId, moved]
            intro none early
            have next := (fetched_moved fetch captured pcs valid ready (path goesOn)).2 none early
            rw [pc, next.2, if_neg (by simp)]
            exact next.1

end Fetched

/-! ## Lookups -/

/-- Until EX has passed the first `n` instructions, the fetch stage asks for guarded
addresses only: the wrong path goes no further than the word behind a jump. -/
theorem guarded (front : Front e n c p) (pcs : p.PcWf) (fetch : p.FetchWf)
    (asks : p.reqFetchValid i = true) (early : p.idTurn c < n) :
    Guarded e n p.reqFetchAddr := by
  rw [fetch.reqFetchAddr]
  cases straight : p.exRedirect with
  | false =>
      refine ⟨p.idTurn c, early, ?_⟩
      cases valid : p.ifId.valid with
      | true =>
          right
          rw [pcs.ifId valid, (front.ifId straight valid early).pc]
      | false =>
          left
          rw [front.pc straight valid (Nat.le_of_lt early)]
  | true =>
      have valid := Pipeline.exRedirect_valid straight
      rw [Pipeline.idTurn_of_valid valid] at early
      have pending : p.fetchPending = true := by
        have stopped : p.fetchCanStart i = false := by simp [Pipeline.fetchCanStart, straight]
        simp only [Pipeline.reqFetchValid, stopped, Bool.or_false, Bool.and_eq_true] at asks
        exact asks.1.1
      refine ⟨p.exTurn c, Nat.lt_of_succ_lt early, ?_⟩
      right
      rw [pcs.idEx (fetch.empty pending) valid, (front.idEx valid (Nat.lt_of_succ_lt early)).pc]

end Front

/-! ## The RAM and the I-cache -/

theorem Guarded.word {e : EmulatorIss} {n : Nat} {a : Word} (guarded : Guarded e n a)
    (word : BitVec 2) : Guarded e n (wordAddr (lookupTag a) (lookupIndex a) word) := by
  unfold Guarded
  rw [lineAddr_wordAddr]
  exact guarded

/-- The word of the image, at a guarded address. -/
def GuardedWord (e : EmulatorIss) (n : Nat) (a v : Word) : Prop :=
  Guarded e n a → e.memory.fetch a 0#32 = (.ok, v)

structure Supply (e : EmulatorIss) (n c : Nat) (s : RtlIss) : Prop where
  memory : s.top.pipeline.exTurn c ≤ n →
    s.memory = (e.run (s.top.pipeline.exTurn c)).memory
  cache : s.top.pipeline.exTurn c ≤ n → s.top.icache.Holds (GuardedWord e n)
  miss : s.top.pipeline.exTurn c < n → s.top.icache.state ≠ .idle →
    Guarded e n s.top.icache.missAddr ∧ s.top.icache.fillFaultSeen = false
  pulse : s.top.pipeline.exTurn c < n → s.top.icache.faultRespValid = false

namespace Supply

variable {e : EmulatorIss} {n c : Nat} {s : RtlIss} (contract : Contract e n) (cfg : e.cfg = {})
  (real : ∀ k, k < n → OpRs1Real (e.run k).word)

include contract cfg real

/-- A fetch on the path gets the word of its instruction. -/
theorem captured (supply : Supply e n c s) (wf : CoreWf s.top)
    (early : s.top.pipeline.exTurn c < n)
    (captures : s.top.pipeline.fetchCapture s.pipelineIn = true) {k : Nat} (inside : k < n)
    (pc : s.top.pipeline.pc = (e.run k).hart.pc) :
    AtId e k (s.top.pipeline.fetched s.pipelineIn) := by
  have answered := (Pipeline.fetchCapture_accepts captures).1
  have good : s.pipelineIn.respFetchFault = false := supply.pulse early
  have hits := hit_of_respFetch wf answered good
  have held := (supply.cache (Nat.le_of_lt early)).hit hits
  have addr : (s.top.icacheIn s.clockLow.ioMaster).lookupAddr = (e.run k).hart.pc := by
    rw [← pc]
    exact wf.fetch.reqFetchAddr
  rw [addr] at held
  have path : Guarded e n (e.run k).hart.pc := ⟨k, inside, .inl rfl⟩
  have word := (contract.executes inside).1
  rw [contract.fetch_guarded cfg real (Nat.le_of_lt inside) path, held path] at word
  rw [Pipeline.fetched, if_pos captures]
  refine ⟨wf.fetch.reqFetchAddr.trans pc, congrArg Prod.snd word, good, ?_⟩
  exact Core.respMisaligned_of_aligned wf.fetch wf.aligned s.clockLow.ioMaster

/-- The RAM has the words of the image at guarded addresses. -/
theorem fetch_eq (supply : Supply e n c s) (early : s.top.pipeline.exTurn c ≤ n) {a : Word}
    (guarded : Guarded e n a) : s.memory.fetch a 0#32 = e.memory.fetch a 0#32 := by
  rw [supply.memory early]
  exact contract.fetch_guarded cfg real early guarded

/-- Every beat of a guarded line is good. -/
theorem beat_good (supply : Supply e n c s) (lock : Lockstep s) (fill : s.top.FillWf)
    (ram : e.memory.cfg = {}) (early : s.top.pipeline.exTurn c < n)
    (data : s.top.icache.state = .data)
    (beats : (s.top.icacheIn s.clockLow.ioMaster).fillRespValid = true) :
    (s.top.icacheIn s.clockLow.ioMaster).fillRespFault = false := by
  have busy : s.top.icache.state ≠ .idle := by
    rw [data]
    simp
  have guarded : Guarded e n (wordAddr s.top.icache.missTag s.top.icache.missIndex
      s.top.icache.fillBeat) := by
    rw [lock.miss.tag busy, lock.miss.index busy]
    exact (supply.miss early busy).1.word _
  have word := (misaligned4_iff _).mp
    (wordAddr_aligned s.top.icache.missTag s.top.icache.missIndex s.top.icache.fillBeat)
  rw [(lock.beat fill data beats).2.2,
    supply.fetch_eq contract cfg real (Nat.le_of_lt early) guarded,
    contract.fetch_ok cfg real ram guarded word]
  rfl

/-- No guarded fill fails. -/
theorem fill_good (supply : Supply e n c s) (lock : Lockstep s) (fill : s.top.FillWf)
    (ram : e.memory.cfg = {}) (early : s.top.pipeline.exTurn c < n)
    (data : s.top.icache.state = .data)
    (beats : (s.top.icacheIn s.clockLow.ioMaster).fillRespValid = true) :
    s.top.icache.fillDoneFault (s.top.icacheIn s.clockLow.ioMaster) = false := by
  have busy : s.top.icache.state ≠ .idle := by
    rw [data]
    simp
  rw [Icache.fillDoneFault, (supply.miss early busy).2,
    supply.beat_good contract cfg real lock fill ram early data beats]
  rfl

theorem next_pulse (supply : Supply e n c s) (lock : Lockstep s) (fill : s.top.FillWf)
    (ram : e.memory.cfg = {}) (early : s.top.pipeline.exTurn c < n) :
    s.toggleClock.top.icache.faultRespValid = false := by
  rw [RtlIss.toggleClock_icache, Icache.next_faultRespValid]
  by_contra fails
  simp only [Icache.fillFails, Bool.not_eq_false, Bool.and_eq_true, beq_iff_eq] at fails
  obtain ⟨⟨⟨data, beats⟩, -⟩, bad⟩ := fails
  rw [supply.fill_good contract cfg real lock fill ram early data beats] at bad
  exact Bool.noConfusion bad

/-- The fill under way after a cycle: an old one, or one for this cycle's lookup. -/
theorem next_miss (supply : Supply e n c s) (lock : Lockstep s) (fill : s.top.FillWf)
    (ram : e.memory.cfg = {}) (early : s.top.pipeline.exTurn c < n)
    (asked : s.top.pipeline.reqFetchValid (s.top.dataIn s.clockLow.ioMaster) = true →
      Guarded e n s.top.pipeline.reqFetchAddr)
    (busy : s.toggleClock.top.icache.state ≠ .idle) :
    Guarded e n s.toggleClock.top.icache.missAddr ∧
      s.toggleClock.top.icache.fillFaultSeen = false := by
  rw [RtlIss.toggleClock_icache] at busy ⊢
  cases Icache.step_cases s.top.icache (s.top.icacheIn s.clockLow.ioMaster) with
  | rest idle _ next =>
      rw [next.state, Icache.flushed_state, idle] at busy
      exact absurd rfl busy
  | miss _ _ misses next =>
      simp only [Icache.miss, Bool.and_eq_true] at misses
      rw [next.missAddr, next.fillFaultSeen]
      exact ⟨asked misses.1.1.1, rfl⟩
  | ask req next =>
      have old := supply.miss early (by rw [req]; simp)
      rw [next.missAddr, next.fillFaultSeen]
      simpa using old
  | pause data _ next =>
      have old := supply.miss early (by rw [data]; simp)
      rw [next.missAddr, next.fillFaultSeen]
      simpa using old
  | beat data beats _ next =>
      have old := supply.miss early (by rw [data]; simp)
      rw [next.missAddr, next.fillFaultSeen]
      constructor
      · show Guarded e n (s.top.icache.flushed _).missAddr
        rw [Icache.flushed_missAddr]
        exact old.1
      · exact supply.fill_good contract cfg real lock fill ram early data beats
  | fail _ _ _ _ next =>
      rw [next.state] at busy
      exact absurd rfl busy
  | install _ _ _ _ next =>
      rw [next.state, Icache.installed_state] at busy
      exact absurd rfl busy

end Supply

theorem storeRequest_congr {p q : Pipeline} (same : q.exMem = p.exMem) :
    storeRequest q = storeRequest p := by
  have lsu : q.lsu = p.lsu := by simp only [Pipeline.lsu, same]
  have valid : q.reqStoreValid = p.reqStoreValid := congrArg LsuIn.reqStoreValid lsu
  have addr : q.reqStoreAddr = p.reqStoreAddr := congrArg LsuIn.memAddr lsu
  have size : q.reqStoreSize = p.reqStoreSize := congrArg LsuIn.memSize lsu
  have data : q.reqStoreData = p.reqStoreData := congrArg LsuIn.storeData lsu
  rw [storeRequest, storeRequest, valid, addr, size, data]

/-- The RAM after a cycle: what MEM newly holds has been stored. -/
theorem next_memory {e : EmulatorIss} {n c t : Nat} (s : RtlIss) (image : Memory)
    (back : Back e n (((s.boot image).run t).top.pipeline.memTurn c)
      ((s.boot image).run (t + 1)).top.pipeline)
    (runs : ((s.boot image).run t).top.pipeline.wbWillHalt = false)
    (fine : ((s.boot image).run t).top.pipeline.memRedirect ((s.boot image).run t).pipelineIn =
      false)
    (memory : ((s.boot image).run t).memory =
      (e.run (((s.boot image).run t).top.pipeline.exTurn c)).memory)
    (early : ((s.boot image).run (t + 1)).top.pipeline.exTurn
      (((s.boot image).run t).top.pipeline.memTurn c) ≤ n) :
    ((s.boot image).run (t + 1)).memory =
      (e.run (((s.boot image).run (t + 1)).top.pipeline.exTurn
        (((s.boot image).run t).top.pipeline.memTurn c))).memory := by
  have wf := (coreWf_run s image (t + 1)).pipeline
  have step : ((s.boot image).run (t + 1)).top.pipeline =
      ((s.boot image).run t).top.pipeline.next ((s.boot image).run t).pipelineIn :=
    ((s.boot image).run t).toggleClock_pipeline
  cases waits : ((s.boot image).run t).top.pipeline.memAccessWait
      ((s.boot image).run t).pipelineIn with
  | true =>
      have kept := (Pipeline.next_of_waits runs fine waits).1
      have turn := (Pipeline.turns_of_waits (c := c) runs fine waits).2
      rw [← step] at kept turn
      rw [turn, ← memory, memory_succ, storeRequest_congr kept, memory_requested]
  | false =>
      have turn := (Pipeline.turns_of_goes (c := c) runs fine waits).1
      rw [← step] at turn
      rw [memory_succ, memory, ← turn]
      cases valid : ((s.boot image).run (t + 1)).top.pipeline.exMem.valid with
      | false =>
          have silent : storeRequest ((s.boot image).run (t + 1)).top.pipeline = none := by
            simp [storeRequest, Pipeline.reqStoreValid, LsuIn.reqStoreValid, Pipeline.lsu, valid]
          rw [silent, Pipeline.exTurn_of_empty valid]
          rfl
      | true =>
          rw [Pipeline.exTurn_of_valid valid] at early ⊢
          obtain ⟨v1, v2, mem⟩ := back.exMem valid early
          rw [mem.storeRequest_eq valid wf, mem.steps.memory]

end NpcMachine.Emulator
