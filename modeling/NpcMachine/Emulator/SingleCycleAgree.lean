/-
# Emulator.SingleCycleAgree -- one edge of `npc_single_cycle` and one step of the reference

`Mirrors` is what the core, its memory and its timer have in common with `EmulatorISS` in
front of an instruction; `Shared` is the contract for one instruction, of any type and with
any outcome.  An edge of a fetch phase keeps `Mirrors` (`next_fetch`); the edge of the
execute phase retires what `step_inst` retires, with a commit that agrees with its event
(`next_execute`).
-/
import NpcMachine.Emulator.ServedAccess
import NpcMachine.Emulator.Outcome
import NpcMachine.Emulator.CommitFollow

namespace NpcMachine.Emulator

open NpcMachine.Rtl NpcMachine.Machine

set_option autoImplicit false

/-! ## What `execute` says of itself -/

section Execute

variable {e : EmulatorIss} {d : DecodedInst}

theorem execute_names (e : EmulatorIss) (d : DecodedInst) :
    (e.execute d).2.pc = e.hart.pc ∧ (e.execute d).2.inst = d.inst ∧
      ((e.execute d).2.exception = true → (e.execute d).2.nextPc = e.hart.mtvec) := by
  cases e.execute_cases d with
  | trap from_ cause hart raises leaves =>
      rw [leaves]
      refine ⟨?_, rfl, fun _ => ?_⟩
      · show from_.hart.pc = _
        rw [hart]
        rfl
      · show from_.hart.mtvec = _
        rw [hart]
        rfl
  | retire from_ rd value next hart quiet real leaves =>
      rw [leaves]
      refine ⟨?_, rfl, nofun⟩
      show from_.hart.pc = _
      rw [hart]
      exact (csrHart_keeps e.hart d).2.1

/-- Only a store moves the memory or the timer. -/
theorem execute_keeps (noStore : EmulatorIss.isStore d = false) :
    (e.execute d).1.memory = e.memory ∧ (e.execute d).1.clint = e.clint := by
  have ways := e.execute_outcome d
  generalize e.execute d = out at ways ⊢
  cases ways with
  | trap cause => exact ⟨rfl, rfl⟩
  | halt => exact ⟨rfl, rfl⟩
  | retire moved rd value next moves on =>
      show moved.memory = e.memory ∧ moved.clint = e.clint
      cases moves with
      | nothing => exact ⟨rfl, rfl⟩
      | csr hart => exact ⟨rfl, rfl⟩
      | load addr =>
          rw [EmulatorIss.loadMem]
          split_ifs
          · exact ⟨rfl, rfl⟩
          · split <;> exact ⟨rfl, rfl⟩
          · split <;> exact ⟨rfl, rfl⟩
          · exact ⟨rfl, rfl⟩
      | store checked type =>
          rcases type with type | type | type <;> simp [EmulatorIss.isStore, type] at noStore

/-- The decoder of the core knows the stores. -/
theorem execute_noStore {w : U32} (noWrite : (decoder w).memWrite = false) :
    (e.execute (decode w)).1.memory = e.memory ∧ (e.execute (decode w)).1.clint = e.clint := by
  refine execute_keeps ?_
  have types : ∀ t : InstType, (t == .sb || t == .sh || t == .sw) = true →
      isBase t = true ∧ (control t).memWrite = true := by
    intro t
    cases t <;> decide
  by_contra stores
  rw [Bool.not_eq_false] at stores
  obtain ⟨base, writes⟩ := types (decodeType w) stores
  have same : (decoder w).memWrite = true :=
    (congrArg Control.memWrite (decoder_of_base base)).trans writes
  rw [noWrite] at same
  cases same

theorem execute_illegal {w : U32} (refused : emulatorIllegal w = true) :
    e.execute (decode w) = e.trap (decode w) Emulator.causeIllegalInst := by
  rw [EmulatorIss.execute]
  cases checked : reservedReg (decode w) with
  | true => rw [if_pos rfl]
  | false =>
      rw [emulatorIllegal, checked, Bool.or_false, beq_iff_eq] at refused
      rw [refused]
      rfl

/-- A store leaves what the access leaves, whether it traps or not. -/
theorem executeStore_keeps (addr data : U32) :
    (e.executeStore d addr data).1.memory = (e.storeMem addr (accessSize d.type) data).2.memory ∧
      (e.executeStore d addr data).1.clint = (e.storeMem addr (accessSize d.type) data).2.clint := by
  rw [EmulatorIss.executeStore]
  rcases e.storeMem addr (accessSize d.type) data with ⟨result, after⟩
  cases result <;> exact ⟨rfl, rfl⟩

end Execute

/-! ## The commit of an accepted instruction -/

section Commit

variable {s : SingleCycle} {i : SingleCycleIn} {e : EmulatorIss}
  (live : s.halted = false) (executes : s.executePhase = true)

include live executes

/-- The commit matches an event with its verdict, way on and result. -/
theorem eventsMatch_single {ev : CommitEvent} (cycle : BitVec 64)
    (real : (s.dec.hasRd && s.dec.rd5.getLsbD 4) = false) (pc : ev.pc = s.fetchPcReg)
    (inst : ev.inst = s.instReg) (verdict : s.exc i = if ev.exception then some ev.cause else none)
    (nextPc : s.nextPc i = ev.nextPc)
    (rd : ev.exception = false → ev.rd = if s.dec.regWrite then s.dec.rd5.setWidth 32 else 0#32)
    (value : ev.exception = false → ev.rd ≠ 0#32 → s.rdValue i = ev.rdValue) :
    eventsMatch ev (singleEvent (s.next i) cycle) = true := by
  rw [eventsMatch_iff, singleEvent_next live executes]
  cases raised : ev.exception with
  | true =>
      rw [raised, if_pos rfl] at verdict
      refine ⟨pc, ?_, nextPc.symm, fun _ => ?_, fun quiet => absurd quiet (by simp)⟩
      · rw [SingleCycle.excTake, verdict]
        rfl
      · rw [SingleCycle.excCause, verdict]
        rfl
  | false =>
      rw [raised, if_neg Bool.false_ne_true] at verdict
      have quiet : s.excTake i = false := by rw [SingleCycle.excTake, verdict]; rfl
      have wen : s.regWen i = (s.dec.regWrite && s.dec.rd != 0#4) := by
        simp [SingleCycle.regWen, executes, quiet]
      have number : s.dec.rd = s.dec.rd5.setWidth 4 := by
        rw [SingleCycle.dec, decoder_rd, decoder_rd5, register_low]
      have named := rd raised
      have field (writes : s.dec.regWrite = true) : s.dec.rd5.getLsbD 4 = false := by
        have has : s.dec.hasRd = true := (decoder_regWrite s.instReg).symm.trans writes
        rwa [has, Bool.true_and] at real
      refine ⟨pc, quiet.symm, nextPc.symm, fun raises => absurd raises (by simp), fun _ => ⟨inst, ?_, fun some_ => ?_⟩⟩
      · cases writes : s.dec.regWrite with
        | false =>
            rw [named, wen, writes]
            rfl
        | true =>
            rw [named, wen, writes, Bool.true_and, number]
            by_cases zero : s.dec.rd5.setWidth 4 = 0#4
            · rw [if_pos rfl, (register_zero _ (field writes)).mpr zero, zero]
              rfl
            · have other : (s.dec.rd5.setWidth 4 != 0#4) = true := by simpa using zero
              rw [if_pos rfl, if_pos other]
              exact (commitRd_field _ (field writes) zero).symm
      · have writes : s.regWen i = true := by
          rw [wen]
          by_contra none
          refine some_ (named.trans ?_)
          cases write : s.dec.regWrite with
          | false => rfl
          | true =>
              rw [write, Bool.true_and, number] at none
              exact (register_zero _ (field write)).mpr (by simpa using none)
        show ev.rdValue = if s.regWen i then s.rdValue i else 0#32
        rw [if_pos writes]
        exact (value raised some_).symm

end Commit

/-! ## The contract -/

/-- An instruction that both models treat alike: both decoders accept it or both refuse it,
a store among the latter is not asked for, a device is the timer in whole words, and no
store faults. -/
structure Shared (e : EmulatorIss) : Prop where
  decoders : rtlIllegal e.word = emulatorIllegal e.word
  stores : (decoder e.word).memWrite = true → rtlIllegal e.word = false
  access : ∀ addr, e.dataAddr (decode e.word) = some addr →
    Plainly e addr (accessSize (decode e.word).type)
  strict : e.stepBody.2.exception = true → e.stepBody.2.cause ≠ Emulator.causeStoreAccessFault

theorem shared_iff (e : EmulatorIss) : Shared e ↔ rtlIllegal e.word = emulatorIllegal e.word ∧
    ((decoder e.word).memWrite = true → rtlIllegal e.word = false) ∧
    (e.dataAddr (decode e.word)).all (fun addr =>
      decide (Plainly e addr (accessSize (decode e.word).type))) = true ∧
    (e.stepBody.2.exception = true → e.stepBody.2.cause ≠ Emulator.causeStoreAccessFault) := by
  simp only [Option.all_eq_true, decide_eq_true_eq]
  exact ⟨fun shared => ⟨shared.decoders, shared.stores, shared.access, shared.strict⟩,
    fun ⟨decoders, stores, access, strict⟩ => ⟨decoders, stores, access, strict⟩⟩

instance (e : EmulatorIss) : Decidable (Shared e) := decidable_of_iff _ (shared_iff e).symm

/-! ## Side by side -/

/-- The served core against the reference model in front of its next instruction. -/
structure Mirrors (s : Served) (e : EmulatorIss) : Prop where
  hart : SameHart s.core e.hart
  time : s.core.clint.mtime = e.clint.time
  memory : s.memory = e.memory
  fetched : s.core.executePhase = true → s.core.instReg = e.word ∧
    s.core.fetchFaultReg = ((e.memory.fetch e.hart.pc 0#32).1 == .accessFault) ∧
    s.core.fetchMisalignedReg = ((e.memory.fetch e.hart.pc 0#32).1 == .misaligned)

/-- The event of the reference model that the commit of the core stands for: all of it, or
the exception alone when the fetch failed. -/
def CommitAgrees (e : EmulatorIss) (ev commit : CommitEvent) : Prop :=
  if (e.memory.fetch e.hart.pc 0#32).1 = .ok then eventsMatch ev commit = true
  else ev.exception = true ∧ commit.exception = true ∧ ev.cause = commit.cause ∧
    commit.pc = e.hart.pc ∧ ev.nextPc = commit.nextPc

namespace Mirrors

variable {s : Served} {e : EmulatorIss} {ready : Bool}

/-! ## Edges that retire nothing -/

/-- In a fetch phase the core waits or takes the word at its pc. -/
theorem next_fetch (mirrors : Mirrors s e) (waits : s.core.executePhase = false) :
    Mirrors (s.next ready) e := by
  have regfile : (s.next ready).core.regfile = s.core.regfile := by
    show s.core.regfile.next (s.core.regWen _) _ _ = _
    simp [SingleCycle.regWen, waits]
  have csrFile : (s.next ready).core.csrFile = s.core.csrFile := by
    show s.core.csrFile.next (s.core.csrWrite _) = _
    simp [CsrFile.next, SingleCycle.csrWrite, waits]
  have clint : (s.next ready).core.clint = s.core.clint := by
    show s.core.clint.next s.core.executePhase _ _ _ _ = _
    simp [Rtl.Clint.next, waits]
  have stored : (s.next ready).memory = s.memory := by
    have asks : s.core.reqStoreValid = false := by
      show (s.core.executePhase && s.core.dec.memWrite && _) = false
      rw [waits]
      rfl
    show s.stored = _
    rw [Served.stored, asks]
    rfl
  have stays : (s.core.clocked (s.coreIn ready)).pc = s.core.pc ∧
      (s.core.clocked (s.coreIn ready)).halted = s.core.halted := by
    cases halted : s.core.halted with
    | true =>
        rw [SingleCycle.clocked_halted halted]
        exact ⟨rfl, halted⟩
    | false =>
        rw [SingleCycle.clocked_fetch halted waits]
        exact ⟨SingleCycle.fetched_pc, SingleCycle.fetched_halted.trans halted⟩
  refine ⟨⟨stays.1.trans mirrors.hart.pc, stays.2.trans mirrors.hart.halted, ?_, ?_⟩, ?_,
    stored.trans mirrors.memory, fun executes => ?_⟩
  · rw [regfile]
    exact mirrors.hart.regs
  · rw [csrFile]
    exact mirrors.hart.csrs
  · rw [clint]
    exact mirrors.time
  · have executes' : (s.core.clocked (s.coreIn ready)).executePhase = true := executes
    have fields : (s.core.clocked (s.coreIn ready)).instReg = s.respFetch.data ∧
        (s.core.clocked (s.coreIn ready)).fetchFaultReg = s.respFetch.fault ∧
        (s.core.clocked (s.coreIn ready)).fetchMisalignedReg = s.respFetch.misaligned ∧
        s.core.halted = false := by
      cases halted : s.core.halted with
      | true =>
          rw [SingleCycle.clocked_halted halted] at executes'
          exact absurd (waits.symm.trans executes') Bool.false_ne_true
      | false =>
          rw [SingleCycle.clocked_fetch halted waits, SingleCycle.fetched] at executes' ⊢
          split_ifs at executes' ⊢ with comes
          · exact ⟨rfl, rfl, rfl, rfl⟩
          · exact absurd (waits.symm.trans executes') Bool.false_ne_true
    obtain ⟨inst, fault, misaligned, live⟩ := fields
    have answer : s.respFetch = .of (e.memory.fetch e.hart.pc 0#32) := by
      have asks : s.core.reqFetchValid = true := by
        rw [SingleCycle.reqFetchValid, waits, live]
        rfl
      have port : npcDpiMemFetch s.memory s.core.reqFetchAddr =
          packResult (e.memory.fetch e.hart.pc 0#32) := by
        rw [npcDpiMemFetch_eq, mirrors.memory, SingleCycle.reqFetchAddr, mirrors.hart.pc]
      rw [Served.respFetch, asks, port, portResp_packResult]
    rw [answer] at inst fault misaligned
    exact ⟨inst, fault, misaligned⟩

/-- The pc is a multiple of four, so a fetch can only miss the RAM. -/
theorem fetch_cases (mirrors : Mirrors s e) (wf : s.core.Wf) :
    e.memory.fetch e.hart.pc 0#32 = (.ok, e.word) ∨
      e.memory.fetch e.hart.pc 0#32 = (.accessFault, 0#32) := by
  have aligned : e.hart.pc &&& 3#32 = 0#32 := by
    rw [← mirrors.hart.pc]
    exact (misaligned4_iff _).mp wf.pc
  have word : e.word = (e.memory.fetch e.hart.pc 0#32).2 := rfl
  rw [word, Memory.fetch, aligned]
  simp only [bne_self_eq_false, Bool.false_eq_true, if_false]
  split_ifs
  · exact .inr rfl
  · exact .inl rfl

/-! ## The edge that retires an instruction -/

section Execute

variable (live : s.core.halted = false) (executes : s.core.executePhase = true)

include live executes

/-- What is left to show of an executed instruction: its event, the memory and the timer. -/
theorem of_event (mirrors : Mirrors s e) (wf : s.core.Wf)
    (breakpoint : ∀ cause, s.core.exc (s.coreIn ready) = some cause →
      s.core.dec.ebreak = (cause == Rtl.causeBreakpoint))
    (csrs : s.core.exc (s.coreIn ready) = none → s.core.csrFile.next (s.core.csrWrite (s.coreIn ready)) =
      csrFileOf (csrHart e.hart (decode s.core.instReg)))
    (hart : hartAfter e.hart e.stepBody.2 =
      hartAfter e.hart (singleEvent (s.core.next (s.coreIn ready)) 0#64))
    (memory : s.stored = e.stepBody.1.memory)
    (time : (s.core.next (s.coreIn ready)).clint.mtime = e.stepBody.1.clint.time + 1#64) :
    Mirrors (s.next ready) e.stepBody.1.tick := by
  have running : e.hart.halted = false := mirrors.hart.halted.symm.trans live
  have step : e.stepInst = some (e.stepBody.1.tick, e.stepBody.2) := by
    rw [EmulatorIss.stepInst, running]
    rfl
  refine ⟨?_, time, memory, fun again => ?_⟩
  · have after : e.stepBody.1.tick.hart = hartAfter e.hart e.stepBody.2 := step_hart step
    rw [after, hart]
    exact mirrors.hart.next live executes (wf.fetchPcReg executes) breakpoint csrs 0#64
  · have clocked : (s.core.clocked (s.coreIn ready)).executePhase = false := by
      rw [SingleCycle.clocked_execute live executes]
      rfl
    have again' : (s.core.clocked (s.coreIn ready)).executePhase = true := again
    exact absurd (clocked.symm.trans again') Bool.false_ne_true

/-- A trap that both models take with one cause, before anything is accessed. -/
theorem of_trap (mirrors : Mirrors s e) (wf : s.core.Wf) (noWrite : s.core.dec.memWrite = false)
    {cause : U32} (raises : s.core.exc (s.coreIn ready) = some cause)
    (other : cause ≠ Rtl.causeBreakpoint) (noEbreak : s.core.dec.ebreak = false)
    (ev : e.stepBody.2.exception = true ∧ e.stepBody.2.cause = cause)
    (keeps : e.stepBody.1.memory = e.memory ∧ e.stepBody.1.clint = e.clint) :
    Mirrors (s.next ready) e.stepBody.1.tick := by
  have takes : s.core.excTake (s.coreIn ready) = true := by
    rw [SingleCycle.excTake, raises]
    rfl
  have causes : s.core.excCause (s.coreIn ready) = cause := by
    rw [SingleCycle.excCause, raises]
    rfl
  refine of_event live executes mirrors wf ?_ (fun quiet => ?_) ?_ ?_ ?_
  · intro found same
    rw [raises] at same
    cases same
    simp [noEbreak, other]
  · rw [raises] at quiet
    cases quiet
  · rw [singleEvent_next live executes]
    simp [hartAfter, ev.1, ev.2, takes, causes]
  · rw [stored_quiet noWrite, mirrors.memory, keeps.1]
  · rw [clint_ticks executes (.inl noWrite), mirrors.time, keeps.2]

/-- A failed fetch. -/
theorem execute_failed (mirrors : Mirrors s e) (wf : s.core.Wf) (cycle : BitVec 64)
    (failed : e.memory.fetch e.hart.pc 0#32 = (.accessFault, 0#32)) :
    Mirrors (s.next ready) e.stepBody.1.tick ∧
      CommitAgrees e e.stepBody.2 (singleEvent (s.next ready).core cycle) := by
  obtain ⟨inst, fault, -⟩ := mirrors.fetched executes
  have zero : s.core.instReg = 0#32 := by rw [inst, EmulatorIss.word, failed]
  have faulted : s.core.fetchFaultReg = true := by rw [fault, failed]; rfl
  have here := wf.fetchPcReg executes
  have body : e.stepBody = e.fetchTrap 0#32 Emulator.causeInstAccessFault := by
    rw [EmulatorIss.stepBody, failed]
  have raises : s.core.exc (s.coreIn ready) = some Rtl.causeInstAccessFault := by
    rw [SingleCycle.exc, here, wf.pc, faulted]
    rfl
  have decodes : s.core.dec = decoder 0#32 := by rw [SingleCycle.dec, zero]
  refine ⟨of_trap live executes mirrors wf ?_ raises (by decide) ?_ ?_ ?_, ?_⟩
  · rw [decodes]
    decide
  · rw [decodes]
    decide
  · rw [body]
    exact ⟨rfl, rfl⟩
  · rw [body]
    exact ⟨rfl, rfl⟩
  · have takes : s.core.excTake (s.coreIn ready) = true := by
      rw [SingleCycle.excTake, raises]
      rfl
    have commit : singleEvent (s.next ready).core cycle = _ := singleEvent_next live executes cycle
    rw [CommitAgrees, failed, if_neg (by decide), body, commit]
    refine ⟨rfl, takes, ?_, here.trans mirrors.hart.pc, ?_⟩
    · show _ = s.core.excCause _
      rw [SingleCycle.excCause, raises]
      rfl
    · show e.hart.mtvec = s.core.nextPc _
      rw [SingleCycle.nextPc, if_pos takes, mirrors.hart.csrs]
      rfl

/-- A word that both decoders refuse. -/
theorem execute_refused (mirrors : Mirrors s e) (wf : s.core.Wf) (cycle : BitVec 64)
    (shared : Shared e) (fetched : e.memory.fetch e.hart.pc 0#32 = (.ok, e.word))
    (refused : rtlIllegal e.word = true) :
    Mirrors (s.next ready) e.stepBody.1.tick ∧
      CommitAgrees e e.stepBody.2 (singleEvent (s.next ready).core cycle) := by
  obtain ⟨inst, fault, misaligned⟩ := mirrors.fetched executes
  rw [fetched] at fault misaligned
  have here := wf.fetchPcReg executes
  have body : e.stepBody = e.trap (decode e.word) Emulator.causeIllegalInst := by
    rw [EmulatorIss.stepBody, fetched]
    exact execute_illegal (shared.decoders.symm.trans refused)
  have illegal : (s.core.dec.illegal || s.core.reservedRd || s.core.reservedRs1 ||
      s.core.reservedRs2) = true := by
    rw [← inst] at refused
    exact refused
  have raises : s.core.exc (s.coreIn ready) = some Rtl.causeIllegalInst := by
    rw [SingleCycle.exc, here, wf.pc, fault, misaligned, illegal]
    rfl
  have noWrite : s.core.dec.memWrite = false := by
    by_contra writes
    rw [Bool.not_eq_false, SingleCycle.dec, inst] at writes
    rw [shared.stores writes] at refused
    cases refused
  have noEbreak : s.core.dec.ebreak = false := by
    by_contra ebreak
    rw [Bool.not_eq_false, SingleCycle.dec, inst] at ebreak
    obtain ⟨legal, noRd, noRs1, noRs2, -⟩ := decoder_of_ebreak ebreak
    rw [rtlIllegal, legal, noRd, noRs1, noRs2] at refused
    cases refused
  refine ⟨of_trap live executes mirrors wf noWrite raises (by decide) noEbreak ?_ ?_, ?_⟩
  · rw [body]
    exact ⟨rfl, rfl⟩
  · rw [body]
    exact ⟨rfl, rfl⟩
  · rw [CommitAgrees, fetched, if_pos rfl, eventsMatch_iff, body]
    have takes : s.core.excTake (s.coreIn ready) = true := by
      rw [SingleCycle.excTake, raises]
      rfl
    have commit : singleEvent (s.next ready).core cycle = _ := singleEvent_next live executes cycle
    rw [commit]
    refine ⟨(here.trans mirrors.hart.pc).symm, takes.symm, ?_, fun _ => ?_,
      fun quiet => Bool.noConfusion quiet⟩
    · show e.hart.mtvec = s.core.nextPc _
      rw [SingleCycle.nextPc, if_pos takes, mirrors.hart.csrs]
      rfl
    · show _ = s.core.excCause _
      rw [SingleCycle.excCause, raises]
      rfl

end Execute

/-! ## Accepted words -/

/-- What the three kinds of accepted instructions share: the word and the operands of the
execute phase are those of the reference model, and both sides decode it alike. -/
structure Accepted (s : Served) (e : EmulatorIss) : Prop where
  mirrors : Mirrors s e
  wf : s.core.Wf
  live : s.core.halted = false
  executes : s.core.executePhase = true
  map : SameMap e
  shared : Shared e
  fetched : e.memory.fetch e.hart.pc 0#32 = (.ok, e.word)
  inst : s.core.instReg = e.word
  legal : rtlIllegal s.core.instReg = false
  accepted : emulatorIllegal s.core.instReg = false
  same : SameInputs s.core.exView e
  agrees : DatapathAgrees s.core.exView e

namespace Accepted

theorem of_legal (mirrors : Mirrors s e) (wf : s.core.Wf) (live : s.core.halted = false)
    (executes : s.core.executePhase = true) (map : SameMap e) (shared : Shared e)
    (fetched : e.memory.fetch e.hart.pc 0#32 = (.ok, e.word)) (legal : rtlIllegal e.word = false) :
    Accepted s e := by
  obtain ⟨inst, fault, misaligned⟩ := mirrors.fetched executes
  rw [fetched] at fault misaligned
  have accepted := shared.decoders.symm.trans legal
  rw [← inst] at legal accepted
  have same := sameInputs mirrors.hart legal fault misaligned
  have aligned : misaligned4 e.hart.pc = false := mirrors.hart.pc ▸ wf.pc
  exact ⟨mirrors, wf, live, executes, map, shared, fetched, inst, legal, accepted, same,
    SingleCycle.viewAgrees legal accepted same aligned⟩

variable (a : Accepted s e)

include a

theorem body : e.stepBody = e.execute (decode s.core.instReg) := by
  rw [EmulatorIss.stepBody, a.fetched, a.inst]

/-- The rest follows from the verdict of the checks, the memory, the timer and the value of
a load. -/
theorem concludes (cycle : BitVec 64)
    (verdict : s.core.exc (s.coreIn ready) =
      if (e.execute (decode s.core.instReg)).2.exception then
        some (e.execute (decode s.core.instReg)).2.cause else none)
    (view : s.core.exc (s.coreIn ready) = none → s.core.exView.exFault = none)
    (value : s.core.dec.memRead = true →
      (e.execute (decode s.core.instReg)).2.exception = false →
        s.core.loadFinalData (s.coreIn ready) = (e.execute (decode s.core.instReg)).2.rdValue)
    (memory : s.stored = (e.execute (decode s.core.instReg)).1.memory)
    (time : (s.core.next (s.coreIn ready)).clint.mtime =
      (e.execute (decode s.core.instReg)).1.clint.time + 1#64) :
    Mirrors (s.next ready) e.stepBody.1.tick ∧
      CommitAgrees e e.stepBody.2 (singleEvent (s.next ready).core cycle) := by
  obtain ⟨pc, inst, traps⟩ := execute_names e (decode s.core.instReg)
  obtain ⟨-, fault, misaligned⟩ := a.mirrors.fetched a.executes
  rw [a.fetched] at fault misaligned
  have here := a.wf.fetchPcReg a.executes
  have real : (s.core.dec.hasRd && s.core.dec.rd5.getLsbD 4) = false := by
    have registers := (registers_of_legal a.legal).2.1
    rwa [← decoder_rd5] at registers
  have nextPc : s.core.nextPc (s.coreIn ready) =
      (e.execute (decode s.core.instReg)).2.nextPc := by
    cases raised : (e.execute (decode s.core.instReg)).2.exception with
    | true =>
        have takes : s.core.excTake (s.coreIn ready) = true := by
          rw [SingleCycle.excTake, verdict, raised]
          rfl
        rw [traps raised, SingleCycle.nextPc, if_pos takes, a.mirrors.hart.csrs]
        rfl
    | false =>
        rw [raised, if_neg Bool.false_ne_true] at verdict
        have takes : s.core.excTake (s.coreIn ready) = s.core.exView.exException := by
          rw [SingleCycle.excTake, Pipeline.exException, verdict, view verdict]
        rw [SingleCycle.nextPc_view takes]
        exact a.agrees.nextPc (.inr raised)
  have matches_ (cycle : BitVec 64) : eventsMatch e.stepBody.2
      (singleEvent (s.core.next (s.coreIn ready)) cycle) = true := by
    rw [a.body]
    refine eventsMatch_single a.live a.executes cycle real
      (pc.trans (here.trans a.mirrors.hart.pc).symm) inst verdict nextPc ?_ ?_
    · exact fun quiet => a.agrees.rd quiet
    · intro quiet some_
      cases reads : s.core.dec.memRead with
      | true =>
          rw [SingleCycle.rdValue, if_pos reads]
          exact value reads quiet
      | false =>
          rw [SingleCycle.rdValue_view reads]
          exact a.agrees.rdValue_of_rd quiet reads some_
  refine ⟨of_event a.live a.executes a.mirrors a.wf ?_ ?_ (hartAfter_match (matches_ _)) ?_ ?_, ?_⟩
  · exact fun _ raises => SingleCycle.exc_breakpoint here a.wf.pc fault misaligned raises
  · exact fun quiet => csrFile_next a.mirrors.hart a.executes quiet
      (SingleCycle.csrOp_of_accepted a.accepted) a.agrees
  · rw [a.body]
    exact memory
  · rw [a.body]
    exact time
  · rw [CommitAgrees, a.fetched, if_pos rfl]
    exact matches_ cycle

/-- An instruction without an access. -/
theorem noAccess (cycle : BitVec 64) (noRead : s.core.dec.memRead = false)
    (noWrite : s.core.dec.memWrite = false) :
    Mirrors (s.next ready) e.stepBody.1.tick ∧
      CommitAgrees e e.stepBody.2 (singleEvent (s.next ready).core cycle) := by
  have viewed : s.core.exc (s.coreIn ready) = s.core.exView.exFault :=
    SingleCycle.exc_noAccess (a.wf.fetchPcReg a.executes) noRead noWrite
  obtain ⟨memory, clint⟩ := execute_noStore (e := e) noWrite
  refine a.concludes cycle (viewed.trans (a.agrees.fault noRead noWrite)) (fun quiet => ?_) ?_ ?_ ?_
  · rw [← viewed, quiet]
  · intro reads
    rw [noRead] at reads
    cases reads
  · rw [stored_quiet noWrite, a.mirrors.memory, memory]
  · rw [clint_ticks a.executes (.inl noWrite), a.mirrors.time, clint]

/-- What an access adds: its size is one of three, and its address meets the contract. -/
theorem access_facts (ready : Bool) (access : s.core.dec.memRead = true ∨ s.core.dec.memWrite = true) :
    s.core.dec.memSize ≠ 0b11#2 ∧ s.core.exView.exFault = none ∧
      s.core.exc (s.coreIn ready) = s.core.accessFault (s.coreIn ready) ∧
      (accessSize (decode s.core.instReg).type = s.size →
        Plainly e s.core.aluResult s.size) := by
  have aligned : misaligned4 e.hart.pc = false := a.mirrors.hart.pc ▸ a.wf.pc
  obtain ⟨view, addr⟩ := SingleCycle.access_view a.legal a.accepted a.same aligned access
  have base := SingleCycle.base_of_access a.accepted access
  refine ⟨?_, view, SingleCycle.exc_access (a.wf.fetchPcReg a.executes) view, fun size => ?_⟩
  · have code : s.core.dec.memSize = (control (decodeType s.core.instReg)).memSize :=
      congrArg Control.memSize (decoder_of_base base)
    rw [code]
    cases decodeType s.core.instReg <;> decide
  · rw [a.inst] at addr size
    rw [← size]
    exact a.shared.access _ addr

theorem load (cycle : BitVec 64) (reads : s.core.dec.memRead = true) :
    Mirrors (s.next ready) e.stepBody.1.tick ∧
      CommitAgrees e e.stepBody.2 (singleEvent (s.next ready).core cycle) := by
  obtain ⟨sized, view, exc, plainly⟩ := a.access_facts ready (.inl reads)
  have noWrite : s.core.dec.memWrite = false := (decoder_of_memRead reads).1
  obtain ⟨memory, clint⟩ := execute_noStore (e := e) noWrite
  obtain ⟨leaves, size, -⟩ := a.agrees.load reads
  have leaves : e.execute (decode s.core.instReg) =
      e.executeLoad (decode s.core.instReg) s.core.aluResult := by
    rw [← SingleCycle.aluResult_view]
    exact leaves
  have size : accessSize (decode s.core.instReg).type = s.size := size
  have same_memory : s.stored = (e.execute (decode s.core.instReg)).1.memory := by
    rw [stored_quiet noWrite, a.mirrors.memory, memory]
  have same_time : (s.core.next (s.coreIn ready)).clint.mtime =
      (e.execute (decode s.core.instReg)).1.clint.time + 1#64 := by
    rw [clint_ticks a.executes (.inl noWrite), a.mirrors.time, clint]
  cases inside : inClint s.core.aluResult with
  | true =>
      obtain ⟨quiet, answer⟩ := load_clint ready sized a.executes reads noWrite a.map
        (plainly size) a.mirrors.time inside
      have word := ((plainly size).clint ((a.map.inClint _).trans inside)).1
      have whole : EmulatorIss.loadValue (decode s.core.instReg).type
          (s.core.loadFinalData (s.coreIn ready)) = s.core.loadFinalData (s.coreIn ready) := by
        have noSext : accessSext (decode s.core.instReg).type = false := by
          have four := size.trans word
          revert four
          cases (decode s.core.instReg).type <;> decide
        rw [EmulatorIss.loadValue, noSext]
        rfl
      have out : e.execute (decode s.core.instReg) = e.retire (decode s.core.instReg)
          (decode s.core.instReg).rd (s.core.loadFinalData (s.coreIn ready)) (e.hart.pc + 4#32) := by
        rw [leaves, EmulatorIss.executeLoad, size, answer]
        simp only [whole]
      refine a.concludes cycle ?_ (fun _ => view) (fun _ _ => ?_) same_memory same_time
      · rw [exc, quiet, out]
        rfl
      · rw [out]
        rfl
  | false =>
      obtain ⟨verdict, data⟩ := load_memory ready sized a.executes reads noWrite
        a.mirrors.memory inside
      have base := SingleCycle.base_of_access a.accepted (.inl reads)
      have isLoad : (control (decodeType s.core.instReg)).memRead = true :=
        (congrArg Control.memRead (decoder_of_base base)).symm.trans reads
      have value : EmulatorIss.loadValue (decode s.core.instReg).type
          (e.memory.load s.core.aluResult s.size 0#32).2 =
            s.core.loadFinalData (s.coreIn ready) := by
        rw [data, ← size]
        exact loadValue_eq base isLoad e.memory _
      have answer : e.loadMem s.core.aluResult s.size =
          ((e.memory.load s.core.aluResult s.size 0#32).1,
            (e.memory.load s.core.aluResult s.size 0#32).2, e) := by
        rw [EmulatorIss.loadMem, a.map.inClint, inside, (plainly size).uart]
        rfl
      have out : e.execute (decode s.core.instReg) =
          if (e.memory.load s.core.aluResult s.size 0#32).1 = .ok then
            e.retire (decode s.core.instReg) (decode s.core.instReg).rd
              (s.core.loadFinalData (s.coreIn ready)) (e.hart.pc + 4#32)
          else e.trap (decode s.core.instReg)
            ((loadCause (e.memory.load s.core.aluResult s.size 0#32).1).getD 0#32) := by
        rw [leaves, EmulatorIss.executeLoad, size, answer]
        cases (e.memory.load s.core.aluResult s.size 0#32).1 with
        | ok => simp [value]
        | misaligned => rfl
        | accessFault => rfl
      refine a.concludes cycle ?_ (fun _ => view) (fun _ quiet => ?_) same_memory same_time
      · rw [exc, verdict, out]
        cases (e.memory.load s.core.aluResult s.size 0#32).1 <;> rfl
      · rw [out] at quiet ⊢
        cases found : (e.memory.load s.core.aluResult s.size 0#32).1 with
        | ok => rfl
        | misaligned =>
            rw [found] at quiet
            cases quiet
        | accessFault =>
            rw [found] at quiet
            cases quiet

theorem store (cycle : BitVec 64) (writes : s.core.dec.memWrite = true) :
    Mirrors (s.next ready) e.stepBody.1.tick ∧
      CommitAgrees e e.stepBody.2 (singleEvent (s.next ready).core cycle) := by
  obtain ⟨sized, view, exc, plainly⟩ := a.access_facts ready (.inr writes)
  have noRead : s.core.dec.memRead = false := (decoder_of_memWrite writes).1
  obtain ⟨leaves, size⟩ := a.agrees.store writes
  have leaves : e.execute (decode s.core.instReg) =
      e.executeStore (decode s.core.instReg) s.core.aluResult s.core.rs2Data := by
    rw [← SingleCycle.aluResult_view, ← SingleCycle.exRs2Value_view]
    exact leaves
  have size : accessSize (decode s.core.instReg).type = s.size := size
  obtain ⟨memory, clint⟩ := executeStore_keeps (e := e) (d := decode s.core.instReg)
    s.core.aluResult s.core.rs2Data
  rw [← leaves, size] at memory clint
  have noValue : s.core.dec.memRead = true →
      (e.execute (decode s.core.instReg)).2.exception = false →
        s.core.loadFinalData (s.coreIn ready) =
          (e.execute (decode s.core.instReg)).2.rdValue := by
    intro reads
    rw [noRead] at reads
    cases reads
  cases inside : inClint s.core.aluResult with
  | true =>
      obtain ⟨quiet, stored, after, answer, time⟩ := store_clint ready sized a.executes
        noRead writes a.map (plainly size) a.mirrors.time inside
      rw [answer] at memory clint
      have out : e.execute (decode s.core.instReg) = EmulatorIss.retire { e with clint := after }
          (decode s.core.instReg) 0#32 0#32 (e.hart.pc + 4#32) := by
        rw [leaves, EmulatorIss.executeStore, size, answer]
      refine a.concludes cycle ?_ (fun _ => view) noValue ?_ ?_
      · rw [exc, quiet, out]
        rfl
      · rw [stored, a.mirrors.memory, memory]
      · rw [time, clint]
        rfl
  | false =>
      obtain ⟨verdict, stored⟩ := store_memory ready sized a.executes noRead writes
        a.mirrors.memory inside
      have answer : e.storeMem s.core.aluResult s.size s.core.rs2Data =
          ((e.memory.store s.core.aluResult s.size s.core.rs2Data).1, { e with
            memory := (e.memory.store s.core.aluResult s.size s.core.rs2Data).2 }) := by
        rw [EmulatorIss.storeMem, a.map.inClint, inside, (plainly size).uart]
        rfl
      rw [answer] at memory clint
      have strict := a.shared.strict
      rw [a.body, leaves, EmulatorIss.executeStore, size, answer] at strict
      refine a.concludes cycle ?_ (fun _ => view) noValue ?_ ?_
      · rw [exc, verdict, leaves, EmulatorIss.executeStore, size, answer]
        cases found : (e.memory.store s.core.aluResult s.size s.core.rs2Data).1 with
        | ok => rfl
        | misaligned => rfl
        | accessFault =>
            rw [found] at strict
            exact absurd rfl (strict rfl)
      · rw [stored, memory]
      · rw [clint_ticks a.executes (.inr inside), a.mirrors.time, clint]

end Accepted

/-- The edge at the end of an execute phase retires the next instruction of the reference
model. -/
theorem next_execute (mirrors : Mirrors s e) (wf : s.core.Wf) (live : s.core.halted = false)
    (executes : s.core.executePhase = true) (map : SameMap e) (shared : Shared e) (ready : Bool)
    (cycle : BitVec 64) :
    Mirrors (s.next ready) e.stepBody.1.tick ∧
      CommitAgrees e e.stepBody.2 (singleEvent (s.next ready).core cycle) := by
  rcases mirrors.fetch_cases wf with fetched | failed
  · cases legal : rtlIllegal e.word with
    | true => exact mirrors.execute_refused live executes wf cycle shared fetched legal
    | false =>
        have a := Accepted.of_legal mirrors wf live executes map shared fetched legal
        cases reads : s.core.dec.memRead with
        | true => exact a.load cycle reads
        | false =>
            cases writes : s.core.dec.memWrite with
            | true => exact a.store cycle writes
            | false => exact a.noAccess cycle reads writes
  · exact mirrors.execute_failed live executes wf cycle failed

end Mirrors

end NpcMachine.Emulator
