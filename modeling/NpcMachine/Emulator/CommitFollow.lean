/-
# Emulator.CommitFollow -- the commits of the core follow the reference model

`commits_follow` is the contract of the difftest: where the first `n` instructions of the
reference model meet `Contract`, the first `n` commits of the core carry matching events,
over all stalls, misses, redirects and wrong paths.  The one condition is that none of
these instructions is an `OP` word with a reserved `rs1`, which only the core refuses.
-/
import NpcMachine.Emulator.FollowFetch
import NpcMachine.Emulator.Difftest
import Mathlib.Data.Nat.Count

namespace NpcMachine.Emulator

open NpcMachine.Rtl

set_option autoImplicit false

/-- The commits before cycle `t` of the run. -/
def RtlIss.commitsBefore (s : RtlIss) (t : Nat) : Nat :=
  Nat.count (fun k => (s.run k).top.pipeline.commitValid = true) t

/-- The commit with number `k < n`, whenever it comes, carries the event `k` of the
reference model. -/
def CommitsFollow (s : RtlIss) (e : EmulatorIss) (n : Nat) : Prop :=
  ∀ t, (s.run t).top.pipeline.commitValid = true → s.commitsBefore t < n →
    ∃ ev, e.event (s.commitsBefore t) = some ev ∧
      eventsMatch ev (s.run t).commitEvent = true

/-! ## One commit -/

theorem commitRd_field : ∀ x : BitVec 5, x.getLsbD 4 = false → x.setWidth 4 ≠ 0#4 →
    ((x.setWidth 4).setWidth 5).setWidth 32 = (x.setWidth 32 : U32) := by decide

namespace AtWb

variable {e : EmulatorIss} {c : Nat} {v1 v2 : Word} {p : Pipeline}

/-- The core writes a register when the instruction does and names one. -/
theorem regWen (wb : AtWb e c v1 v2 p.memWb) (wf : p.Wf) (valid : p.memWb.valid = true) :
    p.regWen = ((decoder (e.run c).word).regWrite &&
      ((e.run c).word.extractLsb' 7 5).setWidth 4 != 0#4) := by
  have decoded := wf.memWb valid
  rw [Pipeline.regWen, valid, decoded.regWrite, decoded.rd, wb.exception, wb.inst, decoder_rd,
    register_low]
  simp

/-- Both models report the same number for `rd`. -/
theorem commitRd (wb : AtWb e c v1 v2 p.memWb) (wf : p.Wf) (valid : p.memWb.valid = true) :
    ((e.run c).execute (decode (e.run c).word)).2.rd = p.commitRd.setWidth 32 := by
  have wen := wb.regWen wf valid
  have number : p.memWb.rd = ((e.run c).word.extractLsb' 7 5).setWidth 4 := by
    rw [(wf.memWb valid).rd, wb.inst, decoder_rd, register_low]
  rw [wb.steps.retires.rd, Pipeline.commitRd, wen, number]
  cases writes : (decoder (e.run c).word).regWrite with
  | false => rfl
  | true =>
      have field := wb.steps.retires.legal.rd
      rw [← decoder_regWrite, writes, Bool.true_and, decoder_rd5] at field
      by_cases zero : ((e.run c).word.extractLsb' 7 5).setWidth 4 = 0#4
      · rw [(register_zero _ field).mpr zero, zero]
        rfl
      · have other : (((e.run c).word.extractLsb' 7 5).setWidth 4 != 0#4) = true := by
          simpa using zero
        rw [other]
        exact (commitRd_field _ field zero).symm

theorem commitRdValue (wb : AtWb e c v1 v2 p.memWb) (wf : p.Wf) (valid : p.memWb.valid = true)
    (named : ((e.run c).execute (decode (e.run c).word)).2.rd ≠ 0#32) :
    ((e.run c).execute (decode (e.run c).word)).2.rdValue = p.commitRdValue := by
  have wen : p.regWen = true := by
    by_contra silent
    rw [wb.commitRd wf valid, Pipeline.commitRd, if_neg silent] at named
    exact named rfl
  have writes := wen
  rw [wb.regWen wf valid, Bool.and_eq_true] at writes
  rw [Pipeline.commitRdValue, if_pos wen, wb.rdValue writes.1,
    wb.steps.retires.rdValue writes.1]
  rfl

end AtWb

/-- What WB holds at turn `c` commits with the event of instruction `c`. -/
theorem matches_of_atWb {e : EmulatorIss} {c : Nat} {v1 v2 : Word} {s : RtlIss}
    (wb : AtWb e c v1 v2 s.top.pipeline.memWb) (wf : s.top.pipeline.Wf)
    (valid : s.top.pipeline.memWb.valid = true) :
    ∃ ev, e.event c = some ev ∧ eventsMatch ev s.commitEvent = true := by
  have retires := wb.steps.retires
  refine ⟨_, wb.steps.event, (eventsMatch_iff _ _).mpr ⟨?_, ?_, ?_, ?_, fun _ => ⟨?_, ?_, ?_⟩⟩⟩
  · rw [retires.pc]
    exact wb.pc.symm
  · rw [retires.exception]
    exact wb.exception.symm
  · rw [retires.nextPc]
    exact wb.nextPc.symm
  · intro raised
    rw [retires.exception] at raised
    exact Bool.noConfusion raised
  · rw [retires.inst]
    exact wb.inst.symm
  · exact wb.commitRd wf valid
  · exact wb.commitRdValue wf valid

/-! ## One cycle -/

/-- The core after `c` commits against the instructions of the reference model. -/
structure Follow (e : EmulatorIss) (n c : Nat) (s : RtlIss) : Prop where
  back : Back e n c s.top.pipeline
  front : Front e n c s.top.pipeline
  supply : Supply e n c s

theorem follow_boot (s : RtlIss) (e : EmulatorIss) (ram : Nat → BitVec 8) (n : Nat) :
    Follow (e.boot ram) n 0 (s.boot ⟨{}, ram⟩) := by
  obtain ⟨core, reset⟩ := s.boot_top ⟨{}, ram⟩
  have memory : (s.boot ⟨{}, ram⟩).memory = (e.boot ram).memory := rfl
  have turn : (s.boot ⟨{}, ram⟩).top.pipeline.exTurn 0 = 0 := by rw [reset]; rfl
  refine ⟨?_, ?_, ?_⟩
  · rw [reset]
    refine ⟨fun r => ?_, fun valid => ?_, fun valid => ?_⟩
    · have regs : ((e.boot ram).run 0).hart.reg r = 0#32 := ite_self _
      rw [regs]
      exact Regfile.read_reset r
    · simp [Core.reset, Pipeline.reset] at valid
    · simp [Core.reset, Pipeline.reset] at valid
  · rw [reset]
    refine ⟨fun valid => ?_, fun _ valid => ?_, fun _ _ _ => rfl⟩
    · simp [Core.reset, Pipeline.reset] at valid
    · simp [Core.reset, Pipeline.reset] at valid
  · refine ⟨fun _ => ?_, fun _ => ?_, fun _ busy => ?_, fun _ => ?_⟩
    · rw [turn, memory]
      rfl
    · rw [reset]
      exact Icache.reset_holds _
    · rw [reset] at busy
      exact absurd rfl busy
    · rw [reset]
      rfl

section Run

variable {e : EmulatorIss} {n c t : Nat} {s : RtlIss}

/-- One cycle, while the next instruction to retire is one of the first `n`. -/
theorem Follow.next (contract : Contract e n) (cfg : e.cfg = {}) (ram : e.memory.cfg = {})
    (real : ∀ k, k < n → OpRs1Real (e.run k).word)
    (follow : Follow e n c ((s.boot e.memory).run t))
    (early : ((s.boot e.memory).run t).top.pipeline.memTurn c < n) :
    Follow e n (((s.boot e.memory).run t).top.pipeline.memTurn c)
      ((s.boot e.memory).run (t + 1)) := by
  obtain ⟨back, front, supply⟩ := follow
  have core := coreWf_run s e.memory t
  have core' := coreWf_run s e.memory (t + 1)
  have fresh := fresh_boot s e.memory t
  have fresh' := fresh_boot s e.memory (t + 1)
  have lock := fillLockstep_run s e.memory t
  have pcs : ((s.boot e.memory).run t).top.pipeline.PcWf := by
    obtain ⟨p, run⟩ := s.boot_pipeline e.memory
    rw [run t]
    exact Pipeline.pcWf_run p _ t
  have step : ((s.boot e.memory).run (t + 1)).top.pipeline =
      ((s.boot e.memory).run t).top.pipeline.next ((s.boot e.memory).run t).pipelineIn :=
    ((s.boot e.memory).run t).toggleClock_pipeline
  have room : ((s.boot e.memory).run t).top.pipeline.exTurn c ≤ n :=
    Nat.le_trans Pipeline.exTurn_succ_le early
  have memory := supply.memory room
  obtain ⟨runs, fine⟩ := back.control core.pipeline early memory
  have empty := idEx_of_wait core (RtlIss.run_answers s e.memory t).2
  have turn := Pipeline.exTurn_next (c := c) runs fine fun waits => (empty waits).2
  have back' := back.next contract cfg real core.pipeline core.aligned fresh early memory
    front.idEx
  rw [← step] at turn back'
  refine ⟨back', ?_, ?_⟩
  · rw [step]
    refine front.next core.fetch ?_ pcs runs fine empty ?_ ?_
    · intro before captures k inside pc
      exact supply.captured contract cfg real core before captures inside pc
    · intro redirects before
      have valid := Pipeline.exRedirect_valid redirects
      have ex := front.idEx valid before
      have steps := back.steps contract cfg real core.pipeline fresh valid before ex
      exact ex.exNextPc steps core.pipeline core.aligned valid
    · rw [← step]
      rintro k rfl before valid straight ex
      have steps := back'.steps contract cfg real core'.pipeline fresh' valid before ex
      exact ex.straight steps core'.pipeline valid straight
  · have le : ((s.boot e.memory).run t).top.pipeline.exTurn c ≤
        ((s.boot e.memory).run (t + 1)).top.pipeline.exTurn
          (((s.boot e.memory).run t).top.pipeline.memTurn c) := by
      rw [turn]
      exact Pipeline.exTurn_le_idTurn
    refine ⟨next_memory s e.memory back' runs fine memory, fun before => ?_, fun before => ?_,
      fun before => ?_⟩
    · refine cache_next s e.memory (supply.cache room) (fun _ _ _ held => held)
        (fun _ _ _ _ held => held) ?_
      intro addr word fetched guarded
      rw [← supply.fetch_eq contract cfg real room guarded]
      exact fetched
    · refine supply.next_miss contract cfg real lock core.fill ram
        (Nat.lt_of_le_of_lt le before) ?_
      intro asks
      rw [turn] at before
      exact front.guarded pcs core.fetch asks before
    · exact supply.next_pulse contract cfg real lock core.fill ram (Nat.lt_of_le_of_lt le before)

/-- In every run, as long as fewer than `n` instructions have committed. -/
theorem follow_run (e : EmulatorIss) (ram : Nat → BitVec 8) (s : RtlIss)
    (contract : Contract (e.boot ram) n)
    (real : ∀ k, k < n → OpRs1Real ((e.boot ram).run k).word) (t : Nat)
    (early : (s.boot ⟨{}, ram⟩).commitsBefore t < n) :
    Follow (e.boot ram) n ((s.boot ⟨{}, ram⟩).commitsBefore t) ((s.boot ⟨{}, ram⟩).run t) := by
  induction t with
  | zero => exact follow_boot s e ram n
  | succ t ih =>
      have counts : (s.boot ⟨{}, ram⟩).commitsBefore (t + 1) =
          ((s.boot ⟨{}, ram⟩).run t).top.pipeline.memTurn
            ((s.boot ⟨{}, ram⟩).commitsBefore t) := by
        rw [RtlIss.commitsBefore, Nat.count_succ, Pipeline.memTurn, Pipeline.commitValid]
        cases ((s.boot ⟨{}, ram⟩).run t).top.pipeline.memWb.valid <;> rfl
      rw [counts] at early ⊢
      have before := ih (Nat.lt_of_le_of_lt Pipeline.le_memTurn early)
      exact before.next contract rfl rfl real early

end Run

/-- For every RAM image and every `n`: where the first `n` instructions of the reference
model keep the contract and no `OP` word among them has a reserved `rs1`, the commits of
the core follow them. -/
theorem commits_follow (s : RtlIss) (e : EmulatorIss) (ram : Nat → BitVec 8) (n : Nat)
    (contract : Contract (e.boot ram) n)
    (real : ∀ k, k < n → OpRs1Real ((e.boot ram).run k).word) :
    CommitsFollow (s.boot ⟨{}, ram⟩) (e.boot ram) n := by
  intro t valid early
  have follow := follow_run e ram s contract real t early
  obtain ⟨v1, v2, wb⟩ := follow.back.memWb valid
  exact matches_of_atWb wb (coreWf_run s ⟨{}, ram⟩ t).pipeline valid

/-- A store, a load of the stored word, a jump and a taken branch. -/
def followImage : Nat → BitVec 8 := Memory.ram (Memory.ofWords
  [0x200000B7#32,  -- lui x1, 0x20000
   0x00500113#32,  -- addi x2, x0, 5
   0x0420A023#32,  -- sw x2, 0x40(x1)
   0x0400A183#32,  -- lw x3, 0x40(x1)
   0x0080006F#32,  -- jal x0, 8
   0#32,
   0x00310463#32])  -- beq x2, x3, 8

set_option maxRecDepth 100000 in
/-- The store is commit 2, in cycle 16. -/
theorem followImage_follows :
    CommitsFollow ((default : RtlIss).boot ⟨{}, followImage⟩)
        ((default : EmulatorIss).boot followImage) 6 ∧
      (((default : RtlIss).boot ⟨{}, followImage⟩).run 16).top.pipeline.commitValid = true ∧
      ((default : RtlIss).boot ⟨{}, followImage⟩).commitsBefore 16 = 2 :=
  ⟨commits_follow default default followImage 6 (by decide +kernel) (by decide +kernel),
    by decide +kernel, by decide +kernel⟩

/-- `add x1, x16, x0` -/
def reservedImage : Nat → BitVec 8 := Memory.ram (Memory.ofWords [0x000800B3#32])

set_option maxRecDepth 100000 in
/-- The reference model executes it; the core traps in cycle 12. -/
theorem reservedImage_diverges :
    Contract ((default : EmulatorIss).boot reservedImage) 1 ∧
      ¬ CommitsFollow ((default : RtlIss).boot ⟨{}, reservedImage⟩)
        ((default : EmulatorIss).boot reservedImage) 1 := by
  refine ⟨by decide +kernel, ?_⟩
  intro follows
  have first : ((default : RtlIss).boot ⟨{}, reservedImage⟩).commitsBefore 12 = 0 := by
    decide +kernel
  obtain ⟨ev, event, agree⟩ := follows 12 (by decide +kernel) (by rw [first]; omega)
  rw [first] at event
  have executed : (((default : EmulatorIss).boot reservedImage).event 0).map (·.exception) =
      some false := by decide +kernel
  have trapped : (((default : RtlIss).boot ⟨{}, reservedImage⟩).run 12).commitEvent.exception =
      true := by decide +kernel
  rw [event] at executed
  have quiet : ev.exception = false := Option.some.inj executed
  have same := ((eventsMatch_iff _ _).mp agree).2.1
  rw [trapped, quiet] at same
  exact Bool.noConfusion same

end NpcMachine.Emulator
