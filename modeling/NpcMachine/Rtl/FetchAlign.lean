/-
# Rtl.FetchAlign -- every pc is aligned, whatever the reset vector

`RESET_VECTOR` is a macro that a build may set; `resetAt` is the reset of a build with a
given one.  From a multiple of four every register that holds a pc stays a multiple of
four, so no misaligned address reaches `npc_icache` and the alignment check of EX never
finds one (`pcs_aligned`).

An empty stage keeps the pc that its register happens to hold, and reset does not clear it.
The check reads that of an empty ID/EX too, where it raises nothing; `StagesAligned` says
that it was aligned to begin with, and then the check is silent there as well.
-/
import NpcMachine.Rtl.CoreRun
import NpcMachine.Machine.Bits

namespace NpcMachine.Rtl

set_option autoImplicit false

theorem misaligned4_iff_dvd (addr : Word) : misaligned4 addr = false ↔ 4 ∣ addr.toNat := by
  have low : (addr.extractLsb' 0 2).toNat = addr.toNat % 2 ^ 2 := by
    rw [Machine.toNat_extract, Nat.pow_zero, Nat.div_one]
  rw [misaligned4, bne_eq_false_iff_eq, ← BitVec.toNat_inj, low, Nat.dvd_iff_mod_eq_zero]
  rfl

namespace Pipeline

variable {p : Pipeline} {vector : Word}

/-- `fetch_pc` is loaded from `pc` only. -/
theorem next_fetchPc (p : Pipeline) (i : PipelineIn) :
    (p.next i).fetchPc = p.fetchPc ∨ (p.next i).fetchPc = p.pc := by
  show p.nextFetchPc i = p.fetchPc ∨ p.nextFetchPc i = p.pc
  unfold nextFetchPc
  split_ifs
  · exact .inl rfl
  · exact .inl rfl
  · exact .inl rfl
  · exact .inr rfl
  · exact .inl rfl

/-! ## The pcs of empty stages -/

/-- The pcs of IF/ID and ID/EX are aligned, also where the stage is empty. -/
structure StagesAligned (p : Pipeline) : Prop where
  ifId : misaligned4 p.ifId.pc = false
  idEx : misaligned4 p.idEx.pc = false

theorem StagesAligned.next (stages : p.StagesAligned) (aligned : p.Aligned) (wf : p.FetchWf)
    (i : PipelineIn) : (p.next i).StagesAligned := by
  have fetched : misaligned4 (p.fetched i).pc = false := by
    unfold Pipeline.fetched
    split_ifs
    · rw [wf.reqFetchAddr]
      exact aligned.pc
    · exact stages.ifId
    · exact stages.ifId
  cases step_cases p i with
  | halt _ ifId idEx => exact ⟨ifId ▸ stages.ifId, idEx ▸ stages.idEx⟩
  | trap _ _ ifId idEx => exact ⟨ifId ▸ stages.ifId, idEx ▸ stages.idEx⟩
  | redirect _ _ _ _ ifId idEx => exact ⟨ifId ▸ stages.ifId, idEx ▸ stages.idEx⟩
  | lost _ _ _ _ ifId idEx => exact ⟨ifId ▸ stages.ifId, idEx ▸ stages.idEx⟩
  | wait _ _ _ _ ifId idEx => exact ⟨ifId ▸ fetched, idEx ▸ stages.idEx⟩
  | stall _ _ _ _ _ ifId idEx => exact ⟨ifId ▸ fetched, idEx ▸ stages.idEx⟩
  | flow _ _ _ _ _ ifId idEx => exact ⟨ifId ▸ fetched, idEx ▸ stages.ifId⟩

/-! ## Every reachable state -/

/-- The registers that hold a pc hold multiples of four. -/
structure PcsAligned (p : Pipeline) : Prop where
  pc : 4 ∣ p.pc.toNat
  fetchPc : 4 ∣ p.fetchPc.toNat
  ifId : p.ifId.valid = true → 4 ∣ p.ifId.pc.toNat
  idEx : p.idEx.valid = true → 4 ∣ p.idEx.pc.toNat
  exMem : p.exMem.valid = true → 4 ∣ p.exMem.pc.toNat
  memWb : p.memWb.valid = true → 4 ∣ p.memWb.pc.toNat
  mtvec : 4 ∣ p.csrFile.mtvec.toNat
  mepc : 4 ∣ p.csrFile.mepc.toNat

/-- No fetch is misaligned: not the address asked for, not in the answer of a cache that is
asked for it, whatever it holds, and not in EX. -/
structure FetchAligned (p : Pipeline) : Prop where
  request : 4 ∣ p.reqFetchAddr.toNat
  response : ∀ (icache : Icache) (i : IcacheIn), i.lookupAddr = p.reqFetchAddr →
    icache.respMisaligned i = false
  check : p.idEx.valid = true → misaligned4 p.idEx.pc = false

theorem fetchPc_run_resetAt (p : Pipeline) (multiple : misaligned4 vector = false)
    (ins : Nat → PipelineIn) (n : Nat) :
    misaligned4 ((p.resetAt vector).run ins n).fetchPc = false := by
  induction n with
  | zero => exact multiple
  | succ n aligned =>
      rw [run_succ]
      rcases next_fetchPc ((p.resetAt vector).run ins n) (ins n) with kept | loaded
      · rw [kept]
        exact aligned
      · rw [loaded]
        exact (aligned_run_resetAt p multiple ins n).pc

theorem stages_run_resetAt (stages : p.StagesAligned) (multiple : misaligned4 vector = false)
    (ins : Nat → PipelineIn) (n : Nat) : ((p.resetAt vector).run ins n).StagesAligned := by
  induction n with
  | zero => exact ⟨stages.ifId, stages.idEx⟩
  | succ n ih =>
      exact ih.next (aligned_run_resetAt p multiple ins n) (fetchWf_run_resetAt p vector ins n)
        (ins n)

theorem Aligned.pcs (aligned : p.Aligned) (fetchPc : misaligned4 p.fetchPc = false) :
    p.PcsAligned where
  pc := (misaligned4_iff_dvd _).mp aligned.pc
  fetchPc := (misaligned4_iff_dvd _).mp fetchPc
  ifId valid := (misaligned4_iff_dvd _).mp (aligned.ifId valid)
  idEx valid := (misaligned4_iff_dvd _).mp (aligned.idEx valid)
  exMem valid := (misaligned4_iff_dvd _).mp (aligned.exMem valid)
  memWb valid := (misaligned4_iff_dvd _).mp (aligned.memWb valid)
  mtvec := (misaligned4_iff_dvd _).mp aligned.mtvec
  mepc := (misaligned4_iff_dvd _).mp aligned.mepc

theorem Aligned.fetch (aligned : p.Aligned) (wf : p.FetchWf) : p.FetchAligned where
  request := by
    rw [wf.reqFetchAddr, ← misaligned4_iff_dvd]
    exact aligned.pc
  response icache _ asked := Core.respMisaligned_of_lookup wf aligned icache asked
  check := aligned.idEx

end Pipeline

/-- From any aligned reset vector, whatever the registers held before reset and whatever the
environment answers, in every cycle; the last part is the cache of the whole core. -/
theorem pcs_aligned (vector : Word) (multiple : 4 ∣ vector.toNat) :
    (∀ (p : Pipeline) (ins : Nat → PipelineIn) (n : Nat),
      ((p.resetAt vector).run ins n).PcsAligned ∧ ((p.resetAt vector).run ins n).FetchAligned ∧
        (p.StagesAligned → misaligned4 ((p.resetAt vector).run ins n).idEx.pc = false)) ∧
    ∀ (c : Core) (ins : Nat → AxiIn) (n : Nat),
      ((c.resetAt vector).run ins n).icache.respMisaligned
        (((c.resetAt vector).run ins n).icacheIn (ins n)) = false := by
  have aligned : misaligned4 vector = false := (misaligned4_iff_dvd vector).mpr multiple
  constructor
  · intro p ins n
    have pcs := Pipeline.aligned_run_resetAt p aligned ins n
    exact ⟨pcs.pcs (Pipeline.fetchPc_run_resetAt p aligned ins n),
      pcs.fetch (Pipeline.fetchWf_run_resetAt p vector ins n),
      fun stages => (Pipeline.stages_run_resetAt stages aligned ins n).idEx⟩
  · intro c ins n
    apply Core.respMisaligned_of_aligned
    · rw [Core.pipeline_run]
      exact Pipeline.fetchWf_run_resetAt c.pipeline vector _ n
    · rw [Core.pipeline_run]
      exact Pipeline.aligned_run_resetAt c.pipeline aligned _ n

/-- A build for memory at 0x80000000, answered with nops. -/
theorem pcs_aligned_nops :
    (((default : Pipeline).resetAt 0x80000000#32).run (fun _ =>
      { (default : PipelineIn) with
        respFetchValid := true
        respFetchInst := 0x00000013#32 }) 5).PcsAligned :=
  ((pcs_aligned 0x80000000#32 (by decide)).1 default _ 5).1

end NpcMachine.Rtl
