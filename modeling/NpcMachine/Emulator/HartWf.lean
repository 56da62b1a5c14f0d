/-
# Emulator.HartWf -- what the hart of the reference model keeps

`Hart.Wf` has to hold for `pc`, `mepc` and `mtvec` together: a trap moves `mtvec` into
`pc` and `pc` into `mepc`, and MRET moves `mepc` back.  `wf_run` carries it along a run
from a reset to an aligned address; a fetch is then never misaligned.
-/
import NpcMachine.Emulator.Outcome

namespace NpcMachine.Emulator

set_option autoImplicit false

/-! ## Multiples of four -/

theorem four_dvd_iff (a : U32) : 4 ∣ a.toNat ↔ a &&& 3#32 = 0#32 := by
  have mask : (3#32).toNat = 2 ^ 2 - 1 := rfl
  have low : (a &&& 3#32).toNat = a.toNat % 4 := by
    rw [BitVec.toNat_and, mask, Nat.and_two_pow_sub_one_eq_mod]
  constructor
  · intro multiple
    apply BitVec.eq_of_toNat_eq
    rw [low]
    exact Nat.mod_eq_zero_of_dvd multiple
  · intro zero
    rw [zero] at low
    exact Nat.dvd_of_mod_eq_zero low.symm

theorem four_dvd_add {a b : U32} (left : 4 ∣ a.toNat) (right : 4 ∣ b.toNat) :
    4 ∣ (a + b).toNat := by
  rw [BitVec.toNat_add]
  omega

theorem four_dvd_masked (value : U32) : 4 ∣ (value &&& 0xFFFFFFFC#32).toNat := by
  have apart : 0xFFFFFFFC#32 &&& 3#32 = 0#32 := by decide
  rw [four_dvd_iff, BitVec.and_assoc, apart]
  exact BitVec.and_zero

/-! ## The hart -/

structure Hart.Wf (h : Hart) : Prop where
  zero : h.x 0#4 = 0#32
  mstatus : h.mstatus = 0x00001800#32
  pc : 4 ∣ h.pc.toNat
  mepc : 4 ∣ h.mepc.toNat
  mtvec : 4 ∣ h.mtvec.toNat

namespace Hart.Wf

variable {h : Hart}

theorem reset {resetVector : U32} (aligned : 4 ∣ resetVector.toNat) :
    (Hart.reset resetVector).Wf where
  zero := rfl
  mstatus := rfl
  pc := aligned
  mepc := Nat.dvd_zero 4
  mtvec := Nat.dvd_zero 4

theorem writeReg (wf : h.Wf) (idx value : U32) : (h.writeReg idx value).Wf := by
  unfold Hart.writeReg
  split_ifs with hidden
  · exact wf
  · refine ⟨?_, wf.mstatus, wf.pc, wf.mepc, wf.mtvec⟩
    simp only [Bool.or_eq_true, beq_iff_eq, not_or, BitVec.ule_eq_decide, decide_eq_true_iff,
      Nat.not_le] at hidden
    obtain ⟨nonzero, small⟩ := hidden
    have other : (0#4 : BitVec 4) ≠ idx.setWidth 4 := by
      intro same
      have bound : idx.toNat < 16 := small
      have low := congrArg BitVec.toNat same
      rw [BitVec.toNat_setWidth, Nat.mod_eq_of_lt bound] at low
      exact nonzero (BitVec.eq_of_toNat_eq low.symm)
    show Function.update h.x (idx.setWidth 4) value 0#4 = 0#32
    rw [Function.update_of_ne other]
    exact wf.zero

theorem writeCsr (wf : h.Wf) {addr value : U32} {after : Hart}
    (writes : h.writeCsr addr value = some after) : after.Wf := by
  unfold Hart.writeCsr at writes
  split_ifs at writes
  · cases writes
    exact ⟨wf.zero, rfl, wf.pc, wf.mepc, wf.mtvec⟩
  · cases writes
    exact ⟨wf.zero, wf.mstatus, wf.pc, wf.mepc, four_dvd_masked value⟩
  · cases writes
    exact ⟨wf.zero, wf.mstatus, wf.pc, four_dvd_masked value, wf.mtvec⟩
  · cases writes
    exact ⟨wf.zero, wf.mstatus, wf.pc, wf.mepc, wf.mtvec⟩
  · cases writes
    exact wf

theorem csrHart (wf : h.Wf) (d : DecodedInst) : (csrHart h d).Wf := by
  unfold NpcMachine.Emulator.csrHart
  split
  case h_7 => exact wf
  all_goals
    cases h.readCsr d.csr with
    | none => exact wf
    | some old =>
        simp only
        generalize csrUpdate d old (if d.isCsrImm then d.imm else h.readReg d.rs1) = update
        cases update.2 with
        | false => exact wf
        | true =>
            cases writes : h.writeCsr d.csr update.1 with
            | none => exact wf
            | some after => exact wf.writeCsr writes

theorem trap (wf : h.Wf) (cause : U32) : ((haltOn h cause).takeException cause).Wf :=
  ⟨wf.zero, wf.mstatus, wf.mtvec, wf.pc, wf.mtvec⟩

end Hart.Wf

/-! ## The next pc -/

namespace EmulatorIss

variable {s : EmulatorIss} {d : DecodedInst}

/-- Where an instruction that retires goes on is a multiple of four. -/
theorem goesOn_aligned (wf : s.hart.Wf) {next : U32} (on : GoesOn s next) : 4 ∣ next.toNat := by
  rcases on with straight | returned | aligned
  · rw [straight]
    exact four_dvd_add wf.pc (by decide)
  · rw [returned]
    exact wf.mepc
  · exact (four_dvd_iff next).mpr aligned

theorem Outcome.aligned {out : EmulatorIss × CommitEvent} (outcome : Outcome s d out)
    (wf : s.hart.Wf) (quiet : out.2.exception = false) : 4 ∣ out.2.nextPc.toNat := by
  cases outcome with
  | trap cause => cases quiet
  | halt => cases quiet
  | retire moved rd value next _ on => exact goesOn_aligned wf on

theorem stepBody_aligned (wf : s.hart.Wf) (quiet : s.stepBody.2.exception = false) :
    4 ∣ s.stepBody.2.nextPc.toNat := by
  have ways := s.stepBody_cases
  generalize s.stepBody = out at ways quiet ⊢
  cases ways with
  | fetch inst cause => cases quiet
  | execute outcome => exact outcome.aligned wf quiet

/-! ## Steps and runs -/

theorem wf_step (wf : s.hart.Wf) {after : EmulatorIss} {ev : CommitEvent}
    (step : s.stepInst = some (after, ev)) : after.hart.Wf := by
  have next (quiet : ev.exception = false) : 4 ∣ ev.nextPc.toNat := by
    obtain ⟨-, rfl, rfl⟩ := stepInst_some step
    exact stepBody_aligned wf quiet
  rw [step_hart step, hartAfter]
  split_ifs with raised
  · exact wf.trap ev.cause
  · have kept := (wf.csrHart (decode ev.inst)).writeReg ev.rd ev.rdValue
    exact ⟨kept.zero, kept.mstatus, next (by simpa using raised), kept.mepc, kept.mtvec⟩

theorem wf_run (wf : s.hart.Wf) (n : Nat) : (s.run n).hart.Wf :=
  run_invariant (P := fun s => s.hart.Wf) wf (fun _ _ _ wf step => wf_step wf step) n

theorem fetch_aligned (wf : s.hart.Wf) (out : U32) :
    (s.memory.fetch s.hart.pc out).1 ≠ .misaligned := by
  have aligned := (four_dvd_iff s.hart.pc).mp wf.pc
  unfold Memory.fetch
  rw [if_neg (by simp [aligned])]
  split <;> simp

/-! ## Causes -/

/-- The exception causes of `common.h`. -/
def definedCauses : List U32 :=
  [causeInstMisaligned, causeInstAccessFault, causeIllegalInst, causeBreakpoint,
    causeLoadMisaligned, causeLoadAccessFault, causeStoreMisaligned, causeStoreAccessFault,
    causeEcallM]

theorem executeCause_defined {cause : U32} (raises : s.executeCause d = some cause) :
    cause ∈ definedCauses := by
  unfold executeCause at raises
  cases checked : reservedReg d with
  | true =>
      rw [checked, if_pos rfl] at raises
      cases raises
      decide
  | false =>
      rw [checked] at raises
      cases type : d.type with
      | lb | lh | lw | lbu | lhu | sb | sh | sw =>
          simp only [type, Bool.false_eq_true, if_false] at raises
          split at raises <;> cases raises <;> decide
      | csrrw | csrrs | csrrc | csrrwi | csrrsi | csrrci =>
          simp only [type, Bool.false_eq_true, if_false] at raises
          split at raises
          · cases raises
            decide
          · split_ifs at raises <;> cases raises <;> decide
      | jal | jalr | beq | bne | blt | bge | bltu | bgeu =>
          simp only [type, Bool.false_eq_true, if_false] at raises
          split_ifs at raises
          cases raises
          decide
      | _ =>
          simp only [type, Bool.false_eq_true, if_false] at raises
          cases raises <;> decide

theorem stepCause_defined {cause : U32} (raises : s.stepCause = some cause) :
    cause ∈ definedCauses := by
  unfold stepCause at raises
  split at raises
  · cases raises
    decide
  · cases raises
    decide
  · exact executeCause_defined raises

/-- The cause that a trapping step writes. -/
theorem mcause_defined {after : EmulatorIss} {ev : CommitEvent}
    (step : s.stepInst = some (after, ev)) (trap : ev.exception = true) :
    after.hart.mcause ∈ definedCauses := by
  cases s.step_cases step with
  | fetch cause _ raises hart => rw [hart]; exact stepCause_defined raises
  | trap cause _ raises hart => rw [hart]; exact stepCause_defined raises
  | retire _ _ _ _ exception => rw [exception] at trap; contradiction

/-! ## After a reset -/

/-- What holds of the hart between two calls of `step_inst`, and of the next call. -/
structure HartSound (s : EmulatorIss) : Prop where
  wf : s.hart.Wf
  mvendorid : s.hart.readCsr csrMvendorid = some 0#32
  marchid : s.hart.readCsr csrMarchid = some 0#32
  fetch : ∀ out, (s.memory.fetch s.hart.pc out).1 ≠ .misaligned
  mcause : ∀ after ev, s.stepInst = some (after, ev) → ev.exception = true →
    after.hart.mcause ∈ definedCauses

theorem hartSound_run (s : EmulatorIss) {resetAddr : U32} (aligned : 4 ∣ resetAddr.toNat)
    (input : List (BitVec 8)) (n : Nat) :
    HartSound (run { s.reset resetAddr with uart := (s.reset resetAddr).uart.setInput input } n)
    where
  wf := wf_run (Hart.Wf.reset aligned) n
  mvendorid := rfl
  marchid := rfl
  fetch := fetch_aligned (wf_run (Hart.Wf.reset aligned) n)
  mcause _ _ step trap := mcause_defined step trap

theorem hartSound_create :
    HartSound (run { reset (.create {}) 0x20000000#32 with uart := ⟨[0x41#8], []⟩ } 5) :=
  hartSound_run (.create {}) (by decide) [0x41#8] 5

end EmulatorIss

end NpcMachine.Emulator
