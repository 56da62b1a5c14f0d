/-
# Rtl.SingleCycleStore -- stores of `npc_single_cycle`

The requests of the load/store unit are gated with the phase and the decoder, the
exception is decided beside them and reads no answer to a store.  A store that commits as
an exception still goes out, and a store that the memory refuses commits as if it had been
done: `storeExact_iff` says which states and answers avoid both.
-/
import NpcMachine.Rtl.SingleCycle
import NpcMachine.Rtl.RequestAlign

namespace NpcMachine.Rtl

set_option autoImplicit false

namespace SingleCycle

/-- An instruction that commits as an exception stores nothing, and a store that is
answered with a fault commits as a store access fault. -/
structure StoreExact (s : SingleCycle) (i : SingleCycleIn) : Prop where
  silent : s.executePhase = true → (s.next i).commitValid = true →
    (s.next i).commitException = true →
      s.reqStoreValid = false ∧ (s.lsu.clintReqValid && s.lsu.clintReqWen) = false
  faults : s.reqStoreValid = true → i.respStoreFault = true →
    (s.next i).commitValid = true ∧ (s.next i).commitException = true ∧
      (s.next i).commitCause = causeStoreAccessFault

/-- The address of the store in the execute phase. -/
def storeAddr (s : SingleCycle) : Word :=
  s.regfile.read (s.instReg.extractLsb' 15 4) + imm s.instReg .s

/-- The execute phase holds a store that was fetched without fault, is legal, has an
aligned address and is not answered with a fault. -/
structure StoreClean (s : SingleCycle) (i : SingleCycleIn) : Prop where
  fetchFault : s.fetchFaultReg = false
  fetchMisaligned : s.fetchMisalignedReg = false
  size : (funct3 s.instReg).toNat < 3
  rs1 : (s.instReg.extractLsb' 15 5).toNat < 16
  rs2 : (s.instReg.extractLsb' 20 5).toNat < 16
  aligned : 2 ^ (funct3 s.instReg).toNat ∣ s.storeAddr.toNat
  accepted : inClint s.storeAddr = false → i.respStoreFault = false

variable {s : SingleCycle} {i : SingleCycleIn}

/-! ## Commits -/

theorem commits_execute (live : s.halted = false) (executes : s.executePhase = true) :
    (s.next i).commitValid = true ∧ (s.next i).commitException = s.excTake i ∧
      (s.next i).commitCause = s.excCause i := by
  have valid : (s.next i).commitValid = (s.clocked i).commitValid := rfl
  have raises : (s.next i).commitException = (s.clocked i).commitException := rfl
  have cause : (s.next i).commitCause = (s.clocked i).commitCause := rfl
  rw [valid, raises, cause, clocked_execute live executes]
  exact ⟨rfl, rfl, rfl⟩

/-! ## Stores in the execute phase -/

theorem memWrite_iff : s.dec.memWrite = true ↔ opcode s.instReg = 0b0100011#7 := by
  rw [dec, decoder_memWrite, beq_iff_eq, major_eq_store]

theorem dec_of_store (store : opcode s.instReg = 0b0100011#7) :
    s.dec = decodeStore s.instReg := by
  rw [dec, decoder, (major_eq_store s.instReg).mpr store]

theorem lsu_memWrite_iff :
    s.lsu.memWrite = true ↔ s.executePhase = true ∧ opcode s.instReg = 0b0100011#7 := by
  rw [← memWrite_iff, ← Bool.and_eq_true]
  rfl

theorem memAddr_of_store (store : opcode s.instReg = 0b0100011#7) :
    s.lsu.memAddr = s.storeAddr := by
  have decodes := dec_of_store store
  show s.aluResult = s.storeAddr
  rw [aluResult, rs1Data, immOut, decodes]
  rfl

/-- A store that is on the request port or in the CLINT is in the execute phase. -/
theorem stores_iff : s.reqStoreValid = true ∨ (s.lsu.clintReqValid && s.lsu.clintReqWen) = true ↔
    s.lsu.memWrite = true := by
  rw [reqStoreValid, LsuIn.reqStoreValid, LsuIn.clintReqValid, LsuIn.clintReqWen]
  cases s.lsu.memWrite <;> cases s.lsu.memRead <;> cases s.lsu.clintIsAccess <;> decide

theorem reqStoreValid_iff : s.reqStoreValid = true ↔ s.executePhase = true ∧
    opcode s.instReg = 0b0100011#7 ∧ inClint s.storeAddr = false := by
  rw [reqStoreValid, LsuIn.reqStoreValid, Bool.and_eq_true, lsu_memWrite_iff, Bool.not_eq_true',
    LsuIn.clintIsAccess, and_assoc]
  exact and_congr_right fun _ => and_congr_right fun store => by rw [memAddr_of_store store]

theorem legalSize_iff (f3 : BitVec 3) :
    (f3.getLsbD 2 || f3.extractLsb' 0 2 == 0b11#2) = false ↔ f3.toNat < 3 := by
  revert f3
  decide

theorem lowRegister_iff (r : BitVec 5) : r.getLsbD 4 = false ↔ r.toNat < 16 := by
  revert r
  decide

/-- A store of legal size is misaligned when its address is no multiple of the size. -/
theorem storeMisaligned_iff (executes : s.executePhase = true)
    (store : opcode s.instReg = 0b0100011#7) (size : (funct3 s.instReg).toNat < 3) :
    s.lsu.storeMisaligned = false ↔ 2 ^ (funct3 s.instReg).toNat ∣ s.storeAddr.toNat := by
  have decodes := dec_of_store store
  have memSize : s.lsu.memSize = (funct3 s.instReg).extractLsb' 0 2 := by
    show s.dec.memSize = _
    rw [decodes]
    rfl
  have sizes : ∀ f3 : BitVec 3, f3.toNat < 3 →
      f3.extractLsb' 0 2 ≠ 0b11#2 ∧ (f3.extractLsb' 0 2).toNat = f3.toNat := by decide
  obtain ⟨sized, same⟩ := sizes _ size
  have writes : s.lsu.memWrite = true := lsu_memWrite_iff.mpr ⟨executes, store⟩
  have off := LsuIn.addrMisaligned_iff (u := s.lsu) (by rw [memSize]; exact sized)
  rw [LsuIn.Aligned, memSize, same, memAddr_of_store store] at off
  rw [LsuIn.storeMisaligned, writes, Bool.true_and, ← Bool.not_eq_true, off, not_not]

/-- A store passes the chain when it was fetched without fault, is legal and is aligned. -/
theorem exc_store_iff (wf : s.Wf) (executes : s.executePhase = true)
    (store : opcode s.instReg = 0b0100011#7) :
    s.exc i = none ↔ s.fetchFaultReg = false ∧ s.fetchMisalignedReg = false ∧
      (funct3 s.instReg).toNat < 3 ∧ (s.instReg.extractLsb' 15 5).toNat < 16 ∧
        (s.instReg.extractLsb' 20 5).toNat < 16 ∧ s.lsu.storeMisaligned = false := by
  have decodes := dec_of_store store
  have pc : misaligned4 s.fetchPcReg = false := by
    rw [wf.fetchPcReg executes]
    exact wf.pc
  have illegal : s.dec.illegal =
      ((funct3 s.instReg).getLsbD 2 || (funct3 s.instReg).extractLsb' 0 2 == 0b11#2) := by
    rw [decodes]
    rfl
  have rd : s.reservedRd = false := by rw [reservedRd, decodes]; rfl
  have rs1 : s.reservedRs1 = (s.instReg.extractLsb' 15 5).getLsbD 4 := by
    rw [reservedRs1, decodes]; rfl
  have rs2 : s.reservedRs2 = (s.instReg.extractLsb' 20 5).getLsbD 4 := by
    rw [reservedRs2, decodes]; rfl
  have csr : s.csrIllegal = false := by rw [csrIllegal, decodes]; rfl
  have jump : s.dec.jump = false := by rw [decodes]; rfl
  have branch : s.branchOff = false := by rw [branchOff, decodes]; rfl
  have reads : s.dec.memRead = false := by rw [decodes]; rfl
  have writes : s.dec.memWrite = true := by rw [decodes]; rfl
  have ecall : s.dec.ecall = false := by rw [decodes]; rfl
  have ebreak : s.dec.ebreak = false := by rw [decodes]; rfl
  rw [← legalSize_iff, ← lowRegister_iff, ← lowRegister_iff, ← illegal, ← rs1, ← rs2, exc, pc, rd,
    csr, jump, branch, reads, writes, ecall, ebreak]
  simp only [Bool.false_and, Bool.or_false, Bool.true_and, Bool.false_eq_true, if_false]
  split_ifs with fault misaligned decodeTime off
  · simp [fault]
  · simp [misaligned]
  · simp only [Bool.or_eq_true] at decodeTime
    rcases decodeTime with (hit | hit) | hit <;> simp [hit]
  · simp [off]
  · simp only [Bool.or_eq_true, not_or, Bool.not_eq_true] at fault misaligned decodeTime off
    simp [fault, misaligned, decodeTime, off]

/-! ## Precise stores -/

/-- In every reachable state and for every answer of the memory: exceptions store nothing
and a refused store is an access fault, unless the store in the execute phase is not clean. -/
theorem storeExact_iff (start : SingleCycle) (ins : Nat → SingleCycleIn) (n : Nat)
    (i : SingleCycleIn) :
    (start.reset.run ins n).StoreExact i ↔
      ((start.reset.run ins n).executePhase = true →
        opcode (start.reset.run ins n).instReg = 0b0100011#7 →
          (start.reset.run ins n).StoreClean i) := by
  have wf := wf_run start ins n
  generalize start.reset.run ins n = s at wf
  have live (executes : s.executePhase = true) : s.halted = false := by
    by_contra halted
    have idle := wf.idle (Bool.of_not_eq_false halted)
    rw [executes] at idle
    cases idle
  constructor
  · intro exact' executes store
    obtain ⟨valid, raises, -⟩ := commits_execute (i := i) (live executes) executes
    have passes : s.exc i = none := by
      by_contra hit
      have taken : s.excTake i = true := Option.isSome_iff_ne_none.mpr hit
      obtain ⟨noReq, noClint⟩ := exact'.silent executes valid (raises.trans taken)
      rcases stores_iff.mpr (lsu_memWrite_iff.mpr ⟨executes, store⟩) with req | clint
      · rw [noReq] at req
        cases req
      · rw [noClint] at clint
        cases clint
    obtain ⟨fault, misaligned, size, rs1, rs2, aligned⟩ :=
      (exc_store_iff wf executes store).mp passes
    refine ⟨fault, misaligned, size, rs1, rs2,
      (storeMisaligned_iff executes store size).mp aligned, fun outside => ?_⟩
    by_contra answered
    have req := reqStoreValid_iff.mpr ⟨executes, store, outside⟩
    have commits := (exact'.faults req (Bool.of_not_eq_false answered)).2.1
    rw [raises, excTake, passes] at commits
    cases commits
  · intro clean
    constructor
    · intro executes valid raises
      obtain ⟨-, taken, -⟩ := commits_execute (i := i) (live executes) executes
      rw [taken] at raises
      -- a clean store passes the chain, so what raises is no store
      have noStore : ¬ s.lsu.memWrite = true := by
        intro writes
        have store := (lsu_memWrite_iff.mp writes).2
        have fine := clean executes store
        have passes := (exc_store_iff (i := i) wf executes store).mpr ⟨fine.fetchFault,
          fine.fetchMisaligned, fine.size, fine.rs1, fine.rs2,
          (storeMisaligned_iff executes store fine.size).mpr fine.aligned⟩
        rw [excTake, passes] at raises
        cases raises
      rw [← stores_iff, not_or, Bool.not_eq_true, Bool.not_eq_true] at noStore
      exact noStore
    · intro req answered
      obtain ⟨executes, store, outside⟩ := reqStoreValid_iff.mp req
      have quiet := (clean executes store).accepted outside
      rw [answered] at quiet
      cases quiet

/-- `sw x0,0(x0)` is fetched from the reset vector. -/
def refusedStore : SingleCycleIn :=
  { (default : SingleCycleIn) with
    respFetchValid := true
    respFetchInst := 0x00002023#32 }

/-- The memory refuses the store, and it commits without an exception. -/
theorem refusedStore_commits : ¬ ∀ (start : SingleCycle) (ins : Nat → SingleCycleIn) (n : Nat)
    (i : SingleCycleIn), (start.reset.run ins n).StoreExact i := by
  intro all
  have out := (all default (fun _ => refusedStore) 1
    { (default : SingleCycleIn) with respStoreFault := true }).faults (by decide) rfl
  exact absurd out.2.1 (by decide)

end SingleCycle

end NpcMachine.Rtl
