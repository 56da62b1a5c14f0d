/-
# Rtl.StoreCommit -- accepted stores and committed stores

A store takes effect in MEM, one stage before its commit.  Whatever the
environment does, the stores that memory accepted and the stores that the commit
interface reports are the same sequence: each accepted store commits on the next
edge, and no other store commits.
-/
import NpcMachine.Rtl.Invariant

namespace NpcMachine.Rtl

set_option autoImplicit false

/-- A store, as the request port and the commit interface both identify it. -/
structure StoreEvent where
  pc : Word
  inst : Word
  addr : Word
  deriving DecidableEq, Repr

namespace Pipeline

/-- The store request that this cycle answers: ready, aligned and without fault. -/
def storeAccepted (p : Pipeline) (i : PipelineIn) : Option StoreEvent :=
  if p.reqStoreValid && i.reqStoreReady && !p.lsu.storeMisaligned && !i.respStoreFault &&
      !i.respStoreMisaligned then
    some ⟨p.exMem.pc, p.exMem.inst, p.reqStoreAddr⟩
  else none

/-- The `STORE` outside the CLINT that this cycle commits without exception.  The
address of a store is its ALU result, which MEM/WB holds in `rd_value`. -/
def storeCommitted (p : Pipeline) (_ : PipelineIn) : Option StoreEvent :=
  if p.commitValid && !p.commitException && opcode p.commitInst == 0b0100011#7 &&
      !inClint p.memWb.rdValue then
    some ⟨p.commitPc, p.commitInst, p.memWb.rdValue⟩
  else none

variable {p : Pipeline} {i : PipelineIn}

theorem storeAccepted_idle (idle : p.reqStoreValid = false) : p.storeAccepted i = none := by
  simp [storeAccepted, idle]

theorem storeCommitted_idle (idle : p.memWb.valid = false) : p.storeCommitted i = none := by
  simp [storeCommitted, commitValid, idle]

theorem reqStoreValid_valid (requests : p.reqStoreValid = true) :
    p.exMem.valid = true ∧ p.exMem.memWrite = true ∧ p.exMem.exception = false ∧
      inClint p.exMem.aluResult = false := by
  simpa [reqStoreValid, LsuIn.reqStoreValid, lsu, LsuIn.clintIsAccess, LsuIn.memAddr,
    and_assoc] using requests

/-- MEM finds no fault with a store exactly when it is aligned and no fault answers it. -/
theorem memFault_store (clean : p.exMem.exception = false) (noRead : p.exMem.memRead = false)
    (writes : p.exMem.memWrite = true) :
    p.memFault i = none ↔ p.lsu.storeMisaligned = false ∧ i.respStoreFault = false ∧
      i.respStoreMisaligned = false := by
  simp only [memFault, clean, noRead, writes, Bool.false_and, Bool.true_and]
  split_ifs <;> simp_all

/-- The value MEM/WB keeps for a store is the address. -/
theorem memStageRdValue_store (decoded : p.exMem.Decoded) (writes : p.exMem.memWrite = true) :
    p.memStageRdValue i = p.exMem.aluResult := by
  have store := decoder_of_memWrite (decoded.memWrite.symm.trans writes)
  have noRead : p.exMem.memRead = false := decoded.memRead.trans store.1
  have noCsr : p.exMem.csrOp = .none := decoded.csrOp.trans store.2.1
  have noJump : p.exMem.jump = false := decoded.jump.trans store.2.2
  simp [memStageRdValue, exForwardValue, noRead, noCsr, noJump]

/-- MEM moves on: the store it held was accepted exactly when it commits next. -/
theorem storeCommitted_advance (wf : p.Wf) (fine : p.memRedirect i = false)
    (goes : p.memAccessWait i = false) {q : Pipeline} (memWb : q.memWb = p.accessed i)
    (j : PipelineIn) : q.storeCommitted j = p.storeAccepted i := by
  cases valid : p.exMem.valid with
  | false =>
      rw [storeCommitted_idle (by rw [memWb]; exact valid), storeAccepted_idle]
      simp [reqStoreValid, LsuIn.reqStoreValid, lsu, valid]
  | true =>
      have decoded := wf.exMem valid
      have commits : q.storeCommitted j =
          if !p.exMem.exception && p.exMem.memWrite && !inClint (p.memStageRdValue i) then
            some ⟨p.exMem.pc, p.exMem.inst, p.memStageRdValue i⟩
          else none := by
        have isStore : (opcode p.exMem.inst == 0b0100011#7) = p.exMem.memWrite := by
          rw [decoded.memWrite, decoder_memWrite, Bool.eq_iff_iff]
          simp [major_eq_store]
        have raised := accessed_exception fine valid
        simp only [storeCommitted, commitValid, commitException, commitInst, commitPc, memWb,
          raised]
        simp only [accessed, valid, isStore, Bool.true_and]
      rw [commits]
      cases clean : p.exMem.exception with
      | true =>
          rw [storeAccepted_idle (by simp [reqStoreValid, LsuIn.reqStoreValid, lsu, clean])]
          simp
      | false =>
          cases writes : p.exMem.memWrite with
          | false =>
              rw [storeAccepted_idle (by simp [reqStoreValid, LsuIn.reqStoreValid, lsu, writes])]
              simp
          | true =>
              have noRead : p.exMem.memRead = false :=
                decoded.memRead.trans (decoder_of_memWrite (decoded.memWrite.symm.trans writes)).1
              have quiet : p.memFault i = none := by
                have silent := fine
                rw [← Bool.not_eq_true, memRedirect_iff] at silent
                simpa [valid, clean] using silent
              obtain ⟨aligned, noFault, noMisaligned⟩ :=
                (memFault_store clean noRead writes).mp quiet
              have answered : inClint p.exMem.aluResult = false → i.reqStoreReady = true := by
                intro outside
                have clint : p.lsu.clintIsAccess = false := outside
                simpa [memAccessWait, valid, clean, noRead, writes, aligned, clint] using goes
              have asks : p.reqStoreValid = !inClint p.exMem.aluResult := by
                simp [reqStoreValid, LsuIn.reqStoreValid, lsu, valid, clean, writes,
                  LsuIn.clintIsAccess, LsuIn.memAddr]
              rw [memStageRdValue_store decoded writes]
              cases outside : inClint p.exMem.aluResult with
              | true => simp [storeAccepted, asks, outside]
              | false =>
                  have addr : p.reqStoreAddr = p.exMem.aluResult := rfl
                  simp [storeAccepted, asks, outside, answered outside, aligned, noFault,
                    noMisaligned, addr]

/-- A store that MEM holds or faults in this cycle is not accepted. -/
theorem storeAccepted_of_wait (wf : p.Wf) (waits : p.memAccessWait i = true) :
    p.storeAccepted i = none := by
  unfold storeAccepted
  split_ifs with accepted
  · simp only [Bool.and_eq_true, Bool.not_eq_true'] at accepted
    obtain ⟨⟨⟨⟨asks, ready⟩, aligned⟩, -⟩, -⟩ := accepted
    obtain ⟨valid, writes, clean, outside⟩ := reqStoreValid_valid asks
    have decoded := wf.exMem valid
    have noRead : p.exMem.memRead = false :=
      decoded.memRead.trans (decoder_of_memWrite (decoded.memWrite.symm.trans writes)).1
    simp [memAccessWait, noRead, ready] at waits
  · rfl

theorem storeAccepted_of_fault (wf : p.Wf) (faults : p.memRedirect i = true) :
    p.storeAccepted i = none := by
  unfold storeAccepted
  split_ifs with accepted
  · simp only [Bool.and_eq_true, Bool.not_eq_true'] at accepted
    obtain ⟨⟨⟨⟨asks, ready⟩, aligned⟩, noFault⟩, noMisaligned⟩ := accepted
    obtain ⟨valid, writes, clean, outside⟩ := reqStoreValid_valid asks
    have decoded := wf.exMem valid
    have noRead : p.exMem.memRead = false :=
      decoded.memRead.trans (decoder_of_memWrite (decoded.memWrite.symm.trans writes)).1
    have quiet := (memFault_store clean noRead writes).mpr ⟨aligned, noFault, noMisaligned⟩
    have raised := ((memRedirect_iff p i).mp faults).2.2
    rw [quiet] at raised
    contradiction
  · rfl

/-- The store accepted in a cycle is the store committed in the next one. -/
theorem storeCommitted_next (wf : p.Wf) (i j : PipelineIn) :
    (p.next i).storeCommitted j = p.storeAccepted i := by
  cases step_cases p i with
  | halt halts ifId idEx exMem memWb pc =>
      obtain ⟨valid, raised, -⟩ := wbWillHalt_valid halts
      have empty := (wf.wbTrap valid raised).2
      rw [storeCommitted_idle (by simp [memWb]), storeAccepted_idle]
      simp [reqStoreValid, LsuIn.reqStoreValid, lsu, empty]
  | trap runs faults ifId idEx exMem memWb pc =>
      have raises : p.memNewException i = true := faults
      simp only [memNewException, Bool.and_eq_true] at raises
      rw [storeAccepted_of_fault wf faults, storeCommitted, commitException, memWb]
      simp [accessed, raises.2]
  | redirect runs fine redirects goes ifId idEx exMem memWb pc =>
      exact storeCommitted_advance wf fine goes memWb j
  | lost runs fine redirects waits ifId idEx exMem memWb pc =>
      rw [storeCommitted_idle (by simp [memWb]), storeAccepted_of_wait wf waits]
  | wait runs fine straight waits ifId idEx exMem memWb pc =>
      rw [storeCommitted_idle (by simp [memWb]), storeAccepted_of_wait wf waits]
  | stall runs fine straight goes stalls ifId idEx exMem memWb pc =>
      exact storeCommitted_advance wf fine goes memWb j
  | flow runs fine straight goes ready ifId idEx exMem memWb pc =>
      exact storeCommitted_advance wf fine goes memWb j

/-- In every environment the stores committed are the stores accepted, in order and
one for one; a commit is reported one cycle after memory accepted the store. -/
theorem storeCommitted_log (p : Pipeline) (ins : Nat → PipelineIn) (n : Nat) :
    Machine.log storeCommitted next p.reset ins (n + 1) =
      Machine.log storeAccepted next p.reset ins n := by
  refine Machine.log_delayed ?_ ?_ n
  · exact storeCommitted_idle rfl
  · intro k
    exact storeCommitted_next (wf_run p ins k) (ins k) (ins (k + 1))

end Pipeline

end NpcMachine.Rtl
