/-
# Rtl.RequestAlign -- data requests and the alignment of their addresses

The load/store unit tests the alignment of an access and, from other signals, raises
its request.  The exception is always raised, in the one cycle in which the access is
in MEM; the request goes out all the same unless the address is in the CLINT window.
`requestsAligned_iff` says that this is the only way to see a misaligned request.
-/
import NpcMachine.Rtl.Environment
import NpcMachine.Rtl.Invariant
import NpcMachine.Rtl.Core
import NpcMachine.Machine.Bits

namespace NpcMachine.Rtl

set_option autoImplicit false

/-! ## Aligned accesses -/

/-- The address is a multiple of the access size. -/
def LsuIn.Aligned (u : LsuIn) : Prop := 2 ^ u.memSize.toNat ∣ u.memAddr.toNat

instance (u : LsuIn) : Decidable u.Aligned := by
  unfold LsuIn.Aligned
  infer_instance

theorem LsuIn.addrMisaligned_iff {u : LsuIn} (sized : u.memSize ≠ 0b11#2) :
    u.addrMisaligned = true ↔ ¬ u.Aligned := by
  have sizes : ∀ size : BitVec 2, size ≠ 0b11#2 →
      size = memSizeByte ∨ size = memSizeHalf ∨ size = memSizeWord := by decide
  have low (n : Nat) : u.memAddr.extractLsb' 0 n ≠ 0#n ↔ ¬ 2 ^ n ∣ u.memAddr.toNat := by
    rw [Ne, ← BitVec.toNat_inj, Machine.toNat_extract, Nat.pow_zero, Nat.div_one,
      BitVec.toNat_ofNat, Nat.zero_mod, Nat.dvd_iff_mod_eq_zero]
  unfold addrMisaligned Aligned
  rcases sizes u.memSize sized with byte | half | word
  · rw [byte, if_pos rfl]
    simp [memSizeByte]
  · rw [half, if_neg (by decide), if_pos rfl, bne_iff_ne]
    exact low 1
  · rw [word, if_neg (by decide), if_neg (by decide), if_pos rfl, misaligned4, bne_iff_ne]
    exact low 2

/-- A legal load or store has one of the three sizes. -/
theorem decoder_memSize {inst : Word} (legal : (decoder inst).illegal = false)
    (access : (decoder inst).memRead = true ∨ (decoder inst).memWrite = true) :
    (decoder inst).memSize ≠ 0b11#2 := by
  rw [decoder_memRead, decoder_memWrite, beq_iff_eq, beq_iff_eq] at access
  intro wide
  rcases access with load | store
  · have decodes : decoder inst = decodeLoad inst := by rw [decoder, load]
    rw [decodes] at legal wide
    have size : (funct3 inst).extractLsb' 0 2 = 0b11#2 := wide
    simp [decodeLoad, size] at legal
  · have decodes : decoder inst = decodeStore inst := by rw [decoder, store]
    rw [decodes] at legal wide
    have size : (funct3 inst).extractLsb' 0 2 = 0b11#2 := wide
    simp [decodeStore, size] at legal

/-! ## Legal instructions in MEM -/

namespace Pipeline

/-- What MEM holds without an exception is a legal instruction. -/
def MemLegal (p : Pipeline) : Prop :=
  p.exMem.valid = true → p.exMem.exception = false → (decoder p.exMem.inst).illegal = false

theorem memLegal_reset (p : Pipeline) : p.reset.MemLegal := by
  intro valid
  simp [reset] at valid

theorem executed_legal {p : Pipeline} (wf : p.Wf) (valid : p.executed.valid = true)
    (clean : p.executed.exception = false) : (decoder p.executed.inst).illegal = false := by
  have silent : p.exFault = none := by simpa [executed, exException] using clean
  have ctl := (wf.idEx valid).ctl
  have legal : p.idEx.ctl.illegal = false := by
    unfold exFault at silent
    split_ifs at silent with _ _ _ checks
    simp only [Bool.not_eq_true, Bool.or_eq_false_iff] at checks
    exact checks.1.1.1.1
  rwa [ctl] at legal

theorem MemLegal.next {p : Pipeline} (legal : p.MemLegal) (wf : p.Wf) (i : PipelineIn) :
    (p.next i).MemLegal := by
  intro valid clean
  cases step_cases p i with
  | halt halts ifId idEx exMem => simp [exMem] at valid
  | trap runs faults ifId idEx exMem => simp [exMem] at valid
  | redirect runs fine redirects goes ifId idEx exMem =>
      rw [exMem] at valid clean ⊢
      exact executed_legal wf valid clean
  | lost runs fine redirects waits ifId idEx exMem =>
      rw [exMem] at valid clean ⊢
      exact legal valid clean
  | wait runs fine straight waits ifId idEx exMem =>
      rw [exMem] at valid clean ⊢
      exact legal valid clean
  | stall runs fine straight goes stalls ifId idEx exMem =>
      rw [exMem] at valid clean ⊢
      exact executed_legal wf valid clean
  | flow runs fine straight goes ready ifId idEx exMem =>
      rw [exMem] at valid clean ⊢
      exact executed_legal wf valid clean

theorem memLegal_run (p : Pipeline) (ins : Nat → PipelineIn) (n : Nat) :
    (p.reset.run ins n).MemLegal := by
  induction n with
  | zero => exact memLegal_reset p
  | succ n legal => exact legal.next (wf_run p ins n) (ins n)

/-! ## Misaligned accesses -/

/-- Whatever the bridge is doing, it shows no valid of a data transaction. -/
def DataSilent (p : Pipeline) : Prop :=
  ∀ (bridge : AxiMaster) (icache : Icache),
    let out := (Core.mk p icache bridge).axiOut
    out.awvalid = false ∧ out.wvalid = false ∧ (out.arvalid = true → out.arid = axiIdFetch)

/-- The instruction in MEM commits in the next cycle with `cause`, and no AXI
transaction was issued for it. -/
structure TrapsSilently (p : Pipeline) (i : PipelineIn) (cause : Word) : Prop where
  silent : p.DataSilent
  valid : (p.next i).commitValid = true
  raises : (p.next i).commitException = true
  cause : (p.next i).commitCause = cause

/-- Requests are aligned, and a misaligned access is a silent exception. -/
structure RequestsAligned (p : Pipeline) (i : PipelineIn) : Prop where
  load : p.reqLoadValid = true → 2 ^ p.reqLoadSize.toNat ∣ p.reqLoadAddr.toNat
  store : p.reqStoreValid = true → 2 ^ p.reqStoreSize.toNat ∣ p.reqStoreAddr.toNat
  loadTraps : p.lsu.memRead = true → ¬ p.lsu.Aligned → p.TrapsSilently i causeLoadMisaligned
  storeTraps : p.lsu.memWrite = true → ¬ p.lsu.Aligned → p.TrapsSilently i causeStoreMisaligned

/-- MEM holds a misaligned load or store to an address outside the CLINT window. -/
def MisalignedOutside (p : Pipeline) : Prop :=
  (p.lsu.memRead = true ∨ p.lsu.memWrite = true) ∧ inClint p.lsu.memAddr = false ∧ ¬ p.lsu.Aligned

variable {p : Pipeline} {i : PipelineIn}

theorem dataSilent_of_clint (inside : inClint p.lsu.memAddr = true) : p.DataSilent := by
  have noLoad : p.reqLoadValid = false := by
    simp [reqLoadValid, LsuIn.reqLoadValid, LsuIn.clintIsAccess, inside]
  have noStore : p.reqStoreValid = false := by
    simp [reqStoreValid, LsuIn.reqStoreValid, LsuIn.clintIsAccess, inside]
  intro bridge icache out
  have active : bridge.dataLoadActive (Core.mk p icache bridge).axiReq = false := by
    simp [AxiMaster.dataLoadActive, Core.axiReq, noLoad]
  refine ⟨?_, ?_, fun _ => ?_⟩
  · simp [out, Core.axiOut, AxiMaster.out, AxiReq.dataStoreActive, Core.axiReq, noStore]
  · simp [out, Core.axiOut, AxiMaster.out, AxiReq.dataStoreActive, Core.axiReq, noStore]
  · simp [out, Core.axiOut, AxiMaster.out, active]

/-- A fault that MEM finds commits in the next cycle. -/
theorem commits_of_memFault (wf : p.Wf) (valid : p.exMem.valid = true)
    (clean : p.exMem.exception = false) {cause : Word} (fault : p.memFault i = some cause) :
    (p.next i).commitValid = true ∧ (p.next i).commitException = true ∧
      (p.next i).commitCause = cause := by
  have faults : p.memRedirect i = true :=
    (memRedirect_iff p i).mpr ⟨valid, clean, by rw [fault]; rfl⟩
  have memWb := exMem_moves wf valid (.inr faults)
  rw [commitValid, commitException, commitCause, memWb]
  refine ⟨valid, ?_, ?_⟩
  · simp [accessed, memException, fault]
  · simp [accessed, memCause, fault]

/-- A load or store that MEM works on, and the size of its access. -/
theorem access_of_lsu (wf : p.Wf) (legal : p.MemLegal)
    (access : p.lsu.memRead = true ∨ p.lsu.memWrite = true) :
    p.exMem.valid = true ∧ p.exMem.exception = false ∧ p.lsu.memSize ≠ 0b11#2 := by
  have held : p.exMem.valid = true ∧ p.exMem.exception = false ∧
      (p.exMem.memRead = true ∨ p.exMem.memWrite = true) := by
    rcases access with reads | writes
    · simp only [lsu, Bool.and_eq_true, Bool.not_eq_true'] at reads
      exact ⟨reads.1.1, reads.2, .inl reads.1.2⟩
    · simp only [lsu, Bool.and_eq_true, Bool.not_eq_true'] at writes
      exact ⟨writes.1.1, writes.2, .inr writes.1.2⟩
  obtain ⟨valid, clean, kind⟩ := held
  have decoded := wf.exMem valid
  rw [decoded.memRead, decoded.memWrite] at kind
  have sized := decoder_memSize (legal valid clean) kind
  rw [← decoded.memSize] at sized
  exact ⟨valid, clean, sized⟩

theorem memFault_of_load (reads : p.lsu.memRead = true) (off : p.lsu.addrMisaligned = true) :
    p.memFault i = some causeLoadMisaligned := by
  have misaligned : p.lsu.loadMisaligned = true := by rw [LsuIn.loadMisaligned, reads, off]; rfl
  simp only [lsu, Bool.and_eq_true, Bool.not_eq_true'] at reads
  simp [memFault, reads.1.2, reads.2, misaligned]

theorem memFault_of_store (wf : p.Wf) (writes : p.lsu.memWrite = true)
    (off : p.lsu.addrMisaligned = true) : p.memFault i = some causeStoreMisaligned := by
  have misaligned : p.lsu.storeMisaligned = true := by
    rw [LsuIn.storeMisaligned, writes, off]
    rfl
  simp only [lsu, Bool.and_eq_true, Bool.not_eq_true'] at writes
  have decoded := wf.exMem writes.1.1
  have noRead : p.exMem.memRead = false :=
    decoded.memRead.trans (decoder_of_memWrite (decoded.memWrite.symm.trans writes.1.2)).1
  simp [memFault, noRead, writes.1.2, writes.2, misaligned]

/-- In every environment: a cycle meets the alignment rule unless MEM holds a
misaligned access to an address outside the CLINT window. -/
theorem requestsAligned_iff (p : Pipeline) (ins : Nat → PipelineIn) (n : Nat) :
    (p.reset.run ins n).RequestsAligned (ins n) ↔ ¬ (p.reset.run ins n).MisalignedOutside := by
  have wf := wf_run p ins n
  have legal := memLegal_run p ins n
  generalize p.reset.run ins n = q at wf legal
  constructor
  · rintro aligned ⟨access, outside, off⟩
    rcases access with reads | writes
    · apply off
      apply aligned.load
      simp [reqLoadValid, LsuIn.reqLoadValid, LsuIn.clintIsAccess, reads, outside]
    · apply off
      apply aligned.store
      simp [reqStoreValid, LsuIn.reqStoreValid, LsuIn.clintIsAccess, writes, outside]
  · intro none
    have inside (access : q.lsu.memRead = true ∨ q.lsu.memWrite = true) (off : ¬ q.lsu.Aligned) :
        inClint q.lsu.memAddr = true := by
      by_contra outside
      exact none ⟨access, by simpa using outside, off⟩
    constructor
    · intro requests
      simp only [reqLoadValid, LsuIn.reqLoadValid, LsuIn.clintIsAccess, Bool.and_eq_true,
        Bool.not_eq_true'] at requests
      by_contra off
      rw [inside (.inl requests.1) off] at requests
      exact absurd requests.2 (by decide)
    · intro requests
      simp only [reqStoreValid, LsuIn.reqStoreValid, LsuIn.clintIsAccess, Bool.and_eq_true,
        Bool.not_eq_true'] at requests
      by_contra off
      rw [inside (.inr requests.1) off] at requests
      exact absurd requests.2 (by decide)
    · intro reads off
      obtain ⟨valid, clean, sized⟩ := access_of_lsu wf legal (.inl reads)
      have fault : q.memFault (ins n) = some causeLoadMisaligned :=
        memFault_of_load reads ((LsuIn.addrMisaligned_iff sized).mpr off)
      obtain ⟨commits, raises, cause⟩ := commits_of_memFault wf valid clean fault
      exact ⟨dataSilent_of_clint (inside (.inl reads) off), commits, raises, cause⟩
    · intro writes off
      obtain ⟨valid, clean, sized⟩ := access_of_lsu wf legal (.inr writes)
      have fault : q.memFault (ins n) = some causeStoreMisaligned :=
        memFault_of_store wf writes ((LsuIn.addrMisaligned_iff sized).mpr off)
      obtain ⟨commits, raises, cause⟩ := commits_of_memFault wf valid clean fault
      exact ⟨dataSilent_of_clint (inside (.inr writes) off), commits, raises, cause⟩

end Pipeline

/-! ## A misaligned store that goes out -/

/-- `lui x1,0x20000; sw x0,0x101(x1)` and nops. -/
def alignProgram (pc : Word) : Word :=
  if pc = 0x20000000#32 then 0x200000B7#32
  else if pc = 0x20000004#32 then 0x1000A0A3#32
  else 0x00000013#32

def alignInputs : Nat → PipelineIn :=
  Machine.feedback Pipeline.next (slowMemory alignProgram 0) (default : Pipeline).reset

/-- In cycle 6 the store requests a word at `0x20000101`. -/
theorem alignInputs_request_misaligned :
    Serves alignProgram (default : Pipeline).reset alignInputs ∧
      ¬ ∀ n, ((default : Pipeline).reset.run alignInputs n).RequestsAligned (alignInputs n) := by
  refine ⟨slowMemory_serves _ _ _, ?_⟩
  intro aligned
  have request : ((default : Pipeline).reset.run alignInputs 6).reqStoreValid = true ∧
      ((default : Pipeline).reset.run alignInputs 6).reqStoreAddr = 0x20000101#32 ∧
      ((default : Pipeline).reset.run alignInputs 6).reqStoreSize = memSizeWord := by
    decide +kernel
  have multiple := (aligned 6).store request.1
  rw [request.2.1, request.2.2] at multiple
  exact absurd multiple (by decide)

end NpcMachine.Rtl
