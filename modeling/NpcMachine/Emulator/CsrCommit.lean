/-
# Emulator.CsrCommit -- CSR instructions in the composition

In the composition no operand is ever lost, because a memory wait finds EX empty.
What a CSR instruction reads is therefore right exactly when it does not read `mepc`
or `mcause` in the cycle in which a trap writes them.
-/
import NpcMachine.Emulator.Responder
import NpcMachine.Rtl.CsrRead

namespace NpcMachine.Emulator

open NpcMachine.Rtl

set_option autoImplicit false

/-- If a CSR instruction commits without exception, it has read the value that the CSR
holds after everything older, and it forms the new value from that one. -/
structure CsrCommit (p : Pipeline) : Prop where
  read : p.commitValid = true → p.memWb.csrOp ≠ .none → p.commitException = false →
    p.memWb.rdValue = p.csrFile.readData p.memWb.csrAddr
  new : p.commitValid = true → p.memWb.csrOp ≠ .none → p.commitException = false →
    p.memWb.csrNewValue = csrNewValue (p.csrFile.readData p.memWb.csrAddr)
      (csrOperand p.commitInst (p.regfile.read (decoder p.commitInst).rs1)) p.memWb.csrOp

variable (s : RtlIss) (image : Memory)

/-- No operand is lost in the composition. -/
theorem fresh_boot (n : Nat) : ((s.boot image).run n).top.pipeline.Fresh := by
  obtain ⟨p, run⟩ := s.boot_pipeline image
  rw [run n]
  refine fresh_run p _ ?_ n
  intro k source
  have held : (p.reset.run (fun k => ((s.boot image).run k).pipelineIn) k).exHeld
      ((s.boot image).run k).pipelineIn = false := by
    rw [← run k]
    by_contra held
    simp only [Pipeline.exHeld, Bool.not_eq_false, Bool.and_eq_true] at held
    have empty := (idEx_of_wait (coreWf_run s image k) (RtlIss.run_answers s image k).2
      held.1.1.1.2).2
    rw [empty] at held
    exact absurd held.1.1.1.1 (by simp)
  simp [Pipeline.forwardMissed, held]

theorem csrFresh_boot
    (kept : ∀ n, ((s.boot image).run n).top.pipeline.csrReadMissed
      ((s.boot image).run n).pipelineIn = false) (n : Nat) :
    ((s.boot image).run n).top.pipeline.CsrFresh := by
  induction n with
  | zero =>
      obtain ⟨p, run⟩ := s.boot_pipeline image
      rw [run 0]
      exact Pipeline.csrFresh_reset p
  | succ n csrs =>
      rw [RtlIss.run_succ, RtlIss.toggleClock_pipeline]
      exact csrs.next (coreWf_run s image n).pipeline (fresh_boot s image n) (kept n)

/-- For every program: each committed CSR instruction has read the up-to-date value
exactly in the runs in which none passes from ID to EX while a trap in WB changes the
CSR it reads. -/
theorem csrCommit_iff (s : RtlIss) (image : Memory) :
    (∀ n, CsrCommit ((s.boot image).run n).top.pipeline) ↔
      ∀ n, ((s.boot image).run n).top.pipeline.csrReadMissed
        ((s.boot image).run n).pipelineIn = false := by
  constructor
  · intro commits n
    by_contra missed
    rw [Bool.not_eq_false] at missed
    obtain ⟨p, run⟩ := s.boot_pipeline image
    rw [run n] at missed
    obtain ⟨valid, csr, clean, stale⟩ := Pipeline.csrReadMissed_commits p _ n missed
    rw [← run (n + 3)] at valid csr clean stale
    exact stale ((commits (n + 3)).read valid csr clean)
  · intro kept n
    have csrs := csrFresh_boot s image kept n
    constructor
    · intro valid csr clean
      exact (csrs.memWb valid csr clean).1
    · intro valid csr clean
      obtain ⟨read, new⟩ := csrs.memWb valid csr clean
      rw [← read]
      exact new

/-! The handler is the first line, which is in the cache when the trap is taken: its
first instruction reads `mcause` while the `ecall` is in WB. -/

def trapProgram : List U32 :=
  [0x34202173#32,  -- csrrs x2, mcause, x0
   0x200000B7#32,  -- lui x1, 0x20000
   0x30509073#32,  -- csrrw x0, mtvec, x1
   0x00000013#32,
   0x00000073#32]  -- ecall

def trapRun : RtlIss := (default : RtlIss).boot (Memory.ofWords trapProgram)

set_option maxRecDepth 100000 in
/-- In cycle 33 the handler commits `x2 = 0` while `mcause` is 11. -/
theorem trapRun_reads_stale :
    ¬ ∀ n, CsrCommit ((default : RtlIss).boot (Memory.ofWords trapProgram) |>.run n).top.pipeline := by
  intro commits
  have read := (commits 33).read (by decide +kernel) (by decide +kernel) (by decide +kernel)
  have stale : (trapRun.run 33).top.pipeline.memWb.rdValue = 0#32 := by decide +kernel
  have real : (trapRun.run 33).top.pipeline.csrFile.readData
      (trapRun.run 33).top.pipeline.memWb.csrAddr = 11#32 := by decide +kernel
  have equal : (trapRun.run 33).top.pipeline.memWb.rdValue =
      (trapRun.run 33).top.pipeline.csrFile.readData
        (trapRun.run 33).top.pipeline.memWb.csrAddr := read
  rw [stale, real] at equal
  contradiction

end NpcMachine.Emulator
