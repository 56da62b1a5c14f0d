/-
# Rtl.DebugPort -- what the debug outputs show

`debug_pc` looks at the fetch end of the pipeline.  Without lost redirects the instructions
in flight form a chain (`Chained`): each one goes on at the next one behind it, and the
youngest at the fetch.  So in the cycle of a commit `debug_pc` is where the commit goes on
exactly when nothing stands between WB and the fetch, but for an instruction in MEM that
goes on at itself (`debugPc_eq_iff`).
-/
import NpcMachine.Rtl.StraightLine

namespace NpcMachine.Rtl

set_option autoImplicit false

/-! The debug ports of the two files repeat the equation and the case statement of a read
port. -/

def Regfile.debugData (r : Regfile) (addr : BitVec 4) : Word := r.read addr
def CsrFile.debugData (c : CsrFile) (addr : BitVec 12) : Word := c.readData addr

namespace Pipeline

variable (p : Pipeline)

def debugPc : Word :=
  if p.ifId.valid then p.ifId.pc else if p.fetchPending then p.fetchPc else p.pc

/-- The pc of the oldest instruction behind MEM. -/
def frontPc : Word := if p.idEx.valid then p.idEx.pc else p.idPc

/-- The pc of the oldest instruction behind WB. -/
def behindWbPc : Word := if p.exMem.valid then p.exMem.pc else p.frontPc

variable {p} {i : PipelineIn}

/-- A pending fetch asks for `pc`. -/
theorem FetchWf.debugPc (fetch : p.FetchWf) : p.debugPc = p.idPc := by
  unfold Pipeline.debugPc idPc
  by_cases pending : p.fetchPending = true
  · rw [if_pos pending, fetch.addr pending]
  · rw [if_neg pending]

/-! ## The chain -/

structure Chained (p : Pipeline) : Prop where
  exMem : p.exMem.valid = true → p.exMem.nextPc = p.frontPc
  memWb : p.memWb.valid = true → p.memWb.nextPc = p.behindWbPc
  /-- In front of an occupied ID/EX stands an instruction that did not redirect. -/
  straight : p.exMem.valid = true → p.idEx.valid = true →
    p.exMem.nextPc = p.exMem.pc + 4#32

theorem chained_reset (p : Pipeline) : p.reset.Chained := by
  constructor <;> intro valid <;> simp [reset] at valid

/-- An instruction that does not redirect goes on at the next word. -/
theorem exNextPc_of_straight (valid : p.idEx.valid = true) (straight : p.exRedirect = false) :
    p.exNextPc = p.idEx.pc + 4#32 := by
  simp only [exRedirect, valid, Bool.true_and, Bool.or_eq_false_iff] at straight
  obtain ⟨⟨⟨quiet, noMret⟩, noJump⟩, untaken⟩ := straight
  simp [exNextPc, quiet, noMret, noJump, untaken]

section Edge

variable (fetch : p.FetchWf) (ifId : (p.next i).ifId = p.fetched i)
  (pc : (p.next i).pc = if p.fetchCapture i then p.reqFetchAddr + 4#32 else p.pc)

include fetch ifId pc

/-- After a stall and after a wait behind which EX is empty. -/
theorem next_frontPc_held (held : p.ifId.valid = true → p.idStall i = true)
    (empty : (p.next i).idEx.valid = false) : (p.next i).frontPc = p.idPc := by
  rw [frontPc, empty, ← next_idPc_held fetch ifId pc held]
  rfl

/-- After an edge on which ID hands on what it holds. -/
theorem next_frontPc_moved (idEx : (p.next i).idEx = p.decoded) :
    (p.next i).frontPc = p.idPc := by
  by_cases valid : p.ifId.valid = true
  · have taken : (p.next i).idEx.valid = true := by
      rw [idEx]
      exact valid
    rw [frontPc, if_pos taken, idPc, if_pos valid, idEx]
    rfl
  · apply next_frontPc_held fetch ifId pc (fun other => absurd other valid)
    rw [idEx]
    exact Bool.not_eq_true _ ▸ valid

end Edge

/-- EX and MEM move on straight, and `frontPc` becomes what `idPc` was. -/
theorem Chained.advance (chained : p.Chained) (pcs : p.PcWf) (fine : p.memRedirect i = false)
    (straight : p.exRedirect = false) (exMem : (p.next i).exMem = p.executed)
    (memWb : (p.next i).memWb = p.accessed i) (front : (p.next i).frontPc = p.idPc) :
    (p.next i).Chained where
  exMem valid := by
    rw [exMem] at valid ⊢
    rw [front, pcs.idPc valid]
    exact exNextPc_of_straight valid straight
  memWb valid := by
    rw [memWb] at valid ⊢
    rw [accessed_nextPc fine, chained.exMem valid, behindWbPc, front, exMem]
    rfl
  straight valid _ := by
    rw [exMem] at valid ⊢
    exact exNextPc_of_straight valid straight

theorem Chained.next (chained : p.Chained) (pcs : p.PcWf) (fetch : p.FetchWf)
    (empty : p.memAccessWait i = true → p.idEx.valid = false) : (p.next i).Chained := by
  cases step_cases p i with
  | halt _ _ _ exMem memWb =>
      constructor <;> intro valid <;> simp [exMem, memWb] at valid
  | trap _ faults ifId idEx exMem memWb pc =>
      refine ⟨by simp [exMem], fun _ => ?_, by simp [exMem]⟩
      have traps : p.memNewException i = true := faults
      rw [memWb, behindWbPc, frontPc, idPc, exMem, idEx, ifId, pc]
      simp [accessed, traps]
  | redirect _ fine redirects _ ifId idEx exMem memWb pc =>
      have valid := exRedirect_valid redirects
      have front : (p.next i).frontPc = p.exNextPc := by
        simp [frontPc, idPc, idEx, ifId, pc]
      refine ⟨fun _ => ?_, fun held => ?_, by simp [idEx]⟩
      · rw [exMem, front]
        rfl
      · rw [memWb] at held ⊢
        rw [accessed_nextPc fine, chained.exMem held, behindWbPc, exMem, frontPc, if_pos valid]
        exact (if_pos valid).symm
  | lost _ _ redirects waits =>
      have valid := exRedirect_valid redirects
      rw [empty waits] at valid
      contradiction
  | wait _ _ _ waits ifId idEx exMem memWb pc =>
      have none := empty waits
      have stalls : p.idStall i = true := by simp [idStall, waits]
      have front : (p.next i).frontPc = p.frontPc := by
        rw [next_frontPc_held fetch ifId pc (fun _ => stalls) (by rw [idEx]; exact none), frontPc,
          none]
        rfl
      refine ⟨fun valid => ?_, by simp [memWb], by simp [idEx, none]⟩
      rw [exMem] at valid ⊢
      rw [front]
      exact chained.exMem valid
  | stall _ fine straight _ stalls ifId idEx exMem memWb pc =>
      exact chained.advance pcs fine straight exMem memWb
        (next_frontPc_held fetch ifId pc (fun _ => stalls) (by simp [idEx]))
  | flow _ fine straight _ _ ifId idEx exMem memWb pc =>
      exact chained.advance pcs fine straight exMem memWb
        (next_frontPc_moved fetch ifId pc idEx)

/-! ## The debug pc in the cycle of a commit -/

/-- Nothing stands between WB and the fetch, but for an instruction in MEM that goes on at
itself. -/
structure AloneInFlight (p : Pipeline) : Prop where
  idEx : p.idEx.valid = false
  exMem : p.exMem.valid = true → p.exMem.nextPc = p.exMem.pc

theorem add_ne_self (a : Word) {b : Word} (other : b ≠ 0#32) : a + b ≠ a := by
  intro same
  apply other
  bv_omega

theorem debugPc_eq_iff (chained : p.Chained) (pcs : p.PcWf) (fetch : p.FetchWf)
    (valid : p.memWb.valid = true) : p.debugPc = p.commitNextPc ↔ p.AloneInFlight := by
  rw [fetch.debugPc, commitNextPc, chained.memWb valid, behindWbPc]
  by_cases ex : p.idEx.valid = true
  · -- `debug_pc` is the word behind the instruction in EX.
    have apart : ¬ p.AloneInFlight := by
      intro alone
      rw [alone.idEx] at ex
      contradiction
    refine ⟨fun same => ?_, fun alone => absurd alone apart⟩
    rw [pcs.idPc ex] at same
    by_cases mem : p.exMem.valid = true
    · have next := chained.exMem mem
      rw [chained.straight mem ex, frontPc, if_pos ex] at next
      rw [if_pos mem, ← next, BitVec.add_assoc] at same
      exact absurd same (add_ne_self _ (by decide))
    · rw [if_neg mem, frontPc, if_pos ex] at same
      exact absurd same (add_ne_self _ (by decide))
  · have none : p.idEx.valid = false := Bool.not_eq_true _ ▸ ex
    have front : p.frontPc = p.idPc := by rw [frontPc, if_neg ex]
    by_cases mem : p.exMem.valid = true
    · rw [if_pos mem, ← front, ← chained.exMem mem]
      exact ⟨fun same => ⟨none, fun _ => same⟩, fun alone => alone.exMem mem⟩
    · rw [if_neg mem, front]
      exact ⟨fun _ => ⟨none, fun other => absurd other mem⟩, fun _ => rfl⟩

end Pipeline

end NpcMachine.Rtl
