/-
# Rtl.StraightLine -- the fetch stage runs straight ahead of EX

Between redirects `pc` is one word ahead of the youngest instruction of IF/ID and ID/EX,
and these two are neighbours (`PcWf`), in every run in every environment.
-/
import NpcMachine.Rtl.Invariant

namespace NpcMachine.Rtl

set_option autoImplicit false

namespace Pipeline

structure PcWf (p : Pipeline) : Prop where
  ifId : p.ifId.valid = true → p.pc = p.ifId.pc + 4#32
  idEx : p.ifId.valid = false → p.idEx.valid = true → p.pc = p.idEx.pc + 4#32
  both : p.ifId.valid = true → p.idEx.valid = true → p.ifId.pc = p.idEx.pc + 4#32

theorem pcWf_reset (p : Pipeline) : p.reset.PcWf := by
  constructor <;> intro valid <;> simp [reset]
  simp [reset] at valid

/-- What IF/ID and `pc` are after an edge that clears nothing. -/
theorem fetched_cases {p : Pipeline} {i : PipelineIn} (fetch : p.FetchWf) :
    (p.fetchCapture i = true ∧ (p.fetched i).valid = true ∧ (p.fetched i).pc = p.pc ∧
      (p.fetched i).inst = i.respFetchInst ∧ (p.fetched i).fetchFault = i.respFetchFault ∧
      (p.fetched i).fetchMisaligned = i.respFetchMisaligned ∧
      (p.ifId.valid = true → p.idStall i = false)) ∨
    (p.fetchCapture i = false ∧ p.idStall i = true ∧ p.fetched i = p.ifId) ∨
    (p.fetchCapture i = false ∧ (p.fetched i).valid = false ∧
      (p.ifId.valid = true → p.idStall i = false)) := by
  cases captures : p.fetchCapture i with
  | true =>
      left
      have accepts := (fetchCapture_accepts captures).2.1
      refine ⟨rfl, ?_⟩
      rw [fetched, if_pos captures]
      exact ⟨rfl, fetch.reqFetchAddr, rfl, rfl, rfl,
        fun valid => (ifIdAccept_of_valid accepts valid).1⟩
  | false =>
      right
      cases stalls : p.idStall i with
      | true => exact Or.inl ⟨rfl, rfl, by simp [fetched, captures, stalls]⟩
      | false =>
          refine Or.inr ⟨rfl, ?_, fun _ => rfl⟩
          cases valid : p.ifId.valid <;> simp [fetched, captures, stalls, valid]

/-- The same when ID hands on nothing: IF/ID was empty or keeps its instruction. -/
theorem fetched_cases_held {p : Pipeline} {i : PipelineIn} (fetch : p.FetchWf)
    (held : p.ifId.valid = true → p.idStall i = true) :
    (p.fetchCapture i = true ∧ p.ifId.valid = false ∧ (p.fetched i).valid = true ∧
      (p.fetched i).pc = p.pc) ∨
    (p.fetchCapture i = false ∧ p.fetched i = p.ifId) ∨
    (p.fetchCapture i = false ∧ p.ifId.valid = false ∧ (p.fetched i).valid = false) := by
  have empty (free : p.ifId.valid = true → p.idStall i = false) : p.ifId.valid = false := by
    by_contra other
    rw [Bool.not_eq_false] at other
    rw [free other] at held
    exact Bool.noConfusion (held other)
  rcases fetched_cases (i := i) fetch with
    ⟨captures, valid, addr, -, -, -, free⟩ | ⟨captures, -, kept⟩ | ⟨captures, none, free⟩
  · exact .inl ⟨captures, empty free, valid, addr⟩
  · exact .inr (.inl ⟨captures, kept⟩)
  · exact .inr (.inr ⟨captures, empty free, none⟩)

/-- The pc of the instruction that ID takes next. -/
def idPc (p : Pipeline) : Word := if p.ifId.valid then p.ifId.pc else p.pc

/-- ID stands one word behind EX. -/
theorem PcWf.idPc {p : Pipeline} (wf : p.PcWf) (valid : p.idEx.valid = true) :
    p.idPc = p.idEx.pc + 4#32 := by
  unfold Pipeline.idPc
  by_cases held : p.ifId.valid = true
  · rw [if_pos held]
    exact wf.both held valid
  · rw [if_neg held]
    exact wf.idEx (Bool.not_eq_true _ ▸ held) valid

theorem pcWf_of_idPc {p : Pipeline} (ifId : p.ifId.valid = true → p.pc = p.ifId.pc + 4#32)
    (idEx : p.idEx.valid = true → p.idPc = p.idEx.pc + 4#32) : p.PcWf where
  ifId := ifId
  idEx empty valid := by
    rw [← idEx valid, Pipeline.idPc, empty]
    rfl
  both held valid := by rw [← idEx valid, Pipeline.idPc, if_pos held]

section Edge

variable {p : Pipeline} {i : PipelineIn} (fetch : p.FetchWf) (ifId : (p.next i).ifId = p.fetched i)
  (pc : (p.next i).pc = if p.fetchCapture i then p.reqFetchAddr + 4#32 else p.pc)

include fetch ifId pc

/-- IF/ID keeps its instruction, or it was empty and the fetch goes on. -/
theorem next_idPc_held (held : p.ifId.valid = true → p.idStall i = true) :
    (p.next i).idPc = p.idPc := by
  unfold idPc
  rw [ifId, pc]
  rcases fetched_cases_held fetch held with
    ⟨captures, none, valid, addr⟩ | ⟨captures, kept⟩ | ⟨captures, none, empty⟩
  · rw [if_pos valid, addr, none]
    rfl
  · rw [kept, captures]
    rfl
  · rw [empty, captures, none]
    rfl

/-- ID hands on its instruction, and `pc` is the word behind it. -/
theorem next_idPc_moved (ready : p.idStall i = false) : (p.next i).idPc = p.pc := by
  unfold idPc
  rw [ifId, pc]
  rcases fetched_cases (i := i) fetch with
    ⟨captures, valid, addr, -⟩ | ⟨-, stalls, -⟩ | ⟨captures, empty, -⟩
  · rw [if_pos valid, addr]
  · rw [ready] at stalls
    contradiction
  · rw [empty, captures]
    rfl

theorem PcWf.next_ifId (wf : p.PcWf) (valid : (p.next i).ifId.valid = true) :
    (p.next i).pc = (p.next i).ifId.pc + 4#32 := by
  rw [ifId] at valid ⊢
  rw [pc]
  rcases fetched_cases (i := i) fetch with
    ⟨captures, -, addr, -⟩ | ⟨captures, -, kept⟩ | ⟨-, empty, -⟩
  · rw [captures, if_pos rfl, fetch.reqFetchAddr, addr]
  · rw [kept] at valid ⊢
    rw [captures, if_neg Bool.false_ne_true]
    exact wf.ifId valid
  · rw [empty] at valid
    contradiction

end Edge

theorem PcWf.next {p : Pipeline} (wf : p.PcWf) (fetch : p.FetchWf) (i : PipelineIn) :
    (p.next i).PcWf := by
  cases step_cases p i with
  | halt _ ifId idEx => constructor <;> intro valid <;> simp [ifId, idEx] at valid ⊢
  | trap _ _ ifId idEx => constructor <;> intro valid <;> simp [ifId, idEx] at valid ⊢
  | redirect _ _ _ _ ifId idEx => constructor <;> intro valid <;> simp [ifId, idEx] at valid ⊢
  | lost _ _ _ _ ifId idEx => constructor <;> intro valid <;> simp [ifId, idEx] at valid ⊢
  | wait _ _ _ waits ifId idEx _ _ pc =>
      apply pcWf_of_idPc (wf.next_ifId fetch ifId pc)
      intro valid
      rw [next_idPc_held fetch ifId pc fun _ => by simp [idStall, waits]]
      rw [idEx] at valid ⊢
      exact wf.idPc valid
  | stall _ _ _ _ stalls ifId idEx _ _ pc =>
      apply pcWf_of_idPc (wf.next_ifId fetch ifId pc)
      intro valid
      rw [idEx] at valid
      contradiction
  | flow _ _ _ _ ready ifId idEx _ _ pc =>
      apply pcWf_of_idPc (wf.next_ifId fetch ifId pc)
      intro valid
      rw [idEx] at valid ⊢
      rw [next_idPc_moved fetch ifId pc ready]
      exact wf.ifId valid

theorem pcWf_run (p : Pipeline) (ins : Nat → PipelineIn) (n : Nat) : (p.reset.run ins n).PcWf := by
  induction n with
  | zero => exact pcWf_reset p
  | succ n wf => exact wf.next (fetchWf_run p ins n) (ins n)

end Pipeline

end NpcMachine.Rtl
