/-
# Emulator.Outcome -- the ways out of `execute`

Some exits take the trap after a device or the RAM was asked.  A refused access changes
neither (`loadMem_refused`, `storeMem_refused`), so every trap leaves from the state before
the instruction, and an instruction that retires has made its CSR write or its access at
most and goes on at an aligned target or where the hart already points (`execute_outcome`).
`stepBody_cases` adds the failed fetch.
-/
import NpcMachine.Emulator.StepEvent

namespace NpcMachine.Emulator

set_option autoImplicit false

namespace EmulatorIss

variable {s : EmulatorIss} {d : DecodedInst}

/-! ## Refused accesses -/

theorem loadMem_refused {addr size : U32} (refused : (s.loadMem addr size).1 ≠ .ok) :
    (s.loadMem addr size).2.2 = s := by
  unfold loadMem at refused ⊢
  split_ifs at refused ⊢ with clint word uart
  · rfl
  · split <;> rfl
  · cases answer : s.uart.load size with
    | none => rfl
    | some out => rw [answer] at refused; exact absurd rfl refused
  · rfl

theorem storeMem_refused {addr size data : U32} (refused : (s.storeMem addr size data).1 ≠ .ok) :
    (s.storeMem addr size data).2 = s := by
  unfold storeMem at refused ⊢
  split_ifs at refused ⊢ with clint word uart
  · rfl
  · cases answer : s.clint.store addr size data with
    | none => rfl
    | some out => rw [answer] at refused; exact absurd rfl refused
  · cases answer : s.uart.store size data with
    | none => rfl
    | some out => rw [answer] at refused; exact absurd rfl refused
  · rw [Memory.store_of_not_ok refused]

/-! ## What an instruction moves before it retires -/

/-- The configuration of every part. -/
structure SameConfig (s after : EmulatorIss) : Prop where
  cfg : after.cfg = s.cfg
  memory : after.memory.cfg = s.memory.cfg
  clint : after.clint.cfg = s.clint.cfg

theorem SameConfig.refl (s : EmulatorIss) : SameConfig s s := ⟨rfl, rfl, rfl⟩

theorem SameConfig.trans {a b c : EmulatorIss} (left : SameConfig a b) (right : SameConfig b c) :
    SameConfig a c :=
  ⟨right.cfg.trans left.cfg, right.memory.trans left.memory, right.clint.trans left.clint⟩

/-- What no call but `step_inst` and `reset` moves. -/
structure Frame (s after : EmulatorIss) : Prop extends SameConfig s after where
  ring : after.ring = s.ring
  retireIdx : after.retireIdx = s.retireIdx

theorem Frame.refl (s : EmulatorIss) : Frame s s := ⟨.refl s, rfl, rfl⟩

theorem loadMem_frame (addr size : U32) : Frame s (s.loadMem addr size).2.2 := by
  unfold loadMem
  split_ifs
  · exact .refl s
  · split <;> exact .refl s
  · split <;> exact ⟨⟨rfl, rfl, rfl⟩, rfl, rfl⟩
  · exact .refl s

theorem store_config {c : Clint} {addr size data : U32} {after : Clint}
    (stores : c.store addr size data = some after) : after.cfg = c.cfg := by
  unfold Clint.store at stores
  split_ifs at stores <;> cases stores <;> rfl

theorem storeMem_frame (addr size data : U32) : Frame s (s.storeMem addr size data).2 := by
  unfold storeMem
  split_ifs
  · exact .refl s
  · cases answer : s.clint.store addr size data with
    | none => exact .refl s
    | some after => exact ⟨⟨rfl, rfl, store_config answer⟩, rfl, rfl⟩
  · split <;> exact ⟨⟨rfl, rfl, rfl⟩, rfl, rfl⟩
  · exact ⟨⟨rfl, Memory.store_cfg addr size data, rfl⟩, rfl, rfl⟩

/-- The state that an instruction leaves to its retirement: the CSR write or the access is
made, and nothing else. -/
inductive Moved (s : EmulatorIss) (d : DecodedInst) : EmulatorIss → Prop where
  | nothing : Moved s d s
  | csr (hart : Hart) : Moved s d { s with hart := hart }
  | load (addr : U32) : Moved s d (s.loadMem addr (accessSize d.type)).2.2
  | store (checked : reservedReg d = false) (type : d.type = .sb ∨ d.type = .sh ∨ d.type = .sw) :
      Moved s d (s.storeMem (s.hart.readReg d.rs1 + d.imm) (accessSize d.type)
        (s.hart.readReg d.rs2)).2

theorem Moved.frame {moved : EmulatorIss} (moves : Moved s d moved) : Frame s moved := by
  cases moves with
  | nothing => exact .refl s
  | csr hart => exact ⟨⟨rfl, rfl, rfl⟩, rfl, rfl⟩
  | load addr => exact loadMem_frame addr _
  | store checked type => exact storeMem_frame _ _ _

/-- Where an instruction that retires goes on. -/
def GoesOn (s : EmulatorIss) (next : U32) : Prop :=
  next = s.hart.pc + 4#32 ∨ next = s.hart.mepc ∨ next &&& 3#32 = 0#32

/-! ## The ways out -/

/-- A trap from the state before the instruction, or a retirement. -/
inductive Outcome (s : EmulatorIss) (d : DecodedInst) : EmulatorIss × CommitEvent → Prop where
  | trap (cause : U32) : Outcome s d (s.trap d cause)
  | halt : Outcome s d
      (EmulatorIss.trap { s with hart := { s.hart with halted := true } } d causeBreakpoint)
  | retire (moved : EmulatorIss) (rd value next : U32) (moves : Moved s d moved)
      (on : GoesOn s next) : Outcome s d (moved.retire d rd value next)

theorem jump_outcome (target : U32) : Outcome s d (s.jump d target) := by
  unfold jump
  split_ifs with off
  · exact .trap _
  · exact .retire s _ _ _ .nothing (.inr (.inr (not_not.mp off)))

theorem branch_outcome (taken : Bool) : Outcome s d (s.branch d taken) := by
  unfold branch
  simp only
  generalize (if taken = true then s.hart.pc + d.imm else s.hart.pc + 4#32) = next
  split_ifs with off
  · exact .trap _
  · refine .retire s _ _ _ .nothing ?_
    by_cases straight : next = s.hart.pc + 4#32
    · exact .inl straight
    · exact .inr (.inr (by_contra fun other => off ⟨straight, other⟩))

/-- A refused access traps from where it started, and a granted one retires behind it. -/
theorem access_outcome {result : MemResult} {moved : EmulatorIss} (moves : Moved s d moved)
    (refused : result ≠ .ok → moved = s) (hart : moved.hart = s.hart)
    (rd value misaligned fault : U32) :
    Outcome s d
      (match result with
      | .ok => moved.retire d rd value (moved.hart.pc + 4#32)
      | .misaligned => moved.trap d misaligned
      | .accessFault => moved.trap d fault) := by
  cases result with
  | ok =>
      refine .retire moved _ _ _ moves (.inl ?_)
      rw [hart]
  | misaligned =>
      obtain rfl : moved = s := refused (by simp)
      exact .trap _
  | accessFault =>
      obtain rfl : moved = s := refused (by simp)
      exact .trap _

theorem executeLoad_outcome (addr : U32) : Outcome s d (s.executeLoad d addr) := by
  have refused : (s.loadMem addr (accessSize d.type)).1 ≠ .ok →
      (s.loadMem addr (accessSize d.type)).2.2 = s := loadMem_refused
  have hart := s.loadMem_hart addr (accessSize d.type)
  have moves : Moved s d (s.loadMem addr (accessSize d.type)).2.2 := .load addr
  unfold executeLoad
  rcases answer : s.loadMem addr (accessSize d.type) with ⟨result, value, after⟩
  rw [answer] at refused hart moves
  have out := access_outcome moves refused hart d.rd (loadValue d.type value)
    causeLoadMisaligned causeLoadAccessFault
  cases result with
  | ok => exact out
  | misaligned => exact out
  | accessFault => exact out

theorem executeStore_outcome {addr data : U32}
    (moves : Moved s d (s.storeMem addr (accessSize d.type) data).2) :
    Outcome s d (s.executeStore d addr data) := by
  have refused : (s.storeMem addr (accessSize d.type) data).1 ≠ .ok →
      (s.storeMem addr (accessSize d.type) data).2 = s := storeMem_refused
  have hart := s.storeMem_hart addr (accessSize d.type) data
  unfold executeStore
  rcases answer : s.storeMem addr (accessSize d.type) data with ⟨result, after⟩
  rw [answer] at refused hart moves
  have out := access_outcome moves refused hart 0#32 0#32
    causeStoreMisaligned causeStoreAccessFault
  cases result with
  | ok => exact out
  | misaligned => exact out
  | accessFault => exact out

theorem executeCsr_outcome : Outcome s d (s.executeCsr d) := by
  unfold executeCsr
  cases s.hart.readCsr d.csr with
  | none => exact .trap _
  | some old =>
      simp only
      generalize csrUpdate d old (if d.isCsrImm then d.imm else s.hart.readReg d.rs1) = update
      generalize (if d.rd ≠ 0#32 then old else 0#32) = rdValue
      cases update.2 with
      | false => exact .retire s _ _ _ .nothing (.inl rfl)
      | true =>
          cases s.hart.writeCsr d.csr update.1 with
          | none => exact .trap _
          | some hart => exact .retire { s with hart := hart } _ _ _ (.csr hart) (.inl rfl)

theorem execute_outcome (s : EmulatorIss) (d : DecodedInst) : Outcome s d (s.execute d) := by
  cases checked : reservedReg d with
  | true =>
      rw [execute, if_pos checked]
      exact .trap _
  | false =>
      cases type : d.type with
      | addi | slti | sltiu | xori | ori | andi | slli | srli | srai | add | sub | sll | slt
      | sltu | xor | srl | sra | or | and | lui | auipc | fence | fenceI | wfi =>
          simp only [execute, checked, type, Bool.false_eq_true, if_false]
          exact .retire s _ _ _ .nothing (.inl rfl)
      | mret =>
          simp only [execute, checked, type, Bool.false_eq_true, if_false]
          exact .retire s _ _ _ .nothing (.inr (.inl rfl))
      | jal | jalr =>
          simp only [execute, checked, type, Bool.false_eq_true, if_false]
          exact jump_outcome _
      | beq | bne | blt | bge | bltu | bgeu =>
          simp only [execute, checked, type, Bool.false_eq_true, if_false]
          exact branch_outcome _
      | lb | lh | lw | lbu | lhu =>
          simp only [execute, checked, type, Bool.false_eq_true, if_false]
          exact executeLoad_outcome _
      | sb | sh | sw =>
          simp only [execute, checked, type, Bool.false_eq_true, if_false]
          exact executeStore_outcome (.store checked (by simp [type]))
      | csrrw | csrrs | csrrc | csrrwi | csrrsi | csrrci =>
          simp only [execute, checked, type, Bool.false_eq_true, if_false]
          exact executeCsr_outcome
      | ecall | unknown =>
          simp only [execute, checked, type, Bool.false_eq_true, if_false]
          exact .trap _
      | ebreak =>
          simp only [execute, checked, type, Bool.false_eq_true, if_false]
          exact .halt

/-! ## The ways through a step -/

/-- The fetch fails, or the instruction that it returns goes one of its ways. -/
inductive BodyCase (s : EmulatorIss) : EmulatorIss × CommitEvent → Prop where
  | fetch (inst cause : U32) : BodyCase s (s.fetchTrap inst cause)
  | execute {d : DecodedInst} {out : EmulatorIss × CommitEvent} (outcome : Outcome s d out) :
      BodyCase s out

theorem stepBody_cases (s : EmulatorIss) : BodyCase s s.stepBody := by
  unfold stepBody
  rcases s.memory.fetch s.hart.pc 0#32 with ⟨result, inst⟩
  cases result with
  | misaligned => exact .fetch inst causeInstMisaligned
  | accessFault => exact .fetch inst causeInstAccessFault
  | ok => exact .execute (s.execute_outcome (decode inst))

theorem Outcome.config {out : EmulatorIss × CommitEvent} (outcome : Outcome s d out) :
    SameConfig s out.1 := by
  cases outcome with
  | trap cause => exact ⟨rfl, rfl, rfl⟩
  | halt => exact ⟨rfl, rfl, rfl⟩
  | retire moved rd value next moves on =>
      exact ⟨moves.frame.cfg, moves.frame.memory, moves.frame.clint⟩

/-- The configuration stays over a step. -/
theorem stepBody_config (s : EmulatorIss) : SameConfig s s.stepBody.1 := by
  have ways := s.stepBody_cases
  generalize s.stepBody = out at ways ⊢
  cases ways with
  | fetch inst cause => exact ⟨rfl, rfl, rfl⟩
  | execute outcome => exact outcome.config

theorem config_run (s : EmulatorIss) (n : Nat) : SameConfig s (s.run n) := by
  apply run_invariant (.refl s)
  intro t after ev same step
  have body := t.stepBody_config
  obtain ⟨-, rfl, rfl⟩ := stepInst_some step
  exact same.trans ⟨body.cfg, body.memory, body.clint⟩

end EmulatorIss

end NpcMachine.Emulator
