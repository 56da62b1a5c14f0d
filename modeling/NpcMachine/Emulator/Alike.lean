/-
# Emulator.Alike -- states of the reference model that run alike

`Alike` states differ in the ring, the count of events, the UART output and the bytes
outside the RAM, which no instruction reads, and in the CLINT counter, which a program reads
by `clockRead` only.  As long as the clock reads are equal, the events are
(`Alike.stepInst`), and a clock read shows in its event (`clockRead_of_event`).
-/
import NpcMachine.Emulator.Loaders

namespace NpcMachine.Emulator

set_option autoImplicit false

/-! ## Memories -/

namespace Memory

/-- Index `j` is a byte of a RAM that fits the address space. -/
def Backed (m : Memory) (j : Nat) : Prop :=
  m.inRam m.cfg.ramBase m.cfg.ramSize = true ∧ j < m.cfg.ramSize.toNat

/-- The same bytes in the RAM. -/
structure SameRam (m other : Memory) : Prop where
  cfg : other.cfg = m.cfg
  ram : ∀ j, m.Backed j → other.ram j = m.ram j

variable {m other : Memory}

/-- The bytes of an access lie in the RAM. -/
theorem backed_of_inRam {addr size : U32} (inside : m.inRam addr size = true) {k : Nat}
    (below : k < size.toNat) : m.Backed (m.index addr + k) := by
  have whole : m.inRam m.cfg.ramBase m.cfg.ramSize = true := by
    by_contra none
    rw [inRam_of_whole (Bool.not_eq_true _ ▸ none)] at inside
    contradiction
  refine ⟨whole, ?_⟩
  have at_ := index_of_inRam inside
  have addrBound := addr.isLt
  have sizeBound := m.cfg.ramSize.isLt
  unfold inRam at inside whole
  split_ifs at inside whole with _ low _ wraps
  simp only [BitVec.ult, BitVec.ule, decide_eq_true_eq, BitVec.toNat_add, Nat.not_lt] at *
  omega

namespace SameRam

theorem refl (m : Memory) : SameRam m m := ⟨rfl, fun _ _ => rfl⟩

variable (same : SameRam m other)
include same

theorem fetch (addr out : U32) : other.fetch addr out = m.fetch addr out := by
  unfold Memory.fetch
  rw [inRam_of_cfg same.cfg, index_of_cfg same.cfg]
  cases inside : m.inRam addr 4#32 with
  | false => rfl
  | true =>
      have byte (k : Nat) (below : k < 4) : other.ram (m.index addr + k) = m.ram (m.index addr + k) :=
        same.ram _ (backed_of_inRam inside below)
      have first := byte 0 (by omega)
      rw [Nat.add_zero] at first
      simp only [readLe32, first, byte 1 (by omega), byte 2 (by omega), byte 3 (by omega)]

theorem load (addr size out : U32) : other.load addr size out = m.load addr size out := by
  have byte (inside : m.inRam addr size = true) (k : Nat) (below : k < size.toNat) :
      other.ram (m.index addr + k) = m.ram (m.index addr + k) :=
    same.ram _ (backed_of_inRam inside below)
  unfold Memory.load
  rw [inRam_of_cfg same.cfg, index_of_cfg same.cfg, same.cfg]
  split_ifs with bad off inside one two
  · rfl
  · rfl
  · subst one
    have first := byte inside 0 (by decide)
    rw [Nat.add_zero] at first
    simp only [readLe8, first]
  · subst two
    have first := byte inside 0 (by decide)
    rw [Nat.add_zero] at first
    simp only [readLe16, first, byte inside 1 (by decide)]
  · have four : size = 4#32 := by
      simp only [badSize, Bool.and_eq_true, bne_iff_ne] at bad
      by_contra none
      exact bad ⟨⟨one, two⟩, none⟩
    subst four
    have first := byte inside 0 (by decide)
    rw [Nat.add_zero] at first
    simp only [readLe32, first, byte inside 1 (by decide), byte inside 2 (by decide),
      byte inside 3 (by decide)]
  · rfl
  · rfl

theorem store (addr size data : U32) :
    (other.store addr size data).1 = (m.store addr size data).1 ∧
      SameRam (m.store addr size data).2 (other.store addr size data).2 := by
  refine ⟨store_result other same.cfg addr size data, ?_, ?_⟩
  · rw [store_cfg, store_cfg]
    exact same.cfg
  · intro j backed
    rw [Backed, inRam_store, store_cfg] at backed
    exact store_ram_congr same.cfg (same.ram j backed) addr size data

end SameRam

end Memory

/-! ## Devices -/

/-- A load answers from the input queue alone. -/
theorem Uart.load_input {u v : Uart} (same : v.input = u.input) (size : U32) :
    (v.load size).map (fun out => (out.1, out.2.input)) =
      (u.load size).map fun out => (out.1, out.2.input) := by
  unfold Uart.load
  rw [same]
  split_ifs
  · rfl
  · cases input : u.input with
    | nil => simp [input, same]
    | cons ch rest => rfl

/-- The answer to a store reads the configuration alone. -/
theorem Clint.store_answer {c d : Clint} (same : d.cfg = c.cfg) (addr size data : U32) :
    (d.store addr size data).map Clint.cfg = (c.store addr size data).map Clint.cfg := by
  unfold Clint.store
  rw [same]
  split_ifs <;> simp [same]

theorem Clint.load_isSome {c d : Clint} (same : d.cfg = c.cfg) (addr size : U32) :
    (d.load addr size).isSome = (c.load addr size).isSome := by
  unfold Clint.load
  rw [same]
  split_ifs <;> rfl

/-! ## States -/

namespace EmulatorIss

/-- States that a program tells apart by the CLINT counter only; under `P` not even so. -/
structure Alike (P : Prop) (a b : EmulatorIss) : Prop where
  cfg : b.cfg = a.cfg
  hart : b.hart = a.hart
  memory : a.memory.SameRam b.memory
  clintCfg : b.clint.cfg = a.clint.cfg
  clint : P → b.clint = a.clint
  input : b.uart.input = a.uart.input
  cycle : b.cycle = a.cycle

/-- The value that the next instruction loads from the CLINT. -/
def clockRead (s : EmulatorIss) : Option U32 :=
  if s.hart.halted then none
  else
    match s.memory.fetch s.hart.pc 0#32 with
    | (.ok, inst) =>
        let d := decode inst
        let addr := s.hart.readReg d.rs1 + d.imm
        if reservedReg d = false ∧ d.type = .lw ∧ s.cfg.inClint addr = true then
          s.clint.load addr 4#32
        else none
    | _ => none

/-- Equal events, and states alike. -/
def AlikeOut (P : Prop) (x y : EmulatorIss × CommitEvent) : Prop := y.2 = x.2 ∧ Alike P x.1 y.1

namespace Alike

variable {P : Prop} {a b : EmulatorIss}

variable (alike : Alike P a b)
include alike

theorem trap (d : DecodedInst) (cause : U32) : AlikeOut P (a.trap d cause) (b.trap d cause) := by
  constructor
  · simp only [EmulatorIss.trap, alike.hart, alike.cycle]
  · exact { alike with hart := congrArg (fun h => h.takeException cause) alike.hart }

theorem fetchTrap (inst cause : U32) :
    AlikeOut P (a.fetchTrap inst cause) (b.fetchTrap inst cause) := by
  constructor
  · simp only [EmulatorIss.fetchTrap, alike.hart, alike.cycle]
  · exact { alike with hart := congrArg (fun h => h.takeException cause) alike.hart }

theorem retire (d : DecodedInst) (rd rdValue nextPc : U32) :
    AlikeOut P (a.retire d rd rdValue nextPc) (b.retire d rd rdValue nextPc) := by
  constructor
  · simp only [EmulatorIss.retire, alike.hart, alike.cycle]
  · refine { alike with hart := ?_ }
    simp only [EmulatorIss.retire, EmulatorIss.commit, alike.hart]

theorem withHart (h : Hart) : Alike P { a with hart := h } { b with hart := h } :=
  { alike with hart := rfl }

theorem jump (d : DecodedInst) (target : U32) : AlikeOut P (a.jump d target) (b.jump d target) := by
  unfold EmulatorIss.jump
  rw [alike.hart]
  split_ifs
  · exact alike.trap d _
  · exact alike.retire d _ _ _

theorem branch (d : DecodedInst) (taken : Bool) :
    AlikeOut P (a.branch d taken) (b.branch d taken) := by
  unfold EmulatorIss.branch
  rw [alike.hart]
  simp only
  split_ifs
  all_goals first | exact alike.trap d _ | exact alike.retire d _ _ _

theorem loadMem (addr size : U32) (clock : a.cfg.inClint addr = true → size = 4#32 →
      b.clint.load addr size = a.clint.load addr size) :
    (b.loadMem addr size).1 = (a.loadMem addr size).1 ∧
      (b.loadMem addr size).2.1 = (a.loadMem addr size).2.1 ∧
      Alike P (a.loadMem addr size).2.2 (b.loadMem addr size).2.2 := by
  unfold EmulatorIss.loadMem
  rw [alike.cfg]
  split_ifs with clint narrow uart
  · exact ⟨rfl, rfl, alike⟩
  · rw [clock clint (not_not.mp narrow)]
    cases a.clint.load addr size with
    | none => exact ⟨rfl, rfl, alike⟩
    | some value => exact ⟨rfl, rfl, alike⟩
  · have answers := Uart.load_input alike.input size
    cases left : a.uart.load size with
    | none =>
        have right : b.uart.load size = none := by simpa [left] using answers
        rw [right]
        exact ⟨rfl, rfl, alike⟩
    | some out =>
        obtain ⟨value, uart⟩ := out
        obtain ⟨⟨value', uart'⟩, right, same⟩ : ∃ out, b.uart.load size = some out ∧
            (out.1, out.2.input) = (value, uart.input) := by
          simpa [left] using answers
        rw [right]
        simp only [Prod.mk.injEq] at same
        exact ⟨rfl, same.1, { alike with cfg := rfl, input := same.2 }⟩
  · rw [alike.memory.load]
    exact ⟨rfl, rfl, alike⟩

theorem storeMem (addr size data : U32) :
    (b.storeMem addr size data).1 = (a.storeMem addr size data).1 ∧
      Alike P (a.storeMem addr size data).2 (b.storeMem addr size data).2 := by
  unfold EmulatorIss.storeMem
  rw [alike.cfg]
  split_ifs with clint narrow uart
  · exact ⟨rfl, alike⟩
  · have answers := Clint.store_answer alike.clintCfg addr size data
    cases left : a.clint.store addr size data with
    | none =>
        have right : b.clint.store addr size data = none := by simpa [left] using answers
        rw [right]
        exact ⟨rfl, alike⟩
    | some stored =>
        obtain ⟨stored', right, same⟩ : ∃ out, b.clint.store addr size data = some out ∧
            out.cfg = stored.cfg := by
          simpa [left] using answers
        rw [right]
        refine ⟨rfl, { alike with cfg := rfl, clintCfg := same, clint := fun p => ?_ }⟩
        rw [alike.clint p, left] at right
        exact (Option.some_inj.mp right).symm
  · unfold Uart.store
    split_ifs
    · exact ⟨rfl, alike⟩
    · exact ⟨rfl, { alike with cfg := rfl, input := alike.input }⟩
  · obtain ⟨result, same⟩ := alike.memory.store addr size data
    exact ⟨result, { alike with cfg := rfl, memory := same }⟩

theorem executeLoad (d : DecodedInst) (addr : U32)
    (clock : a.cfg.inClint addr = true → accessSize d.type = 4#32 →
      b.clint.load addr (accessSize d.type) = a.clint.load addr (accessSize d.type)) :
    AlikeOut P (a.executeLoad d addr) (b.executeLoad d addr) := by
  obtain ⟨result, value, after⟩ := alike.loadMem addr (accessSize d.type) clock
  unfold EmulatorIss.executeLoad
  rcases left : a.loadMem addr (accessSize d.type) with ⟨res, val, next⟩
  rcases right : b.loadMem addr (accessSize d.type) with ⟨res', val', next'⟩
  rw [left, right] at result value after
  obtain rfl : res' = res := result
  obtain rfl : val' = val := value
  cases res' with
  | ok =>
      simp only
      rw [show next'.hart = next.hart from after.hart]
      exact after.retire d _ _ _
  | misaligned => exact after.trap d _
  | accessFault => exact after.trap d _

theorem executeStore (d : DecodedInst) (addr data : U32) :
    AlikeOut P (a.executeStore d addr data) (b.executeStore d addr data) := by
  obtain ⟨result, after⟩ := alike.storeMem addr (accessSize d.type) data
  unfold EmulatorIss.executeStore
  rcases left : a.storeMem addr (accessSize d.type) data with ⟨res, next⟩
  rcases right : b.storeMem addr (accessSize d.type) data with ⟨res', next'⟩
  rw [left, right] at result after
  obtain rfl : res' = res := result
  cases res' with
  | ok =>
      simp only
      rw [show next'.hart = next.hart from after.hart]
      exact after.retire d _ _ _
  | misaligned => exact after.trap d _
  | accessFault => exact after.trap d _

theorem executeCsr (d : DecodedInst) : AlikeOut P (a.executeCsr d) (b.executeCsr d) := by
  unfold EmulatorIss.executeCsr
  rw [alike.hart]
  cases a.hart.readCsr d.csr with
  | none => exact alike.trap d _
  | some old =>
      simp only
      split_ifs
      all_goals first
        | exact alike.retire d _ _ _
        | cases a.hart.writeCsr d.csr _ with
          | none => exact alike.trap d _
          | some hart => exact (alike.withHart hart).retire d _ _ _

/-- The load of the next instruction from the CLINT reads the same. -/
def ClockAlike (a b : EmulatorIss) (d : DecodedInst) : Prop :=
  let addr := a.hart.readReg d.rs1 + d.imm
  reservedReg d = false → d.type = .lw → a.cfg.inClint addr = true →
    b.clint.load addr 4#32 = a.clint.load addr 4#32

omit alike in
theorem accessSize_four {type : InstType} (load : type = .lb ∨ type = .lh ∨ type = .lw ∨
    type = .lbu ∨ type = .lhu) (word : accessSize type = 4#32) : type = .lw := by
  rcases load with rfl | rfl | rfl | rfl | rfl <;> first | rfl | exact absurd word (by decide)

theorem execute (d : DecodedInst) (clock : ClockAlike a b d) :
    AlikeOut P (a.execute d) (b.execute d) := by
  cases checked : reservedReg d with
  | true =>
      rw [EmulatorIss.execute, EmulatorIss.execute, if_pos checked, if_pos checked]
      exact alike.trap d _
  | false =>
      have hart := alike.hart
      have loads (load : d.type = .lb ∨ d.type = .lh ∨ d.type = .lw ∨ d.type = .lbu ∨
          d.type = .lhu) := alike.executeLoad d (a.hart.readReg d.rs1 + d.imm)
        fun clint word => by
          rw [word]
          exact clock checked (accessSize_four load word) clint
      cases type : d.type with
      | addi | slti | sltiu | xori | ori | andi | slli | srli | srai | add | sub | sll | slt
      | sltu | xor | srl | sra | or | and | lui | auipc | fence | fenceI | wfi | mret =>
          simp only [EmulatorIss.execute, checked, type, Bool.false_eq_true, if_false, hart]
          exact alike.retire d _ _ _
      | jal | jalr =>
          simp only [EmulatorIss.execute, checked, type, Bool.false_eq_true, if_false, hart]
          exact alike.jump d _
      | beq | bne | blt | bge | bltu | bgeu =>
          simp only [EmulatorIss.execute, checked, type, Bool.false_eq_true, if_false, hart]
          exact alike.branch d _
      | lb | lh | lw | lbu | lhu =>
          simp only [EmulatorIss.execute, checked, type, Bool.false_eq_true, if_false, hart]
          exact loads (by simp [type])
      | sb | sh | sw =>
          simp only [EmulatorIss.execute, checked, type, Bool.false_eq_true, if_false, hart]
          exact alike.executeStore d _ _
      | csrrw | csrrs | csrrc | csrrwi | csrrsi | csrrci =>
          simp only [EmulatorIss.execute, checked, type, Bool.false_eq_true, if_false]
          exact alike.executeCsr d
      | ecall | unknown =>
          simp only [EmulatorIss.execute, checked, type, Bool.false_eq_true, if_false]
          exact alike.trap d _
      | ebreak =>
          simp only [EmulatorIss.execute, checked, type, Bool.false_eq_true, if_false, hart]
          exact (alike.withHart _).trap d _

/-! ## Steps -/

theorem tick : Alike P a.tick b.tick :=
  { alike with
    clintCfg := alike.clintCfg
    clint := fun p => congrArg Clint.tick (alike.clint p)
    cycle := congrArg (fun cycle => cycle + 1#64) alike.cycle }

theorem stepBody (running : a.hart.halted = false) (clock : b.clockRead = a.clockRead) :
    AlikeOut P a.stepBody b.stepBody := by
  have fetch := alike.memory.fetch a.hart.pc 0#32
  unfold clockRead at clock
  unfold EmulatorIss.stepBody
  rw [alike.hart, fetch] at clock ⊢
  rcases fetched : a.memory.fetch a.hart.pc 0#32 with ⟨result, inst⟩
  rw [fetched] at clock
  cases result with
  | misaligned => exact alike.fetchTrap _ _
  | accessFault => exact alike.fetchTrap _ _
  | ok =>
      apply alike.execute
      intro checked type clint
      simpa [running, checked, type, clint, alike.cfg] using clock

/-- One step under equal clock reads. -/
theorem stepInst (clock : b.clockRead = a.clockRead) :
    b.stepInst.map Prod.snd = a.stepInst.map Prod.snd ∧
      Alike P ((a.stepInst.map Prod.fst).getD a) ((b.stepInst.map Prod.fst).getD b) := by
  have halted : b.hart.halted = a.hart.halted := congrArg Hart.halted alike.hart
  unfold EmulatorIss.stepInst
  rw [halted]
  cases stopped : a.hart.halted with
  | true => exact ⟨rfl, alike⟩
  | false =>
      obtain ⟨event, after⟩ := alike.stepBody stopped clock
      exact ⟨congrArg some event, after.tick⟩

theorem clockRead_isSome : b.clockRead.isSome = a.clockRead.isSome := by
  have fetch := alike.memory.fetch a.hart.pc 0#32
  unfold clockRead
  rw [alike.hart, fetch, alike.cfg]
  split_ifs
  · rfl
  · rcases a.memory.fetch a.hart.pc 0#32 with ⟨result, inst⟩
    cases result with
    | misaligned => rfl
    | accessFault => rfl
    | ok =>
        simp only
        split_ifs
        · exact Clint.load_isSome alike.clintCfg _ _
        · rfl

theorem clockRead_congr (clint : b.clint = a.clint) : b.clockRead = a.clockRead := by
  have fetch := alike.memory.fetch a.hart.pc 0#32
  unfold clockRead
  rw [alike.hart, fetch, alike.cfg, clint]

end Alike

variable {s : EmulatorIss}

/-- A clock read is the value of its event. -/
theorem event_of_clockRead {v : U32} (reads : s.clockRead = some v) :
    ∃ ev, s.stepInst.map Prod.snd = some ev ∧ ev.rdValue = v := by
  unfold clockRead at reads
  split_ifs at reads with halted
  rcases fetched : s.memory.fetch s.hart.pc 0#32 with ⟨result, inst⟩
  rw [fetched] at reads
  cases result with
  | misaligned => cases reads
  | accessFault => cases reads
  | ok =>
      simp only at reads
      split_ifs at reads with load
      obtain ⟨checked, type, clint⟩ := load
      have body : s.stepBody = s.retire (decode inst) (decode inst).rd v (s.hart.pc + 4#32) := by
        rw [stepBody, fetched]
        simp [execute, checked, type, executeLoad, loadMem, clint, accessSize, reads, loadValue,
          accessSext]
      refine ⟨s.stepBody.2, ?_, ?_⟩
      · simp [stepInst, halted]
      · rw [body]
        rfl

/-- Equal events have equal clock reads. -/
theorem Alike.clockRead_of_event {P : Prop} {a b : EmulatorIss} (alike : Alike P a b)
    (event : b.stepInst.map Prod.snd = a.stepInst.map Prod.snd) : b.clockRead = a.clockRead := by
  have both := alike.clockRead_isSome
  cases left : a.clockRead with
  | none =>
      rw [left] at both
      exact Option.isNone_iff_eq_none.mp (by simpa using both)
  | some v =>
      rw [left] at both
      obtain ⟨w, right⟩ := Option.isSome_iff_exists.mp both
      obtain ⟨ev, mine, value⟩ := event_of_clockRead left
      obtain ⟨ev', his, value'⟩ := event_of_clockRead right
      obtain rfl : ev' = ev := Option.some_inj.mp (his.symm.trans (event.trans mine))
      rw [right, ← value, ← value']

/-! ## Runs -/

theorem Alike.run {P : Prop} {a b : EmulatorIss} (alike : Alike P a b) {n : Nat}
    (clock : ∀ k, k < n → (b.run k).clockRead = (a.run k).clockRead) :
    Alike P (a.run n) (b.run n) := by
  induction n with
  | zero => exact alike
  | succ n ih =>
      rw [run_succ, run_succ]
      have before := ih fun k below => clock k (Nat.lt_succ_of_lt below)
      exact (before.stepInst (clock n (Nat.lt_succ_self n))).2

/-- With one counter the runs have the same events. -/
theorem Alike.events {a b : EmulatorIss} (alike : Alike True a b) (k : Nat) :
    b.event k = a.event k := by
  have reads (n : Nat) : Alike True (a.run n) (b.run n) := by
    induction n with
    | zero => exact alike
    | succ n ih =>
        rw [run_succ, run_succ]
        exact (ih.stepInst (ih.clockRead_congr (ih.clint trivial))).2
  exact ((reads k).stepInst ((reads k).clockRead_congr ((reads k).clint trivial))).1

/-- The events are the same exactly as long as the clock reads are. -/
theorem Alike.events_iff {P : Prop} {a b : EmulatorIss} (alike : Alike P a b) (n : Nat) :
    (∀ k, k < n → b.event k = a.event k) ↔
      ∀ k, k < n → (b.run k).clockRead = (a.run k).clockRead := by
  constructor
  · intro events k
    induction k using Nat.strong_induction_on with
    | _ k ih =>
        intro below
        have before := alike.run fun j earlier => ih j earlier (Nat.lt_trans earlier below)
        exact before.clockRead_of_event (events k below)
  · intro clock k below
    have before := alike.run fun j earlier => clock j (Nat.lt_trans earlier below)
    exact (before.stepInst (clock k below)).1

end EmulatorIss

end NpcMachine.Emulator
