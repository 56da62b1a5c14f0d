/-
# Am.Cte -- `cte.c` around the trap entry

A trap with the assembled entry and the C handler: `asmTrap` saves the `Context` below `sp`,
`__am_irq_handle` calls the user's handler, and the epilogue takes up the `Context` that the
handler gives back.

* `Saved`, `Frame`: a `Context` in memory and the registers and the `pc` it stands for;
* `save_spec`, `restore_spec`: the two blocks as a whole, with what they leave alone;
* `trap_spec`: a trap hands the hart from one frame to the other; `trap_on_iss`: so does the
  reference model;
* `startWords_saved`: a new `Context` holds the frame that its thread starts with.
-/
import NpcMachine.Am.Trap

namespace NpcMachine.Am

open NpcMachine.Emulator

set_option autoImplicit false

/-! ## `cte.c` -/

inductive Event where
  | null
  | yield
  | syscall
  | pagefault
  | error
  | irqTimer
  | irqIodev
  deriving DecidableEq, Repr

/-- A handler with the memory; none where an assertion or `halt` ends the program. -/
abbrev Handler : Type := Event → U32 → Memory → Option (Memory × U32)

/-- `__am_irq_handle`. -/
def irqHandle (userHandler : Option Handler) (c : U32) (m : Memory) : Option (Memory × U32) :=
  match userHandler with
  | none => some (m, c)
  | some handler =>
      let cause := m.word (slot c 16)
      let handled :=
        if cause = causeEcallM then handler .yield c m
        else if cause = causeBreakpoint then none
        else handler .error c m
      handled.filter fun (_, c) => c ≠ 0#32

def a5 : BitVec 4 := 15#4

/-- The hart after `li a5, -1` and the `ecall` of `yield`. -/
def yieldTrap (c : Hart × Memory) : Hart × Memory :=
  let loaded := (Asm.addi a5 0#4 (-1#12)).exec c
  (loaded.1.takeException causeEcallM, loaded.2)

/-- A trap: the entry up to the call, the handler, and the epilogue. -/
def trap (userHandler : Option Handler) (c : Hart × Memory) : Option (Hart × Memory) :=
  let saved := execAll save c
  (irqHandle userHandler (saved.1.reg a0) saved.2).map fun (m, ctx) =>
    Asm.exec .mret (execAll restore (saved.1.setReg a0 ctx, m))

def yield (userHandler : Option Handler) (c : Hart × Memory) : Option (Hart × Memory) :=
  trap userHandler (yieldTrap c)

/-! ## Frames -/

/-- What a `Context` holds of a thread. -/
structure Frame where
  gpr : BitVec 4 → U32
  mepc : U32

/-- The `Context` at `ctx` holds a frame. -/
structure Saved (m : Memory) (ctx : U32) (f : Frame) : Prop where
  gpr : ∀ r, r ≠ 0#4 → m.word (slot ctx r.toNat) = f.gpr r
  mepc : m.word (slot ctx 18) = f.mepc

/-- The hart goes on with a frame; `mepc` drops the two low bits. -/
structure Resumed (h : Hart) (f : Frame) : Prop where
  gpr : ∀ r, r ≠ 0#4 → h.reg r = f.gpr r
  pc : h.pc = f.mepc &&& 0xFFFFFFFC#32

/-- The frame that a trap saves: the entry has put `sp` in `t0`. -/
def trapFrame (h : Hart) : Frame where
  gpr := fun r => if r = t0 then h.reg sp else h.reg r
  mepc := h.mepc

/-- The first `n` words at `ctx` are RAM. -/
def Plain (cfg : Config) (m : Memory) (n : Nat) (ctx : U32) : Prop :=
  ∀ k, k < n → PlainWord cfg m (slot ctx k)

/-- An address off the first `n` words at `ctx`. -/
def Off (n : Nat) (ctx a : U32) : Prop := ∀ k, k < n → a ≠ slot ctx k

instance (cfg : Config) (m : Memory) (n : Nat) (ctx : U32) : Decidable (Plain cfg m n ctx) :=
  inferInstanceAs (Decidable (∀ k, k < n → _))

instance (n : Nat) (ctx a : U32) : Decidable (Off n ctx a) :=
  inferInstanceAs (Decidable (∀ k, k < n → _))

/-- The instructions that change memory, and those that change a CSR. -/
def stores : Asm → Bool
  | .sw .. => true
  | _ => false

def writesCsr : Asm → Bool
  | .csrw .. => true
  | _ => false

section Blocks

variable {cfg : Config} {c : Hart × Memory} {is : List Asm} {a : U32} {m m' : Memory}

theorem exec_cfg (i : Asm) (c : Hart × Memory) : (i.exec c).2.cfg = c.2.cfg := by
  cases i <;> rfl

theorem execAll_cfg (is : List Asm) (c : Hart × Memory) : (execAll is c).2.cfg = c.2.cfg := by
  induction is generalizing c with
  | nil => rfl
  | cons i is ih => exact (ih (i.exec c)).trans (exec_cfg i c)

theorem hasWord_of_cfg (same : m'.cfg = m.cfg) (a : U32) : m'.HasWord a ↔ m.HasWord a := by
  rw [Memory.HasWord, Memory.HasWord, Memory.inRam_of_cfg same]

theorem plainWord_of_cfg (same : m'.cfg = m.cfg) (a : U32) :
    PlainWord cfg m' a ↔ PlainWord cfg m a := by
  rw [PlainWord, PlainWord, hasWord_of_cfg same]

/-- A block that fits beside a word leaves it. -/
theorem fitsAll_keeps (fits : FitsAll cfg a 1 is c) (has : c.2.HasWord a) :
    (execAll is c).2.word a = c.2.word a := by
  induction is generalizing c with
  | nil => rfl
  | cons i is ih =>
      obtain ⟨-, here, apart, rest⟩ := fits
      have kept : (i.exec c).2.word a = c.2.word a := by
        cases i with
        | sw rs2 rs1 offset =>
            have other := (apart _ rfl).1
            exact Memory.word_writeWord_other here.1 has (Ne.symm other) _
        | addi | auipc | jalr | lw | csrr | csrw | mret => rfl
      exact (ih rest ((hasWord_of_cfg (exec_cfg i c) a).mpr has)).trans kept

theorem execAll_memory (loads : ∀ i, i ∈ is → stores i = false) : (execAll is c).2 = c.2 := by
  induction is generalizing c with
  | nil => rfl
  | cons i is ih =>
      have here : (i.exec c).2 = c.2 := by
        cases i with
        | sw => cases loads _ List.mem_cons_self
        | addi | auipc | jalr | lw | csrr | csrw | mret => rfl
      exact (ih fun j member => loads j (List.mem_cons_of_mem i member)).trans here

/-- The words of a `Context` beside one word. -/
theorem slots_beside {ctx : U32} (plain : Plain cfg c.2 contextWords ctx)
    (off : Off contextWords ctx a) : Slots cfg a 1 ctx c.2 :=
  ⟨plain, fun k inside => ⟨(off k inside).symm, trivial⟩⟩

theorem setReg_mcause (h : Hart) (r : BitVec 4) (v : U32) : (h.setReg r v).mcause = h.mcause := by
  unfold Hart.setReg
  split_ifs <;> rfl

theorem exec_csrs {i : Asm} (reads : writesCsr i = false) :
    (i.exec c).1.mepc = c.1.mepc ∧ (i.exec c).1.mcause = c.1.mcause := by
  cases i with
  | csrw => cases reads
  | sw | mret => exact ⟨rfl, rfl⟩
  | addi | auipc | jalr | lw | csrr => exact ⟨Asm.setReg_mepc .., setReg_mcause ..⟩

theorem execAll_csrs (code : List Asm) (reads : ∀ i, i ∈ code → writesCsr i = false) :
    (execAll code c).1.mepc = c.1.mepc ∧ (execAll code c).1.mcause = c.1.mcause := by
  induction code generalizing c with
  | nil => exact ⟨rfl, rfl⟩
  | cons i is ih =>
      obtain ⟨epc, cause⟩ := exec_csrs (c := c) (reads i List.mem_cons_self)
      obtain ⟨epcRest, causeRest⟩ :=
        ih (c := i.exec c) fun j member => reads j (List.mem_cons_of_mem i member)
      exact ⟨epcRest.trans epc, causeRest.trans cause⟩

theorem exec_csrr_value {rd : BitVec 4} (real : rd ≠ 0#4) (number : BitVec 12) :
    ((Asm.csrr rd number).exec c).1.reg rd = (c.1.readCsr (number.setWidth 32)).getD 0#32 :=
  (Asm.setReg_reg ..).trans (if_pos ⟨rfl, real⟩)

/-- The two CSRs of the trap in their words. -/
theorem saveCsrs_words {base ctx : U32} {length : Nat} (slots : Slots cfg base length ctx c.2)
    (frame : c.1.reg sp = ctx) :
    (execAll saveCsrs c).2.word (slot ctx 16) = c.1.mcause ∧
      (execAll saveCsrs c).2.word (slot ctx 18) = c.1.mepc := by
  let cause := (Asm.csrr t0 mcause).exec c
  let status := (Asm.csrr t1 mstatus).exec cause
  let read := (Asm.csrr t2 mepc).exec status
  have atRead : read.1.reg sp = ctx := by
    show ((Asm.csrr t2 mepc).exec _).1.reg sp = ctx
    rw [exec_csrr_reg _ _ _ (by decide), exec_csrr_reg _ _ _ (by decide),
      exec_csrr_reg _ _ _ (by decide), frame]
  have causeRead : read.1.reg t0 = c.1.mcause := by
    show ((Asm.csrr t2 mepc).exec _).1.reg t0 = _
    rw [exec_csrr_reg _ _ _ (by decide), exec_csrr_reg _ _ _ (by decide),
      exec_csrr_value (by decide)]
    rfl
  have epcRead : read.1.reg t2 = c.1.mepc := by
    have before : status.1.mepc = c.1.mepc := (Asm.setReg_mepc ..).trans (Asm.setReg_mepc ..)
    show ((Asm.csrr t2 mepc).exec status).1.reg t2 = _
    rw [exec_csrr_value (by decide), ← before]
    rfl
  have room : Slots cfg base length ctx read.2 := slots
  let first := (Asm.sw t0 sp offsetCause).exec read
  let second := (Asm.sw t1 sp offsetStatus).exec first
  let third := (Asm.sw t2 sp offsetEpc).exec second
  have in16 : 16 < contextWords := by decide
  have in17 : 17 < contextWords := by decide
  have in18 : 18 < contextWords := by decide
  have atFirst : first.1.reg sp = ctx := (exec_sw_reg _ _ _ sp).trans atRead
  have atSecond : second.1.reg sp = ctx := (exec_sw_reg _ _ _ sp).trans atFirst
  obtain ⟨slots1, here1, -⟩ := Slots.store (c := read) room in16 atRead t0
  obtain ⟨slots2, -, kept2⟩ := Slots.store (c := first) slots1 in17 atFirst t1
  obtain ⟨-, here3, kept3⟩ := Slots.store (c := second) slots2 in18 atSecond t2
  have memory : (execAll saveCsrs c).2 = third.2 := rfl
  rw [memory]
  constructor
  · exact (kept3 16 in16 (by decide)).trans ((kept2 16 in16 (by decide)).trans (here1.trans causeRead))
  · have register : second.1.reg t2 = read.1.reg t2 :=
      (exec_sw_reg _ _ _ t2).trans (exec_sw_reg _ _ _ t2)
    exact here3.trans (register.trans epcRead)

/-- The entry up to the call. -/
theorem save_spec (plain : Plain cfg c.2 contextWords (context c.1)) :
    let out := execAll save c
    out.1.reg a0 = context c.1 ∧ Saved out.2 (context c.1) (trapFrame c.1) ∧
      out.2.word (slot (context c.1) 16) = c.1.mcause ∧
      ∀ a, c.2.HasWord a → Off contextWords (context c.1) a → out.2.word a = c.2.word a := by
  -- Any place beside the words will do for the code here.
  have slots : Slots cfg 0#32 0 (context c.1) c.2 := ⟨plain, fun _ _ => trivial⟩
  obtain ⟨-, argument, words⟩ := exec_save slots
  obtain ⟨-, slotsSp, atSp, -⟩ := exec_saveSp slots
  have frame : (execAll saveSp c).1.reg sp = context c.1 := (atSp sp).trans (if_pos rfl)
  obtain ⟨-, slotsPush, regsPush, -, -⟩ := exec_push regs slotsSp frame
  obtain ⟨cause, epc⟩ := saveCsrs_words slotsPush ((regsPush sp).trans frame)
  obtain ⟨epcKept, causeKept⟩ := execAll_csrs (c := c) (saveSp ++ regs.map push) (by decide)
  have split : execAll save c = execAll saveCsrs (execAll (regs.map push) (execAll saveSp c)) := by
    rw [save, execAll_append, execAll_append]
  rw [execAll_append] at epcKept causeKept
  rw [← split] at cause epc
  have kept : ∀ a, c.2.HasWord a → Off contextWords (context c.1) a →
      (execAll save c).2.word a = c.2.word a :=
    fun a has off => fitsAll_keeps (exec_save (slots_beside plain off)).1 has
  generalize execAll save c = out at argument words cause epc kept ⊢
  exact ⟨argument, ⟨words, epc.trans epcKept⟩, cause.trans causeKept, kept⟩

/-- The epilogue takes up the `Context` in `a0`. -/
theorem restore_spec {f : Frame} (plain : Plain cfg c.2 contextWords (c.1.reg a0))
    (saved : Saved c.2 (c.1.reg a0) f) :
    let out := Asm.exec .mret (execAll restore c)
    Resumed out.1 f ∧ out.2 = c.2 := by
  have slots : Slots cfg 0#32 0 (c.1.reg a0) c.2 := ⟨plain, fun _ _ => trivial⟩
  obtain ⟨-, epc, words⟩ := exec_restore slots
  have memory : (execAll restore c).2 = c.2 := execAll_memory (by decide)
  generalize execAll restore c = out at epc words memory ⊢
  refine ⟨⟨fun r real => (words r real).trans (saved.gpr r real), ?_⟩, memory⟩
  rw [← saved.mepc]
  exact epc

/-- A trap whose handler gives back a saved `Context` goes on with its frame. -/
theorem trap_spec {userHandler : Option Handler} {ctx : U32} {f : Frame}
    (plain : Plain cfg c.2 contextWords (context c.1))
    (handled : irqHandle userHandler (context c.1) (execAll save c).2 = some (m, ctx))
    (room : Plain cfg m contextWords ctx) (saved : Saved m ctx f) :
    ∃ h, trap userHandler c = some (h, m) ∧ Resumed h f := by
  obtain ⟨argument, -⟩ := save_spec plain
  unfold trap
  generalize execAll save c = out at argument handled ⊢
  have pointer : (out.1.setReg a0 ctx).reg a0 = ctx := (Asm.setReg_reg ..).trans (if_pos ⟨rfl, by decide⟩)
  have roomAt : Plain cfg m contextWords ((out.1.setReg a0 ctx).reg a0) := by rwa [pointer]
  obtain ⟨resumed, memory⟩ := restore_spec (f := f) (c := (out.1.setReg a0 ctx, m)) roomAt
    (by rw [pointer]; exact saved)
  refine ⟨(Asm.exec .mret (execAll restore (out.1.setReg a0 ctx, m))).1, ?_, resumed⟩
  show Option.map _ (irqHandle userHandler (out.1.reg a0) out.2) = _
  rw [argument, handled, Option.map_some]
  exact congrArg some (Prod.ext rfl memory)

end Blocks

/-- The reference model takes the trap so: the call of the handler stands for every run of
its code that gives back the `Context` that the C function does. -/
theorem trap_on_iss {s : EmulatorIss} {base : U32} {hi : BitVec 20} {lo : BitVec 12} {j : Nat}
    {userHandler : Option Handler} {ctx : U32} {m : Memory}
    (entered : s.AtCode base (asmTrap hi lo) 0)
    (slots : Slots s.cfg base (asmTrap hi lo).length (context s.hart) s.memory)
    (handled : irqHandle userHandler (context s.hart) (s.run save.length).memory = some (m, ctx))
    (same : m.cfg = s.memory.cfg) (room : Slots s.cfg base (asmTrap hi lo).length ctx m)
    (returned : (s.run j).AtCode base (asmTrap hi lo) (save ++ call hi lo).length)
    (pointer : (s.run j).hart.reg a0 = ctx)
    (words : ∀ k, k < contextWords → (s.run j).memory.word (slot ctx k) = m.word (slot ctx k)) :
    ∃ h, trap userHandler (s.hart, s.memory) = some (h, m) ∧
      (∀ r, (s.run (j + (restore.length + 1))).hart.reg r = h.reg r) ∧
      (s.run (j + (restore.length + 1))).hart.pc = h.pc := by
  obtain ⟨fits, -⟩ := exec_save (c := Asm.view s) slots
  obtain ⟨views, -⟩ := EmulatorIss.run_block [] save _ entered fits
  have memory : (s.run save.length).memory = (execAll save (Asm.view s)).2 := congrArg Prod.snd views
  rw [memory] at handled
  obtain ⟨h, taken, resumed⟩ := trap_spec (c := Asm.view s)
    (f := ⟨fun r => m.word (slot ctx r.toNat), m.word (slot ctx 18)⟩) slots.plain handled room.plain
    ⟨fun _ _ => rfl, rfl⟩
  have config := s.config_run j
  have there : Slots (s.run j).cfg base (asmTrap hi lo).length ((s.run j).hart.reg a0)
      (s.run j).memory := by
    rw [config.cfg, pointer]
    exact slots_of_cfg (config.memory.trans same.symm) room
  obtain ⟨regs, pc⟩ := restored_words returned there
  rw [pointer] at regs pc
  refine ⟨h, taken, fun r => ?_, ?_⟩
  · rw [EmulatorIss.run_add]
    by_cases zero : r = 0#4
    · rw [zero]
      rfl
    · rw [regs r zero, words _ (gpr_in r), resumed.gpr r zero]
  · rw [EmulatorIss.run_add, pc, words 18 (by decide), resumed.pc]

/-! ## New contexts -/

/-- The words of `sizeof(Context)`, with `pdir` after those that the entry fills. -/
def sizeofContext : Nat := contextWords + 1

/-- Words of a `Context` written one after the other. -/
def writeSlots (ctx : U32) (ws : List (Nat × U32)) (m : Memory) : Memory :=
  ws.foldl (fun m w => m.writeWord (slot ctx w.1) w.2) m

/-- `memset(ctx, 0, sizeof(Context))`. -/
def cleared : List (Nat × U32) := (List.range sizeofContext).map fun k => (k, 0#32)

/-- What a new `Context` is given: `mepc`, `mstatus`, `sp`, the words `link` and `a0`. -/
def startWords (entry sp : U32) (link : List (Nat × U32)) (arg : U32) : List (Nat × U32) :=
  [(18, entry), (17, 0x00001800#32), (2, sp)] ++ (link ++ [(10, arg)])

/-- `kcontext` on a stack that ends at `kstackEnd`. -/
def kcontext (kstackEnd entry arg : U32) (m : Memory) : Memory × U32 :=
  let ctx := kstackEnd - BitVec.ofNat 32 (sizeofContext * xlen)
  (writeSlots ctx (cleared ++ startWords entry kstackEnd [] arg) m, ctx)

/-- The frame of a thread that has not run. -/
def firstFrame (entry top link arg : U32) : Frame where
  gpr := fun r => if r = sp then top else if r = ra then link else if r = a0 then arg else 0#32
  mepc := entry

/-- The last of the values written to a word. -/
def lastWrite (k : Nat) : List (Nat × U32) → Option U32
  | [] => none
  | w :: ws => (lastWrite k ws).or (if w.1 = k then some w.2 else none)

theorem lastWrite_append (k : Nat) (ws vs : List (Nat × U32)) :
    lastWrite k (ws ++ vs) = (lastWrite k vs).or (lastWrite k ws) := by
  induction ws with
  | nil => simp [lastWrite]
  | cons w ws ih => rw [List.cons_append, lastWrite, ih, lastWrite, Option.or_assoc]

section Slots

variable {cfg : Config} {ctx a : U32} {m : Memory} {n : Nat} {ws : List (Nat × U32)}

/-- Every word of a `Context` has its own address, `pdir` too. -/
theorem slot_ne {j k : Nat} (jIn : j < sizeofContext) (kIn : k < sizeofContext) (differ : j ≠ k) :
    slot ctx j ≠ slot ctx k := by
  intro same
  have offsets : ∀ j, j < sizeofContext → ((offset j).signExtend 32).toNat = 4 * j := by decide
  have cancelled := congrArg BitVec.toNat ((BitVec.add_right_inj ctx).mp same)
  rw [offsets j jIn, offsets k kIn] at cancelled
  omega

theorem writeSlots_cfg : (writeSlots ctx ws m).cfg = m.cfg := by
  induction ws generalizing m with
  | nil => rfl
  | cons w ws ih => exact ih (m := m.writeWord (slot ctx w.1) w.2)

theorem Plain.of_cfg {m' : Memory} (plain : Plain cfg m n ctx) (same : m'.cfg = m.cfg) :
    Plain cfg m' n ctx := fun k inside => (plainWord_of_cfg same _).mpr (plain k inside)

/-- A word beside the `Context` stays. -/
theorem writeSlots_other (plain : Plain cfg m n ctx) (inside : ∀ w, w ∈ ws → w.1 < n)
    (has : m.HasWord a) (off : Off n ctx a) : (writeSlots ctx ws m).word a = m.word a := by
  induction ws generalizing m with
  | nil => rfl
  | cons w ws ih =>
      have first := inside w List.mem_cons_self
      have rest := ih (m := m.writeWord (slot ctx w.1) w.2) (plain.of_cfg rfl)
        (fun v member => inside v (List.mem_cons_of_mem w member)) has
      exact rest.trans (Memory.word_writeWord_other (plain _ first).1 has (off _ first) _)

/-- A word of the `Context` has the last value written to it. -/
theorem writeSlots_word (small : n ≤ sizeofContext) (plain : Plain cfg m n ctx)
    (inside : ∀ w, w ∈ ws → w.1 < n) {k : Nat} (kIn : k < n) :
    (writeSlots ctx ws m).word (slot ctx k) = (lastWrite k ws).getD (m.word (slot ctx k)) := by
  induction ws generalizing m with
  | nil => rfl
  | cons w ws ih =>
      have first := inside w List.mem_cons_self
      have rest := ih (m := m.writeWord (slot ctx w.1) w.2) (plain.of_cfg rfl)
        (fun v member => inside v (List.mem_cons_of_mem w member))
      have here : (m.writeWord (slot ctx w.1) w.2).word (slot ctx k) =
          if w.1 = k then w.2 else m.word (slot ctx k) := by
        split_ifs with same
        · rw [same, Memory.word_writeWord_same]
        · exact Memory.word_writeWord_other (plain _ first).1 (plain k kIn).1
            (slot_ne (by omega) (by omega) (Ne.symm same)) _
      rw [lastWrite]
      refine rest.trans ?_
      rw [here]
      cases lastWrite k ws with
      | some v => rfl
      | none => split_ifs <;> rfl

theorem startWords_inside (entry top arg : U32) (link : List (Nat × U32))
    (inside : ∀ w, w ∈ link → w.1 < sizeofContext) :
    ∀ w, w ∈ cleared ++ startWords entry top link arg → w.1 < sizeofContext := by
  intro w member
  rcases List.mem_append.mp member with zeros | values
  · obtain ⟨k, below, rfl⟩ := List.mem_map.mp zeros
    exact List.mem_range.mp below
  · simp only [startWords, List.mem_append, List.mem_cons, List.not_mem_nil, or_false] at values
    rcases values with (rfl | rfl | rfl) | linked | rfl
    · simp [sizeofContext, contextWords]
    · simp [sizeofContext, contextWords]
    · simp [sizeofContext, contextWords]
    · exact inside w linked
    · simp [sizeofContext, contextWords]

theorem lastWrite_start (entry top arg : U32) {link : List (Nat × U32)} {ret : Option U32}
    (only : ∀ k, lastWrite k link = if k = 1 then ret else none) (r : BitVec 4) :
    lastWrite r.toNat (cleared ++ startWords entry top link arg) =
      some ((firstFrame entry top (ret.getD 0#32) arg).gpr r) := by
  have zeros : ∀ k, k < sizeofContext → lastWrite k cleared = some 0#32 := by decide
  have zero := zeros r.toNat (Nat.lt_of_lt_of_le r.isLt (by decide))
  have index (q : BitVec 4) : q.toNat = r.toNat ↔ r = q := by
    rw [BitVec.toNat_inj, eq_comm]
  have apart18 : 18 ≠ r.toNat := by omega
  have apart17 : 17 ≠ r.toNat := by omega
  have isSp : 2 = r.toNat ↔ r = sp := index sp
  have isRa : r.toNat = 1 ↔ r = ra := eq_comm.trans (index ra)
  have isA0 : 10 = r.toNat ↔ r = a0 := index a0
  rw [lastWrite_append, zero, startWords, lastWrite_append, lastWrite_append, only]
  simp only [lastWrite, firstFrame, if_neg apart18, if_neg apart17, isSp, isRa, isA0]
  by_cases atSp : r = sp
  · subst atSp
    rfl
  by_cases atRa : r = ra
  · subst atRa
    cases ret <;> rfl
  by_cases atA0 : r = a0
  · subst atA0
    rfl
  · simp [atSp, atRa, atA0]

/-- A new `Context` holds the first frame. -/
theorem startWords_saved (entry top arg : U32) (link : List (Nat × U32)) (ret : Option U32)
    (plain : Plain cfg m sizeofContext ctx) (inside : ∀ w, w ∈ link → w.1 < sizeofContext)
    (only : ∀ k, lastWrite k link = if k = 1 then ret else none) :
    Saved (writeSlots ctx (cleared ++ startWords entry top link arg) m) ctx
      (firstFrame entry top (ret.getD 0#32) arg) where
  gpr := fun r real => by
    rw [writeSlots_word (Nat.le_refl _) plain (startWords_inside entry top arg link inside)
      (Nat.lt_of_lt_of_le r.isLt (by decide)), lastWrite_start entry top arg only]
    rfl
  mepc := by
    rw [writeSlots_word (Nat.le_refl _) plain (startWords_inside entry top arg link inside) (by decide),
      lastWrite_append, startWords, lastWrite_append, lastWrite_append, only]
    rfl

/-- `kcontext` makes a thread that starts at `entry` with `arg`, its stack the whole area. -/
theorem kcontext_spec {kstackEnd entry arg : U32}
    (plain : Plain cfg m sizeofContext (kstackEnd - BitVec.ofNat 32 (sizeofContext * xlen))) :
    Saved (kcontext kstackEnd entry arg m).1 (kcontext kstackEnd entry arg m).2
      (firstFrame entry kstackEnd 0#32 arg) := by
  have saved := startWords_saved entry kstackEnd arg [] none plain (by simp) fun k => by
    simp [lastWrite]
  exact saved

end Slots

end NpcMachine.Am
