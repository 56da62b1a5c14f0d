/-
# Am.Trap -- the trap entry of `trap.S` on the reference model

`asmTrap` is the assembled `__am_asm_trap` for RV32E: it saves a `Context` below `sp`, calls
`__am_irq_handle`, and restores the `Context` that the handler returns.  `t0` is given the
old `sp` before it is saved, so what comes back in `t0` is that `sp`
(`trap_preserves_iff`); every other register survives.
-/
import NpcMachine.Emulator.Asm

namespace NpcMachine.Am

open NpcMachine.Emulator

set_option autoImplicit false

/-! ## `trap.S` -/

def ra : BitVec 4 := 1#4
def sp : BitVec 4 := 2#4
def t0 : BitVec 4 := 5#4
def t1 : BitVec 4 := 6#4
def t2 : BitVec 4 := 7#4
def a0 : BitVec 4 := 10#4

/-- `REGS(f)` of an RV32E core, the numbers that `f` is applied to. -/
def regs : List (BitVec 4) :=
  [1#4, 3#4, 4#4, 5#4, 6#4, 7#4, 8#4, 9#4, 10#4, 11#4, 12#4, 13#4, 14#4, 15#4]

/-- The words of a `Context` that the entry fills: `gpr`, `mcause`, `mstatus`, `mepc`. -/
def contextWords : Nat := 16 + 3

def xlen : Nat := 4

/-- The offset of a word of the `Context`. -/
def offset (k : Nat) : BitVec 12 := BitVec.ofNat 12 (k * xlen)

def offsetSp : BitVec 12 := offset 2
def offsetCause : BitVec 12 := offset 16
def offsetStatus : BitVec 12 := offset 17
def offsetEpc : BitVec 12 := offset 18
def contextSize : BitVec 12 := offset contextWords

def push (n : BitVec 4) : Asm := .sw n sp (offset n.toNat)
def pop (n : BitVec 4) : Asm := .lw n sp (offset n.toNat)

def mstatus : BitVec 12 := 0x300#12
def mepc : BitVec 12 := 0x341#12
def mcause : BitVec 12 := 0x342#12

/-- The room for the `Context`, and the old `sp`. -/
def saveSp : List Asm :=
  [.addi sp sp (-contextSize), .addi t0 sp contextSize, .sw t0 sp offsetSp]

def saveCsrs : List Asm :=
  [.csrr t0 mcause, .csrr t1 mstatus, .csrr t2 mepc, .sw t0 sp offsetCause, .sw t1 sp offsetStatus,
    .sw t2 sp offsetEpc, .addi a0 sp 0#12]

def save : List Asm := saveSp ++ (regs.map push ++ saveCsrs)

/-- `call __am_irq_handle`: without relaxation an `auipc` and a `jalr`. -/
def call (hi : BitVec 20) (lo : BitVec 12) : List Asm := [.auipc ra hi, .jalr ra ra lo]

def restoreCsrs : List Asm :=
  [.addi sp a0 0#12, .lw t1 sp offsetStatus, .lw t2 sp offsetEpc, .csrw mstatus t1, .csrw mepc t2]

/-- The epilogue up to `mret`. -/
def restore : List Asm := restoreCsrs ++ (regs.map pop ++ [.lw sp sp offsetSp])

def asmTrap (hi : BitVec 20) (lo : BitVec 12) : List Asm :=
  save ++ (call hi lo ++ (restore ++ [.mret]))

/-! ## A `Context` in memory -/

/-- The address of word `k` of the `Context` at `ctx`. -/
def slot (ctx : U32) (k : Nat) : U32 := ctx + (offset k).signExtend 32

/-- The `Context` that a trap taken with this hart fills. -/
def context (h : Hart) : U32 := h.reg sp + (-contextSize).signExtend 32

theorem slot_injective (ctx : U32) {j k : Nat} (jIn : j < contextWords) (kIn : k < contextWords)
    (same : slot ctx j = slot ctx k) : j = k := by
  have offsets : ∀ j, j < contextWords → ((offset j).signExtend 32).toNat = 4 * j := by decide
  have cancelled := congrArg BitVec.toNat ((BitVec.add_right_inj ctx).mp same)
  rw [offsets j jIn, offsets k kIn] at cancelled
  omega

/-- `addi t0, sp, CONTEXT_SIZE` undoes `addi sp, sp, -CONTEXT_SIZE`. -/
theorem context_end (h : Hart) : context h + contextSize.signExtend 32 = h.reg sp := by
  have cancel : (-contextSize).signExtend 32 + contextSize.signExtend 32 = 0#32 := by decide
  rw [context, BitVec.add_assoc, cancel, BitVec.add_zero]

theorem add_zero_field (v : U32) : v + (0#12).signExtend 32 = v := BitVec.add_zero v

theorem gpr_in (r : BitVec 4) : r.toNat < contextWords := Nat.lt_add_right 3 r.isLt

section Blocks

variable {cfg : Config} {base ctx : U32} {length : Nat} {c : Hart × Memory}

/-- The words of the `Context` are RAM apart from the code. -/
structure Slots (cfg : Config) (base : U32) (length : Nat) (ctx : U32) (m : Memory) : Prop where
  plain : ∀ k, k < contextWords → PlainWord cfg m (slot ctx k)
  apart : ∀ k, k < contextWords → Apart (slot ctx k) base length

variable {is : List Asm} {k : Nat}

theorem address_slot (frame : c.1.reg sp = ctx) (k : Nat) :
    Asm.address c.1 sp (offset k) = slot ctx k := by
  rw [Asm.address, frame, slot]

/-- A store to one word of the `Context` fits. -/
theorem Slots.fitsAll (slots : Slots cfg base length ctx c.2) (kIn : k < contextWords)
    (frame : c.1.reg sp = ctx) (r : BitVec 4)
    (rest : FitsAll cfg base length is ((Asm.sw r sp (offset k)).exec c)) :
    FitsAll cfg base length (.sw r sp (offset k) :: is) c := by
  refine ⟨rfl, ?_, ?_, rest⟩
  · show PlainWord cfg c.2 (Asm.address c.1 sp (offset k))
    rw [address_slot frame]
    exact slots.plain k kIn
  · rintro b there
    obtain rfl : Asm.address c.1 sp (offset k) = b := Option.some.inj there
    rw [address_slot frame]
    exact slots.apart k kIn

/-- It replaces that word. -/
theorem Slots.store (slots : Slots cfg base length ctx c.2) (kIn : k < contextWords)
    (frame : c.1.reg sp = ctx) (r : BitVec 4) :
    let stored := (Asm.sw r sp (offset k)).exec c
    Slots cfg base length ctx stored.2 ∧ stored.2.word (slot ctx k) = c.1.reg r ∧
      ∀ j, j < contextWords → j ≠ k → stored.2.word (slot ctx j) = c.2.word (slot ctx j) := by
  have memory : ((Asm.sw r sp (offset k)).exec c).2 = c.2.writeWord (slot ctx k) (c.1.reg r) := by
    rw [← address_slot frame]
    rfl
  have plain := slots.plain k kIn
  refine ⟨?_, ?_, ?_⟩
  · rw [memory]
    exact ⟨slots.plain, slots.apart⟩
  · rw [memory, Memory.word_writeWord_same]
  · intro j jIn differ
    rw [memory, Memory.word_writeWord_other plain.1 (slots.plain j jIn).1]
    exact fun same => differ (slot_injective ctx jIn kIn same)

theorem exec_sw_reg (rs2 rs1 : BitVec 4) (offset : BitVec 12) (q : BitVec 4) :
    ((Asm.sw rs2 rs1 offset).exec c).1.reg q = c.1.reg q := rfl

/-- A load of one word of the `Context` fits. -/
theorem Slots.fitsLoad (slots : Slots cfg base length ctx c.2) (kIn : k < contextWords)
    (frame : c.1.reg sp = ctx) (r : BitVec 4)
    (rest : FitsAll cfg base length is ((Asm.lw r sp (offset k)).exec c)) :
    FitsAll cfg base length (.lw r sp (offset k) :: is) c := by
  refine ⟨rfl, ?_, fun b none => (by cases none), rest⟩
  show PlainWord cfg c.2 (Asm.address c.1 sp (offset k))
  rw [address_slot frame]
  exact slots.plain k kIn

theorem exec_lw_reg (frame : c.1.reg sp = ctx) (r q : BitVec 4) (k : Nat) :
    ((Asm.lw r sp (offset k)).exec c).1.reg q =
      if q = r ∧ r ≠ 0#4 then c.2.word (slot ctx k) else c.1.reg q := by
  rw [← address_slot frame]
  exact Asm.setReg_reg ..

/-- The pushes of the registers `rs`. -/
theorem exec_push (rs : List (BitVec 4)) (slots : Slots cfg base length ctx c.2)
    (frame : c.1.reg sp = ctx) :
    let out := execAll (rs.map push) c
    FitsAll cfg base length (rs.map push) c ∧ Slots cfg base length ctx out.2 ∧
      (∀ r, out.1.reg r = c.1.reg r) ∧ (∀ r, r ∈ rs → out.2.word (slot ctx r.toNat) = c.1.reg r) ∧
      ∀ k, k < contextWords → (∀ r, r ∈ rs → r.toNat ≠ k) →
        out.2.word (slot ctx k) = c.2.word (slot ctx k) := by
  induction rs generalizing c with
  | nil => exact ⟨trivial, slots, fun _ => rfl, fun r none => (by cases none), fun _ _ _ => rfl⟩
  | cons r rs ih =>
      obtain ⟨after, here, others⟩ := slots.store (gpr_in r) frame r
      obtain ⟨restFits, restSlots, regs, pushed, kept⟩ := ih after frame
      refine ⟨slots.fitsAll (gpr_in r) frame r restFits, restSlots, regs, ?_, ?_⟩
      · intro q member
        by_cases later : q ∈ rs
        · exact pushed q later
        · obtain rfl : q = r := (List.mem_cons.mp member).resolve_right later
          refine (kept q.toNat (gpr_in q) fun p memP same => later ?_).trans here
          rwa [← BitVec.eq_of_toNat_eq same]
      · intro k kIn none
        refine (kept k kIn fun p memP => none p (List.mem_cons_of_mem r memP)).trans (others k kIn ?_)
        exact (none r List.mem_cons_self).symm

/-- The pops of the registers `rs`, `sp` not among them. -/
theorem exec_pop (rs : List (BitVec 4)) (slots : Slots cfg base length ctx c.2)
    (frame : c.1.reg sp = ctx) (noSp : sp ∉ rs) (noZero : 0#4 ∉ rs) :
    let out := execAll (rs.map pop) c
    FitsAll cfg base length (rs.map pop) c ∧ out.2 = c.2 ∧ out.1.mepc = c.1.mepc ∧
      (∀ r, r ∈ rs → out.1.reg r = c.2.word (slot ctx r.toNat)) ∧
      ∀ r, r ∉ rs → out.1.reg r = c.1.reg r := by
  induction rs generalizing c with
  | nil => exact ⟨trivial, rfl, rfl, fun r none => (by cases none), fun _ _ => rfl⟩
  | cons r rs ih =>
      have real : r ≠ 0#4 := fun zero => noZero (zero ▸ List.mem_cons_self)
      have other : sp ≠ r := fun same => noSp (same ▸ List.mem_cons_self)
      have regs (q : BitVec 4) : ((pop r).exec c).1.reg q =
          if q = r ∧ r ≠ 0#4 then c.2.word (slot ctx r.toNat) else c.1.reg q :=
        exec_lw_reg frame r q r.toNat
      have memory : ((pop r).exec c).2 = c.2 := rfl
      have after : ((pop r).exec c).1.reg sp = ctx := by
        rw [regs, if_neg fun both => other both.1, frame]
      obtain ⟨restFits, restMemory, restMepc, popped, kept⟩ := ih (memory ▸ slots) after
        (fun member => noSp (List.mem_cons_of_mem r member))
        (fun member => noZero (List.mem_cons_of_mem r member))
      refine ⟨slots.fitsLoad (gpr_in r) frame r restFits, restMemory, ?_, ?_, ?_⟩
      · exact restMepc.trans (Asm.setReg_mepc ..)
      · intro q member
        by_cases later : q ∈ rs
        · exact popped q later
        · obtain rfl : q = r := (List.mem_cons.mp member).resolve_right later
          exact (kept q later).trans ((regs q).trans (if_pos ⟨rfl, real⟩))
      · intro q none
        have others : q ∉ rs := fun member => none (List.mem_cons_of_mem r member)
        have differ : q ≠ r := fun same => none (same ▸ List.mem_cons_self)
        exact (kept q others).trans ((regs q).trans (if_neg fun both => differ both.1))

theorem exec_addi_reg (rd rs1 : BitVec 4) (imm : BitVec 12) (q : BitVec 4) :
    ((Asm.addi rd rs1 imm).exec c).1.reg q =
      if q = rd ∧ rd ≠ 0#4 then c.1.reg rs1 + imm.signExtend 32 else c.1.reg q :=
  Asm.setReg_reg ..

theorem exec_csrr_reg (rd : BitVec 4) (number : BitVec 12) (q : BitVec 4) (differ : q ≠ rd) :
    ((Asm.csrr rd number).exec c).1.reg q = c.1.reg q :=
  (Asm.setReg_reg ..).trans (if_neg fun both => differ both.1)

theorem fitsAll_addi {rd rs1 : BitVec 4} {imm : BitVec 12}
    (rest : FitsAll cfg base length is ((Asm.addi rd rs1 imm).exec c)) :
    FitsAll cfg base length (.addi rd rs1 imm :: is) c :=
  ⟨rfl, trivial, fun b none => (by cases none), rest⟩

theorem fitsAll_csrr {rd : BitVec 4} {number : BitVec 12}
    (readable : (c.1.readCsr (number.setWidth 32)).isSome = true)
    (rest : FitsAll cfg base length is ((Asm.csrr rd number).exec c)) :
    FitsAll cfg base length (.csrr rd number :: is) c :=
  ⟨rfl, readable, fun b none => (by cases none), rest⟩

theorem readCsr_trap (h : Hart) {number : BitVec 12} (one : number ∈ [mstatus, mepc, mcause]) :
    (h.readCsr (number.setWidth 32)).isSome = true := by
  simp only [List.mem_cons, List.not_mem_nil, or_false] at one
  rcases one with rfl | rfl | rfl <;> rfl

/-- The first three instructions: `t0` holds the old `sp` from here on. -/
theorem exec_saveSp (slots : Slots cfg base length (context c.1) c.2) :
    let out := execAll saveSp c
    FitsAll cfg base length saveSp c ∧ Slots cfg base length (context c.1) out.2 ∧
      (∀ q, out.1.reg q = if q = sp then context c.1 else if q = t0 then c.1.reg sp else c.1.reg q) ∧
      out.2.word (slot (context c.1) 2) = c.1.reg sp := by
  let lowered := (Asm.addi sp sp (-contextSize)).exec c
  let noted := (Asm.addi t0 sp contextSize).exec lowered
  have atLowered (q : BitVec 4) : lowered.1.reg q = if q = sp then context c.1 else c.1.reg q := by
    show ((Asm.addi sp sp (-contextSize)).exec c).1.reg q = _
    rw [exec_addi_reg]
    by_cases same : q = sp
    · rw [if_pos same, if_pos ⟨same, by decide⟩, context]
    · rw [if_neg same, if_neg fun both => same both.1]
  have atNoted (q : BitVec 4) : noted.1.reg q =
      if q = sp then context c.1 else if q = t0 then c.1.reg sp else c.1.reg q := by
    show ((Asm.addi t0 sp contextSize).exec lowered).1.reg q = _
    rw [exec_addi_reg, atLowered, atLowered, if_pos rfl, context_end]
    by_cases same : q = t0
    · rw [if_pos ⟨same, by decide⟩, if_pos same, same, if_neg (by decide)]
    · rw [if_neg fun both => same both.1, if_neg same]
  have frame : noted.1.reg sp = context c.1 := (atNoted sp).trans (if_pos rfl)
  have room : Slots cfg base length (context c.1) noted.2 := slots
  have inside : 2 < contextWords := by decide
  obtain ⟨after, here, -⟩ := Slots.store (c := noted) room inside frame t0
  refine ⟨fitsAll_addi (fitsAll_addi (Slots.fitsAll (c := noted) room inside frame t0 trivial)), after,
    atNoted, ?_⟩
  exact here.trans ((atNoted t0).trans (by rw [if_neg (by decide), if_pos rfl]))

/-- The CSRs and the argument of the call; the registers of the `Context` stay. -/
theorem exec_saveCsrs (slots : Slots cfg base length ctx c.2) (frame : c.1.reg sp = ctx) :
    let out := execAll saveCsrs c
    FitsAll cfg base length saveCsrs c ∧ out.1.reg a0 = ctx ∧
      ∀ k, k < 16 → out.2.word (slot ctx k) = c.2.word (slot ctx k) := by
  let read := (Asm.csrr t2 mepc).exec ((Asm.csrr t1 mstatus).exec ((Asm.csrr t0 mcause).exec c))
  have atRead : read.1.reg sp = ctx := by
    show ((Asm.csrr t2 mepc).exec _).1.reg sp = ctx
    rw [exec_csrr_reg _ _ _ (by decide), exec_csrr_reg _ _ _ (by decide),
      exec_csrr_reg _ _ _ (by decide), frame]
  have room : Slots cfg base length ctx read.2 := slots
  let first := (Asm.sw t0 sp offsetCause).exec read
  let second := (Asm.sw t1 sp offsetStatus).exec first
  have atFirst : first.1.reg sp = ctx := (exec_sw_reg _ _ _ sp).trans atRead
  have atSecond : second.1.reg sp = ctx := (exec_sw_reg _ _ _ sp).trans atFirst
  let third := (Asm.sw t2 sp offsetEpc).exec second
  have in16 : 16 < contextWords := by decide
  have in17 : 17 < contextWords := by decide
  have in18 : 18 < contextWords := by decide
  obtain ⟨slots1, -, kept1⟩ := Slots.store (c := read) room in16 atRead t0
  obtain ⟨slots2, -, kept2⟩ := Slots.store (c := first) slots1 in17 atFirst t1
  obtain ⟨-, -, kept3⟩ := Slots.store (c := second) slots2 in18 atSecond t2
  have argument : FitsAll cfg base length [.addi a0 sp 0#12] third := fitsAll_addi trivial
  have stores := Slots.fitsAll (c := read) room in16 atRead t0
    (Slots.fitsAll (c := first) slots1 in17 atFirst t1
      (Slots.fitsAll (c := second) slots2 in18 atSecond t2 argument))
  have unrolled : execAll saveCsrs c = (Asm.addi a0 sp 0#12).exec third := rfl
  refine ⟨fitsAll_csrr (readCsr_trap _ (by decide)) (fitsAll_csrr (readCsr_trap _ (by decide))
    (fitsAll_csrr (readCsr_trap _ (by decide)) stores)), ?_, ?_⟩
  · have frame3 : third.1.reg sp = ctx := (exec_sw_reg _ _ _ sp).trans atSecond
    rw [unrolled, exec_addi_reg, if_pos ⟨rfl, by decide⟩, add_zero_field, frame3]
  · intro k small
    have memory : (execAll saveCsrs c).2 = third.2 := by rw [unrolled]; rfl
    rw [memory]
    have inside : k < contextWords := Nat.lt_add_right 3 small
    exact (kept3 k inside (by omega)).trans ((kept2 k inside (by omega)).trans
      (kept1 k inside (by omega)))

/-- The prologue up to the call fills the `Context`. -/
theorem exec_save (slots : Slots cfg base length (context c.1) c.2) :
    let out := execAll save c
    FitsAll cfg base length save c ∧ out.1.reg a0 = context c.1 ∧
      ∀ r, r ≠ 0#4 → out.2.word (slot (context c.1) r.toNat) =
        if r = t0 then c.1.reg sp else c.1.reg r := by
  obtain ⟨fitsSp, slotsSp, atSp, spSaved⟩ := exec_saveSp slots
  have frame : (execAll saveSp c).1.reg sp = context c.1 := (atSp sp).trans (if_pos rfl)
  obtain ⟨fitsPush, slotsPush, regsPush, pushed, kept⟩ := exec_push regs slotsSp frame
  obtain ⟨fitsCsrs, argument, keptCsrs⟩ :=
    exec_saveCsrs slotsPush ((regsPush sp).trans frame)
  rw [save, execAll_append, execAll_append, fitsAll_append, fitsAll_append]
  refine ⟨⟨fitsSp, fitsPush, fitsCsrs⟩, argument, fun r real => ?_⟩
  rw [keptCsrs r.toNat r.isLt]
  by_cases isSp : r = sp
  · rw [isSp, if_neg (by decide)]
    exact (kept 2 (by decide) (by decide)).trans spSaved
  · have member : r ∈ regs := by
      revert r
      decide
    rw [pushed r member, atSp, if_neg isSp]

theorem fitsAll_csrw {number : BitVec 12} {rs1 : BitVec 4}
    (readable : (c.1.readCsr (number.setWidth 32)).isSome = true)
    (rest : FitsAll cfg base length is ((Asm.csrw number rs1).exec c)) :
    FitsAll cfg base length (.csrw number rs1 :: is) c :=
  ⟨rfl, readable, fun b none => (by cases none), rest⟩

theorem exec_csrw_reg (number : BitVec 12) (rs1 q : BitVec 4) :
    ((Asm.csrw number rs1).exec c).1.reg q = c.1.reg q := by
  show Hart.reg ((c.1.writeCsr _ _).getD c.1) q = _
  cases written : c.1.writeCsr (number.setWidth 32) (c.1.reg rs1) with
  | none => rfl
  | some after => exact congrArg (fun x => if q = 0#4 then 0#32 else x q) (writeCsr_keeps written).1

theorem exec_csrw_mepc (rs1 : BitVec 4) :
    ((Asm.csrw mepc rs1).exec c).1.mepc = c.1.reg rs1 &&& 0xFFFFFFFC#32 := rfl

/-- `mstatus`, `mepc` and the frame come from the `Context` in `a0`. -/
theorem exec_restoreCsrs (slots : Slots cfg base length (c.1.reg a0) c.2) :
    let out := execAll restoreCsrs c
    FitsAll cfg base length restoreCsrs c ∧ out.2 = c.2 ∧ out.1.reg sp = c.1.reg a0 ∧
      out.1.mepc = c.2.word (slot (c.1.reg a0) 18) &&& 0xFFFFFFFC#32 := by
  let framed := (Asm.addi sp a0 0#12).exec c
  let status := (Asm.lw t1 sp offsetStatus).exec framed
  let epc := (Asm.lw t2 sp offsetEpc).exec status
  let written := (Asm.csrw mstatus t1).exec epc
  have atFramed : framed.1.reg sp = c.1.reg a0 := by
    show ((Asm.addi sp a0 0#12).exec c).1.reg sp = _
    rw [exec_addi_reg, if_pos ⟨rfl, by decide⟩, add_zero_field]
  have atStatus : status.1.reg sp = c.1.reg a0 :=
    (exec_lw_reg atFramed t1 sp 17).trans ((if_neg (by decide)).trans atFramed)
  have atEpc : epc.1.reg sp = c.1.reg a0 :=
    (exec_lw_reg atStatus t2 sp 18).trans ((if_neg (by decide)).trans atStatus)
  have taken : epc.1.reg t2 = c.2.word (slot (c.1.reg a0) 18) :=
    (exec_lw_reg atStatus t2 t2 18).trans (if_pos (by decide))
  have in17 : 17 < contextWords := by decide
  have in18 : 18 < contextWords := by decide
  have csrs : FitsAll cfg base length [.csrw mstatus t1, .csrw mepc t2] epc :=
    fitsAll_csrw (readCsr_trap _ (by decide)) (fitsAll_csrw (readCsr_trap _ (by decide)) trivial)
  have unrolled : execAll restoreCsrs c = (Asm.csrw mepc t2).exec written := rfl
  refine ⟨fitsAll_addi (Slots.fitsLoad (c := framed) slots in17 atFramed t1
    (Slots.fitsLoad (c := status) slots in18 atStatus t2 csrs)), rfl, ?_, ?_⟩
  · rw [unrolled, exec_csrw_reg]
    exact (exec_csrw_reg mstatus t1 sp).trans atEpc
  · rw [unrolled, exec_csrw_mepc, ← taken]
    exact congrArg (· &&& 0xFFFFFFFC#32) (exec_csrw_reg mstatus t1 t2)

/-- The epilogue up to `mret` takes the registers and `mepc` from the `Context` in `a0`. -/
theorem exec_restore (slots : Slots cfg base length (c.1.reg a0) c.2) :
    let out := execAll restore c
    FitsAll cfg base length restore c ∧
      out.1.mepc = c.2.word (slot (c.1.reg a0) 18) &&& 0xFFFFFFFC#32 ∧
      ∀ r, r ≠ 0#4 → out.1.reg r = c.2.word (slot (c.1.reg a0) r.toNat) := by
  obtain ⟨fitsCsrs, memory, frame, epc⟩ := exec_restoreCsrs slots
  generalize started : execAll restoreCsrs c = d at *
  have room : Slots cfg base length (c.1.reg a0) d.2 := memory ▸ slots
  obtain ⟨fitsPop, memoryPop, mepcPop, popped, kept⟩ :=
    exec_pop regs room frame (by decide) (by decide)
  generalize poppedAll : execAll (regs.map pop) d = e at *
  have frameEnd : e.1.reg sp = c.1.reg a0 := (kept sp (by decide)).trans frame
  have roomEnd : Slots cfg base length (c.1.reg a0) e.2 := memoryPop ▸ room
  have last : FitsAll cfg base length [.lw sp sp offsetSp] e :=
    roomEnd.fitsLoad (show 2 < contextWords by decide) frameEnd sp trivial
  have unrolled : execAll restore c = (Asm.lw sp sp offsetSp).exec e := by
    rw [restore, execAll_append, execAll_append, started, poppedAll]
    rfl
  rw [unrolled, restore, fitsAll_append, fitsAll_append, started, poppedAll]
  refine ⟨⟨fitsCsrs, fitsPop, last⟩, ?_, fun r real => ?_⟩
  · exact (Asm.setReg_mepc ..).trans (mepcPop.trans epc)
  · rw [offsetSp, exec_lw_reg frameEnd sp r 2, memoryPop, memory]
    by_cases isSp : r = sp
    · rw [if_pos ⟨isSp, by decide⟩, isSp]
      rfl
    · have member : r ∈ regs := by
        revert r
        decide
      rw [if_neg fun both => isSp both.1, popped r member, memory]

end Blocks

/-! ## A trap and its return -/

section Run

variable {s : EmulatorIss} {base : U32} {hi : BitVec 20} {lo : BitVec 12} {i j : Nat}

/-- Call `i` enters the trap, and call `j` comes back from the handler with the `Context`
that this trap saved, of whose words only `mepc` may have changed. -/
structure HandsBack (s : EmulatorIss) (base : U32) (hi : BitVec 20) (lo : BitVec 12) (i j : Nat) :
    Prop where
  entered : (s.run i).AtCode base (asmTrap hi lo) 0
  slots : Slots s.cfg base (asmTrap hi lo).length (context (s.run i).hart) (s.run i).memory
  later : i + save.length ≤ j
  returned : (s.run j).AtCode base (asmTrap hi lo) (save ++ call hi lo).length
  pointer : (s.run j).hart.reg a0 = context (s.run i).hart
  unchanged : ∀ k, k < 18 → (s.run j).memory.word (slot (context (s.run i).hart) k) =
    (s.run (i + save.length)).memory.word (slot (context (s.run i).hart) k)

/-- The state after the `mret` that follows. -/
def resumed (s : EmulatorIss) (j : Nat) : EmulatorIss := s.run (j + (restore.length + 1))

/-- The registers are those of the trap, and the hart is at the `mepc` of the `Context`. -/
def Preserved (s : EmulatorIss) (i j : Nat) : Prop :=
  (∀ r, (resumed s j).hart.reg r = (s.run i).hart.reg r) ∧
    (resumed s j).hart.pc =
      (s.run j).memory.word (slot (context (s.run i).hart) 18) &&& 0xFFFFFFFC#32

theorem slots_of_cfg {cfg : Config} {ctx : U32} {length : Nat} {m after : Memory}
    (same : after.cfg = m.cfg) (slots : Slots cfg base length ctx m) :
    Slots cfg base length ctx after := by
  refine ⟨fun k kIn => ?_, slots.apart⟩
  obtain ⟨⟨aligned, inside⟩, devices⟩ := slots.plain k kIn
  exact ⟨⟨aligned, (Memory.inRam_of_cfg same _ _).trans inside⟩, devices⟩

/-- What the entry has saved when it calls the handler. -/
theorem saved_words (entered : s.AtCode base (asmTrap hi lo) 0)
    (slots : Slots s.cfg base (asmTrap hi lo).length (context s.hart) s.memory) (r : BitVec 4)
    (real : r ≠ 0#4) : (s.run save.length).memory.word (slot (context s.hart) r.toNat) =
      if r = t0 then s.hart.reg sp else s.hart.reg r := by
  obtain ⟨fits, -, words⟩ := exec_save (c := Asm.view s) slots
  obtain ⟨views, -⟩ := EmulatorIss.run_block [] save _ entered fits
  have memory : (s.run save.length).memory = (execAll save (Asm.view s)).2 := congrArg Prod.snd views
  rw [memory]
  exact words r real

/-- What the epilogue makes of the `Context` in `a0`. -/
theorem restored_words {t : EmulatorIss} (returned : t.AtCode base (asmTrap hi lo)
      (save ++ call hi lo).length)
    (slots : Slots t.cfg base (asmTrap hi lo).length (t.hart.reg a0) t.memory) :
    (∀ r, r ≠ 0#4 → (t.run (restore.length + 1)).hart.reg r =
      t.memory.word (slot (t.hart.reg a0) r.toNat)) ∧
    (t.run (restore.length + 1)).hart.pc =
      t.memory.word (slot (t.hart.reg a0) 18) &&& 0xFFFFFFFC#32 := by
  have split : asmTrap hi lo = (save ++ call hi lo) ++ (restore ++ [.mret]) := by
    rw [asmTrap, List.append_assoc]
  rw [split] at returned slots
  obtain ⟨fits, epc, words⟩ := exec_restore (c := Asm.view t) slots
  obtain ⟨views, there⟩ := EmulatorIss.run_block (save ++ call hi lo) restore [.mret] returned fits
  generalize execAll restore (Asm.view t) = out at views epc words
  generalize ended : t.run restore.length = u at views there
  obtain ⟨-, atMret⟩ := (codeAt_append base (save ++ call hi lo ++ restore) [.mret]).mp (by
    rw [List.append_assoc]
    exact there.code)
  rw [List.length_append, ← there.pc] at atMret
  obtain ⟨next, ev, step, leaves, -⟩ :=
    EmulatorIss.step_asm (i := .mret) there.live atMret.1 atMret.2.1 trivial
  have last : t.run (restore.length + 1) = next := by
    rw [EmulatorIss.run_succ, ended, step]
    rfl
  rw [views] at leaves
  have hart : next.hart = { out.1 with pc := out.1.mepc } := congrArg Prod.fst leaves
  rw [last, hart]
  exact ⟨words, epc⟩

/-- After the return every register but `t0` has its value of the trap, `t0` has `sp`. -/
theorem handsBack_restores (hands : HandsBack s base hi lo i j) :
    (∀ r, (resumed s j).hart.reg r =
      if r = t0 then (s.run i).hart.reg sp else (s.run i).hart.reg r) ∧
    (resumed s j).hart.pc =
      (s.run j).memory.word (slot (context (s.run i).hart) 18) &&& 0xFFFFFFFC#32 := by
  have configI := s.config_run i
  have configJ := s.config_run j
  have slotsI : Slots (s.run i).cfg base (asmTrap hi lo).length (context (s.run i).hart)
      (s.run i).memory := by
    rw [configI.cfg]
    exact hands.slots
  have slotsJ : Slots (s.run j).cfg base (asmTrap hi lo).length ((s.run j).hart.reg a0)
      (s.run j).memory := by
    rw [configJ.cfg, hands.pointer]
    exact slots_of_cfg (configJ.memory.trans configI.memory.symm) hands.slots
  obtain ⟨words, pc⟩ := restored_words hands.returned slotsJ
  rw [hands.pointer] at words pc
  rw [resumed, EmulatorIss.run_add]
  refine ⟨fun r => ?_, pc⟩
  by_cases zero : r = 0#4
  · rw [zero, if_neg (by decide)]
    rfl
  · rw [words r zero, hands.unchanged r.toNat (Nat.lt_of_lt_of_le r.isLt (by decide)),
      EmulatorIss.run_add, saved_words hands.entered slotsI r zero]

/-- The interrupted context survives the trap exactly when `t0` held `sp`. -/
theorem trap_preserves_iff (hands : HandsBack s base hi lo i j) :
    Preserved s i j ↔ (s.run i).hart.reg t0 = (s.run i).hart.reg sp := by
  obtain ⟨regs, pc⟩ := handsBack_restores hands
  constructor
  · rintro ⟨same, -⟩
    exact (same t0).symm.trans ((regs t0).trans (if_pos rfl))
  · intro held
    refine ⟨fun r => ?_, pc⟩
    rw [regs r]
    split_ifs with isT0
    · rw [isT0, held]
    · rfl

end Run

/-! ### A handler that returns its argument -/

/-- A hart at the entry with 7 in `t0`, and `ret` as the handler. -/
def returningHandler : EmulatorIss :=
  { EmulatorIss.create {} with
    hart := { Hart.reset 0x20000000#32 with
      x := fun r => if r = sp then 0x20001000#32 else if r = t0 then 7#32 else 0#32 }
    memory := Memory.ofWords ((asmTrap 0#20 0x5C#12 ++ [Asm.jalr 0#4 ra 0#12]).map Asm.word) }

/-- An instruction that does not store leaves the memory. -/
theorem memory_run_succ {s : EmulatorIss} (i : Asm) {n : Nat} (live : (s.run n).hart.halted = false)
    (here : (s.run n).memory.HasWord (s.run n).hart.pc ∧
      (s.run n).memory.word (s.run n).hart.pc = i.word) (fits : i.Fits (s.run n).cfg (Asm.view (s.run n)))
    (keeps : i.target (Asm.view (s.run n)) = none) : (s.run (n + 1)).memory = (s.run n).memory := by
  obtain ⟨next, ev, step, leaves, -⟩ := EmulatorIss.step_asm live here.1 here.2 fits
  have last : s.run (n + 1) = next := by
    rw [EmulatorIss.run_succ, step]
    rfl
  rw [last]
  exact (congrArg Prod.snd leaves).trans (Asm.exec_memory keeps)

set_option maxRecDepth 20000 in
theorem returningHandler_handsBack : HandsBack returningHandler 0x20000000#32 0#20 0x5C#12 0 27 := by
  have code : CodeAt returningHandler.memory 0x20000000#32 (asmTrap 0#20 0x5C#12) := by decide +kernel
  have target25 : Asm.address (returningHandler.run 25).hart ra 0x5C#12 &&& 0xFFFFFFFE#32 &&& 3#32 =
      0#32 := by decide +kernel
  have target26 : Asm.address (returningHandler.run 26).hart ra 0#12 &&& 0xFFFFFFFE#32 &&& 3#32 =
      0#32 := by decide +kernel
  have memory25 := memory_run_succ (s := returningHandler) (n := 24) (.auipc ra 0#20)
    (by decide +kernel) (by decide +kernel) trivial rfl
  have memory26 := memory_run_succ (s := returningHandler) (n := 25) (.jalr ra ra 0x5C#12)
    (by decide +kernel) (by decide +kernel) target25 rfl
  have memory27 := memory_run_succ (s := returningHandler) (n := 26) (.jalr 0#4 ra 0#12)
    (by decide +kernel) (by decide +kernel) target26 rfl
  have memory : (returningHandler.run 27).memory = (returningHandler.run 24).memory :=
    memory27.trans (memory26.trans memory25)
  exact {
    entered := ⟨rfl, rfl, code⟩
    slots := ⟨by decide +kernel, by decide +kernel⟩
    later := by decide
    returned := ⟨by decide +kernel, by decide +kernel, by decide +kernel⟩
    pointer := by decide +kernel
    unchanged := fun k _ => by rw [memory]; rfl }

/-- The value in `t0` is lost with `sp` elsewhere. -/
theorem trap_preserves_not : returningHandler.hart.reg t0 = 7#32 ∧ ¬ Preserved returningHandler 0 27 :=
  ⟨by decide, (trap_preserves_iff returningHandler_handsBack).not.mpr (by decide)⟩

/-- A value in `t0` is lost: the return brings `sp` in its place. -/
theorem trap_loses_t0 : ¬ ∀ (s : EmulatorIss) (base : U32) (hi : BitVec 20) (lo : BitVec 12)
    (i j : Nat), HandsBack s base hi lo i j → Preserved s i j := by
  intro all
  have kept := (all _ _ _ _ _ _ returningHandler_handsBack).1 t0
  rw [(handsBack_restores returningHandler_handsBack).1 t0, if_pos rfl] at kept
  exact absurd kept (by decide)

end NpcMachine.Am
