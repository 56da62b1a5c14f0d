/-
# Am.Libgcc -- multiplication and division in software

`muldi3.S` and `div.S` for RV32E, whose core has neither a multiplier nor a divider, on the
reference model.  With `__riscv_xlen` 32 the names of the 64-bit routines stand for the
32-bit ones.
-/
import NpcMachine.Emulator.ProgramLogic
import NpcMachine.Machine.ShiftArith

namespace NpcMachine.Am.Libgcc

open NpcMachine.Emulator NpcMachine.Machine

set_option autoImplicit false

abbrev ra : BitVec 4 := 1#4
abbrev t0 : BitVec 4 := 5#4
abbrev a0 : BitVec 4 := 10#4
abbrev a1 : BitVec 4 := 11#4
abbrev a2 : BitVec 4 := 12#4
abbrev a3 : BitVec 4 := 13#4

/-! ## Register files -/

/-- The register file `f` with the four arguments `v0` to `v3`. -/
def args (f : Regs) (v0 v1 v2 v3 : U32) : Regs :=
  fun r => if r = a0 then v0 else if r = a1 then v1 else if r = a2 then v2 else if r = a3 then v3 else f r

section Args

variable (f : Regs) (v0 v1 v2 v3 v : U32)

@[simp] theorem args_a0 : args f v0 v1 v2 v3 a0 = v0 := rfl
@[simp] theorem args_a1 : args f v0 v1 v2 v3 a1 = v1 := rfl
@[simp] theorem args_a2 : args f v0 v1 v2 v3 a2 = v2 := rfl
@[simp] theorem args_a3 : args f v0 v1 v2 v3 a3 = v3 := rfl
@[simp] theorem args_zero : args f v0 v1 v2 v3 0#4 = f 0#4 := rfl
@[simp] theorem args_ra : args f v0 v1 v2 v3 ra = f ra := rfl
@[simp] theorem args_t0 : args f v0 v1 v2 v3 t0 = f t0 := rfl

theorem args_self : args f (f a0) (f a1) (f a2) (f a3) = f := by
  funext r
  simp only [args]
  split_ifs <;> simp [*]

@[simp] theorem update_a0 : Function.update (args f v0 v1 v2 v3) a0 v = args f v v1 v2 v3 := by
  funext r
  by_cases here : r = a0
  · rw [here, Function.update_self]
    rfl
  · rw [Function.update_of_ne here]
    simp only [args, if_neg here]

@[simp] theorem update_a1 : Function.update (args f v0 v1 v2 v3) a1 v = args f v0 v v2 v3 := by
  funext r
  by_cases here : r = a1
  · rw [here, Function.update_self]
    rfl
  · rw [Function.update_of_ne here]
    simp only [args, if_neg here]

@[simp] theorem update_a2 : Function.update (args f v0 v1 v2 v3) a2 v = args f v0 v1 v v3 := by
  funext r
  by_cases here : r = a2
  · rw [here, Function.update_self]
    rfl
  · rw [Function.update_of_ne here]
    simp only [args, if_neg here]

@[simp] theorem update_a3 : Function.update (args f v0 v1 v2 v3) a3 v = args f v0 v1 v2 v := by
  funext r
  by_cases here : r = a3
  · rw [here, Function.update_self]
    rfl
  · rw [Function.update_of_ne here]
    simp only [args, if_neg here]

variable {f v0 v1 v2 v3}

theorem args_kept {r : BitVec 4} (other : r ∉ [a0, a1, a2, a3]) : args f v0 v1 v2 v3 r = f r := by
  simp only [List.mem_cons, List.not_mem_nil, or_false, not_or] at other
  obtain ⟨n0, n1, n2, n3⟩ := other
  rw [args, if_neg n0, if_neg n1, if_neg n2, if_neg n3]

theorem update_kept {r : BitVec 4} (other : r ∉ [a0, a1, a2, a3]) :
    Function.update (args f v0 v1 v2 v3) r v = args (Function.update f r v) v0 v1 v2 v3 := by
  funext q
  by_cases arg : q ∈ [a0, a1, a2, a3]
  · have differ : q ≠ r := fun same => other (same ▸ arg)
    rw [Function.update_of_ne differ, args, args, Function.update_of_ne differ]
  · rw [args_kept arg, Function.update_apply, Function.update_apply, args_kept arg]

end Args

/-! ## The return to the caller -/

/-- Back at the caller with the result in `a0`; only the registers in `scratch` are lost. -/
structure Returned (before : Hart) (scratch : List (BitVec 4)) (result : U32) (h : Hart) : Prop where
  pc : h.pc = before.reg ra
  live : h.halted = false
  result : h.reg a0 = result
  kept : ∀ r, r ∉ scratch → h.reg r = before.reg r
  rest : h.SameRest before

theorem leads_returned {p : Program} {base : U32} {before : Hart} {scratch : List (BitVec 4)}
    {result : U32} {k : Nat} {g : Regs} {link : BitVec 4} (here : p.code[k]? = some (.jr link))
    (aligned : (before.reg ra).toNat % 4 = 0) (linked : g link = before.reg ra) (value : g a0 = result)
    (kept : ∀ r, r ∉ scratch → g r = before.reg r) :
    p.Leads base before (Returned before scratch result) k g := by
  refine .leave here (by rwa [linked]) fun h pc live regs rest => ?_
  refine ⟨pc.trans linked, live, (regs a0).trans value, fun r other => ?_, rest⟩
  rw [regs, kept r other]

/-- The model called a routine of the program at instruction `entry`. -/
structure Called (p : Program) (base : U32) (entry : Nat) (s : EmulatorIss) : Prop where
  aligned : base.toNat % 4 = 0
  held : p.In base s.memory
  pc : s.hart.pc = insAddress base entry
  live : s.hart.halted = false
  link : (s.hart.reg ra).toNat % 4 = 0

/-- The routine is done after finitely many instructions and has touched registers only. -/
def Returns (s : EmulatorIss) (scratch : List (BitVec 4)) (result : U32) : Prop :=
  ∃ n, Returned s.hart scratch result (s.run n).hart ∧ (s.run n).memory = s.memory ∧
    (s.run n).uart = s.uart

theorem Called.returns {p : Program} {base : U32} {entry : Nat} {s : EmulatorIss}
    {scratch : List (BitVec 4)} {result : U32} (called : Called p base entry s)
    (leads : p.Leads base s.hart (Returned s.hart scratch result) entry
      (args s.hart.reg (s.hart.reg a0) (s.hart.reg a1) (s.hart.reg a2) (s.hart.reg a3))) :
    Returns s scratch result := by
  rw [args_self] at leads
  have at_ : s.hart.At base s.hart entry s.hart.reg :=
    ⟨called.pc, called.live, fun _ => rfl, .refl s.hart⟩
  obtain ⟨n, returned, moves⟩ := Program.reaches_run called.aligned called.held (leads s.hart at_)
  exact ⟨n, returned, moves.memory, moves.uart⟩

/-! ## `muldi3.S` -/

/-- `__mulsi3`: `.L1` is instruction 2, `.L2` instruction 5. -/
def muldi3 : Program where
  code :=
    [.mv a2 a0,
     .li a0 0#12,
     .andi a3 a1 1#12,
     .beqz a3 5,
     .add a0 a0 a2,
     .srli a1 a1 1#5,
     .slli a2 a2 1#5,
     .bnez a1 2,
     .ret]
  short := by decide
  near := by decide

section Multiply

variable {base : U32} {first : Hart} {Q : Hart → Prop} {f : Regs}

/-- `.L1` adds up the multiples of `u` at the bits of `v`. -/
theorem muldi3_loop {product acc u v w : U32} (zero : f 0#4 = 0#32) (sum : acc + u * v = product)
    (after : ∀ u w, muldi3.Leads base first Q 8 (args f product 0#32 u w)) :
    muldi3.Leads base first Q 2 (args f acc v u w) := by
  refine .loop (fun g => ∃ acc v u w, g = args f acc v u w ∧ acc + u * v = product)
    (fun g => (g a1).toNat) ?_ ⟨acc, v, u, w, rfl, sum⟩
  clear sum
  rintro _ ⟨acc, v, u, w, rfl, sum⟩ again
  have shifts (acc w : U32) (sum : acc + (u <<< 1) * (v >>> 1) = product) :
      muldi3.Leads base first Q 5 (args f acc v u w) := by
    refine .shift rfl (by decide) (.shift rfl (by decide) (.branch rfl ?_ ?_)) <;>
      simp only [opImmValue, branchCondition, args_a1, args_a2, args_zero, update_a1, update_a2, zero]
    · intro more
      have left : v >>> 1 ≠ 0#32 := by simpa using more
      refine again _ ⟨acc, v >>> 1, u <<< 1, w, rfl, sum⟩ ?_
      have some_ : (v >>> 1).toNat ≠ 0 := fun none => left (BitVec.eq_of_toNat_eq none)
      rw [BitVec.toNat_ushiftRight, Nat.shiftRight_eq_div_pow] at some_
      show (v >>> 1).toNat < v.toNat
      rw [BitVec.toNat_ushiftRight, Nat.shiftRight_eq_div_pow]
      omega
    · intro none
      have empty : v >>> 1 = 0#32 := by simpa using none
      rw [empty, BitVec.mul_zero, BitVec.add_zero] at sum
      rw [← sum] at after
      have there := after (u <<< 1) w
      rwa [← empty] at there
  rw [mul_shift] at sum
  refine .opImm rfl (by decide) (.branch rfl ?_ ?_) <;>
    simp only [opImmValue, branchCondition, args_a1, args_a3, args_zero, update_a3, zero]
  · intro even
    have clear_ : v.getLsbD 0 = false := (low_bit (by decide) v).mp (by simpa using even)
    rw [clear_, if_neg (by decide), BitVec.zero_add] at sum
    exact shifts _ _ sum
  · intro odd
    have set_ : v.getLsbD 0 = true := by
      rw [← Bool.not_eq_false, ← low_bit (by decide)]
      simpa using odd
    rw [set_, if_pos rfl, ← BitVec.add_assoc] at sum
    refine .op rfl (by decide) ?_
    simp only [opValue, args_a0, args_a2, update_a0]
    exact shifts _ _ sum

end Multiply

/-! ## `div.S` -/

/-- The labels of `div.S` as instruction numbers. -/
def udivsi3 : Nat := 2
def umodsi3 : Nat := 20
def modsi3 : Nat := 35

/-- `__divsi3` is instruction 0; `.L1` to `.L5` are 8, 12, 13, 16 and 19, `.L10` to `.L12`
are 25, 29 and 30, `.L30` to `.L32` are 38, 42 and 44. -/
def div : Program where
  code :=
    [.bltz a0 25,
     .bltz a1 29,
     .mv a2 a1,
     .mv a1 a0,
     .li a0 (.allOnes 12),
     .beqz a2 19,
     .li a3 1#12,
     .bgeu a2 a1 12,
     .blez a2 12,
     .slli a2 a2 1#5,
     .slli a3 a3 1#5,
     .bgtu a1 a2 8,
     .li a0 0#12,
     .bltu a1 a2 16,
     .sub a1 a1 a2,
     .or a0 a0 a3,
     .srli a3 a3 1#5,
     .srli a2 a2 1#5,
     .bnez a3 13,
     .ret] ++
    ([.mv t0 ra] ++ Ins.call 21 udivsi3 ++ [.mv a0 a1, .jr t0]) ++
    ([.neg a0 a0,
      .bgtz a1 30,
      .neg a1 a1,
      .j udivsi3,
      .neg a1 a1,
      .mv t0 ra] ++ Ins.call 31 udivsi3 ++ [.neg a0 a0, .jr t0]) ++
    ([.mv t0 ra,
      .bltz a1 42,
      .bltz a0 44] ++ Ins.call 38 udivsi3 ++ [.mv a0 a1, .jr t0]) ++
    ([.neg a1 a1,
      .bgez a0 38,
      .neg a0 a0] ++ Ins.call 45 udivsi3 ++ [.neg a0 a1, .jr t0])
  short := by decide
  near := by decide

section Divide

variable {base : U32} {first : Hart} {Q : Hart → Prop} {f : Regs}

theorem or_two_pow {k q : Nat} (low : 2 ^ (k + 1) ∣ q) : q ||| 2 ^ k = q + 2 ^ k := by
  obtain ⟨c, rfl⟩ := low
  have small : 2 ^ k < 2 ^ (k + 1) := Nat.pow_lt_pow_right (by decide) (Nat.lt_succ_self k)
  exact (Nat.two_pow_add_eq_or_of_lt small c).symm

theorem toNat_shl_one {v : U32} (small : v.toNat < 2 ^ 31) : (v <<< 1).toNat = 2 * v.toNat := by
  rw [BitVec.toNat_shiftLeft, Nat.shiftLeft_eq]
  omega

theorem toNat_shr_one (v : U32) : (v >>> 1).toNat = v.toNat / 2 := by
  rw [BitVec.toNat_ushiftRight, Nat.shiftRight_eq_div_pow, pow_one]

theorem zero_slt (v : U32) : (0#32).slt v = true ↔ 0 < v.toNat ∧ v.toNat < 2 ^ 31 := by
  rw [BitVec.slt, BitVec.toInt_eq_toNat_cond, BitVec.toInt_eq_toNat_cond, decide_eq_true_eq]
  have bound := v.isLt
  simp only [BitVec.toNat_ofNat]
  split_ifs <;> omega

theorem slt_zero (v : U32) : v.slt 0#32 = true ↔ 2 ^ 31 ≤ v.toNat := by
  rw [BitVec.slt, BitVec.toInt_eq_toNat_cond, BitVec.toInt_eq_toNat_cond, decide_eq_true_eq]
  have bound := v.isLt
  simp only [BitVec.toNat_ofNat]
  split_ifs <;> omega

/-- The loop at `.L1`: the divisor is moved up until it covers the dividend. -/
theorem div_align {n d q u v : U32} {k : Nat} (positive : 0 < d.toNat) (zero : f 0#4 = 0#32)
    (below : u.toNat < n.toNat) (divisor : u.toNat = d.toNat * 2 ^ k) (bit : v.toNat = 2 ^ k)
    (after : ∀ k u v, n.toNat < d.toNat * 2 ^ (k + 1) → u.toNat = d.toNat * 2 ^ k →
      v.toNat = 2 ^ k → div.Leads base first Q 12 (args f q n u v)) :
    div.Leads base first Q 8 (args f q n u v) := by
  refine .loop (fun g => ∃ u v k, g = args f q n u v ∧ u.toNat < n.toNat ∧
    u.toNat = d.toNat * 2 ^ k ∧ v.toNat = 2 ^ k) (fun g => 2 ^ 32 - (g a2).toNat) ?_
    ⟨u, v, k, rfl, below, divisor, bit⟩
  clear below divisor bit
  rintro _ ⟨u, v, k, rfl, below, divisor, bit⟩ again
  have one_le : 2 ^ k ≤ d.toNat * 2 ^ k := Nat.le_mul_of_pos_left _ positive
  have some_ : 0 < 2 ^ k := Nat.two_pow_pos k
  refine .branch rfl ?_ ?_ <;> simp only [branchCondition, args_a2, args_zero, zero, Bool.not_eq_true',
    Bool.not_eq_false']
  · intro top
    have big : ¬ (0 < u.toNat ∧ u.toNat < 2 ^ 31) := by
      rw [← zero_slt, top]
      decide
    refine after k u v ?_ divisor bit
    have bound := n.isLt
    rw [pow_succ, ← Nat.mul_assoc, ← divisor]
    omega
  · intro low
    obtain ⟨-, small⟩ := (zero_slt u).mp low
    have divisor' : (u <<< 1).toNat = d.toNat * 2 ^ (k + 1) := by
      rw [toNat_shl_one small, divisor, pow_succ]
      ring
    have bit' : (v <<< 1).toNat = 2 ^ (k + 1) := by
      rw [toNat_shl_one (by omega), bit, pow_succ, Nat.mul_comm]
    refine .shift rfl (by decide) (.shift rfl (by decide) (.branch rfl ?_ ?_)) <;>
      simp only [opImmValue, branchCondition, args_a1, args_a2, args_a3, update_a2, update_a3]
    · intro less
      have less' : (u <<< 1).toNat < n.toNat := by simpa [BitVec.ult] using less
      refine again _ ⟨u <<< 1, v <<< 1, k + 1, rfl, less', divisor', bit'⟩ ?_
      show 2 ^ 32 - (u <<< 1).toNat < 2 ^ 32 - u.toNat
      have bound := (u <<< 1).isLt
      rw [toNat_shl_one small] at bound ⊢
      omega
    · intro covers
      have covers' : n.toNat ≤ (u <<< 1).toNat := by simpa [BitVec.ult] using covers
      refine after (k + 1) (u <<< 1) (v <<< 1) ?_ divisor' bit'
      rw [pow_succ, ← Nat.mul_assoc, ← divisor']
      have positive' : 0 < d.toNat * 2 ^ (k + 1) := Nat.mul_pos positive (Nat.two_pow_pos _)
      omega

/-- From `.L3` to `.L4` the bit `k` of the quotient is settled. -/
theorem div_settle {n d q r u v : U32} {k : Nat}
    (split : Split n.toNat d.toNat (k + 1) q.toNat r.toNat) (divisor : u.toNat = d.toNat * 2 ^ k)
    (bit : v.toNat = 2 ^ k)
    (after : ∀ q r : U32, Split n.toNat d.toNat k q.toNat r.toNat →
      div.Leads base first Q 16 (args f q r u v)) :
    div.Leads base first Q 13 (args f q r u v) := by
  have settled := split.settle
  rw [← divisor] at settled
  refine .branch rfl ?_ ?_ <;> simp only [branchCondition, args_a1, args_a2]
  · intro less
    rw [if_pos (by simpa [BitVec.ult] using less)] at settled
    exact after q r settled
  · intro covers
    have covers' : u.toNat ≤ r.toNat := by simpa [BitVec.ult] using covers
    rw [if_neg (Nat.not_lt.mpr covers')] at settled
    refine .op rfl (by decide) (.op rfl (by decide) ?_)
    simp only [opValue, args_a0, args_a1, args_a2, args_a3, update_a0, update_a1]
    have quotient : (q ||| v).toNat = q.toNat + 2 ^ k := by
      rw [BitVec.toNat_or, bit, or_two_pow split.low]
    have rest : (r - u).toNat = r.toNat - u.toNat := BitVec.toNat_sub_of_le (BitVec.le_def.mpr covers')
    refine after (q ||| v) (r - u) ?_
    rwa [quotient, rest]

/-- The loop at `.L3`: `k` is the position of the divisor, `q` the quotient so far. -/
theorem div_subtract {n d q r u v : U32} {k : Nat} (zero : f 0#4 = 0#32)
    (split : Split n.toNat d.toNat (k + 1) q.toNat r.toNat) (divisor : u.toNat = d.toNat * 2 ^ k)
    (bit : v.toNat = 2 ^ k)
    (after : ∀ u v, div.Leads base first Q 19 (args f (n / d) (n % d) u v)) :
    div.Leads base first Q 13 (args f q r u v) := by
  induction k generalizing q r u v with
  | zero =>
      refine div_settle split divisor bit fun q r last => ?_
      obtain ⟨quotient, rest⟩ := last.done
      obtain rfl : q = n / d := BitVec.eq_of_toNat_eq (by rw [quotient, BitVec.toNat_udiv])
      obtain rfl : r = n % d := BitVec.eq_of_toNat_eq (by rw [rest, BitVec.toNat_umod])
      have gone : v >>> 1 = 0#32 := BitVec.eq_of_toNat_eq (by rw [toNat_shr_one, bit]; rfl)
      refine .shift rfl (by decide) (.shift rfl (by decide) (.branch rfl ?_ ?_)) <;>
        simp only [opImmValue, branchCondition, args_a2, args_a3, args_zero, update_a2, update_a3, zero]
      · intro more
        exact absurd gone (by simpa using more)
      · intro _
        exact after _ _
  | succ k ih =>
      refine div_settle split divisor bit fun q r next => ?_
      have divisor' : (u >>> 1).toNat = d.toNat * 2 ^ k := by
        rw [toNat_shr_one, divisor, pow_succ, ← Nat.mul_assoc, Nat.mul_div_cancel _ (by decide)]
      have bit' : (v >>> 1).toNat = 2 ^ k := by
        rw [toNat_shr_one, bit, pow_succ, Nat.mul_div_cancel _ (by decide)]
      have left : v >>> 1 ≠ 0#32 := by
        intro none
        rw [none] at bit'
        exact absurd bit'.symm (Nat.two_pow_pos k).ne'
      refine .shift rfl (by decide) (.shift rfl (by decide) (.branch rfl ?_ ?_)) <;>
        simp only [opImmValue, branchCondition, args_a2, args_a3, args_zero, update_a2, update_a3, zero]
      · intro _
        exact ih next divisor' bit'
      · intro none
        exact absurd (by simpa using none) left

/-- The quotient of `divu`: all ones where the divisor is zero. -/
def quotient (n d : U32) : U32 := if d = 0#32 then BitVec.allOnes 32 else n / d

/-- `__udivsi3` leaves the quotient in `a0` and the remainder in `a1`. -/
theorem div_unsigned {n d u v : U32} (after : ∀ u v, div.Leads base first Q 19
    (args f (quotient n d) (n % d) u v)) : div.Leads base first Q udivsi3 (args f n d u v) := by
  refine .zero fun zero => ?_
  rw [args_zero] at zero
  refine .mv rfl (by decide) (.mv rfl (by decide) (.li rfl (by decide) (.branch rfl ?_ ?_))) <;>
    simp only [branchCondition, args_a0, args_a1, args_a2, args_zero, update_a0, update_a1,
      update_a2, zero]
  · intro none
    have none' : d = 0#32 := by simpa using none
    have there := after d v
    rw [quotient, if_pos none', none', BitVec.umod_zero] at there
    rw [none']
    exact there
  · intro some_
    have some' : d ≠ 0#32 := by simpa using some_
    have positive : 0 < d.toNat := Nat.pos_of_ne_zero fun none => some' (BitVec.eq_of_toNat_eq none)
    simp only [quotient, if_neg some'] at after
    -- At `.L2` the divisor covers the dividend.
    have subtract (k : Nat) (q u v : U32) (covers : n.toNat < d.toNat * 2 ^ (k + 1))
        (divisor : u.toNat = d.toNat * 2 ^ k) (bit : v.toNat = 2 ^ k) :
        div.Leads base first Q 12 (args f q n u v) := by
      refine .li rfl (by decide) ?_
      rw [update_a0]
      exact div_subtract zero (.start covers) divisor bit after
    refine .li rfl (by decide) (.branch rfl ?_ ?_) <;>
      simp only [branchCondition, args_a1, args_a2, update_a3]
    · intro covers
      have covers' : n.toNat ≤ d.toNat := by simpa [BitVec.ult] using covers
      exact subtract 0 _ _ _ (by omega) (Nat.mul_one _).symm rfl
    · intro below
      have below' : d.toNat < n.toNat := by simpa [BitVec.ult] using below
      exact div_align (k := 0) positive zero below' (Nat.mul_one _).symm rfl fun k u v =>
        subtract k _ u v

/-- A call of `__udivsi3` from inside the routines. -/
theorem div_call {n d u v : U32} {k : Nat} (aligned : base.toNat % 4 = 0)
    (first_ : div.code[k]? = some (.auipc ra 0#20))
    (second : div.code[k + 1]? = some (.jalr ra ra (BitVec.ofInt 12 (4 * ((udivsi3 : Int) - k)))))
    (near : k ≤ udivsi3 + 512)
    (after : ∀ u v, div.Leads base first Q (k + 2)
      (args (Function.update f ra (insAddress base (k + 2))) (quotient n d) (n % d) u v)) :
    div.Leads base first Q k (args f n d u v) := by
  refine .call aligned first_ second (by decide) ⟨by rw [udivsi3]; omega, near⟩ ?_
  rw [update_kept _ (by decide)]
  refine div_unsigned fun u v => .back aligned rfl ?_ (after u v)
  rw [args_ra, Function.update_self]

/-- The quotient of `div`: all ones where the divisor is zero. -/
def signedQuotient (n d : U32) : U32 := if d = 0#32 then BitVec.allOnes 32 else n.sdiv d

theorem msb_iff (v : U32) : v.msb = v.slt 0#32 := by
  rw [Bool.eq_iff_iff, slt_zero, BitVec.msb_eq_decide, decide_eq_true_eq]

/-- The quotients by the signs of the operands; zero goes with the negative divisors. -/
theorem signedQuotient_eq (n d : U32) : signedQuotient n d =
    if n.msb then if (0#32).slt d then -quotient (-n) d else quotient (-n) (-d)
    else if d.msb then -quotient n (-d) else quotient n d := by
  by_cases none : d = 0#32
  · subst none
    cases n.msb <;> rfl
  · have some_ : d.toNat ≠ 0 := fun zero => none (BitVec.eq_of_toNat_eq zero)
    have negated : -d ≠ 0#32 := fun zero => none (BitVec.neg_eq_zero_iff.mp zero)
    have positive : (0#32).slt d = !d.msb := by
      rw [Bool.eq_iff_iff, zero_slt, Bool.not_eq_true', BitVec.msb_eq_decide, decide_eq_false_iff_not]
      omega
    rw [signedQuotient, if_neg none, positive, BitVec.sdiv_eq]
    simp only [quotient, if_neg none, if_neg negated]
    cases n.msb <;> cases d.msb <;> rfl

end Divide

/-! ## The routines on the reference model -/

variable {base : U32} {s : EmulatorIss}

/-- A model that has called the routine at `entry` with two arguments. -/
def caller (p : Program) (entry : Nat) (x y : U32) : EmulatorIss :=
  { (default : EmulatorIss) with
    memory := Memory.ofWords (p.code.zipIdx.map fun (i, k) => i.word k)
    hart :=
      { (default : Hart) with
        pc := insAddress 0x20000000#32 entry
        x := fun r => if r = ra then 0x20001000#32 else if r = a0 then x else if r = a1 then y else 0#32 } }

/-- `__mulsi3` returns the product, and keeps the temporaries as its callers in C rely on. -/
theorem mulsi3_returns (called : Called muldi3 base 0 s) :
    Returns s [a0, a1, a2, a3] (s.hart.reg a0 * s.hart.reg a1) := by
  refine called.returns ?_
  refine .zero fun zero => .mv rfl (by decide) (.li rfl (by decide) ?_)
  rw [args_zero] at zero
  simp only [args_a0, update_a0, update_a2]
  refine muldi3_loop zero (BitVec.zero_add _) fun u w => ?_
  exact leads_returned rfl called.link rfl rfl fun r other => args_kept other

theorem mulsi3_six_seven : Returns (caller muldi3 0 6#32 7#32) [a0, a1, a2, a3] 42#32 :=
  have called : Called muldi3 0x20000000#32 0 (caller muldi3 0 6#32 7#32) :=
    ⟨by decide, by decide +kernel, rfl, rfl, by decide⟩
  mulsi3_returns called

/-- The scratch registers of the routines of `div.S`. -/
def scratch : List (BitVec 4) := [ra, t0, a0, a1, a2, a3]

theorem scratch_kept {f : Regs} {v0 v1 v2 v3 v w : U32} {r : BitVec 4} (other : r ∉ scratch) :
    args (Function.update (Function.update f t0 v) ra w) v0 v1 v2 v3 r = f r := by
  simp only [scratch, List.mem_cons, List.not_mem_nil, or_false, not_or] at other
  obtain ⟨link, temporary, n0, n1, n2, n3⟩ := other
  rw [args_kept (by simp [n0, n1, n2, n3]), Function.update_of_ne link, Function.update_of_ne temporary]

theorem udivsi3_leads (called : Called div base udivsi3 s) :
    Returns s scratch (quotient (s.hart.reg a0) (s.hart.reg a1)) := by
  refine called.returns ?_
  refine div_unsigned fun u v => ?_
  refine leads_returned rfl called.link rfl rfl fun r other => args_kept ?_
  simp only [scratch, List.mem_cons, not_or] at other ⊢
  exact other.2.2

theorem umodsi3_leads (called : Called div base umodsi3 s) :
    Returns s scratch (s.hart.reg a0 % s.hart.reg a1) := by
  refine called.returns ?_
  refine .mv rfl (by decide) ?_
  rw [update_kept _ (by decide)]
  refine div_call called.aligned rfl rfl (by decide) fun u v => .mv rfl (by decide) ?_
  rw [update_a0]
  exact leads_returned rfl called.link rfl rfl fun r other => scratch_kept other

theorem divsi3_leads (called : Called div base 0 s) :
    Returns s scratch (signedQuotient (s.hart.reg a0) (s.hart.reg a1)) := by
  refine called.returns ?_
  rw [signedQuotient_eq]
  generalize s.hart.reg a0 = n, s.hart.reg a1 = d
  -- `.L12` negates the quotient.
  have negates (n d u v : U32) : div.Leads base s.hart (Returned s.hart scratch (-quotient n d)) 30
      (args s.hart.reg n d u v) := by
    refine .mv rfl (by decide) ?_
    rw [update_kept _ (by decide)]
    refine div_call called.aligned rfl rfl (by decide) fun u v => .neg rfl (by decide) ?_
    rw [update_a0]
    exact leads_returned rfl called.link rfl rfl fun r other => scratch_kept other
  have divides (n d u v : U32) : div.Leads base s.hart (Returned s.hart scratch (quotient n d)) udivsi3
      (args s.hart.reg n d u v) := by
    refine div_unsigned fun u v => leads_returned rfl called.link rfl rfl fun r other => args_kept ?_
    simp only [scratch, List.mem_cons, not_or] at other ⊢
    exact other.2.2
  refine .zero fun zero => ?_
  rw [args_zero] at zero
  refine .branch rfl ?_ ?_ <;> simp only [branchCondition, args_a0, args_zero, zero, ← msb_iff]
  · intro low
    rw [if_pos low]
    refine .neg rfl (by decide) (.branch rfl ?_ ?_) <;>
      simp only [branchCondition, args_a0, args_a1, args_zero, update_a0, zero]
    · intro positive
      rw [if_pos positive]
      exact negates _ _ _ _
    · intro other
      rw [if_neg (by rw [other]; decide)]
      refine .neg rfl (by decide) (.jump rfl ?_)
      rw [update_a1]
      exact divides _ _ _ _
  · intro high
    rw [if_neg (by rw [high]; decide)]
    refine .branch rfl ?_ ?_ <;> simp only [branchCondition, args_a1, args_zero, zero, ← msb_iff]
    · intro low
      rw [if_pos low]
      refine .neg rfl (by decide) ?_
      rw [update_a1]
      exact negates _ _ _ _
    · intro high'
      rw [if_neg (by rw [high']; decide)]
      exact divides _ _ _ _

theorem modsi3_leads (called : Called div base modsi3 s) :
    Returns s scratch ((s.hart.reg a0).srem (s.hart.reg a1)) := by
  refine called.returns ?_
  generalize s.hart.reg a0 = n, s.hart.reg a1 = d
  -- `.L30` and `.L32` return the remainder and its negation.
  have keeps (n d u v : U32) : div.Leads base s.hart (Returned s.hart scratch (n % d)) 38
      (args (Function.update s.hart.reg t0 (s.hart.reg ra)) n d u v) := by
    refine div_call called.aligned rfl rfl (by decide) fun u v => .mv rfl (by decide) ?_
    rw [update_a0]
    exact leads_returned rfl called.link rfl rfl fun r other => scratch_kept other
  have negates (n d u v : U32) : div.Leads base s.hart (Returned s.hart scratch (-(-n % d))) 44
      (args (Function.update s.hart.reg t0 (s.hart.reg ra)) n d u v) := by
    refine .neg rfl (by decide) ?_
    rw [update_a0]
    refine div_call called.aligned rfl rfl (by decide) fun u v => .neg rfl (by decide) ?_
    rw [update_a0]
    exact leads_returned rfl called.link rfl rfl fun r other => scratch_kept other
  refine .zero fun zero => ?_
  rw [args_zero] at zero
  have zero' : Function.update s.hart.reg t0 (s.hart.reg ra) 0#4 = 0#32 := zero
  refine .mv rfl (by decide) ?_
  rw [update_kept _ (by decide), args_ra, BitVec.srem_eq]
  refine .branch rfl ?_ ?_ <;> simp only [branchCondition, args_a1, args_zero, zero', ← msb_iff]
  · intro divisor
    rw [divisor]
    refine .neg rfl (by decide) ?_
    rw [update_a1]
    refine .branch rfl ?_ ?_ <;> simp only [branchCondition, args_a0, args_zero, zero', ← msb_iff]
    · intro high
      rw [Bool.not_eq_true'] at high
      rw [high]
      exact keeps _ _ _ _
    · intro low
      rw [Bool.not_eq_false'] at low
      rw [low]
      exact negates _ _ _ _
  · intro divisor
    rw [divisor]
    refine .branch rfl ?_ ?_ <;> simp only [branchCondition, args_a0, args_zero, zero', ← msb_iff]
    · intro low
      rw [low]
      exact negates _ _ _ _
    · intro high
      rw [high]
      exact keeps _ _ _ _

/-- The routines of `div.S`. -/
inductive Routine where
  | udivsi3 | umodsi3 | divsi3 | modsi3
  deriving DecidableEq, Repr

def Routine.entry : Routine → Nat
  | .udivsi3 => Libgcc.udivsi3
  | .umodsi3 => Libgcc.umodsi3
  | .divsi3 => 0
  | .modsi3 => Libgcc.modsi3

/-- What `divu`, `remu`, `div` and `rem` are to give. -/
def Routine.result : Routine → U32 → U32 → U32
  | .udivsi3, n, d => quotient n d
  | .umodsi3, n, d => n % d
  | .divsi3, n, d => signedQuotient n d
  | .modsi3, n, d => n.srem d

/-- Every routine of `div.S` returns what its instruction is to give, for all operands. -/
theorem div_returns (routine : Routine) (called : Called div base routine.entry s) :
    Returns s scratch (routine.result (s.hart.reg a0) (s.hart.reg a1)) := by
  cases routine with
  | udivsi3 => exact udivsi3_leads called
  | umodsi3 => exact umodsi3_leads called
  | divsi3 => exact divsi3_leads called
  | modsi3 => exact modsi3_leads called

/-- `INT_MIN / -1` wraps around. -/
theorem div_returns_min : Returns (caller div 0 0x80000000#32 (-1#32)) scratch 0x80000000#32 :=
  have called : Called div 0x20000000#32 0 (caller div 0 0x80000000#32 (-1#32)) :=
    ⟨by decide, by decide +kernel, rfl, rfl, by decide⟩
  div_returns .divsi3 called

end NpcMachine.Am.Libgcc
