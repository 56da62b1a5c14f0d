/-
# Machine.Buckets -- lists by number, with a bit for each

Elements that wait stand in the list of their number, and a bit is set for each list that
is not empty.  The lowest bit then finds an element with the least number.

* `Filed`: which elements stand where, and what the bits say;
* `Filed.insert`, `Filed.remove`: one element more, one element less;
* `Filed.lowest`: the head of the list of the lowest bit.
-/
import Mathlib.Logic.Function.Basic
import NpcMachine.Machine.CountZeros

namespace NpcMachine.Machine

set_option autoImplicit false

variable {T : Type} {w : Nat}

/-- The elements with `waits` stand in the list of their `key`, once, and nothing else does;
the bits mark the lists that have elements. -/
structure Filed (lists : Nat → List T) (bits : BitVec w) (key : T → Nat) (waits : T → Prop) : Prop where
  once : ∀ i, (lists i).Nodup
  here : ∀ i x, x ∈ lists i ↔ waits x ∧ key x = i
  inside : ∀ x, waits x → key x < w
  marked : ∀ i, i < w → (bits.getLsbD i = true ↔ lists i ≠ [])

namespace Filed

variable {lists : Nat → List T} {bits : BitVec w} {key key' : T → Nat} {waits waits' : T → Prop}

theorem empty (key : T → Nat) : Filed (fun _ => []) 0#w key (fun _ => False) where
  once _ := List.nodup_nil
  here _ _ := by simp
  inside _ none := none.elim
  marked _ _ := by simp

theorem congr (filed : Filed lists bits key waits) (same : ∀ x, waits' x ↔ waits x)
    (keys : ∀ x, waits x → key' x = key x) : Filed lists bits key' waits' where
  once := filed.once
  here i x := by
    rw [filed.here, same]
    exact and_congr_right fun waiting => by rw [keys x waiting]
  inside x waiting := by
    rw [keys x ((same x).mp waiting)]
    exact filed.inside x ((same x).mp waiting)
  marked := filed.marked

theorem getLsbD_single {i j : Nat} (inside : j < w) : (1#w <<< i).getLsbD j = decide (j = i) := by
  rw [BitVec.getLsbD_shiftLeft, BitVec.getLsbD_one, decide_eq_true inside, Bool.true_and]
  by_cases below : j < i
  · simp [below, Nat.ne_of_lt below]
  · have same : j - i = 0 ↔ j = i := by omega
    simp [below, same, Nat.zero_lt_of_lt inside]

/-- The list of `x` gets `x` at some place, and the bit of the list is set. -/
theorem insert [DecidableEq T] (filed : Filed lists bits key waits) {x : T} (new : ¬ waits x)
    (small : key x < w) {l : List T} (once : l.Nodup) (grown : ∀ y, y ∈ l ↔ y = x ∨ y ∈ lists (key x)) :
    Filed (Function.update lists (key x) l) (bits ||| 1#w <<< key x) key (fun y => y = x ∨ waits y) where
  once i := by
    by_cases is : i = key x
    · rw [is, Function.update_self]
      exact once
    · rw [Function.update_of_ne is]
      exact filed.once i
  here i y := by
    by_cases is : i = key x
    · rw [is, Function.update_self, grown, filed.here]
      constructor
      · rintro (rfl | ⟨waiting, same⟩)
        · exact ⟨.inl rfl, rfl⟩
        · exact ⟨.inr waiting, same⟩
      · rintro ⟨rfl | waiting, same⟩
        · exact .inl rfl
        · exact .inr ⟨waiting, same⟩
    · rw [Function.update_of_ne is, filed.here]
      constructor
      · exact fun ⟨waiting, same⟩ => ⟨.inr waiting, same⟩
      · rintro ⟨rfl | waiting, same⟩
        · exact absurd same.symm is
        · exact ⟨waiting, same⟩
  inside y waiting := by
    rcases waiting with rfl | waiting
    · exact small
    · exact filed.inside y waiting
  marked i low := by
    rw [BitVec.getLsbD_or, getLsbD_single low]
    by_cases is : i = key x
    · have some : l ≠ [] := List.ne_nil_of_mem ((grown x).mpr (.inl rfl))
      simp [is, some]
    · rw [Function.update_of_ne is, decide_eq_false is, Bool.or_false]
      exact filed.marked i low

/-- `x` is taken out wherever it stands; the bit of its list goes with the last element. -/
theorem remove [DecidableEq T] (filed : Filed lists bits key waits) (x : T) :
    Filed (fun i => (lists i).erase x)
      (if (lists (key x)).erase x = [] then bits &&& ~~~(1#w <<< key x) else bits) key
      (fun y => y ≠ x ∧ waits y) where
  once i := (filed.once i).erase x
  here i y := by
    rw [(filed.once i).mem_erase_iff, filed.here, and_assoc]
  inside y waiting := filed.inside y waiting.2
  marked i low := by
    by_cases is : i = key x
    · subst is
      by_cases last : (lists (key x)).erase x = []
      · rw [if_pos last, BitVec.getLsbD_and, BitVec.getLsbD_not, getLsbD_single low]
        simp [last]
      · rw [if_neg last, filed.marked _ low]
        exact iff_of_true (fun none => last (by rw [none]; rfl)) last
    · have absent : x ∉ lists i := fun mem => is ((filed.here i x).mp mem).2.symm
      rw [List.erase_of_not_mem absent, ← filed.marked i low]
      split
      · rw [BitVec.getLsbD_and, BitVec.getLsbD_not, getLsbD_single low, decide_eq_false is,
          decide_eq_true low, Bool.not_false, Bool.true_and, Bool.and_true]
      · rfl

theorem none_waits (filed : Filed lists bits key waits) : bits = 0#w ↔ ∀ x, ¬ waits x := by
  constructor
  · rintro rfl x waiting
    have set := (filed.marked _ (filed.inside x waiting)).mpr
      (List.ne_nil_of_mem ((filed.here _ x).mpr ⟨waiting, rfl⟩))
    rw [BitVec.getLsbD_zero] at set
    exact Bool.noConfusion set
  · intro none
    apply BitVec.eq_of_getLsbD_eq
    intro i low
    rw [BitVec.getLsbD_zero, Bool.eq_false_iff]
    intro set
    obtain ⟨x, mem⟩ := List.exists_mem_of_ne_nil _ ((filed.marked i low).mp set)
    exact none x ((filed.here i x).mp mem).1

/-- The list of the lowest bit has an element at its head, and no number is less than its own. -/
theorem lowest (filed : Filed lists bits key waits) (some : bits ≠ 0#w) :
    ∃ x rest, lists bits.ctz.toNat = x :: rest ∧ waits x ∧ key x = bits.ctz.toNat ∧
      ∀ y, waits y → key x ≤ key y := by
  have set := BitVec.getLsbD_true_ctz_of_ne_zero some
  have low : bits.ctz.toNat < w := BitVec.lt_of_getLsbD set
  obtain ⟨x, rest, is⟩ := List.exists_cons_of_ne_nil ((filed.marked _ low).mp set)
  obtain ⟨waiting, same⟩ := (filed.here _ x).mp (is ▸ List.mem_cons_self)
  refine ⟨x, rest, is, waiting, same, fun y other => ?_⟩
  rw [same]
  by_contra less
  have clear := BitVec.getLsbD_false_of_lt_ctz (Nat.lt_of_not_le less)
  rw [(filed.marked _ (filed.inside y other)).mpr
    (List.ne_nil_of_mem ((filed.here _ y).mpr ⟨other, rfl⟩))] at clear
  exact Bool.noConfusion clear

end Filed

end NpcMachine.Machine
