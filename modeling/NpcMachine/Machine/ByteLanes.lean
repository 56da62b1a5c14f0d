/-
# Machine.ByteLanes -- a byte memory behind a four-lane bus

A memory is a function from addresses to bytes.  `storeLe` and `leNat` are the
little-endian store and load of `n` bytes.  A bus of 32 bits moves the byte of address
`a` on lane `a % 4`: `writeLanes` is a write with one strobe for each lane, `OnLanes`
says that a word carries the bytes of an access on their lanes.

* `writeLanes_eq_storeLe`: a write whose strobes cover the access, with the value
  shifted to its lanes, is the little-endian store;
* `low_eq_leNat_iff`: the low bits of a word are the little-endian value exactly when
  the bytes of the access are on the lanes from 0.
-/
import NpcMachine.Machine.Bits

namespace NpcMachine.Machine

set_option autoImplicit false

abbrev Bytes := BitVec 32 → BitVec 8

/-- Byte `k` of a vector. -/
def byteOf {n : Nat} (v : BitVec n) (k : Nat) : BitVec 8 := v.extractLsb' (8 * k) 8

def lane (addr : BitVec 32) : Nat := addr.toNat % 4

def storeLe (m : Bytes) (addr : BitVec 32) (n : Nat) (v : BitVec 32) : Bytes :=
  fun a => if (a - addr).toNat < n then byteOf v (a - addr).toNat else m a

/-- The little-endian value of `n` bytes. -/
def leNat (m : Bytes) (addr : BitVec 32) : Nat → Nat
  | 0 => 0
  | n + 1 => leNat m addr n + (m (addr + BitVec.ofNat 32 n)).toNat * 2 ^ (8 * n)

/-- A write of the word at `addr`: the strobed lanes take their byte of `data`. -/
def writeLanes (m : Bytes) (addr : BitVec 32) (strobe : BitVec 4) (data : BitVec 32) : Bytes :=
  fun a => if a.toNat / 4 = addr.toNat / 4 ∧ strobe.getLsbD (lane a) = true then
    byteOf data (lane a) else m a

/-- The bytes of an access are on the lanes of their addresses. -/
def OnLanes (data : BitVec 32) (m : Bytes) (addr : BitVec 32) (n : Nat) : Prop :=
  ∀ k, k < n → byteOf data (lane (addr + BitVec.ofNat 32 k)) = m (addr + BitVec.ofNat 32 k)

/-- The word with the bytes `f 0` to `f 3`. -/
def ofBytes (f : Nat → BitVec 8) : BitVec 32 := f 3 ++ f 2 ++ f 1 ++ f 0

theorem byteOf_ofBytes (f : Nat → BitVec 8) {k : Nat} (inside : k < 4) :
    byteOf (ofBytes f) k = f k := by
  have b0 := (f 0).isLt
  have b1 := (f 1).isLt
  have b2 := (f 2).isLt
  have b3 := (f 3).isLt
  have each : k = 0 ∨ k = 1 ∨ k = 2 ∨ k = 3 := by omega
  apply BitVec.eq_of_toNat_eq
  rw [byteOf, toNat_extract, ofBytes, toNat_append_mul, toNat_append_mul, toNat_append_mul]
  rcases each with rfl | rfl | rfl | rfl
  all_goals
    simp only [Nat.reducePow, Nat.reduceMul]
    omega

theorem byteOf_append {n m : Nat} (x : BitVec n) (y : BitVec m) {k : Nat} (inside : 8 * k + 8 ≤ m) :
    byteOf (x ++ y) k = byteOf y k := by
  apply BitVec.eq_of_getLsbD_eq
  intro b small
  have low : 8 * k + b < m := by omega
  simp [byteOf, BitVec.getLsbD_append, small, low]

theorem byteOf_low {n m : Nat} (v : BitVec n) {k : Nat} (inside : 8 * k + 8 ≤ m) :
    byteOf (v.extractLsb' 0 m) k = byteOf v k := by
  apply BitVec.eq_of_getLsbD_eq
  intro b small
  have low : 8 * k + b < m := by omega
  simp [byteOf, small, low]

/-- Shifting by whole lanes moves every byte up. -/
theorem byteOf_shiftLeft (v : BitVec 32) {r k : Nat} (inside : r + k < 4) :
    byteOf (v <<< (8 * r)) (r + k) = byteOf v k := by
  apply BitVec.eq_of_getLsbD_eq
  intro b small
  have place : 8 * (r + k) + b = 8 * r + (8 * k + b) := by omega
  simp only [byteOf, BitVec.getLsbD_extractLsb', BitVec.getLsbD_shiftLeft, place, small,
    decide_true, Bool.true_and]
  have high : 8 * r + (8 * k + b) < 32 := by omega
  simp [high]

/-! ## Stores -/

/-- Within one word the lanes of an access follow each other. -/
theorem lane_add {addr : BitVec 32} {n k : Nat} (fits : lane addr + n ≤ 4) (inside : k < n) :
    lane (addr + BitVec.ofNat 32 k) = lane addr + k := by
  have bound := addr.isLt
  unfold lane at fits ⊢
  rw [BitVec.toNat_add, BitVec.toNat_ofNat, Nat.mod_eq_of_lt (a := k) (by omega)]
  omega

theorem writeLanes_eq_storeLe (m : Bytes) {addr : BitVec 32} {n : Nat} {strobe : BitVec 4}
    {data v : BitVec 32} (fits : lane addr + n ≤ 4)
    (covers : ∀ k, k < 4 → (strobe.getLsbD k = true ↔ lane addr ≤ k ∧ k < lane addr + n))
    (shifted : ∀ k, k < n → byteOf data (lane addr + k) = byteOf v k) :
    writeLanes m addr strobe data = storeLe m addr n v := by
  funext a
  have aBound := a.isLt
  have addrBound := addr.isLt
  have low : lane a < 4 := Nat.mod_lt _ (by omega)
  have offset : (a - addr).toNat = (2 ^ 32 - addr.toNat + a.toNat) % 2 ^ 32 := BitVec.toNat_sub a addr
  have same : (a.toNat / 4 = addr.toNat / 4 ∧ strobe.getLsbD (lane a) = true) ↔
      (a - addr).toNat < n := by
    rw [covers (lane a) low, offset]
    unfold lane at fits ⊢
    omega
  unfold writeLanes storeLe
  by_cases inside : (a - addr).toNat < n
  · rw [if_pos (same.mpr inside), if_pos inside, ← shifted _ inside]
    congr 1
    have near := (same.mpr inside).1
    have after := ((covers (lane a) low).mp (same.mpr inside).2).1
    unfold lane at after ⊢
    omega
  · rw [if_neg (fun hit => inside (same.mp hit)), if_neg inside]

/-! ## Loads -/

theorem toNat_byteOf {n : Nat} (v : BitVec n) (k : Nat) :
    (byteOf v k).toNat = v.toNat / 2 ^ (8 * k) % 256 := toNat_extract v (8 * k) 8

theorem leNat_lt (m : Bytes) (addr : BitVec 32) (n : Nat) : leNat m addr n < 2 ^ (8 * n) := by
  induction n with
  | zero => exact Nat.one_pos
  | succ n ih =>
      have byte := (m (addr + BitVec.ofNat 32 n)).isLt
      have wide : 2 ^ (8 * (n + 1)) = 2 ^ (8 * n) * 256 := by rw [Nat.mul_succ, Nat.pow_add]
      have top : (m (addr + BitVec.ofNat 32 n)).toNat * 2 ^ (8 * n) ≤ 255 * 2 ^ (8 * n) :=
        Nat.mul_le_mul_right _ (by omega)
      rw [wide, leNat]
      omega

theorem digit_mod (x : Nat) {n k : Nat} (below : k < n) :
    x % 2 ^ (8 * n) / 2 ^ (8 * k) % 256 = x / 2 ^ (8 * k) % 256 := by
  have room : 2 ^ (8 * n) = 2 ^ (8 * k) * 2 ^ (8 * (n - k)) := by
    rw [← Nat.pow_add]
    congr 1
    omega
  have bytes : (256 : Nat) ∣ 2 ^ (8 * (n - k)) := by
    have one : (256 : Nat) = 2 ^ 8 := rfl
    rw [one]
    exact Nat.pow_dvd_pow 2 (by omega)
  rw [room, Nat.mod_mul_right_div_self, Nat.mod_mod_of_dvd _ bytes]

/-- A number below `2 ^ (8 * n)` is the value of `n` bytes when these are its digits. -/
theorem eq_leNat_iff (m : Bytes) (addr : BitVec 32) (n x : Nat) (small : x < 2 ^ (8 * n)) :
    x = leNat m addr n ↔
      ∀ k, k < n → x / 2 ^ (8 * k) % 256 = (m (addr + BitVec.ofNat 32 k)).toNat := by
  induction n generalizing x with
  | zero =>
      have zero : x = 0 := by omega
      simp [zero, leNat]
  | succ n ih =>
      have pos : 0 < 2 ^ (8 * n) := Nat.two_pow_pos _
      have wide : 2 ^ (8 * (n + 1)) = 2 ^ (8 * n) * 256 := by rw [Nat.mul_succ, Nat.pow_add]
      have low := Nat.mod_lt x pos
      have top : x / 2 ^ (8 * n) < 256 := by
        rw [Nat.div_lt_iff_lt_mul pos]
        rw [wide, Nat.mul_comm] at small
        exact small
      have split := Nat.div_add_mod x (2 ^ (8 * n))
      have value := leNat_lt m addr n
      have parts : x = leNat m addr (n + 1) ↔ x % 2 ^ (8 * n) = leNat m addr n ∧
          x / 2 ^ (8 * n) = (m (addr + BitVec.ofNat 32 n)).toNat := by
        rw [leNat]
        constructor
        · intro same
          subst same
          constructor
          · rw [Nat.add_mul_mod_self_right, Nat.mod_eq_of_lt value]
          · rw [Nat.add_mul_div_right _ _ pos, Nat.div_eq_of_lt value, Nat.zero_add]
        · rintro ⟨rest, last⟩
          rw [rest, last, Nat.mul_comm] at split
          omega
      rw [parts, ih _ low]
      constructor
      · rintro ⟨rest, last⟩ k below
        rcases Nat.lt_succ_iff_lt_or_eq.mp below with earlier | rfl
        · rw [← digit_mod x earlier]
          exact rest k earlier
        · rw [last]
          exact Nat.mod_eq_of_lt (BitVec.isLt _)
      · intro all
        constructor
        · intro k below
          rw [digit_mod x below]
          exact all k (by omega)
        · rw [← all n (by omega), Nat.mod_eq_of_lt top]

/-- The low `n` bytes of a word are the value of `n` bytes of memory exactly when the
lanes from 0 carry them. -/
theorem low_eq_leNat_iff (data : BitVec 32) (m : Bytes) (addr : BitVec 32) (n : Nat) :
    data.extractLsb' 0 (8 * n) = BitVec.ofNat (8 * n) (leNat m addr n) ↔
      ∀ k, k < n → byteOf data k = m (addr + BitVec.ofNat 32 k) := by
  have low : (data.extractLsb' 0 (8 * n)).toNat = data.toNat % 2 ^ (8 * n) := by
    rw [toNat_extract, Nat.pow_zero, Nat.div_one]
  rw [← BitVec.toNat_inj, low, BitVec.toNat_ofNat, Nat.mod_eq_of_lt (leNat_lt m addr n),
    eq_leNat_iff m addr n _ (Nat.mod_lt _ (Nat.two_pow_pos _))]
  refine forall_congr' fun k => forall_congr' fun below => ?_
  rw [← BitVec.toNat_inj, toNat_byteOf, digit_mod _ below]

end NpcMachine.Machine
