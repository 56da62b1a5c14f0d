/-
# Klib.Alloc -- malloc, calloc and realloc of klib

The allocator of `stdlib.c` cuts blocks downwards from `heap.end` and never takes one
back.  Its only state is the static pointer of `malloc`, which a `NULL` value sends back
to `heap.end`.  All sums are on 32 bits: the rounding of a size, the difference that is
tested against `heap.start`, and the product of `calloc`.

A `History` is a run of calls with the blocks handed out.  Each reply of a run is `Fresh`
-- aligned, inside the heap, apart from every block before it and cleared by `calloc` --
exactly when each call is `Clear`: the limit test refuses it, or the size rounded up over
the integers fits below the pointer, and no earlier block lies below that pointer, as one
does after the pointer has reached 0 and gone back to `heap.end`
(`replies_fresh_iff`).
-/
import NpcMachine.Klib.Memmove
import NpcMachine.Machine.Bits
import NpcMachine.Machine.Run

namespace NpcMachine.Klib

open NpcMachine.Machine

set_option autoImplicit false

structure Heap where
  start : BitVec 32
  end_ : BitVec 32

def memset (m : Bytes) (s c n : BitVec 32) : BitVec 32 × Bytes :=
  (s, fill m s (c.setWidth 8) n.toNat)

/-- `ptr` after its first test. -/
def Heap.current (heap : Heap) (ptr : BitVec 32) : BitVec 32 :=
  if ptr = 0#32 then heap.end_ else ptr

def roundSize (size : BitVec 32) : BitVec 32 := (size + 7#32) &&& ~~~7#32

/-- The pointer returned and the value left in the static `ptr`. -/
def malloc (heap : Heap) (ptr size : BitVec 32) : BitVec 32 × BitVec 32 :=
  let ptr := heap.current ptr
  let size := roundSize size
  if ptr - size < heap.start then (0#32, ptr) else (ptr - size, ptr - size)

def free (m : Bytes) (_ptr : BitVec 32) : Bytes := m

structure Reply where
  result : BitVec 32
  ptr : BitVec 32
  mem : Bytes

def calloc (heap : Heap) (ptr : BitVec 32) (m : Bytes) (nmemb size : BitVec 32) : Reply :=
  let total := nmemb * size
  let ret := malloc heap ptr total
  ⟨ret.1, ret.2, if ret.1 ≠ 0#32 then (memset m ret.1 0#32 total).2 else m⟩

def realloc (heap : Heap) (ptr : BitVec 32) (m : Bytes) (old size : BitVec 32) : Reply :=
  if old = 0#32 then
    let ret := malloc heap ptr size
    ⟨ret.1, ret.2, m⟩
  else if size = 0#32 then ⟨0#32, ptr, free m old⟩
  else
    let ret := malloc heap ptr size
    let m := if ret.1 ≠ 0#32 then (memcpy m ret.1 old size).2 else m
    ⟨ret.1, ret.2, free m old⟩

/-! ## Calls -/

inductive Call where
  | malloc (size : BitVec 32)
  | calloc (nmemb size : BitVec 32)
  | realloc (ptr size : BitVec 32)

namespace Call

def perform (heap : Heap) (ptr : BitVec 32) (m : Bytes) : Call → Reply
  | malloc size =>
      let ret := Klib.malloc heap ptr size
      ⟨ret.1, ret.2, m⟩
  | calloc nmemb size => Klib.calloc heap ptr m nmemb size
  | realloc old size => Klib.realloc heap ptr m old size

/-- The bytes asked for, over the integers. -/
def request : Call → Nat
  | malloc size => size.toNat
  | calloc nmemb size => nmemb.toNat * size.toNat
  | realloc _ size => size.toNat

/-- The size that `malloc` is called with, where it is called. -/
def asked : Call → Option (BitVec 32)
  | malloc size => some size
  | calloc nmemb size => some (nmemb * size)
  | realloc old size => if old ≠ 0#32 ∧ size = 0#32 then none else some size

theorem asked_toNat {c : Call} {n : BitVec 32} (found : c.asked = some n) :
    n.toNat = c.request % 2 ^ 32 := by
  cases c with
  | malloc size =>
      cases found
      exact (Nat.mod_eq_of_lt n.isLt).symm
  | calloc nmemb size =>
      cases found
      exact BitVec.toNat_mul nmemb size
  | realloc old size =>
      simp only [asked] at found
      split at found
      · cases found
      · cases found
        exact (Nat.mod_eq_of_lt n.isLt).symm

theorem perform_none (heap : Heap) (ptr : BitVec 32) (m : Bytes) {c : Call} (idle : c.asked = none) :
    (c.perform heap ptr m).result = 0#32 ∧ (c.perform heap ptr m).ptr = ptr := by
  cases c with
  | malloc size => cases idle
  | calloc nmemb size => cases idle
  | realloc old size =>
      simp only [asked] at idle
      split at idle
      next empty => rw [perform, Klib.realloc, if_neg empty.1, if_pos empty.2]; exact ⟨rfl, rfl⟩
      next => cases idle

theorem perform_some (heap : Heap) (ptr : BitVec 32) (m : Bytes) {c : Call} {n : BitVec 32}
    (found : c.asked = some n) :
    (c.perform heap ptr m).result = (Klib.malloc heap ptr n).1 ∧
      (c.perform heap ptr m).ptr = (Klib.malloc heap ptr n).2 := by
  cases c with
  | malloc size => cases found; exact ⟨rfl, rfl⟩
  | calloc nmemb size => cases found; exact ⟨rfl, rfl⟩
  | realloc old size =>
      simp only [asked] at found
      split at found
      next => cases found
      next full =>
        cases found
        rw [perform, Klib.realloc]
        by_cases fresh : old = 0#32
        · rw [if_pos fresh]
          exact ⟨rfl, rfl⟩
        · rw [if_neg fresh, if_neg fun empty => full ⟨fresh, empty⟩]
          exact ⟨rfl, rfl⟩

end Call

/-! ## Runs -/

structure Block where
  addr : BitVec 32
  size : Nat

namespace Block

def Covers (b : Block) (a : Nat) : Prop := b.addr.toNat ≤ a ∧ a < b.addr.toNat + b.size

def Apart (b c : Block) : Prop := ∀ a, ¬ (b.Covers a ∧ c.Covers a)

def Inside (b : Block) (heap : Heap) : Prop :=
  heap.start.toNat ≤ b.addr.toNat ∧ b.addr.toNat + b.size ≤ heap.end_.toNat

end Block

/-- The static pointer and the blocks handed out so far. -/
structure History where
  ptr : BitVec 32
  blocks : List Block

namespace History

def start : History := ⟨0#32, []⟩

/-- A call, with the memory it finds. -/
def step (heap : Heap) (h : History) (call : Call × Bytes) : History :=
  let reply := call.1.perform heap h.ptr call.2
  ⟨reply.ptr, if reply.result = 0#32 then h.blocks else ⟨reply.result, call.1.request⟩ :: h.blocks⟩

end History

/-- What the reply to a call has to be. -/
structure Fresh (heap : Heap) (h : History) (c : Call) (reply : Reply) : Prop where
  aligned : 8 ∣ reply.result.toNat
  inside : Block.Inside ⟨reply.result, c.request⟩ heap
  apart : ∀ b ∈ h.blocks, Block.Apart ⟨reply.result, c.request⟩ b
  cleared : ∀ nmemb size, c = .calloc nmemb size → ∀ i, i < c.request →
    reply.mem (reply.result + BitVec.ofNat 32 i) = 0#8

/-- A reply that is `NULL` or fresh. -/
def Replies (heap : Heap) (h : History) (call : Call × Bytes) : Prop :=
  let reply := call.1.perform heap h.ptr call.2
  reply.result ≠ 0#32 → Fresh heap h call.1 reply

/-- The limit test refuses a size, or its block would be at 0. -/
def Refused (heap : Heap) (ptr size : BitVec 32) : Prop :=
  heap.current ptr - roundSize size < heap.start ∨ heap.current ptr = roundSize size

/-- The calls that get `NULL` or a fresh block. -/
def Clear (heap : Heap) (h : History) (c : Call) : Prop :=
  ∀ size, c.asked = some size → Refused heap h.ptr size ∨
    ((c.request + 7) / 8 * 8 ≤ (heap.current h.ptr).toNat ∧
      (c.request = 0 ∨ ∀ b ∈ h.blocks, b.size ≠ 0 → (heap.current h.ptr).toNat ≤ b.addr.toNat))

/-! ## malloc -/

section Malloc

variable {heap : Heap} {ptr size : BitVec 32}

theorem roundSize_toNat (size : BitVec 32) :
    (roundSize size).toNat = if size.toNat + 8 ≤ 2 ^ 32 then (size.toNat + 7) / 8 * 8 else 0 := by
  have mask : ~~~7#32 = ~~~((1#32 <<< 3) - 1#32) := by decide
  have seven : (7#32).toNat = 7 := rfl
  have bound := size.isLt
  rw [roundSize, mask, toNat_and_not_low _ 3 (by decide), BitVec.toNat_add, seven]
  split_ifs with fits <;> omega

theorem malloc_refused (refused : Refused heap ptr size) : (malloc heap ptr size).1 = 0#32 := by
  unfold malloc
  rcases refused with limit | zero
  · simp [limit]
  · simp only [zero, BitVec.sub_self]
    split <;> rfl

theorem malloc_granted (granted : ¬ Refused heap ptr size) :
    malloc heap ptr size = (heap.current ptr - roundSize size, heap.current ptr - roundSize size) := by
  have limit := (not_or.mp granted).1
  simp [malloc, limit]

theorem granted_ne_zero (granted : ¬ Refused heap ptr size) :
    heap.current ptr - roundSize size ≠ 0#32 := by
  intro zero
  exact (not_or.mp granted).2 (sub_eq_zero.mp zero)

theorem granted_start_le (granted : ¬ Refused heap ptr size) :
    heap.start.toNat ≤ (heap.current ptr - roundSize size).toNat := by
  have limit := (not_or.mp granted).1
  rw [BitVec.lt_def] at limit
  omega

/-- A refused call leaves the pointer at its place or at 0. -/
theorem malloc_refused_ptr (refused : Refused heap ptr size) :
    (malloc heap ptr size).2 = heap.current ptr ∨ (malloc heap ptr size).2 = 0#32 := by
  by_cases limit : heap.current ptr - roundSize size < heap.start
  · left
    simp [malloc, limit]
  · right
    have zero := refused.resolve_left limit
    rw [zero] at limit
    simp only [malloc, zero, limit, if_false]
    exact sub_self _

/-- A size that fits below the pointer is not wrapped. -/
theorem granted_toNat (fits : (size.toNat + 7) / 8 * 8 ≤ (heap.current ptr).toNat) :
    (heap.current ptr - roundSize size).toNat =
      (heap.current ptr).toNat - (size.toNat + 7) / 8 * 8 := by
  have bound := (heap.current ptr).isLt
  have rounded : (roundSize size).toNat = (size.toNat + 7) / 8 * 8 := by
    rw [roundSize_toNat, if_pos (by omega)]
  rw [BitVec.toNat_sub_of_le (by rw [BitVec.le_def, rounded]; exact fits), rounded]

end Malloc

/-! ## The invariant of the blocks -/

/-- Blocks lie above the pointer, or the pointer is back at the end; the first one that is
not empty covers the last word of the heap. -/
structure History.Inv (heap : Heap) (h : History) : Prop where
  aligned : 8 ∣ h.ptr.toNat
  low : h.ptr.toNat ≤ heap.end_.toNat
  below : h.ptr = heap.end_ ∨ ∀ b ∈ h.blocks, b.size ≠ 0 → h.ptr.toNat ≤ b.addr.toNat
  top : (∃ b ∈ h.blocks, b.size ≠ 0) →
    8 ≤ heap.end_.toNat ∧ ∃ b ∈ h.blocks, b.Covers (heap.end_.toNat - 8)
  first : (∀ b ∈ h.blocks, b.size = 0) → h.ptr = 0#32 ∨ h.ptr = heap.end_

namespace History

variable {heap : Heap} {h : History} {c : Call} {size : BitVec 32}

theorem start_inv : start.Inv heap where
  aligned := Nat.dvd_zero 8
  low := Nat.zero_le _
  below := Or.inr fun _ found => absurd found List.not_mem_nil
  top := fun ⟨_, found, _⟩ => absurd found List.not_mem_nil
  first := fun _ => Or.inl rfl

theorem Inv.current_aligned (inv : h.Inv heap) (aligned : 8 ∣ heap.end_.toNat) :
    8 ∣ (heap.current h.ptr).toNat := by
  unfold Heap.current
  split
  · exact aligned
  · exact inv.aligned

theorem Inv.current_low (inv : h.Inv heap) : (heap.current h.ptr).toNat ≤ heap.end_.toNat := by
  unfold Heap.current
  split
  · exact Nat.le_refl _
  · exact inv.low

/-- Before the first block that is not empty the pointer is at the end. -/
theorem Inv.current_first (inv : h.Inv heap) (empty : ∀ b ∈ h.blocks, b.size = 0) :
    heap.current h.ptr = heap.end_ := by
  rcases inv.first empty with zero | back
  · rw [Heap.current, if_pos zero]
  · rw [Heap.current, back, ite_self]

/-- A block below the pointer was left behind by a restart. -/
theorem Inv.current_restart (inv : h.Inv heap) {b : Block} (mem : b ∈ h.blocks) (full : b.size ≠ 0)
    (under : b.addr.toNat < (heap.current h.ptr).toNat) : heap.current h.ptr = heap.end_ := by
  by_cases zero : h.ptr = 0#32
  · rw [Heap.current, if_pos zero]
  · have same : heap.current h.ptr = h.ptr := by rw [Heap.current, if_neg zero]
    rcases inv.below with back | above
    · rw [same, back]
    · have higher := above b mem full
      rw [same] at under
      omega

/-- The pointer moves back to 0, to the end, or stays. -/
theorem Inv.refused (inv : h.Inv heap) (aligned : 8 ∣ heap.end_.toNat) {ptr : BitVec 32}
    (left : ptr = heap.current h.ptr ∨ ptr = 0#32) : Inv heap ⟨ptr, h.blocks⟩ := by
  rcases left with rfl | rfl
  · refine ⟨inv.current_aligned aligned, inv.current_low, ?_, inv.top,
      fun empty => Or.inr (inv.current_first empty)⟩
    by_cases zero : h.ptr = 0#32
    · exact Or.inl (by rw [Heap.current, if_pos zero])
    · rw [Heap.current, if_neg zero]
      exact inv.below
  · exact ⟨Nat.dvd_zero 8, Nat.zero_le _, Or.inr fun _ _ _ => Nat.zero_le _, inv.top,
      fun _ => Or.inl rfl⟩

theorem step_none (m : Bytes) (idle : c.asked = none) : h.step heap (c, m) = h := by
  have same := c.perform_none heap h.ptr m idle
  rw [step, if_pos same.1, same.2]

theorem step_refused (m : Bytes) (found : c.asked = some size) (refused : Refused heap h.ptr size) :
    h.step heap (c, m) = ⟨(malloc heap h.ptr size).2, h.blocks⟩ := by
  have same := c.perform_some heap h.ptr m found
  have zero : (c.perform heap h.ptr m).result = 0#32 := same.1.trans (malloc_refused refused)
  rw [step, if_pos zero, same.2]

theorem step_granted (m : Bytes) (found : c.asked = some size) (granted : ¬ Refused heap h.ptr size) :
    h.step heap (c, m) = ⟨heap.current h.ptr - roundSize size,
      ⟨heap.current h.ptr - roundSize size, c.request⟩ :: h.blocks⟩ := by
  have same := c.perform_some heap h.ptr m found
  rw [malloc_granted granted] at same
  rw [step, if_neg (by rw [same.1]; exact granted_ne_zero granted), same.1, same.2]

/-- A request that fits below the pointer is the size `malloc` is called with. -/
theorem size_of_fits (found : c.asked = some size)
    (fits : (c.request + 7) / 8 * 8 ≤ (heap.current h.ptr).toNat) : size.toNat = c.request := by
  have bound := (heap.current h.ptr).isLt
  rw [Call.asked_toNat found, Nat.mod_eq_of_lt (by omega)]

/-- An empty block leaves the pointer, and any other lies at it below all the blocks. -/
theorem Inv.granted_below (inv : h.Inv heap) {ptr : BitVec 32}
    (addr : ptr.toNat = (heap.current h.ptr).toNat - (c.request + 7) / 8 * 8)
    (above : c.request = 0 ∨
      ∀ b ∈ h.blocks, b.size ≠ 0 → (heap.current h.ptr).toNat ≤ b.addr.toNat) :
    ptr = heap.end_ ∨
      ∀ b ∈ ⟨ptr, c.request⟩ :: h.blocks, b.size ≠ 0 → ptr.toNat ≤ b.addr.toNat := by
  by_cases empty : c.request = 0
  · have stays : ptr = heap.current h.ptr := by
      apply BitVec.eq_of_toNat_eq
      rw [addr, empty]
      omega
    rw [stays]
    by_cases zero : h.ptr = 0#32
    · left
      rw [Heap.current, if_pos zero]
    · rw [Heap.current, if_neg zero]
      refine inv.below.imp_right fun higher b mem full => ?_
      rcases List.mem_cons.mp mem with rfl | earlier
      · exact absurd empty full
      · exact higher b earlier full
  · right
    intro b mem full
    rcases List.mem_cons.mp mem with rfl | earlier
    · exact Nat.le_refl _
    · have higher := above.resolve_left empty b earlier full
      omega

/-- A new block that is not empty covers the last word when no earlier one did. -/
theorem Inv.granted_top (inv : h.Inv heap) {ptr : BitVec 32}
    (addr : ptr.toNat = (heap.current h.ptr).toNat - (c.request + 7) / 8 * 8)
    (fits : (c.request + 7) / 8 * 8 ≤ (heap.current h.ptr).toNat)
    (full : ∃ b ∈ ⟨ptr, c.request⟩ :: h.blocks, b.size ≠ 0) :
    8 ≤ heap.end_.toNat ∧ ∃ b ∈ ⟨ptr, c.request⟩ :: h.blocks, b.Covers (heap.end_.toNat - 8) := by
  obtain ⟨b, mem, full⟩ := full
  by_cases before : ∃ b ∈ h.blocks, b.size ≠ 0
  · obtain ⟨room, d, held, covers⟩ := inv.top before
    exact ⟨room, d, List.mem_cons_of_mem _ held, covers⟩
  · have empty : ∀ b ∈ h.blocks, b.size = 0 := by
      intro d held
      by_contra more
      exact before ⟨d, held, more⟩
    rcases List.mem_cons.mp mem with rfl | earlier
    · have back := inv.current_first empty
      rw [back] at fits addr
      have some : c.request ≠ 0 := full
      refine ⟨by omega, _, List.mem_cons_self, ?_⟩
      simp only [Block.Covers, addr]
      omega
    · exact absurd (empty b earlier) full

theorem Inv.granted (inv : h.Inv heap) (aligned : 8 ∣ heap.end_.toNat) (found : c.asked = some size)
    (fits : (c.request + 7) / 8 * 8 ≤ (heap.current h.ptr).toNat)
    (above : c.request = 0 ∨
      ∀ b ∈ h.blocks, b.size ≠ 0 → (heap.current h.ptr).toNat ≤ b.addr.toNat) :
    Inv heap ⟨heap.current h.ptr - roundSize size,
      ⟨heap.current h.ptr - roundSize size, c.request⟩ :: h.blocks⟩ := by
  have same := size_of_fits found fits
  have addr := granted_toNat (same ▸ fits)
  rw [same] at addr
  have multiple := inv.current_aligned aligned
  have low := inv.current_low
  refine ⟨?_, ?_, inv.granted_below addr above, inv.granted_top addr fits, ?_⟩
  · simp only [addr]
    omega
  · simp only [addr]
    omega
  · intro empty
    have none : c.request = 0 := empty _ List.mem_cons_self
    have back := inv.current_first fun b held => empty b (List.mem_cons_of_mem _ held)
    right
    apply BitVec.eq_of_toNat_eq
    simp only [back] at addr ⊢
    rw [addr, none]
    omega

theorem Inv.step (inv : h.Inv heap) (aligned : 8 ∣ heap.end_.toNat) (m : Bytes)
    (clear : Clear heap h c) : (h.step heap (c, m)).Inv heap := by
  cases found : c.asked with
  | none =>
      rw [step_none m found]
      exact inv
  | some size =>
      by_cases refused : Refused heap h.ptr size
      · rw [step_refused m found refused]
        exact inv.refused aligned (malloc_refused_ptr refused)
      · rw [step_granted m found refused]
        have rest := (clear size found).resolve_left refused
        exact inv.granted aligned found rest.1 rest.2

end History

/-! ## The replies -/

section Replies

variable {heap : Heap} {h : History} {c : Call} {size : BitVec 32}

theorem calloc_cleared (m : Bytes) {nmemb size : BitVec 32}
    (granted : (malloc heap h.ptr (nmemb * size)).1 ≠ 0#32)
    (product : (nmemb * size).toNat = nmemb.toNat * size.toNat) {i : Nat}
    (inside : i < nmemb.toNat * size.toNat) :
    (calloc heap h.ptr m nmemb size).mem
      ((calloc heap h.ptr m nmemb size).result + BitVec.ofNat 32 i) = 0#8 := by
  have bound := (nmemb * size).isLt
  have zero : BitVec.setWidth 8 0#32 = 0#8 := rfl
  simp only [calloc, memset, if_pos granted, zero]
  rw [fill_apply m _ _ (Nat.le_of_lt bound), (eq_add_iff _ _ (by omega)).mp rfl, if_pos (by omega)]

theorem fresh_of_fits (inv : h.Inv heap) (aligned : 8 ∣ heap.end_.toNat) (m : Bytes)
    (found : c.asked = some size) (granted : ¬ Refused heap h.ptr size)
    (fits : (c.request + 7) / 8 * 8 ≤ (heap.current h.ptr).toNat)
    (above : c.request = 0 ∨
      ∀ b ∈ h.blocks, b.size ≠ 0 → (heap.current h.ptr).toNat ≤ b.addr.toNat) :
    Fresh heap h c (c.perform heap h.ptr m) := by
  have same := History.size_of_fits found fits
  have addr := granted_toNat (same ▸ fits)
  have reply := c.perform_some heap h.ptr m found
  rw [malloc_granted granted] at reply
  rw [same] at addr
  have multiple := inv.current_aligned aligned
  have low := inv.current_low
  refine ⟨?_, ?_, ?_, ?_⟩
  · rw [reply.1, addr]
    omega
  · rw [reply.1]
    refine ⟨granted_start_le granted, ?_⟩
    simp only [addr]
    omega
  · rintro b held a ⟨new, old⟩
    rw [reply.1] at new
    simp only [Block.Covers, addr] at new old
    have higher := above.resolve_left (by omega) b held (by omega)
    omega
  · rintro nmemb size rfl i inside
    cases found
    exact calloc_cleared m (by rw [malloc_granted granted]; exact granted_ne_zero granted) same inside

/-- A block that fits nowhere in the address space is not inside the heap. -/
theorem fits_of_inside (inv : h.Inv heap) (aligned : 8 ∣ heap.end_.toNat)
    (found : c.asked = some size) (granted : ¬ Refused heap h.ptr size)
    (inside : Block.Inside ⟨heap.current h.ptr - roundSize size, c.request⟩ heap) :
    (c.request + 7) / 8 * 8 ≤ (heap.current h.ptr).toNat := by
  have multiple := inv.current_aligned aligned
  have bound := heap.end_.isLt
  have ends : (heap.current h.ptr - roundSize size).toNat + c.request ≤ heap.end_.toNat := inside.2
  have same : size.toNat = c.request := by
    rw [Call.asked_toNat found, Nat.mod_eq_of_lt (by omega)]
  have rounded := roundSize_toNat size
  have low := inv.current_low
  -- at 0 the heap is empty, and its only block is refused
  have some : (heap.current h.ptr).toNat ≠ 0 := by
    intro none
    have zero : heap.current h.ptr = 0#32 := BitVec.eq_of_toNat_eq none
    have empty : heap.end_ = 0#32 := by
      unfold Heap.current at zero
      split at zero
      · exact zero
      · contradiction
    have endZero : heap.end_.toNat = 0 := by rw [empty]; rfl
    exact granted_ne_zero granted (BitVec.eq_of_toNat_eq (by
      have nothing : (0#32).toNat = 0 := rfl
      omega))
  by_contra outside
  by_cases wraps : size.toNat + 8 ≤ 2 ^ 32
  · rw [if_pos wraps, same] at rounded
    have below : heap.current h.ptr < roundSize size := by
      rw [BitVec.lt_def, rounded]
      omega
    rw [BitVec.toNat_sub_of_lt below, rounded] at ends
    omega
  · rw [if_neg wraps] at rounded
    have zero : roundSize size = 0#32 := BitVec.eq_of_toNat_eq rounded
    rw [zero, BitVec.sub_zero] at ends
    omega

/-- After a restart the new block meets the one at the end of the heap. -/
theorem above_of_apart (inv : h.Inv heap) (found : c.asked = some size)
    (fits : (c.request + 7) / 8 * 8 ≤ (heap.current h.ptr).toNat)
    (apart : ∀ b ∈ h.blocks, Block.Apart ⟨heap.current h.ptr - roundSize size, c.request⟩ b) :
    c.request = 0 ∨ ∀ b ∈ h.blocks, b.size ≠ 0 → (heap.current h.ptr).toNat ≤ b.addr.toNat := by
  by_contra misfit
  obtain ⟨some, left⟩ := not_or.mp misfit
  push Not at left
  obtain ⟨b, held, full, under⟩ := left
  have back := inv.current_restart held full under
  obtain ⟨room, d, there, covers⟩ := inv.top ⟨b, held, full⟩
  have same := History.size_of_fits found fits
  have addr := granted_toNat (same ▸ fits)
  rw [same] at addr
  refine apart d there (heap.end_.toNat - 8) ⟨?_, covers⟩
  rw [back] at fits addr
  simp only [Block.Covers, back, addr]
  omega

/-- A reply is `NULL` or fresh exactly for a clear call. -/
theorem replies_iff (aligned : 8 ∣ heap.end_.toNat) (h : History) (call : Call × Bytes)
    (inv : h.Inv heap) : Replies heap h call ↔ Clear heap h call.1 := by
  constructor
  · intro replies size found
    by_cases refused : Refused heap h.ptr size
    · exact Or.inl refused
    · have reply := call.1.perform_some heap h.ptr call.2 found
      rw [malloc_granted refused] at reply
      have fresh := replies (by rw [reply.1]; exact granted_ne_zero refused)
      have inside := fresh.inside
      have apart := fresh.apart
      rw [reply.1] at inside apart
      have fits := fits_of_inside inv aligned found refused inside
      exact Or.inr ⟨fits, above_of_apart inv found fits apart⟩
  · intro clear answered
    cases found : call.1.asked with
    | none => exact absurd (call.1.perform_none heap h.ptr call.2 found).1 answered
    | some size =>
        have reply := call.1.perform_some heap h.ptr call.2 found
        have granted : ¬ Refused heap h.ptr size := fun refused =>
          answered (reply.1.trans (malloc_refused refused))
        have rest := (clear size found).resolve_left granted
        exact fresh_of_fits inv aligned call.2 found granted rest.1 rest.2

end Replies

/-- In a run of calls every reply is `NULL` or fresh exactly when every call is clear. -/
theorem replies_fresh_iff (heap : Heap) (aligned : 8 ∣ heap.end_.toNat) (calls : Nat → Call × Bytes)
    (n : Nat) :
    (∀ k, k < n → Replies heap (run (History.step heap) .start calls k) (calls k)) ↔
      ∀ k, k < n → Clear heap (run (History.step heap) .start calls k) (calls k).1 :=
  run_meets_iff (History.Inv heap) (C := fun h (call : Call × Bytes) => Clear heap h call.1) History.start_inv
    (replies_iff aligned) (fun _ (call : Call × Bytes) inv clear => inv.step aligned call.2 clear) n

/-- A request of each kind, one beyond the heap, and one byte. -/
def fiveCalls (k : Nat) : Call × Bytes :=
  ([.malloc 24#32, .calloc 3#32 5#32, .realloc 0x87FFFFE8#32 40#32, .malloc 0x10000000#32].getD k
    (.malloc 1#32), fun _ => 7#8)

/-- Four blocks below the end of 128 MiB of RAM. -/
theorem replies_fresh_five :
    (run (History.step ⟨0x80010000#32, 0x88000000#32⟩) .start fiveCalls 5).blocks =
      [⟨0x87FFFFA8#32, 1⟩, ⟨0x87FFFFB0#32, 40⟩, ⟨0x87FFFFD8#32, 15⟩, ⟨0x87FFFFE8#32, 24⟩] ∧
    ∀ k, k < 5 → Replies ⟨0x80010000#32, 0x88000000#32⟩
      (run (History.step ⟨0x80010000#32, 0x88000000#32⟩) .start fiveCalls k) (fiveCalls k) := by
  refine ⟨rfl, (replies_fresh_iff ⟨0x80010000#32, 0x88000000#32⟩ (by decide) fiveCalls 5).mpr
    fun k below => ?_⟩
  have each : k = 0 ∨ k = 1 ∨ k = 2 ∨ k = 3 ∨ k = 4 := by omega
  rcases each with rfl | rfl | rfl | rfl | rfl <;> intro size found <;> cases found
  · exact Or.inr (by decide)
  · exact Or.inr (by decide)
  · exact Or.inr (by decide)
  · exact Or.inl (Or.inl (by decide))
  · exact Or.inr (by decide)

/-- A size near `SIZE_MAX` rounds to 0: the reply is the end of the heap. -/
theorem malloc_size_max :
    ¬ ∀ (heap : Heap) (calls : Nat → Call × Bytes), 8 ∣ heap.end_.toNat →
      ∀ k, Replies heap (run (History.step heap) .start calls k) (calls k) := by
  intro all
  have fresh := all ⟨0x80010000#32, 0x88000000#32⟩ (fun _ => (.malloc 0xFFFFFFFF#32, fun _ => 0#8))
    (by decide) 0 (by decide)
  exact absurd fresh.inside.2 (by decide)

end NpcMachine.Klib
