/-
# Emulator.Words -- the words of the RAM

An aligned word inside the RAM is what a load or a fetch of it gives and what a store to it
replaces; a store leaves every other word as it was (`word_writeWord_other`).
-/
import NpcMachine.Emulator.RamAccess

namespace NpcMachine.Emulator

open NpcMachine.Machine (byteOf)

set_option autoImplicit false

namespace Memory

variable {m : Memory} {a b : U32}

/-- The word at an address. -/
def word (m : Memory) (a : U32) : U32 := m.readLe32 (m.index a)

/-- The address is that of an aligned word inside the RAM. -/
def HasWord (m : Memory) (a : U32) : Prop := a.toNat % 4 = 0 ∧ m.inRam a 4#32 = true

instance (m : Memory) (a : U32) : Decidable (m.HasWord a) := inferInstanceAs (Decidable (_ ∧ _))

def writeWord (m : Memory) (a v : U32) : Memory := m.write (m.index a) 4#32 v

theorem word_access : AccessSize 4#32 := Or.inr (Or.inr rfl)

theorem HasWord.load (has : m.HasWord a) (out : U32) : m.load a 4#32 out = (.ok, m.word a) := by
  have lined := (sizeMisaligned_eq_false_iff word_access a).mpr has.1
  rw [Memory.load, (badSize_eq_false_iff _).mpr word_access, lined, has.2]
  rfl

theorem HasWord.fetch (has : m.HasWord a) (out : U32) : m.fetch a out = (.ok, m.word a) := by
  have lined : a &&& 3#32 = 0#32 :=
    bne_eq_false_iff_eq.mp ((sizeMisaligned_eq_false_iff word_access a).mpr has.1)
  rw [Memory.fetch, lined, has.2]
  rfl

theorem HasWord.store (has : m.HasWord a) (v : U32) : m.store a 4#32 v = (.ok, m.writeWord a v) :=
  store_of_ram word_access has.1 has.2 v

@[simp] theorem writeWord_cfg (m : Memory) (a v : U32) : (m.writeWord a v).cfg = m.cfg := rfl

@[simp] theorem hasWord_writeWord (v : U32) : (m.writeWord a v).HasWord b ↔ m.HasWord b := Iff.rfl

theorem byteOf_eq_extract (v : U32) (r : Nat) : byteOf v r = v.extractLsb' (8 * r) 8 := by
  apply BitVec.eq_of_getLsbD_eq
  intro i small
  simp [byteOf, small]

/-- Two words are one or lie apart. -/
theorem HasWord.apart (hasA : m.HasWord a) (hasB : m.HasWord b) (differ : a ≠ b) :
    m.index a + 4 ≤ m.index b ∨ m.index b + 4 ≤ m.index a := by
  obtain ⟨insideA, -⟩ := (inRam_iff a 4#32).mp hasA.2
  obtain ⟨insideB, -⟩ := (inRam_iff b 4#32).mp hasB.2
  rw [index_eq insideA.1, index_eq insideB.1]
  have alignedA := hasA.1
  have alignedB := hasB.1
  have differs : a.toNat ≠ b.toNat := fun same => differ (BitVec.eq_of_toNat_eq same)
  have lowA := insideA.1
  have lowB := insideB.1
  omega

theorem word_writeWord_same (m : Memory) (a v : U32) : (m.writeWord a v).word a = v := by
  have byte (r : Nat) (small : r < 4) :
      (m.writeWord a v).ram (m.index a + r) = v.extractLsb' (8 * r) 8 := by
    rw [← byteOf_eq_extract, writeWord, write_ram, if_pos ⟨by omega, by
      show _ < _ + 4
      omega⟩, Nat.add_sub_cancel_left]
  show (m.writeWord a v).readLe32 (m.index a) = v
  rw [readLe32, byte 1 (by omega), byte 2 (by omega), byte 3 (by omega)]
  rw [show m.index a = m.index a + 0 from rfl, byte 0 (by omega)]
  apply BitVec.eq_of_getLsbD_eq
  intro i small
  simp only [BitVec.getLsbD_append, BitVec.getLsbD_extractLsb']
  grind

theorem word_writeWord_other (hasA : m.HasWord a) (hasB : m.HasWord b) (differ : b ≠ a) (v : U32) :
    (m.writeWord a v).word b = m.word b := by
  have apart := hasA.apart hasB (Ne.symm differ)
  have byte (r : Nat) (small : r < 4) :
      (m.writeWord a v).ram (m.index b + r) = m.ram (m.index b + r) := by
    rw [writeWord, write_ram, if_neg]
    rintro ⟨low, high⟩
    have size : (4#32 : U32).toNat = 4 := rfl
    omega
  show (m.writeWord a v).readLe32 (m.index b) = m.readLe32 (m.index b)
  rw [readLe32, readLe32, byte 1 (by omega), byte 2 (by omega), byte 3 (by omega)]
  rw [show m.index b = m.index b + 0 from rfl, byte 0 (by omega)]

end Memory

end NpcMachine.Emulator
