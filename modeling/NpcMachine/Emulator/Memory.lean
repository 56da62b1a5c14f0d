/-
# Emulator.Memory -- `Config` and the flat RAM of `memory.cpp`

Addresses, sizes and the comparisons of `in_ram` are 32-bit as in the source.  The
RAM is a function of the byte index `addr - ram_base`; only indices that passed
`in_ram` are read or written.
-/
import Mathlib.Data.BitVec
import Mathlib.Logic.Function.Basic

namespace NpcMachine.Emulator

set_option autoImplicit false

abbrev U32 := BitVec 32

/-- The fields of `Config` that the memory, the hart and the RTL wrapper read. -/
structure Config where
  resetVector : U32 := 0x20000000#32
  clintBase : U32 := 0x02000000#32
  clintSize : U32 := 0x00010000#32
  uartBase : U32 := 0x10000000#32
  ramBase : U32 := 0x20000000#32
  ramSize : U32 := 0x00100000#32
  strictMem : Bool := false
  commitTimeoutCycles : U32 := 10000#32
  deriving DecidableEq, Repr, Inhabited

namespace Config

def inRam (c : Config) (addr : U32) : Bool :=
  c.ramBase.ule addr && addr.ult (c.ramBase + c.ramSize)

def inClint (c : Config) (addr : U32) : Bool :=
  c.clintBase.ule addr && addr.ult (c.clintBase + c.clintSize)

def inUart (c : Config) (addr : U32) : Bool := addr == c.uartBase

end Config

inductive MemResult where
  | ok | misaligned | accessFault
  deriving DecidableEq, Repr, Inhabited

structure Memory where
  cfg : Config
  ram : Nat → BitVec 8
  deriving Inhabited

namespace Memory

/-- A RAM image that starts with the given words, under the default configuration. -/
def ofWords (words : List U32) : Memory where
  cfg := {}
  ram k := (words.getD (k / 4) 0#32).extractLsb' (8 * (k % 4)) 8

variable (m : Memory)

def inRam (addr size : U32) : Bool :=
  if addr.ult m.cfg.ramBase then false
  else if (addr + size).ult addr then false
  else (addr + size).ule (m.cfg.ramBase + m.cfg.ramSize)

/-- `addr - ram_base` as an index into the RAM vector. -/
def index (addr : U32) : Nat := (addr - m.cfg.ramBase).toNat

def readLe8 (p : Nat) : U32 := (m.ram p).setWidth 32
def readLe16 (p : Nat) : U32 := (m.ram (p + 1) ++ m.ram p).setWidth 32
def readLe32 (p : Nat) : U32 := m.ram (p + 3) ++ m.ram (p + 2) ++ m.ram (p + 1) ++ m.ram p

def writeLe8 (p : Nat) (data : U32) : Memory :=
  { m with ram := Function.update m.ram p (data.extractLsb' 0 8) }

def writeLe16 (p : Nat) (data : U32) : Memory :=
  (m.writeLe8 p data).writeLe8 (p + 1) (data >>> 8)

def writeLe32 (p : Nat) (data : U32) : Memory :=
  (m.writeLe16 p data).writeLe16 (p + 2) (data >>> 16)

/-- `size != 1 && size != 2 && size != 4`. -/
def badSize (size : U32) : Bool := size != 1#32 && size != 2#32 && size != 4#32

def sizeMisaligned (addr size : U32) : Bool := addr &&& (size - 1#32) != 0#32

/-- `Memory::load`; `out` is the caller's variable, unchanged unless the result is
`ok`. -/
def load (addr size out : U32) : MemResult × U32 :=
  if badSize size then (.accessFault, out)
  else if sizeMisaligned addr size then (.misaligned, out)
  else if m.inRam addr size then
    if size = 1#32 then (.ok, m.readLe8 (m.index addr))
    else if size = 2#32 then (.ok, m.readLe16 (m.index addr))
    else (.ok, m.readLe32 (m.index addr))
  else if m.cfg.strictMem then (.accessFault, out)
  else (.ok, 0#32)

def store (addr size data : U32) : MemResult × Memory :=
  if badSize size then (.accessFault, m)
  else if sizeMisaligned addr size then (.misaligned, m)
  else if m.inRam addr size then
    if size = 1#32 then (.ok, m.writeLe8 (m.index addr) data)
    else if size = 2#32 then (.ok, m.writeLe16 (m.index addr) data)
    else (.ok, m.writeLe32 (m.index addr) data)
  else if m.cfg.strictMem then (.accessFault, m)
  else (.ok, m)

def fetch (addr out : U32) : MemResult × U32 :=
  if addr &&& 3#32 != 0#32 then (.misaligned, out)
  else if !m.inRam addr 4#32 then (.accessFault, out)
  else (.ok, m.readLe32 (m.index addr))

/-! ## What a store changes -/

variable {m}

@[simp] theorem writeLe8_cfg (p : Nat) (data : U32) : (m.writeLe8 p data).cfg = m.cfg := rfl
@[simp] theorem writeLe16_cfg (p : Nat) (data : U32) : (m.writeLe16 p data).cfg = m.cfg := rfl
@[simp] theorem writeLe32_cfg (p : Nat) (data : U32) : (m.writeLe32 p data).cfg = m.cfg := rfl

@[simp] theorem store_cfg (addr size data : U32) : (m.store addr size data).2.cfg = m.cfg := by
  unfold store; split_ifs <;> rfl

@[simp] theorem inRam_store (addr size data a b : U32) :
    (m.store addr size data).2.inRam a b = m.inRam a b := by
  simp [inRam]

theorem writeLe8_ram (p k : Nat) (data : U32) :
    (m.writeLe8 p data).ram k = if k = p then data.extractLsb' 0 8 else m.ram k :=
  Function.update_apply _ _ _ _

theorem writeLe8_writeLe8 (p : Nat) (data : U32) :
    (m.writeLe8 p data).writeLe8 p data = m.writeLe8 p data := by
  simp [writeLe8]

theorem writeLe16_writeLe16 (p : Nat) (data : U32) :
    (m.writeLe16 p data).writeLe16 p data = m.writeLe16 p data := by
  have ram : ((m.writeLe16 p data).writeLe16 p data).ram = (m.writeLe16 p data).ram := by
    funext k
    simp only [writeLe16, writeLe8_ram]
    split_ifs <;> rfl
  exact congrArg (Memory.mk m.cfg) ram

theorem writeLe32_writeLe32 (p : Nat) (data : U32) :
    (m.writeLe32 p data).writeLe32 p data = m.writeLe32 p data := by
  have ram : ((m.writeLe32 p data).writeLe32 p data).ram = (m.writeLe32 p data).ram := by
    funext k
    simp only [writeLe32, writeLe16, writeLe8_ram]
    split_ifs <;> rfl
  exact congrArg (Memory.mk m.cfg) ram

/-- A store made twice is a store made once, with the same result. -/
theorem store_store (addr size data : U32) :
    (m.store addr size data).2.store addr size data = m.store addr size data := by
  have base : (m.store addr size data).2.index addr = m.index addr := by simp [index]
  have room := m.inRam_store addr size data addr size
  have strict : (m.store addr size data).2.cfg.strictMem = m.cfg.strictMem := by simp
  conv_lhs => rw [store, base, room, strict]
  unfold store
  split_ifs
  · rfl
  · rfl
  · rw [writeLe8_writeLe8]
  · rw [writeLe16_writeLe16]
  · rw [writeLe32_writeLe32]
  · rfl
  · rfl

/-- A store of bad size, off its alignment or outside the RAM changes nothing. -/
theorem store_of_not_ok {addr size data : U32} (fails : (m.store addr size data).1 ≠ .ok) :
    (m.store addr size data).2 = m := by
  unfold store at fails ⊢
  split_ifs at fails ⊢ <;> first | rfl | exact absurd rfl fails

/-- A store keeps the configuration in the result. -/
theorem store_result (other : Memory) (same : other.cfg = m.cfg) (addr size data : U32) :
    (other.store addr size data).1 = (m.store addr size data).1 := by
  have room : other.inRam addr size = m.inRam addr size := by simp [inRam, same]
  unfold store
  rw [room, same]
  split_ifs <;> rfl

/-! ## Words -/

/-- Both bytes lie in one aligned word. -/
def SameWord (a b : U32) : Prop := a.toNat / 4 = b.toNat / 4

instance (a b : U32) : Decidable (SameWord a b) := inferInstanceAs (Decidable (_ = _))

theorem index_of_inRam {addr size : U32} (inside : m.inRam addr size = true) :
    m.index addr + m.cfg.ramBase.toNat = addr.toNat := by
  unfold inRam at inside
  split_ifs at inside with low
  have above : m.cfg.ramBase.toNat ≤ addr.toNat := by
    simpa [BitVec.ult] using low
  have sub : (addr - m.cfg.ramBase).toNat = addr.toNat - m.cfg.ramBase.toNat :=
    BitVec.toNat_sub_of_le above
  rw [index, sub]
  omega

theorem aligned_of_mask {addr : U32} {k : Nat} (small : k < 32)
    (aligned : addr &&& BitVec.ofNat 32 (2 ^ k - 1) = 0#32) : addr.toNat % 2 ^ k = 0 := by
  have bound : 2 ^ k - 1 < 2 ^ 32 := by
    have := Nat.pow_lt_pow_right (a := 2) (by omega) small
    omega
  have zero := congrArg BitVec.toNat aligned
  rw [BitVec.toNat_and, BitVec.toNat_ofNat, Nat.mod_eq_of_lt bound,
    Nat.and_two_pow_sub_one_eq_mod] at zero
  exact zero

/-- The word at `a` depends on its four bytes only. -/
theorem fetch_congr {other : Memory} {a : U32} (cfg : other.cfg = m.cfg)
    (bytes : ∀ k, m.index a ≤ k → k < m.index a + 4 → other.ram k = m.ram k) (out : U32) :
    other.fetch a out = m.fetch a out := by
  have base : other.index a = m.index a := by simp [index, cfg]
  have room : other.inRam a 4#32 = m.inRam a 4#32 := by simp [inRam, cfg]
  unfold fetch readLe32
  rw [base, room, bytes _ (by omega) (by omega), bytes _ (by omega) (by omega),
    bytes _ (by omega) (by omega), bytes _ (by omega) (by omega)]

/-- A store leaves the words alone that it does not write into. -/
theorem fetch_store {addr size data a : U32} (apart : ¬ SameWord addr a) (out : U32) :
    (m.store addr size data).2.fetch a out = m.fetch a out := by
  by_cases word : a &&& 3#32 = 0#32
  · by_cases room : m.inRam a 4#32 = true
    · refine fetch_congr (store_cfg addr size data) ?_ out
      intro k low high
      have atA := index_of_inRam room
      have wordA : a.toNat % 4 = 0 := aligned_of_mask (k := 2) (by omega) word
      have other : addr.toNat / 4 ≠ a.toNat / 4 := apart
      unfold store
      split_ifs with bad off inside one two
      · rfl
      · rfl
      · have atS := index_of_inRam inside
        rw [writeLe8_ram, if_neg (by omega)]
      · have atS := index_of_inRam inside
        have half : addr.toNat % 2 = 0 := by
          subst two
          simp only [sizeMisaligned, bne_iff_ne, ne_eq, not_not] at off
          exact aligned_of_mask (k := 1) (by omega) off
        simp only [writeLe16, writeLe8_ram]
        rw [if_neg (by omega), if_neg (by omega)]
      · have atS := index_of_inRam inside
        have four : size = 4#32 := by
          simp only [badSize, Bool.and_eq_true, bne_iff_ne] at bad
          by_contra none
          exact bad ⟨⟨one, two⟩, none⟩
        have full : addr.toNat % 4 = 0 := by
          subst four
          simp only [sizeMisaligned, bne_iff_ne, ne_eq, not_not] at off
          exact aligned_of_mask (k := 2) (by omega) off
        simp only [writeLe32, writeLe16, writeLe8_ram]
        rw [if_neg (by omega), if_neg (by omega), if_neg (by omega), if_neg (by omega)]
      · rfl
      · rfl
    · simp [fetch, word, room]
  · simp [fetch, word]

end Memory

end NpcMachine.Emulator
