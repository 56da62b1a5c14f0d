/-
# Emulator.RamAccess -- the bytes of the RAM that an access reaches

`in_ram` tests the end of an access against the end of the RAM in 32 bits.
`inRam_iff` says what that test decides over the integers: the access lies in the RAM,
and the RAM ends below 2^32.

* `access_exact_iff`: loads, stores and fetches take the RAM exactly for the accesses
  inside it, unless the RAM ends at 2^32;
* `load_storeAll`: after any stores a load or a fetch composes the bytes stored last;
* `blockTransfer_iff`: a block transfer stays in the RAM unless its length is cut to 32
  bits on the way to the test.
-/
import NpcMachine.Machine.Segments
import NpcMachine.Emulator.Loaders

namespace NpcMachine.Emulator

open NpcMachine.Machine (Segment leAt wordSegment byteOf)

set_option autoImplicit false

namespace Config

variable (c : Config)

/-- The end of the RAM, not cut to 32 bits. -/
def ramEnd : Nat := c.ramBase.toNat + c.ramSize.toNat

/-- The `size` bytes from `addr` on lie in the RAM. -/
def InRange (addr : U32) (size : Nat) : Prop :=
  c.ramBase.toNat ≤ addr.toNat ∧ addr.toNat + size ≤ c.ramEnd

instance (addr : U32) (size : Nat) : Decidable (c.InRange addr size) :=
  inferInstanceAs (Decidable (_ ∧ _))

end Config

/-- The sizes of an access. -/
def AccessSize (size : U32) : Prop := size = 1#32 ∨ size = 2#32 ∨ size = 4#32

instance (size : U32) : Decidable (AccessSize size) := inferInstanceAs (Decidable (_ ∨ _))

namespace Memory

variable {m : Memory}

/-! ## The range test -/

theorem inRam_iff (addr size : U32) :
    m.inRam addr size = true ↔ m.cfg.InRange addr size.toNat ∧ m.cfg.ramEnd < 2 ^ 32 := by
  have addrBound := addr.isLt
  have sizeBound := size.isLt
  have baseBound := m.cfg.ramBase.isLt
  have ramBound := m.cfg.ramSize.isLt
  unfold inRam Config.InRange Config.ramEnd
  split_ifs with low wraps
  · simp only [BitVec.ult, decide_eq_true_eq] at low
    simp only [false_iff]
    omega
  · simp only [BitVec.ult, decide_eq_true_eq, BitVec.toNat_add] at wraps
    simp only [false_iff]
    omega
  · simp only [BitVec.ult, BitVec.ule, decide_eq_true_eq, BitVec.toNat_add, Nat.not_lt] at *
    omega

theorem index_eq {addr : U32} (above : m.cfg.ramBase.toNat ≤ addr.toNat) :
    m.index addr = addr.toNat - m.cfg.ramBase.toNat := BitVec.toNat_sub_of_le above

theorem sizeMisaligned_iff {size : U32} (access : AccessSize size) (addr : U32) :
    sizeMisaligned addr size = true ↔ addr.toNat % size.toNat ≠ 0 := by
  have mask (k : Nat) (small : k < 32) :
      addr &&& BitVec.ofNat 32 (2 ^ k - 1) = 0#32 ↔ addr.toNat % 2 ^ k = 0 := by
    refine ⟨aligned_of_mask small, fun aligned => ?_⟩
    have room := Nat.pow_lt_pow_right (a := 2) (by omega) small
    apply BitVec.eq_of_toNat_eq
    rw [BitVec.toNat_and, BitVec.toNat_ofNat, Nat.mod_eq_of_lt (by omega),
      Nat.and_two_pow_sub_one_eq_mod]
    exact aligned
  unfold sizeMisaligned
  rw [bne_iff_ne, ne_eq, ne_eq, not_iff_not]
  rcases access with rfl | rfl | rfl
  · exact mask 0 (by omega)
  · exact mask 1 (by omega)
  · exact mask 2 (by omega)

theorem sizeMisaligned_eq_false_iff {size : U32} (access : AccessSize size) (addr : U32) :
    sizeMisaligned addr size = false ↔ addr.toNat % size.toNat = 0 := by
  rw [Bool.eq_false_iff, ne_eq, sizeMisaligned_iff access, not_ne_iff]

theorem badSize_eq_false_iff (size : U32) : badSize size = false ↔ AccessSize size := by
  simp only [badSize, AccessSize, Bool.and_eq_false_iff, bne_eq_false_iff_eq]
  tauto

/-! ## Words and bytes -/

theorem readLe8_toNat (p : Nat) : (m.readLe8 p).toNat = leAt m.ram p 1 := by
  have byte := (m.ram p).isLt
  simp only [readLe8, leAt, BitVec.toNat_setWidth, Nat.add_zero]
  omega

theorem readLe16_toNat (p : Nat) : (m.readLe16 p).toNat = leAt m.ram p 2 := by
  have low := (m.ram p).isLt
  have high := (m.ram (p + 1)).isLt
  simp only [readLe16, leAt, BitVec.toNat_setWidth, NpcMachine.Machine.toNat_append_mul,
    Nat.add_zero]
  omega

theorem readLe32_toNat (p : Nat) : (m.readLe32 p).toNat = leAt m.ram p 4 := by
  simp only [readLe32, leAt, NpcMachine.Machine.toNat_append_mul, Nat.add_zero]
  omega

/-- A store of `size` bytes lays them over the RAM. -/
def write (m : Memory) (p : Nat) (size data : U32) : Memory :=
  { m with ram := Segment.place m.ram (wordSegment p size.toNat data) }

theorem write_ram (p : Nat) (size data : U32) (k : Nat) : (m.write p size data).ram k =
    if p ≤ k ∧ k < p + size.toNat then byteOf data (k - p) else m.ram k := by
  simp only [write, Segment.place_apply, NpcMachine.Machine.wordSegment_value?]
  split_ifs <;> rfl

theorem byteOf_shifted (data : U32) (r : Nat) :
    (data >>> (8 * r)).extractLsb' 0 8 = byteOf data r := by
  apply BitVec.eq_of_getLsbD_eq
  intro b small
  simp [byteOf, small]

/-- The bytes of a write follow each other in the RAM. -/
theorem eq_write {stored : Memory} {p : Nat} {size data : U32} (cfg : stored.cfg = m.cfg)
    (inside : ∀ r, r < size.toNat → stored.ram (p + r) = byteOf data r)
    (outside : ∀ k, k < p ∨ p + size.toNat ≤ k → stored.ram k = m.ram k) :
    stored = m.write p size data := by
  have ram : stored.ram = (m.write p size data).ram := by
    funext k
    rw [write_ram]
    split_ifs with here
    · have byte := inside (k - p) (by omega)
      rwa [Nat.add_sub_cancel' here.1] at byte
    · exact outside k (by omega)
  cases stored
  cases cfg
  exact congrArg (Memory.mk m.cfg) ram

theorem writeLe8_eq (p : Nat) (data : U32) : m.writeLe8 p data = m.write p 1#32 data := by
  have size : (1#32 : U32).toNat = 1 := rfl
  apply eq_write (writeLe8_cfg p data)
  · intro r below
    have zero : r = 0 := by omega
    subst zero
    rw [writeLe8_ram, if_pos (by omega)]
    rfl
  · intro k outside
    rw [writeLe8_ram, if_neg (by omega)]

theorem writeLe16_eq (p : Nat) (data : U32) : m.writeLe16 p data = m.write p 2#32 data := by
  have size : (2#32 : U32).toNat = 2 := rfl
  apply eq_write (writeLe16_cfg p data)
  · intro r below
    simp only [writeLe16, writeLe8_ram]
    have each : r = 0 ∨ r = 1 := by omega
    rcases each with rfl | rfl
    · rw [if_neg (by omega), if_pos (by omega)]
      rfl
    · rw [if_pos rfl]
      exact byteOf_shifted data 1
  · intro k outside
    simp only [writeLe16, writeLe8_ram]
    rw [if_neg (by omega), if_neg (by omega)]

theorem writeLe32_eq (p : Nat) (data : U32) : m.writeLe32 p data = m.write p 4#32 data := by
  have size : (4#32 : U32).toNat = 4 := rfl
  apply eq_write (writeLe32_cfg p data)
  · intro r below
    simp only [writeLe32, writeLe16, writeLe8_ram]
    have each : r = 0 ∨ r = 1 ∨ r = 2 ∨ r = 3 := by omega
    rcases each with rfl | rfl | rfl | rfl
    · rw [if_neg (by omega), if_neg (by omega), if_neg (by omega), if_pos (by omega)]
      rfl
    · rw [if_neg (by omega), if_neg (by omega), if_pos (by omega)]
      exact byteOf_shifted data 1
    · rw [if_neg (by omega), if_pos (by omega)]
      exact byteOf_shifted data 2
    · rw [if_pos (by omega), ← BitVec.shiftRight_add]
      exact byteOf_shifted data 3
  · intro k outside
    simp only [writeLe32, writeLe16, writeLe8_ram]
    rw [if_neg (by omega), if_neg (by omega), if_neg (by omega), if_neg (by omega)]

/-! ## One access -/

variable {addr size : U32}

theorem load_of_ram (access : AccessSize size) (aligned : addr.toNat % size.toNat = 0)
    (inside : m.inRam addr size = true) (out : U32) :
    (m.load addr size out).1 = .ok ∧
      (m.load addr size out).2.toNat = leAt m.ram (m.index addr) size.toNat := by
  have good := (badSize_eq_false_iff size).mpr access
  have lined := (sizeMisaligned_eq_false_iff access addr).mpr aligned
  unfold load
  rw [good, lined, inside]
  rcases access with rfl | rfl | rfl
  · exact ⟨rfl, readLe8_toNat _⟩
  · exact ⟨rfl, readLe16_toNat _⟩
  · exact ⟨rfl, readLe32_toNat _⟩

theorem store_of_ram (access : AccessSize size) (aligned : addr.toNat % size.toNat = 0)
    (inside : m.inRam addr size = true) (data : U32) :
    m.store addr size data = (.ok, m.write (m.index addr) size data) := by
  have good := (badSize_eq_false_iff size).mpr access
  have lined := (sizeMisaligned_eq_false_iff access addr).mpr aligned
  unfold store
  rw [good, lined, inside]
  rcases access with rfl | rfl | rfl
  · exact congrArg (Prod.mk _) (writeLe8_eq _ _)
  · exact congrArg (Prod.mk _) (writeLe16_eq _ _)
  · exact congrArg (Prod.mk _) (writeLe32_eq _ _)

/-- Nothing but an access inside the RAM changes a byte. -/
theorem store_kept (refused : ¬ (AccessSize size ∧ addr.toNat % size.toNat = 0 ∧
    m.inRam addr size = true)) (data : U32) : (m.store addr size data).2 = m := by
  have refuses (good : ¬ badSize size = true) (lined : ¬ sizeMisaligned addr size = true) :
      ¬ m.inRam addr size = true := by
    intro inside
    have access := (badSize_eq_false_iff size).mp (Bool.eq_false_iff.mpr good)
    have aligned := (sizeMisaligned_eq_false_iff access addr).mp (Bool.eq_false_iff.mpr lined)
    exact refused ⟨access, aligned, inside⟩
  unfold store
  split_ifs with bad off inside
  · rfl
  · rfl
  all_goals first
    | rfl
    | exact absurd inside (refuses bad off)

theorem fetch_of_ram (aligned : addr.toNat % 4 = 0) (inside : m.inRam addr 4#32 = true) (out : U32) :
    (m.fetch addr out).1 = .ok ∧ (m.fetch addr out).2.toNat = leAt m.ram (m.index addr) 4 := by
  have access : AccessSize 4#32 := Or.inr (Or.inr rfl)
  have lined : addr &&& 3#32 = 0#32 :=
    bne_eq_false_iff_eq.mp ((sizeMisaligned_eq_false_iff access addr).mpr aligned)
  unfold fetch
  rw [lined, inside]
  exact ⟨rfl, readLe32_toNat _⟩

theorem load_outside (outside : m.inRam addr size = false) : (m.load addr size 0#32).2 = 0#32 := by
  unfold load
  rw [outside]
  split_ifs with _ _ none
  · rfl
  · rfl
  · cases none
  · cases none
  · cases none
  · rfl
  · rfl

theorem fetch_outside (outside : m.inRam addr 4#32 = false) (out : U32) :
    (m.fetch addr out).1 ≠ .ok := by
  unfold fetch
  rw [outside]
  split_ifs with _ taken
  · exact MemResult.noConfusion
  · exact MemResult.noConfusion
  · exact absurd rfl taken

end Memory

/-! ## Which accesses are taken for RAM -/

section Range

variable (c : Config) (addr size : U32)

/-- Of every RAM the load composes the bytes at `addr - ram_base`. -/
def LoadsRam : Prop := ∀ (ram : Nat → BitVec 8) (out : U32),
  ((Memory.mk c ram).load addr size out).1 = .ok ∧
    ((Memory.mk c ram).load addr size out).2.toNat = leAt ram (addr - c.ramBase).toNat size.toNat

/-- In every RAM the store puts its bytes at `addr - ram_base`. -/
def StoresRam : Prop := ∀ (ram : Nat → BitVec 8) (data : U32), (Memory.mk c ram).store addr size data =
  (.ok, (Memory.mk c ram).write (addr - c.ramBase).toNat size data)

/-- Of every RAM the fetch composes the word at `addr - ram_base`. -/
def FetchesRam : Prop := ∀ (ram : Nat → BitVec 8) (out : U32),
  ((Memory.mk c ram).fetch addr out).1 = .ok ∧
    ((Memory.mk c ram).fetch addr out).2.toNat = leAt ram (addr - c.ramBase).toNat 4

/-- The accesses taken for RAM are those inside it, and they use indices of the RAM vector. -/
structure AccessExact : Prop where
  load : LoadsRam c addr size ↔ c.InRange addr size.toNat
  store : StoresRam c addr size ↔ c.InRange addr size.toNat
  fetch : size = 4#32 → (FetchesRam c addr ↔ c.InRange addr size.toNat)
  indices : LoadsRam c addr size → ∀ k, k < size.toNat →
    (addr - c.ramBase).toNat + k < c.ramSize.toNat

variable {c addr size}

theorem AccessSize.pos (access : AccessSize size) : 0 < size.toNat := by
  rcases access with rfl | rfl | rfl <;> decide

theorem leAt_ones_pos (p : Nat) {n : Nat} (nonempty : 0 < n) : 0 < leAt (fun _ => 1#8) p n := by
  induction n with
  | zero => omega
  | succ n ih =>
      rw [leAt]
      have top : 0 < (1#8).toNat * 2 ^ (8 * n) := Nat.mul_pos (by decide) (Nat.two_pow_pos _)
      omega

theorem loadsRam_iff (access : AccessSize size) (aligned : addr.toNat % size.toNat = 0) :
    LoadsRam c addr size ↔ c.InRange addr size.toNat ∧ c.ramEnd < 2 ^ 32 := by
  rw [← Memory.inRam_iff (m := ⟨c, fun _ => 1#8⟩)]
  constructor
  · intro loads
    by_contra outside
    have value := (loads (fun _ => 1#8) 0#32).2
    rw [Memory.load_outside (Bool.eq_false_iff.mpr outside)] at value
    have pos := leAt_ones_pos (addr - c.ramBase).toNat access.pos
    have zero : (0#32 : U32).toNat = 0 := rfl
    omega
  · intro inside ram out
    exact Memory.load_of_ram (m := ⟨c, ram⟩) access aligned inside out

theorem storesRam_iff (access : AccessSize size) (aligned : addr.toNat % size.toNat = 0) :
    StoresRam c addr size ↔ c.InRange addr size.toNat ∧ c.ramEnd < 2 ^ 32 := by
  rw [← Memory.inRam_iff (m := ⟨c, fun _ => 0#8⟩)]
  constructor
  · intro stores
    by_contra outside
    have same := Memory.store_kept (m := ⟨c, fun _ => 0#8⟩) (fun ok => outside ok.2.2) 1#32
    rw [stores (fun _ => 0#8) 1#32] at same
    have byte := congrFun (congrArg Memory.ram same) (addr - c.ramBase).toNat
    have pos := access.pos
    rw [Memory.write_ram, if_pos (by omega), Nat.sub_self] at byte
    have one : byteOf (1#32) 0 = 0#8 := byte
    exact absurd one (by decide)
  · intro inside ram data
    exact Memory.store_of_ram (m := ⟨c, ram⟩) access aligned inside data

theorem fetchesRam_iff (aligned : addr.toNat % 4 = 0) :
    FetchesRam c addr ↔ c.InRange addr 4 ∧ c.ramEnd < 2 ^ 32 := by
  have word := Memory.inRam_iff (m := ⟨c, fun _ => 0#8⟩) addr 4#32
  constructor
  · intro fetches
    rw [← show (4#32).toNat = 4 from rfl, ← word]
    by_contra outside
    exact Memory.fetch_outside (Bool.eq_false_iff.mpr outside) 0#32 (fetches (fun _ => 0#8) 0#32).1
  · intro inside ram out
    exact Memory.fetch_of_ram (m := ⟨c, ram⟩) aligned (word.mpr inside) out

theorem index_below (inside : c.InRange addr size.toNat) {k : Nat} (below : k < size.toNat) :
    (addr - c.ramBase).toNat + k < c.ramSize.toNat := by
  have sub : (addr - c.ramBase).toNat = addr.toNat - c.ramBase.toNat :=
    BitVec.toNat_sub_of_le inside.1
  obtain ⟨low, last⟩ := inside
  unfold Config.ramEnd at last
  rw [sub]
  omega

/-- Where the RAM may end at 2^32, an aligned access is taken for RAM as it should be
exactly when the RAM ends lower or the access is below it. -/
theorem access_exact_iff (fits : c.ramBase.toNat + c.ramSize.toNat ≤ 2 ^ 32)
    (access : AccessSize size) (aligned : addr.toNat % size.toNat = 0) :
    AccessExact c addr size ↔
      c.ramBase.toNat + c.ramSize.toNat < 2 ^ 32 ∨ addr.toNat < c.ramBase.toNat := by
  constructor
  · intro exact_
    by_contra top
    rw [not_or, Nat.not_lt, Nat.not_lt] at top
    have inside : c.InRange addr size.toNat := by
      refine ⟨top.2, ?_⟩
      have bound := addr.isLt
      unfold Config.ramEnd
      rcases access with rfl | rfl | rfl <;> simp at aligned ⊢ <;> omega
    have ends := ((loadsRam_iff access aligned).mp (exact_.load.mpr inside)).2
    unfold Config.ramEnd at ends
    omega
  · intro low
    have range : c.InRange addr size.toNat ∧ c.ramEnd < 2 ^ 32 ↔ c.InRange addr size.toNat := by
      rcases low with ends | below
      · exact and_iff_left ends
      · exact iff_of_false (fun inside => absurd inside.1.1 (by omega))
          (fun inside => absurd inside.1 (by omega))
    refine ⟨(loadsRam_iff access aligned).trans range, (storesRam_iff access aligned).trans range,
      ?_, ?_⟩
    · rintro rfl
      exact (fetchesRam_iff aligned).trans range
    · intro loads k below
      exact index_below (((loadsRam_iff access aligned).trans range).mp loads) below

/-- A RAM of one page that ends at 2^32. -/
def topPage : Config := { ramBase := 0xFFFFF000#32, ramSize := 0x1000#32 }

theorem access_exact_page : AccessExact {} 0x20000000#32 4#32 :=
  (access_exact_iff (by decide) (by decide) (by decide)).mpr (by decide)

/-- The RAM that ends at 2^32 takes no access. -/
theorem topPage_refused : ¬ ∀ (c : Config) (addr size : U32),
    c.ramBase.toNat + c.ramSize.toNat ≤ 2 ^ 32 → AccessSize size → addr.toNat % size.toNat = 0 →
      AccessExact c addr size := by
  intro all
  have exact_ := all topPage 0xFFFFF000#32 4#32 (by decide) (by decide) (by decide)
  have loads := exact_.load.mpr (by decide)
  exact absurd ((loadsRam_iff (by decide) (by decide)).mp loads).2 (by decide)

end Range

/-! ## Any sequence of stores -/

/-- A call of `Memory::store`. -/
structure StoreCall where
  addr : U32
  size : U32
  data : U32
  deriving DecidableEq, Repr

namespace StoreCall

variable (call : StoreCall)

/-- The store is of a size there is, aligned and inside the RAM. -/
def Taken (c : Config) : Prop :=
  AccessSize call.size ∧ call.addr.toNat % call.size.toNat = 0 ∧ c.InRange call.addr call.size.toNat

instance (c : Config) : Decidable (call.Taken c) := inferInstanceAs (Decidable (_ ∧ _))

/-- The bytes of the store, at their addresses. -/
def segment : Segment (BitVec 8) := wordSegment call.addr.toNat call.size.toNat call.data

end StoreCall

namespace Memory

/-- `Memory::Memory`. -/
def create (c : Config) : Memory := ⟨c, fun _ => 0#8⟩

def storeAll (m : Memory) (calls : List StoreCall) : Memory :=
  calls.foldl (fun m call => (m.store call.addr call.size call.data).2) m

end Memory

/-- The byte stored last at an address, 0 where none was. -/
def lastStored (c : Config) (calls : List StoreCall) (a : Nat) : BitVec 8 :=
  (Segment.latest ((calls.filter fun call => call.Taken c).map StoreCall.segment) a).getD 0#8

section History

variable {m : Memory}

theorem store_ram_of_taken {call : StoreCall} (taken : call.Taken m.cfg) (ends : m.cfg.ramEnd < 2 ^ 32)
    (j : Nat) : (m.store call.addr call.size call.data).2.ram j =
      (call.segment.value? (m.cfg.ramBase.toNat + j)).getD (m.ram j) := by
  obtain ⟨access, aligned, range⟩ := taken
  have index := Memory.index_eq range.1
  have low := range.1
  rw [Memory.store_of_ram access aligned ((Memory.inRam_iff _ _).mpr ⟨range, ends⟩)]
  simp only [Memory.write_ram, StoreCall.segment, NpcMachine.Machine.wordSegment_value?, index]
  by_cases here : call.addr.toNat ≤ m.cfg.ramBase.toNat + j ∧
      m.cfg.ramBase.toNat + j < call.addr.toNat + call.size.toNat
  · have offset : m.cfg.ramBase.toNat + j - call.addr.toNat =
        j - (call.addr.toNat - m.cfg.ramBase.toNat) := by omega
    rw [if_pos (by omega), if_pos here, offset]
    rfl
  · rw [if_neg (by omega), if_neg here]
    rfl

theorem store_of_not_taken {call : StoreCall} (refused : ¬ call.Taken m.cfg) :
    (m.store call.addr call.size call.data).2 = m := by
  apply Memory.store_kept
  rintro ⟨access, aligned, inside⟩
  exact refused ⟨access, aligned, ((Memory.inRam_iff _ _).mp inside).1⟩

/-- After the stores every byte is the one stored last at its address. -/
theorem storeAll_ram (ends : m.cfg.ramEnd < 2 ^ 32) (calls : List StoreCall) (j : Nat) :
    (m.storeAll calls).ram j =
      (Segment.latest ((calls.filter fun call => call.Taken m.cfg).map StoreCall.segment)
        (m.cfg.ramBase.toNat + j)).getD (m.ram j) := by
  induction calls generalizing m with
  | nil => rfl
  | cons call calls ih =>
      have cfg := Memory.store_cfg (m := m) call.addr call.size call.data
      have rest := ih (m := (m.store call.addr call.size call.data).2) (by rw [cfg]; exact ends)
      rw [cfg] at rest
      rw [Memory.storeAll, List.foldl_cons]
      refine rest.trans ?_
      by_cases taken : call.Taken m.cfg
      · rw [store_ram_of_taken taken ends, List.filter_cons_of_pos (by simpa using taken),
          List.map_cons, Segment.latest]
        cases Segment.latest ((calls.filter fun call => call.Taken m.cfg).map StoreCall.segment)
            (m.cfg.ramBase.toNat + j) <;> rfl
      · rw [store_of_not_taken taken, List.filter_cons_of_neg (by simpa using taken)]

theorem storeAll_cfg (calls : List StoreCall) : (m.storeAll calls).cfg = m.cfg := by
  induction calls generalizing m with
  | nil => rfl
  | cons call calls ih =>
      rw [Memory.storeAll, List.foldl_cons]
      exact ih.trans (Memory.store_cfg _ _ _)

theorem leAt_storeAll {c : Config} (ends : c.ramEnd < 2 ^ 32) (calls : List StoreCall) {addr : U32}
    {n : Nat} (range : c.InRange addr n) :
    leAt ((Memory.create c).storeAll calls).ram (((Memory.create c).storeAll calls).index addr) n =
      leAt (lastStored c calls) addr.toNat n := by
  have cfg : ((Memory.create c).storeAll calls).cfg = c := storeAll_cfg calls
  have index : ((Memory.create c).storeAll calls).index addr = addr.toNat - c.ramBase.toNat := by
    have above := range.1
    rw [← cfg] at above
    rw [Memory.index_eq above, cfg]
  have low := range.1
  rw [index]
  induction n with
  | zero => rfl
  | succ n ih =>
      have place : c.ramBase.toNat + (addr.toNat - c.ramBase.toNat + n) = addr.toNat + n := by omega
      have byte := storeAll_ram (m := Memory.create c) ends calls (addr.toNat - c.ramBase.toNat + n)
      have shorter : c.InRange addr n := by
        have high := range.2
        exact ⟨low, by omega⟩
      have last : ((Memory.create c).storeAll calls).ram (addr.toNat - c.ramBase.toNat + n) =
          lastStored c calls (addr.toNat + n) := by
        rw [byte, ← place]
        rfl
      rw [leAt, leAt, ih shorter, last]

/-- What a load composes after any stores is what they left at its addresses; a store that
is misaligned, of another size or outside the RAM leaves nothing. -/
theorem load_storeAll (c : Config) (fits : c.ramBase.toNat + c.ramSize.toNat < 2 ^ 32)
    (calls : List StoreCall) :
    (∀ addr size out : U32, c.InRange addr size.toNat →
      (((Memory.create c).storeAll calls).load addr size out).1 = .ok →
      (((Memory.create c).storeAll calls).load addr size out).2.toNat =
        leAt (lastStored c calls) addr.toNat size.toNat) ∧
    (∀ addr out : U32, c.InRange addr 4 →
      (((Memory.create c).storeAll calls).fetch addr out).1 = .ok →
      (((Memory.create c).storeAll calls).fetch addr out).2.toNat =
        leAt (lastStored c calls) addr.toNat 4) ∧
    ∀ call : StoreCall, ¬ (AccessSize call.size ∧ call.addr.toNat % call.size.toNat = 0 ∧
        c.InRange call.addr call.size.toNat) →
      (((Memory.create c).storeAll calls).store call.addr call.size call.data).2 =
        (Memory.create c).storeAll calls := by
  have cfg : ((Memory.create c).storeAll calls).cfg = c := storeAll_cfg calls
  have inside {addr size : U32} (range : c.InRange addr size.toNat) :
      ((Memory.create c).storeAll calls).inRam addr size = true := by
    rw [Memory.inRam_iff, cfg]
    exact ⟨range, fits⟩
  refine ⟨?_, ?_, ?_⟩
  · intro addr size out range ok
    by_cases access : AccessSize size
    · by_cases aligned : addr.toNat % size.toNat = 0
      · rw [(Memory.load_of_ram access aligned (inside range) out).2, leAt_storeAll fits calls range]
      · have off := (Memory.sizeMisaligned_iff access addr).mpr aligned
        rw [Memory.load, (Memory.badSize_eq_false_iff size).mpr access, off] at ok
        cases ok
    · have bad : Memory.badSize size = true := by
        rw [← Bool.not_eq_false, Memory.badSize_eq_false_iff]
        exact access
      rw [Memory.load, bad] at ok
      cases ok
  · intro addr out range ok
    by_cases aligned : addr.toNat % 4 = 0
    · have word : ((Memory.create c).storeAll calls).inRam addr 4#32 = true := inside range
      rw [(Memory.fetch_of_ram aligned word out).2, leAt_storeAll fits calls range]
    · have access : AccessSize 4#32 := Or.inr (Or.inr rfl)
      have off := (Memory.sizeMisaligned_iff access addr).mpr aligned
      have masked : (addr &&& 3#32 != 0#32) = true := off
      rw [Memory.fetch, if_pos masked] at ok
      cases ok
  · intro call refused
    apply store_of_not_taken
    rw [cfg]
    exact refused

/-- A word, a half over its end and a byte: the load composes the bytes stored last. -/
theorem load_storeAll_default :
    (((Memory.create {}).storeAll [⟨0x20000000#32, 4#32, 0x11223344#32⟩,
        ⟨0x20000002#32, 2#32, 0xAABB#32⟩, ⟨0x20000001#32, 1#32, 0x77#32⟩,
        ⟨0x20000003#32, 2#32, 0xFFFF#32⟩]).load 0x20000000#32 4#32 0#32).2.toNat = 0xAABB7744 :=
  ((load_storeAll {} (by decide) _).1 _ _ _ (by decide) (by decide)).trans (by decide)

end History

/-! ## Block transfers -/

namespace Memory

variable (m : Memory)

/-- The guard of the block transfers: `len` is a `size_t`, the test is on its low half. -/
def blockRefused (addr : U32) (len : Nat) : Bool := len == 0 || !m.inRam addr (BitVec.ofNat 32 len)

/-- `Memory::read_ram`; `out` is the caller's buffer of `len` bytes. -/
def readRam (addr : U32) (out : List (BitVec 8)) : List (BitVec 8) :=
  if m.blockRefused addr out.length then out
  else (List.range out.length).map fun k => m.ram (m.index addr + k)

/-- `Memory::fill_ram`; `fillRam` is its call with a 32-bit length. -/
def fillRamLen (addr : U32) (value : BitVec 8) (len : Nat) : Memory :=
  if m.blockRefused addr len then m else m.patch (m.index addr) len fun _ => value

theorem fillRam_eq (addr : U32) (value : BitVec 8) (len : U32) :
    m.fillRam addr value len = m.fillRamLen addr value len.toNat := by
  have zero : (len == 0#32) = (len.toNat == 0) := by
    rw [Bool.eq_iff_iff, beq_iff_eq, beq_iff_eq, ← BitVec.toNat_inj]
    rfl
  unfold fillRam fillRamLen blockRefused
  rw [zero, BitVec.ofNat_toNat, BitVec.setWidth_eq]

theorem writeRam_eq (addr : U32) (data : List (BitVec 8)) : m.writeRam addr data =
    if m.blockRefused addr data.length then m
    else m.patch (m.index addr) data.length fun k => data.getD k 0#8 := rfl

variable {m}

/-- The transfer is made when its cut length is in the RAM. -/
theorem blockRefused_eq_false_iff (addr : U32) (len : Nat) : m.blockRefused addr len = false ↔
    len ≠ 0 ∧ m.cfg.InRange addr (len % 2 ^ 32) ∧ m.cfg.ramEnd < 2 ^ 32 := by
  unfold blockRefused
  rw [Bool.or_eq_false_iff, beq_eq_false_iff_ne, Bool.not_eq_false', inRam_iff, BitVec.toNat_ofNat]

theorem blockRefused_of_cfg {other : Memory} (same : other.cfg = m.cfg) (addr : U32) (len : Nat) :
    other.blockRefused addr len = m.blockRefused addr len := by
  unfold blockRefused
  rw [inRam_of_cfg same]

theorem patch_ram (base len : Nat) (byte : Nat → BitVec 8) (j : Nat) :
    (m.patch base len byte).ram j = if base ≤ j ∧ j < base + len then byte (j - base) else m.ram j :=
  rfl

theorem patch_eq_place (base : Nat) (data : List (BitVec 8)) (byte : Nat → BitVec 8)
    (same : ∀ k, data[k]? = if k < data.length then some (byte k) else none) :
    m.patch base data.length byte = { m with ram := Segment.place m.ram ⟨base, data⟩ } := by
  have ram : (m.patch base data.length byte).ram = Segment.place m.ram ⟨base, data⟩ := by
    funext j
    rw [patch_ram, Segment.place_apply]
    unfold Segment.value?
    by_cases low : base ≤ j
    · simp only [low, if_true, same, true_and]
      by_cases below : j - base < data.length
      · rw [if_pos (by omega), if_pos below]
        rfl
      · rw [if_neg (by omega), if_neg below]
        rfl
    · rw [if_neg fun inside => low inside.1, if_neg low]
      rfl
  exact congrArg (Memory.mk m.cfg) ram

end Memory

/-- What the block transfers of `len` bytes at `addr` do: they write and read indices of the
RAM vector only, and move all bytes at `addr - ram_base` or none. -/
structure BlockTransfer (c : Config) (addr : U32) (len : Nat) : Prop where
  writeInside : ∀ (ram : Nat → BitVec 8) (data : List (BitVec 8)), data.length = len → ∀ j,
    c.ramSize.toNat ≤ j → ((Memory.mk c ram).writeRam addr data).ram j = ram j
  fillInside : ∀ (ram : Nat → BitVec 8) (value : BitVec 8) (j : Nat),
    c.ramSize.toNat ≤ j → ((Memory.mk c ram).fillRamLen addr value len).ram j = ram j
  readInside : ∀ (ram other : Nat → BitVec 8) (out : List (BitVec 8)), out.length = len →
    (∀ j, j < c.ramSize.toNat → other j = ram j) →
      (Memory.mk c other).readRam addr out = (Memory.mk c ram).readRam addr out
  writeWhole : ∀ (ram : Nat → BitVec 8) (data : List (BitVec 8)), data.length = len →
    (Memory.mk c ram).writeRam addr data = ⟨c, ram⟩ ∨ (Memory.mk c ram).writeRam addr data =
      ⟨c, Segment.place ram ⟨(addr - c.ramBase).toNat, data⟩⟩
  fillWhole : ∀ (ram : Nat → BitVec 8) (value : BitVec 8),
    (Memory.mk c ram).fillRamLen addr value len = ⟨c, ram⟩ ∨
      (Memory.mk c ram).fillRamLen addr value len =
        ⟨c, Segment.place ram ⟨(addr - c.ramBase).toNat, List.replicate len value⟩⟩
  readWhole : ∀ (ram : Nat → BitVec 8) (out : List (BitVec 8)), out.length = len →
    (Memory.mk c ram).readRam addr out = out ∨ (Memory.mk c ram).readRam addr out =
      (List.range len).map fun k => ram ((addr - c.ramBase).toNat + k)
  loadBin : ∀ (s : EmulatorIss) (data : List (BitVec 8)), s.memory.cfg = c → data.length = len →
    ∀ j, c.ramSize.toNat ≤ j → (s.loadBin (some data) addr).2.memory.ram j = s.memory.ram j
  rtlLoadBin : ∀ (s : RtlIss) (data : List (BitVec 8)), s.memory.cfg = c → data.length = len →
    ∀ j, c.ramSize.toNat ≤ j → (s.loadBin (some data) addr).2.memory.ram j = s.memory.ram j

section Blocks

variable {c : Config} {addr : U32} {len : Nat}

/-- The transfers are as they should be when none is made or all of it is in the RAM. -/
theorem blockTransfer_of_inside
    (inside : (Memory.mk c fun _ => 0#8).blockRefused addr len = true ∨
      (addr - c.ramBase).toNat + len ≤ c.ramSize.toNat) : BlockTransfer c addr len := by
  have room (m : Memory) (same : m.cfg = c) (made : ¬ m.blockRefused addr len = true) :
      m.index addr + len ≤ c.ramSize.toNat := by
    subst same
    exact inside.resolve_left made
  have writes (m : Memory) (same : m.cfg = c) (data : List (BitVec 8)) (length : data.length = len)
      (j : Nat) (beyond : c.ramSize.toNat ≤ j) : (m.writeRam addr data).ram j = m.ram j := by
    rw [Memory.writeRam_eq, length]
    split_ifs with refused
    · rfl
    · have last := room m same refused
      rw [Memory.patch_ram, if_neg (by omega)]
  refine ⟨fun ram => writes ⟨c, ram⟩ rfl, ?_, ?_, ?_, ?_, ?_,
    fun s data same => writes s.memory same data, fun s data same => writes s.memory same data⟩
  · intro ram value j beyond
    unfold Memory.fillRamLen
    split_ifs with refused
    · rfl
    · have last := room ⟨c, ram⟩ rfl refused
      rw [Memory.patch_ram, if_neg (by omega)]
  · intro ram other out length same
    have guard : (Memory.mk c other).blockRefused addr len = (Memory.mk c ram).blockRefused addr len :=
      Memory.blockRefused_of_cfg rfl addr len
    unfold Memory.readRam
    rw [length, guard]
    split_ifs with refused
    · rfl
    · refine List.map_congr_left fun k member => same _ ?_
      have last : (addr - c.ramBase).toNat + len ≤ c.ramSize.toNat := room ⟨c, ram⟩ rfl refused
      have below := List.mem_range.mp member
      have bound : (addr - c.ramBase).toNat + k < c.ramSize.toNat := by omega
      exact bound
  · intro ram data length
    rw [Memory.writeRam_eq]
    split_ifs
    · exact Or.inl rfl
    · refine Or.inr (Memory.patch_eq_place _ data _ fun k => ?_)
      split_ifs with below
      · simp [below]
      · exact List.getElem?_eq_none (by omega)
  · intro ram value
    unfold Memory.fillRamLen
    split_ifs
    · exact Or.inl rfl
    · have filled := Memory.patch_eq_place (m := ⟨c, ram⟩) (addr - c.ramBase).toNat
        (List.replicate len value) (fun _ => value) fun k => by
          rw [List.length_replicate, List.getElem?_replicate]
      rw [List.length_replicate] at filled
      exact Or.inr filled
  · intro ram out length
    unfold Memory.readRam
    rw [length]
    split_ifs
    · exact Or.inl rfl
    · exact Or.inr rfl

/-- A transfer that is made and does not end in the RAM fills bytes beyond it. -/
theorem inside_of_blockTransfer (transfer : BlockTransfer c addr len) :
    (Memory.mk c fun _ => 0#8).blockRefused addr len = true ∨
      (Memory.mk c fun _ => 0#8).index addr + len ≤ c.ramSize.toNat := by
  by_contra outside
  rw [not_or, Bool.not_eq_true, Nat.not_le] at outside
  obtain ⟨made, last⟩ := outside
  obtain ⟨nonempty, range, -⟩ := (Memory.blockRefused_eq_false_iff addr len).mp made
  have index := Memory.index_eq range.1
  have high : addr.toNat - c.ramBase.toNat ≤ c.ramSize.toNat := by
    have ends := range.2
    unfold Config.ramEnd at ends
    simp only at ends
    omega
  have byte := transfer.fillInside (fun _ => 0#8) 1#8
    ((Memory.mk c fun _ => 0#8).index addr + len - 1) (by omega)
  rw [Memory.fillRamLen, made, if_neg Bool.false_ne_true, Memory.patch_ram, if_pos (by omega)] at byte
  exact absurd byte (by decide)

/-- A block transfer stays in the RAM exactly when its length fits 32 bits or the low half
of it does not pass the test. -/
theorem blockTransfer_iff (c : Config) (addr : U32) (len : Nat) : BlockTransfer c addr len ↔
    len < 2 ^ 32 ∨ ¬ (c.ramBase.toNat ≤ addr.toNat ∧
      addr.toNat + len % 2 ^ 32 ≤ c.ramBase.toNat + c.ramSize.toNat ∧
      c.ramBase.toNat + c.ramSize.toNat < 2 ^ 32) := by
  have made := Memory.blockRefused_eq_false_iff (m := ⟨c, fun _ => 0#8⟩) addr len
  have refused := not_congr made
  rw [Bool.not_eq_false] at refused
  have bound := c.ramSize.isLt
  constructor
  · intro transfer
    by_contra cut
    rw [not_or, Nat.not_lt, not_not] at cut
    obtain ⟨wide, low, high, ends⟩ := cut
    rcases inside_of_blockTransfer transfer with none | inside
    · exact refused.mp none ⟨by omega, ⟨low, high⟩, ends⟩
    · omega
  · intro condition
    apply blockTransfer_of_inside
    rw [refused]
    by_cases taken : len ≠ 0 ∧ c.InRange addr (len % 2 ^ 32) ∧ c.ramEnd < 2 ^ 32
    · obtain ⟨-, ⟨low, high⟩, ends⟩ := taken
      have sub : (addr - c.ramBase).toNat = addr.toNat - c.ramBase.toNat := BitVec.toNat_sub_of_le low
      unfold Config.ramEnd at high ends
      rcases condition with small | outside
      · rw [Nat.mod_eq_of_lt small] at high
        exact Or.inr (by omega)
      · exact absurd ⟨low, high, ends⟩ outside
    · exact Or.inl taken

/-- A file of 2^32 + 4 bytes at the start of the RAM is copied past its end. -/
theorem blockTransfer_cut : ¬ ∀ (c : Config) (addr : U32) (len : Nat), len < 2 ^ 64 →
    BlockTransfer c addr len := by
  intro all
  rcases inside_of_blockTransfer (all {} 0x20000000#32 (2 ^ 32 + 4) (by decide)) with none | inside
  · exact absurd none (by decide)
  · exact absurd inside (by decide)

end Blocks

end NpcMachine.Emulator
