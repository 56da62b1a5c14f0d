/-
# Rtl.IcacheContents -- what the words in the I-cache are

`Icache.Holds P` says that every word that a fetch may still get from the cache, in a
valid line or in the buffer of a fill without an error so far, satisfies `P` at its
address.  An edge keeps it when `P` may be weakened (lines that a flush drops are
excused) and the arriving word satisfies the new predicate; what a hit returns
satisfies it.
-/
import NpcMachine.Rtl.IcacheStep
import NpcMachine.Rtl.Datapath
import NpcMachine.Machine.Bits

namespace NpcMachine.Rtl

set_option autoImplicit false

/-! ## Addresses of cached words -/

/-- The address of a word of a line. -/
def wordAddr (tag : BitVec 27) (index : BitVec 1) (word : BitVec 2) : Word :=
  tag ++ index ++ word ++ 0#2

theorem toNat_wordAddr (tag : BitVec 27) (index : BitVec 1) (word : BitVec 2) :
    (wordAddr tag index word).toNat = tag.toNat * 32 + index.toNat * 16 + word.toNat * 4 := by
  have zero : (0#2).toNat = 0 := rfl
  unfold wordAddr
  rw [Machine.toNat_append_mul, Machine.toNat_append_mul, Machine.toNat_append_mul, zero]
  omega

theorem toNat_lineAddr (addr : Word) : (lineAddr addr).toNat = addr.toNat / 16 * 16 := by
  have zero : (0#4).toNat = 0 := rfl
  have bound := addr.isLt
  unfold lineAddr
  rw [Machine.toNat_append_mul, Machine.toNat_extract, zero]
  omega

/-- An aligned address is the address of the word it looks up. -/
theorem wordAddr_lookup {addr : Word} (aligned : lookupAligned addr = true) :
    wordAddr (lookupTag addr) (lookupIndex addr) (lookupWord addr) = addr := by
  have low : addr.extractLsb' 0 2 = 0#2 := by simpa [lookupAligned] using aligned
  have rest : addr.toNat / 2 ^ 0 % 2 ^ 2 = 0 := by
    rw [← Machine.toNat_extract, low]
    rfl
  have bound := addr.isLt
  apply BitVec.eq_of_toNat_eq
  rw [toNat_wordAddr]
  simp only [lookupTag, lookupIndex, lookupWord, Machine.toNat_extract]
  omega

/-- The words of the line of an address lie behind its first byte. -/
theorem wordAddr_of_line (addr : Word) (word : BitVec 2) :
    wordAddr (lookupTag addr) (lookupIndex addr) word =
      lineAddr addr + word.setWidth 32 * 4#32 := by
  have four : (4#32).toNat = 4 := rfl
  have bound := addr.isLt
  have small := word.isLt
  apply BitVec.eq_of_toNat_eq
  rw [toNat_wordAddr, BitVec.toNat_add, BitVec.toNat_mul, BitVec.toNat_setWidth, toNat_lineAddr,
    four]
  simp only [lookupTag, lookupIndex, Machine.toNat_extract]
  omega

theorem wordAddr_aligned (tag : BitVec 27) (index : BitVec 1) (word : BitVec 2) :
    misaligned4 (wordAddr tag index word) = false := by
  have low : (wordAddr tag index word).extractLsb' 0 2 = 0#2 := by
    have zero : (0#2).toNat = 0 := rfl
    apply BitVec.eq_of_toNat_eq
    rw [Machine.toNat_extract, toNat_wordAddr, zero]
    omega
  rw [misaligned4, low]
  rfl

theorem lineAddr_wordAddr (addr : Word) (word : BitVec 2) :
    lineAddr (wordAddr (lookupTag addr) (lookupIndex addr) word) = lineAddr addr := by
  have bound := addr.isLt
  have small := word.isLt
  apply BitVec.eq_of_toNat_eq
  rw [toNat_lineAddr, toNat_wordAddr, toNat_lineAddr]
  simp only [lookupTag, lookupIndex, Machine.toNat_extract]
  omega

theorem index_cases : ∀ index : BitVec 1, index = 0#1 ∨ index = 1#1 := by decide

/-! ## Held words -/

def CacheLine.Holds (l : CacheLine) (index : BitVec 1) (P : Word → Word → Prop) : Prop :=
  l.valid = true → ∀ word, P (wordAddr l.tag index word) (l.words.get word)

namespace Icache

/-- The words that fetches may still get satisfy `P` at their addresses. -/
structure Holds (c : Icache) (P : Word → Word → Prop) : Prop where
  line0 : c.line0.Holds 0#1 P
  line1 : c.line1.Holds 1#1 P
  fill : c.state = .data → c.fillFaultSeen = false → ∀ word, word.toNat < c.fillBeat.toNat →
    P (wordAddr c.missTag c.missIndex word) (c.fill.get word)

/-- The latched fields of a miss belong to one address. -/
structure MissWf (c : Icache) : Prop where
  tag : c.state ≠ .idle → c.missTag = lookupTag c.missAddr
  index : c.state ≠ .idle → c.missIndex = lookupIndex c.missAddr
  word : c.state ≠ .idle → c.missWord = lookupWord c.missAddr
  fresh : c.state = .req → c.fillBeat = 0#2 ∧ c.fillFaultSeen = false

@[simp] theorem flushed_missTag (c : Icache) (i : IcacheIn) :
    (c.flushed i).missTag = c.missTag := by
  unfold flushed; split <;> rfl

@[simp] theorem flushed_missIndex (c : Icache) (i : IcacheIn) :
    (c.flushed i).missIndex = c.missIndex := by
  unfold flushed; split <;> rfl

@[simp] theorem flushed_missWord (c : Icache) (i : IcacheIn) :
    (c.flushed i).missWord = c.missWord := by
  unfold flushed; split <;> rfl

@[simp] theorem flushed_fillBeat (c : Icache) (i : IcacheIn) :
    (c.flushed i).fillBeat = c.fillBeat := by
  unfold flushed; split <;> rfl

@[simp] theorem flushed_fill (c : Icache) (i : IcacheIn) : (c.flushed i).fill = c.fill := by
  unfold flushed; split <;> rfl

/-- The lines after the flush of an edge. -/
theorem flushed_holds {c : Icache} {i : IcacheIn} {P Q : Word → Word → Prop}
    (line0 : c.line0.Holds 0#1 P) (line1 : c.line1.Holds 1#1 P)
    (weaken : i.flush = false → ∀ addr word, P addr word → Q addr word) :
    (c.flushed i).line0.Holds 0#1 Q ∧ (c.flushed i).line1.Holds 1#1 Q := by
  unfold flushed
  cases flush : i.flush with
  | true => exact ⟨fun valid => by simp at valid, fun valid => by simp at valid⟩
  | false =>
      exact ⟨fun valid word => weaken flush _ _ (line0 valid word),
        fun valid word => weaken flush _ _ (line1 valid word)⟩

/-- The lines after an edge; `filled` are the words of a line that is installed. -/
theorem next_lines {c : Icache} {i : IcacheIn} {Q : Word → Word → Prop}
    (line0 : (c.flushed i).line0.Holds 0#1 Q) (line1 : (c.flushed i).line1.Holds 1#1 Q)
    (filled : c.state = .data → i.fillRespValid = true → i.fillRespLast = true →
      c.fillDoneFault i = false → ∀ word, Q (wordAddr c.missTag c.missIndex word)
        ((c.fill.set c.fillBeat i.fillRespData).get word)) :
    (c.next i).line0.Holds 0#1 Q ∧ (c.next i).line1.Holds 1#1 Q := by
  have kept : (c.next i).line0 = (c.flushed i).line0 → (c.next i).line1 = (c.flushed i).line1 →
      (c.next i).line0.Holds 0#1 Q ∧ (c.next i).line1.Holds 1#1 Q := by
    intro same0 same1
    rw [same0, same1]
    exact ⟨line0, line1⟩
  cases step_cases c i with
  | rest _ _ next => exact kept next.line0 next.line1
  | miss _ _ _ next => exact kept next.line0 next.line1
  | ask _ next => exact kept next.line0 next.line1
  | pause _ _ next => exact kept next.line0 next.line1
  | beat _ _ _ next => exact kept next.line0 next.line1
  | fail _ _ _ _ next => exact kept next.line0 next.line1
  | install data beats last good next =>
      have words := filled data beats last good
      rcases index_cases c.missIndex with zero | one
      · have new : (c.next i).line0 = c.filledLine i := by
          rw [next.line0, installed, zero]
          rfl
        have old : (c.next i).line1 = (c.flushed i).line1 := by
          rw [next.line1, installed, zero]
          rfl
        rw [new, old]
        refine ⟨fun _ word => ?_, line1⟩
        rw [← zero]
        exact words word
      · have old : (c.next i).line0 = (c.flushed i).line0 := by
          rw [next.line0, installed, one]
          rfl
        have new : (c.next i).line1 = c.filledLine i := by
          rw [next.line1, installed, one]
          rfl
        rw [new, old]
        refine ⟨line0, fun _ word => ?_⟩
        rw [← one]
        exact words word

theorem missWf_reset : reset.MissWf where
  tag busy := absurd rfl busy
  index busy := absurd rfl busy
  word busy := absurd rfl busy
  fresh req := by simp [reset] at req

theorem MissWf.next {c : Icache} (wf : c.MissWf) (i : IcacheIn) : (c.next i).MissWf := by
  cases step_cases c i with
  | rest idle _ next =>
      have state : (c.next i).state = .idle := by rw [next.state, flushed_state, idle]
      exact ⟨fun busy => absurd state busy, fun busy => absurd state busy,
        fun busy => absurd state busy, fun req => by rw [state] at req; contradiction⟩
  | miss _ _ _ next =>
      refine ⟨fun _ => ?_, fun _ => ?_, fun _ => ?_, fun _ => ⟨?_, ?_⟩⟩
      · rw [next.missTag, next.missAddr]; rfl
      · rw [next.missIndex, next.missAddr]; rfl
      · rw [next.missWord, next.missAddr]; rfl
      · rw [next.fillBeat]; rfl
      · rw [next.fillFaultSeen]; rfl
  | ask req next =>
      have busy : c.state ≠ .idle := by rw [req]; simp
      refine ⟨fun _ => ?_, fun _ => ?_, fun _ => ?_, fun _ => ⟨?_, ?_⟩⟩
      · rw [next.missTag, next.missAddr]; simpa using wf.tag busy
      · rw [next.missIndex, next.missAddr]; simpa using wf.index busy
      · rw [next.missWord, next.missAddr]; simpa using wf.word busy
      · rw [next.fillBeat]; simpa using (wf.fresh req).1
      · rw [next.fillFaultSeen]; simpa using (wf.fresh req).2
  | pause data _ next =>
      have busy : c.state ≠ .idle := by rw [data]; simp
      refine ⟨fun _ => ?_, fun _ => ?_, fun _ => ?_, fun req => ?_⟩
      · rw [next.missTag, next.missAddr]; simpa using wf.tag busy
      · rw [next.missIndex, next.missAddr]; simpa using wf.index busy
      · rw [next.missWord, next.missAddr]; simpa using wf.word busy
      · rw [next.state, flushed_state, data] at req; contradiction
  | beat data _ _ next =>
      have busy : c.state ≠ .idle := by rw [data]; simp
      refine ⟨fun _ => ?_, fun _ => ?_, fun _ => ?_, fun req => ?_⟩
      · rw [next.missTag, next.missAddr]; simpa [beat] using wf.tag busy
      · rw [next.missIndex, next.missAddr]; simpa [beat] using wf.index busy
      · rw [next.missWord, next.missAddr]; simpa [beat] using wf.word busy
      · rw [next.state] at req
        have state : (c.flushed i).state = .req := req
        rw [flushed_state, data] at state
        contradiction
  | fail _ _ _ _ next =>
      have state : (c.next i).state = .idle := by rw [next.state]
      exact ⟨fun busy => absurd state busy, fun busy => absurd state busy,
        fun busy => absurd state busy, fun req => by rw [state] at req; contradiction⟩
  | install _ _ _ _ next =>
      have state : (c.next i).state = .idle := by rw [next.state, installed_state]
      exact ⟨fun busy => absurd state busy, fun busy => absurd state busy,
        fun busy => absurd state busy, fun req => by rw [state] at req; contradiction⟩

/-- A received word of the fill buffer, together with the one arriving now. -/
theorem fill_set_holds {c : Icache} {i : IcacheIn} {P Q : Word → Word → Prop}
    (holds : c.Holds P) (data : c.state = .data) (good : c.fillDoneFault i = false)
    (weaken : ∀ word, word.toNat < c.fillBeat.toNat →
      P (wordAddr c.missTag c.missIndex word) (c.fill.get word) →
      Q (wordAddr c.missTag c.missIndex word) (c.fill.get word))
    (arrives : Q (wordAddr c.missTag c.missIndex c.fillBeat) i.fillRespData)
    (word : BitVec 2) (received : word.toNat ≤ c.fillBeat.toNat) :
    Q (wordAddr c.missTag c.missIndex word) ((c.fill.set c.fillBeat i.fillRespData).get word) := by
  have unseen : c.fillFaultSeen = false := by
    simp only [fillDoneFault, Bool.or_eq_false_iff] at good
    exact good.1
  rw [LineWords.get_set]
  split_ifs with now
  · rw [now]
    exact arrives
  · have before : word.toNat < c.fillBeat.toNat := by
      have other : word.toNat ≠ c.fillBeat.toNat := fun same => now (BitVec.eq_of_toNat_eq same)
      omega
    exact weaken word before (holds.fill data unseen word before)

/-- One edge.  `last` says that the last beat of a burst is the fourth. -/
theorem Holds.next {c : Icache} {i : IcacheIn} {P Q : Word → Word → Prop} (holds : c.Holds P)
    (lines : i.flush = false → ∀ addr word, P addr word → Q addr word)
    (buffer : c.state = .data → c.fillFaultSeen = false → ∀ word,
      word.toNat < c.fillBeat.toNat → P (wordAddr c.missTag c.missIndex word) (c.fill.get word) →
      Q (wordAddr c.missTag c.missIndex word) (c.fill.get word))
    (arrives : c.state = .data → i.fillRespValid = true → i.fillRespFault = false →
      Q (wordAddr c.missTag c.missIndex c.fillBeat) i.fillRespData)
    (last : c.state = .data → i.fillRespValid = true → i.fillRespLast = true →
      c.fillBeat = 3#2)
    (more : c.state = .data → i.fillRespValid = true → i.fillRespLast = false →
      c.fillBeat ≠ 3#2)
    (fresh : c.state = .req → c.fillBeat = 0#2) : (c.next i).Holds Q := by
  obtain ⟨flushed0, flushed1⟩ := flushed_holds holds.line0 holds.line1 lines
  obtain ⟨line0, line1⟩ := next_lines flushed0 flushed1 (by
    intro data beats isLast good word
    have parts := good
    simp only [fillDoneFault, Bool.or_eq_false_iff] at parts
    have full := last data beats isLast
    refine fill_set_holds holds data good (buffer data parts.1) (arrives data beats parts.2)
      word ?_
    have small := word.isLt
    rw [full]
    exact Nat.lt_succ_iff.mp small)
  refine ⟨line0, line1, ?_⟩
  cases step_cases c i with
  | rest idle _ next =>
      intro data
      rw [next.state, flushed_state, idle] at data
      contradiction
  | miss _ _ _ next =>
      intro data
      rw [next.state] at data
      contradiction
  | ask req next =>
      intro _ _ word received
      have none : (c.next i).fillBeat = 0#2 := by
        rw [next.fillBeat]
        simpa using fresh req
      rw [none] at received
      exact absurd received (Nat.not_lt_zero _)
  | pause data _ next =>
      intro _ unseen word received
      rw [next.fillFaultSeen, flushed_fillFaultSeen] at unseen
      rw [next.fillBeat, flushed_fillBeat] at received
      rw [next.missTag, next.missIndex, next.fill, flushed_missTag, flushed_missIndex,
        flushed_fill]
      exact buffer data unseen word received (holds.fill data unseen word received)
  | beat data beats notLast next =>
      intro _ good word received
      rw [next.fillFaultSeen] at good
      rw [next.fillBeat] at received
      rw [next.missTag, next.missIndex, next.fill]
      show Q (wordAddr (c.flushed i).missTag (c.flushed i).missIndex word) _
      rw [flushed_missTag, flushed_missIndex]
      have good' : c.fillDoneFault i = false := good
      have parts := good'
      simp only [fillDoneFault, Bool.or_eq_false_iff] at parts
      have bound : word.toNat ≤ c.fillBeat.toNat := by
        have room : c.fillBeat.toNat ≠ 3 := fun full =>
          more data beats notLast (BitVec.eq_of_toNat_eq full)
        have small := c.fillBeat.isLt
        have one : (1#2).toNat = 1 := rfl
        rw [BitVec.toNat_add, one] at received
        omega
      exact fill_set_holds holds data good' (buffer data parts.1)
        (arrives data beats parts.2) word bound
  | fail _ _ _ _ next =>
      intro data
      rw [next.state] at data
      contradiction
  | install _ _ _ _ next =>
      intro data
      rw [next.state, installed_state] at data
      contradiction

theorem reset_holds (P : Word → Word → Prop) : reset.Holds P where
  line0 valid := by simp [reset] at valid
  line1 valid := by simp [reset] at valid
  fill data := by simp [reset] at data

theorem Holds.line {c : Icache} {P : Word → Word → Prop} (holds : c.Holds P)
    (index : BitVec 1) : (c.line index).Holds index P := by
  rcases index_cases index with rfl | rfl
  · exact holds.line0
  · exact holds.line1

/-- What a hit returns is a held word at the looked-up address. -/
theorem Holds.hit {c : Icache} {i : IcacheIn} {P : Word → Word → Prop} (holds : c.Holds P)
    (hits : c.hit i = true) : P i.lookupAddr (c.respInst i) := by
  have inst : c.respInst i = c.hitInst i := by simp [respInst, hits]
  simp only [Icache.hit, Bool.and_eq_true, beq_iff_eq] at hits
  obtain ⟨⟨⟨⟨-, aligned⟩, -⟩, valid⟩, tag⟩ := hits
  have held := holds.line (lookupIndex i.lookupAddr) valid (lookupWord i.lookupAddr)
  rw [tag, wordAddr_lookup aligned] at held
  rw [inst]
  exact held

end Icache

end NpcMachine.Rtl
