/-
# Rtl.FillSide -- `npc_icache` alone, with any fill side

A fill side takes a request after any delay and sends the four words of the line it was
asked for, in order, with any gaps and any fault flags.  `owed` follows the fill port and
says what is still to come, `Serves mem` that what comes is the memory at that cycle.

* `bursting_run`: the I-cache is in `STATE_DATA` exactly while a burst is owed, and files
  the words under the addresses they were read from;
* `read_run`: every word in the cache was read from the memory under its address.
-/
import NpcMachine.Rtl.IcacheContents
import NpcMachine.Machine.Run

namespace NpcMachine.Rtl

set_option autoImplicit false

/-- A burst between its request and its last word.  `crossed`: a flush has come behind
its first word. -/
structure FillBurst where
  addr : Word
  sent : Nat
  faulty : Bool
  crossed : Bool
  deriving DecidableEq, Repr, Inhabited

namespace FillBurst

variable (b : FillBurst) (i : IcacheIn)

/-- The flag `crossed` after a cycle; a flush in the cycle of the first word is not behind
it. -/
def crosses : Bool := b.crossed || (i.flush && decide (0 < b.sent))

def fails : Bool := b.faulty || i.fillRespFault

/-- What is owed after one cycle of the fill port. -/
def next (owed : Option FillBurst) (c : Icache) (i : IcacheIn) : Option FillBurst :=
  match owed with
  | none =>
      if c.fillReqValid && i.fillReqReady then some ⟨c.fillReqAddr, 0, false, false⟩ else none
  | some b =>
      if i.fillRespValid then
        if i.fillRespLast then none
        else some ⟨b.addr, b.sent + 1, b.fails i, b.crosses i⟩
      else some { b with crossed := b.crosses i }

end FillBurst

namespace Icache

/-- The run from reset. -/
abbrev run (ins : Nat → IcacheIn) (n : Nat) : Icache := Machine.run next reset ins n

abbrev owed (ins : Nat → IcacheIn) (n : Nat) : Option FillBurst :=
  Machine.watch next FillBurst.next none reset ins n

/-- Every word that is sent for a burst is the memory word at its address in that cycle,
and the fourth is the last. -/
structure Serves (mem : Nat → Word → Word) (ins : Nat → IcacheIn) : Prop where
  data : ∀ n b, owed ins n = some b → (ins n).fillRespValid = true →
    (ins n).fillRespData = mem n (b.addr + BitVec.ofNat 32 (4 * b.sent))
  last : ∀ n b, owed ins n = some b → (ins n).fillRespValid = true →
    (ins n).fillRespLast = decide (b.sent = 3)

/-- A fill side that falls silent serves if it did so before. -/
theorem serves_of_silent {mem : Nat → Word → Word} {ins : Nat → IcacheIn} {k : Nat}
    (early : ∀ n, n < k → ∀ b ∈ owed ins n, (ins n).fillRespValid = true →
      (ins n).fillRespData = mem n (b.addr + BitVec.ofNat 32 (4 * b.sent)) ∧
        (ins n).fillRespLast = decide (b.sent = 3))
    (late : ∀ n, k ≤ n → (ins n).fillRespValid = false) : Serves mem ins := by
  have served : ∀ n b, owed ins n = some b → (ins n).fillRespValid = true →
      (ins n).fillRespData = mem n (b.addr + BitVec.ofNat 32 (4 * b.sent)) ∧
        (ins n).fillRespLast = decide (b.sent = 3) := by
    intro n b owes beats
    by_cases before : n < k
    · exact early n before b owes beats
    · rw [late n (Nat.le_of_not_lt before)] at beats
      contradiction
  exact ⟨fun n b owes beats => (served n b owes beats).1,
    fun n b owes beats => (served n b owes beats).2⟩

/-! ## The burst and the buffer -/

/-- The I-cache waits for the words of exactly the burst that is owed. -/
structure Bursting (c : Icache) (owed : Option FillBurst) : Prop where
  miss : c.MissWf
  data : c.state = .data ↔ owed.isSome = true
  addr : ∀ b, owed = some b → b.addr = c.fillReqAddr
  sent : ∀ b, owed = some b → b.sent = c.fillBeat.toNat
  faulty : ∀ b, owed = some b → b.faulty = c.fillFaultSeen

namespace Bursting

variable {c : Icache} {owed : Option FillBurst} {i : IcacheIn}

/-- With no burst owed after an edge there is nothing to match. -/
theorem of_none (miss : c.MissWf) (other : c.state ≠ .data) : Bursting c none where
  miss := miss
  data := ⟨fun data => absurd data other, fun owed => by simp at owed⟩
  addr _ owed := by simp at owed
  sent _ owed := by simp at owed
  faulty _ owed := by simp at owed

theorem of_some {b : FillBurst} (miss : c.MissWf) (data : c.state = .data)
    (addr : b.addr = c.fillReqAddr) (sent : b.sent = c.fillBeat.toNat)
    (faulty : b.faulty = c.fillFaultSeen) : Bursting c (some b) where
  miss := miss
  data := by simp [data]
  addr _ owed := by cases owed; exact addr
  sent _ owed := by cases owed; exact sent
  faulty _ owed := by cases owed; exact faulty

theorem reset : Bursting Icache.reset none :=
  .of_none missWf_reset (by simp [Icache.reset])

theorem none_of_state (wf : Bursting c owed) (other : c.state ≠ .data) : owed = none := by
  cases owed with
  | none => rfl
  | some b => exact absurd (wf.data.mpr rfl) other

theorem some_of_data (wf : Bursting c owed) (data : c.state = .data) : ∃ b, owed = some b :=
  Option.isSome_iff_exists.mp (wf.data.mp data)

/-- The word a burst sends next is the one that the I-cache files next. -/
theorem word_addr {b : FillBurst} (wf : Bursting c (some b)) :
    b.addr + BitVec.ofNat 32 (4 * b.sent) = wordAddr c.missTag c.missIndex c.fillBeat := by
  have busy : c.state ≠ .idle := by
    rw [wf.data.mpr rfl]
    simp
  have word : BitVec.ofNat 32 (4 * b.sent) = c.fillBeat.setWidth 32 * 4#32 := by
    have four : (4#32).toNat = 4 := rfl
    have small := c.fillBeat.isLt
    apply BitVec.eq_of_toNat_eq
    rw [wf.sent b rfl, BitVec.toNat_ofNat, BitVec.toNat_mul, BitVec.toNat_setWidth, four]
    omega
  rw [wf.miss.tag busy, wf.miss.index busy, wordAddr_of_line, wf.addr b rfl, word]
  rfl

theorem full_iff {b : FillBurst} (wf : Bursting c (some b)) : b.sent = 3 ↔ c.fillBeat = 3#2 := by
  rw [wf.sent b rfl]
  exact ⟨fun full => BitVec.eq_of_toNat_eq full, fun full => by rw [full]; rfl⟩

/-- One edge.  `last`: the burst ends with its fourth word. -/
theorem next (wf : Bursting c owed)
    (last : ∀ b, owed = some b → i.fillRespValid = true →
      i.fillRespLast = decide (b.sent = 3)) :
    Bursting (c.next i) (FillBurst.next owed c i) := by
  have miss := wf.miss.next i
  cases step_cases c i with
  | rest idle _ next =>
      have none := wf.none_of_state (by rw [idle]; simp)
      have quiet : c.fillReqValid = false := by simp [fillReqValid, idle]
      rw [none, FillBurst.next, quiet]
      exact .of_none miss (by rw [next.state, flushed_state, idle]; simp)
  | miss idle _ _ next =>
      have none := wf.none_of_state (by rw [idle]; simp)
      have quiet : c.fillReqValid = false := by simp [fillReqValid, idle]
      rw [none, FillBurst.next, quiet]
      exact .of_none miss (by rw [next.state]; simp [startMiss])
  | ask req next =>
      have busy : c.state ≠ .idle := by rw [req]; simp
      have asks : c.fillReqValid = true := by simp [fillReqValid, req]
      have same := next_fillReqAddr busy i
      rw [wf.none_of_state (by rw [req]; simp), FillBurst.next, asks, Bool.true_and]
      cases ready : i.fillReqReady with
      | false =>
          refine .of_none miss ?_
          rw [next.state, ready]
          simp
      | true =>
          refine .of_some miss ?_ same.symm ?_ ?_
          · rw [next.state, ready]
            rfl
          · rw [next.fillBeat]
            simp [(wf.miss.fresh req).1]
          · rw [next.fillFaultSeen]
            simp [(wf.miss.fresh req).2]
  | pause data noBeat next =>
      obtain ⟨b, rfl⟩ := wf.some_of_data data
      have same := next_fillReqAddr (by rw [data]; simp) i
      simp only [FillBurst.next, noBeat, Bool.false_eq_true, if_false]
      refine .of_some miss ?_ ?_ ?_ ?_
      · rw [next.state, flushed_state, data]
      · rw [same]; exact wf.addr b rfl
      · rw [next.fillBeat, flushed_fillBeat]; exact wf.sent b rfl
      · rw [next.fillFaultSeen, flushed_fillFaultSeen]; exact wf.faulty b rfl
  | beat data beats more next =>
      obtain ⟨b, rfl⟩ := wf.some_of_data data
      have same := next_fillReqAddr (by rw [data]; simp) i
      have room : b.sent ≠ 3 := by
        have notLast := last b rfl beats
        rw [more] at notLast
        simpa using notLast.symm
      simp only [FillBurst.next, beats, more, if_true, Bool.false_eq_true, if_false]
      refine .of_some miss ?_ ?_ ?_ ?_
      · rw [next.state]
        show (c.flushed i).state = .data
        rw [flushed_state, data]
      · rw [same]; exact wf.addr b rfl
      · have one : (1#2).toNat = 1 := rfl
        have small := c.fillBeat.isLt
        have at_ := wf.sent b rfl
        rw [next.fillBeat]
        show b.sent + 1 = (c.fillBeat + 1#2).toNat
        rw [BitVec.toNat_add, one]
        omega
      · rw [next.fillFaultSeen]
        show b.fails i = c.fillDoneFault i
        rw [FillBurst.fails, fillDoneFault, wf.faulty b rfl]
  | fail data beats isLast _ next =>
      obtain ⟨b, rfl⟩ := wf.some_of_data data
      simp only [FillBurst.next, beats, isLast, if_true]
      exact .of_none miss (by rw [next.state]; simp)
  | install data beats isLast _ next =>
      obtain ⟨b, rfl⟩ := wf.some_of_data data
      simp only [FillBurst.next, beats, isLast, if_true]
      exact .of_none miss (by rw [next.state, installed_state]; simp)

end Bursting

theorem bursting_run {mem : Nat → Word → Word} {ins : Nat → IcacheIn} (serves : Serves mem ins)
    (n : Nat) : Bursting (run ins n) (owed ins n) := by
  induction n with
  | zero => exact Bursting.reset
  | succ n wf => exact wf.next (serves.last n)

/-- A word arrives as the memory has it, under its own address. -/
theorem word_arrives {mem : Nat → Word → Word} {ins : Nat → IcacheIn} (serves : Serves mem ins)
    {n : Nat} (data : (run ins n).state = .data) (beats : (ins n).fillRespValid = true) :
    (ins n).fillRespData =
        mem n (wordAddr (run ins n).missTag (run ins n).missIndex (run ins n).fillBeat) ∧
      ((ins n).fillRespLast = true ↔ (run ins n).fillBeat = 3#2) := by
  have wf := bursting_run serves n
  obtain ⟨b, owed⟩ := wf.some_of_data data
  rw [owed] at wf
  constructor
  · rw [serves.data n b owed beats, wf.word_addr]
  · rw [serves.last n b owed beats, decide_eq_true_iff]
    exact wf.full_iff

/-! ## Reads -/

/-- The word was read at its address before cycle `n`. -/
def ReadBefore (mem : Nat → Word → Word) (n : Nat) (addr word : Word) : Prop :=
  ∃ r, r < n ∧ word = mem r addr

theorem ReadBefore.later {mem : Nat → Word → Word} {n : Nat} {addr word : Word}
    (read : ReadBefore mem n addr word) : ReadBefore mem (n + 1) addr word :=
  let ⟨r, before, same⟩ := read
  ⟨r, Nat.lt_succ_of_lt before, same⟩

/-- Every word that a lookup may get was read at its address. -/
theorem read_run {mem : Nat → Word → Word} {ins : Nat → IcacheIn} (serves : Serves mem ins)
    (n : Nat) : (run ins n).Holds (ReadBefore mem n) := by
  induction n with
  | zero => exact reset_holds _
  | succ n holds =>
      refine Holds.next holds (fun _ _ _ read => read.later) (fun _ _ _ _ read => read.later)
        (fun data beats _ => ?_) (fun data beats last => ?_) (fun data beats more => ?_)
        (fun req => ?_)
      · exact ⟨n, Nat.lt_succ_self n, (word_arrives serves data beats).1⟩
      · exact (word_arrives serves data beats).2.mp last
      · intro full
        rw [(word_arrives serves data beats).2.mpr full] at more
        contradiction
      · exact ((bursting_run serves n).miss.fresh req).1

/-! ## Responses -/

/-- A response with an instruction. -/
structure Responds (c : Icache) (i : IcacheIn) : Prop where
  valid : c.respValid i = true
  fault : c.respFault = false
  misaligned : c.respMisaligned i = false

instance (c : Icache) (i : IcacheIn) : Decidable (Responds c i) :=
  decidable_of_iff (c.respValid i = true ∧ c.respFault = false ∧ c.respMisaligned i = false)
    ⟨fun ⟨valid, fault, misaligned⟩ => ⟨valid, fault, misaligned⟩,
      fun ⟨valid, fault, misaligned⟩ => ⟨valid, fault, misaligned⟩⟩

theorem Responds.hit {c : Icache} {i : IcacheIn} (responds : Responds c i) : c.hit i = true := by
  have noPulse : c.faultRespValid = false := responds.fault
  have valid := responds.valid
  rw [respValid, responds.misaligned, noPulse, Bool.false_or, Bool.or_false] at valid
  exact valid

/-- With a memory that does not change, every response is the memory word. -/
theorem responds_memory {mem : Word → Word} {ins : Nat → IcacheIn}
    (serves : Serves (fun _ => mem) ins) {n : Nat} (responds : Responds (run ins n) (ins n)) :
    (run ins n).respInst (ins n) = mem (ins n).lookupAddr := by
  obtain ⟨_, _, same⟩ := (read_run serves n).hit responds.hit
  exact same

/-- A lookup that goes on while the fill side is silent. -/
def looks (addr : Word) : IcacheIn := ⟨false, true, addr, true, false, 0#32, false, false⟩

/-- The lookup beside a word of the fill side. -/
def looksBeside (addr data : Word) (last : Bool) : IcacheIn :=
  ⟨false, true, addr, true, true, data, last, false⟩

/-- A lookup of the second word of a line, filled with a gap, each word its own address. -/
def oneFill : Nat → IcacheIn
  | 2 => looksBeside 0x20000004#32 0x20000000#32 false
  | 3 => looksBeside 0x20000004#32 0x20000004#32 false
  | 5 => looksBeside 0x20000004#32 0x20000008#32 false
  | 6 => looksBeside 0x20000004#32 0x2000000C#32 true
  | _ => looks 0x20000004#32

theorem oneFill_serves : Serves (fun _ addr => addr) oneFill := by
  refine serves_of_silent (k := 7) (by decide) fun n late => ?_
  obtain ⟨k, rfl⟩ := Nat.exists_eq_add_of_le' late
  rfl

theorem oneFill_responds : (run oneFill 7).respInst (oneFill 7) = 0x20000004#32 :=
  responds_memory oneFill_serves (n := 7) (by decide)

end Icache

end NpcMachine.Rtl
