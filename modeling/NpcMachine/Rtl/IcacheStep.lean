/-
# Rtl.IcacheStep -- what one clock edge can do to the I-cache

`Icache.step_cases` describes the next state up to the performance counters, which
no output depends on.  A fill goes from `startMiss` through its beats to either a
pulse (`fail`) or an installed line (`install`).
-/
import NpcMachine.Rtl.Icache

namespace NpcMachine.Rtl

set_option autoImplicit false

namespace Icache

/-- Equal but for the counters. -/
structure Agrees (a b : Icache) : Prop where
  state : a.state = b.state
  line0 : a.line0 = b.line0
  line1 : a.line1 = b.line1
  missAddr : a.missAddr = b.missAddr
  missTag : a.missTag = b.missTag
  missIndex : a.missIndex = b.missIndex
  missWord : a.missWord = b.missWord
  fillBeat : a.fillBeat = b.fillBeat
  fillFaultSeen : a.fillFaultSeen = b.fillFaultSeen
  fill : a.fill = b.fill
  faultRespValid : a.faultRespValid = b.faultRespValid

/-- The line that a good fill replaces. -/
def installed (c : Icache) (i : IcacheIn) : Icache :=
  if c.missIndex = 1#1 then { c.beat i with line1 := c.filledLine i, state := .idle }
  else { c.beat i with line0 := c.filledLine i, state := .idle }

/-- One clock edge of the fill state machine. -/
inductive StepCase (c : Icache) (i : IcacheIn) : Prop where
  /-- No lookup, a hit, a misaligned lookup, or a lookup beside the fault pulse. -/
  | rest (idle : c.state = .idle) (quiet : c.miss i = false ∨ c.faultRespValid = true)
      (next : (c.next i).Agrees (c.flushed i))
  | miss (idle : c.state = .idle) (silent : c.faultRespValid = false)
      (misses : c.miss i = true) (next : (c.next i).Agrees (c.startMiss i))
  | ask (req : c.state = .req)
      (next : (c.next i).Agrees
        { c.flushed i with state := if i.fillReqReady then .data else .req })
  | pause (data : c.state = .data) (noBeat : i.fillRespValid = false)
      (next : (c.next i).Agrees (c.flushed i))
  | beat (data : c.state = .data) (beats : i.fillRespValid = true)
      (more : i.fillRespLast = false)
      (next : (c.next i).Agrees { c.beat i with fillBeat := c.fillBeat + 1#2 })
  | fail (data : c.state = .data) (beats : i.fillRespValid = true)
      (last : i.fillRespLast = true) (bad : c.fillDoneFault i = true)
      (next : (c.next i).Agrees { c.beat i with faultRespValid := true, state := .idle })
  | install (data : c.state = .data) (beats : i.fillRespValid = true)
      (last : i.fillRespLast = true) (good : c.fillDoneFault i = false)
      (next : (c.next i).Agrees (c.installed i))

/-! ## Each state -/

section Next

variable {c : Icache} {i : IcacheIn}

theorem next_of_req (req : c.state = .req) : (c.next i).Agrees
    { c.flushed i with state := if i.fillReqReady then .data else .req } := by
  have next : c.next i = c.nextReq i := by simp [Icache.next, req]
  rw [next, nextReq]
  constructor <;> rfl

theorem next_of_pause (data : c.state = .data) (noBeat : i.fillRespValid = false) :
    (c.next i).Agrees (c.flushed i) := by
  have next : c.next i = c.nextData i := by simp [Icache.next, data]
  rw [next, nextData]
  simp only [noBeat, Bool.false_eq_true, if_false]
  constructor <;> rfl

theorem next_of_beat (data : c.state = .data) (beats : i.fillRespValid = true)
    (more : i.fillRespLast = false) :
    (c.next i).Agrees { c.beat i with fillBeat := c.fillBeat + 1#2 } := by
  have next : c.next i = c.nextData i := by simp [Icache.next, data]
  rw [next, nextData]
  simp only [beats, more, if_true, Bool.false_eq_true, if_false]
  constructor <;> rfl

theorem next_of_fail (data : c.state = .data) (beats : i.fillRespValid = true)
    (last : i.fillRespLast = true) (bad : c.fillDoneFault i = true) :
    (c.next i).Agrees { c.beat i with faultRespValid := true, state := .idle } := by
  have next : c.next i = c.nextData i := by simp [Icache.next, data]
  rw [next, nextData]
  simp only [beats, last, bad, if_true]
  constructor <;> rfl

theorem next_of_install (data : c.state = .data) (beats : i.fillRespValid = true)
    (last : i.fillRespLast = true) (good : c.fillDoneFault i = false) :
    (c.next i).Agrees (c.installed i) := by
  have next : c.next i = c.nextData i := by simp [Icache.next, data]
  rw [next, nextData, installed]
  simp only [beats, last, good, if_true, Bool.false_eq_true, if_false]
  constructor <;> rfl

theorem installed_state : (c.installed i).state = .idle := by
  unfold installed
  split <;> rfl

end Next

theorem step_cases (c : Icache) (i : IcacheIn) : StepCase c i := by
  cases state : c.state with
  | idle =>
      have next : c.next i = c.nextIdle i := by simp [Icache.next, state]
      cases asked : i.lookupValid with
      | false =>
          refine .rest state (Or.inl (by simp [Icache.miss, asked])) ?_
          rw [next, nextIdle]
          simp only [asked, Bool.false_and, Bool.false_eq_true, if_false]
          constructor <;> rfl
      | true =>
          cases pulse : c.faultRespValid with
          | true =>
              refine .rest state (Or.inr pulse) ?_
              rw [next, nextIdle]
              simp only [pulse, Bool.not_true, Bool.and_false, Bool.false_eq_true, if_false]
              constructor <;> rfl
          | false =>
              cases hits : c.hit i with
              | true =>
                  refine .rest state (Or.inl (by simp [Icache.miss, hits])) ?_
                  rw [next, nextIdle]
                  simp only [asked, pulse, hits, Bool.not_false, Bool.and_self, if_true]
                  constructor <;> rfl
              | false =>
                  cases aligned : lookupAligned i.lookupAddr with
                  | true =>
                      refine .miss state pulse
                        (by simp [Icache.miss, asked, hits, aligned, state]) ?_
                      rw [next, nextIdle]
                      simp only [asked, pulse, hits, aligned, Bool.not_false, Bool.and_self,
                        if_true, Bool.false_eq_true, if_false]
                      constructor <;> rfl
                  | false =>
                      refine .rest state (Or.inl (by simp [Icache.miss, aligned])) ?_
                      rw [next, nextIdle]
                      simp only [asked, pulse, hits, aligned, Bool.not_false, Bool.and_self,
                        if_true, Bool.false_eq_true, if_false]
                      constructor <;> rfl
  | req => exact .ask state (next_of_req state)
  | data =>
      cases beats : i.fillRespValid with
      | false => exact .pause state beats (next_of_pause state beats)
      | true =>
          cases last : i.fillRespLast with
          | false => exact .beat state beats last (next_of_beat state beats last)
          | true =>
              cases bad : c.fillDoneFault i with
              | true => exact .fail state beats last bad (next_of_fail state beats last bad)
              | false =>
                  exact .install state beats last bad (next_of_install state beats last bad)

/-! ## The buffer -/

/-- The word that the edge files in the buffer, and where. -/
def stores (c : Icache) (i : IcacheIn) : Option (BitVec 2 × Word) :=
  if c.state == .data && i.fillRespValid then some (c.fillBeat, i.fillRespData) else none

theorem next_fill_of_stores {c : Icache} {i : IcacheIn} {word : BitVec 2} {data : Word}
    (stores : c.stores i = some (word, data)) : (c.next i).fill = c.fill.set word data := by
  unfold Icache.stores at stores
  split_ifs at stores with beats
  cases stores
  simp only [Bool.and_eq_true, beq_iff_eq] at beats
  cases step_cases c i with
  | rest idle => rw [idle] at beats; cases beats.1
  | miss idle => rw [idle] at beats; cases beats.1
  | ask req => rw [req] at beats; cases beats.1
  | pause _ noBeat => rw [noBeat] at beats; cases beats.2
  | beat _ _ _ next => rw [next.fill]; rfl
  | fail _ _ _ _ next => rw [next.fill]; rfl
  | install _ _ _ _ next =>
      rw [next.fill, installed]
      split <;> rfl

theorem next_fill_of_kept {c : Icache} {i : IcacheIn} (data : c.state = .data)
    (kept : c.stores i = none) : (c.next i).fill = c.fill := by
  have noBeat : i.fillRespValid = false := by
    cases beats : i.fillRespValid with
    | false => rfl
    | true => simp [stores, data, beats] at kept
  rw [(next_of_pause data noBeat).fill, flushed]
  split <;> rfl

/-! ## The pulse -/

/-- The last beat of a failed fill. -/
def fillFails (c : Icache) (i : IcacheIn) : Bool :=
  c.state == .data && i.fillRespValid && i.fillRespLast && c.fillDoneFault i

@[simp] theorem flushed_state (c : Icache) (i : IcacheIn) : (c.flushed i).state = c.state := by
  unfold flushed; split <;> rfl

@[simp] theorem flushed_faultRespValid (c : Icache) (i : IcacheIn) :
    (c.flushed i).faultRespValid = false := by
  unfold flushed; split <;> rfl

@[simp] theorem flushed_missAddr (c : Icache) (i : IcacheIn) :
    (c.flushed i).missAddr = c.missAddr := by
  unfold flushed; split <;> rfl

@[simp] theorem flushed_fillFaultSeen (c : Icache) (i : IcacheIn) :
    (c.flushed i).fillFaultSeen = c.fillFaultSeen := by
  unfold flushed; split <;> rfl

/-- The miss address stays from the request of a fill to its end. -/
theorem next_fillReqAddr {c : Icache} (busy : c.state ≠ .idle) (i : IcacheIn) :
    (c.next i).fillReqAddr = c.fillReqAddr := by
  have same : (c.next i).missAddr = c.missAddr := by
    cases step_cases c i with
    | rest idle => exact absurd idle busy
    | miss idle => exact absurd idle busy
    | ask _ next => rw [next.missAddr, flushed_missAddr]
    | pause _ _ next => rw [next.missAddr, flushed_missAddr]
    | beat _ _ _ next => rw [next.missAddr]; exact flushed_missAddr c i
    | fail _ _ _ _ next => rw [next.missAddr]; exact flushed_missAddr c i
    | install _ _ _ _ next =>
        rw [next.missAddr, installed]
        split <;> exact flushed_missAddr c i
  rw [fillReqAddr, same, fillReqAddr]

/-- The pulse is up for the one cycle after a failed fill. -/
theorem next_faultRespValid (c : Icache) (i : IcacheIn) :
    (c.next i).faultRespValid = c.fillFails i := by
  cases step_cases c i with
  | rest idle _ next => rw [next.faultRespValid]; simp [fillFails, idle]
  | miss idle _ _ next => rw [next.faultRespValid]; simp [fillFails, idle, startMiss]
  | ask req next => rw [next.faultRespValid]; simp [fillFails, req]
  | pause data noBeat next => rw [next.faultRespValid]; simp [fillFails, noBeat]
  | beat data beats more next => rw [next.faultRespValid]; simp [fillFails, more, Icache.beat]
  | fail data beats last bad next =>
      rw [next.faultRespValid]; simp [fillFails, data, beats, last, bad]
  | install data beats last good next =>
      rw [next.faultRespValid, installed]
      split <;> simp [fillFails, good, Icache.beat]

end Icache

end NpcMachine.Rtl
