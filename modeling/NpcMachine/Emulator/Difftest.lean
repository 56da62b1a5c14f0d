/-
# Emulator.Difftest -- the comparison of two commit events

`events_match` of `difftest.cpp`: the first field that differs, or none.  Under an
exception the cause stands for the instruction and its result.
-/
import NpcMachine.Emulator.EmulatorIss
import NpcMachine.Emulator.RtlIss

namespace NpcMachine.Emulator

open NpcMachine.Rtl

set_option autoImplicit false

inductive Mismatch where
  | pc | exception | cause | inst | rd | rdValue | nextPc
  deriving DecidableEq, Repr

def eventsMismatch (a b : CommitEvent) : Option Mismatch :=
  if a.pc ≠ b.pc then some .pc
  else if a.exception ≠ b.exception then some .exception
  else if a.exception = true ∧ a.cause ≠ b.cause then some .cause
  else if a.exception = false ∧ a.inst ≠ b.inst then some .inst
  else if a.exception = false ∧ a.rd ≠ b.rd then some .rd
  else if a.exception = false ∧ a.rd ≠ 0#32 ∧ a.rdValue ≠ b.rdValue then some .rdValue
  else if a.nextPc ≠ b.nextPc then some .nextPc
  else none

def eventsMatch (a b : CommitEvent) : Bool := eventsMismatch a b == none

/-- `std::setw(8)` of the digits. -/
def hex (v : U32) : String :=
  let digits := String.ofList (Nat.toDigits 16 v.toNat)
  "0x" ++ String.join (List.replicate (8 - digits.length) "0") ++ digits

/-- The text of a mismatch. -/
def Mismatch.why (a b : CommitEvent) : Mismatch → String
  | .pc => "pc mismatch ref=" ++ hex a.pc ++ " dut=" ++ hex b.pc
  | .exception => "exception flag mismatch"
  | .cause =>
      "exception cause mismatch ref=" ++ toString a.cause.toNat ++ " dut=" ++
        toString b.cause.toNat
  | .inst => "inst mismatch ref=" ++ hex a.inst ++ " dut=" ++ hex b.inst
  | .rd => "rd mismatch ref=" ++ toString a.rd.toNat ++ " dut=" ++ toString b.rd.toNat
  | .rdValue =>
      "rd_value mismatch rd=" ++ toString a.rd.toNat ++ " ref=" ++ hex a.rdValue ++ " dut=" ++
        hex b.rdValue
  | .nextPc => "next_pc mismatch ref=" ++ hex a.nextPc ++ " dut=" ++ hex b.nextPc

/-- The event that `RtlISS::step_inst` builds from the commit interface. -/
def RtlIss.commitEvent (s : RtlIss) : CommitEvent where
  cycle := s.cycle
  pc := s.top.pipeline.commitPc
  inst := s.top.pipeline.commitInst
  rd := s.top.pipeline.commitRd.setWidth 32
  rdValue := s.top.pipeline.commitRdValue
  exception := s.top.pipeline.commitException
  cause := s.top.pipeline.commitCause
  nextPc := s.top.pipeline.commitNextPc

/-- The loop of `RtlISS::step_inst` with `n` cycles to go. -/
def RtlIss.stepLoop : Nat → RtlIss → Option CommitEvent × RtlIss
  | 0, s => (none, s)
  | n + 1, s =>
      let s := s.toggleClock
      if s.top.pipeline.commitValid then (some s.commitEvent, s) else stepLoop n s

/-- `RtlISS::step_inst`: it gives up when more than `commit_timeout_cycles` went by. -/
def RtlIss.stepInst (s : RtlIss) : Option CommitEvent × RtlIss :=
  stepLoop (s.memory.cfg.commitTimeoutCycles.toNat + 1) s

theorem eventsMatch_iff (a b : CommitEvent) : eventsMatch a b = true ↔
    a.pc = b.pc ∧ a.exception = b.exception ∧ a.nextPc = b.nextPc ∧
      (a.exception = true → a.cause = b.cause) ∧
      (a.exception = false → a.inst = b.inst ∧ a.rd = b.rd ∧
        (a.rd ≠ 0#32 → a.rdValue = b.rdValue)) := by
  unfold eventsMatch eventsMismatch
  split_ifs <;> simp_all

/-- Neither event, or two that match. -/
def EventsAgree : Option CommitEvent → Option CommitEvent → Prop :=
  Option.Rel fun a b => eventsMatch a b = true

instance : ∀ a b, Decidable (EventsAgree a b)
  | some a, some b =>
      decidable_of_iff (eventsMatch a b = true)
        ⟨fun agree => .some agree, fun | .some agree => agree⟩
  | none, none => isTrue .none
  | some _, none => isFalse fun agree => nomatch agree
  | none, some _ => isFalse fun agree => nomatch agree

end NpcMachine.Emulator
