/-
# Emulator.UartTrigger -- `run until uart`

The trigger asks whether the output has grown and then looks for the string in all of it.
An occurrence in the output before the command stops the run at the next byte
(`uartStop_iff`).
-/
import NpcMachine.Emulator.RunLoop
import NpcMachine.Emulator.Outcome

namespace NpcMachine.Emulator

open Machine

set_option autoImplicit false

/-! ## The output of a run -/

namespace EmulatorIss

variable {s : EmulatorIss}

/-- The output grows by at most one byte. -/
def Grows (before after : List (BitVec 8)) : Prop := after = before ∨ ∃ b, after = before ++ [b]

theorem loadMem_output (addr size : U32) :
    (s.loadMem addr size).2.2.uart.output = s.uart.output := by
  unfold loadMem
  split_ifs
  · rfl
  · split <;> rfl
  · unfold Uart.load
    split_ifs
    · rfl
    · cases s.uart.input <;> rfl
  · rfl

theorem storeMem_output (addr size data : U32) :
    Grows s.uart.output (s.storeMem addr size data).2.uart.output := by
  unfold storeMem
  split_ifs
  · exact Or.inl rfl
  · split <;> exact Or.inl rfl
  · unfold Uart.store
    split_ifs
    · exact Or.inl rfl
    · exact Or.inr ⟨_, rfl⟩
  · exact Or.inl rfl

theorem Moved.output {d : DecodedInst} {moved : EmulatorIss} (moves : Moved s d moved) :
    Grows s.uart.output moved.uart.output := by
  cases moves with
  | nothing => exact Or.inl rfl
  | csr hart => exact Or.inl rfl
  | load addr => exact Or.inl (loadMem_output addr _)
  | store checked type => exact storeMem_output _ _ _

theorem Outcome.output {d : DecodedInst} {out : EmulatorIss × CommitEvent}
    (outcome : Outcome s d out) : Grows s.uart.output out.1.uart.output := by
  cases outcome with
  | trap cause => exact Or.inl rfl
  | halt => exact Or.inl rfl
  | retire moved rd value next moves on => exact moves.output

theorem stepBody_output (s : EmulatorIss) : Grows s.uart.output s.stepBody.1.uart.output := by
  have ways := s.stepBody_cases
  generalize s.stepBody = out at ways ⊢
  cases ways with
  | fetch inst cause => exact Or.inl rfl
  | execute outcome => exact outcome.output

theorem run_output (k : Nat) : Grows (s.run k).uart.output (s.run (k + 1)).uart.output := by
  rw [run_succ, stepInst_live]
  split_ifs
  · exact Or.inl rfl
  · exact stepBody_output (s.run k)

theorem run_output_prefix (k : Nat) : s.uart.output <+: (s.run k).uart.output := by
  induction k with
  | zero => exact List.prefix_rfl
  | succ k ih =>
      rcases s.run_output k with same | ⟨b, more⟩
      · rw [same]
        exact ih
      · rw [more]
        exact ih.trans (List.prefix_append _ _)

theorem run_output_length_le {k m : Nat} (le : k ≤ m) :
    (s.run k).uart.output.length ≤ (s.run m).uart.output.length := by
  induction m, le using Nat.le_induction with
  | base => exact le_rfl
  | succ m le ih =>
      rcases s.run_output m with same | ⟨b, more⟩
      · rw [same]
        exact ih
      · rw [more, List.length_append]
        omega

end EmulatorIss

/-! ## Occurrences -/

/-- `target` occurs in `out` and ends beyond the output `before`. -/
def OccursBeyond (target before out : Str) : Prop :=
  ∃ front back, out = front ++ target ++ back ∧ before.length < front.length + target.length

section Occurrences

variable {target before out : Str}

theorem checkUartTrigger_iff (out before target : Str) :
    checkUartTrigger out before target = true ↔ before.length < out.length ∧ target <:+: out := by
  unfold checkUartTrigger
  split_ifs with short
  · exact iff_of_false not_false fun both => by omega
  · rw [decide_eq_true_eq]
    exact ⟨fun occurs => ⟨by omega, occurs⟩, fun both => both.2⟩

theorem OccursBeyond.triggers (beyond : OccursBeyond target before out) :
    checkUartTrigger out before target = true := by
  obtain ⟨front, back, rfl, long⟩ := beyond
  rw [checkUartTrigger_iff]
  refine ⟨?_, front, back, rfl⟩
  rw [List.length_append, List.length_append]
  omega

/-- An occurrence that does not end beyond the old output lies in it. -/
theorem occursBeyond_of_new (grown : before <+: out) (new : ¬ target <:+: before)
    (occurs : target <:+: out) : OccursBeyond target before out := by
  obtain ⟨front, back, parts⟩ := occurs
  refine ⟨front, back, parts.symm, ?_⟩
  by_contra inside
  apply new
  obtain ⟨rest, rfl⟩ := grown
  have ends : front ++ target <+: before :=
    List.prefix_of_prefix_length_le ⟨back, parts⟩ (List.prefix_append before rest) (by
      rw [List.length_append]
      omega)
  obtain ⟨gap, same⟩ := ends
  exact ⟨front, gap, same⟩

theorem occursBeyond_of_suffix (grown : before.length < out.length) (ends : target <:+ out) :
    OccursBeyond target before out := by
  obtain ⟨front, parts⟩ := ends
  refine ⟨front, [], by rw [parts, List.append_nil], ?_⟩
  rwa [← List.length_append, parts]

/-- Where one byte has come, an occurrence beyond the old output ends with it. -/
theorem suffix_of_occursBeyond {b : BitVec 8} (beyond : OccursBeyond target before (before ++ [b])) :
    target <:+ before ++ [b] := by
  obtain ⟨front, back, parts, long⟩ := beyond
  have length := congrArg List.length parts
  simp only [List.length_append, List.length_singleton] at length
  have none : back = [] := List.eq_nil_of_length_eq_zero (by omega)
  rw [none, List.append_nil] at parts
  exact ⟨front, parts.symm⟩

end Occurrences

/-! ## The loop -/

namespace Shell

variable (sh : Shell) (target : Str)

/-- The condition of `run until uart`. -/
def uartCondition : RunCondition :=
  { stopUart := true, targetUart := target, uartSeenBefore := sh.iss.uart.output }

/-- The loop of `run until uart`. -/
def runUntilUart (fuel : Nat) : LoopOut :=
  runLoop sh.limits sh.breakpoints (sh.uartCondition target) fuel { iss := sh.iss }

/-- The command makes that loop. -/
theorem runTokens_untilUart (fuel : Nat) :
    sh.runTokens fuel [str "run", str "until", str "uart", target] =
      sh.ofLoop ((sh.runUntilUart target fuel).stopText sh.limits (sh.uartCondition target) ++
        str "ran " ++ dec (sh.runUntilUart target fuel).last.count.toNat ++ str " instructions" ++
        newline) (sh.runUntilUart target fuel) := rfl

/-- The command stops for the output, after `n` retirements. -/
def StopsAfter (n : Nat) : Prop := ∃ fuel, (sh.runUntilUart target fuel).reason = some .uart ∧
  (sh.runUntilUart target fuel).events.length = n

/-- The `n`-th retirement is the first after which the string occurs beyond the output that
was there. -/
def FirstBeyond (n : Nat) : Prop :=
  0 < n ∧ (∀ k, k < n → (sh.iss.run k).hart.halted = false) ∧
    OccursBeyond target sh.iss.uart.output (sh.iss.run n).uart.output ∧
    ∀ m, 0 < m → m < n → ¬ OccursBeyond target sh.iss.uart.output (sh.iss.run m).uart.output

/-- The `n`-th retirement is the first that puts out a byte. -/
def FirstOutput (n : Nat) : Prop :=
  0 < n ∧ (∀ k, k < n → (sh.iss.run k).hart.halted = false) ∧
    sh.iss.uart.output.length < (sh.iss.run n).uart.output.length ∧
    ∀ m, m < n → (sh.iss.run m).uart.output = sh.iss.uart.output

variable {sh target}

/-- The first retirement after which the trigger fires. -/
def FirstTrigger (before target : Str) (s : EmulatorIss) (n : Nat) : Prop :=
  0 < n ∧ (∀ k, k < n → (s.run k).hart.halted = false) ∧
    checkUartTrigger (s.run n).uart.output before target = true ∧
    ∀ m, 0 < m → m < n → checkUartTrigger (s.run m).uart.output before target = false

theorem stop_uart (before target : Str) (st : LoopState) :
    st.stop {} [] { stopUart := true, targetUart := target, uartSeenBefore := before } =
      if checkUartTrigger st.iss.uart.output before target = true then some .uart else none := by
  simp [LoopState.stop]

/-- Without other conditions the loop is left for the trigger at the first one. -/
theorem firstTrigger_iff (before target : Str) (s : EmulatorIss) (n : Nat) :
    FirstAt (LoopState.leave {} [] { stopUart := true, targetUart := target, uartSeenBefore := before }
      { iss := s }) .uart n ↔ FirstTrigger before target s n := by
  have leave (k : Nat) : LoopState.leave {} []
      { stopUart := true, targetUart := target, uartSeenBefore := before } { iss := s } k =
      if 0 < k ∧ checkUartTrigger (s.run k).uart.output before target = true then some .uart
      else if (s.run k).hart.halted then some .refused else none := by
    rw [LoopState.leave, stop_uart, LoopState.after_iss]
    cases k with
    | zero => rfl
    | succ k =>
        simp only [Nat.succ_ne_zero, if_false, Nat.succ_pos, true_and]
        split_ifs <;> rfl
  unfold FirstAt FirstTrigger
  simp only [leave]
  constructor
  · rintro ⟨fires, quiet⟩
    have now : 0 < n ∧ checkUartTrigger (s.run n).uart.output before target = true := by
      by_contra other
      rw [if_neg other] at fires
      split_ifs at fires
      cases fires
    refine ⟨now.1, fun k below => ?_, now.2, fun m low high => ?_⟩
    · have silent := quiet k below
      split_ifs at silent with early halted
      exact Bool.eq_false_iff.mpr halted
    · have silent := quiet m high
      split_ifs at silent with early halted
      exact Bool.eq_false_iff.mpr fun fires => early ⟨low, fires⟩
  · rintro ⟨pos, live, hit, first⟩
    refine ⟨if_pos ⟨pos, hit⟩, fun k below => ?_⟩
    rw [if_neg, if_neg (Bool.eq_false_iff.mp (live k below))]
    rintro ⟨low, fires⟩
    rw [first k low below] at fires
    cases fires

/-- With no other stop condition the command stops at the first trigger. -/
theorem stopsAfter_iff (limits : sh.limits = {}) (breakpoints : sh.breakpoints = []) (n : Nat) :
    sh.StopsAfter target n ↔ FirstTrigger sh.iss.uart.output target sh.iss n := by
  unfold StopsAfter runUntilUart uartCondition
  rw [limits, breakpoints]
  simp only [runLoop_left_iff, firstTrigger_iff]
  exact ⟨fun ⟨_, _, fired⟩ => fired, fun fired => ⟨n, le_rfl, fired⟩⟩

/-! ## When the command stops where it should -/

theorem run_trigger_of_old {n : Nat} (old : target <:+: sh.iss.uart.output)
    (grown : sh.iss.uart.output.length < (sh.iss.run n).uart.output.length) :
    checkUartTrigger (sh.iss.run n).uart.output sh.iss.uart.output target = true :=
  (checkUartTrigger_iff _ _ _).mpr ⟨grown, old.trans (EmulatorIss.run_output_prefix n).isInfix⟩

/-- Up to the first trigger for a string that was there no byte is put out. -/
theorem FirstTrigger.quiet {n : Nat} (old : target <:+: sh.iss.uart.output)
    (fired : FirstTrigger sh.iss.uart.output target sh.iss n) : sh.FirstOutput n := by
  obtain ⟨pos, live, hit, first⟩ := fired
  refine ⟨pos, live, ((checkUartTrigger_iff _ _ _).mp hit).1, fun m below => ?_⟩
  by_cases zero : m = 0
  · rw [zero]
    rfl
  · by_contra other
    have grown := EmulatorIss.run_output_prefix (s := sh.iss) m
    have longer : sh.iss.uart.output.length < (sh.iss.run m).uart.output.length := by
      by_contra short
      exact other (grown.eq_of_length_le (Nat.not_lt.mp short)).symm
    have silent := first m (by omega) below
    rw [run_trigger_of_old old longer] at silent
    cases silent

/-- A byte that is put out comes after a first one. -/
theorem exists_firstOutput {m : Nat} (live : ∀ k, k < m → (sh.iss.run k).hart.halted = false)
    (grown : sh.iss.uart.output.length < (sh.iss.run m).uart.output.length) :
    ∃ n, n ≤ m ∧ sh.FirstOutput n := by
  induction m with
  | zero => exact absurd grown (Nat.lt_irrefl _)
  | succ m ih =>
      by_cases earlier : sh.iss.uart.output.length < (sh.iss.run m).uart.output.length
      · obtain ⟨n, below, first⟩ := ih (fun k less => live k (by omega)) earlier
        exact ⟨n, by omega, first⟩
      · refine ⟨m + 1, le_rfl, Nat.succ_pos m, live, grown, fun k less => ?_⟩
        by_contra other
        apply other
        have short := EmulatorIss.run_output_length_le (s := sh.iss) (Nat.lt_succ_iff.mp less)
        exact ((EmulatorIss.run_output_prefix k).eq_of_length_le (by omega)).symm

/-- The first byte that is put out completes the string exactly when the string ends with it. -/
theorem FirstOutput.beyond_iff {n : Nat} (first : sh.FirstOutput n) :
    OccursBeyond target sh.iss.uart.output (sh.iss.run n).uart.output ↔
      target <:+ (sh.iss.run n).uart.output := by
  obtain ⟨pos, -, grown, quiet⟩ := first
  constructor
  · intro beyond
    obtain ⟨k, rfl⟩ := Nat.exists_eq_succ_of_ne_zero (by omega : n ≠ 0)
    rcases EmulatorIss.run_output (s := sh.iss) k with same | ⟨b, more⟩
    · rw [Nat.succ_eq_add_one, same, quiet k (Nat.lt_succ_self k)] at grown
      omega
    · rw [quiet k (Nat.lt_succ_self k)] at more
      rw [Nat.succ_eq_add_one, more] at beyond ⊢
      exact suffix_of_occursBeyond beyond
  · exact occursBeyond_of_suffix grown

/-- `run until uart` stops at the first retirement after which the string occurs beyond the
old output, and nowhere else, exactly when the old output does not contain the string or
the first byte that the run puts out completes one more. -/
theorem uartStop_iff (sh : Shell) (target : Str) (limits : sh.limits = {})
    (breakpoints : sh.breakpoints = []) :
    (∀ n, sh.StopsAfter target n ↔ sh.FirstBeyond target n) ↔
      (¬ target <:+: sh.iss.uart.output ∨
        ∀ n, sh.FirstOutput n → target <:+ (sh.iss.run n).uart.output) := by
  simp only [stopsAfter_iff limits breakpoints]
  by_cases old : target <:+: sh.iss.uart.output
  · rw [or_iff_right (not_not.mpr old)]
    constructor
    · intro right n first
      have fired : FirstTrigger sh.iss.uart.output target sh.iss n := by
        refine ⟨first.1, first.2.1, run_trigger_of_old old first.2.2.1, fun m low high => ?_⟩
        rw [Bool.eq_false_iff, ne_eq, checkUartTrigger_iff, first.2.2.2 m high]
        exact fun grown => Nat.lt_irrefl _ grown.1
      exact first.beyond_iff.mp ((right n).mp fired).2.2.1
    · intro completes n
      constructor
      · intro fired
        have first := FirstTrigger.quiet old fired
        refine ⟨fired.1, fired.2.1, first.beyond_iff.mpr (completes n first), fun m low high beyond => ?_⟩
        have silent := fired.2.2.2 m low high
        rw [beyond.triggers] at silent
        cases silent
      · rintro ⟨pos, live, beyond, earliest⟩
        refine ⟨pos, live, beyond.triggers, fun m low high => ?_⟩
        rw [Bool.eq_false_iff]
        intro fires
        -- an earlier trigger means an earlier byte, and the first byte completes the string
        obtain ⟨k, below, first⟩ := exists_firstOutput (fun k less => live k (by omega))
          ((checkUartTrigger_iff _ _ _).mp fires).1
        exact earliest k first.1 (by omega) (first.beyond_iff.mpr (completes k first))
  · rw [iff_true_intro (Or.inl old : ¬ target <:+: sh.iss.uart.output ∨ _), iff_true]
    intro n
    have same (k : Nat) : checkUartTrigger (sh.iss.run k).uart.output sh.iss.uart.output target = true ↔
        OccursBeyond target sh.iss.uart.output (sh.iss.run k).uart.output :=
      ⟨fun fires => occursBeyond_of_new (EmulatorIss.run_output_prefix k) old
        ((checkUartTrigger_iff _ _ _).mp fires).2, OccursBeyond.triggers⟩
    unfold FirstTrigger FirstBeyond
    simp only [← same, Bool.not_eq_true]

/-- A model that puts out `OK` with its third and its fifth instruction, when `NO` is put out. -/
def okWriter : Shell :=
  Shell.fresh { EmulatorIss.create {} with
    memory := Memory.ofWords [0x100000B7#32, 0x04F00113#32, 0x00208023#32, 0x04B00113#32, 0x00208023#32]
    uart := ⟨[], str "NO"⟩ }

set_option maxRecDepth 4000 in
/-- `run until uart OK` stops at its `K`. -/
theorem uartStop_okWriter : okWriter.StopsAfter (str "OK") 5 ∧
    ∀ n, okWriter.StopsAfter (str "OK") n ↔ okWriter.FirstBeyond (str "OK") n :=
  ⟨⟨5, by decide, by decide⟩, (uartStop_iff okWriter (str "OK") rfl rfl).mpr (Or.inl (by decide))⟩

/-- A model that puts out a zero byte with its second instruction, when `out` is put out. -/
def zeroWriter (out : Str) : Shell :=
  Shell.fresh { EmulatorIss.create {} with
    memory := Memory.ofWords [0x100000B7#32, 0x00008023#32]
    uart := ⟨[], out⟩ }

set_option maxRecDepth 4000 in
/-- `run until uart OK` stops at the zero byte when `OK` was put out before. -/
theorem zeroWriter_stops : ¬ ∀ (sh : Shell) (target : Str), sh.limits = {} → sh.breakpoints = [] →
    target ≠ [] → ∀ n, sh.StopsAfter target n ↔ sh.FirstBeyond target n := by
  intro all
  have stops : (zeroWriter (str "OK")).StopsAfter (str "OK") 2 := ⟨2, by decide, by decide⟩
  obtain ⟨-, -, beyond, -⟩ := (all _ _ rfl rfl (by decide) 2).mp stops
  have out : ((zeroWriter (str "OK")).iss.run 2).uart.output = str "OK" ++ [0#8] := by decide
  have before : (zeroWriter (str "OK")).iss.uart.output = str "OK" := rfl
  rw [out, before] at beyond
  exact absurd (suffix_of_occursBeyond beyond) (by decide)

end Shell

end NpcMachine.Emulator
