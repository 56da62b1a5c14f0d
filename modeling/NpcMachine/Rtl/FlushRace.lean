/-
# Rtl.FlushRace -- a flush against the end of a fill

The flush and the last word of a fill write the same valid bit, and the fill wins; a
flush in the middle of a fill is not remembered at all.  So a line may be installed that
was partly read before the flush.  `flushFresh_iff`: this is the only way in which a
response behind a flush can be older than the flush, and it happens unless every fill
that a flush crosses reports a fault.
-/
import NpcMachine.Rtl.FillSide

namespace NpcMachine.Rtl

set_option autoImplicit false

namespace Icache

/-! ## The installed line -/

/-- After the edge the line of the miss is valid. -/
def InstallsMiss (c : Icache) (i : IcacheIn) : Prop :=
  c.state = .data ∧ ((c.next i).line c.missIndex).valid = true ∧
    ((c.next i).line c.missIndex).tag = c.missTag

/-- The line of a miss is not in the cache until its fill ends. -/
def MissAbsent (c : Icache) : Prop :=
  c.state ≠ .idle → (c.line c.missIndex).valid = true → (c.line c.missIndex).tag ≠ c.missTag

theorem flushed_line (c : Icache) (i : IcacheIn) (index : BitVec 1) :
    ((c.flushed i).line index).tag = (c.line index).tag ∧
      (((c.flushed i).line index).valid = true → (c.line index).valid = true) := by
  unfold flushed
  cases i.flush with
  | false => exact ⟨rfl, id⟩
  | true =>
      simp only [line, if_true]
      split_ifs <;> simp

theorem Agrees.line {a b : Icache} (same : a.Agrees b) (index : BitVec 1) :
    a.line index = b.line index := by
  rw [Icache.line, Icache.line, same.line0, same.line1]

theorem missAbsent_reset : reset.MissAbsent := fun busy => absurd rfl busy

/-- The lines of an edge that only flushes keep a miss absent. -/
theorem MissAbsent.flushed {c d : Icache} {i : IcacheIn} (absent : c.MissAbsent)
    (busy : c.state ≠ .idle) (lines : ∀ index, d.line index = (c.flushed i).line index)
    (index : d.missIndex = c.missIndex) (tag : d.missTag = c.missTag) : d.MissAbsent := by
  intro _ valid
  rw [lines, index] at valid ⊢
  rw [tag, (flushed_line c i _).1]
  exact absent busy ((flushed_line c i _).2 valid)

theorem MissAbsent.next {c : Icache} (absent : c.MissAbsent) (i : IcacheIn) :
    (c.next i).MissAbsent := by
  cases step_cases c i with
  | rest idle _ next =>
      intro busy
      rw [next.state, flushed_state] at busy
      exact absurd idle busy
  | miss idle _ misses next =>
      intro _ valid
      have index : (c.next i).missIndex = lookupIndex i.lookupAddr := next.missIndex
      have tag : (c.next i).missTag = lookupTag i.lookupAddr := next.missTag
      have line : ∀ k, (c.next i).line k = (c.flushed i).line k := next.line
      rw [line, index] at valid ⊢
      rw [tag, (flushed_line c i _).1]
      have held := (flushed_line c i _).2 valid
      simp only [Icache.miss, Icache.hit, Bool.and_eq_true, Bool.not_eq_true'] at misses
      obtain ⟨⟨⟨asks, aligned⟩, free⟩, noHit⟩ := misses
      simpa [asks, aligned, free, held] using noHit
  | ask req next =>
      refine absent.flushed (i := i) (by rw [req]; simp) next.line ?_ ?_
      · rw [next.missIndex]; exact flushed_missIndex c i
      · rw [next.missTag]; exact flushed_missTag c i
  | pause data _ next =>
      refine absent.flushed (i := i) (by rw [data]; simp) next.line ?_ ?_
      · rw [next.missIndex]; exact flushed_missIndex c i
      · rw [next.missTag]; exact flushed_missTag c i
  | beat data _ _ next =>
      refine absent.flushed (i := i) (by rw [data]; simp) next.line ?_ ?_
      · rw [next.missIndex]; exact flushed_missIndex c i
      · rw [next.missTag]; exact flushed_missTag c i
  | fail _ _ _ _ next =>
      intro busy
      rw [next.state] at busy
      exact absurd rfl busy
  | install _ _ _ _ next =>
      intro busy
      rw [next.state, installed_state] at busy
      exact absurd rfl busy

theorem missAbsent_run (ins : Nat → IcacheIn) (n : Nat) : (run ins n).MissAbsent := by
  induction n with
  | zero => exact missAbsent_reset
  | succ n absent => exact absent.next (ins n)

theorem installed_line (c : Icache) (i : IcacheIn) :
    (c.installed i).line c.missIndex = c.filledLine i := by
  unfold installed line
  rcases index_cases c.missIndex with zero | one
  · rw [zero]; rfl
  · rw [one]; rfl

/-- A line is installed by the last word of a fill without a fault, flush or not. -/
theorem installsMiss_iff {c : Icache} {i : IcacheIn} (absent : c.MissAbsent) :
    InstallsMiss c i ↔ c.state = .data ∧ i.fillRespValid = true ∧ i.fillRespLast = true ∧
      c.fillDoneFault i = false := by
  have not_flushed : c.state = .data →
      (∀ index, (c.next i).line index = (c.flushed i).line index) → ¬ InstallsMiss c i := by
    rintro data lines ⟨-, valid, tag⟩
    rw [lines] at valid tag
    rw [(flushed_line c i _).1] at tag
    exact absent (by rw [data]; simp) ((flushed_line c i _).2 valid) tag
  have not_data : c.state ≠ .data → (InstallsMiss c i ↔ c.state = .data ∧
      i.fillRespValid = true ∧ i.fillRespLast = true ∧ c.fillDoneFault i = false) :=
    fun other => iff_of_false (fun installs => other installs.1) fun fill => other fill.1
  cases step_cases c i with
  | rest idle => exact not_data (by rw [idle]; simp)
  | miss idle => exact not_data (by rw [idle]; simp)
  | ask req => exact not_data (by rw [req]; simp)
  | pause data noBeat next =>
      refine iff_of_false (not_flushed data next.line) ?_
      rintro ⟨-, beats, -⟩
      rw [noBeat] at beats
      contradiction
  | beat data _ more next =>
      refine iff_of_false (not_flushed data next.line) ?_
      rintro ⟨-, -, last, -⟩
      rw [more] at last
      contradiction
  | fail data _ _ bad next =>
      refine iff_of_false (not_flushed data next.line) ?_
      rintro ⟨-, -, -, good⟩
      rw [bad] at good
      contradiction
  | install data beats last good next =>
      refine iff_of_true ⟨data, ?_, ?_⟩ ⟨data, beats, last, good⟩
      · rw [next.line, installed_line]; rfl
      · rw [next.line, installed_line]; rfl

/-! ## The property and the condition -/

/-- Cycles `a` to `g` belong to one fill. -/
def FillSpans (ins : Nat → IcacheIn) (a g : Nat) : Prop :=
  ∀ k, a ≤ k → k ≤ g → (run ins k).state = .data

/-- Behind a flush only words read since then are given out, and no line is installed that
has a word from before it. -/
structure FlushFresh (mem : Nat → Word → Word) (ins : Nat → IcacheIn) : Prop where
  response : ∀ f m, f < m → (ins f).flush = true → Responds (run ins m) (ins m) →
    ∃ r, f ≤ r ∧ r < m ∧ (run ins m).respInst (ins m) = mem r (ins m).lookupAddr
  line : ∀ a f g, a < f → f ≤ g → FillSpans ins a g → (ins a).fillRespValid = true →
    (ins f).flush = true → ¬ InstallsMiss (run ins g) (ins g)

/-- A fill that a flush crosses behind its first word reports a fault. -/
def CrossedFail (ins : Nat → IcacheIn) : Prop :=
  ∀ n, ∀ b ∈ owed ins n, (ins n).fillRespValid = true → (ins n).fillRespLast = true →
    b.crosses (ins n) = true → b.fails (ins n) = true

/-! ## The history of a burst -/

section History

variable {mem : Nat → Word → Word} {ins : Nat → IcacheIn} {n : Nat} {b : FillBurst}

/-- What a burst that goes on was one cycle before. -/
theorem owed_succ (owes : owed ins (n + 1) = some b) :
    (owed ins n = none ∧ b.sent = 0 ∧ b.crossed = false) ∨
      ∃ a, owed ins n = some a ∧ b.crossed = a.crosses (ins n) ∧
        b.sent = if (ins n).fillRespValid then a.sent + 1 else a.sent := by
  have step : owed ins (n + 1) = FillBurst.next (owed ins n) (run ins n) (ins n) := rfl
  rw [step] at owes
  cases before : owed ins n with
  | none =>
      rw [before, FillBurst.next] at owes
      split_ifs at owes
      cases owes
      exact Or.inl ⟨rfl, rfl, rfl⟩
  | some a =>
      rw [before, FillBurst.next] at owes
      split_ifs at owes with beats last
      · cases owes
        exact Or.inr ⟨a, rfl, rfl, by rw [if_pos beats]⟩
      · cases owes
        exact Or.inr ⟨a, rfl, rfl, by rw [if_neg beats]⟩

theorem fillSpans_succ {a : Nat} (spans : FillSpans ins a n)
    (data : (run ins (n + 1)).state = .data) : FillSpans ins a (n + 1) := by
  intro k after before
  rcases Nat.lt_succ_iff_lt_or_eq.mp (Nat.lt_succ_of_le before) with early | rfl
  · exact spans k after (Nat.le_of_lt_succ early)
  · exact data

theorem fillSpans_self (data : (run ins n).state = .data) : FillSpans ins n n := by
  intro k after before
  rw [Nat.le_antisymm before after]
  exact data

theorem data_of_owed (serves : Serves mem ins) (owes : owed ins n = some b) :
    (run ins n).state = .data := by
  refine (bursting_run serves n).data.mpr ?_
  rw [owes]
  rfl

/-- A word that was sent was sent in an earlier cycle of the fill. -/
theorem sent_since (serves : Serves mem ins) (owes : owed ins n = some b) (sent : 0 < b.sent) :
    ∃ a, a < n ∧ FillSpans ins a n ∧ (ins a).fillRespValid = true := by
  induction n generalizing b with
  | zero => cases owes
  | succ n ih =>
      have now := data_of_owed serves owes
      rcases owed_succ owes with ⟨-, none, -⟩ | ⟨a, before, -, words⟩
      · omega
      · have data := data_of_owed serves before
        cases beats : (ins n).fillRespValid with
        | true => exact ⟨n, Nat.lt_succ_self n, fillSpans_succ (fillSpans_self data) now, beats⟩
        | false =>
            rw [beats] at words
            obtain ⟨k, early, spans, beat⟩ := ih before (by simpa [words] using sent)
            exact ⟨k, Nat.lt_succ_of_lt early, fillSpans_succ spans now, beat⟩

/-- A crossed burst was crossed in an earlier cycle of the fill, behind a word. -/
theorem crossed_since (serves : Serves mem ins) (owes : owed ins n = some b)
    (crossed : b.crossed = true) :
    ∃ a f, a < f ∧ f < n ∧ FillSpans ins a n ∧ (ins a).fillRespValid = true ∧
      (ins f).flush = true := by
  induction n generalizing b with
  | zero => cases owes
  | succ n ih =>
      have now := data_of_owed serves owes
      rcases owed_succ owes with ⟨-, -, none⟩ | ⟨a, before, same, -⟩
      · rw [none] at crossed
        contradiction
      · rw [same, FillBurst.crosses, Bool.or_eq_true, Bool.and_eq_true, decide_eq_true_iff]
          at crossed
        rcases crossed with old | ⟨flush, sent⟩
        · obtain ⟨k, f, after, early, spans, beat, flush⟩ := ih before old
          exact ⟨k, f, after, Nat.lt_succ_of_lt early, fillSpans_succ spans now, beat, flush⟩
        · obtain ⟨k, early, spans, beat⟩ := sent_since serves before sent
          exact ⟨k, n, early, Nat.lt_succ_self n, fillSpans_succ spans now, beat, flush⟩

/-- A word sent in a fill stays sent until the fill ends. -/
theorem sent_after (serves : Serves mem ins) {a k : Nat} (beat : (ins a).fillRespValid = true)
    (after : a < k) (spans : FillSpans ins a k) : ∃ b, owed ins k = some b ∧ 0 < b.sent := by
  induction k, after using Nat.le_induction with
  | base =>
      obtain ⟨b, owes⟩ := (bursting_run serves (a + 1)).some_of_data
        (spans (a + 1) (Nat.le_succ a) (Nat.le_refl _))
      refine ⟨b, owes, ?_⟩
      obtain ⟨b', owes'⟩ := (bursting_run serves a).some_of_data
        (spans a (Nat.le_refl a) (Nat.le_succ a))
      rcases owed_succ owes with ⟨none, -, -⟩ | ⟨_, -, -, words⟩
      · rw [owes'] at none
        contradiction
      · rw [words, if_pos beat]
        exact Nat.succ_pos _
  | succ k after ih =>
      obtain ⟨b, owes⟩ := (bursting_run serves (k + 1)).some_of_data
        (spans (k + 1) (Nat.le_succ_of_le (Nat.le_of_lt after)) (Nat.le_refl _))
      obtain ⟨b', owes', sent⟩ := ih fun j late early => spans j late (Nat.le_succ_of_le early)
      refine ⟨b, owes, ?_⟩
      rcases owed_succ owes with ⟨none, -, -⟩ | ⟨c, before, -, words⟩
      · rw [owes'] at none
        contradiction
      · rw [owes'] at before
        cases before
        rw [words]
        split_ifs <;> omega

/-- A flush behind a word crosses the fill, from its own cycle on. -/
theorem crosses_after (serves : Serves mem ins) {a f g : Nat}
    (beat : (ins a).fillRespValid = true) (flush : (ins f).flush = true) (behind : a < f)
    (after : f ≤ g) (spans : FillSpans ins a g) :
    ∃ b, owed ins g = some b ∧ b.crosses (ins g) = true := by
  induction g, after using Nat.le_induction with
  | base =>
      obtain ⟨b, owes, sent⟩ := sent_after serves beat behind spans
      exact ⟨b, owes, by simp [FillBurst.crosses, flush, sent]⟩
  | succ g after ih =>
      have late : a < g + 1 := Nat.lt_succ_of_lt (Nat.lt_of_lt_of_le behind after)
      obtain ⟨b, owes, -⟩ := sent_after serves beat late spans
      obtain ⟨b', owes', crosses⟩ := ih fun j late early => spans j late (Nat.le_succ_of_le early)
      refine ⟨b, owes, ?_⟩
      rcases owed_succ owes with ⟨none, -, -⟩ | ⟨c, before, same, -⟩
      · rw [owes'] at none
        contradiction
      · rw [owes'] at before
        cases before
        rw [FillBurst.crosses, same, crosses]
        rfl

end History

/-! ## Fresh words -/

/-- Read at its address before cycle `n`, and since the last flush. -/
def Fresh (mem : Nat → Word → Word) (ins : Nat → IcacheIn) (n : Nat) (addr word : Word) : Prop :=
  ∃ r, r < n ∧ (∀ f, f < n → (ins f).flush = true → f ≤ r) ∧ word = mem r addr

section Fresh

variable {mem : Nat → Word → Word} {ins : Nat → IcacheIn} {n : Nat}

theorem fresh_now (addr : Word) : Fresh mem ins (n + 1) addr (mem n addr) :=
  ⟨n, Nat.lt_succ_self n, fun _ before _ => Nat.le_of_lt_succ before, rfl⟩

theorem Fresh.later {addr word : Word} (fresh : Fresh mem ins n addr word)
    (noFlush : (ins n).flush = false) : Fresh mem ins (n + 1) addr word := by
  obtain ⟨r, before, since, same⟩ := fresh
  refine ⟨r, Nat.lt_succ_of_lt before, fun f early flush => ?_, same⟩
  rcases Nat.lt_succ_iff_lt_or_eq.mp early with less | rfl
  · exact since f less flush
  · rw [noFlush] at flush
    contradiction

/-- The lines are fresh, and so is the buffer of a fill that no flush has crossed. -/
structure FreshCache (mem : Nat → Word → Word) (ins : Nat → IcacheIn) (n : Nat) : Prop where
  line0 : (run ins n).line0.Holds 0#1 (Fresh mem ins n)
  line1 : (run ins n).line1.Holds 1#1 (Fresh mem ins n)
  buffer : ∀ b, owed ins n = some b → b.crossed = false →
    ∀ word, word.toNat < (run ins n).fillBeat.toNat →
      Fresh mem ins n (wordAddr (run ins n).missTag (run ins n).missIndex word)
        ((run ins n).fill.get word)

theorem freshCache_zero : FreshCache mem ins 0 where
  line0 := (reset_holds _).line0
  line1 := (reset_holds _).line1
  buffer _ owes := by cases owes

/-- The words of a burst with the one that arrives, when no flush crosses it. -/
theorem FreshCache.words (fresh : FreshCache mem ins n) (serves : Serves mem ins)
    {b : FillBurst} (owes : owed ins n = some b) (clean : b.crosses (ins n) = false)
    (beats : (ins n).fillRespValid = true) (word : BitVec 2)
    (received : word.toNat ≤ (run ins n).fillBeat.toNat) :
    Fresh mem ins (n + 1) (wordAddr (run ins n).missTag (run ins n).missIndex word)
      (((run ins n).fill.set (run ins n).fillBeat (ins n).fillRespData).get word) := by
  have data := data_of_owed serves owes
  simp only [FillBurst.crosses, Bool.or_eq_false_iff, Bool.and_eq_false_iff,
    decide_eq_false_iff_not] at clean
  obtain ⟨uncrossed, noFlush⟩ := clean
  rw [LineWords.get_set]
  split_ifs with now
  · rw [now, (word_arrives serves data beats).1]
    exact fresh_now _
  · have before : word.toNat < (run ins n).fillBeat.toNat := by
      have other : word.toNat ≠ (run ins n).fillBeat.toNat :=
        fun same => now (BitVec.eq_of_toNat_eq same)
      omega
    have sent : b.sent = (run ins n).fillBeat.toNat := (bursting_run serves n).sent b owes
    have quiet : (ins n).flush = false := noFlush.resolve_right (by omega)
    exact (fresh.buffer b owes uncrossed word before).later quiet

theorem FreshCache.next (fresh : FreshCache mem ins n) (serves : Serves mem ins)
    (crossed : CrossedFail ins) : FreshCache mem ins (n + 1) := by
  have wf := bursting_run serves n
  obtain ⟨flushed0, flushed1⟩ := flushed_holds fresh.line0 fresh.line1
    (fun noFlush _ _ read => Fresh.later read noFlush)
  obtain ⟨line0, line1⟩ := next_lines (i := ins n) flushed0 flushed1 (by
    intro data beats last good word
    obtain ⟨b, owes⟩ := wf.some_of_data data
    have clean : b.crosses (ins n) = false := by
      by_contra crosses
      have fails := crossed n b owes beats last (by simpa using crosses)
      rw [FillBurst.fails, wf.faulty b owes] at fails
      rw [fillDoneFault, fails] at good
      contradiction
    refine fresh.words serves owes clean beats word ?_
    have small := word.isLt
    rw [(word_arrives serves data beats).2.mp last]
    exact Nat.lt_succ_iff.mp small)
  refine ⟨line0, line1, ?_⟩
  intro b owes uncrossed word received
  have step : run ins (n + 1) = (run ins n).next (ins n) := rfl
  rw [step] at received ⊢
  cases step_cases (run ins n) (ins n) with
  | rest idle _ next =>
      have data := data_of_owed serves owes
      rw [step, next.state, flushed_state, idle] at data
      contradiction
  | miss _ _ _ next =>
      have data := data_of_owed serves owes
      rw [step, next.state] at data
      contradiction
  | ask req next =>
      have none : ((run ins n).next (ins n)).fillBeat = 0#2 := by
        rw [next.fillBeat]
        simpa using (wf.miss.fresh req).1
      rw [none] at received
      exact absurd received (Nat.not_lt_zero _)
  | pause data noBeat next =>
      rw [next.fillBeat, flushed_fillBeat] at received
      rw [next.missTag, next.missIndex, next.fill, flushed_missTag, flushed_missIndex,
        flushed_fill]
      rcases owed_succ owes with ⟨none, -, -⟩ | ⟨a, before, same, -⟩
      · obtain ⟨a, owes'⟩ := wf.some_of_data data
        rw [owes'] at none
        contradiction
      · rw [same] at uncrossed
        simp only [FillBurst.crosses, Bool.or_eq_false_iff, Bool.and_eq_false_iff,
          decide_eq_false_iff_not] at uncrossed
        have sent : a.sent = (run ins n).fillBeat.toNat := wf.sent a before
        exact (fresh.buffer a before uncrossed.1 word received).later
          (uncrossed.2.resolve_right (by omega))
  | beat data beats more next =>
      rw [next.fillBeat] at received
      rw [next.missTag, next.missIndex, next.fill]
      show Fresh mem ins (n + 1) (wordAddr ((run ins n).flushed (ins n)).missTag
        ((run ins n).flushed (ins n)).missIndex word) _
      rw [flushed_missTag, flushed_missIndex]
      rcases owed_succ owes with ⟨none, -, -⟩ | ⟨a, before, same, -⟩
      · obtain ⟨a, owes'⟩ := wf.some_of_data data
        rw [owes'] at none
        contradiction
      · rw [same] at uncrossed
        refine fresh.words serves before uncrossed beats word ?_
        have room : (run ins n).fillBeat.toNat ≠ 3 := by
          intro full
          have last := (word_arrives serves data beats).2.mpr (BitVec.eq_of_toNat_eq full)
          rw [more] at last
          contradiction
        have one : (1#2).toNat = 1 := rfl
        rw [BitVec.toNat_add, one] at received
        omega
  | fail _ _ _ _ next =>
      have data := data_of_owed serves owes
      rw [step, next.state] at data
      contradiction
  | install _ _ _ _ next =>
      have data := data_of_owed serves owes
      rw [step, next.state, installed_state] at data
      contradiction

theorem freshCache_run (serves : Serves mem ins) (crossed : CrossedFail ins) (n : Nat) :
    FreshCache mem ins n := by
  induction n with
  | zero => exact freshCache_zero
  | succ n fresh => exact fresh.next serves crossed

end Fresh

/-- Responses behind a flush are fresh exactly when every crossed fill fails. -/
theorem flushFresh_iff {mem : Nat → Word → Word} {ins : Nat → IcacheIn}
    (serves : Serves mem ins) : FlushFresh mem ins ↔ CrossedFail ins := by
  constructor
  · intro fresh n b owes beats last crosses
    by_contra good
    have wf := bursting_run serves n
    have data := data_of_owed serves owes
    have done : (run ins n).fillDoneFault (ins n) = false := by
      rw [fillDoneFault, ← wf.faulty b owes]
      simpa [FillBurst.fails] using good
    have installs : InstallsMiss (run ins n) (ins n) :=
      (installsMiss_iff (missAbsent_run ins n)).mpr ⟨data, beats, last, done⟩
    rw [FillBurst.crosses, Bool.or_eq_true, Bool.and_eq_true, decide_eq_true_iff] at crosses
    rcases crosses with old | ⟨flush, sent⟩
    · obtain ⟨a, f, after, early, spans, beat, flush⟩ := crossed_since serves owes old
      exact fresh.line a f n after (Nat.le_of_lt early) spans beat flush installs
    · obtain ⟨a, early, spans, beat⟩ := sent_since serves owes sent
      exact fresh.line a n n early (Nat.le_refl n) spans beat flush installs
  · intro crossed
    refine ⟨?_, ?_⟩
    · intro f m before flush responds
      have fresh := freshCache_run serves crossed m
      have held : (run ins m).Holds (Fresh mem ins m) → Fresh mem ins m (ins m).lookupAddr
          ((run ins m).respInst (ins m)) := fun holds => holds.hit responds.hit
      have idle : (run ins m).state = .idle := by
        have hits := responds.hit
        simp only [Icache.hit, Bool.and_eq_true, beq_iff_eq] at hits
        exact hits.1.1.2
      obtain ⟨r, early, since, same⟩ := held
        ⟨fresh.line0, fresh.line1, fun data => by rw [idle] at data; contradiction⟩
      exact ⟨r, since f before flush, early, same⟩
    · intro a f g behind after spans beat flush installs
      obtain ⟨b, owes, crosses⟩ := crosses_after serves beat flush behind after spans
      obtain ⟨-, beats, last, good⟩ := (installsMiss_iff (missAbsent_run ins g)).mp installs
      have fails := crossed g b owes beats last crosses
      rw [FillBurst.fails, (bursting_run serves g).faulty b owes] at fails
      rw [fillDoneFault, fails] at good
      contradiction

/-! ## Two fills beside a change of the memory -/

/-- Every word of the memory changes after cycle 3. -/
def changing : Nat → Word → Word := fun cycle _ => if cycle < 4 then 1#32 else 2#32

/-- The flush comes with the request, before the first word. -/
def flushedAhead : Nat → IcacheIn
  | 1 => { looks 0x20000004#32 with flush := true }
  | 2 => looksBeside 0x20000004#32 1#32 false
  | 3 => looksBeside 0x20000004#32 1#32 false
  | 5 => looksBeside 0x20000004#32 2#32 false
  | 6 => looksBeside 0x20000004#32 2#32 true
  | _ => looks 0x20000004#32

theorem flushedAhead_fresh : FlushFresh changing flushedAhead := by
  refine (flushFresh_iff ?_).mpr ?_
  · refine serves_of_silent (k := 7) (by decide) fun n late => ?_
    obtain ⟨k, rfl⟩ := Nat.exists_eq_add_of_le' late
    rfl
  · intro n b owes beats last crosses
    by_cases before : n < 7
    · have early : ∀ n, n < 7 → ∀ b ∈ owed flushedAhead n, b.crosses (flushedAhead n) = false := by
        decide
      rw [early n before b owes] at crosses
      contradiction
    · obtain ⟨k, rfl⟩ := Nat.exists_eq_add_of_le' (Nat.le_of_not_lt before)
      cases beats

/-- The flush comes between the second and the third word, as the memory changes. -/
def flushedAcross : Nat → IcacheIn
  | 2 => looksBeside 0x20000004#32 1#32 false
  | 3 => looksBeside 0x20000004#32 1#32 false
  | 4 => { looks 0x20000004#32 with flush := true }
  | 5 => looksBeside 0x20000004#32 2#32 false
  | 6 => looksBeside 0x20000004#32 2#32 true
  | _ => looks 0x20000004#32

/-- The second word is still given out after the flush. -/
theorem flushedAcross_stale :
    Serves changing flushedAcross ∧ ¬ FlushFresh changing flushedAcross := by
  refine ⟨serves_of_silent (k := 7) (by decide) fun n late => ?_, fun fresh => ?_⟩
  · obtain ⟨k, rfl⟩ := Nat.exists_eq_add_of_le' late
    rfl
  · obtain ⟨r, since, -, same⟩ := fresh.response 4 7 (by decide) (by decide) (by decide)
    have old : (run flushedAcross 7).respInst (flushedAcross 7) = 1#32 := by decide
    rw [old, changing, if_neg (Nat.not_lt.mpr since)] at same
    exact absurd same (by decide)

end Icache

end NpcMachine.Rtl
