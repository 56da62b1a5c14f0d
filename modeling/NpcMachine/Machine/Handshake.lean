/-
# Machine.Handshake -- valid/ready channels along a run

Signals are streams, one value for each cycle.  A transfer happens in a cycle with both
`valid` and `ready`.  A request asks until the cycle in which it is served; `Span` is the
relation between its cycles and its last one.

* `Kept`: a valid that waits for its ready is shown again, unchanged, and its request is
  not served;
* `Once`: each request that is served had exactly one transfer;
* `AnswersAfter`: every answer belongs to a transfer that has happened;
* `answered`: the transfer that an answer belongs to, where answers come in order;
* `Requests`: requests that are held until they are served.

`once_iff`: where the last cycle of a request transfers, once means only then.
`Once.number`: where each served request transfers once, its transfer has its number.
-/
import Mathlib.Data.Nat.Nth

namespace NpcMachine.Machine

set_option autoImplicit false

/-- The request whose last cycle is `n` is up in cycle `k`. -/
structure Span (asks served : Nat → Bool) (k n : Nat) : Prop where
  le : k ≤ n
  ends : served n = true
  waits : ∀ j, k ≤ j → j < n → asks j = true ∧ served j = false

def Kept {α : Type} (valid ready served : Nat → Bool) (payload : Nat → α) : Prop :=
  ∀ n, valid n = true → ready n = false →
    served n = false ∧ valid (n + 1) = true ∧ payload (n + 1) = payload n

def Once (asks served transfer : Nat → Bool) : Prop :=
  ∀ n, served n = true → ∃! k, Span asks served k n ∧ transfer k = true

def AnswersAfter (answer transfer : Nat → Bool) : Prop :=
  ∀ n, answer n = true →
    Nat.count (fun k => answer k = true) n < Nat.count (fun k => transfer k = true) (n + 1)

/-- The transfer with the number of the answer in cycle `n`. -/
noncomputable def answered (answer transfer : Nat → Bool) (n : Nat) : Nat :=
  Nat.nth (fun k => transfer k = true) (Nat.count (fun k => answer k = true) n)

/-- The transfers belong to requests, and a request is asked for until it is served. -/
structure Requests (asks served transfer : Nat → Bool) : Prop where
  held : ∀ n, asks n = true → served n = false → asks (n + 1) = true
  asked : ∀ n, served n = true → asks n = true
  only : ∀ n, transfer n = true → asks n = true

/-- No request of the cycles before `n` is left. -/
def Quiet (asks served : Nat → Bool) (n : Nat) : Prop :=
  ∀ k, k + 1 = n → asks k = true → served k = true

/-- What is up only together with something that is down is down. -/
theorem eq_false_of_imp {p q : Bool} (imp : p = true → q = true) (down : q = false) : p = false := by
  cases p with
  | false => rfl
  | true => exact (imp rfl).symm.trans down

theorem Span.last {asks served : Nat → Bool} {n : Nat} (ends : served n = true) :
    Span asks served n n where
  le := Nat.le_refl n
  ends := ends
  waits j after before := by omega

/-- The last cycle of a request asks as the others do. -/
theorem Span.asked {asks served : Nat → Bool} {k n : Nat} (span : Span asks served k n)
    (last : asks n = true) : asks k = true := by
  have le := span.le
  by_cases here : k = n
  · rwa [here]
  · exact (span.waits k (Nat.le_refl k) (by omega)).1

theorem once_iff {asks served transfer : Nat → Bool}
    (last : ∀ n, served n = true → transfer n = true) :
    Once asks served transfer ↔ ∀ k n, Span asks served k n → transfer k = true → k = n := by
  constructor
  · intro once k n span transfers
    obtain ⟨first, -, only⟩ := once n span.ends
    have here := only k ⟨span, transfers⟩
    have there := only n ⟨Span.last span.ends, last n span.ends⟩
    exact here.trans there.symm
  · intro only n ends
    refine ⟨n, ⟨Span.last ends, last n ends⟩, ?_⟩
    rintro k ⟨span, transfers⟩
    exact only k n span transfers

/-! ## Numbers of requests and transfers -/

section Numbers

variable {asks served transfer : Nat → Bool} {k m n : Nat}

theorem Span.inner (span : Span asks served k n) (after : k ≤ m) (before : m ≤ n) :
    Span asks served m n :=
  ⟨before, span.ends, fun j past => span.waits j (by omega)⟩

theorem Span.quiet_le (span : Span asks served m n) (quiet : Quiet asks served k) (le : k ≤ n) :
    k ≤ m := by
  by_contra before
  obtain ⟨j, rfl⟩ : ∃ j, k = j + 1 := ⟨k - 1, by omega⟩
  obtain ⟨asks, waits⟩ := span.waits j (by omega) (by omega)
  exact Bool.noConfusion (waits.symm.trans (quiet j rfl asks))

/-- The first cycle of a request. -/
theorem Span.start (span : Span asks served k n) :
    ∃ j, j ≤ k ∧ Span asks served j n ∧ Quiet asks served j := by
  induction k with
  | zero => exact ⟨0, Nat.le_refl 0, span, fun j first => absurd first (by omega)⟩
  | succ k ih =>
      by_cases waits : asks k = true ∧ served k = false
      · have le := span.le
        obtain ⟨j, before, rest⟩ := ih ⟨by omega, span.ends, fun j after last => by
          by_cases here : j = k
          · rwa [here]
          · exact span.waits j (by omega) last⟩
        exact ⟨j, by omega, rest⟩
      · refine ⟨k + 1, Nat.le_refl _, span, ?_⟩
        rintro j same asks
        obtain rfl : j = k := by omega
        simpa [asks] using waits

theorem count_succ_of_not {p : Nat → Bool} (not : p n = false) :
    Nat.count (fun k => p k = true) (n + 1) = Nat.count (fun k => p k = true) n := by
  rw [Nat.count_succ, not, if_neg Bool.false_ne_true, Nat.add_zero]

/-- Nothing is served before the end of a request. -/
theorem Span.count_served (span : Span asks served k n) (after : k ≤ m) (before : m ≤ n) :
    Nat.count (fun k => served k = true) m = Nat.count (fun k => served k = true) k := by
  induction m, after using Nat.le_induction with
  | base => rfl
  | succ m after ih => rw [count_succ_of_not (span.waits m after (by omega)).2, ih (by omega)]

/-- A request that transfers once, in cycle `m`. -/
theorem count_transfer
    (only : ∀ j, k ≤ j → j ≤ n → (transfer j = true ↔ j = m)) {j : Nat} (after : k ≤ j)
    (before : j ≤ n + 1) : Nat.count (fun k => transfer k = true) j =
      Nat.count (fun k => transfer k = true) k + if k ≤ m ∧ m < j then 1 else 0 := by
  induction j, after using Nat.le_induction with
  | base => rw [if_neg (by omega), Nat.add_zero]
  | succ j after ih =>
      rw [Nat.count_succ, ih (by omega)]
      have here := only j after (by omega)
      by_cases transfers : transfer j = true
      · obtain rfl := here.mp transfers
        rw [if_pos transfers, if_neg (by omega), if_pos (by omega)]
      · have other : j ≠ m := fun same => transfers (here.mpr same)
        rw [if_neg transfers, Nat.add_zero]
        congr 2
        simp only [eq_iff_iff]
        omega

/-- The request that is served in cycle `n`, from its first cycle on. -/
theorem Once.request (once : Once asks served transfer) (ends : served n = true) :
    ∃ k m, Span asks served k n ∧ Quiet asks served k ∧ k ≤ m ∧ Span asks served m n ∧
      ∀ j, k ≤ j → j ≤ n → (transfer j = true ↔ j = m) := by
  have last : Span asks served n n := Span.last ends
  obtain ⟨k, before, span, fresh⟩ := last.start
  obtain ⟨m, ⟨inside, transfers⟩, unique⟩ := once n ends
  exact ⟨k, m, span, fresh, inside.quiet_le fresh before, inside, fun j past upto =>
    ⟨fun again => unique j ⟨span.inner past upto, again⟩, fun same => same ▸ transfers⟩⟩

namespace Requests

theorem quiet (requests : Requests asks served transfer) (idle : asks n = false) :
    Quiet asks served n := by
  rintro k rfl asked
  by_contra waits
  rw [Bool.not_eq_true] at waits
  exact Bool.noConfusion (idle.symm.trans (requests.held k asked waits))

theorem still (requests : Requests asks served transfer) (asked : asks k = true) (le : k ≤ n)
    (waits : ∀ j, k ≤ j → j < n → served j = false) : asks n = true := by
  induction n, le using Nat.le_induction with
  | base => exact asked
  | succ n after ih =>
      exact requests.held n (ih fun j past before => waits j past (by omega))
        (waits n after (Nat.lt_succ_self n))

/-- A request is asked for still, or it has been served. -/
theorem ends (requests : Requests asks served transfer) (asked : asks k = true) (le : k ≤ n) :
    asks n = true ∨ ∃ m, m < n ∧ Span asks served k m := by
  by_cases waits : ∃ m, k ≤ m ∧ m < n ∧ served m = true
  · right
    obtain ⟨after, before, ends⟩ := Nat.find_spec waits
    have first (j : Nat) (past : k ≤ j) (early : j < Nat.find waits) : served j = false := by
      by_contra served
      rw [Bool.not_eq_false] at served
      exact Nat.find_min waits early ⟨past, by omega, served⟩
    exact ⟨Nat.find waits, before, after, ends, fun j past early =>
      ⟨requests.still asked past fun i inside upto => first i inside (by omega), first j past early⟩⟩
  · left
    refine requests.still asked le fun j past before => ?_
    by_contra served
    rw [Bool.not_eq_false] at served
    exact waits ⟨j, past, before, served⟩

/-- Between two requests as many are served as have transferred. -/
theorem count_quiet (requests : Requests asks served transfer) (once : Once asks served transfer)
    (quiet : Quiet asks served n) : Nat.count (fun k => transfer k = true) n =
      Nat.count (fun k => served k = true) n := by
  induction n using Nat.strongRecOn with
  | ind n ih =>
      cases n with
      | zero => rw [Nat.count_zero, Nat.count_zero]
      | succ n =>
          cases ends : served n with
          | true =>
              obtain ⟨k, m, span, fresh, after, inside, only⟩ := once.request ends
              have before := span.le
              have le := inside.le
              rw [count_transfer only (by omega) (Nat.le_refl _), if_pos (by omega),
                ih k (by omega) fresh, Nat.count_succ, if_pos ends,
                span.count_served before (Nat.le_refl n)]
          | false =>
              have idle : asks n = false := eq_false_of_imp (quiet n rfl) ends
              have none : transfer n = false := eq_false_of_imp (requests.only n) idle
              rw [count_succ_of_not none, count_succ_of_not ends,
                ih n (Nat.lt_succ_self n) (requests.quiet idle)]

end Requests

/-- The transfer of a request has its number. -/
theorem Once.number (once : Once asks served transfer) (requests : Requests asks served transfer)
    (ends : served n = true) : ∃ m, Span asks served m n ∧ transfer m = true ∧
      Nat.count (fun k => transfer k = true) m = Nat.count (fun k => served k = true) n := by
  obtain ⟨k, m, span, fresh, after, inside, only⟩ := once.request ends
  have le := inside.le
  refine ⟨m, inside, (only m after le).mpr rfl, ?_⟩
  rw [count_transfer only after (by omega), if_neg (by omega), Nat.add_zero,
    requests.count_quiet once fresh, span.count_served span.le (Nat.le_refl n)]

end Numbers

end NpcMachine.Machine
