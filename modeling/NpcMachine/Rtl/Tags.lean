/-
# Rtl.Tags -- which instruction a stage holds

An observer numbers the fetched instructions in the order in which IF/ID captures
them and carries the number beside each stage register.  Two stages may hold equal
words; their numbers tell them apart.

* `inFlight_next`: an edge only drops entries, retires the one in WB and appends
  the captured one, so the numbers stay in program order;
* `ordered_run`: a number in flight names the pc and the word captured under it;
* `tags_commit_unique`: no number is committed twice;
* `gone_never_commits`: a number that left the pipeline unretired never is.
-/
import NpcMachine.Rtl.Invariant

namespace NpcMachine.Rtl

set_option autoImplicit false

structure Tags where
  /-- The pc and the word of every captured instruction, oldest first. -/
  fetched : List (Word × Word)
  ifId : Nat
  idEx : Nat
  exMem : Nat
  memWb : Nat
  deriving DecidableEq, Repr

/-- A numbered instruction. -/
structure Entry where
  tag : Nat
  pc : Word
  inst : Word
  deriving DecidableEq, Repr

namespace Tags

def start : Tags := ⟨[], 0, 0, 0, 0⟩

/-- The numbers move with the registers; where a stage is cleared its number is free. -/
def next (g : Tags) (p : Pipeline) (i : PipelineIn) : Tags where
  fetched :=
    if p.captured i then g.fetched ++ [(p.reqFetchAddr, i.respFetchInst)] else g.fetched
  ifId := if p.captured i then g.fetched.length else g.ifId
  idEx := if p.memAccessWait i then g.idEx else g.ifId
  exMem := if p.memAccessWait i then g.exMem else g.idEx
  memWb := g.exMem

/-- The numbers after `n` edges. -/
def run (p : Pipeline) (ins : Nat → PipelineIn) (n : Nat) : Tags :=
  Machine.watch Pipeline.next next start p ins n

theorem run_succ (p : Pipeline) (ins : Nat → PipelineIn) (n : Nat) :
    run p ins (n + 1) = (run p ins n).next (p.run ins n) (ins n) := rfl

/-! ## Program order -/

def occupant (valid : Bool) (entry : Entry) : List Entry := if valid then [entry] else []

@[simp] theorem occupant_true (entry : Entry) : occupant true entry = [entry] := rfl
@[simp] theorem occupant_false (entry : Entry) : occupant false entry = [] := rfl

theorem occupant_sublist (valid : Bool) (entry : Entry) : (occupant valid entry).Sublist [entry] := by
  cases valid <;> simp

variable (g : Tags) (p : Pipeline) (i : PipelineIn)

def inFetch : List Entry := occupant p.ifId.valid ⟨g.ifId, p.ifId.pc, p.ifId.inst⟩

def exEntry : Entry := ⟨g.idEx, p.idEx.pc, p.idEx.inst⟩
def memEntry : Entry := ⟨g.exMem, p.exMem.pc, p.exMem.inst⟩
def wbEntry : Entry := ⟨g.memWb, p.memWb.pc, p.memWb.inst⟩

def inEx : List Entry := occupant p.idEx.valid (g.exEntry p)
def inMem : List Entry := occupant p.exMem.valid (g.memEntry p)
def inWb : List Entry := occupant p.memWb.valid (g.wbEntry p)

/-- The instructions behind WB, oldest first. -/
def behindWb : List Entry := g.inMem p ++ (g.inEx p ++ g.inFetch p)

/-- The instructions in the pipeline, oldest first. -/
def inFlight : List Entry := g.inWb p ++ g.behindWb p

theorem exEntry_mem {g : Tags} {p : Pipeline} (valid : p.idEx.valid = true) :
    g.exEntry p ∈ g.inEx p ∧ g.exEntry p ∈ g.inFlight p := by
  simp [inFlight, behindWb, inEx, valid]

theorem memEntry_mem {g : Tags} {p : Pipeline} (valid : p.exMem.valid = true) :
    g.memEntry p ∈ g.inMem p ∧ g.memEntry p ∈ g.inFlight p := by
  simp [inFlight, behindWb, inMem, valid]

theorem wbEntry_mem {g : Tags} {p : Pipeline} (commits : p.commitValid = true) :
    g.wbEntry p ∈ g.inWb p ∧ g.wbEntry p ∈ g.inFlight p := by
  have valid : p.memWb.valid = true := commits
  simp [inFlight, inWb, valid]

/-- What the edge captures. -/
def entering : List Entry :=
  occupant (p.captured i) ⟨g.fetched.length, p.reqFetchAddr, i.respFetchInst⟩

/-- IF/ID after an edge that clears nothing: the captured instruction, or the one that
ID could not pass on. -/
theorem inFetch_fetched (fine : p.memRedirect i = false) {q : Pipeline} {h : Tags}
    (ifId : q.ifId = p.fetched i) (tag : h.ifId = (g.next p i).ifId) :
    (h.inFetch q).Sublist ((if p.idStall i then g.inFetch p else []) ++ g.entering p i) := by
  have same : p.captured i = p.fetchCapture i := by simp [Pipeline.captured, fine]
  unfold inFetch entering
  rw [ifId, tag]
  simp only [next, same, Pipeline.fetched]
  cases captures : p.fetchCapture i with
  | true => simp
  | false =>
      cases stalls : p.idStall i with
      | true => simp
      | false => cases valid : p.ifId.valid <;> simp [valid]

/-- An edge retires the instruction in WB, may drop others, and appends the captured one. -/
theorem inFlight_next :
    ((g.next p i).inFlight (p.next i)).Sublist (g.behindWb p ++ g.entering p i) := by
  cases Pipeline.step_cases p i with
  | halt halts ifId idEx exMem memWb pc =>
      simp [inFlight, behindWb, inWb, inMem, inEx, inFetch, ifId, idEx, exMem, memWb]
  | trap runs faults ifId idEx exMem memWb pc =>
      have wb : (g.next p i).inWb (p.next i) = g.inMem p := by
        simp [inWb, wbEntry, inMem, memEntry, memWb, Pipeline.accessed, next]
      have rest : (g.next p i).behindWb (p.next i) = [] := by
        simp [behindWb, inMem, inEx, inFetch, ifId, idEx, exMem]
      rw [inFlight, wb, rest, List.append_nil, behindWb, List.append_assoc]
      exact List.sublist_append_left _ _
  | redirect runs fine redirects goes ifId idEx exMem memWb pc =>
      have wb : (g.next p i).inWb (p.next i) = g.inMem p := by
        simp [inWb, wbEntry, inMem, memEntry, memWb, Pipeline.accessed, next]
      have mem : (g.next p i).inMem (p.next i) = g.inEx p := by
        simp [inMem, memEntry, inEx, exEntry, exMem, Pipeline.executed, next, goes]
      have rest : (g.next p i).inEx (p.next i) ++ (g.next p i).inFetch (p.next i) = [] := by
        simp [inEx, inFetch, ifId, idEx]
      rw [inFlight, behindWb, wb, mem, rest, behindWb, List.append_assoc]
      refine List.Sublist.append_left ?_ _
      rw [List.append_nil, List.append_assoc]
      exact List.sublist_append_left _ _
  | lost runs fine redirects waits ifId idEx exMem memWb pc =>
      have mem : (g.next p i).inMem (p.next i) = g.inMem p := by
        simp [inMem, memEntry, exMem, next, waits]
      have rest : (g.next p i).inEx (p.next i) ++ (g.next p i).inFetch (p.next i) = [] := by
        simp [inEx, inFetch, ifId, idEx]
      have wb : (g.next p i).inWb (p.next i) = [] := by simp [inWb, memWb]
      rw [inFlight, behindWb, wb, mem, rest, behindWb, List.append_assoc, List.append_nil]
      exact List.sublist_append_left _ _
  | wait runs fine straight waits ifId idEx exMem memWb pc =>
      have wb : (g.next p i).inWb (p.next i) = [] := by simp [inWb, memWb]
      have mem : (g.next p i).inMem (p.next i) = g.inMem p := by
        simp [inMem, memEntry, exMem, next, waits]
      have ex : (g.next p i).inEx (p.next i) = g.inEx p := by
        simp [inEx, exEntry, idEx, next, waits]
      have fetch := inFetch_fetched g p i fine ifId rfl
      rw [show p.idStall i = true by simp [Pipeline.idStall, waits], if_pos rfl] at fetch
      rw [inFlight, behindWb, wb, mem, ex, behindWb, List.nil_append, List.append_assoc,
        List.append_assoc]
      exact (fetch.append_left _).append_left _
  | stall runs fine straight goes stalls ifId idEx exMem memWb pc =>
      have wb : (g.next p i).inWb (p.next i) = g.inMem p := by
        simp [inWb, wbEntry, inMem, memEntry, memWb, Pipeline.accessed, next]
      have mem : (g.next p i).inMem (p.next i) = g.inEx p := by
        simp [inMem, memEntry, inEx, exEntry, exMem, Pipeline.executed, next, goes]
      have ex : (g.next p i).inEx (p.next i) = [] := by simp [inEx, idEx]
      have fetch := inFetch_fetched g p i fine ifId rfl
      rw [stalls, if_pos rfl] at fetch
      rw [inFlight, behindWb, wb, mem, ex, behindWb, List.nil_append, List.append_assoc,
        List.append_assoc]
      exact (fetch.append_left _).append_left _
  | flow runs fine straight goes ready ifId idEx exMem memWb pc =>
      have wb : (g.next p i).inWb (p.next i) = g.inMem p := by
        simp [inWb, wbEntry, inMem, memEntry, memWb, Pipeline.accessed, next]
      have mem : (g.next p i).inMem (p.next i) = g.inEx p := by
        simp [inMem, memEntry, inEx, exEntry, exMem, Pipeline.executed, next, goes]
      have ex : (g.next p i).inEx (p.next i) = g.inFetch p := by
        simp [inEx, exEntry, inFetch, idEx, Pipeline.decoded, next, goes]
      have fetch := inFetch_fetched g p i fine ifId rfl
      rw [ready, if_neg (by simp), List.nil_append] at fetch
      rw [inFlight, behindWb, wb, mem, ex, behindWb, List.append_assoc, List.append_assoc]
      exact ((fetch.append_left _).append_left _).append_left _

/-! ## The invariant of the numbers -/

/-- The numbers in flight are in program order and name what was captured. -/
structure Ordered (g : Tags) (p : Pipeline) : Prop where
  sorted : (g.inFlight p).Pairwise fun older younger => older.tag < younger.tag
  named : ∀ entry ∈ g.inFlight p, g.fetched[entry.tag]? = some (entry.pc, entry.inst)

theorem Ordered.next {g : Tags} {p : Pipeline} (ordered : g.Ordered p) (i : PipelineIn) :
    (g.next p i).Ordered (p.next i) := by
  have moved := inFlight_next g p i
  have behind : (g.behindWb p).Sublist (g.inFlight p) := List.sublist_append_right _ _
  constructor
  · refine List.Pairwise.sublist moved (List.pairwise_append.mpr ⟨?_, ?_, ?_⟩)
    · exact ordered.sorted.sublist behind
    · exact List.Pairwise.sublist (occupant_sublist _ _) (List.pairwise_singleton _ _)
    · intro older mem younger entered
      have named := ordered.named older (behind.subset mem)
      have bound := (List.getElem?_eq_some_iff.mp named).1
      have new := (occupant_sublist _ _).subset entered
      rw [List.mem_singleton.mp new]
      exact bound
  · intro entry mem
    rcases List.mem_append.mp (moved.subset mem) with old | entered
    · have named := ordered.named entry (behind.subset old)
      have bound := (List.getElem?_eq_some_iff.mp named).1
      simp only [Tags.next]
      split_ifs
      · rw [List.getElem?_append_left bound, named]
      · exact named
    · unfold entering at entered
      cases captures : p.captured i with
      | false => simp [captures] at entered
      | true =>
          simp only [captures, occupant_true, List.mem_singleton] at entered
          subst entered
          simp [Tags.next, captures]

theorem ordered_run (p : Pipeline) (ins : Nat → PipelineIn) (n : Nat) :
    (run p.reset ins n).Ordered (p.reset.run ins n) := by
  induction n with
  | zero => constructor <;> simp [inFlight, behindWb, inWb, inMem, inEx, inFetch, Pipeline.reset]
  | succ n ordered => exact ordered.next (ins n)

theorem fetched_grows (g : Tags) (p : Pipeline) (i : PipelineIn) :
    g.fetched.length ≤ (g.next p i).fetched.length := by
  simp only [next]
  split_ifs <;> simp

/-- Behind a committed instruction all numbers are larger, for the rest of the run. -/
theorem younger_after_commit (p : Pipeline) (ins : Nat → PipelineIn) (n : Nat)
    (commits : (p.reset.run ins n).commitValid = true) (m : Nat) :
    ∀ entry ∈ (run p.reset ins (n + 1 + m)).inFlight (p.reset.run ins (n + 1 + m)),
      (run p.reset ins n).memWb < entry.tag := by
  have bound : (run p.reset ins n).memWb < (run p.reset ins n).fetched.length := by
    have named := (ordered_run p ins n).named _ (wbEntry_mem commits).2
    exact (List.getElem?_eq_some_iff.mp named).1
  have grows : ∀ k, (run p.reset ins n).fetched.length ≤ (run p.reset ins (n + k)).fetched.length := by
    intro k
    induction k with
    | zero => exact Nat.le_refl _
    | succ k ih =>
        exact Nat.le_trans ih (fetched_grows _ _ _)
  induction m with
  | zero =>
      intro entry mem
      rcases List.mem_append.mp ((inFlight_next _ _ (ins n)).subset mem)
        with old | entered
      · have sorted := (ordered_run p ins n).sorted
        rw [inFlight, List.pairwise_append] at sorted
        exact sorted.2.2 _ (wbEntry_mem commits).1 entry old
      · have new := (occupant_sublist _ _).subset entered
        rw [List.mem_singleton.mp new]
        exact bound
  | succ m ih =>
      intro entry mem
      rw [← Nat.add_assoc] at mem
      rcases List.mem_append.mp
          ((inFlight_next _ _ (ins (n + 1 + m))).subset mem)
        with old | entered
      · exact ih entry (List.mem_append_right _ old)
      · have new := (occupant_sublist _ _).subset entered
        rw [List.mem_singleton.mp new]
        rw [Nat.add_assoc]
        exact Nat.lt_of_lt_of_le bound (grows (1 + m))

/-- No instruction commits in two cycles. -/
theorem tags_commit_unique (p : Pipeline) (ins : Nat → PipelineIn) {m n : Nat}
    (first : (p.reset.run ins m).commitValid = true)
    (second : (p.reset.run ins n).commitValid = true)
    (same : (run p.reset ins m).memWb = (run p.reset ins n).memWb) : m = n := by
  have ordered : ∀ a b, a < b → (p.reset.run ins a).commitValid = true →
      (p.reset.run ins b).commitValid = true →
      (run p.reset ins a).memWb < (run p.reset ins b).memWb := by
    intro a b less earlier later
    obtain ⟨k, rfl⟩ := Nat.exists_eq_add_of_lt less
    have place : a + 1 + k = a + k + 1 := by omega
    have after := younger_after_commit p ins a earlier k
    rw [place] at after
    exact after _ (wbEntry_mem later).2
  rcases Nat.lt_trichotomy m n with less | equal | more
  · exact absurd same (Nat.ne_of_lt (ordered m n less first second))
  · exact equal
  · exact absurd same.symm (Nat.ne_of_lt (ordered n m more second first))

/-- A number that has been given out and is not in flight never commits any more. -/
theorem gone_never_commits (p : Pipeline) (ins : Nat → PipelineIn) {tag n : Nat}
    (given : tag < (run p.reset ins n).fetched.length)
    (gone : ∀ entry ∈ (run p.reset ins n).inFlight (p.reset.run ins n), entry.tag ≠ tag) :
    ∀ m, (p.reset.run ins (n + m)).commitValid = true →
      (run p.reset ins (n + m)).memWb ≠ tag := by
  have later : ∀ m, tag < (run p.reset ins (n + m)).fetched.length ∧
      ∀ entry ∈ (run p.reset ins (n + m)).inFlight (p.reset.run ins (n + m)),
        entry.tag ≠ tag := by
    intro m
    induction m with
    | zero => exact ⟨given, gone⟩
    | succ m ih =>
        obtain ⟨given, gone⟩ := ih
        refine ⟨Nat.lt_of_lt_of_le given (fetched_grows _ _ _), ?_⟩
        intro entry mem
        rcases List.mem_append.mp ((inFlight_next _ _ (ins (n + m))).subset mem)
          with old | entered
        · exact gone entry (List.mem_append_right _ old)
        · have new := (occupant_sublist _ _).subset entered
          rw [List.mem_singleton.mp new]
          exact Nat.ne_of_gt given
  intro m commits
  exact (later m).2 _ (wbEntry_mem commits).2

end Tags

end NpcMachine.Rtl
