/-
# Search.Index -- the incremental index

`index.py` keeps two tables: the hash of every indexed document and the rows of its
chunks.  A run works on an uncommitted copy, commits it after each file, and leaves the
last committed copy behind when it is aborted.  `Config` holds what a run takes from
outside: the sizes of the configuration, and the library functions of Python, SHA-256 and
the embedding server as functions of their arguments.

A database is `Good` when the rows of each document are all the chunks of a text with the
document's hash, and no other rows exist.  Every run keeps this, wherever it is aborted
(`main_good`), and a full run that ends leaves exactly the rows of the files it saw
(`main_exact`).  So after any history it leaves the tables of a rebuild
(`index_eq_rebuild`).
-/
import Mathlib.Data.Char
import Mathlib.Data.List.Lex
import Mathlib.Data.Set.Function
import NpcMachine.Search.Chunking

namespace NpcMachine.Search

set_option autoImplicit false

abbrev Bytes := List (BitVec 8)

/-- The configuration, and the functions of the libraries: `suffix.lower()` of a path, the
UTF-8 test, `read_text`, SHA-256 and the packed embedding of a text. -/
structure Config (Hash Emb : Type) where
  textExtensions : List Str
  maxChunk : Int
  overlap : Int
  batchSize : Int
  suffix : Str → Str
  isUtf8 : Bytes → Bool
  readText : Bytes → Str
  sha256 : Bytes → Hash
  embedding : Str → Emb

/-- The files at the time of a run: those below a start directory (all for the empty name), as
paths below the root, `none` where there is no such directory; and their contents. -/
structure Tree where
  entries : Str → Option (List Str)
  bytes : Str → Bytes

structure Row (Emb : Type) where
  path : Str
  text : Str
  embedding : Emb

structure Db (Hash Emb : Type) where
  documents : Str → Option Hash
  chunks : Str → Option (Row Emb)

/-- A run: the files it sees, its options, and the requests that fail. -/
structure Run where
  tree : Tree
  subdir : Str := []
  rebuild : Bool := false
  dryRun : Bool := false
  fails : Str → Nat → Bool

section Code

variable {Hash Emb : Type} [DecidableEq Hash] (cfg : Config Hash Emb)

/-! ## Files and embeddings -/

def defaultTextExts : List Str :=
  [".md", ".rst", ".adoc", ".asciidoc", ".txt", ".yaml", ".yml", ".json", ".toml"].map String.toList

def isTextFile (bytes : Bytes) : Bool :=
  let chunk := bytes.take 1024
  !chunk.contains 0#8 && cfg.isUtf8 chunk

def discoverFiles (tree : Tree) (subdir : Str) : Option (List Str) :=
  let exts := if cfg.textExtensions = [] then defaultTextExts else cfg.textExtensions
  (tree.entries subdir).map fun paths =>
    (paths.filter fun p => exts.contains (cfg.suffix p) && isTextFile cfg (tree.bytes p)).mergeSort
      fun a b => decide (a ≤ b)

/-- The requests of `embed`, one for each batch; the server answers all of a batch or fails. -/
def embedLoop (fails : Nat → Bool) : Nat → Nat → List Str → Option (List Emb)
  | 0, _, _ => some []
  | fuel + 1, i, texts =>
      if texts = [] then some []
      else if fails i then none
      else (embedLoop fails fuel (i + 1) (texts.drop cfg.batchSize.toNat)).map
        ((texts.take cfg.batchSize.toNat).map cfg.embedding ++ ·)

/-- `EmbeddingClient.embed`; the range has no step 0, and is empty for a negative step. -/
def embed (fails : Nat → Bool) (texts : List Str) : Option (List Emb) :=
  if texts = [] then some []
  else if cfg.batchSize = 0 then none
  else if cfg.batchSize < 0 then some []
  else embedLoop cfg fails texts.length 0 texts

/-! ## The tables -/

namespace Db

def empty : Db Hash Emb := ⟨fun _ => none, fun _ => none⟩

/-- `DELETE FROM chunks WHERE path = ?`. -/
def deleteChunks (db : Db Hash Emb) (p : Str) : Db Hash Emb :=
  { db with chunks := fun id => (db.chunks id).filter fun row => decide (row.path ≠ p) }

/-- Both `DELETE`s for each removed path. -/
def remove (db : Db Hash Emb) (gone : Str → Bool) : Db Hash Emb where
  documents p := if gone p then none else db.documents p
  chunks id := (db.chunks id).filter fun row => !gone row.path

end Db

def chunkId (rel : Str) (i : Nat) : Str := rel ++ '#' :: Nat.toDigits 10 i

/-- `INSERT OR REPLACE` of the rows of a file, from number `i` on. -/
def insertChunks (rel : Str) : Nat → List (Str × Emb) → (Str → Option (Row Emb)) →
    Str → Option (Row Emb)
  | _, [], table => table
  | i, (txt, emb) :: rest, table =>
      insertChunks rel (i + 1) rest (Function.update table (chunkId rel i) (some ⟨rel, txt, emb⟩))

/-! ## A run -/

/-- One changed file, up to its commit; `none` when the run is aborted or never comes back. -/
def indexFile (run : Run) (rel : Str) (working : Db Hash Emb) : Option (Db Hash Emb) := do
  let working := working.deleteChunks rel
  let text := cfg.readText (run.tree.bytes rel)
  let chunks ← chunkText cfg.maxChunk cfg.overlap (fuelFor text) text
  let embeddings ← embed cfg (run.fails rel) chunks
  return ⟨Function.update working.documents rel (some (cfg.sha256 (run.tree.bytes rel))),
    insertChunks rel 0 (chunks.zip embeddings) working.chunks⟩

/-- The changed files: the tables that are left, and whether all were indexed. -/
def indexFiles (run : Run) (committed working : Db Hash Emb) : List Str → Db Hash Emb × Bool
  | [] => (working, true)
  | rel :: rest =>
      match indexFile cfg run rel working with
      | none => (committed, false)
      | some working => indexFiles run working working rest

def main (run : Run) (db : Db Hash Emb) : Db Hash Emb × Bool :=
  let db := if run.rebuild then Db.empty else db
  match discoverFiles cfg run.tree run.subdir with
  | none => (db, false)
  | some files =>
      if run.dryRun then (db, true)
      else
        let hash rel := cfg.sha256 (run.tree.bytes rel)
        let unchanged := files.filter fun rel => decide (db.documents rel = some (hash rel))
        let changed := files.filter fun rel => decide (db.documents rel ≠ some (hash rel))
        let inScope p := run.subdir == [] || (run.subdir.rdropWhile (· == '/') ++ ['/']).isPrefixOf p
        let removed p :=
          (db.documents p).isSome && inScope p && !unchanged.contains p && !changed.contains p
        indexFiles cfg run db (db.remove removed) changed

/-- The tables after the runs, from none. -/
def history (runs : List Run) : Db Hash Emb := runs.foldl (fun db run => (main cfg run db).1) Db.empty

end Code

/-! ## Row names -/

theorem hash_not_digit (i : Nat) : '#' ∉ Nat.toDigits 10 i := by
  intro held
  have digit := Nat.isDigit_of_mem_toDigits (by decide) (by decide) held
  exact absurd digit (by decide)

theorem toDigits_injective {i j : Nat} (same : Nat.toDigits 10 i = Nat.toDigits 10 j) : i = j := by
  rw [← Nat.ofDigitChars_ten_toDigits (n := i), same, Nat.ofDigitChars_ten_toDigits]

/-- The name of a row tells its file and its number. -/
theorem chunkId_injective {p q : Str} {i j : Nat} (same : chunkId p i = chunkId q j) :
    p = q ∧ i = j := by
  have split : ∀ (r : Str) (k : Nat), ((chunkId r k).reverse.takeWhile (· != '#')).reverse =
      Nat.toDigits 10 k := by
    intro r k
    have all : ∀ c ∈ (Nat.toDigits 10 k).reverse, (c != '#') = true := by
      intro c held
      have digit := List.mem_reverse.mp held
      simp only [bne_iff_ne]
      rintro rfl
      exact hash_not_digit k digit
    rw [chunkId, List.reverse_append, List.reverse_cons, List.append_assoc,
      List.takeWhile_append_of_pos all]
    simp
  have numbers := congrArg (fun s => (List.takeWhile (· != '#') s.reverse).reverse) same
  simp only [split] at numbers
  have equal := toDigits_injective numbers
  subst equal
  exact ⟨List.append_cancel_right same, rfl⟩

/-! ## The rows of a file -/

section Tables

variable {Hash Emb : Type}

def Db.rowsOf (db : Db Hash Emb) (p : Str) : Str → Option (Row Emb) :=
  fun id => (db.chunks id).filter fun row => decide (row.path = p)

theorem Db.rowsOf_eq_some {db : Db Hash Emb} {p id : Str} {row : Row Emb} :
    db.rowsOf p id = some row ↔ db.chunks id = some row ∧ row.path = p := by
  rw [Db.rowsOf, Option.filter_eq_some_iff]
  simp

/-- The tables are the hashes and the rows of each file. -/
theorem Db.eq_of_rowsOf {db db' : Db Hash Emb} (documents : ∀ p, db.documents p = db'.documents p)
    (rows : ∀ p, db.rowsOf p = db'.rowsOf p) : db = db' := by
  have chunks : db.chunks = db'.chunks := by
    funext id
    refine Option.ext fun row => ?_
    have same := congrArg (· = some row) (congrFun (rows row.path) id)
    simp only [Db.rowsOf_eq_some, and_true] at same
    rw [same]
  cases db
  cases db'
  exact congrArg₂ Db.mk (funext documents) chunks

theorem insertChunks_of_ne {rel id : Str} (pairs : List (Str × Emb)) (i : Nat)
    (table : Str → Option (Row Emb)) (other : ∀ j, id ≠ chunkId rel j) :
    insertChunks rel i pairs table id = table id := by
  induction pairs generalizing i table with
  | nil => rfl
  | cons pair rest ih => rw [insertChunks, ih, Function.update_of_ne (other i)]

/-- What is in a table after the rows of a file went in. -/
theorem insertChunks_some {rel id : Str} {row : Row Emb} (pairs : List (Str × Emb)) (i : Nat)
    (table : Str → Option (Row Emb)) (found : insertChunks rel i pairs table id = some row) :
    table id = some row ∨ row.path = rel ∧ ∃ j, id = chunkId rel j := by
  induction pairs generalizing i table with
  | nil => exact Or.inl found
  | cons pair rest ih =>
      rcases ih (i + 1) _ found with before | new
      · by_cases here : id = chunkId rel i
        · rw [here, Function.update_self] at before
          exact Or.inr ⟨by rw [← Option.some.inj before], i, here⟩
        · rw [Function.update_of_ne here] at before
          exact Or.inl before
      · exact Or.inr new

/-- The rows that go in do not depend on rows of other files. -/
theorem insertChunks_rows {rel : Str} (pairs : List (Str × Emb)) (i : Nat)
    (table table' : Str → Option (Row Emb)) (id : Str)
    (same : (table id).filter (fun row => decide (row.path = rel)) = table' id) :
    (insertChunks rel i pairs table id).filter (fun row => decide (row.path = rel)) =
      insertChunks rel i pairs table' id := by
  induction pairs generalizing i table table' with
  | nil => exact same
  | cons pair rest ih =>
      refine ih (i + 1) _ _ ?_
      by_cases here : id = chunkId rel i
      · rw [here, Function.update_self, Function.update_self]
        simp [Option.filter]
      · rw [Function.update_of_ne here, Function.update_of_ne here]
        exact same

/-! ## Embeddings -/

variable {cfg : Config Hash Emb}

/-- The answer to a request that goes through. -/
def embedValue (cfg : Config Hash Emb) (texts : List Str) : List Emb :=
  if cfg.batchSize < 0 then [] else texts.map cfg.embedding

theorem embedLoop_some {fails : Nat → Bool} (pos : 0 < cfg.batchSize) (fuel i : Nat)
    (texts : List Str) (enough : texts.length ≤ fuel) {embeddings : List Emb}
    (found : embedLoop cfg fails fuel i texts = some embeddings) :
    embeddings = texts.map cfg.embedding := by
  induction fuel generalizing i texts embeddings with
  | zero =>
      have none := List.length_eq_zero_iff.mp (Nat.le_zero.mp enough)
      rw [none] at found ⊢
      exact (Option.some.inj found).symm
  | succ fuel ih =>
      rw [embedLoop] at found
      split_ifs at found with empty failed
      · rw [empty]
        exact (Option.some.inj found).symm
      · obtain ⟨rest, run, rfl⟩ := Option.map_eq_some_iff.mp found
        have some := List.length_pos_iff.mpr empty
        rw [ih (i + 1) _ (by rw [List.length_drop]; omega) run, ← List.map_append,
          List.take_append_drop]

theorem embedLoop_up {fails : Nat → Bool} (up : ∀ i, fails i = false) (fuel i : Nat)
    (texts : List Str) : ∃ embeddings, embedLoop cfg fails fuel i texts = some embeddings := by
  induction fuel generalizing i texts with
  | zero => exact ⟨[], rfl⟩
  | succ fuel ih =>
      rw [embedLoop, up i]
      simp only [Bool.false_eq_true, if_false]
      split_ifs with empty
      · exact ⟨[], rfl⟩
      · obtain ⟨rest, run⟩ := ih (i + 1) (texts.drop cfg.batchSize.toNat)
        rw [run]
        exact ⟨_, rfl⟩

theorem embed_some {fails : Nat → Bool} {texts : List Str} {embeddings : List Emb}
    (found : embed cfg fails texts = some embeddings) : embeddings = embedValue cfg texts := by
  unfold embed at found
  unfold embedValue
  split_ifs at found with empty zero negative
  · rw [empty, List.map_nil, ite_self]
    exact (Option.some.inj found).symm
  · rw [if_pos negative]
    exact (Option.some.inj found).symm
  · rw [if_neg negative]
    exact embedLoop_some (by omega) _ _ _ (Nat.le_refl _) found

/-- What was embedded once is embedded again by a server that does not fail. -/
theorem embed_again {fails up : Nat → Bool} (always : ∀ i, up i = false) {texts : List Str}
    {embeddings : List Emb} (found : embed cfg fails texts = some embeddings) :
    ∃ again, embed cfg up texts = some again := by
  unfold embed at found ⊢
  split_ifs at found ⊢ with empty zero negative
  · exact ⟨[], rfl⟩
  · exact ⟨[], rfl⟩
  · exact embedLoop_up always _ _ _

end Tables

/-! ## Good tables -/

section Good

variable {Hash Emb : Type} {cfg : Config Hash Emb}

/-- The rows of a file with these contents: all its chunks, each with its embedding. -/
def Rows (cfg : Config Hash Emb) (p : Str) (b : Bytes) (rows : Str → Option (Row Emb)) : Prop :=
  ∃ chunks, chunkText cfg.maxChunk cfg.overlap (fuelFor (cfg.readText b)) (cfg.readText b) = some chunks ∧
    (∃ fails embeddings, embed cfg fails chunks = some embeddings) ∧
    rows = insertChunks p 0 (chunks.zip (embedValue cfg chunks)) fun _ => none

/-- A file with its hash has the rows of contents with this hash; one without has none. -/
def GoodAt (cfg : Config Hash Emb) (seen : Set Bytes) (p : Str) (rows : Str → Option (Row Emb)) :
    Option Hash → Prop
  | none => rows = fun _ => none
  | some h => ∃ b ∈ seen, cfg.sha256 b = h ∧ Rows cfg p b rows

def Keyed (db : Db Hash Emb) : Prop :=
  ∀ id row, db.chunks id = some row → ∃ i, id = chunkId row.path i

structure Good (cfg : Config Hash Emb) (seen : Set Bytes) (db : Db Hash Emb) : Prop where
  keyed : Keyed db
  files : ∀ p, GoodAt cfg seen p (db.rowsOf p) (db.documents p)

theorem Rows.unique {p : Str} {b : Bytes} {rows rows' : Str → Option (Row Emb)}
    (left : Rows cfg p b rows) (right : Rows cfg p b rows') : rows = rows' := by
  obtain ⟨chunks, found, -, rfl⟩ := left
  obtain ⟨chunks', found', -, rfl⟩ := right
  rw [Option.some.inj (found.symm.trans found')]

theorem GoodAt.mono {seen more : Set Bytes} (grows : seen ⊆ more) {p : Str}
    {rows : Str → Option (Row Emb)} {h : Option Hash} (good : GoodAt cfg seen p rows h) :
    GoodAt cfg more p rows h := by
  cases h with
  | none => exact good
  | some h =>
      obtain ⟨b, held, hash, rows⟩ := good
      exact ⟨b, grows held, hash, rows⟩

theorem Good.mono {seen more : Set Bytes} (grows : seen ⊆ more) {db : Db Hash Emb}
    (good : Good cfg seen db) : Good cfg more db :=
  ⟨good.keyed, fun p => (good.files p).mono grows⟩

theorem empty_good (seen : Set Bytes) : Good cfg seen Db.empty :=
  ⟨fun _ _ held => absurd held (Option.some_ne_none _).symm, fun _ => rfl⟩

/-! ## Removed files -/

theorem remove_rowsOf (db : Db Hash Emb) (gone : Str → Bool) (p : Str) :
    (db.remove gone).rowsOf p = if gone p then fun _ => none else db.rowsOf p := by
  funext id
  refine Option.ext fun row => ?_
  have kept : (db.remove gone).chunks id = some row ↔ db.chunks id = some row ∧ gone row.path = false := by
    rw [Db.remove, Option.filter_eq_some_iff, Bool.not_eq_true']
  rw [Db.rowsOf_eq_some, kept]
  split_ifs with dropped
  · constructor
    · rintro ⟨⟨-, left⟩, rfl⟩
      rw [dropped] at left
      cases left
    · exact fun none => nomatch none
  · rw [Db.rowsOf_eq_some]
    constructor
    · exact fun ⟨⟨held, _⟩, here⟩ => ⟨held, here⟩
    · rintro ⟨held, rfl⟩
      exact ⟨⟨held, Bool.eq_false_iff.mpr dropped⟩, rfl⟩

theorem remove_good {seen : Set Bytes} {db : Db Hash Emb} (gone : Str → Bool)
    (good : Good cfg seen db) : Good cfg seen (db.remove gone) where
  keyed id row held := good.keyed id row (Option.filter_eq_some_iff.mp held).1
  files p := by
    rw [remove_rowsOf]
    change GoodAt cfg seen p _ (if gone p then none else db.documents p)
    split_ifs
    · exact rfl
    · exact good.files p

/-! ## Changed files -/

variable {run : Run}

theorem indexFile_some {rel : Str} {working next : Db Hash Emb}
    (found : indexFile cfg run rel working = some next) :
    ∃ chunks, chunkText cfg.maxChunk cfg.overlap (fuelFor (cfg.readText (run.tree.bytes rel)))
        (cfg.readText (run.tree.bytes rel)) = some chunks ∧
      (∃ embeddings, embed cfg (run.fails rel) chunks = some embeddings) ∧
      next = ⟨Function.update working.documents rel (some (cfg.sha256 (run.tree.bytes rel))),
        insertChunks rel 0 (chunks.zip (embedValue cfg chunks)) (working.deleteChunks rel).chunks⟩ := by
  simp only [indexFile, Option.bind_eq_bind, Option.bind_eq_some_iff, Option.pure_def,
    Option.some.injEq] at found
  obtain ⟨chunks, split, embeddings, answered, same⟩ := found
  refine ⟨chunks, split, ⟨embeddings, answered⟩, ?_⟩
  rw [← same, embed_some answered]
  rfl

theorem deleteChunks_some {db : Db Hash Emb} {p id : Str} {row : Row Emb} :
    (db.deleteChunks p).chunks id = some row ↔ db.chunks id = some row ∧ row.path ≠ p := by
  rw [Db.deleteChunks, Option.filter_eq_some_iff]
  simp

theorem indexFile_keyed {rel : Str} {working next : Db Hash Emb} (keyed : Keyed working)
    (found : indexFile cfg run rel working = some next) : Keyed next := by
  obtain ⟨chunks, -, -, rfl⟩ := indexFile_some found
  intro id row held
  rcases insertChunks_some _ _ _ held with before | ⟨rfl, j, here⟩
  · exact keyed id row (deleteChunks_some.mp before).1
  · exact ⟨j, here⟩

/-- The file itself: its hash and its rows. -/
theorem indexFile_self {rel : Str} {working next : Db Hash Emb}
    (found : indexFile cfg run rel working = some next) :
    next.documents rel = some (cfg.sha256 (run.tree.bytes rel)) ∧
      Rows cfg rel (run.tree.bytes rel) (next.rowsOf rel) := by
  obtain ⟨chunks, split, ⟨embeddings, answered⟩, rfl⟩ := indexFile_some found
  refine ⟨Function.update_self .., chunks, split, ⟨_, embeddings, answered⟩, ?_⟩
  funext id
  refine insertChunks_rows _ 0 _ _ id ?_
  cases held : (working.deleteChunks rel).chunks id with
  | none => rfl
  | some row => simp [Option.filter, (deleteChunks_some.mp held).2]

/-- The other files stay as they are. -/
theorem indexFile_other {rel p : Str} {working next : Db Hash Emb} (keyed : Keyed working)
    (found : indexFile cfg run rel working = some next) (other : p ≠ rel) :
    next.documents p = working.documents p ∧ next.rowsOf p = working.rowsOf p := by
  obtain ⟨chunks, -, -, rfl⟩ := indexFile_some found
  refine ⟨Function.update_of_ne other _ _, ?_⟩
  funext id
  refine Option.ext fun row => ?_
  rw [Db.rowsOf_eq_some, Db.rowsOf_eq_some]
  constructor
  · rintro ⟨held, rfl⟩
    rcases insertChunks_some _ _ _ held with before | ⟨here, -⟩
    · exact ⟨(deleteChunks_some.mp before).1, rfl⟩
    · exact absurd here other
  · rintro ⟨held, rfl⟩
    refine ⟨?_, rfl⟩
    have outside : ∀ j, id ≠ chunkId rel j := by
      rintro j rfl
      obtain ⟨i, same⟩ := keyed _ row held
      exact other (chunkId_injective same).1.symm
    exact (insertChunks_of_ne _ _ _ outside).trans (deleteChunks_some.mpr ⟨held, other⟩)

theorem indexFile_good {seen : Set Bytes} {rel : Str} {working next : Db Hash Emb}
    (good : Good cfg seen working) (held : run.tree.bytes rel ∈ seen)
    (found : indexFile cfg run rel working = some next) : Good cfg seen next where
  keyed := indexFile_keyed good.keyed found
  files p := by
    by_cases here : p = rel
    · subst here
      obtain ⟨hash, rows⟩ := indexFile_self found
      rw [hash]
      exact ⟨_, held, rfl, rows⟩
    · obtain ⟨document, rows⟩ := indexFile_other good.keyed found here
      rw [document, rows]
      exact good.files p

/-- Wherever the run is aborted, the tables that are left are good. -/
theorem indexFiles_good {seen : Set Bytes} (changed : List Str) {committed working : Db Hash Emb}
    (kept : Good cfg seen committed) (good : Good cfg seen working)
    (held : ∀ rel ∈ changed, run.tree.bytes rel ∈ seen) :
    Good cfg seen (indexFiles cfg run committed working changed).1 := by
  induction changed generalizing committed working with
  | nil => exact good
  | cons rel rest ih =>
      rw [indexFiles]
      cases found : indexFile cfg run rel working with
      | none => exact kept
      | some next =>
          have step := indexFile_good good (held rel List.mem_cons_self) found
          exact ih step step fun r later => held r (List.mem_cons_of_mem _ later)

/-- A run to the end leaves the rows of its changed files, and the others. -/
theorem indexFiles_done (changed : List Str) {committed working : Db Hash Emb} (keyed : Keyed working)
    (done : (indexFiles cfg run committed working changed).2 = true) (p : Str) :
    let left := (indexFiles cfg run committed working changed).1
    (p ∈ changed → left.documents p = some (cfg.sha256 (run.tree.bytes p)) ∧
        Rows cfg p (run.tree.bytes p) (left.rowsOf p)) ∧
      (p ∉ changed → left.documents p = working.documents p ∧ left.rowsOf p = working.rowsOf p) := by
  induction changed generalizing committed working with
  | nil => exact ⟨fun none => absurd none List.not_mem_nil, fun _ => ⟨rfl, rfl⟩⟩
  | cons rel rest ih =>
      rw [indexFiles] at done ⊢
      cases found : indexFile cfg run rel working with
      | none =>
          rw [found] at done
          cases done
      | some next =>
          rw [found] at done
          obtain ⟨inside, outside⟩ := ih (indexFile_keyed keyed found) done
          simp only
          by_cases later : p ∈ rest
          · exact ⟨fun _ => inside later, fun away => absurd (List.mem_cons_of_mem _ later) away⟩
          · obtain ⟨document, rows⟩ := outside later
            rw [document, rows]
            refine ⟨fun held => ?_, fun away => ?_⟩
            · rw [(List.mem_cons.mp held).resolve_right later]
              exact indexFile_self found
            · exact indexFile_other keyed found fun here => away (here ▸ List.mem_cons_self)

/-- Files that can be chunked and embedded are all indexed by a server that does not fail. -/
theorem indexFiles_up (up : ∀ p i, run.fails p i = false) (changed : List Str)
    {committed working : Db Hash Emb}
    (each : ∀ rel ∈ changed, ∃ rows, Rows cfg rel (run.tree.bytes rel) rows) :
    (indexFiles cfg run committed working changed).2 = true := by
  induction changed generalizing committed working with
  | nil => rfl
  | cons rel rest ih =>
      obtain ⟨_, chunks, split, ⟨_, _, answered⟩, -⟩ := each rel List.mem_cons_self
      obtain ⟨embeddings, again⟩ := embed_again (up rel) answered
      rw [indexFiles]
      simp only [indexFile, split, again, Option.bind_eq_bind, Option.bind_some, Option.pure_def]
      exact ih fun r later => each r (List.mem_cons_of_mem _ later)

theorem start_good {all : Set Bytes} {db : Db Hash Emb} (good : run.rebuild = false → Good cfg all db) :
    Good cfg all (if run.rebuild then Db.empty else db) := by
  split_ifs with rebuild
  · exact empty_good all
  · exact good (Bool.eq_false_iff.mpr rebuild)

/-- The tables hold these files with their rows, and nothing else. -/
def Exact (cfg : Config Hash Emb) (tree : Tree) (files : List Str) (db : Db Hash Emb) (p : Str) : Prop :=
  (p ∈ files → db.documents p = some (cfg.sha256 (tree.bytes p)) ∧
      Rows cfg p (tree.bytes p) (db.rowsOf p)) ∧
    (p ∉ files → db.documents p = none ∧ db.rowsOf p = fun _ => none)

theorem Exact.unique {tree : Tree} {files : List Str} {db db' : Db Hash Emb}
    (left : ∀ p, Exact cfg tree files db p) (right : ∀ p, Exact cfg tree files db' p) : db = db' := by
  have each : ∀ p, db.documents p = db'.documents p ∧ db.rowsOf p = db'.rowsOf p := by
    intro p
    by_cases held : p ∈ files
    · obtain ⟨document, rows⟩ := (left p).1 held
      obtain ⟨document', rows'⟩ := (right p).1 held
      exact ⟨document.trans document'.symm, rows.unique rows'⟩
    · obtain ⟨document, rows⟩ := (left p).2 held
      obtain ⟨document', rows'⟩ := (right p).2 held
      exact ⟨document.trans document'.symm, rows.trans rows'.symm⟩
  exact Db.eq_of_rowsOf (fun p => (each p).1) fun p => (each p).2

end Good

/-! ## Runs -/

section Runs

variable {Hash Emb : Type} [DecidableEq Hash] (cfg : Config Hash Emb)

/-- The contents of the files that a run sees. -/
def contents (run : Run) : Set Bytes :=
  {b | ∃ files, discoverFiles cfg run.tree run.subdir = some files ∧ ∃ p ∈ files, run.tree.bytes p = b}

/-- The contents that some run of a list sees. -/
def seen (runs : List Run) : Set Bytes := {b | ∃ run ∈ runs, b ∈ contents cfg run}

variable {cfg} {run : Run} {db : Db Hash Emb}

/-- Every run, aborted or not, keeps the tables good. -/
theorem main_good {all : Set Bytes} (good : Good cfg all db) (more : contents cfg run ⊆ all) :
    Good cfg all (main cfg run db).1 := by
  have start : Good cfg all (if run.rebuild then Db.empty else db) := start_good fun _ => good
  simp only [main]
  generalize (if run.rebuild then Db.empty else db) = db at start ⊢
  cases found : discoverFiles cfg run.tree run.subdir with
  | none => exact start
  | some files =>
      simp only
      split_ifs
      · exact start
      · refine indexFiles_good _ start (remove_good _ start) fun rel held => more ?_
        exact ⟨files, found, rel, (List.mem_filter.mp held).1, rfl⟩

theorem history_good (runs : List Run) : Good cfg (seen cfg runs) (history cfg runs) := by
  have general : ∀ (all : Set Bytes) (rest : List Run) (db : Db Hash Emb), Good cfg all db →
      (∀ run ∈ rest, contents cfg run ⊆ all) →
      Good cfg all (rest.foldl (fun db run => (main cfg run db).1) db) := by
    intro all rest
    induction rest with
    | nil => exact fun db good _ => good
    | cons run rest ih =>
        intro db good within
        exact ih _ (main_good good (within run List.mem_cons_self))
          fun r later => within r (List.mem_cons_of_mem _ later)
  exact general _ runs _ (empty_good _) fun run held b here => ⟨run, held, here⟩

/-- A full run removes the files that are gone, and indexes those that are new or changed. -/
theorem main_full (full : run.subdir = []) (wet : run.dryRun = false) {files : List Str}
    (found : discoverFiles cfg run.tree [] = some files) :
    let start := if run.rebuild then Db.empty else db
    main cfg run db = indexFiles cfg run start
      (start.remove fun p => (start.documents p).isSome && !files.contains p)
      (files.filter fun rel => decide (start.documents rel ≠ some (cfg.sha256 (run.tree.bytes rel)))) := by
  simp only [main, full, found, wet, Bool.false_eq_true, if_false, beq_self_eq_true, Bool.true_or,
    Bool.and_true]
  generalize (if run.rebuild then Db.empty else db) = start
  congr 2
  funext p
  by_cases held : p ∈ files
  · by_cases same : start.documents p = some (cfg.sha256 (run.tree.bytes p)) <;> simp [held, same]
  · simp [held]

theorem full_exact {all : Set Bytes} {committed : Db Hash Emb} {files : List Str}
    (good : Good cfg all db) (free : Set.InjOn cfg.sha256 all)
    (held : ∀ p ∈ files, run.tree.bytes p ∈ all) :
    let left := indexFiles cfg run committed
      (db.remove fun p => (db.documents p).isSome && !files.contains p)
      (files.filter fun rel => decide (db.documents rel ≠ some (cfg.sha256 (run.tree.bytes rel))))
    left.2 = true → ∀ p, Exact cfg run.tree files left.1 p := by
  intro left done p
  obtain ⟨inside, outside⟩ := indexFiles_done _ (remove_good _ good).keyed done p
  rw [remove_rowsOf] at outside
  change _ → _ = (if _ then none else db.documents p) ∧ _ at outside
  simp only [List.mem_filter, decide_eq_true_eq, not_and, not_not] at inside outside
  have file := good.files p
  constructor
  · intro here
    have keeps : ¬ ((db.documents p).isSome && !files.contains p) = true := by simp [here]
    rw [if_neg keeps, if_neg keeps] at outside
    by_cases same : db.documents p = some (cfg.sha256 (run.tree.bytes p))
    · -- the hash is that of the contents the rows were made from
      obtain ⟨document, rows⟩ := outside fun _ => same
      rw [same] at document file
      obtain ⟨b, before, hash, fresh⟩ := file
      rw [free before (held p here) hash] at fresh
      exact ⟨document, by rw [rows]; exact fresh⟩
    · exact inside ⟨here, same⟩
  · intro away
    obtain ⟨document, rows⟩ := outside fun here => absurd here away
    rw [document, rows]
    split_ifs with gone
    · exact ⟨rfl, rfl⟩
    · have unknown : db.documents p = none := by simpa [away] using gone
      rw [unknown] at file
      exact ⟨unknown, file⟩

/-- A full run that ends leaves exactly the files it saw. -/
theorem main_exact {all : Set Bytes} (good : run.rebuild = false → Good cfg all db) (free : Set.InjOn cfg.sha256 all)
    (more : contents cfg run ⊆ all) (full : run.subdir = []) (wet : run.dryRun = false)
    (done : (main cfg run db).2 = true) :
    ∃ files, discoverFiles cfg run.tree [] = some files ∧
      ∀ p, Exact cfg run.tree files (main cfg run db).1 p := by
  cases found : discoverFiles cfg run.tree [] with
  | none =>
      simp only [main, full, found] at done
      cases done
  | some files =>
      refine ⟨files, rfl, ?_⟩
      rw [main_full full wet found] at done ⊢
      have held : ∀ p ∈ files, run.tree.bytes p ∈ all :=
        fun p held => more ⟨files, full ▸ found, p, held, rfl⟩
      exact full_exact (start_good good) free held done

theorem main_up (up : ∀ p i, run.fails p i = false) (full : run.subdir = [])
    (wet : run.dryRun = false) {files : List Str}
    (found : discoverFiles cfg run.tree [] = some files)
    (each : ∀ p ∈ files, ∃ rows, Rows cfg p (run.tree.bytes p) rows) : (main cfg run db).2 = true := by
  rw [main_full full wet found]
  exact indexFiles_up up _ fun p held => each p (List.mem_filter.mp held).1

/-- A rebuild ends when no request fails, and whenever it ends it leaves these tables. -/
theorem rebuild_exact {files : List Str} {left : Db Hash Emb} (rebuild : run.rebuild = true)
    (full : run.subdir = []) (wet : run.dryRun = false)
    (found : discoverFiles cfg run.tree [] = some files)
    (free : Set.InjOn cfg.sha256 (contents cfg run)) (exact : ∀ p, Exact cfg run.tree files left p) :
    ((∀ p i, run.fails p i = false) → (main cfg run db).2 = true) ∧
      ((main cfg run db).2 = true → (main cfg run db).1 = left) := by
  constructor
  · exact fun up => main_up up full wet found fun p held => ⟨_, ((exact p).1 held).2⟩
  · intro done
    have fresh : run.rebuild = false → Good cfg (contents cfg run) db := by
      rw [rebuild]
      exact nofun
    obtain ⟨files', found', exact'⟩ := main_exact fresh free subset_rfl full wet done
    cases Option.some.inj (found'.symm.trans found)
    exact Exact.unique exact' exact

/-- After any runs, a full run that ends leaves the tables of a rebuild: the rebuild ends when
no request fails, and whenever it ends its tables are the same. -/
theorem index_eq_rebuild (cfg : Config Hash Emb) (runs : List Run) (last : Run)
    (free : Set.InjOn cfg.sha256 (seen cfg (last :: runs))) (full : last.subdir = [])
    (wet : last.dryRun = false) (done : (main cfg last (history cfg runs)).2 = true)
    (db : Db Hash Emb) (fails : Str → Nat → Bool) :
    let again := main cfg { last with rebuild := true, fails } db
    ((∀ p i, fails p i = false) → again.2 = true) ∧
      (again.2 = true → again.1 = (main cfg last (history cfg runs)).1) := by
  have here : contents cfg last ⊆ seen cfg (last :: runs) :=
    fun b held => ⟨last, List.mem_cons_self, held⟩
  have before : seen cfg runs ⊆ seen cfg (last :: runs) :=
    fun b ⟨run, held, seen⟩ => ⟨run, List.mem_cons_of_mem _ held, seen⟩
  have good := (history_good runs).mono before
  obtain ⟨files, found, exact⟩ := main_exact (fun _ => good) free here full wet done
  let again : Run := { last with rebuild := true, fails }
  have rebuild : again.rebuild = true := rfl
  exact rebuild_exact rebuild full wet found (free.mono here) exact

/-- Small chunks, and contents for their own hash. -/
def sampleConfig : Config Bytes Nat where
  textExtensions := [".md".toList]
  maxChunk := 4
  overlap := 1
  batchSize := 1
  suffix := fun p => p.dropWhile (· != '.')
  isUtf8 := fun bytes => bytes.all fun b => decide (b.toNat < 128)
  readText := fun bytes => bytes.map fun b => Char.ofNat b.toNat
  sha256 := id
  embedding := List.length

def sampleRun (files : List (Str × Bytes)) (subdir : Str) (down : Option Str) : Run where
  tree.entries dir := some ((files.map Prod.fst).filter dir.isPrefixOf)
  tree.bytes p := (files.lookup p).getD []
  subdir := subdir
  fails p _ := down == some p

/-- A run that fails at its second file, a run of the directory of that file, and a full run
that sees a shorter file, a new one, and not the other one any more. -/
theorem index_eq_rebuild_sample :
    let runs :=
      [sampleRun [("a.md".toList, [97, 98, 99, 100, 101]), ("d/b.md".toList, [98])] []
          (some "d/b.md".toList),
        sampleRun [("d/b.md".toList, [99])] "d".toList none]
    let last := sampleRun [("a.md".toList, [97]), ("c.md".toList, [99])] [] none
    (main sampleConfig { last with rebuild := true, fails := fun _ _ => false } Db.empty).1 =
      (main sampleConfig last (history sampleConfig runs)).1 := by
  intro runs last
  have found : discoverFiles sampleConfig last.tree [] = some ["a.md".toList, "c.md".toList] := by
    have sorted : ["a.md".toList, "c.md".toList].Pairwise fun a b => decide (a ≤ b) = true := by decide
    rw [discoverFiles]
    exact congrArg some (List.mergeSort_of_pairwise sorted)
  have done : ∀ db, (main sampleConfig last db).2 = true := by
    intro db
    refine main_up (fun _ _ => rfl) rfl rfl found ?_
    intro p held
    rcases List.mem_pair.mp held with rfl | rfl
    · exact ⟨_, ["a".toList], by decide, ⟨fun _ => false, [1], by decide⟩, rfl⟩
    · exact ⟨_, ["c".toList], by decide, ⟨fun _ => false, [1], by decide⟩, rfl⟩
  have rebuilt := index_eq_rebuild sampleConfig runs last (Function.injective_id.injOn) rfl rfl
    (done _) Db.empty fun _ _ => false
  exact rebuilt.2 (rebuilt.1 fun _ _ => rfl)

end Runs

end NpcMachine.Search
