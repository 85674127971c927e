import AlgorithmTrainer.Database.Queue

/-!
# `Database.Indexes` — rows that are too long for an index

A B-tree index holds rows up to a length, header and padding included, and PostgreSQL refuses a statement that
would write a longer one. How long an index row is depends on how far PostgreSQL can compress its texts, so
which rows are short enough is a parameter (`Btree`); `uncompressed` is what it comes to where no text can be
compressed.

`serveIndexed` is the server with its indexes. A refusal is one of the failures that `serve` allows for
(`run_serveIndexed`), so that what holds whatever fails holds with the indexes as well; a statement about what
succeeds has to look at the index rows.
-/

namespace AlgorithmTrainer

open Interaction Relational

/-! ## Index rows -/

/-- The value of an index column. -/
inductive IndexValue where
  | null
  | text (value : String)
  | bigint (value : Int)
  | boolean (value : Bool)
  | timestamptz (value : Timestamp)
deriving DecidableEq

abbrev IndexRow := List IndexValue

/-- A column that may be `NULL`. -/
def IndexValue.nullable {α : Type} (build : α → IndexValue) : Option α → IndexValue
  | none => .null
  | some a => build a

/-- The row of `submissions_user_problem_created_index`. -/
def SubmissionRow.userProblemCreated (r : SubmissionRow) : IndexRow :=
  [.nullable .bigint r.userId, .text r.problemId, .timestamptz r.createdAt]

/-- The row of `submissions_admin_filter_index`. -/
def SubmissionRow.adminFilter (r : SubmissionRow) : IndexRow :=
  [.text r.status, .nullable .text r.errorType, .text r.language, .text r.problemId,
    .nullable .bigint r.userId, .timestamptz r.createdAt]

def SubmissionRow.indexRows (r : SubmissionRow) : List IndexRow := [r.userProblemCreated, r.adminFilter]

/-- The row of `users_username_lower_unique`. -/
def UserRow.indexRows (P : Platform) (u : UserRow) : List IndexRow := [[.text (P.lower u.username)]]

/-- That of the unique constraint. -/
def SessionRow.indexRows (s : SessionRow) : List IndexRow := [[.text s.tokenHash]]

/-- That of the primary key. -/
def ProblemRow.indexRows (p : ProblemRow) : List IndexRow := [[.text p.id]]

/-- Those of the unique constraint and of `problem_tests_problem_position_index`. -/
def ProblemTestRow.indexRows (t : ProblemTestRow) : List IndexRow :=
  [[.text t.problemId, .bigint t.position], [.text t.problemId, .boolean t.enabled, .bigint t.position]]

/-- The rows of the indexes on texts. The others have rows of a fixed length. -/
def Database.indexRows (P : Platform) (db : Database) : List IndexRow :=
  db.users.rows.flatMap (UserRow.indexRows P) ++ db.sessions.rows.flatMap SessionRow.indexRows
    ++ db.problems.rows.flatMap ProblemRow.indexRows ++ db.problemTests.rows.flatMap ProblemTestRow.indexRows
    ++ db.submissions.rows.flatMap SubmissionRow.indexRows

/-- Whether PostgreSQL has room for an index row. -/
abbrev Btree := IndexRow → Bool

/-- Of a state that a call would lead to, each index row that was not there before is short enough. -/
def Database.fits (P : Platform) (btree : Btree) (db db' : Database) : Bool :=
  (db'.indexRows P).all fun row => btree row || (db.indexRows P).contains row

/-- PostgreSQL has room for the index rows of the submission. -/
def SubmissionRow.Fits (btree : Btree) (r : SubmissionRow) : Prop := ∀ row ∈ r.indexRows, btree row = true

section rows
variable {P : Platform} {btree : Btree} {db db' : Database}

theorem Database.fits_iff : db.fits P btree db' = true ↔
    ∀ row ∈ db'.indexRows P, btree row = true ∨ row ∈ db.indexRows P := by
  simp [Database.fits]

theorem Database.fits_self : db.fits P btree db = true :=
  Database.fits_iff.mpr fun _ hrow => Or.inr hrow

/-- Where only submissions are written, only their index rows are looked at. -/
theorem Database.fits_of_submissions (husers : db'.users = db.users) (hsessions : db'.sessions = db.sessions)
    (hproblems : db'.problems = db.problems) (htests : db'.problemTests = db.problemTests)
    (h : ∀ r ∈ db'.submissions, r ∈ db.submissions ∨ r.Fits btree) :
    db.fits P btree db' = true := by
  refine Database.fits_iff.mpr fun row hrow => ?_
  unfold Database.indexRows at hrow ⊢
  rw [husers, hsessions, hproblems, htests] at hrow
  rcases List.mem_append.mp hrow with hrow | hrow
  · exact Or.inr (List.mem_append_left _ hrow)
  · obtain ⟨r, hr, hrow⟩ := List.mem_flatMap.mp hrow
    rcases h r hr with hold | hfits
    · exact Or.inr (List.mem_append_right _ (List.mem_flatMap.mpr ⟨r, hold, hrow⟩))
    · exact Or.inl (hfits row hrow)

/-- An update writes the rows that it selects. -/
theorem Database.fits_update {p : SubmissionRow → Bool} {f : SubmissionRow → SubmissionRow}
    {hf : ∀ r, p r = true → Keyed.key (f r) = Keyed.key r}
    (h : ∀ r ∈ db.submissions, p r = true → (f r).Fits btree) :
    db.fits P btree { db with submissions := db.submissions.update p f hf } = true := by
  refine Database.fits_of_submissions rfl rfl rfl rfl fun x hx => ?_
  obtain ⟨r, hr, rfl⟩ := (Table.mem_update hf).mp hx
  split
  · rename_i hp
    exact Or.inr (h r hr hp)
  · exact Or.inl hr

/-- A locked statement writes what it plans. -/
theorem Database.fits_locked {s : LockedStatement} {c : Choice}
    (h : ∀ e rows, (s.plan c.lockedRows db).2 = .ok (e, rows) →
      ∀ r, e.inserted = some r ∨ e.updated = some r → r.Fits btree) :
    db.fits P btree (serveLocked s c db).2 = true := by
  have hplanned : db.fits P btree (s.plan c.lockedRows db).1 = true := by
    rw [plan_frame]
    exact Database.fits_of_submissions rfl rfl rfl rfl fun _ hr => Or.inl hr
  rcases serveLocked_cases s c db with ⟨hsame, -⟩ | ⟨hdrawn, -⟩ | ⟨-, -, hdrawn, -⟩ | ⟨e, rows, hplan, -, heq⟩
  · rw [hsame]
    exact Database.fits_self
  · rw [hdrawn]
    exact hplanned
  · rw [hdrawn]
    exact hplanned
  · rw [heq, plan_frame]
    refine Database.fits_of_submissions rfl rfl rfl rfl fun r hr => ?_
    have hwritten := h e rows hplan
    obtain ⟨inserted, updated, audited⟩ := e
    -- It is an old row, the inserted one, or the updated one.
    have hinserted : ∀ x ∈ inserted.elim db.submissions db.submissions.insert,
        x ∈ db.submissions ∨ x.Fits btree := by
      intro x hx
      cases inserted with
      | none => exact Or.inl hx
      | some y =>
          rcases Table.mem_insert.mp hx with hx | ⟨rfl, -⟩
          · exact Or.inl hx
          · exact Or.inr (hwritten _ (Or.inl rfl))
    cases updated with
    | none => exact hinserted r hr
    | some y =>
        rcases Table.mem_put.mp hr with ⟨hr, -⟩ | ⟨rfl, -⟩
        · exact hinserted r hr
        · exact Or.inr (hwritten _ (Or.inr rfl))

end rows

/-! ## The server with its indexes -/

/-- The choice of a statement that fails. The id that an insertion has drawn by then is left out. -/
def Choice.refused (c : Choice) : Choice := { c with failure := some .statement }

/-- What becomes of a choice where the indexes have a say. -/
def Choice.indexed (P : Platform) (btree : Btree) (q : BackendRequest) (c : Choice) (db : Database) : Choice :=
  if db.fits P btree (serve P q c db).2 then c else c.refused

/-- The surroundings, where the server refuses an index row that is too long. -/
def serveIndexed (P : Platform) (btree : Btree) : Service Backend Choice Database := fun q c db =>
  serve P q (c.indexed P btree q db) db

section server
variable {P : Platform} {btree : Btree} {q : BackendRequest} {c : Choice} {db : Database}

theorem serveIndexed_of_fits (h : db.fits P btree (serve P q c db).2 = true) :
    serveIndexed P btree q c db = serve P q c db := by
  unfold serveIndexed Choice.indexed
  rw [if_pos h]

theorem serveIndexed_of_not_fits (h : db.fits P btree (serve P q c db).2 = false) :
    serveIndexed P btree q c db = serve P q c.refused db := by
  unfold serveIndexed Choice.indexed
  rw [if_neg (by rw [h]; decide)]

/-- A program whose first call is not refused runs as it does without the indexes, if what is left of it does. -/
theorem run_indexed_of_fits {α : Type} {k : Backend.Reply q → Call α} {w : World Choice Database}
    (h : w.state.fits P btree (serve P q (w.choices 0) w.state).2 = true)
    (hk : ∀ r v, (k r).run (serveIndexed P btree) v = (k r).run (serve P) v) :
    Program.run (serveIndexed P btree) (.call q k) w = Program.run (serve P) (.call q k) w := by
  rw [Program.run_call, Program.run_call, serveIndexed_of_fits h]
  exact hk _ _

/-- The surroundings of a call that is refused. -/
def refusedFirst (w : World Choice Database) : World Choice Database where
  choices
    | 0 => (w.choices 0).refused
    | n + 1 => w.choices (n + 1)
  state := w.state

/-- A program of one call that is refused runs as it does where that call fails. -/
theorem run_indexed_of_not_fits {α : Type} {k : Backend.Reply q → Call α} {w : World Choice Database}
    (h : w.state.fits P btree (serve P q (w.choices 0) w.state).2 = false)
    (hk : ∀ r v, (k r).run (serveIndexed P btree) v = (k r).run (serve P) v) :
    Program.run (serveIndexed P btree) (.call q k) w = Program.run (serve P) (.call q k) (refusedFirst w) := by
  rw [Program.run_call, Program.run_call, serveIndexed_of_not_fits h]
  exact hk _ _

theorem Choice.indexed_or : c.indexed P btree q db = c ∨ c.indexed P btree q db = c.refused := by
  unfold Choice.indexed
  split
  · exact Or.inl rfl
  · exact Or.inr rfl

/-- **A refusal is a failure.** A run with the indexes is a run without them in which some calls fail. -/
theorem run_serveIndexed {α : Type} (p : Call α) (w : World Choice Database) :
    ∃ choices : Nat → Choice, (∀ n, choices n = w.choices n ∨ choices n = (w.choices n).refused) ∧
      (p.run (serveIndexed P btree) w).1 = (p.run (serve P) ⟨choices, w.state⟩).1 ∧
      (p.run (serveIndexed P btree) w).2.state = (p.run (serve P) ⟨choices, w.state⟩).2.state :=
  Program.run_rechosen (R := fun c c' => c' = c ∨ c' = c.refused) (fun _ _ _ => Choice.indexed_or)
    (fun _ => Or.inl rfl) p w

end server

/-! ## Without compression -/

/-- The number of bytes that a row of a B-tree index can take. -/
def indexEntryLimit : Nat := 2704

/-- The next multiple of an alignment. -/
def aligned (alignment size : Nat) : Nat := (size + alignment - 1) / alignment * alignment

/-- The size of the columns so far, with another one: a text takes one byte more than its length if it is
    short, and four otherwise. -/
def IndexValue.extend (size : Nat) : IndexValue → Nat
  | .null => size
  | .text value =>
      if byteSize value ≤ 126 then size + byteSize value + 1 else aligned 4 size + byteSize value + 4
  | .bigint _ | .timestamptz _ => aligned 8 size + 8
  | .boolean _ => size + 1

/-- The size of an index row of which no text is compressed. The header of a row with a `NULL` is longer. -/
def indexRowSize (row : IndexRow) : Nat :=
  aligned 8 ((if row.contains .null then 16 else 8) + row.foldl IndexValue.extend 0)

/-- The indexes, where no text can be compressed. -/
def uncompressed : Btree := fun row => decide (indexRowSize row ≤ indexEntryLimit)

section sizes

theorem le_aligned (alignment size : Nat) (h : 0 < alignment) : size ≤ aligned alignment size := by
  have hrest := Nat.mod_lt (size + alignment - 1) h
  have hsplit := Nat.div_add_mod' (size + alignment - 1) alignment
  unfold aligned
  omega

theorem IndexValue.le_extend (size : Nat) (v : IndexValue) : size ≤ v.extend size := by
  have h4 := le_aligned 4 size (by decide)
  have h8 := le_aligned 8 size (by decide)
  cases v with
  | null => exact Nat.le_refl size
  | text value =>
      simp only [IndexValue.extend]
      split <;> omega
  | bigint | timestamptz =>
      simp only [IndexValue.extend]
      omega
  | boolean => exact Nat.le_succ size

theorem le_foldl_extend (size : Nat) (row : IndexRow) : size ≤ row.foldl IndexValue.extend size := by
  induction row generalizing size with
  | nil => exact Nat.le_refl size
  | cons v row ih => exact (v.le_extend size).trans (ih _)

theorem byteSize_le_foldl {value : String} {row : IndexRow} (h : .text value ∈ row) (size : Nat) :
    byteSize value ≤ row.foldl IndexValue.extend size := by
  induction row generalizing size with
  | nil => cases h
  | cons v row ih =>
      rcases List.mem_cons.mp h with rfl | h
      · refine Nat.le_trans ?_ (le_foldl_extend _ row)
        have h4 := le_aligned 4 size (by decide)
        simp only [IndexValue.extend]
        split <;> omega
      · exact ih h _

/-- A text that is longer than the limit does not fit. -/
theorem uncompressed_long {value : String} {row : IndexRow} (h : .text value ∈ row)
    (hlong : indexEntryLimit < byteSize value) : uncompressed row = false := by
  have htext := byteSize_le_foldl h 0
  have hrow := le_aligned 8 ((if row.contains .null then 16 else 8) + row.foldl IndexValue.extend 0)
    (by decide)
  unfold uncompressed indexRowSize
  rw [decide_eq_false_iff_not]
  omega

end sizes

end AlgorithmTrainer
