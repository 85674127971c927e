import AlgorithmTrainer.Problem.Repository
import AlgorithmTrainer.Sqlite.Repository

/-!
# `Sqlite.Problems` — `SQLiteProblemRepository`

The tables `problems` and `problem_tests`, as the migrations `007` and `008` leave them, with the statements
that the repository writes a problem and its hidden tests with and reads them back. A text is bound with its
length, and read back as a C string; a list is stored as JSON text, which the JSON library writes and parses
(`JsonText`).
-/

namespace AlgorithmTrainer

open Interaction Relational

/-! ## Rows -/

structure SqliteProblemRow where
  id : String
  title : String
  description : String
  inputFormat : String
  outputFormat : String
  difficulty : String
  tagsJson : String
  languagesJson : String
  examplesJson : String
  enabled : Bool
  createdAt : String
  updatedAt : String
  revision : Int
deriving DecidableEq

structure SqliteProblemTestRow where
  id : Int
  problemId : String
  input : String
  expectedOutput : String
  position : Int
  enabled : Bool
  revision : Int
deriving DecidableEq

instance : Keyed SqliteProblemRow String := ⟨SqliteProblemRow.id⟩
instance : Keyed SqliteProblemTestRow Int := ⟨SqliteProblemTestRow.id⟩

/-- The `CHECK` constraint of `difficulty`. -/
def SqliteProblemRow.check (r : SqliteProblemRow) : Bool :=
  r.difficulty == "Easy" || r.difficulty == "Medium" || r.difficulty == "Hard"

/-- The tables, with the next id of a hidden test. A hidden test belongs to a problem that is there, and its
    id has been drawn. -/
structure SqliteCatalog where
  problems : Table SqliteProblemRow
  problemTests : Table SqliteProblemTestRow
  nextTest : Int
  references : ∀ t ∈ problemTests, ∃ r ∈ problems, r.id = t.problemId
  drawn : ∀ t ∈ problemTests, t.id < nextTest

/-- The migrated tables. -/
def SqliteCatalog.initial : SqliteCatalog where
  problems := .empty
  problemTests := .empty
  nextTest := 1
  references t ht := absurd ht (Table.not_mem_empty t)
  drawn t ht := absurd ht (Table.not_mem_empty t)

namespace SqliteCatalog

/-- Insert a problem, unless it violates a constraint. -/
def insertProblem (db : SqliteCatalog) (row : SqliteProblemRow) : Option SqliteCatalog :=
  if row.check = true ∧ db.problems.count (·.id == row.id) = 0 then
    some { db with
      problems := db.problems.insert row
      references := fun t ht => by
        obtain ⟨r, hr, hid⟩ := db.references t ht
        exact ⟨r, Table.mem_insert_of_mem hr, hid⟩ }
  else none

/-- Insert a hidden test under the next id, unless it violates a constraint: there is the problem, and none of
    its tests is at this position. -/
def insertTest (db : SqliteCatalog) (problemId input expectedOutput : String) (position : Int)
    (enabled : Bool) : Option SqliteCatalog :=
  if h : db.problems.count (·.id == problemId) ≠ 0
      ∧ db.problemTests.count (fun t => t.problemId == problemId && t.position == position) = 0 then
    some { db with
      problemTests := db.problemTests.insert
        ⟨db.nextTest, problemId, input, expectedOutput, position, enabled, 1⟩
      nextTest := db.nextTest + 1
      references := fun t ht => by
        rcases Table.mem_insert.mp ht with ht | ⟨rfl, -⟩
        · exact db.references t ht
        · by_contra hnone
          refine h.1 (Table.count_eq_zero.mpr fun r hr => ?_)
          exact beq_eq_false_iff_ne.mpr fun hid => hnone ⟨r, hr, hid⟩
      drawn := fun t ht => by
        rcases Table.mem_insert.mp ht with ht | ⟨rfl, -⟩
        · have hdrawn := db.drawn t ht
          omega
        · exact Int.lt_succ_self _ }
  else none

end SqliteCatalog

/-- `ORDER BY position, id`. -/
def SqliteProblemTestRow.inOrder (a b : SqliteProblemTestRow) : Bool :=
  decide (a.position < b.position) || (a.position == b.position && decide (a.id ≤ b.id))

/-! ## Statements -/

/-- What `create` binds. -/
structure SqliteProblemParameters where
  id : String
  title : String
  description : String
  inputFormat : String
  outputFormat : String
  difficulty : String
  tagsJson : String
  languagesJson : String
  examplesJson : String
  enabled : Bool

inductive SqliteProblemStatement where
  | insertProblem (p : SqliteProblemParameters)
  | selectProblem (id : String)
  | insertTest (problemId input expectedOutput : String) (position : Int) (enabled : Bool)
  | selectTests (problemId : String) (onlyEnabled : Bool)

/-- What a statement returns; the insert of a hidden test returns its id. -/
@[reducible] def SqliteProblemStatement.Row : SqliteProblemStatement → Type
  | .insertProblem _ => Unit
  | .selectProblem _ => SqliteProblemRow
  | .insertTest .. => Int
  | .selectTests .. => SqliteProblemTestRow

/-- Execute a statement at a time: its rows and the tables it leaves, or nothing where it violates a
    constraint. -/
def SqliteProblemStatement.exec (now : String) :
    (s : SqliteProblemStatement) → SqliteCatalog → Option (List s.Row × SqliteCatalog)
  | .insertProblem p, db =>
      (db.insertProblem ⟨p.id, p.title, p.description, p.inputFormat, p.outputFormat, p.difficulty,
        p.tagsJson, p.languagesJson, p.examplesJson, p.enabled, now, now, 1⟩).map fun db => ([], db)
  | .selectProblem id, db => some (db.problems.select (·.id == id), db)
  | .insertTest problemId input expectedOutput position enabled, db =>
      (db.insertTest problemId input expectedOutput position enabled).map fun db' =>
        ([db.nextTest], db')
  | .selectTests problemId onlyEnabled, db =>
      some (orderBy SqliteProblemTestRow.inOrder (db.problemTests.select fun t =>
        t.problemId == problemId && (!onlyEnabled || t.enabled)), db)

@[reducible] def SqliteProblems : Signature := ⟨SqliteProblemStatement, fun s => Stepped s.Row⟩

/-- The connection's tables and the time. -/
structure SqliteProblemState where
  db : SqliteCatalog
  clock : Timestamp

/-- SQLite, one statement at a time. -/
def serveSqliteProblems (strftime : Timestamp → String) :
    Service SqliteProblems SqliteChoice SqliteProblemState := fun s c state =>
  match c.fault with
  | some .prepare => (.unprepared c.message, state)
  | some .step => (.error c.message, state)
  | none =>
      match s.exec (strftime state.clock) state.db with
      | some (rows, db) => (.rows rows, { state with db := db })
      | none => (.error c.message, state)

/-! ## The member functions -/

/-- What the JSON library makes of a value, and of a text. -/
structure JsonText where
  writeString : Json → String
  parseFromStream : String → Option Json

abbrev SqliteProblemCall := Program SqliteProblems Exception

namespace SQLiteProblemRepository

def step (s : SqliteProblemStatement) : SqliteProblemCall (Stepped s.Row) :=
  .ask (S := SqliteProblems) s

/-- `column_text`, which takes what SQLite returns as a C string. -/
def columnText (value : String) : String := cStr value

/-- `parse_difficulty` compares as `difficulty` does. -/
def parseDifficulty (value : String) : Option ProblemDifficulty := PostgreSQLProblemRepository.difficulty value

variable (J : JsonText)

/-- What `create` binds of a problem. -/
def parameters (problem : Problem) : SqliteProblemParameters where
  id := problem.id
  title := problem.title
  description := problem.description
  inputFormat := problem.inputFormat
  outputFormat := problem.outputFormat
  difficulty := difficultyName problem.difficulty
  tagsJson := J.writeString (Json.strings problem.tags)
  languagesJson := J.writeString (Json.strings problem.languages)
  examplesJson := J.writeString (.array (problem.examples.map exampleToJson))
  enabled := problem.enabled

/-- `read_problem` without the hidden tests. -/
def problemOfRow (row : SqliteProblemRow) : PostgreSQLProblemRepository.Read Problem :=
  match parseDifficulty (columnText row.difficulty), J.parseFromStream (columnText row.tagsJson),
      J.parseFromStream (columnText row.languagesJson), J.parseFromStream (columnText row.examplesJson) with
  | some difficulty, some (.array tags), some (.array languages), some (.array examples) => do
      let tags ← (tags.mapM Json.asString : Except Exception (List String))
      let languages ← (languages.mapM Json.asString : Except Exception (List String))
      let examples ← examples.mapM PostgreSQLProblemRepository.readExample
      pure { id := columnText row.id, title := columnText row.title,
             description := columnText row.description, inputFormat := columnText row.inputFormat,
             outputFormat := columnText row.outputFormat, difficulty := difficulty, tags := tags,
             languages := languages, examples := examples, enabled := row.enabled,
             revision := row.revision }
  | _, _, _, _ => throw ⟨"Database contains invalid problem metadata"⟩

def testOfRow (row : SqliteProblemTestRow) : ProblemTestCase where
  input := columnText row.input
  expectedOutput := columnText row.expectedOutput
  id := row.id
  position := row.position
  enabled := row.enabled
  revision := row.revision

/-- `read_problem` with the hidden tests. -/
def readProblem (row : SqliteProblemRow) (includeDisabledTests : Bool) :
    SqliteProblemCall (Except ProblemRepositoryError Problem) :=
  match (problemOfRow J row).run with
  | .error exception => throw exception
  | .ok (.error error) => pure (.error error)
  | .ok (.ok problem) => do
      let tests ← step (.selectTests problem.id !includeDisabledTests)
      match tests with
      | .unprepared _ => pure (.error ⟨"Could not prepare hidden-test lookup"⟩)
      | .rows rows => pure (.ok { problem with hiddenTests := rows.map testOfRow })
      | .error _ => pure (.error ⟨"Could not retrieve hidden tests"⟩)

/-- `find_for_judging` and `find_any`, which call what they look up by different names. -/
def find (name id : String) (includeDisabledTests : Bool) :
    SqliteProblemCall (Except ProblemRepositoryError (Option Problem)) := do
  let result ← step (.selectProblem id)
  match result with
  | .unprepared _ => pure (.error ⟨"Could not prepare " ++ name ++ " lookup"⟩)
  | .rows [] => pure (.ok none)
  | .rows (row :: _) => do
      let problem ← readProblem J row includeDisabledTests
      pure (problem.map some)
  | .error _ => pure (.error ⟨"Could not retrieve " ++ name⟩)

def findForJudging (id : String) : SqliteProblemCall (Except ProblemRepositoryError (Option Problem)) :=
  find J "judge problem" id false

def findAny (id : String) : SqliteProblemCall (Except ProblemRepositoryError (Option Problem)) :=
  find J "admin problem" id true

def create (problem : Problem) : SqliteProblemCall (Except ProblemRepositoryError Problem) := do
  let result ← step (.insertProblem (parameters J problem))
  match result with
  | .unprepared _ => pure (.error ⟨"Could not prepare problem creation"⟩)
  | .rows [] => pure (.ok problem)
  | .rows (_ :: _) | .error _ => pure (.error ⟨"Problem could not be created"⟩)

def createTest (problemId : String) (test : ProblemTestCase) :
    SqliteProblemCall (Except ProblemRepositoryError ProblemTestCase) := do
  let result ← step
    (.insertTest problemId test.input test.expectedOutput test.position test.enabled)
  match result with
  | .unprepared _ => pure (.error ⟨"Could not prepare hidden-test creation"⟩)
  | .rows (id :: _) => pure (.ok { test with id := id })
  | .rows [] | .error _ => pure (.error ⟨"Hidden test could not be created"⟩)

end SQLiteProblemRepository
end AlgorithmTrainer
