import AlgorithmTrainer.Database.Client
import AlgorithmTrainer.Problem.Record

/-!
# `Problem.Repository` — `PostgreSQLProblemRepository`

Each member function is a program over `Backend`. `readProblem` reads a row back: the metadata first, where
a tag or a language that is no scalar makes `asString` throw, and then, for the judge and for the
administrators, the hidden tests by a query of their own.

A `jsonb` column is kept as its value, so what the code parses back from the column's text is that
value. What `open` does at every start is in `Problem.Seeding`.
-/

namespace AlgorithmTrainer

open Interaction

structure ProblemRepositoryError where
  message : String
deriving DecidableEq

namespace PostgreSQLProblemRepository

/-! ## Writing columns -/

def stringsJson (values : List String) : Json := Json.strings values

def examplesJson (examples : List ProblemExample) : Json := .array (examples.map exampleToJson)

/-- The parameters that `create` and `update` send. -/
def parameters (problem : Problem) : ProblemParameters where
  id := text problem.id
  title := text problem.title
  description := text problem.description
  inputFormat := text problem.inputFormat
  outputFormat := text problem.outputFormat
  difficulty := text (difficultyName problem.difficulty)
  tagsJson := stringsJson problem.tags
  languagesJson := stringsJson problem.languages
  examplesJson := examplesJson problem.examples
  enabled := problem.enabled

/-! ## Reading rows -/

def difficulty (value : String) : Option ProblemDifficulty :=
  if value == "Easy" then some .easy
  else if value == "Medium" then some .medium
  else if value == "Hard" then some .hard
  else none

/-- What reading a row returns, or throws. -/
abbrev Read := ExceptT ProblemRepositoryError (Except Exception)

/-- One entry of `examples_json`. -/
def readExample (e : Json) : Read ProblemExample :=
  match exampleOfJson e with
  | some e => pure e
  | none => throw ⟨"Database contains invalid problem examples"⟩

/-- `read_problem` without the hidden tests. -/
def problemOfRow (row : ProblemRow) : Read Problem :=
  match difficulty row.difficulty, row.tagsJson, row.languagesJson, row.examplesJson with
  | some parsedDifficulty, .array tags, .array languages, .array examples => do
      let tags ← (tags.mapM Json.asString : Except Exception (List String))
      let languages ← (languages.mapM Json.asString : Except Exception (List String))
      let examples ← examples.mapM readExample
      pure { id := row.id, title := row.title, description := row.description,
             inputFormat := row.inputFormat, outputFormat := row.outputFormat,
             difficulty := parsedDifficulty, tags := tags, languages := languages,
             examples := examples, enabled := row.enabled, revision := row.revision }
  | _, _, _, _ => throw ⟨"Database contains invalid problem metadata"⟩

def testOfRow (row : ProblemTestRow) : ProblemTestCase where
  input := row.input
  expectedOutput := row.expectedOutput
  id := row.id
  position := row.position
  enabled := row.enabled
  revision := row.revision

/-- Which hidden tests are read with a problem. -/
inductive Tests where
  | none
  | enabled
  | all
deriving DecidableEq

/-- The query for the hidden tests of a problem that was read. -/
def readTests (onlyEnabled : Bool) (problem : Problem) :
    Call (Except ProblemRepositoryError Problem) := do
  let tests ← execute (.selectTests (text problem.id) onlyEnabled)
  match tests with
  | .tuples rows => pure (.ok { problem with hiddenTests := rows.map testOfRow })
  | _ => pure (.error ⟨"Could not retrieve hidden tests"⟩)

/-- `read_problem`. -/
def readProblem (row : ProblemRow) (tests : Tests) :
    Call (Except ProblemRepositoryError Problem) :=
  match (problemOfRow row).run with
  | .error exception => throw exception
  | .ok (.error error) => pure (.error error)
  | .ok (.ok problem) =>
      match tests with
      | .none => pure (.ok problem)
      | .enabled => readTests true problem
      | .all => readTests false problem

/-! ## The member functions -/

/-- `list`: all rows in order, or the first error. -/
def list (onlyEnabled : Bool) : Call (Except ProblemRepositoryError (List Problem)) := do
  let result ← execute (.selectProblems onlyEnabled)
  match result with
  | .tuples rows =>
      match (rows.mapM problemOfRow).run with
      | .error exception => throw exception
      | .ok problems => pure problems
  | _ => pure (.error ⟨"Could not retrieve problem list"⟩)

def find (id : String) (onlyEnabled : Bool) (tests : Tests) :
    Call (Except ProblemRepositoryError (Option Problem)) := do
  let result ← execute (.selectProblem (text id) onlyEnabled)
  match result with
  | .tuples [] => pure (.ok none)
  | .tuples (row :: _) => do
      let problem ← readProblem row tests
      pure (problem.map some)
  | _ => pure (.error ⟨"Could not retrieve problem"⟩)

def listEnabled : Call (Except ProblemRepositoryError (List Problem)) := list true

def listAll : Call (Except ProblemRepositoryError (List Problem)) := list false

def findEnabled (id : String) : Call (Except ProblemRepositoryError (Option Problem)) :=
  find id true .none

def findForJudging (id : String) : Call (Except ProblemRepositoryError (Option Problem)) :=
  find id false .enabled

def findAny (id : String) : Call (Except ProblemRepositoryError (Option Problem)) :=
  find id false .all

def create (problem : Problem) : Call (Except ProblemRepositoryError Problem) := do
  let result ← execute (.insertProblem (parameters problem))
  match result with
  | .tuples [row] => pure (.ok { problem with revision := row.revision })
  | _ => pure (.error ⟨"Problem could not be created"⟩)

def update (problem : Problem) : Call (Except ProblemRepositoryError Problem) := do
  let result ← execute (.updateProblem (parameters problem) problem.revision)
  match result with
  | .tuples [] => pure (.error ⟨"Problem was changed by another administrator"⟩)
  | .tuples (row :: _) => pure (.ok { problem with revision := row.revision })
  | _ => pure (.error ⟨"Problem could not be updated"⟩)

def remove (id : String) : Call (Except ProblemRepositoryError Bool) := do
  let result ← execute (.deleteProblem (text id))
  match result with
  | .tuples rows => pure (.ok (!rows.isEmpty))
  | _ => pure (.error ⟨"Problem could not be deleted"⟩)

def createTest (problemId : String) (test : ProblemTestCase) :
    Call (Except ProblemRepositoryError ProblemTestCase) := do
  let result ← execute (.insertTest (text problemId) (text test.input) (text test.expectedOutput)
    test.position test.enabled)
  match result with
  | .tuples [row] => pure (.ok { test with id := row.id, revision := row.revision })
  | _ => pure (.error ⟨"Hidden test could not be created"⟩)

def updateTest (problemId : String) (test : ProblemTestCase) :
    Call (Except ProblemRepositoryError ProblemTestCase) := do
  let result ← execute (.updateTest (text test.input) (text test.expectedOutput) test.position
    test.enabled test.id (text problemId) test.revision)
  match result with
  | .tuples [] => pure (.error ⟨"Hidden test was changed by another administrator"⟩)
  | .tuples (row :: _) => pure (.ok { test with revision := row.revision })
  | _ => pure (.error ⟨"Hidden test could not be updated"⟩)

def removeTest (problemId : String) (testId : Int) : Call (Except ProblemRepositoryError Bool) := do
  let result ← execute (.deleteTest testId (text problemId))
  match result with
  | .tuples rows => pure (.ok (!rows.isEmpty))
  | _ => pure (.error ⟨"Hidden test could not be deleted"⟩)

end PostgreSQLProblemRepository
end AlgorithmTrainer
