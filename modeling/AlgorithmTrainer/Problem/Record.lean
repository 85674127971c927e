import AlgorithmTrainer.Database.Schema

/-!
# `Problem.Record` — problems, their hidden tests and their serializers

The data of `problem.h`, the bounds of `admin-validation.h`, and the four serializers of `problem.cpp`.
Two of them serve the public routes, and two, which show the hidden tests, the administrators' routes.
-/

namespace AlgorithmTrainer

inductive ProblemDifficulty where
  | easy
  | medium
  | hard
deriving DecidableEq, Repr

def difficultyName : ProblemDifficulty → String
  | .easy => "Easy"
  | .medium => "Medium"
  | .hard => "Hard"

structure ProblemExample where
  input : String
  output : String
deriving DecidableEq

structure ProblemTestCase where
  input : String
  expectedOutput : String
  id : Int := 0
  position : Int := 0
  enabled : Bool := true
  revision : Int := 1
deriving DecidableEq

structure Problem where
  id : String
  title : String
  description : String
  inputFormat : String
  outputFormat : String
  difficulty : ProblemDifficulty := .easy
  tags : List String := []
  languages : List String := []
  examples : List ProblemExample := []
  enabled : Bool := true
  revision : Int := 1
  hiddenTests : List ProblemTestCase := []
deriving DecidableEq

/-! ## What an administrator may write -/

def maximumProblemTextBytes : Nat := 64 * 1024
def maximumHiddenTestBytes : Nat := 1024 * 1024

/-- A character of a slug: `islower`, `isdigit` or a hyphen. -/
def isSlugCharacter (c : Char) : Bool := c.isLower || c.isDigit || c == '-'

def validProblemSlug (slug : String) : Bool :=
  slug != "" && decide (byteSize slug ≤ 80) && slug.toList.head? != some '-'
    && slug.toList.getLast? != some '-' && slug.toList.all isSlugCharacter

def validProblemText (text : String) : Bool := decide (byteSize text ≤ maximumProblemTextBytes)

def validHiddenTestText (text : String) : Bool := decide (byteSize text ≤ maximumHiddenTestBytes)

/-- A slug reaches the server as it is. -/
theorem validProblemSlug.cStr {slug : String} (h : validProblemSlug slug = true) :
    cStr slug = slug := by
  refine cStr_of_not_mem fun hmem => ?_
  unfold validProblemSlug at h
  rw [Bool.and_eq_true] at h
  have hnul := List.all_eq_true.mp h.2 _ hmem
  exact absurd hnul (by decide)

/-! ## Serializers -/

def problemSummaryToJson (problem : Problem) : Json :=
  .object [("id", .string problem.id), ("title", .string problem.title),
    ("difficulty", .string (difficultyName problem.difficulty)),
    ("tags", Json.strings problem.tags)]

def exampleToJson (e : ProblemExample) : Json :=
  .object [("input", .string e.input), ("output", .string e.output)]

/-- An object whose `input` and `output` are strings. -/
def exampleOfJson : Json → Option ProblemExample
  | .object members =>
      match (members.lookup "input").getD .null, (members.lookup "output").getD .null with
      | .string input, .string output => some ⟨input, output⟩
      | _, _ => none
  | _ => none

def problemToJson (problem : Problem) : Json :=
  .object [("id", .string problem.id), ("title", .string problem.title),
    ("description", .string problem.description), ("inputFormat", .string problem.inputFormat),
    ("outputFormat", .string problem.outputFormat),
    ("difficulty", .string (difficultyName problem.difficulty)),
    ("tags", Json.strings problem.tags), ("languages", Json.strings problem.languages),
    ("examples", .array (problem.examples.map exampleToJson))]

def adminProblemTestToJson (test : ProblemTestCase) : Json :=
  .object [("id", .int test.id), ("input", .string test.input),
    ("expectedOutput", .string test.expectedOutput), ("position", .int test.position),
    ("enabled", .bool test.enabled), ("revision", .int test.revision)]

def adminProblemToJson (problem : Problem) : Json :=
  (((problemToJson problem).set "enabled" (.bool problem.enabled)).set "revision"
    (.int problem.revision)).set "tests" (.array (problem.hiddenTests.map adminProblemTestToJson))

end AlgorithmTrainer
