import AlgorithmTrainer.Auth.Service
import AlgorithmTrainer.Problem.Repository
import AlgorithmTrainer.Submission.Repository

/-!
# `Server.Http` — requests, responses and the server's configuration

What the handlers of `main.cpp` read off a request and put into a response, the serializers they share,
and the check of a submission's body (`submission.cpp`). What a handler logs and that it wakes the
workers is left out: neither reaches a response or the database.
-/

namespace AlgorithmTrainer

open Interaction

/-! ## Requests and responses -/

/-- What a handler reads: the session cookie, the body if it is valid JSON, and the query parameters,
    empty where they are missing. -/
structure HttpRequest where
  cookie : String := ""
  json : Option Json := none
  parameter : String → String := fun _ => ""

structure Cookie where
  name : String
  value : String
  path : String
  httpOnly : Bool
  secure : Bool
  sameSite : String
  maxAge : Int
deriving DecidableEq

structure HttpResponse where
  status : Nat
  body : Option Json := none
  cookies : List Cookie := []
  headers : List (String × String) := []

/-- What `main` configures. -/
structure Server where
  P : Platform
  limits : PostgreSQLRepositoryLimits := {}
  dummyPasswordHash : String
  secureCookies : Bool := false

/-- `newHttpJsonResponse`, with its status. -/
def jsonResponse (body : Json) (status : Nat := 200) : HttpResponse :=
  { status := status, body := some body }

/-- `newHttpResponse`, with its status. -/
def emptyResponse (status : Nat) : HttpResponse := { status := status }

def errorResponse (message : String) (status : Nat) : HttpResponse :=
  jsonResponse (.object [("error", .string message)]) status

def sessionCookieName : String := "algorithm_trainer_session"

def sessionCookieLifetimeSeconds : Int := 60 * 60 * 24 * 30

def sessionCookie (token : String) (secure : Bool) (maxAge : Int) : Cookie where
  name := sessionCookieName
  value := token
  path := "/"
  httpOnly := true
  secure := secure
  sameSite := "Lax"
  maxAge := maxAge

/-! ## Serializers -/

def userToJson (user : AuthUser) : Json :=
  .object [("id", .int user.id), ("username", .string user.username),
    ("createdAt", .string user.createdAt), ("isAdmin", .bool user.isAdmin)]

def submissionToJson (submission : SubmissionRecord) (includeSource : Bool) : Json :=
  let body := Json.object [("id", .int submission.id), ("problemId", .string submission.problemId),
    ("language", .string submission.language),
    ("status", .string (submissionStatusName submission.status)),
    ("createdAt", .string submission.createdAt)]
  let body := if includeSource then body.set "code" (.string submission.sourceCode) else body
  let body := body.setSome "verdict" (submission.verdict.map fun v => .string (verdictName v))
  let body := body.setSome "completedAt" (submission.completedAt.map .string)
  body.setSome "errorType" (submission.errorType.map .string)

def adminSubmissionToJson (submission : SubmissionRecord) : Json :=
  let body := (submissionToJson submission true).set "userId" (submission.userId.elim .null .int)
  let body := body.setSome "retryOf" (submission.retryOf.map .int)
  let category := submission.errorType.getD
    (submission.verdict.elim (submissionStatusName submission.status) verdictName)
  let message :=
    if submission.errorType.isSome then "Execution ended with a normalized runtime error."
    else if submission.status = .failed then
      "Judging infrastructure could not complete this submission."
    else "No private diagnostic details are available."
  body.set "diagnostic" (.object [("category", .string category), ("message", .string message)])

/-! ## Reading a request -/

/-- `positive_id`, and the same check in `get_submission`: the whole text is a number between 1 and
    2^63 - 1. What `from_chars` accepts beside digits is a minus sign, which no positive number has. -/
def positiveId (raw : String) : Option Int :=
  let value := raw.toList.foldl (fun n c => 10 * n + (c.toNat - '0'.toNat)) 0
  if raw ≠ "" ∧ raw.toList.all Char.isDigit = true ∧ 0 < value ∧ (value : Int) ≤ maxInt64 then
    some value
  else none

/-- A check of the body, with `||` and an early `return` of a message. -/
abbrev Check := ExceptT String (Except Exception)

/-- `if (condition || …) return message;`, each condition evaluated where those before it are false. -/
def rejectIf (message : String) (conditions : List (Except Exception Bool)) : Check Unit := do
  if ← (conditions.anyM id : Except Exception Bool) then throw message

/-- `!json[key].is…()`. -/
def lacks (json : Json) (kind : Json → Bool) (key : String) : Except Exception Bool := do
  pure !(kind (← json.member key))

/-- `json[key].asString()`. -/
def stringAt (json : Json) (key : String) : Except Exception String := do
  (← json.member key).asString

def maximumCodeSize : Nat := 64 * 1024

/-- `validate_submission`. -/
def validateSubmission (json : Json) : Check SubmissionRequest := do
  rejectIf "Request body must be a JSON object" [pure !json.isObject]
  for field in ["problemId", "language", "code"] do
    rejectIf (field ++ " must be a string")
      [not <$> json.isMember field, lacks json Json.isString field]
  let problemId ← stringAt json "problemId"
  let language ← stringAt json "language"
  let code ← stringAt json "code"
  rejectIf "Unsupported problemId" [pure (problemId == "" || decide (128 < byteSize problemId))]
  rejectIf "Unsupported language" [pure (language != "python" && language != "cpp")]
  rejectIf "code must not be empty" [pure (code == "")]
  rejectIf "code is too large" [pure (decide (maximumCodeSize < byteSize code))]
  pure { problemId := problemId, language := language, code := code }

theorem check_bind {α β : Type} {x : Check α} {f : α → Check β} {b : β}
    (h : (x >>= f).run = .ok (.ok b)) : ∃ a, x.run = .ok (.ok a) ∧ (f a).run = .ok (.ok b) := by
  rw [ExceptT.run_bind] at h
  match hx : x.run with
  | .ok (.ok a) =>
      rw [hx] at h
      exact ⟨a, rfl, h⟩
  | .ok (.error message) => rw [hx] at h; cases h
  | .error exception => rw [hx] at h; cases h

/-- A check that is passed found none of its conditions true. -/
theorem rejectIf_passed {message : String} {condition : Bool} {u : Unit}
    (h : (rejectIf message [pure condition]).run = .ok (.ok u)) : condition = false := by
  cases condition with
  | false => rfl
  | true => cases h

/-- What a submission that was accepted satisfies. -/
theorem validateSubmission_accepted {json : Json} {request : SubmissionRequest}
    (h : (validateSubmission json).run = .ok (.ok request)) :
    (request.language = "python" ∨ request.language = "cpp") ∧ request.code ≠ "" ∧
      byteSize request.code ≤ maximumCodeSize ∧ request.problemId ≠ "" ∧
      byteSize request.problemId ≤ 128 ∧ request.userId = none := by
  unfold validateSubmission at h
  obtain ⟨_, -, h⟩ := check_bind h
  obtain ⟨_, -, h⟩ := check_bind h
  obtain ⟨problemId, -, h⟩ := check_bind h
  obtain ⟨language, -, h⟩ := check_bind h
  obtain ⟨code, -, h⟩ := check_bind h
  obtain ⟨_, hproblem, h⟩ := check_bind h
  obtain ⟨_, hlanguage, h⟩ := check_bind h
  obtain ⟨_, hempty, h⟩ := check_bind h
  obtain ⟨_, hsize, h⟩ := check_bind h
  cases h
  have hproblem := rejectIf_passed hproblem
  have hlanguage := rejectIf_passed hlanguage
  have hempty := rejectIf_passed hempty
  have hsize := rejectIf_passed hsize
  simp only [Bool.or_eq_false_iff, beq_eq_false_iff_ne, decide_eq_false_iff_not, Nat.not_lt,
    Bool.and_eq_false_iff, bne_eq_false_iff_eq] at hproblem hlanguage hempty hsize
  exact ⟨hlanguage, hempty, hsize, hproblem.1, hproblem.2, rfl⟩

/-- Run a check in a handler: an exception leaves the handler, a message is returned. -/
def checked {α : Type} (check : Check α) : Call (Except String α) :=
  match check.run with
  | .error exception => throw exception
  | .ok result => pure result

end AlgorithmTrainer
