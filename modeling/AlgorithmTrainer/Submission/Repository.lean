import AlgorithmTrainer.Database.Queue

/-!
# `Submission.Repository` — `PostgreSQLSubmissionRepository`

Each member function is a program over `Backend`: the statements it sends, what it does with each result,
and the errors it returns. `record` reads a row back, and fails on a status or a verdict it does not
know.
-/

namespace AlgorithmTrainer

open Interaction

/-- `PostgreSQLRepositoryLimits`; the values are handed to the server as 64-bit integers. -/
structure PostgreSQLRepositoryLimits where
  maximumActiveSubmissions : Nat := 100
  maximumActiveSubmissionsPerUser : Nat := 5
  maximumRunningSubmissionsPerUser : Nat := 1
  fits : (maximumActiveSubmissions : Int) ≤ maxInt64
    ∧ (maximumActiveSubmissionsPerUser : Int) ≤ maxInt64
    ∧ (maximumRunningSubmissionsPerUser : Int) ≤ maxInt64 := by decide

/-- The limits where nothing is configured. -/
def PostgreSQLRepositoryLimits.unconfigured : PostgreSQLRepositoryLimits := {}

namespace PostgreSQLSubmissionRepository

/-- The advisory lock of everything that admits a submission. -/
def admissionLock : Int := 784512903

/-- The advisory lock of claims. -/
def claimLock : Int := 784512904

/-! ## Reading rows -/

def verdict (value : String) : Option Verdict :=
  if value == "Accepted" then some .accepted
  else if value == "Wrong Answer" then some .wrongAnswer
  else if value == "Runtime Error" then some .runtimeError
  else if value == "Time Limit Exceeded" then some .timeLimitExceeded
  else none

def status (value : String) : Option SubmissionStatus :=
  if value == "queued" then some .queued
  else if value == "running" then some .running
  else if value == "completed" then some .completed
  else if value == "failed" then some .failed
  else none

/-- `record`: one row as a `SubmissionRecord`. -/
def record (P : Platform) (row : SubmissionRow) : Except RepositoryError SubmissionRecord :=
  match status row.status with
  | none => .error { message := "Database contains an unknown submission status" }
  | some parsedStatus =>
      let build := fun parsedVerdict : Option Verdict =>
        ({ id := row.id, problemId := row.problemId, language := row.language,
           sourceCode := row.sourceCode, status := parsedStatus, verdict := parsedVerdict,
           createdAt := P.printTimestamp row.createdAt,
           completedAt := row.completedAt.map P.printTimestamp,
           userId := row.userId, errorType := row.errorType,
           retryOf := row.retryOf } : SubmissionRecord)
      match row.verdict with
      | none => .ok (build none)
      | some value =>
          match verdict value with
          | none => .error { message := "Database contains an unknown submission verdict" }
          | some parsedVerdict => .ok (build (some parsedVerdict))

/-- A record has the columns of its row that are fixed at the insertion. -/
theorem record_columns {P : Platform} {row : SubmissionRow} {r : SubmissionRecord}
    (h : record P row = .ok r) : r.id = row.id ∧ r.problemId = row.problemId ∧
    r.language = row.language ∧ r.sourceCode = row.sourceCode ∧ r.userId = row.userId := by
  unfold record at h
  split at h
  · cases h
  · dsimp only at h
    split at h
    · cases h
      exact ⟨rfl, rfl, rfl, rfl, rfl⟩
    · split at h
      · cases h
      · cases h
        exact ⟨rfl, rfl, rfl, rfl, rfl⟩

/-- A row that passes its constraints reads back, with its source. -/
theorem record_checked {P : Platform} {r : SubmissionRow} (h : r.check = true) :
    ∃ x, record P r = .ok x ∧ x.sourceCode = r.sourceCode := by
  obtain ⟨hverdict, hstatus⟩ := (SubmissionRow.check_iff r).mp h
  have hs : ∃ s, status r.status = some s := by
    rcases hstatus with ⟨hs | hs, -⟩ | ⟨hs, -⟩ | ⟨hs, -⟩ <;> rw [hs] <;> exact ⟨_, rfl⟩
  obtain ⟨s, hs⟩ := hs
  unfold record
  rw [hs]
  cases hv : r.verdict with
  | none => exact ⟨_, rfl, rfl⟩
  | some v =>
      have hread : ∃ v', verdict v = some v' := by
        rcases hverdict v hv with rfl | rfl | rfl | rfl <;> exact ⟨_, rfl⟩
      obtain ⟨v', hread⟩ := hread
      dsimp only
      rw [hread]
      exact ⟨_, rfl, rfl⟩

def failure {ρ : Type} (operation : String) (result : Result ρ) : RepositoryError :=
  { message := operation ++ ": " ++ result.error }

/-- `records`: all rows, or the first error. -/
def records (P : Platform) : Result SubmissionRow → Except RepositoryError (List SubmissionRecord)
  | .tuples rows => rows.mapM (record P)
  | result => .error (failure "Could not retrieve submissions" result)

/-- The record of a query that returns one row at most. -/
def optionalRecord (P : Platform) :
    List SubmissionRow → Except RepositoryError (Option SubmissionRecord)
  | [] => .ok none
  | row :: _ => (record P row).map some

/-! ## The member functions -/

variable (P : Platform) (limits : PostgreSQLRepositoryLimits)

/-- Which limit a refused submission is blamed on, by the count of the bucket's active rows. -/
def admissionError : Result Nat → RepositoryError
  | .tuples (n :: _) =>
      if limits.maximumActiveSubmissionsPerUser ≤ n then
        ⟨"Too many active submissions for this user", .userSubmissionLimit⟩
      else ⟨"Submission queue is full", .queueFull⟩
  | _ => ⟨"Submission queue is full", .queueFull⟩

def create (request : SubmissionRequest) : Call (Except RepositoryError SubmissionRecord) := do
  let result ← executeLocked admissionLock (.insertSubmission (text request.problemId)
    (text request.language) (text request.code) request.userId limits.maximumActiveSubmissions
    limits.maximumActiveSubmissionsPerUser)
  match result with
  | .tuples [row] => pure (record P row)
  | .tuples _ =>
      let count ← execute (.countActive request.userId)
      pure (.error (admissionError limits count))
  | result => pure (.error (failure "Could not create submission" result))

/-- What `complete` and `fail` make of their result. -/
def transition (operation : String) :
    Result SubmissionRow → Except RepositoryError SubmissionRecord
  | .tuples [row] => record P row
  | .tuples _ => .error { message := "Submission is missing or is not running" }
  | result => .error (failure operation result)

def complete (id : Int) (value : Verdict) (errorType : Option String := none) :
    Call (Except RepositoryError SubmissionRecord) := do
  let result ← execute (.completeSubmission (text (verdictName value)) (errorType.map text) id)
  pure (transition P "Could not complete submission" result)

def fail (id : Int) (errorType : Option String := none) :
    Call (Except RepositoryError SubmissionRecord) := do
  let result ← execute (.failSubmission (errorType.map text) id)
  pure (transition P "Could not fail submission" result)

def claimNext : Call (Except RepositoryError (Option SubmissionRecord)) := do
  let result ← executeLocked claimLock (.claimSubmission limits.maximumRunningSubmissionsPerUser)
  match result with
  | .tuples rows => pure (optionalRecord P rows)
  | result => pure (.error (failure "Could not claim queued submission" result))

def recoverRunning : Call (Except RepositoryError Nat) := do
  let result ← execute .recoverRunning
  match result with
  | .tuples rows => pure (.ok rows.length)
  | result => pure (.error (failure "Could not recover running submissions" result))

def find (id : Int) : Call (Except RepositoryError (Option SubmissionRecord)) := do
  let result ← execute (.selectSubmission id)
  match result with
  | .tuples rows => pure (optionalRecord P rows)
  | result => pure (.error (failure "Could not retrieve submission" result))

def history (userId : Int) (problemId : String) :
    Call (Except RepositoryError (List SubmissionRecord)) := do
  let result ← execute (.selectHistory userId (text problemId))
  pure (records P result)

def listAll : Call (Except RepositoryError (List SubmissionRecord)) := do
  let result ← execute .selectAllSubmissions
  pure (records P result)

/-- The status a filter compares with: its name with the first letter in lower case. -/
def filterStatus (value : SubmissionStatus) : String :=
  match (submissionStatusName value).toList with
  | [] => ""
  | c :: rest => String.ofList (c.toLower :: rest)

def listFiltered (filter : SubmissionAdminFilter) :
    Call (Except RepositoryError (List SubmissionRecord)) := do
  let result ← execute (.selectFiltered {
    status := (filter.status.map filterStatus).map text
    errorType := filter.errorType.map text
    language := filter.language.map text
    problemId := filter.problemId.map text
    userId := filter.userId
    createdFrom := filter.createdFrom.map text
    createdTo := filter.createdTo.map text })
  pure (records P result)

def retry (id admin : Int) : Call (Except RepositoryError SubmissionRecord) := do
  let result ← executeLocked admissionLock (.retrySubmission id limits.maximumActiveSubmissions
    limits.maximumActiveSubmissionsPerUser admin)
  match result with
  | .tuples [row] => pure (record P row)
  | .tuples _ =>
      pure (.error { message := "Submission is not retryable or was already retried" })
  | result => pure (.error (failure "Could not retry submission" result))

def audit (admin : Int) (action type id : String) (details : Json := .object []) :
    Call (Except RepositoryError Unit) := do
  let result ← execute (.insertAudit admin (text action) (text type) (text id) details)
  match result with
  | .command => pure (.ok ())
  | result => pure (.error (failure "Could not write admin audit record" result))

def progress (userId : Int) : Call (Except RepositoryError UserProgress) := do
  let result ← execute (.selectActivity userId)
  match result with
  | .tuples (activity :: _) =>
      let streakResult ← execute (.selectStreak userId)
      match streakResult with
      | .tuples (streak :: _) =>
          let completed ← execute (.selectCompletedProblems userId)
          match completed with
          | .tuples rows =>
              pure (.ok {
                totalSubmissions := activity.totalSubmissions
                acceptedSubmissions := activity.acceptedSubmissions
                currentStreakDays := streak
                mostRecentSubmissionProblemId := activity.mostRecentProblemId
                completedProblems := rows.map fun row =>
                  ⟨row.problemId, (row.completedAt.map P.printTimestamp).getD ""⟩ })
          | completed => pure (.error (failure "Could not retrieve completed problems" completed))
      | streakResult => pure (.error (failure "Could not retrieve user streak" streakResult))
  | result => pure (.error (failure "Could not retrieve user activity" result))

end PostgreSQLSubmissionRepository
end AlgorithmTrainer
