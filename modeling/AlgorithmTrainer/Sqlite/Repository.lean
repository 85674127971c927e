import AlgorithmTrainer.Database.Schema
import AlgorithmTrainer.Lib.Program
import AlgorithmTrainer.Lib.Session
import AlgorithmTrainer.Sqlite.Statement
import AlgorithmTrainer.Submission.Repository

/-!
# `Sqlite.Repository` — `SQLiteSubmissionRepository`

Each member function is a program over one connection. A statement that is sent while a transaction is open
belongs to it, whoever opened it. `retry` is the only member function that opens one.
-/

namespace AlgorithmTrainer

open Interaction Relational

/-! ## The connection -/

inductive SqliteRequest where
  | execute (s : SqliteStatement)
  /-- `BEGIN IMMEDIATE`. -/
  | begin
  | commit
  | rollback

/-- What preparing a statement and stepping it gives; no rows are `SQLITE_DONE`. -/
inductive Stepped (ρ : Type) where
  | unprepared (message : String)
  | rows (rows : List ρ)
  | error (message : String)

/-- A statement's rows, or the error of `sqlite3_exec`. -/
@[reducible] def SqliteRequest.Reply : SqliteRequest → Type
  | .execute s => Stepped s.Row
  | _ => Option String

@[reducible] def SqliteConnection : Signature := ⟨SqliteRequest, SqliteRequest.Reply⟩

/-- Whether preparing or stepping a statement fails, without effect. -/
inductive SqliteFault where
  | prepare
  | step

structure SqliteChoice where
  fault : Option SqliteFault := none
  message : String := ""

/-- The choice where nothing goes wrong. -/
def SqliteChoice.calm : SqliteChoice := {}

/-- The connection and the time. -/
structure SqliteState where
  session : Session SqliteDatabase
  clock : Timestamp

/-- SQLite, one request at a time; `strftime` prints the current time. -/
def serveSqlite (strftime : Timestamp → String) : Service SqliteConnection SqliteChoice SqliteState
  | .execute s, c, state =>
      match c.fault with
      | some .prepare => (.unprepared c.message, state)
      | some .step => (.error c.message, state)
      | none =>
          match s.exec (strftime state.clock) state.session.current with
          | some (rows, db) => (.rows rows, { state with session := state.session.write db })
          | none => (.error c.message, state)
  | .begin, c, state =>
      match c.fault, state.session.begin with
      | none, some session => (none, { state with session })
      | _, _ => (some c.message, state)
  | .commit, c, state =>
      match c.fault, state.session.working with
      | none, some _ => (none, { state with session := state.session.commit })
      | _, _ => (some c.message, state)
  | .rollback, c, state =>
      match state.session.working with
      | some _ => (none, { state with session := state.session.rollback fun _ committed => committed })
      | none => (some c.message, state)

/-! ## The member functions -/

abbrev SqliteCall := Program SqliteConnection Exception

namespace SQLiteSubmissionRepository

def step (s : SqliteStatement) : SqliteCall (Stepped s.Row) := .ask (S := SqliteConnection) (.execute s)

def begin : SqliteCall (Option String) := .ask (S := SqliteConnection) .begin

def commit : SqliteCall (Option String) := .ask (S := SqliteConnection) .commit

def rollback : SqliteCall (Option String) := .ask (S := SqliteConnection) .rollback

/-- `parse_verdict` compares as `verdict` does. -/
def parseVerdict (value : String) : Option Verdict := PostgreSQLSubmissionRepository.verdict value

/-- `parse_status` compares as `status` does. -/
def parseStatus (value : String) : Option SubmissionStatus :=
  PostgreSQLSubmissionRepository.status value

def readRecord (row : SqliteSubmissionRow) : Except RepositoryError SubmissionRecord :=
  match parseStatus row.status with
  | none => .error { message := "Database contains an unknown submission status" }
  | some parsedStatus =>
      let build := fun parsedVerdict : Option Verdict =>
        ({ id := row.id, problemId := row.problemId, language := row.language,
           sourceCode := row.sourceCode, status := parsedStatus, verdict := parsedVerdict,
           createdAt := row.createdAt, completedAt := row.completedAt,
           userId := row.userId, errorType := row.errorType,
           retryOf := row.retryOf } : SubmissionRecord)
      match row.verdict with
      | none => .ok (build none)
      | some value =>
          match parseVerdict value with
          | none => .error { message := "Database contains an unknown submission verdict" }
          | some parsedVerdict => .ok (build (some parsedVerdict))

def databaseError (message operation : String) : RepositoryError :=
  { message := operation ++ ": " ++ message }

/-- The error of `execute`. -/
def executeError (detail : String) : RepositoryError :=
  { message := "SQLite operation failed: " ++ detail }

/-- The record of a query that returns one row at most. -/
def optionalRecord : List SqliteSubmissionRow → Except RepositoryError (Option SubmissionRecord)
  | [] => .ok none
  | row :: _ => (readRecord row).map some

variable (limits : PostgreSQLRepositoryLimits)

/-- Which limit a refused submission is blamed on. -/
def admissionError : Stepped Nat → RepositoryError
  | .unprepared message => { message }
  | .rows (n :: _) =>
      if limits.maximumActiveSubmissionsPerUser ≤ n then
        ⟨"Too many active submissions for this user", .userSubmissionLimit⟩
      else ⟨"Submission queue is full", .queueFull⟩
  | _ => ⟨"Submission queue is full", .queueFull⟩

def create (request : SubmissionRequest) : SqliteCall (Except RepositoryError SubmissionRecord) := do
  let result ← step (.insertSubmission request.problemId request.language request.code request.userId
    limits.maximumActiveSubmissions limits.maximumActiveSubmissionsPerUser)
  match result with
  | .unprepared message => pure (.error { message })
  | .rows [] =>
      let count ← step (.countActive request.userId)
      pure (.error (admissionError limits count))
  | .rows (row :: _) => pure (readRecord row)
  | .error message => pure (.error (databaseError message "Could not create submission"))

/-- What `complete` and `fail` make of their result. -/
def transition : Stepped SqliteSubmissionRow → Except RepositoryError SubmissionRecord
  | .unprepared message => .error { message }
  | .rows (row :: _) => readRecord row
  | _ => .error { message := "Submission is missing or is not running" }

def complete (id : Int) (value : Verdict) (errorType : Option String := none) :
    SqliteCall (Except RepositoryError SubmissionRecord) := do
  let result ← step (.completeSubmission (verdictName value) errorType id)
  pure (transition result)

def fail (id : Int) (errorType : Option String := none) :
    SqliteCall (Except RepositoryError SubmissionRecord) := do
  let result ← step (.failSubmission errorType id)
  pure (transition result)

def claimNext : SqliteCall (Except RepositoryError (Option SubmissionRecord)) := do
  let result ← step (.claimSubmission limits.maximumRunningSubmissionsPerUser)
  match result with
  | .unprepared message => pure (.error { message })
  | .rows rows => pure (optionalRecord rows)
  | .error message => pure (.error (databaseError message "Could not claim queued submission"))

def recoverRunning : SqliteCall (Except RepositoryError Nat) := do
  let result ← step .recoverRunning
  match result with
  | .unprepared message => pure (.error { message })
  | .rows changes => pure (.ok (changes.headD 0))
  | .error message => pure (.error (databaseError message "Could not recover running submissions"))

def find (id : Int) : SqliteCall (Except RepositoryError (Option SubmissionRecord)) := do
  let result ← step (.selectSubmission id)
  match result with
  | .unprepared message => pure (.error { message })
  | .rows rows => pure (optionalRecord rows)
  | .error message => pure (.error (databaseError message "Could not retrieve submission"))

def history (userId : Int) (problemId : String) :
    SqliteCall (Except RepositoryError (List SubmissionRecord)) := do
  let result ← step (.selectHistory userId problemId)
  match result with
  | .unprepared message => pure (.error { message })
  | .rows rows => pure (rows.mapM readRecord)
  | .error message => pure (.error (databaseError message "Could not retrieve submission history"))

/-- `ROLLBACK`, and the error. -/
def abandon (error : RepositoryError) : SqliteCall (Except RepositoryError SubmissionRecord) := do
  let _ ← rollback
  pure (.error error)

/-- The details of a retry's audit row. -/
def retryDetails (id : Int) : String := "\x7b\"retrySubmissionId\":" ++ toString id ++ "\x7d"

def retry (id admin : Int) : SqliteCall (Except RepositoryError SubmissionRecord) := do
  let begun ← begin
  match begun with
  | some detail => pure (.error (executeError detail))
  | none => do
      let inserted ← step (.insertRetry id limits.maximumActiveSubmissions
        limits.maximumActiveSubmissionsPerUser)
      match inserted with
      | .unprepared message => abandon { message }
      | .rows (row :: _) =>
          match readRecord row with
          | .error error => abandon error
          | .ok record => do
              let audited ← step (.insertAudit admin "submission.retry" "submission" (toString id)
                (retryDetails record.id))
              match audited with
              | .unprepared message => abandon { message }
              | .error message => abandon (databaseError message "Could not audit submission retry")
              | .rows _ => do
                  let committed ← commit
                  match committed with
                  | some detail => abandon (executeError detail)
                  | none => pure (.ok record)
      | _ => abandon { message := "Submission is not retryable or was already retried" }

def audit (admin : Int) (action type id details : String) : SqliteCall (Except RepositoryError Unit) := do
  let result ← step (.insertAudit admin action type id details)
  match result with
  | .unprepared message => pure (.error { message })
  | .rows _ => pure (.ok ())
  | .error message => pure (.error (databaseError message "Could not write admin audit record"))

end SQLiteSubmissionRepository
end AlgorithmTrainer
