import AlgorithmTrainer.Lib.Table

/-!
# `Sqlite.Statement` — the queue's tables and statements in SQLite

The tables that `SQLiteSubmissionRepository` uses, as the migrations `001` to `008` leave them, and the
statements it sends. A timestamp is the text that `strftime` makes of the current time. The ids are those of
`AUTOINCREMENT`: the next one is part of the database, and a statement that fails does not draw it.
-/

namespace AlgorithmTrainer

open Relational

/-! ## Rows -/

structure SqliteSubmissionRow where
  id : Int
  problemId : String
  language : String
  sourceCode : String
  status : String
  verdict : Option String
  createdAt : String
  completedAt : Option String
  userId : Option Int
  errorType : Option String
  retryOf : Option Int
deriving DecidableEq

structure SqliteAuditRow where
  id : Int
  adminUserId : Int
  action : String
  entityType : String
  entityId : String
  detailsJson : String
  createdAt : String
deriving DecidableEq

instance : Keyed SqliteSubmissionRow Int := ⟨SqliteSubmissionRow.id⟩
instance : Keyed SqliteAuditRow Int := ⟨SqliteAuditRow.id⟩

/-- The `CHECK` constraints of `submissions`. -/
def SqliteSubmissionRow.check (r : SqliteSubmissionRow) : Bool :=
  (r.status == "queued" || r.status == "running" || r.status == "completed"
    || r.status == "failed")
  && (match r.verdict with
      | none => true
      | some v => v == "Accepted" || v == "Wrong Answer" || v == "Runtime Error"
          || v == "Time Limit Exceeded")
  && (((r.status == "queued" || r.status == "running") && r.verdict.isNone && r.completedAt.isNone)
      || (r.status == "completed" && r.verdict.isSome && r.completedAt.isSome)
      || (r.status == "failed" && r.verdict.isNone && r.completedAt.isSome))

/-- `status IN ('queued', 'running')`. -/
def SqliteSubmissionRow.active (r : SqliteSubmissionRow) : Bool :=
  r.status == "queued" || r.status == "running"

/-- The tables, with the next ids. Of `users`, only the ids are referenced. -/
structure SqliteDatabase where
  userIds : List Int
  submissions : Table SqliteSubmissionRow
  adminAuditLog : Table SqliteAuditRow
  nextSubmission : Int
  nextAudit : Int

/-- The migrated tables, with these users. -/
def SqliteDatabase.initial (userIds : List Int) : SqliteDatabase :=
  ⟨userIds, .empty, .empty, 1, 1⟩

namespace SqliteDatabase

/-- The number of queued or running submissions of a bucket; `none` is the anonymous bucket. -/
def activeOf (db : SqliteDatabase) (user : Option Int) : Nat :=
  db.submissions.count fun r => r.active && r.userId == user

def active (db : SqliteDatabase) : Nat := db.submissions.count SqliteSubmissionRow.active

def runningOf (db : SqliteDatabase) (user : Option Int) : Nat :=
  db.submissions.count fun r => r.status == "running" && r.userId == user

/-- The two admission subqueries. -/
def admits (db : SqliteDatabase) (user : Option Int) (maximum maximumPerUser : Int) : Bool :=
  decide ((db.active : Int) < maximum) && decide ((db.activeOf user : Int) < maximumPerUser)

/-- Insert a submission, unless it violates a constraint. -/
def insertSubmission (db : SqliteDatabase) (row : SqliteSubmissionRow) :
    Option (List SqliteSubmissionRow × SqliteDatabase) :=
  if !row.check then none
  else if db.submissions.count (fun r => r.id == row.id
      || (row.retryOf.isSome && r.retryOf == row.retryOf)) ≠ 0 then none
  else if !(row.userId.all fun user => db.userIds.contains user) then none
  else some ([row], { db with
    submissions := db.submissions.insert row, nextSubmission := db.nextSubmission + 1 })

/-- Update the selected submissions, unless a new row violates a constraint. -/
def updateSubmissions (db : SqliteDatabase) (p : SqliteSubmissionRow → Bool)
    (f : SqliteSubmissionRow → SqliteSubmissionRow) (hf : ∀ r, p r = true → (f r).id = r.id) :
    Option (List SqliteSubmissionRow × SqliteDatabase) :=
  let rows := (db.submissions.select p).map f
  if rows.all SqliteSubmissionRow.check then
    some (rows, { db with submissions := db.submissions.update p f hf })
  else none

/-- The subquery of a claim: the first queued submission whose owner is below the limit. -/
def candidate (db : SqliteDatabase) (limit : Int) : Option SqliteSubmissionRow :=
  (orderBy (fun a b => decide (a.id ≤ b.id)) (db.submissions.select fun r =>
    r.status == "queued" && decide ((db.runningOf r.userId : Int) < limit))).head?

end SqliteDatabase

/-- `ORDER BY created_at DESC, id DESC`. -/
def SqliteSubmissionRow.newestFirst (a b : SqliteSubmissionRow) : Bool :=
  decide (b.createdAt < a.createdAt) || (a.createdAt == b.createdAt && decide (b.id ≤ a.id))

/-! ## Statements -/

inductive SqliteStatement where
  | insertSubmission (problemId language sourceCode : String) (userId : Option Int)
      (maximumActive maximumActivePerUser : Int)
  | countActive (userId : Option Int)
  | completeSubmission (verdict : String) (errorType : Option String) (id : Int)
  | failSubmission (errorType : Option String) (id : Int)
  | claimSubmission (maximumRunningPerUser : Int)
  | recoverRunning
  | selectSubmission (id : Int)
  | selectHistory (userId : Int) (problemId : String)
  | insertRetry (id maximumActive maximumActivePerUser : Int)
  | insertAudit (adminUserId : Int) (action entityType entityId detailsJson : String)

/-- What a statement returns; `recoverRunning` returns `sqlite3_changes`. -/
@[reducible] def SqliteStatement.Row : SqliteStatement → Type
  | .countActive _ | .recoverRunning => Nat
  | .insertAudit .. => Unit
  | _ => SqliteSubmissionRow

/-- Execute a statement at a time: its rows and the database it leaves, or nothing where it violates a
    constraint. -/
def SqliteStatement.exec (now : String) :
    (s : SqliteStatement) → SqliteDatabase → Option (List s.Row × SqliteDatabase)
  | .insertSubmission problemId language sourceCode userId maximum maximumPerUser, db =>
      if db.admits userId maximum maximumPerUser then
        db.insertSubmission ⟨db.nextSubmission, problemId, language, sourceCode, "queued", none, now,
          none, userId, none, none⟩
      else some ([], db)
  | .countActive userId, db => some ([db.activeOf userId], db)
  | .completeSubmission verdict errorType id, db =>
      db.updateSubmissions (fun r => r.id == id && r.status == "running")
        (fun r => { r with
          status := "completed", verdict := some verdict, errorType := errorType,
          completedAt := some now })
        (fun _ _ => rfl)
  | .failSubmission errorType id, db =>
      db.updateSubmissions (fun r => r.id == id && r.status == "running")
        (fun r => { r with
          status := "failed", errorType := errorType, completedAt := some now })
        (fun _ _ => rfl)
  | .claimSubmission limit, db =>
      match db.candidate limit with
      | some queued => db.updateSubmissions (fun r => r.id == queued.id && r.status == "queued")
          (fun r => { r with status := "running" }) (fun _ _ => rfl)
      | none => some ([], db)
  | .recoverRunning, db =>
      (db.updateSubmissions (fun r => r.status == "running") (fun r => { r with status := "queued" })
        (fun _ _ => rfl)).map fun x => ([x.1.length], x.2)
  | .selectSubmission id, db => some (db.submissions.select (·.id == id), db)
  | .selectHistory userId problemId, db =>
      some (orderBy SqliteSubmissionRow.newestFirst (db.submissions.select fun r =>
        r.userId == some userId && r.problemId == problemId), db)
  | .insertRetry id maximum maximumPerUser, db =>
      match db.submissions.select (fun r => r.id == id
        && (r.status == "failed" || r.verdict == some "Runtime Error")) with
      | original :: _ =>
          if db.submissions.count (·.retryOf == some id) = 0
              ∧ db.admits original.userId maximum maximumPerUser = true then
            db.insertSubmission ⟨db.nextSubmission, original.problemId, original.language,
              original.sourceCode, "queued", none, now, none, original.userId, none,
              some original.id⟩
          else some ([], db)
      | [] => some ([], db)
  | .insertAudit adminUserId action entityType entityId detailsJson, db =>
      let row : SqliteAuditRow :=
        ⟨db.nextAudit, adminUserId, action, entityType, entityId, detailsJson, now⟩
      if db.adminAuditLog.count (·.id == row.id) ≠ 0 then none
      else if db.userIds.contains adminUserId then
        some ([], { db with
          adminAuditLog := db.adminAuditLog.insert row, nextAudit := db.nextAudit + 1 })
      else none

end AlgorithmTrainer
