import AlgorithmTrainer.Database.Schema

/-!
# `Database.Statement` — the SQL statements and what the server does with them

One constructor for each statement the program sends, with its parameters in order, and the meaning of
each on the tables: `Statement.exec` for a statement that commits by itself, `LockedStatement.plan` and
`Changes.apply` for one that runs inside the transaction of `execute_locked`, where what it writes waits
for the commit. A statement that breaks a constraint fails and writes nothing, but an id drawn from a
sequence is not returned.
-/

namespace AlgorithmTrainer

open Relational

/-- Why the server rejects a statement. -/
inductive SqlState where
  | checkViolation
  | foreignKeyViolation
  | uniqueViolation
  | invalidText
  | fault
deriving DecidableEq, Repr

/-- A `postgresql::Result`: no result at all, an error, a command without rows, or rows. -/
inductive Result (ρ : Type) where
  | none
  | failed (state : SqlState) (message : String)
  | command
  | tuples (rows : List ρ)

namespace Result

variable {ρ τ : Type}

def commandOk : Result ρ → Bool
  | .command => true
  | _ => false

def tuplesOk : Result ρ → Bool
  | .tuples _ => true
  | _ => false

def rows : Result ρ → List ρ
  | .tuples rows => rows
  | _ => []

def error : Result ρ → String
  | .none => "No result"
  | .failed _ message => message
  | _ => ""

def map (f : ρ → τ) : Result ρ → Result τ
  | .none => .none
  | .failed state message => .failed state message
  | .command => .command
  | .tuples rows => .tuples (rows.map f)

end Result

/-! ## Statements that commit by themselves -/

/-- The columns of `problems` that are written. -/
structure ProblemParameters where
  id : String
  title : String
  description : String
  inputFormat : String
  outputFormat : String
  difficulty : String
  tagsJson : Json
  languagesJson : Json
  examplesJson : Json
  enabled : Bool

/-- The parameters of the filtered list of submissions; each clause is there if its parameter is. -/
structure FilterParameters where
  status : Option String
  errorType : Option String
  language : Option String
  problemId : Option String
  userId : Option Int
  createdFrom : Option String
  createdTo : Option String

inductive Statement where
  | insertUser (username passwordHash : String)
  | upsertAdmin (username passwordHash : String)
  | selectUserByName (username : String)
  | insertSession (userId : Int) (tokenHash : String) (lifetimeSeconds : Int)
  | selectSessionUser (tokenHash : String)
  | deleteSession (tokenHash : String)
  | countActive (userId : Option Int)
  | completeSubmission (verdict : String) (errorType : Option String) (id : Int)
  | failSubmission (errorType : Option String) (id : Int)
  | recoverRunning
  | selectSubmission (id : Int)
  | selectHistory (userId : Int) (problemId : String)
  | selectAllSubmissions
  | selectFiltered (filter : FilterParameters)
  | insertAudit (adminUserId : Int) (action entityType entityId : String) (details : Json)
  | selectActivity (userId : Int)
  | selectStreak (userId : Int)
  | selectCompletedProblems (userId : Int)
  | selectProblems (onlyEnabled : Bool)
  | selectProblem (id : String) (onlyEnabled : Bool)
  | selectTests (problemId : String) (onlyEnabled : Bool)
  | insertProblem (problem : ProblemParameters)
  | updateProblem (problem : ProblemParameters) (revision : Int)
  | deleteProblem (id : String)
  | insertTest (problemId input expectedOutput : String) (position : Int) (enabled : Bool)
  | updateTest (input expectedOutput : String) (position : Int) (enabled : Bool) (id : Int)
      (problemId : String) (revision : Int)
  | deleteTest (id : Int) (problemId : String)

/-- A row of the activity query. -/
structure ActivityRow where
  totalSubmissions : Nat
  acceptedSubmissions : Nat
  mostRecentProblemId : Option String
deriving DecidableEq

/-- A row of the completed-problems query. -/
structure CompletedRow where
  problemId : String
  completedAt : Option Timestamp
deriving DecidableEq

/-- The rows a statement returns. A whole row stands for the columns that are selected from it. -/
@[reducible] def Statement.Row : Statement → Type
  | .insertUser .. | .upsertAdmin .. | .selectUserByName .. | .selectSessionUser .. => UserRow
  | .insertSession .. | .deleteSession .. | .insertAudit .. => Unit
  | .countActive .. => Nat
  | .completeSubmission .. | .failSubmission .. | .selectSubmission .. | .selectHistory ..
  | .selectAllSubmissions | .selectFiltered .. => SubmissionRow
  | .recoverRunning | .selectStreak .. | .deleteTest .. => Int
  | .selectActivity .. => ActivityRow
  | .selectCompletedProblems .. => CompletedRow
  | .selectProblems .. | .selectProblem .. | .insertProblem .. | .updateProblem .. => ProblemRow
  | .selectTests .. | .insertTest .. | .updateTest .. => ProblemTestRow
  | .deleteProblem .. => String

/-! ## Order and grouping -/

/-- `ORDER BY created_at DESC, id DESC`. -/
def newestFirst (a b : SubmissionRow) : Bool :=
  decide (b.createdAt < a.createdAt) || (a.createdAt == b.createdAt && decide (b.id ≤ a.id))

/-- `ORDER BY created_at, id`. -/
def oldestFirst (a b : ProblemRow) : Bool :=
  decide (a.createdAt < b.createdAt) || (a.createdAt == b.createdAt && decide (a.id ≤ b.id))

/-- `ORDER BY position, id`. -/
def byPosition (a b : ProblemTestRow) : Bool :=
  decide (a.position < b.position) || (a.position == b.position && decide (a.id ≤ b.id))

/-- `ORDER BY min(completed_at) DESC`, where `DESC` puts nulls first. -/
def latestFirst (a b : CompletedRow) : Bool :=
  match a.completedAt, b.completedAt with
  | none, _ => true
  | some _, none => false
  | some s, some t => decide (t ≤ s)

/-- `min` of a column, which ignores nulls. -/
def minimum (ts : List (Option Timestamp)) : Option Timestamp := (ts.filterMap id).min?

/-- The accepted submissions of a user, grouped by problem. -/
def completedProblems (accepted : List SubmissionRow) : List CompletedRow :=
  orderBy latestFirst ((accepted.map (·.problemId)).dedup.map fun problem =>
    ⟨problem, minimum ((accepted.filter (·.problemId == problem)).map (·.completedAt))⟩)

/-- The streak query: of the distinct completion days, latest first, the number of those whose distance
    from the latest equals their position; `0` if the latest is before yesterday. -/
def streak (P : Platform) (now : Timestamp) (accepted : List SubmissionRow) : Int :=
  let days := orderBy (fun a b => decide (b ≤ a))
    ((accepted.filterMap (·.completedAt)).map P.date).dedup
  match days with
  | [] => 0
  | latest :: _ =>
      if latest < P.date now - 1 then 0
      else (days.zipIdx.countP fun d => decide (latest - d.1 = (d.2 : Int)) : Nat)

/-! ## What the server does -/

namespace Database

/-- `UPDATE submissions SET … WHERE … RETURNING …`. -/
def updateSubmissions (db : Database) (message : String) (p : SubmissionRow → Bool)
    (f : SubmissionRow → SubmissionRow) (hf : ∀ r, p r = true → (f r).id = r.id) :
    Database × Result SubmissionRow :=
  let rows := (db.submissions.select p).map f
  if rows.all SubmissionRow.check then
    ({ db with submissions := db.submissions.update p f hf }, .tuples rows)
  else (db, .failed .checkViolation message)

def nextUserId (db : Database) : Database :=
  { db with sequences := { db.sequences with users := db.sequences.users + 1 } }

def nextSessionId (db : Database) : Database :=
  { db with sequences := { db.sequences with sessions := db.sequences.sessions + 1 } }

def nextTestId (db : Database) : Database :=
  { db with sequences := { db.sequences with problemTests := db.sequences.problemTests + 1 } }

def nextSubmissionId (db : Database) : Database :=
  { db with sequences := { db.sequences with submissions := db.sequences.submissions + 1 } }

def nextAuditId (db : Database) : Database :=
  { db with sequences := { db.sequences with adminAuditLog := db.sequences.adminAuditLog + 1 } }

/-- `REFERENCES users(id)`. -/
def hasUser (db : Database) (id : Int) : Bool := decide (0 < db.users.count (·.id == id))

/-- The users of the live sessions with this token hash. -/
def sessionUsers (db : Database) (tokenHash : String) : List UserRow :=
  (db.sessions.select fun s => s.tokenHash == tokenHash && decide (db.clock < s.expiresAt)).flatMap
    fun s => db.users.select (·.id == s.userId)

end Database

/-- One statement that commits by itself; `message` is the server's text for an error. The length of the
    index rows is not looked at here: `serveIndexed` does it for the rows that a call has written. -/
def Statement.exec (P : Platform) (message : String) :
    (s : Statement) → Database → Database × Result s.Row
  | .insertUser username hash, db =>
      let row : UserRow := ⟨db.sequences.users, username, hash, db.clock, false⟩
      if db.users.count (fun u => u.id == row.id || P.lower u.username == P.lower username) = 0 then
        ({ db.nextUserId with users := db.users.insert row }, .tuples [row])
      else (db.nextUserId, .tuples [])
  | .upsertAdmin username hash, db =>
      match db.users.select (fun u => P.lower u.username == P.lower username) with
      | user :: _ =>
          let row := { user with passwordHash := hash, isAdmin := true }
          ({ db.nextUserId with users := db.users.put row }, .tuples [row])
      | [] =>
          let row : UserRow := ⟨db.sequences.users, username, hash, db.clock, true⟩
          if db.users.count (fun u => u.id == row.id) = 0 then
            ({ db.nextUserId with users := db.users.insert row }, .tuples [row])
          else (db.nextUserId, .failed .uniqueViolation message)
  | .selectUserByName username, db =>
      (db, .tuples (db.users.select fun u => P.lower u.username == P.lower username))
  | .insertSession userId tokenHash lifetimeSeconds, db =>
      let row : SessionRow :=
        ⟨db.sequences.sessions, userId, tokenHash, db.clock, db.clock + lifetimeSeconds * second⟩
      if db.sessions.count (fun s => s.id == row.id || s.tokenHash == tokenHash) ≠ 0 then
        (db.nextSessionId, .failed .uniqueViolation message)
      else if db.hasUser userId then
        ({ db.nextSessionId with sessions := db.sessions.insert row }, .command)
      else (db.nextSessionId, .failed .foreignKeyViolation message)
  | .selectSessionUser tokenHash, db => (db, .tuples (db.sessionUsers tokenHash))
  | .deleteSession tokenHash, db =>
      ({ db with sessions := db.sessions.delete (·.tokenHash == tokenHash) }, .command)
  | .countActive userId, db =>
      (db, .tuples [db.submissions.count fun r => r.active && r.userId == userId])
  | .completeSubmission verdict errorType id, db =>
      db.updateSubmissions message (fun r => r.id == id && r.status == "running")
        (fun r => { r with
          status := "completed", verdict := some verdict, errorType := errorType,
          completedAt := some db.clock })
        (fun _ _ => rfl)
  | .failSubmission errorType id, db =>
      db.updateSubmissions message (fun r => r.id == id && r.status == "running")
        (fun r => { r with
          status := "failed", errorType := errorType, completedAt := some db.clock })
        (fun _ _ => rfl)
  | .recoverRunning, db =>
      let answer := db.updateSubmissions message (fun r => r.status == "running")
        (fun r => { r with status := "queued" }) (fun _ _ => rfl)
      (answer.1, answer.2.map SubmissionRow.id)
  | .selectSubmission id, db => (db, .tuples (db.submissions.select (·.id == id)))
  | .selectHistory userId problemId, db =>
      (db, .tuples (orderBy newestFirst (db.submissions.select fun r =>
        r.userId == some userId && r.problemId == problemId)))
  | .selectAllSubmissions, db =>
      (db, .tuples (orderBy newestFirst db.submissions.rows))
  | .selectFiltered filter, db =>
      match filter.createdFrom.mapM P.readTimestamp, filter.createdTo.mapM P.readTimestamp with
      | some createdFrom, some createdTo =>
          (db, .tuples ((orderBy newestFirst (db.submissions.select fun r =>
            filter.status.all (r.status == ·) && filter.errorType.all (r.errorType == some ·)
              && filter.language.all (r.language == ·) && filter.problemId.all (r.problemId == ·)
              && filter.userId.all (r.userId == some ·)
              && createdFrom.all (fun t => decide (t ≤ r.createdAt))
              && createdTo.all (fun t => decide (r.createdAt ≤ t)))).take 500))
      | _, _ => (db, .failed .invalidText message)
  | .insertAudit adminUserId action entityType entityId details, db =>
      let row : AuditRow :=
        ⟨db.sequences.adminAuditLog, adminUserId, action, entityType, entityId, details, db.clock⟩
      if !details.storable then (db, .failed .invalidText message)
      else if db.adminAuditLog.count (·.id == row.id) ≠ 0 then
        (db.nextAuditId, .failed .uniqueViolation message)
      else if db.hasUser adminUserId then
        ({ db.nextAuditId with adminAuditLog := db.adminAuditLog.insert row }, .command)
      else (db.nextAuditId, .failed .foreignKeyViolation message)
  | .selectActivity userId, db =>
      (db, .tuples [⟨db.submissions.count fun r => r.userId == some userId,
        db.submissions.count fun r => r.userId == some userId && r.verdict == some "Accepted",
        (orderBy newestFirst (db.submissions.select (·.userId == some userId))).head?.map
          (·.problemId)⟩])
  | .selectStreak userId, db =>
      (db, .tuples [streak P db.clock (db.submissions.select fun r =>
        r.userId == some userId && r.verdict == some "Accepted")])
  | .selectCompletedProblems userId, db =>
      (db, .tuples (completedProblems (db.submissions.select fun r =>
        r.userId == some userId && r.verdict == some "Accepted")))
  | .selectProblems onlyEnabled, db =>
      (db, .tuples (orderBy oldestFirst (db.problems.select fun p => !onlyEnabled || p.enabled)))
  | .selectProblem id onlyEnabled, db =>
      (db, .tuples (db.problems.select fun p => p.id == id && (!onlyEnabled || p.enabled)))
  | .selectTests problemId onlyEnabled, db =>
      (db, .tuples (orderBy byPosition (db.problemTests.select fun t =>
        t.problemId == problemId && (!onlyEnabled || t.enabled))))
  | .insertProblem p, db =>
      let row : ProblemRow :=
        ⟨p.id, p.title, p.description, p.inputFormat, p.outputFormat, p.difficulty, p.tagsJson,
          p.languagesJson, p.examplesJson, p.enabled, db.clock, db.clock, 1⟩
      if !(p.tagsJson.storable && p.languagesJson.storable && p.examplesJson.storable) then
        (db, .failed .invalidText message)
      else if !row.check then (db, .failed .checkViolation message)
      else if db.problems.count (·.id == p.id) ≠ 0 then (db, .failed .uniqueViolation message)
      else ({ db with problems := db.problems.insert row }, .tuples [row])
  | .updateProblem p revision, db =>
      let new := fun r : ProblemRow => { r with
        title := p.title, description := p.description, inputFormat := p.inputFormat,
        outputFormat := p.outputFormat, difficulty := p.difficulty, tagsJson := p.tagsJson,
        languagesJson := p.languagesJson, examplesJson := p.examplesJson, enabled := p.enabled,
        revision := r.revision + 1, updatedAt := db.clock }
      let selected := fun r : ProblemRow => r.id == p.id && r.revision == revision
      let rows := (db.problems.select selected).map new
      if !(p.tagsJson.storable && p.languagesJson.storable && p.examplesJson.storable) then
        (db, .failed .invalidText message)
      else if rows.all ProblemRow.check then
        ({ db with problems := db.problems.update selected new }, .tuples rows)
      else (db, .failed .checkViolation message)
  | .deleteProblem id, db =>
      ({ db with
          problems := db.problems.delete (·.id == id)
          problemTests := db.problemTests.delete (·.problemId == id) },
        .tuples ((db.problems.select (·.id == id)).map (·.id)))
  | .insertTest problemId input expectedOutput position enabled, db =>
      let row : ProblemTestRow :=
        ⟨db.sequences.problemTests, problemId, input, expectedOutput, position, enabled, 1⟩
      if db.problemTests.count
          (fun t => t.id == row.id || (t.problemId == problemId && t.position == position)) ≠ 0 then
        (db.nextTestId, .failed .uniqueViolation message)
      else if db.problems.count (·.id == problemId) = 0 then
        (db.nextTestId, .failed .foreignKeyViolation message)
      else ({ db.nextTestId with problemTests := db.problemTests.insert row }, .tuples [row])
  | .updateTest input expectedOutput position enabled id problemId revision, db =>
      let new := fun r : ProblemTestRow => { r with
        input := input, expectedOutput := expectedOutput, position := position, enabled := enabled,
        revision := r.revision + 1 }
      let selected := fun r : ProblemTestRow =>
        r.id == id && r.problemId == problemId && r.revision == revision
      let rows := (db.problemTests.select selected).map new
      let taken := fun r : ProblemTestRow => r.id != id && r.problemId == problemId
        && r.position == position
      if !rows.isEmpty && decide (db.problemTests.count taken ≠ 0) then
        (db, .failed .uniqueViolation message)
      else if rows.all ProblemTestRow.check then
        ({ db with problemTests := db.problemTests.update selected new }, .tuples rows)
      else (db, .failed .checkViolation message)
  | .deleteTest id problemId, db =>
      let selected := fun r : ProblemTestRow => r.id == id && r.problemId == problemId
      ({ db with problemTests := db.problemTests.delete selected },
        .tuples ((db.problemTests.select selected).map (·.id)))

/-! ## Statements of a locked transaction -/

/-- The statements that are sent through `execute_locked`. -/
inductive LockedStatement where
  | insertSubmission (problemId language sourceCode : String) (userId : Option Int)
      (maximumActive maximumActivePerUser : Int)
  | claimSubmission (maximumRunningPerUser : Int)
  | retrySubmission (id maximumActive maximumActivePerUser adminUserId : Int)

/-- What a statement of an open transaction wrote, until the commit makes it visible. -/
structure Changes where
  inserted : Option SubmissionRow
  updated : Option SubmissionRow
  audited : Option AuditRow

def Changes.empty : Changes := ⟨none, none, none⟩

/-- The commit: the pending rows become visible. -/
def Changes.apply (e : Changes) (db : Database) : Database :=
  let inserted := e.inserted.elim db.submissions db.submissions.insert
  { db with
    submissions := e.updated.elim inserted inserted.put
    adminAuditLog := e.audited.elim db.adminAuditLog db.adminAuditLog.insert }

namespace Database

/-- The number of queued or running submissions of a bucket; `none` is the anonymous bucket. -/
def activeOf (db : Database) (user : Option Int) : Nat :=
  db.submissions.count fun r => r.active && r.userId == user

def active (db : Database) : Nat := db.submissions.count SubmissionRow.active

def runningOf (db : Database) (user : Option Int) : Nat :=
  db.submissions.count fun r => r.status == "running" && r.userId == user

/-- The two admission subqueries. -/
def admits (db : Database) (user : Option Int) (maximum maximumPerUser : Int) : Bool :=
  decide ((db.active : Int) < maximum) && decide ((db.activeOf user : Int) < maximumPerUser)

/-- Insert one submission: its id is drawn first, then the constraints are checked. -/
def planInsert (db : Database) (row : SubmissionRow) (audited : Option AuditRow) :
    Except SqlState (Changes × List SubmissionRow) :=
  if !row.check then .error .checkViolation
  else if db.submissions.count (fun r => r.id == row.id
        || (row.retryOf.isSome && r.retryOf == row.retryOf)) ≠ 0
      || audited.any (fun a => db.adminAuditLog.count (·.id == a.id) ≠ 0) then
    .error .uniqueViolation
  else if !(row.userId.all db.hasUser && audited.all fun a => db.hasUser a.adminUserId) then
    .error .foreignKeyViolation
  else .ok (⟨some row, none, audited⟩, [row])

/-- The row that a claim takes: of the queued rows whose owner is below the limit, in the order of their
    ids, the first that no other transaction has locked. -/
def candidate (db : Database) (limit : Int) (lockedRows : Int → Bool) : Option SubmissionRow :=
  (orderBy (fun a b => decide (a.id ≤ b.id)) (db.submissions.select fun r =>
    r.status == "queued" && decide ((db.runningOf r.userId : Int) < limit))).find?
      fun r => !lockedRows r.id

end Database

/-- Evaluate a statement of an open transaction on the committed rows: the database with the ids it drew,
    and its writes and rows, or why it failed, the length of its index rows apart (`serveIndexed`).
    `lockedRows` are those `SKIP LOCKED` passes over. -/
def LockedStatement.plan (lockedRows : Int → Bool) :
    LockedStatement → Database → Database × Except SqlState (Changes × List SubmissionRow)
  | .insertSubmission problemId language sourceCode userId maximum maximumPerUser, db =>
      if db.admits userId maximum maximumPerUser then
        (db.nextSubmissionId, db.planInsert
          ⟨db.sequences.submissions, problemId, language, sourceCode, "queued", none, db.clock, none,
            userId, none, none⟩ none)
      else (db, .ok (.empty, []))
  | .claimSubmission limit, db =>
      match db.candidate limit lockedRows with
      | some r =>
          let row := { r with status := "running" }
          if row.check then (db, .ok (⟨none, some row, none⟩, [row]))
          else (db, .error .checkViolation)
      | none => (db, .ok (.empty, []))
  | .retrySubmission id maximum maximumPerUser adminUserId, db =>
      match db.submissions.select (fun r => r.id == id
        && (r.status == "failed" || r.verdict == some "Runtime Error")) with
      | original :: _ =>
          if db.submissions.count (·.retryOf == some id) = 0
              ∧ db.admits original.userId maximum maximumPerUser = true then
            (db.nextSubmissionId.nextAuditId, db.planInsert
              ⟨db.sequences.submissions, original.problemId, original.language, original.sourceCode,
                "queued", none, db.clock, none, original.userId, none, some original.id⟩
              (some ⟨db.sequences.adminAuditLog, adminUserId, "submission.retry", "submission",
                toString id, .object [("retrySubmissionId", .int db.sequences.submissions)],
                db.clock⟩))
          else (db, .ok (.empty, []))
      | [] => (db, .ok (.empty, []))

end AlgorithmTrainer
