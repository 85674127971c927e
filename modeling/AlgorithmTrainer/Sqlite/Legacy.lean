import AlgorithmTrainer.Sqlite.AuthService
import AlgorithmTrainer.Sqlite.Problems

/-!
# `Sqlite.Legacy` — the database that the transfer tool reads

The six tables that the SQLite service and repositories leave, with the value of each column as SQLite stores
it, and the `tables` of the tool: which columns it selects, and the cast under which it inserts each.
-/

namespace AlgorithmTrainer

open Relational

/-- What `sqlite3_column_type` tells apart. -/
inductive Cell where
  | null
  | integer (value : Int)
  | text (value : String)
deriving DecidableEq

namespace Cell

def bool (b : Bool) : Cell := .integer (if b then 1 else 0)

def nullable {α : Type} (f : α → Cell) : Option α → Cell
  | none => .null
  | some a => f a

/-- A parameter of the insert: no value for `NULL`, and else what `sqlite3_column_text` returns, up to the
    first U+0000, since `Connection::execute` passes it on as a C string. -/
def parameter : Cell → Option CString
  | .null => none
  | .integer n => some ⟨cStr (toString n), by
      rw [cStr, String.toList_ofList]
      exact fun h => absurd (List.mem_takeWhile_imp h) (by decide)⟩
  | .text s => some ⟨cStr s, by
      rw [cStr, String.toList_ofList]
      exact fun h => absurd (List.mem_takeWhile_imp h) (by decide)⟩

/-- No text contains U+0000. -/
def NulFree : Cell → Prop
  | .text s => '\x00' ∉ s.toList
  | _ => True

instance : DecidablePred NulFree
  | .text s => inferInstanceAs (Decidable ('\x00' ∉ s.toList))
  | .null | .integer _ => isTrue trivial

end Cell

/-! ## Columns -/

def SqliteUserRow.column (r : SqliteUserRow) : String → Cell
  | "id" => .integer r.id
  | "username" => .text r.username
  | "password_hash" => .text r.passwordHash
  | "created_at" => .text r.createdAt
  | "is_admin" => .bool r.isAdmin
  | _ => .null

def SqliteSessionRow.column (r : SqliteSessionRow) : String → Cell
  | "id" => .integer r.id
  | "user_id" => .integer r.userId
  | "token_hash" => .text r.tokenHash
  | "created_at" => .text r.createdAt
  | "expires_at" => .text r.expiresAt
  | _ => .null

def SqliteProblemRow.column (r : SqliteProblemRow) : String → Cell
  | "id" => .text r.id
  | "title" => .text r.title
  | "description" => .text r.description
  | "input_format" => .text r.inputFormat
  | "output_format" => .text r.outputFormat
  | "difficulty" => .text r.difficulty
  | "tags_json" => .text r.tagsJson
  | "languages_json" => .text r.languagesJson
  | "examples_json" => .text r.examplesJson
  | "enabled" => .bool r.enabled
  | "created_at" => .text r.createdAt
  | "updated_at" => .text r.updatedAt
  | "revision" => .integer r.revision
  | _ => .null

def SqliteProblemTestRow.column (r : SqliteProblemTestRow) : String → Cell
  | "id" => .integer r.id
  | "problem_id" => .text r.problemId
  | "input" => .text r.input
  | "expected_output" => .text r.expectedOutput
  | "position" => .integer r.position
  | "enabled" => .bool r.enabled
  | "revision" => .integer r.revision
  | _ => .null

def SqliteSubmissionRow.column (r : SqliteSubmissionRow) : String → Cell
  | "id" => .integer r.id
  | "problem_id" => .text r.problemId
  | "language" => .text r.language
  | "source_code" => .text r.sourceCode
  | "status" => .text r.status
  | "verdict" => .nullable .text r.verdict
  | "created_at" => .text r.createdAt
  | "completed_at" => .nullable .text r.completedAt
  | "user_id" => .nullable .integer r.userId
  | "error_type" => .nullable .text r.errorType
  | "retry_of" => .nullable .integer r.retryOf
  | _ => .null

def SqliteAuditRow.column (r : SqliteAuditRow) : String → Cell
  | "id" => .integer r.id
  | "admin_user_id" => .integer r.adminUserId
  | "action" => .text r.action
  | "entity_type" => .text r.entityType
  | "entity_id" => .text r.entityId
  | "details_json" => .text r.detailsJson
  | "created_at" => .text r.createdAt
  | _ => .null

/-! ## The tables of the tool -/

/-- What follows a placeholder of the insert. -/
inductive Cast where
  | plain
  /-- `::bigint`. -/
  | bigint
  /-- `::timestamptz`. -/
  | timestamptz
  /-- `::integer::boolean`. -/
  | integerBoolean
  /-- `::jsonb`. -/
  | jsonb
deriving DecidableEq

inductive LegacyTable where
  | users
  | sessions
  | problems
  | problemTests
  | submissions
  | adminAuditLog
deriving DecidableEq

/-- The columns of a table in the tool's order, each with its expression. -/
def LegacyTable.columns : LegacyTable → List (String × Cast)
  | .users => [("id", .bigint), ("username", .plain), ("password_hash", .plain),
      ("created_at", .timestamptz), ("is_admin", .integerBoolean)]
  | .sessions => [("id", .bigint), ("user_id", .bigint), ("token_hash", .plain),
      ("created_at", .timestamptz), ("expires_at", .timestamptz)]
  | .problems => [("id", .plain), ("title", .plain), ("description", .plain), ("input_format", .plain),
      ("output_format", .plain), ("difficulty", .plain), ("tags_json", .jsonb),
      ("languages_json", .jsonb), ("examples_json", .jsonb), ("enabled", .integerBoolean),
      ("created_at", .timestamptz), ("updated_at", .timestamptz), ("revision", .bigint)]
  | .problemTests => [("id", .bigint), ("problem_id", .plain), ("input", .plain),
      ("expected_output", .plain), ("position", .bigint), ("enabled", .integerBoolean),
      ("revision", .bigint)]
  | .submissions => [("id", .bigint), ("problem_id", .plain), ("language", .plain),
      ("source_code", .plain), ("status", .plain), ("verdict", .plain), ("created_at", .timestamptz),
      ("completed_at", .timestamptz), ("user_id", .bigint), ("error_type", .plain),
      ("retry_of", .bigint)]
  | .adminAuditLog => [("id", .bigint), ("admin_user_id", .bigint), ("action", .plain),
      ("entity_type", .plain), ("entity_id", .plain), ("details_json", .jsonb),
      ("created_at", .timestamptz)]

/-- The order in which the tool transfers them. -/
def transferredTables : List LegacyTable :=
  [.users, .sessions, .problems, .problemTests, .submissions, .adminAuditLog]

/-- The tables of the auth service, of the problem repository and of the submission repository. -/
structure LegacyDatabase where
  accounts : SqliteAuthDatabase
  catalog : SqliteCatalog
  queue : SqliteDatabase

namespace LegacyDatabase

/-! `ORDER BY id`. -/

def users (s : LegacyDatabase) : List SqliteUserRow :=
  orderBy (fun a b => decide (a.id ≤ b.id)) s.accounts.users.rows

def sessions (s : LegacyDatabase) : List SqliteSessionRow :=
  orderBy (fun a b => decide (a.id ≤ b.id)) s.accounts.sessions.rows

def problems (s : LegacyDatabase) : List SqliteProblemRow :=
  orderBy (fun a b => decide (a.id ≤ b.id)) s.catalog.problems.rows

def problemTests (s : LegacyDatabase) : List SqliteProblemTestRow :=
  orderBy (fun a b => decide (a.id ≤ b.id)) s.catalog.problemTests.rows

def submissions (s : LegacyDatabase) : List SqliteSubmissionRow :=
  orderBy (fun a b => decide (a.id ≤ b.id)) s.queue.submissions.rows

def adminAuditLog (s : LegacyDatabase) : List SqliteAuditRow :=
  orderBy (fun a b => decide (a.id ≤ b.id)) s.queue.adminAuditLog.rows

/-- The rows of a table, each as the values of its columns. -/
def rows (s : LegacyDatabase) : LegacyTable → List (String → Cell)
  | .users => s.users.map SqliteUserRow.column
  | .sessions => s.sessions.map SqliteSessionRow.column
  | .problems => s.problems.map SqliteProblemRow.column
  | .problemTests => s.problemTests.map SqliteProblemTestRow.column
  | .submissions => s.submissions.map SqliteSubmissionRow.column
  | .adminAuditLog => s.adminAuditLog.map SqliteAuditRow.column

/-- `SELECT columns FROM name ORDER BY id`. -/
def select (s : LegacyDatabase) (t : LegacyTable) : List (List Cell) :=
  (s.rows t).map fun r => t.columns.map fun x => r x.1

/-- No text of a row that is transferred contains U+0000. -/
def NulFree (s : LegacyDatabase) : Prop :=
  ∀ t, ∀ r ∈ s.rows t, ∀ x ∈ t.columns, (r x.1).NulFree

end LegacyDatabase
end AlgorithmTrainer
