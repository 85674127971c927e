import AlgorithmTrainer.Lib.Decimal
import AlgorithmTrainer.Sqlite.Legacy

/-!
# `Sqlite.Copying` — what PostgreSQL makes of the rows that the transfer tool inserts

The server casts each parameter as the insert says, checks the constraints of the table and adds the row. A
`TargetTable` describes one table of the target. `insert_values` says what an insert does, and
`sameColumns_iff` when a row arrives as it is.

## Contents
- **Values.** What a cast reads of a parameter (`Cast.read`), and when a value in PostgreSQL is that of a cell
  in SQLite (`SameValue`).
- **Rows.** Each table's rows as functions from column names to values. That a row has the values it was made
  of is shown by going through its columns in the order in which they are read.
- **Constraints**, one function for each table, in the order in which the server checks them.
- **The tables of the target** and one insert into any of them.
- **What is lost on the way**: a parameter is a C string, so a text is cut at U+0000, and nothing else is lost
  (`sameValue_iff`).
-/

namespace AlgorithmTrainer

open Relational

/-! ## Values -/

/-- A value of a column in PostgreSQL. -/
inductive PgValue where
  | null
  | bigint (value : Int)
  | text (value : String)
  | boolean (value : Bool)
  | timestamptz (value : Timestamp)
  | jsonb (value : Json)

namespace PgValue

/-- The value of a column that may be `NULL`. -/
def nullable {α : Type} (f : α → PgValue) : Option α → PgValue
  | none => .null
  | some a => f a

/-! What is read of a value of the type, and nothing of a value of another. -/

def bigint? : PgValue → Option Int
  | .bigint n => some n
  | _ => none

def text? : PgValue → Option String
  | .text s => some s
  | _ => none

def boolean? : PgValue → Option Bool
  | .boolean b => some b
  | _ => none

def timestamptz? : PgValue → Option Timestamp
  | .timestamptz t => some t
  | _ => none

def jsonb? : PgValue → Option Json
  | .jsonb j => some j
  | _ => none

/-- A column that may be `NULL`. -/
def nullable? {α : Type} (f : PgValue → Option α) (v : PgValue) : Option (Option α) :=
  match v with
  | .null => some none
  | v => (f v).map some

end PgValue

/-- What the server reads as `jsonb`. -/
abbrev ReadJsonb := CString → Option Json

/-- The value of a parameter under a cast. -/
def Cast.read (P : Platform) (readJsonb : ReadJsonb) (c : Cast) : Option CString → Option PgValue
  | none => some .null
  | some s =>
      match c with
      | .plain => some (.text s.val)
      | .bigint => (Decimal.readInt s.val.toList).map .bigint
      | .timestamptz => (P.readTimestamp s.val).map .timestamptz
      | .integerBoolean => (Decimal.readInt s.val.toList).map fun n => .boolean (decide (n ≠ 0))
      | .jsonb => (readJsonb s).map .jsonb

/-- The value in PostgreSQL is that of the cell, under the cast: the same text, the same integer, the instant
    or the JSON value that the text denotes, or `NULL`. -/
inductive SameValue (P : Platform) (readJsonb : ReadJsonb) : Cast → Cell → PgValue → Prop where
  | null {c : Cast} : SameValue P readJsonb c .null .null
  | text {s : String} : SameValue P readJsonb .plain (.text s) (.text s)
  | bigint {n : Int} : SameValue P readJsonb .bigint (.integer n) (.bigint n)
  | boolean {b : Bool} : SameValue P readJsonb .integerBoolean (.bool b) (.boolean b)
  | timestamptz {s : String} {t : Timestamp} (hnul : '\x00' ∉ s.toList) (h : P.readTimestamp s = some t) :
      SameValue P readJsonb .timestamptz (.text s) (.timestamptz t)
  | jsonb {s : String} {j : Json} (hnul : '\x00' ∉ s.toList) (h : readJsonb ⟨s, hnul⟩ = some j) :
      SameValue P readJsonb .jsonb (.text s) (.jsonb j)

/-! ## Rows

`value` is a row as the values of its columns, and `ofValues` the row that an `INSERT` makes of values.
-/

def UserRow.value (r : UserRow) : String → PgValue
  | "id" => .bigint r.id
  | "username" => .text r.username
  | "password_hash" => .text r.passwordHash
  | "created_at" => .timestamptz r.createdAt
  | "is_admin" => .boolean r.isAdmin
  | _ => .null

def UserRow.ofValues (v : String → PgValue) : Option UserRow := do
  let id ← (v "id").bigint?
  let username ← (v "username").text?
  let passwordHash ← (v "password_hash").text?
  let createdAt ← (v "created_at").timestamptz?
  let isAdmin ← (v "is_admin").boolean?
  pure { id, username, passwordHash, createdAt, isAdmin }

def SessionRow.value (r : SessionRow) : String → PgValue
  | "id" => .bigint r.id
  | "user_id" => .bigint r.userId
  | "token_hash" => .text r.tokenHash
  | "created_at" => .timestamptz r.createdAt
  | "expires_at" => .timestamptz r.expiresAt
  | _ => .null

def SessionRow.ofValues (v : String → PgValue) : Option SessionRow := do
  let id ← (v "id").bigint?
  let userId ← (v "user_id").bigint?
  let tokenHash ← (v "token_hash").text?
  let createdAt ← (v "created_at").timestamptz?
  let expiresAt ← (v "expires_at").timestamptz?
  pure { id, userId, tokenHash, createdAt, expiresAt }

def ProblemRow.value (r : ProblemRow) : String → PgValue
  | "id" => .text r.id
  | "title" => .text r.title
  | "description" => .text r.description
  | "input_format" => .text r.inputFormat
  | "output_format" => .text r.outputFormat
  | "difficulty" => .text r.difficulty
  | "tags_json" => .jsonb r.tagsJson
  | "languages_json" => .jsonb r.languagesJson
  | "examples_json" => .jsonb r.examplesJson
  | "enabled" => .boolean r.enabled
  | "created_at" => .timestamptz r.createdAt
  | "updated_at" => .timestamptz r.updatedAt
  | "revision" => .bigint r.revision
  | _ => .null

def ProblemRow.ofValues (v : String → PgValue) : Option ProblemRow := do
  let id ← (v "id").text?
  let title ← (v "title").text?
  let description ← (v "description").text?
  let inputFormat ← (v "input_format").text?
  let outputFormat ← (v "output_format").text?
  let difficulty ← (v "difficulty").text?
  let tagsJson ← (v "tags_json").jsonb?
  let languagesJson ← (v "languages_json").jsonb?
  let examplesJson ← (v "examples_json").jsonb?
  let enabled ← (v "enabled").boolean?
  let createdAt ← (v "created_at").timestamptz?
  let updatedAt ← (v "updated_at").timestamptz?
  let revision ← (v "revision").bigint?
  pure { id, title, description, inputFormat, outputFormat, difficulty, tagsJson, languagesJson,
         examplesJson, enabled, createdAt, updatedAt, revision }

def ProblemTestRow.value (r : ProblemTestRow) : String → PgValue
  | "id" => .bigint r.id
  | "problem_id" => .text r.problemId
  | "input" => .text r.input
  | "expected_output" => .text r.expectedOutput
  | "position" => .bigint r.position
  | "enabled" => .boolean r.enabled
  | "revision" => .bigint r.revision
  | _ => .null

def ProblemTestRow.ofValues (v : String → PgValue) : Option ProblemTestRow := do
  let id ← (v "id").bigint?
  let problemId ← (v "problem_id").text?
  let input ← (v "input").text?
  let expectedOutput ← (v "expected_output").text?
  let position ← (v "position").bigint?
  let enabled ← (v "enabled").boolean?
  let revision ← (v "revision").bigint?
  pure { id, problemId, input, expectedOutput, position, enabled, revision }

def SubmissionRow.value (r : SubmissionRow) : String → PgValue
  | "id" => .bigint r.id
  | "problem_id" => .text r.problemId
  | "language" => .text r.language
  | "source_code" => .text r.sourceCode
  | "status" => .text r.status
  | "verdict" => .nullable .text r.verdict
  | "created_at" => .timestamptz r.createdAt
  | "completed_at" => .nullable .timestamptz r.completedAt
  | "user_id" => .nullable .bigint r.userId
  | "error_type" => .nullable .text r.errorType
  | "retry_of" => .nullable .bigint r.retryOf
  | _ => .null

def SubmissionRow.ofValues (v : String → PgValue) : Option SubmissionRow := do
  let id ← (v "id").bigint?
  let problemId ← (v "problem_id").text?
  let language ← (v "language").text?
  let sourceCode ← (v "source_code").text?
  let status ← (v "status").text?
  let verdict ← (v "verdict").nullable? PgValue.text?
  let createdAt ← (v "created_at").timestamptz?
  let completedAt ← (v "completed_at").nullable? PgValue.timestamptz?
  let userId ← (v "user_id").nullable? PgValue.bigint?
  let errorType ← (v "error_type").nullable? PgValue.text?
  let retryOf ← (v "retry_of").nullable? PgValue.bigint?
  pure { id, problemId, language, sourceCode, status, verdict, createdAt, completedAt, userId, errorType,
         retryOf }

def AuditRow.value (r : AuditRow) : String → PgValue
  | "id" => .bigint r.id
  | "admin_user_id" => .bigint r.adminUserId
  | "action" => .text r.action
  | "entity_type" => .text r.entityType
  | "entity_id" => .text r.entityId
  | "details_json" => .jsonb r.detailsJson
  | "created_at" => .timestamptz r.createdAt
  | _ => .null

def AuditRow.ofValues (v : String → PgValue) : Option AuditRow := do
  let id ← (v "id").bigint?
  let adminUserId ← (v "admin_user_id").bigint?
  let action ← (v "action").text?
  let entityType ← (v "entity_type").text?
  let entityId ← (v "entity_id").text?
  let detailsJson ← (v "details_json").jsonb?
  let createdAt ← (v "created_at").timestamptz?
  pure { id, adminUserId, action, entityType, entityId, detailsJson, createdAt }

/-! ### Reading a value -/

theorem bigint?_eq_some {v : PgValue} {n : Int} : v.bigint? = some n ↔ v = .bigint n := by
  cases v <;> simp [PgValue.bigint?]

theorem text?_eq_some {v : PgValue} {s : String} : v.text? = some s ↔ v = .text s := by
  cases v <;> simp [PgValue.text?]

theorem boolean?_eq_some {v : PgValue} {b : Bool} : v.boolean? = some b ↔ v = .boolean b := by
  cases v <;> simp [PgValue.boolean?]

theorem timestamptz?_eq_some {v : PgValue} {t : Timestamp} :
    v.timestamptz? = some t ↔ v = .timestamptz t := by
  cases v <;> simp [PgValue.timestamptz?]

theorem jsonb?_eq_some {v : PgValue} {j : Json} : v.jsonb? = some j ↔ v = .jsonb j := by
  cases v <;> simp [PgValue.jsonb?]

/-- A column that may be `NULL`, read by a reader of values that are not. -/
theorem nullable?_eq_some {α : Type} {read : PgValue → Option α} {make : α → PgValue}
    (hread : ∀ v a, read v = some a ↔ v = make a) (hmake : ∀ a, make a ≠ .null) {v : PgValue}
    {o : Option α} : v.nullable? read = some o ↔ v = .nullable make o := by
  cases v with
  | null =>
      cases o with
      | none => simp [PgValue.nullable?, PgValue.nullable]
      | some a => simpa [PgValue.nullable?, PgValue.nullable] using (hmake a).symm
  | bigint _ | text _ | boolean _ | timestamptz _ | jsonb _ =>
      cases o <;> simp [PgValue.nullable?, PgValue.nullable, hread]

/-! ### A row has the values it was made of -/

section readers
variable {α β : Type} {v : PgValue} {b : β}

/-- A column that was read, and what follows. -/
theorem column_bind {read : PgValue → Option α} {make : α → PgValue}
    (hread : ∀ v a, read v = some a ↔ v = make a) {k : α → Option β} (h : (read v >>= k) = some b) :
    ∃ a, v = make a ∧ k a = some b := by
  obtain ⟨a, ha, hk⟩ := Option.bind_eq_some_iff.mp h
  exact ⟨a, (hread v a).mp ha, hk⟩

/-! The same for each type of column. -/

theorem bigint_bind {k : Int → Option β} (h : (v.bigint? >>= k) = some b) :
    ∃ n, v = .bigint n ∧ k n = some b := column_bind (fun _ _ => bigint?_eq_some) h

theorem text_bind {k : String → Option β} (h : (v.text? >>= k) = some b) :
    ∃ s, v = .text s ∧ k s = some b := column_bind (fun _ _ => text?_eq_some) h

theorem boolean_bind {k : Bool → Option β} (h : (v.boolean? >>= k) = some b) :
    ∃ x, v = .boolean x ∧ k x = some b := column_bind (fun _ _ => boolean?_eq_some) h

theorem timestamptz_bind {k : Timestamp → Option β} (h : (v.timestamptz? >>= k) = some b) :
    ∃ t, v = .timestamptz t ∧ k t = some b := column_bind (fun _ _ => timestamptz?_eq_some) h

theorem jsonb_bind {k : Json → Option β} (h : (v.jsonb? >>= k) = some b) :
    ∃ j, v = .jsonb j ∧ k j = some b := column_bind (fun _ _ => jsonb?_eq_some) h

theorem nullable_bigint_bind {k : Option Int → Option β} (h : (v.nullable? PgValue.bigint? >>= k) = some b) :
    ∃ o, v = .nullable .bigint o ∧ k o = some b :=
  column_bind (fun _ _ => nullable?_eq_some (fun _ _ => bigint?_eq_some) fun _ h => by cases h) h

theorem nullable_text_bind {k : Option String → Option β} (h : (v.nullable? PgValue.text? >>= k) = some b) :
    ∃ o, v = .nullable .text o ∧ k o = some b :=
  column_bind (fun _ _ => nullable?_eq_some (fun _ _ => text?_eq_some) fun _ h => by cases h) h

theorem nullable_timestamptz_bind {k : Option Timestamp → Option β}
    (h : (v.nullable? PgValue.timestamptz? >>= k) = some b) :
    ∃ o, v = .nullable .timestamptz o ∧ k o = some b :=
  column_bind (fun _ _ => nullable?_eq_some (fun _ _ => timestamptz?_eq_some) fun _ h => by cases h) h

end readers

/-! One column after the other, and in the end every name is looked up. -/

theorem UserRow.value_of_ofValues {v : String → PgValue} {r : UserRow}
    (h : UserRow.ofValues v = some r) : ∀ x ∈ LegacyTable.users.columns, v x.1 = r.value x.1 := by
  unfold UserRow.ofValues at h
  obtain ⟨_, h₁, h⟩ := bigint_bind h
  obtain ⟨_, h₂, h⟩ := text_bind h
  obtain ⟨_, h₃, h⟩ := text_bind h
  obtain ⟨_, h₄, h⟩ := timestamptz_bind h
  obtain ⟨_, h₅, h⟩ := boolean_bind h
  cases h
  simp only [LegacyTable.columns, List.forall_mem_cons, List.not_mem_nil, false_implies, implies_true, and_true]
  exact ⟨h₁, h₂, h₃, h₄, h₅⟩

theorem SessionRow.value_of_ofValues {v : String → PgValue} {r : SessionRow}
    (h : SessionRow.ofValues v = some r) : ∀ x ∈ LegacyTable.sessions.columns, v x.1 = r.value x.1 := by
  unfold SessionRow.ofValues at h
  obtain ⟨_, h₁, h⟩ := bigint_bind h
  obtain ⟨_, h₂, h⟩ := bigint_bind h
  obtain ⟨_, h₃, h⟩ := text_bind h
  obtain ⟨_, h₄, h⟩ := timestamptz_bind h
  obtain ⟨_, h₅, h⟩ := timestamptz_bind h
  cases h
  simp only [LegacyTable.columns, List.forall_mem_cons, List.not_mem_nil, false_implies, implies_true, and_true]
  exact ⟨h₁, h₂, h₃, h₄, h₅⟩

theorem ProblemRow.value_of_ofValues {v : String → PgValue} {r : ProblemRow}
    (h : ProblemRow.ofValues v = some r) : ∀ x ∈ LegacyTable.problems.columns, v x.1 = r.value x.1 := by
  unfold ProblemRow.ofValues at h
  obtain ⟨_, h₁, h⟩ := text_bind h
  obtain ⟨_, h₂, h⟩ := text_bind h
  obtain ⟨_, h₃, h⟩ := text_bind h
  obtain ⟨_, h₄, h⟩ := text_bind h
  obtain ⟨_, h₅, h⟩ := text_bind h
  obtain ⟨_, h₆, h⟩ := text_bind h
  obtain ⟨_, h₇, h⟩ := jsonb_bind h
  obtain ⟨_, h₈, h⟩ := jsonb_bind h
  obtain ⟨_, h₉, h⟩ := jsonb_bind h
  obtain ⟨_, h₁₀, h⟩ := boolean_bind h
  obtain ⟨_, h₁₁, h⟩ := timestamptz_bind h
  obtain ⟨_, h₁₂, h⟩ := timestamptz_bind h
  obtain ⟨_, h₁₃, h⟩ := bigint_bind h
  cases h
  simp only [LegacyTable.columns, List.forall_mem_cons, List.not_mem_nil, false_implies, implies_true, and_true]
  exact ⟨h₁, h₂, h₃, h₄, h₅, h₆, h₇, h₈, h₉, h₁₀, h₁₁, h₁₂, h₁₃⟩

theorem ProblemTestRow.value_of_ofValues {v : String → PgValue} {r : ProblemTestRow}
    (h : ProblemTestRow.ofValues v = some r) : ∀ x ∈ LegacyTable.problemTests.columns, v x.1 = r.value x.1 := by
  unfold ProblemTestRow.ofValues at h
  obtain ⟨_, h₁, h⟩ := bigint_bind h
  obtain ⟨_, h₂, h⟩ := text_bind h
  obtain ⟨_, h₃, h⟩ := text_bind h
  obtain ⟨_, h₄, h⟩ := text_bind h
  obtain ⟨_, h₅, h⟩ := bigint_bind h
  obtain ⟨_, h₆, h⟩ := boolean_bind h
  obtain ⟨_, h₇, h⟩ := bigint_bind h
  cases h
  simp only [LegacyTable.columns, List.forall_mem_cons, List.not_mem_nil, false_implies, implies_true, and_true]
  exact ⟨h₁, h₂, h₃, h₄, h₅, h₆, h₇⟩

theorem SubmissionRow.value_of_ofValues {v : String → PgValue} {r : SubmissionRow}
    (h : SubmissionRow.ofValues v = some r) : ∀ x ∈ LegacyTable.submissions.columns, v x.1 = r.value x.1 := by
  unfold SubmissionRow.ofValues at h
  obtain ⟨_, h₁, h⟩ := bigint_bind h
  obtain ⟨_, h₂, h⟩ := text_bind h
  obtain ⟨_, h₃, h⟩ := text_bind h
  obtain ⟨_, h₄, h⟩ := text_bind h
  obtain ⟨_, h₅, h⟩ := text_bind h
  obtain ⟨_, h₆, h⟩ := nullable_text_bind h
  obtain ⟨_, h₇, h⟩ := timestamptz_bind h
  obtain ⟨_, h₈, h⟩ := nullable_timestamptz_bind h
  obtain ⟨_, h₉, h⟩ := nullable_bigint_bind h
  obtain ⟨_, h₁₀, h⟩ := nullable_text_bind h
  obtain ⟨_, h₁₁, h⟩ := nullable_bigint_bind h
  cases h
  simp only [LegacyTable.columns, List.forall_mem_cons, List.not_mem_nil, false_implies, implies_true, and_true]
  exact ⟨h₁, h₂, h₃, h₄, h₅, h₆, h₇, h₈, h₉, h₁₀, h₁₁⟩

theorem AuditRow.value_of_ofValues {v : String → PgValue} {r : AuditRow}
    (h : AuditRow.ofValues v = some r) : ∀ x ∈ LegacyTable.adminAuditLog.columns, v x.1 = r.value x.1 := by
  unfold AuditRow.ofValues at h
  obtain ⟨_, h₁, h⟩ := bigint_bind h
  obtain ⟨_, h₂, h⟩ := bigint_bind h
  obtain ⟨_, h₃, h⟩ := text_bind h
  obtain ⟨_, h₄, h⟩ := text_bind h
  obtain ⟨_, h₅, h⟩ := text_bind h
  obtain ⟨_, h₆, h⟩ := jsonb_bind h
  obtain ⟨_, h₇, h⟩ := timestamptz_bind h
  cases h
  simp only [LegacyTable.columns, List.forall_mem_cons, List.not_mem_nil, false_implies, implies_true, and_true]
  exact ⟨h₁, h₂, h₃, h₄, h₅, h₆, h₇⟩

/-! ## Constraints -/

namespace Database

/-- The primary key and the index on `lower(username)`. -/
def refusesUser (P : Platform) (db : Database) (r : UserRow) : Option SqlState :=
  if db.users.count (fun u => u.id == r.id || P.lower u.username == P.lower r.username) ≠ 0 then
    some .uniqueViolation
  else none

/-- The primary key, `UNIQUE` of `token_hash`, and the user. -/
def refusesSession (db : Database) (r : SessionRow) : Option SqlState :=
  if db.sessions.count (fun s => s.id == r.id || s.tokenHash == r.tokenHash) ≠ 0 then
    some .uniqueViolation
  else if !db.hasUser r.userId then some .foreignKeyViolation
  else none

/-- The `CHECK` constraints and the primary key. -/
def refusesProblem (db : Database) (r : ProblemRow) : Option SqlState :=
  if !r.check then some .checkViolation
  else if db.problems.count (·.id == r.id) ≠ 0 then some .uniqueViolation
  else none

/-- The `CHECK` constraint, the primary key, `UNIQUE(problem_id, position)`, and the problem. -/
def refusesProblemTest (db : Database) (r : ProblemTestRow) : Option SqlState :=
  if !r.check then some .checkViolation
  else if db.problemTests.count
      (fun t => t.id == r.id || (t.problemId == r.problemId && t.position == r.position)) ≠ 0 then
    some .uniqueViolation
  else if db.problems.count (·.id == r.problemId) = 0 then some .foreignKeyViolation
  else none

/-- The `CHECK` constraints, the primary key and the index on `retry_of`, the user, and the submission that
    was retried. -/
def refusesSubmission (db : Database) (r : SubmissionRow) : Option SqlState :=
  if !r.check then some .checkViolation
  else if db.submissions.count
      (fun s => s.id == r.id || (r.retryOf.isSome && s.retryOf == r.retryOf)) ≠ 0 then
    some .uniqueViolation
  else if !r.userId.all db.hasUser then some .foreignKeyViolation
  else if !r.retryOf.all (fun id => id == r.id || decide (0 < db.submissions.count (·.id == id))) then
    some .foreignKeyViolation
  else none

/-- The primary key, and the administrator. -/
def refusesAudit (db : Database) (r : AuditRow) : Option SqlState :=
  if db.adminAuditLog.count (·.id == r.id) ≠ 0 then some .uniqueViolation
  else if !db.hasUser r.adminUserId then some .foreignKeyViolation
  else none

end Database

/-! ## The tables of the target -/

/-- A table of the target: how a row is made of values, which constraint refuses it, and where it is added. -/
structure TargetTable (columns : List (String × Cast)) where
  Row : Type
  value : Row → String → PgValue
  ofValues : (String → PgValue) → Option Row
  rows : Database → List Row
  refuses : Database → Row → Option SqlState
  add : Database → Row → Database
  value_of_ofValues : ∀ v r, ofValues v = some r → ∀ x ∈ columns, v x.1 = value r x.1
  rows_add : ∀ db r, refuses db r = none → rows (add db r) = rows db ++ [r]

section fresh
variable {P : Platform} {db : Database}

/-- A row whose key is not counted is appended. -/
theorem rows_insert_of_count {ρ κ : Type} [Keyed ρ κ] [DecidableEq κ] {t : Table ρ} {r : ρ} {p : ρ → Bool}
    (hp : ∀ x, Keyed.key x = Keyed.key r → p x = true) (h : t.count p = 0) :
    (t.insert r).rows = t.rows ++ [r] := by
  refine Table.rows_insert fun x hx hkey => ?_
  have hfalse := Table.count_eq_zero.mp h x hx
  rw [hp x hkey] at hfalse
  cases hfalse

/-! A row that its constraints do not refuse has an id that is not there yet, so it is appended. -/

theorem rows_user {r : UserRow} (h : db.refusesUser P r = none) :
    (db.users.insert r).rows = db.users.rows ++ [r] := by
  unfold Database.refusesUser at h
  split at h
  · cases h
  · rename_i hcount
    refine rows_insert_of_count (fun x hx => ?_) (not_not.mp hcount)
    have hid : x.id = r.id := hx
    simp [hid]

theorem rows_session {r : SessionRow} (h : db.refusesSession r = none) :
    (db.sessions.insert r).rows = db.sessions.rows ++ [r] := by
  unfold Database.refusesSession at h
  split at h
  · cases h
  · rename_i hcount
    refine rows_insert_of_count (fun x hx => ?_) (not_not.mp hcount)
    have hid : x.id = r.id := hx
    simp [hid]

theorem rows_problem {r : ProblemRow} (h : db.refusesProblem r = none) :
    (db.problems.insert r).rows = db.problems.rows ++ [r] := by
  unfold Database.refusesProblem at h
  split at h
  · cases h
  · split at h
    · cases h
    · rename_i hcount
      refine rows_insert_of_count (fun x hx => ?_) (not_not.mp hcount)
      exact beq_iff_eq.mpr hx

theorem rows_problemTest {r : ProblemTestRow} (h : db.refusesProblemTest r = none) :
    (db.problemTests.insert r).rows = db.problemTests.rows ++ [r] := by
  unfold Database.refusesProblemTest at h
  split at h
  · cases h
  · split at h
    · cases h
    · rename_i hcount
      refine rows_insert_of_count (fun x hx => ?_) (not_not.mp hcount)
      have hid : x.id = r.id := hx
      simp [hid]

theorem rows_submission {r : SubmissionRow} (h : db.refusesSubmission r = none) :
    (db.submissions.insert r).rows = db.submissions.rows ++ [r] := by
  unfold Database.refusesSubmission at h
  split at h
  · cases h
  · split at h
    · cases h
    · rename_i hcount
      refine rows_insert_of_count (fun x hx => ?_) (not_not.mp hcount)
      have hid : x.id = r.id := hx
      simp [hid]

theorem rows_audit {r : AuditRow} (h : db.refusesAudit r = none) :
    (db.adminAuditLog.insert r).rows = db.adminAuditLog.rows ++ [r] := by
  unfold Database.refusesAudit at h
  split at h
  · cases h
  · rename_i hcount
    refine rows_insert_of_count (fun x hx => ?_) (not_not.mp hcount)
    exact beq_iff_eq.mpr hx

end fresh

/-- The six tables. -/
def LegacyTable.target (P : Platform) : (t : LegacyTable) → TargetTable t.columns
  | .users => {
      Row := UserRow
      value := UserRow.value
      ofValues := UserRow.ofValues
      rows := fun db => db.users.rows
      refuses := Database.refusesUser P
      add := fun db r => { db with users := db.users.insert r }
      value_of_ofValues := fun _ _ => UserRow.value_of_ofValues
      rows_add := fun _ _ => rows_user }
  | .sessions => {
      Row := SessionRow
      value := SessionRow.value
      ofValues := SessionRow.ofValues
      rows := fun db => db.sessions.rows
      refuses := Database.refusesSession
      add := fun db r => { db with sessions := db.sessions.insert r }
      value_of_ofValues := fun _ _ => SessionRow.value_of_ofValues
      rows_add := fun _ _ => rows_session }
  | .problems => {
      Row := ProblemRow
      value := ProblemRow.value
      ofValues := ProblemRow.ofValues
      rows := fun db => db.problems.rows
      refuses := Database.refusesProblem
      add := fun db r => { db with problems := db.problems.insert r }
      value_of_ofValues := fun _ _ => ProblemRow.value_of_ofValues
      rows_add := fun _ _ => rows_problem }
  | .problemTests => {
      Row := ProblemTestRow
      value := ProblemTestRow.value
      ofValues := ProblemTestRow.ofValues
      rows := fun db => db.problemTests.rows
      refuses := Database.refusesProblemTest
      add := fun db r => { db with problemTests := db.problemTests.insert r }
      value_of_ofValues := fun _ _ => ProblemTestRow.value_of_ofValues
      rows_add := fun _ _ => rows_problemTest }
  | .submissions => {
      Row := SubmissionRow
      value := SubmissionRow.value
      ofValues := SubmissionRow.ofValues
      rows := fun db => db.submissions.rows
      refuses := Database.refusesSubmission
      add := fun db r => { db with submissions := db.submissions.insert r }
      value_of_ofValues := fun _ _ => SubmissionRow.value_of_ofValues
      rows_add := fun _ _ => rows_submission }
  | .adminAuditLog => {
      Row := AuditRow
      value := AuditRow.value
      ofValues := AuditRow.ofValues
      rows := fun db => db.adminAuditLog.rows
      refuses := Database.refusesAudit
      add := fun db r => { db with adminAuditLog := db.adminAuditLog.insert r }
      value_of_ofValues := fun _ _ => AuditRow.value_of_ofValues
      rows_add := fun _ _ => rows_audit }

/-- The rows of a table, each as the values of its columns. -/
def Database.values (P : Platform) (db : Database) (t : LegacyTable) : List (String → PgValue) :=
  ((t.target P).rows db).map (t.target P).value

/-- `INSERT INTO name(columns) VALUES($1::…, …)`. -/
def LegacyTable.insert (P : Platform) (readJsonb : ReadJsonb) (t : LegacyTable)
    (parameters : List (Option CString)) (db : Database) : Except SqlState Database :=
  match (t.columns.zip parameters).mapM fun x => x.1.2.read P readJsonb x.2 with
  | none => .error .invalidText
  | some values =>
      match (t.target P).ofValues fun name =>
          (((t.columns.map Prod.fst).zip values).lookup name).getD .null with
      | none => .error .invalidText
      | some row =>
          match (t.target P).refuses db row with
          | some state => .error state
          | none => .ok ((t.target P).add db row)

/-- A row is added to one table only. -/
theorem values_add {P : Platform} {t t' : LegacyTable} (h : t' ≠ t) (db : Database)
    (row : (t.target P).Row) : ((t.target P).add db row).values P t' = db.values P t' := by
  cases t <;> cases t' <;> first | rfl | exact absurd rfl h

/-- The ids that the tool inserts are explicit, and draw nothing from a sequence. -/
theorem sequences_add {P : Platform} {t : LegacyTable} (db : Database) (row : (t.target P).Row) :
    ((t.target P).add db row).sequences = db.sequences := by
  cases t <;> rfl

/-! ## One insert -/

/-- What is read for a column is what its name stands for. -/
theorem lookup_mapM {f : String × Cast → Option PgValue} {columns : List (String × Cast)}
    {values : List PgValue} (hnames : (columns.map Prod.fst).Nodup) (h : columns.mapM f = some values) :
    ∀ x ∈ columns, ∃ v, f x = some v ∧ ((columns.map Prod.fst).zip values).lookup x.1 = some v := by
  induction columns generalizing values with
  | nil => exact fun x hx => absurd hx List.not_mem_nil
  | cons y columns ih =>
      rw [List.mapM_cons] at h
      obtain ⟨v, hv, h⟩ := Option.bind_eq_some_iff.mp h
      obtain ⟨rest, hrest, h⟩ := Option.bind_eq_some_iff.mp h
      cases h
      rw [List.map_cons, List.nodup_cons] at hnames
      intro x hx
      rcases List.mem_cons.mp hx with rfl | hx
      · exact ⟨v, hv, by simp⟩
      · obtain ⟨v', hv', hlookup⟩ := ih hnames.2 hrest x hx
        have hne : x.1 ≠ y.1 := fun he => hnames.1 (he ▸ List.mem_map_of_mem hx)
        exact ⟨v', hv', by simpa [List.lookup_cons, beq_eq_false_iff_ne.mpr hne] using hlookup⟩

/-- What the server reads from the parameters of a row. -/
def LegacyTable.Reads (P : Platform) (readJsonb : ReadJsonb) (t : LegacyTable) (r : String → Cell)
    (v : String → PgValue) : Prop :=
  ∀ x ∈ t.columns, x.2.read P readJsonb (r x.1).parameter = some (v x.1)

/-- Every column of the row is equal under its cast. -/
def LegacyTable.SameColumns (P : Platform) (readJsonb : ReadJsonb) (t : LegacyTable) (r : String → Cell)
    (v : String → PgValue) : Prop :=
  ∀ x ∈ t.columns, SameValue P readJsonb x.2 (r x.1) (v x.1)

section insert
variable {P : Platform} {readJsonb : ReadJsonb} {t : LegacyTable} {r : String → Cell} {db db' : Database}

/-- The casts of an insert, applied to the parameters of a row. -/
theorem zip_parameters (columns : List (String × Cast)) (r : String → Cell) :
    (columns.zip ((columns.map fun x => r x.1).map Cell.parameter)).mapM
        (fun x => x.1.2.read P readJsonb x.2)
      = columns.mapM fun x => x.2.read P readJsonb (r x.1).parameter := by
  induction columns with
  | nil => rfl
  | cons x columns ih => simp only [List.map_cons, List.zip_cons_cons, List.mapM_cons, ih]

/-- No column is named twice. -/
theorem LegacyTable.nodup_columns (t : LegacyTable) : (t.columns.map Prod.fst).Nodup := by
  cases t <;> decide

/-- The row that an insert adds has what was read from the parameters, and no constraint refuses it. -/
theorem insert_ok (h : t.insert P readJsonb ((t.columns.map fun x => r x.1).map Cell.parameter) db = .ok db') :
    ∃ row, t.Reads P readJsonb r ((t.target P).value row) ∧ (t.target P).refuses db row = none ∧
      db' = (t.target P).add db row := by
  unfold LegacyTable.insert at h
  rw [zip_parameters] at h
  -- Three things can go wrong: a value is not read, a row is not made of them, a constraint refuses the row.
  split at h
  · cases h
  · rename_i values hvalues
    split at h
    · cases h
    · rename_i row hrow
      split at h
      · cases h
      · rename_i hrefuses
        cases h
        refine ⟨row, fun x hx => ?_, hrefuses, rfl⟩
        obtain ⟨v, hv, hlookup⟩ := lookup_mapM t.nodup_columns hvalues x hx
        have hvalue := (t.target P).value_of_ofValues _ row hrow x hx
        rw [hlookup, Option.getD_some] at hvalue
        rw [hv, hvalue]

/-- **What an insert does**: it adds a row with what was read, and changes no other table. -/
theorem insert_values
    (h : t.insert P readJsonb ((t.columns.map fun x => r x.1).map Cell.parameter) db = .ok db') :
    (∃ v, t.Reads P readJsonb r v ∧ db'.values P t = db.values P t ++ [v]) ∧
      (∀ t', t' ≠ t → db'.values P t' = db.values P t') ∧ db'.sequences = db.sequences := by
  obtain ⟨row, hreads, hrefuses, rfl⟩ := insert_ok h
  refine ⟨⟨_, hreads, ?_⟩, fun t' ht' => values_add ht' db row, sequences_add db row⟩
  unfold Database.values
  rw [(t.target P).rows_add db row hrefuses, List.map_append]
  rfl

end insert

/-! ## What is lost on the way -/

/-- The cell is of the kind that the cast is for. -/
def Cell.Fits : Cast → Cell → Prop
  | _, .null => True
  | .bigint, .integer _ => True
  | .integerBoolean, .integer n => n = 0 ∨ n = 1
  | .plain, .text _ | .timestamptz, .text _ | .jsonb, .text _ => True
  | _, _ => False

section lost
variable {P : Platform} {readJsonb : ReadJsonb}

/-- **What a parameter is read as** is the value of the cell exactly if no U+0000 cuts its text short. -/
theorem sameValue_iff {c : Cast} {cell : Cell} {v : PgValue} (hfits : cell.Fits c)
    (hread : c.read P readJsonb cell.parameter = some v) :
    SameValue P readJsonb c cell v ↔ cell.NulFree := by
  cases cell with
  | null =>
      cases hread
      exact ⟨fun _ => trivial, fun _ => .null⟩
  | integer n =>
      have hdecimal : cStr (toString n) = toString n := cStr_of_not_mem (nul_not_mem_toString n)
      refine ⟨fun _ => trivial, fun _ => ?_⟩
      -- A number is written in decimal, without U+0000, and is read back.
      cases c with
      | bigint =>
          have hvalue : (Decimal.readInt (cStr (toString n)).toList).map PgValue.bigint = some v := hread
          rw [hdecimal] at hvalue
          rw [show Decimal.readInt (toString n).toList = some n from Decimal.readInt_digits n] at hvalue
          cases hvalue
          exact .bigint
      | integerBoolean =>
          have hvalue : (Decimal.readInt (cStr (toString n)).toList).map
              (fun n => PgValue.boolean (decide (n ≠ 0))) = some v := hread
          rw [hdecimal] at hvalue
          rw [show Decimal.readInt (toString n).toList = some n from Decimal.readInt_digits n] at hvalue
          cases hvalue
          rcases hfits with rfl | rfl
          · exact SameValue.boolean (b := false)
          · exact SameValue.boolean (b := true)
      | plain | timestamptz | jsonb => exact hfits.elim
  | text s =>
      show _ ↔ '\x00' ∉ s.toList
      cases c with
      | plain =>
          cases hread
          refine ⟨fun h => ?_, fun h => ?_⟩
          · -- The text that was read is a C string.
            have hcstr : ∀ {v : PgValue}, v = .text (cStr s) → SameValue P readJsonb .plain (.text s) v →
                s = cStr s := by
              intro v hv hsame
              cases hsame
              exact PgValue.text.inj hv
            have hs := hcstr rfl h
            rw [hs, cStr, String.toList_ofList]
            exact fun h => absurd (List.mem_takeWhile_imp h) (by decide)
          · show SameValue P readJsonb .plain (.text s) (.text (cStr s))
            rw [cStr_of_not_mem h]
            exact .text
      | timestamptz =>
          -- That the values are the same says itself that the text has no U+0000.
          have hvalue : (P.readTimestamp (cStr s)).map PgValue.timestamptz = some v := hread
          refine ⟨fun h => ?_, fun h => ?_⟩
          · cases h with
            | timestamptz hnul _ => exact hnul
          · rw [cStr_of_not_mem h] at hvalue
            obtain ⟨t, ht, rfl⟩ := Option.map_eq_some_iff.mp hvalue
            exact .timestamptz h ht
      | jsonb =>
          have hvalue : (readJsonb _).map PgValue.jsonb = some v := hread
          refine ⟨fun h => ?_, fun h => ?_⟩
          · cases h with
            | jsonb hnul _ => exact hnul
          · obtain ⟨j, hj, rfl⟩ := Option.map_eq_some_iff.mp hvalue
            refine .jsonb h ?_
            rw [← hj]
            congr 1
            exact Subtype.ext (cStr_of_not_mem h).symm
      | bigint | integerBoolean => exact hfits.elim

/-- The columns that the tool selects are of the kinds that it casts them to. -/
theorem fits_rows (s : LegacyDatabase) (t : LegacyTable) :
    ∀ r ∈ s.rows t, ∀ x ∈ t.columns, (r x.1).Fits x.2 := by
  have hbool : ∀ b, (Cell.bool b).Fits .integerBoolean := by
    intro b
    cases b
    · exact .inl rfl
    · exact .inr rfl
  have hnull : ∀ {α : Type} (f : α → Cell) (c : Cast) (o : Option α), (∀ a, (f a).Fits c) →
      (Cell.nullable f o).Fits c := by
    intro α f c o hf
    cases o with
    | none => cases c <;> trivial
    | some a => exact hf a
  intro r hr
  cases t <;> obtain ⟨row, -, rfl⟩ := List.mem_map.mp hr <;>
    simp only [LegacyTable.columns, List.forall_mem_cons, List.not_mem_nil, false_implies, implies_true,
      and_true]
  case users => exact ⟨trivial, trivial, trivial, trivial, hbool _⟩
  case sessions => exact ⟨trivial, trivial, trivial, trivial, trivial⟩
  case problems =>
    exact ⟨trivial, trivial, trivial, trivial, trivial, trivial, trivial, trivial, trivial, hbool _,
      trivial, trivial, trivial⟩
  case problemTests => exact ⟨trivial, trivial, trivial, trivial, trivial, hbool _, trivial⟩
  case submissions =>
    exact ⟨trivial, trivial, trivial, trivial, trivial, hnull _ _ _ fun _ => trivial, trivial,
      hnull _ _ _ fun _ => trivial, hnull _ _ _ fun _ => trivial, hnull _ _ _ fun _ => trivial,
      hnull _ _ _ fun _ => trivial⟩
  case adminAuditLog => exact ⟨trivial, trivial, trivial, trivial, trivial, trivial, trivial⟩

/-- **A row arrives** with every column equal exactly if none of its texts is cut. -/
theorem sameColumns_iff {t : LegacyTable} {r : String → Cell} {v : String → PgValue}
    (hfits : ∀ x ∈ t.columns, (r x.1).Fits x.2) (hreads : t.Reads P readJsonb r v) :
    t.SameColumns P readJsonb r v ↔ ∀ x ∈ t.columns, (r x.1).NulFree :=
  forall₂_congr fun x hx => sameValue_iff (hfits x hx) (hreads x hx)

end lost

end AlgorithmTrainer
