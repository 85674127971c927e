import AlgorithmTrainer.Database.Statement
import AlgorithmTrainer.Lib.Program
import AlgorithmTrainer.Submission.Record

/-!
# `Database.Client` — what the program asks of its surroundings

`Backend` is the signature of the program's calls: statements on a connection, statements under an
advisory lock, random tokens, password hashes, and the judge. `serve` answers them on a `Database`; what
the surroundings decide is a `Choice`: whether a call fails and with which message, which rows other
transactions have locked, the random bytes, and what the judge returns or throws. A call may fail for any
reason; `Database.Indexes` says when the server has one in the rows themselves.

A text parameter reaches the server through `c_str()`, so `text` keeps what stands before the first
U+0000.
-/

namespace AlgorithmTrainer

open Interaction

/-- `postgresql::text`, as the server sees it. -/
def text (value : String) : String := cStr value

/-- The point at which a database call fails; a statement that commits by itself has one only. -/
inductive Failure where
  | begin
  | lock
  | statement
  | commit
deriving DecidableEq, Repr

/-- A session token: 32 random bytes in base64, so never empty. -/
abbrev Token := { s : String // s ≠ "" }

instance : Inhabited Token := ⟨⟨"token", by decide⟩⟩

inductive BackendRequest where
  | execute (statement : Statement)
  | executeLocked (advisoryLock : Int) (statement : LockedStatement)
  | randomToken
  | passwordHash (password : String)
  | judge (request : JudgeRequest)

@[reducible] def BackendRequest.Reply : BackendRequest → Type
  | .execute s => Result s.Row
  | .executeLocked .. => Result SubmissionRow
  | .randomToken => Token
  | .passwordHash _ => Option CString
  | .judge _ => Except Exception JudgeResult

@[reducible] def Backend : Signature := ⟨BackendRequest, BackendRequest.Reply⟩

/-- What the surroundings decide for one call. -/
structure Choice where
  failure : Option Failure := none
  message : String := ""
  lockedRows : Int → Bool := fun _ => false
  token : Token := default
  salt : Option Nat := some 0
  judged : Except Exception JudgeResult := .ok (.verdict .accepted)

/-- The choice where nothing goes wrong. -/
def Choice.calm : Choice := {}

/-- Nothing fails from outside, and no other transaction holds a row. -/
def Choice.Served (c : Choice) : Prop := c.failure = none ∧ ∀ id, c.lockedRows id = false

abbrev Call := Program Backend Exception

/-- `Connection::execute`. -/
def execute (s : Statement) : Call (Result s.Row) := .ask (S := Backend) (.execute s)

/-- `Connection::execute_locked`: `BEGIN`, the advisory lock, the statement, `COMMIT`. -/
def executeLocked (advisoryLock : Int) (s : LockedStatement) : Call (Result SubmissionRow) :=
  .ask (S := Backend) (.executeLocked advisoryLock s)

/-! ## The service -/

/-- A statement by itself: it fails without effect, or the server executes it. That the server executes it
    and the reply is lost is left out here, as it is of a commit below: `Database.Connection` has it
    (`Fate.lost`). -/
def serveStatement (P : Platform) (s : Statement) (c : Choice) (db : Database) :
    Result s.Row × Database :=
  match c.failure with
  | some _ => (.failed .fault c.message, db)
  | none => ((s.exec P c.message db).2, (s.exec P c.message db).1)

/-- A whole locked transaction: where a step of it fails, it is rolled back, and an id that the statement
    drew stays drawn. A commit that fails is assumed to have had no effect. -/
def serveLocked (s : LockedStatement) (c : Choice) (db : Database) :
    Result SubmissionRow × Database :=
  match c.failure with
  | some .begin | some .lock => (.none, db)
  | some .statement => (.failed .fault c.message, db)
  | some .commit => match s.plan c.lockedRows db with
      | (db', .error state) => (.failed state c.message, db')
      | (db', .ok _) => (.none, db')
  | none => match s.plan c.lockedRows db with
      | (db', .error state) => (.failed state c.message, db')
      | (db', .ok (changes, rows)) => (.tuples rows, changes.apply db')

/-- The surroundings, one call at a time. -/
def serve (P : Platform) : Service Backend Choice Database
  | .execute s, c, db => serveStatement P s c db
  | .executeLocked _ s, c, db => serveLocked s c db
  | .randomToken, c, db => (c.token, db)
  | .passwordHash p, c, db => (c.salt.map (P.passwordHash · p), db)
  | .judge _, c, db => (c.judged, db)

variable {P : Platform}

@[simp] theorem serve_execute (s : Statement) (c : Choice) (db : Database) :
    serve P (.execute s) c db = serveStatement P s c db := rfl
@[simp] theorem serve_executeLocked (lock : Int) (s : LockedStatement) (c : Choice)
    (db : Database) : serve P (.executeLocked lock s) c db = serveLocked s c db := rfl
@[simp] theorem serve_randomToken (c : Choice) (db : Database) :
    serve P .randomToken c db = (c.token, db) := rfl
@[simp] theorem serve_passwordHash (p : String) (c : Choice) (db : Database) :
    serve P (.passwordHash p) c db = (c.salt.map (P.passwordHash · p), db) := rfl
@[simp] theorem serve_judge (r : JudgeRequest) (c : Choice) (db : Database) :
    serve P (.judge r) c db = (c.judged, db) := rfl

/-- A statement at the head of a run. -/
@[simp] theorem run_execute {α : Type} (s : Statement) (f : Result s.Row → Call α)
    (w : World Choice Database) :
    Program.run (serve P)
        (@Bind.bind (Program Backend Exception) _ (no_index (Result s.Row)) α (execute s) f) w =
      (f (serveStatement P s (w.choices 0) w.state).1).run (serve P)
        (w.advance (serveStatement P s (w.choices 0) w.state).2) := rfl

@[simp] theorem run_executeLocked {α : Type} (lock : Int) (s : LockedStatement)
    (f : Result SubmissionRow → Call α) (w : World Choice Database) :
    (executeLocked lock s >>= f).run (serve P) w =
      (f (serveLocked s (w.choices 0) w.state).1).run (serve P)
        (w.advance (serveLocked s (w.choices 0) w.state).2) := rfl

/-- **What a statement by itself does.** It fails and changes nothing, or the server executes it. -/
theorem serveStatement_cases (s : Statement) (c : Choice) (db : Database) :
    (c.failure.isSome = true ∧ serveStatement P s c db = (.failed .fault c.message, db)) ∨
    (c.failure = none ∧
      serveStatement P s c db = ((s.exec P c.message db).2, (s.exec P c.message db).1)) := by
  unfold serveStatement
  cases h : c.failure with
  | none => exact Or.inr ⟨rfl, rfl⟩
  | some f => exact Or.inl ⟨rfl, rfl⟩

/-- **What a locked transaction does.** Nothing; or its plan is evaluated and then rolled back; or the
    plan's changes are committed and its rows returned. -/
theorem serveLocked_cases (s : LockedStatement) (c : Choice) (db : Database) :
    ((serveLocked s c db).2 = db ∧ (serveLocked s c db).1.tuplesOk = false
        ∧ ∀ m, (serveLocked s c db).1 ≠ .failed .checkViolation m) ∨
    ((serveLocked s c db).2 = (s.plan c.lockedRows db).1 ∧ (serveLocked s c db).1 = .none) ∨
    (∃ state, (s.plan c.lockedRows db).2 = .error state ∧
        (serveLocked s c db).2 = (s.plan c.lockedRows db).1 ∧
        (serveLocked s c db).1 = .failed state c.message) ∨
    (∃ changes rows, (s.plan c.lockedRows db).2 = .ok (changes, rows) ∧ c.failure = none ∧
        serveLocked s c db = (.tuples rows, changes.apply (s.plan c.lockedRows db).1)) := by
  unfold serveLocked
  rcases hplan : s.plan c.lockedRows db with ⟨db', o⟩
  cases hc : c.failure with
  | none =>
      cases o with
      | error state => exact Or.inr (Or.inr (Or.inl ⟨state, rfl, rfl, rfl⟩))
      | ok x => exact Or.inr (Or.inr (Or.inr ⟨x.1, x.2, rfl, rfl, rfl⟩))
  | some f =>
      cases f with
      | begin => exact Or.inl ⟨rfl, rfl, by simp⟩
      | lock => exact Or.inl ⟨rfl, rfl, by simp⟩
      | statement => exact Or.inl ⟨rfl, rfl, by simp⟩
      | commit =>
          cases o with
          | error state => exact Or.inr (Or.inr (Or.inl ⟨state, rfl, rfl, rfl⟩))
          | ok x => exact Or.inr (Or.inl ⟨rfl, rfl⟩)

theorem hasUser_iff {db : Database} {id : Int} : db.hasUser id = true ↔ ∃ u ∈ db.users, u.id = id := by
  have hzero := Relational.Table.count_eq_zero (t := db.users) (p := (·.id == id))
  simp only [Database.hasUser, decide_eq_true_eq, Nat.pos_iff_ne_zero, ne_eq, hzero]
  simp

end AlgorithmTrainer
