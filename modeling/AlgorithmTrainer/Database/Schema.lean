import Mathlib.Data.List.TakeWhile
import AlgorithmTrainer.Json
import AlgorithmTrainer.Lib.Table

/-!
# `Database.Schema` — the tables of `001-initial-schema.sql`

One structure for each table, with the SQL columns in order, and the `Database` that holds the tables,
the identity sequences behind the generated ids, and the server's clock. A `TEXT` column is a `String`,
so a status or a verdict is the text that the `CHECK` constraints speak of; timestamps are counted in
microseconds.

`Platform` collects what the program takes from elsewhere: the collation's `lower`, the cryptographic
functions, and how the server prints and reads timestamps. `Lawful` is what the program relies on.
-/

namespace AlgorithmTrainer

open Relational

/-- Microseconds. -/
abbrev Timestamp := Int

def second : Timestamp := 1000000

/-! ## Rows -/

structure UserRow where
  id : Int
  username : String
  passwordHash : String
  createdAt : Timestamp
  isAdmin : Bool
deriving DecidableEq

structure SessionRow where
  id : Int
  userId : Int
  tokenHash : String
  createdAt : Timestamp
  expiresAt : Timestamp
deriving DecidableEq

structure ProblemRow where
  id : String
  title : String
  description : String
  inputFormat : String
  outputFormat : String
  difficulty : String
  tagsJson : Json
  languagesJson : Json
  examplesJson : Json
  enabled : Bool
  createdAt : Timestamp
  updatedAt : Timestamp
  revision : Int

structure ProblemTestRow where
  id : Int
  problemId : String
  input : String
  expectedOutput : String
  position : Int
  enabled : Bool
  revision : Int
deriving DecidableEq

structure SubmissionRow where
  id : Int
  problemId : String
  language : String
  sourceCode : String
  status : String
  verdict : Option String
  createdAt : Timestamp
  completedAt : Option Timestamp
  userId : Option Int
  errorType : Option String
  retryOf : Option Int
deriving DecidableEq

structure AuditRow where
  id : Int
  adminUserId : Int
  action : String
  entityType : String
  entityId : String
  detailsJson : Json
  createdAt : Timestamp

instance : Keyed UserRow Int := ⟨UserRow.id⟩
instance : Keyed SessionRow Int := ⟨SessionRow.id⟩
instance : Keyed ProblemRow String := ⟨ProblemRow.id⟩
instance : Keyed ProblemTestRow Int := ⟨ProblemTestRow.id⟩
instance : Keyed SubmissionRow Int := ⟨SubmissionRow.id⟩
instance : Keyed AuditRow Int := ⟨AuditRow.id⟩

/-! ## The constraints that rows are checked against -/

/-- `CHECK (difficulty IN (…))` and `CHECK (revision > 0)` of `problems`. -/
def ProblemRow.check (r : ProblemRow) : Bool :=
  (r.difficulty == "Easy" || r.difficulty == "Medium" || r.difficulty == "Hard")
    && decide (0 < r.revision)

/-- `CHECK (revision > 0)` of `problem_tests`. -/
def ProblemTestRow.check (r : ProblemTestRow) : Bool := decide (0 < r.revision)

/-- The three `CHECK` constraints of `submissions`. -/
def SubmissionRow.check (r : SubmissionRow) : Bool :=
  (r.status == "queued" || r.status == "running" || r.status == "completed"
    || r.status == "failed")
  && (match r.verdict with
      | none => true
      | some v => v == "Accepted" || v == "Wrong Answer" || v == "Runtime Error"
          || v == "Time Limit Exceeded")
  && (((r.status == "queued" || r.status == "running") && r.verdict.isNone && r.completedAt.isNone)
      || (r.status == "completed" && r.verdict.isSome && r.completedAt.isSome)
      || (r.status == "failed" && r.verdict.isNone && r.completedAt.isSome))

/-- `status IN ('queued', 'running')`. -/
def SubmissionRow.active (r : SubmissionRow) : Bool :=
  r.status == "queued" || r.status == "running"

/-! ## The database -/

/-- The identity sequences: the next id of each table that generates its ids. -/
structure Sequences where
  users : Int
  sessions : Int
  problemTests : Int
  submissions : Int
  adminAuditLog : Int

structure Database where
  users : Table UserRow
  sessions : Table SessionRow
  problems : Table ProblemRow
  problemTests : Table ProblemTestRow
  submissions : Table SubmissionRow
  adminAuditLog : Table AuditRow
  sequences : Sequences
  clock : Timestamp

/-- The tables as the migration leaves them. -/
def Database.initial (now : Timestamp) : Database where
  users := .empty
  sessions := .empty
  problems := .empty
  problemTests := .empty
  submissions := .empty
  adminAuditLog := .empty
  sequences := ⟨1, 1, 1, 1, 1⟩
  clock := now

/-! ## The surroundings -/

/-- A text without U+0000: what a C string can hold. -/
abbrev CString := { s : String // '\x00' ∉ s.toList }

/-- What `c_str()` passes on of a text: everything before the first U+0000. -/
def cStr (s : String) : String := String.ofList (s.toList.takeWhile (· != '\x00'))

theorem cStr_of_not_mem {s : String} (h : '\x00' ∉ s.toList) : cStr s = s := by
  have hall : ∀ c ∈ s.toList, (c != '\x00') = true := by
    intro c hc
    rw [bne_iff_ne]
    rintro rfl
    exact h hc
  rw [cStr, List.takeWhile_eq_self_iff.mpr hall, String.ofList_toList]

@[simp] theorem cStr_val (s : CString) : cStr s.val = s.val := cStr_of_not_mem s.property

theorem cStr_cStr (s : String) : cStr (cStr s) = cStr s := by
  refine cStr_of_not_mem fun h => ?_
  rw [cStr, String.toList_ofList] at h
  simpa using List.mem_takeWhile_imp h

/-- The digits and the sign of a number reach the server as they are. -/
theorem nul_not_mem_toString (n : Int) : '\x00' ∉ (toString n).toList := by
  have hdigits : ∀ m : Nat, '\x00' ∉ (toString m).toList := by
    intro m hmem
    have hdigit : ('\x00').isDigit = true :=
      Nat.isDigit_of_mem_toDigits (b := 10) (n := m) (by decide) (by decide) (by simpa using hmem)
    exact absurd hdigit (by decide)
  cases n with
  | ofNat m => exact hdigits m
  | negSucc m =>
      show '\x00' ∉ ("-" ++ toString (m + 1)).toList
      rw [String.toList_append, List.mem_append]
      rintro (h | h)
      · exact absurd h (by decide)
      · exact hdigits _ h

/-- Case folding of the letters A to Z. -/
def asciiFold (s : String) : String := String.ofList (s.toList.map Char.toLower)

def isAscii (s : String) : Bool := s.toList.all fun c => decide (c.val < 128)

/-- What the program takes from its surroundings. -/
structure Platform where
  /-- `lower(text)` under the database's collation. -/
  lower : String → String
  /-- `crypto_pwhash_str`, for the salt it draws. -/
  passwordHash : Nat → String → CString
  /-- `crypto_pwhash_str_verify(hash, password) == 0`. -/
  verifyPassword : String → String → Bool
  /-- The hexadecimal digest of a session token. -/
  tokenHash : String → CString
  /-- A `TIMESTAMPTZ` as the server prints it. -/
  printTimestamp : Timestamp → String
  /-- A text as a `TIMESTAMPTZ`, if the server accepts it. -/
  readTimestamp : String → Option Timestamp
  /-- `timestamp::date` in the session's time zone, as a day number. -/
  date : Timestamp → Int

/-- What the program relies on: names fold as ASCII where they are ASCII, a password verifies against
    exactly the hashes made from it, and different tokens have different digests. -/
structure Platform.Lawful (P : Platform) : Prop where
  lower_ascii : ∀ s, isAscii s = true → P.lower s = asciiFold s
  verify_exact : ∀ salt p p', P.verifyPassword (P.passwordHash salt p).val p' = true ↔ p' = p
  tokenHash_injective : ∀ t t', P.tokenHash t = P.tokenHash t' → t = t'

/-! ## A platform to compute with -/

/-- A text without U+0000 that determines the given one. -/
def escape : List Char → List Char
  | [] => []
  | c :: rest =>
      if c = '\x00' then '\\' :: '0' :: escape rest
      else if c = '\\' then '\\' :: '1' :: escape rest
      else c :: escape rest

theorem escape_ne_nul (l : List Char) : '\x00' ∉ escape l := by
  induction l with
  | nil => exact List.not_mem_nil
  | cons c rest ih =>
      unfold escape
      split
      · simp [ih]
      · rename_i hc
        split <;> simp [ih, Ne.symm hc]

theorem escape_injective {l l' : List Char} (h : escape l = escape l') : l = l' := by
  induction l generalizing l' with
  | nil => cases l' <;> grind [escape]
  | cons c rest ih => cases l' <;> grind [escape]

/-- A text as a C string that determines it. -/
def escaped (s : String) : CString :=
  ⟨String.ofList (escape s.toList), by rw [String.toList_ofList]; exact escape_ne_nul _⟩

theorem escaped_injective {s t : String} (h : escaped s = escaped t) : s = t := by
  have hlist := String.ofList_injective (congrArg Subtype.val h)
  exact String.toList_injective (escape_injective hlist)

/-- A platform with the simplest functions that satisfy the laws: a password and a token are hashed to
    themselves. -/
def Platform.plain : Platform where
  lower := asciiFold
  passwordHash _ := escaped
  verifyPassword hash password := hash == (escaped password).val
  tokenHash := escaped
  printTimestamp t := toString t
  readTimestamp s := if s = "" then none else some s.length
  date t := t / (86400 * second)

theorem Platform.plain_lawful : Platform.plain.Lawful where
  lower_ascii _ _ := rfl
  verify_exact _ p p' := by
    simp only [plain, beq_iff_eq]
    exact ⟨fun h => (escaped_injective (Subtype.ext h)).symm, fun h => by rw [h]⟩
  tokenHash_injective _ _ h := escaped_injective h

end AlgorithmTrainer
