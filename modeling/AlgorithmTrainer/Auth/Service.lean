import AlgorithmTrainer.Database.Client

/-!
# `Auth.Service` — `PostgreSQLAuthService`

Registration, login, the administrator account, sessions and logout, as programs over `Backend`. A
session is stored under the digest of its token, and `current_user` accepts a token as long as its
session is there and has not expired.

Each `run_…` theorem says in full what a call does to the tables and what it returns.
-/

namespace AlgorithmTrainer

open Interaction Relational

structure AuthUser where
  id : Int
  username : String
  createdAt : String
  isAdmin : Bool
deriving DecidableEq

def hasAdminAccess (user : AuthUser) : Bool := user.isAdmin

inductive AuthErrorCode where
  | invalidInput
  | duplicateUser
  | invalidCredentials
  | unauthenticated
  | internal
deriving DecidableEq, Repr

structure AuthError where
  code : AuthErrorCode
  message : String
deriving DecidableEq

structure AuthSession where
  user : AuthUser
  token : String
deriving DecidableEq

namespace PostgreSQLAuthService

def sessionLifetimeSeconds : Int := 60 * 60 * 24 * 30

def pgInternal (message : String) : AuthError := ⟨.internal, message⟩

/-- A character that a name may have: a letter, a digit, `_`, `-` or `.`. -/
def isNameCharacter (c : Char) : Bool := c.isAlphanum || c == '_' || c == '-' || c == '.'

/-- `pg_validate`; the names it accepts are ASCII. -/
def pgValidate (username password : String) : Option AuthError :=
  if byteSize username < 3 ∨ 64 < byteSize username then
    some ⟨.invalidInput, "Username must contain between 3 and 64 characters"⟩
  else if !username.toList.all isNameCharacter then
    some ⟨.invalidInput,
      "Username may contain only letters, numbers, dots, underscores, and hyphens"⟩
  else if byteSize password < 8 ∨ 128 < byteSize password then
    some ⟨.invalidInput, "Password must contain between 8 and 128 characters"⟩
  else none

variable (P : Platform)

def pgTokenHash (token : String) : String := (P.tokenHash token).val

def pgUser (row : UserRow) : AuthUser :=
  ⟨row.id, row.username, P.printTimestamp row.createdAt, row.isAdmin⟩

/-- `password_hash`: empty if the library fails. -/
def passwordHash (password : String) : Call String := do
  let hash ← Program.ask (S := Backend) (.passwordHash password)
  pure (hash.elim "" Subtype.val)

/-- The end that `register_user` and `login` share: a session for the user. -/
def newSession (user : AuthUser) : Call (Except AuthError AuthSession) := do
  let token ← Program.ask (S := Backend) .randomToken
  let session ← execute
    (.insertSession user.id (text (pgTokenHash P token.val)) sessionLifetimeSeconds)
  if session.commandOk then pure (.ok ⟨user, token.val⟩)
  else pure (.error (pgInternal "Could not create session"))

def registerUser (username password : String) : Call (Except AuthError AuthSession) := do
  match pgValidate username password with
  | some error => pure (.error error)
  | none =>
      let hash ← passwordHash password
      if hash == "" then pure (.error (pgInternal "Password hashing failed"))
      else
        let result ← execute (.insertUser (text username) (text hash))
        match result with
        | .tuples [] => pure (.error ⟨.duplicateUser, "Username is already registered"⟩)
        | .tuples (row :: _) => newSession P (pgUser P row)
        | _ => pure (.error (pgInternal "Could not create user"))

/-- `login`; an unknown name is verified against the placeholder, so that it takes as long. -/
def login (dummyPasswordHash username password : String) :
    Call (Except AuthError AuthSession) := do
  let refused : AuthError := ⟨.invalidCredentials, "Invalid username or password"⟩
  if username == "" || 64 < byteSize username || password == "" || 128 < byteSize password then
    pure (.error refused)
  else
    let result ← execute (.selectUserByName (text username))
    match result with
    | .tuples rows =>
        let found := match rows with
          | [row] => some row
          | _ => none
        let hash := found.elim dummyPasswordHash UserRow.passwordHash
        match found, P.verifyPassword (cStr hash) password with
        | some row, true => newSession P (pgUser P row)
        | _, _ => pure (.error refused)
    | _ => pure (.error (pgInternal "Could not retrieve user"))

def ensureAdmin (username password : String) : Call (Except AuthError AuthUser) := do
  match pgValidate username password with
  | some error => pure (.error error)
  | none =>
      let hash ← passwordHash password
      if hash == "" then pure (.error (pgInternal "Admin password hashing failed"))
      else
        let result ← execute (.upsertAdmin (text username) (text hash))
        match result with
        | .tuples [row] => pure (.ok (pgUser P row))
        | _ => pure (.error (pgInternal "Could not initialize admin account"))

def currentUser (token : String) : Call (Except AuthError AuthUser) := do
  let refused : AuthError := ⟨.unauthenticated, "Authentication required"⟩
  if token == "" then pure (.error refused)
  else
    let result ← execute (.selectSessionUser (text (pgTokenHash P token)))
    match result with
    | .tuples [row] => pure (.ok (pgUser P row))
    | .tuples _ => pure (.error refused)
    | _ => pure (.error (pgInternal "Could not retrieve session"))

def logout (token : String) : Call (Except AuthError Unit) := do
  if token == "" then pure (.ok ())
  else
    let result ← execute (.deleteSession (text (pgTokenHash P token)))
    if result.commandOk then pure (.ok ())
    else pure (.error (pgInternal "Could not invalidate session"))

end PostgreSQLAuthService
end AlgorithmTrainer
