import Mathlib.Logic.Relation
import AlgorithmTrainer.Auth.History
import AlgorithmTrainer.Sqlite.Repository

/-!
# `Sqlite.AuthService` — `AuthService`

The accounts in SQLite, as the migrations `002` and `006` leave their tables. `username` is compared with
`COLLATE NOCASE`, which folds the letters A to Z.

`SoundAccounts` is the invariant of the tables: it is kept by every statement that a member function can
send (`Sendable`), so it holds in every state that calls lead to.
-/

namespace AlgorithmTrainer

open Interaction Relational PostgreSQLAuthService

/-! ## Tables -/

structure SqliteUserRow where
  id : Int
  username : String
  passwordHash : String
  createdAt : String
  isAdmin : Bool
deriving DecidableEq

structure SqliteSessionRow where
  id : Int
  userId : Int
  tokenHash : String
  createdAt : String
  expiresAt : String
deriving DecidableEq

instance : Keyed SqliteUserRow Int := ⟨SqliteUserRow.id⟩
instance : Keyed SqliteSessionRow Int := ⟨SqliteSessionRow.id⟩

/-- The tables, with the next ids. -/
structure SqliteAuthDatabase where
  users : Table SqliteUserRow
  sessions : Table SqliteSessionRow
  nextUser : Int
  nextSession : Int

/-- The migrated tables. -/
def SqliteAuthDatabase.initial : SqliteAuthDatabase := ⟨.empty, .empty, 1, 1⟩

/-- `username = ? COLLATE NOCASE`. -/
def SqliteUserRow.named (username : String) (row : SqliteUserRow) : Bool :=
  asciiFold row.username == asciiFold username

/-! ## Statements -/

inductive SqliteAuthStatement where
  | insertUser (username passwordHash : String)
  /-- `ON CONFLICT(username) DO UPDATE … WHERE users.is_admin = 0`. -/
  | upsertAdmin (username passwordHash : String)
  /-- The lookup after an upsert that returned no row. -/
  | selectAdmin (username : String)
  | selectUserByName (username : String)
  | insertSession (userId : Int) (tokenHash : String) (lifetimeSeconds : Int)
  | selectSessionUser (tokenHash : String)
  | deleteSession (tokenHash : String)

@[reducible] def SqliteAuthStatement.Row : SqliteAuthStatement → Type
  | .insertSession .. | .deleteSession .. => Unit
  | _ => SqliteUserRow

/-- Execute a statement at a time: its rows and the tables it leaves. A constraint that fails is
    `SQLITE_CONSTRAINT_UNIQUE` or another one. -/
def SqliteAuthStatement.exec (strftime : Timestamp → String) (now : Timestamp) :
    (s : SqliteAuthStatement) → SqliteAuthDatabase → Except Bool (List s.Row × SqliteAuthDatabase)
  | .insertUser username hash, db =>
      let row : SqliteUserRow := ⟨db.nextUser, username, hash, strftime now, false⟩
      if db.users.count (SqliteUserRow.named username) ≠ 0 then .error true
      else if db.users.count (·.id == row.id) ≠ 0 then .error false
      else .ok ([row], { db with users := db.users.insert row, nextUser := db.nextUser + 1 })
  | .upsertAdmin username hash, db =>
      match db.users.select (SqliteUserRow.named username) with
      | user :: _ =>
          let row := { user with passwordHash := hash, isAdmin := true }
          if user.isAdmin then .ok ([], db) else .ok ([row], { db with users := db.users.put row })
      | [] =>
          let row : SqliteUserRow := ⟨db.nextUser, username, hash, strftime now, true⟩
          if db.users.count (·.id == row.id) ≠ 0 then .error false
          else .ok ([row], { db with users := db.users.insert row, nextUser := db.nextUser + 1 })
  | .selectAdmin username, db =>
      .ok (db.users.select fun u => u.named username && u.isAdmin, db)
  | .selectUserByName username, db => .ok (db.users.select (SqliteUserRow.named username), db)
  | .insertSession userId tokenHash lifetimeSeconds, db =>
      let row : SqliteSessionRow :=
        ⟨db.nextSession, userId, tokenHash, strftime now, strftime (now + lifetimeSeconds * second)⟩
      if db.sessions.count (·.tokenHash == tokenHash) ≠ 0 then .error true
      else if db.sessions.count (·.id == row.id) ≠ 0 ∨ db.users.count (·.id == userId) = 0 then
        .error false
      else .ok ([], { db with
        sessions := db.sessions.insert row, nextSession := db.nextSession + 1 })
  | .selectSessionUser tokenHash, db =>
      .ok ((db.sessions.select fun s => s.tokenHash == tokenHash
          && decide (strftime now < s.expiresAt)).flatMap
        fun s => db.users.select (·.id == s.userId), db)
  | .deleteSession tokenHash, db =>
      .ok ([], { db with sessions := db.sessions.delete (·.tokenHash == tokenHash) })

/-! ## The service -/

inductive SqliteAuthRequest where
  | execute (s : SqliteAuthStatement)
  | randomToken
  | passwordHash (password : String)

/-- What preparing a statement and stepping it gives; an error says whether a unique constraint failed. -/
inductive AuthStepped (ρ : Type) where
  | unprepared (message : String)
  | rows (rows : List ρ)
  | error (unique : Bool)

@[reducible] def SqliteAuthRequest.Reply : SqliteAuthRequest → Type
  | .execute s => AuthStepped s.Row
  | .randomToken => Token
  | .passwordHash _ => Option CString

@[reducible] def SqliteAuth : Signature := ⟨SqliteAuthRequest, SqliteAuthRequest.Reply⟩

structure SqliteAuthChoice where
  fault : Option SqliteFault := none
  message : String := ""
  token : Token := default
  salt : Option Nat := some 0

/-- The choice where nothing goes wrong. -/
def SqliteAuthChoice.calm : SqliteAuthChoice := {}

/-- The tables and the time. -/
structure SqliteAuthState where
  database : SqliteAuthDatabase
  clock : Timestamp

def serveSqliteAuth (P : Platform) (strftime : Timestamp → String) :
    Service SqliteAuth SqliteAuthChoice SqliteAuthState
  | .execute s, c, state =>
      match c.fault with
      | some .prepare => (.unprepared c.message, state)
      | some .step => (.error false, state)
      | none =>
          match s.exec strftime state.clock state.database with
          | .ok (rows, database) => (.rows rows, { state with database })
          | .error unique => (.error unique, state)
  | .randomToken, c, state => (c.token, state)
  | .passwordHash p, c, state => (c.salt.map (P.passwordHash · p), state)

abbrev SqliteAuthCall := Program SqliteAuth Exception

/-! ## The member functions -/

namespace AuthService

def step (s : SqliteAuthStatement) : SqliteAuthCall (AuthStepped s.Row) :=
  .ask (S := SqliteAuth) (.execute s)

def randomToken : SqliteAuthCall Token := .ask (S := SqliteAuth) .randomToken

/-- `crypto_pwhash_str`. -/
def passwordHash (password : String) : SqliteAuthCall (Option CString) :=
  .ask (S := SqliteAuth) (.passwordHash password)

def internalError (message : String) : AuthError := ⟨.internal, message⟩

/-- `validate_credentials` checks as `pg_validate` does. -/
def validateCredentials (username password : String) : Option AuthError :=
  pgValidate username password

def readUser (row : SqliteUserRow) : AuthUser := ⟨row.id, row.username, row.createdAt, row.isAdmin⟩

variable (P : Platform)

def createSession (user : AuthUser) : SqliteAuthCall (Except AuthError AuthSession) := do
  let token ← randomToken
  let session ← step (.insertSession user.id (pgTokenHash P token.val) sessionLifetimeSeconds)
  match session with
  | .unprepared message => pure (.error (internalError message))
  | .rows _ => pure (.ok ⟨user, token.val⟩)
  | .error _ => pure (.error (internalError "Could not create session"))

def registerUser (username password : String) : SqliteAuthCall (Except AuthError AuthSession) := do
  match validateCredentials username password with
  | some error => pure (.error error)
  | none =>
      let hash ← passwordHash password
      match hash with
      | none => pure (.error (internalError "Password hashing failed"))
      | some hash =>
          let result ← step (.insertUser username hash.val)
          match result with
          | .unprepared message => pure (.error (internalError message))
          | .rows (row :: _) => createSession P (readUser row)
          | .error true => pure (.error ⟨.duplicateUser, "Username is already registered"⟩)
          | _ => pure (.error (internalError "Could not create user"))

/-- The password is verified against the row that was found, or else against the placeholder. -/
def acceptUser (dummyPasswordHash password : String) (found : Option SqliteUserRow) :
    SqliteAuthCall (Except AuthError AuthSession) :=
  let hash := found.elim dummyPasswordHash SqliteUserRow.passwordHash
  match found, P.verifyPassword (cStr hash) password with
  | some row, true => createSession P (readUser row)
  | _, _ => pure (.error ⟨.invalidCredentials, "Invalid username or password"⟩)

/-- `login`; a step that fails counts as no user. -/
def login (dummyPasswordHash username password : String) :
    SqliteAuthCall (Except AuthError AuthSession) := do
  if username == "" || 64 < byteSize username || password == "" || 128 < byteSize password then
    pure (.error ⟨.invalidCredentials, "Invalid username or password"⟩)
  else
    let result ← step (.selectUserByName username)
    match result with
    | .unprepared message => pure (.error (internalError message))
    | .rows rows => acceptUser P dummyPasswordHash password rows.head?
    | .error _ => acceptUser P dummyPasswordHash password none

/-- The lookup of an account that is an administrator already. -/
def existingAdmin (username : String) : SqliteAuthCall (Except AuthError AuthUser) := do
  let existing ← step (.selectAdmin username)
  match existing with
  | .unprepared message => pure (.error (internalError message))
  | .rows (row :: _) => pure (.ok (readUser row))
  | _ => pure (.error (internalError "Could not initialize admin account"))

def ensureAdmin (username password : String) : SqliteAuthCall (Except AuthError AuthUser) := do
  match validateCredentials username password with
  | some error => pure (.error error)
  | none =>
      let hash ← passwordHash password
      match hash with
      | none => pure (.error (internalError "Admin password hashing failed"))
      | some hash =>
          let upsert ← step (.upsertAdmin username hash.val)
          match upsert with
          | .unprepared message => pure (.error (internalError message))
          | .rows (row :: _) => pure (.ok (readUser row))
          | _ => existingAdmin username

def currentUser (token : String) : SqliteAuthCall (Except AuthError AuthUser) := do
  let refused : AuthError := ⟨.unauthenticated, "Authentication required"⟩
  if token == "" then pure (.error refused)
  else
    let result ← step (.selectSessionUser (pgTokenHash P token))
    match result with
    | .unprepared message => pure (.error (internalError message))
    | .rows (row :: _) => pure (.ok (readUser row))
    | _ => pure (.error refused)

def logout (token : String) : SqliteAuthCall (Except AuthError Unit) := do
  if token == "" then pure (.ok ())
  else
    let result ← step (.deleteSession (pgTokenHash P token))
    match result with
    | .unprepared message => pure (.error (internalError message))
    | .rows _ => pure (.ok ())
    | .error _ => pure (.error (internalError "Could not invalidate session"))

end AuthService

/-- The member function that is called. -/
def AuthCall.sqliteProgram (P : Platform) (dummyPasswordHash : String) :
    AuthCall → SqliteAuthCall AuthReply
  | .registerUser username password => do
      let result ← AuthService.registerUser P username password
      pure (.session result)
  | .login username password => do
      let result ← AuthService.login P dummyPasswordHash username password
      pure (.session result)
  | .ensureAdmin username password => do
      let result ← AuthService.ensureAdmin username password
      pure (.user result)
  | .logout token => do
      let result ← AuthService.logout P token
      pure (.done result)

/-- A step of the service: a call, or the passing of time. -/
inductive SqliteAuthStep (P : Platform) (strftime : Timestamp → String) :
    SqliteAuthState → SqliteAuthState → Prop where
  | call {state : SqliteAuthState} (c : AuthCall) (dummyPasswordHash : String)
      (choices : Nat → SqliteAuthChoice) :
      SqliteAuthStep P strftime state
        ((c.sqliteProgram P dummyPasswordHash).run (serveSqliteAuth P strftime)
          ⟨choices, state⟩).2.state
  | pass {state : SqliteAuthState} (elapsed : Nat) :
      SqliteAuthStep P strftime state { state with clock := state.clock + elapsed }

/-! ## The invariant -/

/-- A hash of a password that the service accepts. -/
def HashedPassword (P : Platform) (hash : String) : Prop :=
  ∃ salt p, hash = (P.passwordHash salt p).val ∧ 8 ≤ byteSize p ∧ byteSize p ≤ 128

/-- The users: valid names that differ when folded, and hashes of accepted passwords. -/
structure SoundAccounts (P : Platform) (db : SqliteAuthDatabase) : Prop where
  names : ∀ u ∈ db.users, ValidName u.username
  unique : ∀ u ∈ db.users, ∀ u' ∈ db.users, asciiFold u.username = asciiFold u'.username → u = u'
  passwords : ∀ u ∈ db.users, HashedPassword P u.passwordHash
  userIds : ∀ u ∈ db.users, u.id < db.nextUser
  sessionIds : ∀ s ∈ db.sessions, s.id < db.nextSession

/-- What a member function can send: names it has validated, and hashes it has drawn. -/
def Sendable (P : Platform) : SqliteAuthRequest → Prop
  | .execute (.insertUser n hash) | .execute (.upsertAdmin n hash) =>
      ValidName n ∧ HashedPassword P hash
  | _ => True

/-- A hash that comes back is one of the password. -/
def DrawnHash (P : Platform) : (q : SqliteAuthRequest) → q.Reply → Prop
  | .passwordHash p, some hash => ∃ salt, hash = P.passwordHash salt p
  | _, _ => True

def accountsProtocol (P : Platform) : Protocol SqliteAuth Unit where
  allowed _ := Sendable P
  admits _ := DrawnHash P
  next _ _ _ := ()

section invariant
variable {P : Platform} {strftime : Timestamp → String} {db db' : SqliteAuthDatabase}

theorem named_iff {username : String} {row : SqliteUserRow} :
    row.named username = true ↔ asciiFold row.username = asciiFold username := beq_iff_eq

/-- A new user keeps the accounts sound. -/
theorem SoundAccounts.insert (hdb : SoundAccounts P db) {row : SqliteUserRow}
    (hname : ValidName row.username) (hhash : HashedPassword P row.passwordHash)
    (hid : row.id = db.nextUser)
    (hfree : ∀ u ∈ db.users, asciiFold u.username ≠ asciiFold row.username) :
    SoundAccounts P { db with users := db.users.insert row, nextUser := db.nextUser + 1 } where
  names u hu := by
    rcases Table.mem_insert.mp hu with hu | ⟨rfl, -⟩
    · exact hdb.names u hu
    · exact hname
  unique u hu u' hu' hfold := by
    rcases Table.mem_insert.mp hu with hold | ⟨rfl, -⟩
    · rcases Table.mem_insert.mp hu' with hold' | ⟨rfl, -⟩
      · exact hdb.unique u hold u' hold' hfold
      · exact absurd hfold (hfree u hold)
    · rcases Table.mem_insert.mp hu' with hold' | ⟨rfl, -⟩
      · exact absurd hfold.symm (hfree u' hold')
      · rfl
  passwords u hu := by
    rcases Table.mem_insert.mp hu with hu | ⟨rfl, -⟩
    · exact hdb.passwords u hu
    · exact hhash
  userIds u hu := by
    show u.id < db.nextUser + 1
    rcases Table.mem_insert.mp hu with hu | ⟨rfl, -⟩
    · exact Int.lt_add_one_of_le (Int.le_of_lt (hdb.userIds u hu))
    · rw [hid]
      exact Int.lt_succ _
  sessionIds := hdb.sessionIds

/-- So does a user's new password. -/
theorem SoundAccounts.put (hdb : SoundAccounts P db) {row old : SqliteUserRow} (hold : old ∈ db.users)
    (hid : row.id = old.id) (hname : row.username = old.username)
    (hhash : HashedPassword P row.passwordHash) :
    SoundAccounts P { db with users := db.users.put row } := by
  have hmem : ∀ u, u ∈ db.users.put row → (u ∈ db.users ∧ u.id ≠ old.id) ∨ u = row := by
    intro u hu
    rcases Table.mem_put.mp hu with ⟨hu, hne⟩ | ⟨rfl, -⟩
    · exact Or.inl ⟨hu, fun he => hne (he.trans hid.symm)⟩
    · exact Or.inr rfl
  constructor
  · intro u hu
    rcases hmem u hu with ⟨hu, -⟩ | rfl
    · exact hdb.names u hu
    · rw [hname]
      exact hdb.names old hold
  · intro u hu u' hu' hfold
    rcases hmem u hu with ⟨hkept, hne⟩ | rfl
    · rcases hmem u' hu' with ⟨hkept', -⟩ | rfl
      · exact hdb.unique u hkept u' hkept' hfold
      · rw [hname] at hfold
        exact absurd (congrArg SqliteUserRow.id (hdb.unique u hkept old hold hfold)) hne
    · rcases hmem u' hu' with ⟨hkept', hne⟩ | rfl
      · rw [hname] at hfold
        exact absurd (congrArg SqliteUserRow.id (hdb.unique old hold u' hkept' hfold).symm) hne
      · rfl
  · intro u hu
    rcases hmem u hu with ⟨hu, -⟩ | rfl
    · exact hdb.passwords u hu
    · exact hhash
  · intro u hu
    rcases hmem u hu with ⟨hu, -⟩ | rfl
    · exact hdb.userIds u hu
    · rw [hid]
      exact hdb.userIds old hold
  · exact hdb.sessionIds

/-- **Every statement that can be sent keeps the accounts sound.** -/
theorem SoundAccounts.exec (hdb : SoundAccounts P db) {s : SqliteAuthStatement} {now : Timestamp}
    {rows : List s.Row} (hs : Sendable P (.execute s))
    (hexec : s.exec strftime now db = .ok (rows, db')) : SoundAccounts P db' := by
  cases s with
  -- a new account: its name is free up to case
  | insertUser n hash =>
      simp only [SqliteAuthStatement.exec] at hexec
      split at hexec
      · cases hexec
      · rename_i hfree
        split at hexec
        · cases hexec
        · cases hexec
          refine hdb.insert hs.1 hs.2 rfl fun u hu hfold => ?_
          have hnone := Table.count_eq_zero.mp (not_not.mp hfree) u hu
          rw [named_iff.mpr hfold] at hnone
          cases hnone
  -- an account with the name is kept or set, and otherwise there is a new one
  | upsertAdmin n hash =>
      simp only [SqliteAuthStatement.exec] at hexec
      split at hexec
      · rename_i user rest hrows
        split at hexec
        · cases hexec
          exact hdb
        · cases hexec
          have huser := (Table.mem_select.mp (hrows ▸ List.mem_cons_self)).1
          exact hdb.put huser rfl rfl hs.2
      · rename_i hnone
        split at hexec
        · cases hexec
        · cases hexec
          refine hdb.insert hs.1 hs.2 rfl fun u hu hfold => ?_
          have hfalse := Table.select_eq_nil.mp hnone u hu
          rw [named_iff.mpr hfold] at hfalse
          cases hfalse
  | insertSession userId tokenHash lifetime =>
      simp only [SqliteAuthStatement.exec] at hexec
      split at hexec
      · cases hexec
      · split at hexec
        · cases hexec
        · cases hexec
          refine { hdb with sessionIds := fun s hs => ?_ }
          show s.id < db.nextSession + 1
          rcases Table.mem_insert.mp hs with hs | ⟨rfl, -⟩
          · exact Int.lt_add_one_of_le (Int.le_of_lt (hdb.sessionIds s hs))
          · exact Int.lt_succ _
  | deleteSession tokenHash =>
      cases hexec
      exact { hdb with sessionIds := fun s hs => hdb.sessionIds s (Table.mem_delete.mp hs).1 }
  | selectAdmin n =>
      cases hexec
      exact hdb
  | selectUserByName n =>
      cases hexec
      exact hdb
  | selectSessionUser tokenHash =>
      cases hexec
      exact hdb

/-- The service keeps the accounts sound, and draws hashes of the passwords. -/
theorem serveSqliteAuth_sound (q : SqliteAuthRequest) (c : SqliteAuthChoice) (state : SqliteAuthState)
    (hq : Sendable P q) (hdb : SoundAccounts P state.database) :
    DrawnHash P q (serveSqliteAuth P strftime q c state).1 ∧
      SoundAccounts P (serveSqliteAuth P strftime q c state).2.database := by
  cases q with
  | randomToken => exact ⟨trivial, hdb⟩
  | passwordHash p =>
      refine ⟨?_, hdb⟩
      show DrawnHash P (.passwordHash p) (c.salt.map (P.passwordHash · p))
      cases c.salt with
      | none => trivial
      | some salt => exact ⟨salt, rfl⟩
  | execute s =>
      refine ⟨trivial, ?_⟩
      unfold serveSqliteAuth
      dsimp only
      split
      · exact hdb
      · exact hdb
      · split
        · rename_i hexec
          exact hdb.exec hq hexec
        · exact hdb

/-! ### The member functions keep to it -/

/-- A call ends, no matter how. -/
def SqliteEnds {α : Type} (_ : Unit) (_ : Except Exception α) : Prop := True

theorem createSession_follows (user : AuthUser) :
    (accountsProtocol P).Follows SqliteEnds () (AuthService.createSession P user) := by
  refine ⟨trivial, fun token _ => ⟨trivial, fun session _ => ?_⟩⟩
  cases session <;> trivial

theorem registerUser_sendable (n p : String) :
    (accountsProtocol P).Follows SqliteEnds () (AuthService.registerUser P n p) := by
  unfold AuthService.registerUser
  cases hvalid : AuthService.validateCredentials n p with
  | some error => trivial
  | none =>
      obtain ⟨hname, hpassword⟩ := pgValidate_none hvalid
      refine ⟨trivial, fun hash hdrawn => ?_⟩
      cases hash with
      | none => trivial
      | some hash =>
          obtain ⟨salt, rfl⟩ := hdrawn
          refine ⟨⟨hname, salt, p, rfl, hpassword⟩, fun result _ => ?_⟩
          match result with
          | .unprepared _ | .rows [] | .error true | .error false => trivial
          | .rows (row :: _) => exact createSession_follows _

theorem acceptUser_follows (dummy p : String) (found : Option SqliteUserRow) :
    (accountsProtocol P).Follows SqliteEnds () (AuthService.acceptUser P dummy p found) := by
  unfold AuthService.acceptUser
  dsimp only
  split
  · exact createSession_follows _
  · trivial

theorem login_sendable (dummy n p : String) :
    (accountsProtocol P).Follows SqliteEnds () (AuthService.login P dummy n p) := by
  unfold AuthService.login
  split
  · trivial
  · refine ⟨trivial, fun result _ => ?_⟩
    cases result with
    | unprepared _ => trivial
    | rows rows => exact acceptUser_follows dummy p rows.head?
    | error _ => exact acceptUser_follows dummy p none

theorem existingAdmin_follows (n : String) :
    (accountsProtocol P).Follows SqliteEnds () (AuthService.existingAdmin n) := by
  refine ⟨trivial, fun existing _ => ?_⟩
  match existing with
  | .unprepared _ | .rows [] | .rows (_ :: _) | .error _ => trivial

theorem ensureAdmin_sendable (n p : String) :
    (accountsProtocol P).Follows SqliteEnds () (AuthService.ensureAdmin n p) := by
  unfold AuthService.ensureAdmin
  cases hvalid : AuthService.validateCredentials n p with
  | some error => trivial
  | none =>
      obtain ⟨hname, hpassword⟩ := pgValidate_none hvalid
      refine ⟨trivial, fun hash hdrawn => ?_⟩
      cases hash with
      | none => trivial
      | some hash =>
          obtain ⟨salt, rfl⟩ := hdrawn
          refine ⟨⟨hname, salt, p, rfl, hpassword⟩, fun upsert _ => ?_⟩
          match upsert with
          | .unprepared _ | .rows (_ :: _) => trivial
          | .rows [] | .error _ => exact existingAdmin_follows n

theorem logout_sendable (t : String) :
    (accountsProtocol P).Follows SqliteEnds () (AuthService.logout P t) := by
  unfold AuthService.logout
  split
  · trivial
  · refine ⟨trivial, fun result _ => ?_⟩
    cases result <;> trivial

theorem sqliteProgram_follows (dummy : String) (c : AuthCall) :
    (accountsProtocol P).Follows SqliteEnds () (c.sqliteProgram P dummy) := by
  cases c with
  | registerUser n p => exact (registerUser_sendable n p).bind (fun _ _ _ => trivial) fun _ _ h => h
  | login n p => exact (login_sendable dummy n p).bind (fun _ _ _ => trivial) fun _ _ h => h
  | ensureAdmin n p => exact (ensureAdmin_sendable n p).bind (fun _ _ _ => trivial) fun _ _ h => h
  | logout t => exact (logout_sendable t).bind (fun _ _ _ => trivial) fun _ _ h => h

/-- A program that keeps to the protocol keeps the accounts sound. -/
theorem SoundAccounts.run {α : Type} {p : SqliteAuthCall α} {w : World SqliteAuthChoice SqliteAuthState}
    (hp : (accountsProtocol P).Follows SqliteEnds () p) (hdb : SoundAccounts P w.state.database) :
    SoundAccounts P (p.run (serveSqliteAuth P strftime) w).2.state.database := by
  obtain ⟨_, -, hsound⟩ := hp.run (V := serveSqliteAuth P strftime)
    (I := fun _ state => SoundAccounts P state.database)
    (fun _ q c state hq hdb => serveSqliteAuth_sound q c state hq hdb) hdb
  exact hsound

theorem SoundAccounts.initial : SoundAccounts P .initial where
  names _ hu := absurd hu (Table.not_mem_empty _)
  unique _ hu := absurd hu (Table.not_mem_empty _)
  passwords _ hu := absurd hu (Table.not_mem_empty _)
  userIds _ hu := absurd hu (Table.not_mem_empty _)
  sessionIds _ hs := absurd hs (Table.not_mem_empty _)

/-- **The accounts are sound in every state that calls lead to.** -/
theorem soundAccounts_of_steps {now : Timestamp} {state : SqliteAuthState}
    (h : Relation.ReflTransGen (SqliteAuthStep P strftime) ⟨.initial, now⟩ state) :
    SoundAccounts P state.database := by
  induction h with
  | refl => exact .initial
  | tail _ hstep ih =>
      cases hstep with
      | call c dummy choices => exact SoundAccounts.run (sqliteProgram_follows dummy c) ih
      | pass elapsed => exact ih

end invariant

end AlgorithmTrainer
