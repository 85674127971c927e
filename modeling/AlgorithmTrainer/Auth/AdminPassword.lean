import AlgorithmTrainer.Auth.Accounts
import AlgorithmTrainer.Sqlite.AuthService

/-!
# `Auth.AdminPassword` — the password of an administrator's account

After `ensure_admin`, an account has one password (`OnlyPassword`). With `PostgreSQLAuthService` it is
always the given one. `AuthService` sets it for a new account and for an ordinary user; an account that is
an administrator already is returned as it is, and keeps the password it has.
-/

namespace AlgorithmTrainer

open Interaction Transition Relational

/-- What a login returns, by the name, the password and what the surroundings decide. -/
abbrev LoginResult (χ : Type) :=
  String → String → (Nat → χ) → Except Exception (Except AuthError AuthSession)

/-- The user is an administrator, logs in with this name and this password where nothing goes wrong, and
    with no other password. -/
structure OnlyPassword {χ : Type} (login : LoginResult χ) (calm : (Nat → χ) → Prop) (user : AuthUser)
    (n p : String) : Prop where
  admin : user.isAdmin = true
  accepts : ∀ choices, calm choices → ∃ token, login n p choices = .ok (.ok ⟨user, token⟩)
  refuses : ∀ p' choices, p' ≠ p → ∃ error, login n p' choices = .ok (.error error)
  /-- Whatever name the account is addressed by. -/
  only : ∀ n' p' choices session, login n' p' choices = .ok (.ok session) →
    session.user.id = user.id → p' = p

/-! ## PostgreSQL -/

section postgresql
open PostgreSQLAuthService
variable {P : Platform} {db₀ db : Database} {h : List AuthEvent} {n p dummy : String}

def postgresLogin (P : Platform) (dummy : String) (db : Database) : LoginResult Choice :=
  fun n p choices => ((PostgreSQLAuthService.login P dummy n p).run (serve P) ⟨choices, db⟩).1

/-- No call of the login fails, and its token is new. -/
def PostgresCalm (P : Platform) (db : Database) (choices : Nat → Choice) : Prop :=
  (∀ i, (choices i).failure = none) ∧
    ∀ s ∈ db.sessions, s.tokenHash ≠ pgTokenHash P (choices 1).token.val

/-- What `ensure_admin` returns is the row it wrote. -/
theorem ensureAdmin_returns {w w' : World Choice Database} {user : AuthUser}
    (hrun : (PostgreSQLAuthService.ensureAdmin P n p).run (serve P) w = (.ok (.ok user), w')) :
    ValidName n ∧ ∃ row ∈ w'.state.users, ∃ salt, user = pgUser P row ∧ row.isAdmin = true ∧
      row.passwordHash = (P.passwordHash salt p).val ∧ P.lower row.username = P.lower n := by
  unfold PostgreSQLAuthService.ensureAdmin at hrun
  cases hvalid : pgValidate n p with
  | some error => simp [hvalid] at hrun
  | none =>
      obtain ⟨hname, -⟩ := pgValidate_none hvalid
      refine ⟨hname, ?_⟩
      rw [hvalid] at hrun
      dsimp only at hrun
      rw [run_passwordHash] at hrun
      split at hrun
      · cases hrun
      · rename_i hne
        obtain ⟨salt, hsalt⟩ := drawnHash_eq (by simpa using hne)
        rw [hsalt, run_execute] at hrun
        rcases serveStatement_cases (P := P)
            (.upsertAdmin (text n) (text (P.passwordHash salt p).val))
            ((w.advance w.state).choices 0) (w.advance w.state).state with ⟨-, hs⟩ | ⟨-, hs⟩
        · rw [hs] at hrun
          cases hrun
        · rw [hs, World.advance_state, hname.text, text_hash] at hrun
          rcases exec_upsertAdmin (P := P) (m := ((w.advance w.state).choices 0).message) n
              (P.passwordHash salt p).val w.state with
            ⟨row, hrow, hlower, hexec⟩ | ⟨hfresh, hexec⟩ | hexec
          · rw [hexec] at hrun
            cases hrun
            exact ⟨promotedRow row _, Table.mem_put_self hrow rfl, salt, rfl, rfl, rfl, hlower⟩
          · rw [hexec] at hrun
            cases hrun
            refine ⟨_, Table.mem_insert.mpr (Or.inr ⟨rfl, fun hkey => ?_⟩), salt, rfl, rfl, rfl, rfl⟩
            obtain ⟨u, hu, he⟩ := List.mem_map.mp hkey
            exact (hfresh u hu).1 he
          · rw [hexec] at hrun
            cases hrun

/-- Whoever logs in is a user whose password this is. -/
theorem login_verifies {n' p' : String} {choices : Nat → Choice} {session : AuthSession}
    (hok : postgresLogin P dummy db n' p' choices = .ok (.ok session)) :
    ∃ row ∈ db.users, row.id = session.user.id ∧
      P.verifyPassword (cStr row.passwordHash) p' = true := by
  obtain ⟨reply, w', hrun, heffect⟩ := login_effect (P := P) dummy n' p' ⟨choices, db⟩
  unfold postgresLogin at hok
  rw [hrun] at hok
  cases hok
  cases heffect.sessions with
  | kept _ hi => cases hi
  | removed _ _ _ hi => cases hi
  | added sessionRow token _ ht _ _ _ _ _ _ hentitled =>
      have hissued := (Prod.mk.inj (Option.some.inj ht)).2
      have hid : session.user.id = sessionRow.userId := (Prod.mk.inj hissued).1
      cases hentitled with
      | @loggedIn _ _ _ _ row hrow hrowid _ hverify =>
          exact ⟨row, hrow, hrowid.trans hid.symm, hverify⟩

/-- **With PostgreSQL the account's only password is the given one.** -/
theorem postgres_onlyPassword (hP : P.Lawful) (hu : db₀.users = .empty) (hs : db₀.sessions = .empty)
    (hrun : Run (AuthStep P) db₀ h db) {choices : Nat → Choice} {user : AuthUser}
    {w' : World Choice Database}
    (hensure : (PostgreSQLAuthService.ensureAdmin P n p).run (serve P) ⟨choices, db⟩
      = (.ok (.ok user), w')) (dummy : String) :
    OnlyPassword (postgresLogin P dummy w'.state) (PostgresCalm P w'.state) user n p := by
  obtain ⟨hname, row, hrow, salt, rfl, hadmin, hhash, hlower⟩ := ensureAdmin_returns hensure
  -- The call is the latest event of the history.
  have hstep : AuthStep P db (.call db.clock (.ensureAdmin n p) (.user (.ok (pgUser P row)))) w'.state := by
    refine .call dummy choices ?_
    rw [AuthCall.program, Program.run_bind, hensure]
    rfl
  obtain ⟨husers, hsessions⟩ := agree_of_run hP hu hs (hrun.next hstep)
  have hset : passwordOf (.call db.clock (.ensureAdmin n p) (.user (.ok (pgUser P row))) :: h)
      (asciiFold n) = some p := passwordOf_cons_set rfl
  have hfold : asciiFold row.username = asciiFold n := by
    rw [← (husers.names row hrow).lower hP, hlower, hname.lower hP]
  constructor
  · exact hadmin
  · rintro choices' ⟨hcalm, hnew⟩
    exact ⟨_, login_accepts hP husers hname.ascii hname.noNul hcalm
      (fun s hs => ⟨Int.ne_of_lt (hsessions.ids s hs), hnew s hs⟩) hrow hfold hset⟩
  · intro p' choices' hne
    obtain ⟨reply, w'', hlogin, -⟩ := login_effect (P := P) dummy n p' ⟨choices', w'.state⟩
    cases reply with
    | error error => exact ⟨error, congrArg Prod.fst hlogin⟩
    | ok session =>
        obtain ⟨-, -, -, hset'⟩ := login_sound hP husers hname.ascii hname.noNul
          (congrArg Prod.fst hlogin)
        rw [hset] at hset'
        exact absurd (Option.some.inj hset').symm hne
  · intro n' p' choices' session hok hid
    obtain ⟨row', hrow', hid', hverify⟩ := login_verifies hok
    obtain rfl := Table.eq_of_key hrow' hrow (hid'.trans hid)
    rw [hhash, cStr_val] at hverify
    exact (hP.verify_exact salt p p').mp hverify

end postgresql

/-! ## SQLite -/

section sqlite
open PostgreSQLAuthService (pgTokenHash pgValidate sessionLifetimeSeconds)
variable {P : Platform} {strftime : Timestamp → String} {state : SqliteAuthState} {n p dummy : String}

def sqliteLogin (P : Platform) (strftime : Timestamp → String) (dummy : String)
    (state : SqliteAuthState) : LoginResult SqliteAuthChoice :=
  fun n p choices =>
    ((AuthService.login P dummy n p).run (serveSqliteAuth P strftime) ⟨choices, state⟩).1

/-- No call of the login fails, and its token is new. -/
def SqliteCalm (P : Platform) (state : SqliteAuthState) (choices : Nat → SqliteAuthChoice) : Prop :=
  (∀ i, (choices i).fault = none) ∧
    ∀ s ∈ state.database.sessions, s.tokenHash ≠ pgTokenHash P (choices 1).token.val

theorem run_sqliteStep {α : Type} (s : SqliteAuthStatement) (f : AuthStepped s.Row → SqliteAuthCall α)
    (w : World SqliteAuthChoice SqliteAuthState) :
    Program.run (serveSqliteAuth P strftime)
        (@Bind.bind (Program SqliteAuth Exception) _ (no_index (AuthStepped s.Row)) α
          (AuthService.step s) f) w =
      (f (serveSqliteAuth P strftime (.execute s) (w.choices 0) w.state).1).run
        (serveSqliteAuth P strftime)
        (w.advance (serveSqliteAuth P strftime (.execute s) (w.choices 0) w.state).2) := rfl

theorem serveSqliteAuth_randomToken (c : SqliteAuthChoice) (state : SqliteAuthState) :
    serveSqliteAuth P strftime .randomToken c state = (c.token, state) := rfl

/-- Where nothing goes wrong, a statement is executed. -/
theorem serveSqliteAuth_calm {s : SqliteAuthStatement} {c : SqliteAuthChoice} (hcalm : c.fault = none)
    {rows : List s.Row} {database : SqliteAuthDatabase}
    (hexec : s.exec strftime state.clock state.database = .ok (rows, database)) :
    serveSqliteAuth P strftime (.execute s) c state = (.rows rows, { state with database }) := by
  unfold serveSqliteAuth
  simp only [hcalm, hexec]

/-- **What a statement does.** It cannot be prepared, or fails, without effect; or it is executed. -/
theorem serveSqliteAuth_cases (strftime : Timestamp → String) (s : SqliteAuthStatement) (c : SqliteAuthChoice)
    (state : SqliteAuthState) :
    (∃ message, serveSqliteAuth P strftime (.execute s) c state = (.unprepared message, state)) ∨
    (∃ unique, serveSqliteAuth P strftime (.execute s) c state = (.error unique, state)) ∨
    ∃ rows database, s.exec strftime state.clock state.database = .ok (rows, database) ∧
      serveSqliteAuth P strftime (.execute s) c state = (.rows rows, { state with database }) := by
  cases hfault : c.fault with
  | some fault =>
      cases fault with
      | prepare =>
          refine Or.inl ⟨c.message, ?_⟩
          simp only [serveSqliteAuth, hfault]
      | step =>
          refine Or.inr (Or.inl ⟨false, ?_⟩)
          simp only [serveSqliteAuth, hfault]
  | none =>
      cases hexec : s.exec strftime state.clock state.database with
      | error unique =>
          refine Or.inr (Or.inl ⟨unique, ?_⟩)
          simp only [serveSqliteAuth, hfault, hexec]
      | ok result => exact Or.inr (Or.inr ⟨_, _, rfl, serveSqliteAuth_calm hfault hexec⟩)

/-- The end of a login: an error, or a session for the user. -/
theorem createSession_run (strftime : Timestamp → String) (user : AuthUser)
    (w : World SqliteAuthChoice SqliteAuthState) :
    ∃ reply, ((AuthService.createSession P user).run (serveSqliteAuth P strftime) w).1 = .ok reply ∧
      ∀ session, reply = .ok session → session.user = user := by
  unfold AuthService.createSession AuthService.randomToken
  rw [Program.ask_bind, Program.run_call, run_sqliteStep]
  split
  · exact ⟨_, rfl, fun _ he => (by cases he)⟩
  · exact ⟨_, rfl, fun _ he => (by cases he; rfl)⟩
  · exact ⟨_, rfl, fun _ he => (by cases he)⟩

/-- Where nothing goes wrong and the token is new, it is a session. -/
theorem createSession_calm {user : AuthUser} {w : World SqliteAuthChoice SqliteAuthState}
    (hcalm : (w.choices 1).fault = none) (huser : ∃ u ∈ w.state.database.users, u.id = user.id)
    (hfresh : ∀ s ∈ w.state.database.sessions, s.id ≠ w.state.database.nextSession
      ∧ s.tokenHash ≠ pgTokenHash P (w.choices 0).token.val) :
    ((AuthService.createSession P user).run (serveSqliteAuth P strftime) w).1
      = .ok (.ok ⟨user, (w.choices 0).token.val⟩) := by
  obtain ⟨u, hu, hid⟩ := huser
  have hhash : w.state.database.sessions.count
      (·.tokenHash == pgTokenHash P (w.choices 0).token.val) = 0 :=
    Table.count_eq_zero.mpr fun s hs => beq_eq_false_iff_ne.mpr (hfresh s hs).2
  have hids : w.state.database.sessions.count (·.id == w.state.database.nextSession) = 0 :=
    Table.count_eq_zero.mpr fun s hs => beq_eq_false_iff_ne.mpr (hfresh s hs).1
  have howner : w.state.database.users.count (·.id == user.id) ≠ 0 := by
    rw [ne_eq, Table.count_eq_zero]
    intro hnone
    exact absurd (beq_iff_eq.mpr hid) (Bool.eq_false_iff.mp (hnone u hu))
  have hexec : ∃ rows database, (SqliteAuthStatement.insertSession user.id
      (pgTokenHash P (w.choices 0).token.val) sessionLifetimeSeconds).exec strftime w.state.clock
        w.state.database = .ok (rows, database) := by
    simp only [SqliteAuthStatement.exec]
    rw [if_neg (not_not.mpr hhash), if_neg]
    · exact ⟨_, _, rfl⟩
    · rintro (h | h)
      · exact h hids
      · exact howner h
  obtain ⟨rows, database, hexec⟩ := hexec
  unfold AuthService.createSession AuthService.randomToken
  rw [Program.ask_bind, Program.run_call, run_sqliteStep]
  have hserve := serveSqliteAuth_calm (P := P) (c := w.choices (0 + 1)) hcalm hexec
  rw [serveSqliteAuth_randomToken]
  dsimp only [World.advance]
  rw [hserve]
  rfl

/-- What becomes of a row that was found, or of none. -/
theorem acceptUser_run (strftime : Timestamp → String) (dummy p : String)
    (found : Option SqliteUserRow) (w : World SqliteAuthChoice SqliteAuthState) :
    ∃ reply, ((AuthService.acceptUser P dummy p found).run (serveSqliteAuth P strftime) w).1
        = .ok reply ∧
      ∀ session, reply = .ok session → ∃ row, found = some row ∧
        session.user = AuthService.readUser row ∧ P.verifyPassword (cStr row.passwordHash) p = true := by
  unfold AuthService.acceptUser
  cases found with
  | none => exact ⟨_, rfl, fun _ he => (by cases he)⟩
  | some row =>
      dsimp only [Option.elim]
      cases hverify : P.verifyPassword (cStr row.passwordHash) p with
      | false => exact ⟨_, rfl, fun _ he => (by cases he)⟩
      | true =>
          obtain ⟨reply, hrun, huser⟩ := createSession_run (P := P) strftime
            (AuthService.readUser row) w
          exact ⟨reply, hrun, fun session he => ⟨row, rfl, huser session he, hverify⟩⟩

/-- Whoever logs in is a user with this name whose password this is. -/
theorem sqliteLogin_run (strftime : Timestamp → String) (state : SqliteAuthState)
    (dummy n' p' : String) (choices : Nat → SqliteAuthChoice) :
    ∃ reply, sqliteLogin P strftime dummy state n' p' choices = .ok reply ∧
      ∀ session, reply = .ok session → ∃ row ∈ state.database.users, row.named n' = true ∧
        session.user = AuthService.readUser row ∧
        P.verifyPassword (cStr row.passwordHash) p' = true := by
  unfold sqliteLogin AuthService.login
  split
  · exact ⟨_, rfl, fun _ he => (by cases he)⟩
  · rw [run_sqliteStep]
    -- The rows that are found are users with the name.
    have hfound : ∀ rows, (serveSqliteAuth P strftime (.execute (.selectUserByName n')) (choices 0)
        state).1 = .rows rows → ∀ row, rows.head? = some row →
          row ∈ state.database.users ∧ row.named n' = true := by
      intro rows hrows row hhead
      unfold serveSqliteAuth at hrows
      dsimp only [SqliteAuthStatement.exec] at hrows
      split at hrows
      · cases hrows
      · cases hrows
      · cases hrows
        exact Table.mem_select.mp (List.mem_of_mem_head? hhead)
    split
    · exact ⟨_, rfl, fun _ he => (by cases he)⟩
    · rename_i rows hrows
      obtain ⟨reply, hrun, haccepted⟩ := acceptUser_run (P := P) strftime dummy p' rows.head?
        (World.advance ⟨choices, state⟩ _)
      refine ⟨reply, hrun, fun session he => ?_⟩
      obtain ⟨row, hhead, huser, hverify⟩ := haccepted session he
      obtain ⟨hrow, hnamed⟩ := hfound rows hrows row hhead
      exact ⟨row, hrow, hnamed, huser, hverify⟩
    · obtain ⟨reply, hrun, haccepted⟩ := acceptUser_run (P := P) strftime dummy p' none
        (World.advance ⟨choices, state⟩ _)
      refine ⟨reply, hrun, fun session he => ?_⟩
      obtain ⟨row, hnone, -⟩ := haccepted session he
      cases hnone

/-- A user logs in with the right password, where nothing goes wrong and the token is new. -/
theorem sqliteLogin_accepts (hdb : SoundAccounts P state.database) {row : SqliteUserRow}
    (hrow : row ∈ state.database.users) (hnamed : row.named n = true)
    (hsize : 8 ≤ byteSize p ∧ byteSize p ≤ 128)
    (hverify : P.verifyPassword (cStr row.passwordHash) p = true) {choices : Nat → SqliteAuthChoice}
    (hcalm : SqliteCalm P state choices) :
    sqliteLogin P strftime dummy state n p choices
      = .ok (.ok ⟨AuthService.readUser row, (choices 1).token.val⟩) := by
  have hfold := named_iff.mp hnamed
  have hbytes : byteSize n = byteSize row.username := by
    rw [← byteSize_asciiFold n, ← hfold, byteSize_asciiFold]
  have hname := hdb.names row hrow
  -- What was registered passes the filter of `login`.
  have hfilter : (n == "" || decide (64 < byteSize n) || p == "" || decide (128 < byteSize p))
      = false := by
    have hn : n ≠ "" := by
      rintro rfl
      have := hname.atLeast
      rw [← hbytes] at this
      exact absurd this (by decide)
    have hp : p ≠ "" := by
      rintro rfl
      exact absurd hsize.1 (by decide)
    have := hname.atMost
    simp only [Bool.or_eq_false_iff, beq_eq_false_iff_ne, decide_eq_false_iff_not]
    exact ⟨⟨⟨hn, by omega⟩, hp⟩, by omega⟩
  -- Names are unique up to case, so that one row is selected.
  have hselect : state.database.users.select (SqliteUserRow.named n) = [row] := by
    refine Table.select_eq_singleton hrow hnamed fun u hu hu' => ?_
    rw [hdb.unique u hu row hrow ((named_iff.mp hu').trans hfold.symm)]
  have hexec : (SqliteAuthStatement.selectUserByName n).exec strftime state.clock state.database
      = .ok ([row], state.database) := by
    rw [← hselect]
    rfl
  have hserve := serveSqliteAuth_calm (P := P) (hcalm.1 0) hexec
  unfold sqliteLogin AuthService.login
  rw [if_neg (by rw [hfilter]; exact Bool.false_ne_true), run_sqliteStep, hserve]
  dsimp only [List.head?_cons, AuthService.acceptUser, Option.elim]
  rw [hverify]
  exact createSession_calm (w := World.advance ⟨choices, state⟩ state) (hcalm.1 2)
    ⟨row, hrow, rfl⟩ fun s hs => ⟨Int.ne_of_lt (hdb.sessionIds s hs), hcalm.2 s hs⟩

/-- **A user's only password** is the one that was hashed. -/
theorem sqlite_onlyPassword (hP : P.Lawful) (hdb : SoundAccounts P state.database)
    {row : SqliteUserRow} (hrow : row ∈ state.database.users) (hadmin : row.isAdmin = true)
    (hnamed : row.named n = true) {salt : Nat} (hhash : row.passwordHash = (P.passwordHash salt p).val)
    (hsize : 8 ≤ byteSize p ∧ byteSize p ≤ 128) (dummy : String) :
    OnlyPassword (sqliteLogin P strftime dummy state) (SqliteCalm P state)
      (AuthService.readUser row) n p := by
  have hverify : ∀ p', P.verifyPassword (cStr row.passwordHash) p' = true ↔ p' = p := by
    intro p'
    rw [hhash, cStr_val]
    exact hP.verify_exact salt p p'
  constructor
  · exact hadmin
  · intro choices hcalm
    exact ⟨_, sqliteLogin_accepts hdb hrow hnamed hsize ((hverify p).mpr rfl) hcalm⟩
  · intro p' choices hne
    obtain ⟨reply, hrun, haccepted⟩ := sqliteLogin_run (P := P) strftime state dummy n p'
      choices
    cases reply with
    | error error => exact ⟨error, hrun⟩
    | ok session =>
        obtain ⟨row', hrow', hnamed', -, hverify'⟩ := haccepted session rfl
        obtain rfl := hdb.unique row' hrow' row hrow
          ((named_iff.mp hnamed').trans (named_iff.mp hnamed).symm)
        exact absurd ((hverify p').mp hverify') hne
  · intro n' p' choices session hok hid
    obtain ⟨reply, hrun, haccepted⟩ := sqliteLogin_run (P := P) strftime state dummy n' p'
      choices
    rw [hok] at hrun
    cases hrun
    obtain ⟨row', hrow', -, huser, hverify'⟩ := haccepted session rfl
    rw [huser] at hid
    obtain rfl := Table.eq_of_key hrow' hrow hid
    exact (hverify p').mp hverify'

/-- What an upsert does: it adds an administrator, or promotes a user, or finds an administrator. -/
theorem exec_upsertAdmin_cases {db db' : SqliteAuthDatabase} {hash : String} {now : Timestamp}
    {rows : List SqliteUserRow}
    (hexec : (SqliteAuthStatement.upsertAdmin n hash).exec strftime now db = .ok (rows, db')) :
    (∃ row, rows = [row] ∧ row ∈ db'.users ∧ row.named n = true ∧ row.isAdmin = true ∧
      row.passwordHash = hash ∧ ((∀ u ∈ db.users, u.named n = false) ∨
        ∃ u ∈ db.users, u.named n = true ∧ u.isAdmin = false)) ∨
    (rows = [] ∧ db' = db) := by
  simp only [SqliteAuthStatement.exec] at hexec
  split at hexec
  · rename_i user rest hrows
    obtain ⟨huser, hnamed⟩ := Table.mem_select.mp (hrows ▸ List.mem_cons_self)
    split at hexec
    · cases hexec
      exact Or.inr ⟨rfl, rfl⟩
    · rename_i hordinary
      cases hexec
      exact Or.inl ⟨_, rfl, Table.mem_put_self huser rfl, hnamed, rfl, rfl,
        Or.inr ⟨user, huser, hnamed, Bool.eq_false_iff.mpr hordinary⟩⟩
  · rename_i hnone
    split at hexec
    · cases hexec
    · rename_i hcount
      cases hexec
      refine Or.inl ⟨_, rfl, Table.mem_insert.mpr (Or.inr ⟨rfl, fun hkey => ?_⟩),
        named_iff.mpr rfl, rfl, rfl, Or.inl (Table.select_eq_nil.mp hnone)⟩
      obtain ⟨u, hu, hid⟩ := List.mem_map.mp hkey
      have hfree := Table.count_eq_zero.mp (not_not.mp hcount) u hu
      exact absurd (beq_iff_eq.mpr hid) (Bool.eq_false_iff.mp hfree)

/-- The lookup returns an administrator with the name, and changes nothing. -/
theorem existingAdmin_returns {w w' : World SqliteAuthChoice SqliteAuthState} {user : AuthUser}
    (hrun : (AuthService.existingAdmin n).run (serveSqliteAuth P strftime) w = (.ok (.ok user), w')) :
    w'.state = w.state ∧ ∃ row ∈ w.state.database.users, row.named n = true ∧ row.isAdmin = true ∧
      user = AuthService.readUser row := by
  unfold AuthService.existingAdmin at hrun
  rw [run_sqliteStep] at hrun
  rcases serveSqliteAuth_cases (P := P) strftime (.selectAdmin n) (w.choices 0) w.state with
    ⟨message, hserve⟩ | ⟨unique, hserve⟩ | ⟨rows, database, hexec, hserve⟩
  · rw [hserve] at hrun
    cases hrun
  · rw [hserve] at hrun
    cases hrun
  · rw [hserve] at hrun
    cases hexec
    cases hadmins : w.state.database.users.select fun u => u.named n && u.isAdmin with
    | nil =>
        rw [hadmins] at hrun
        cases hrun
    | cons row rest =>
        rw [hadmins] at hrun
        cases hrun
        have hmem : row ∈ w.state.database.users.select fun u => u.named n && u.isAdmin :=
          hadmins ▸ List.mem_cons_self
        obtain ⟨hrow, hadmin⟩ := Table.mem_select.mp hmem
        rw [Bool.and_eq_true] at hadmin
        exact ⟨rfl, row, hrow, hadmin.1, hadmin.2, rfl⟩

/-- What `ensure_admin` returns: an account that it added or promoted, with the new hash, or one that is an
    administrator already, as it is. -/
theorem sqliteEnsureAdmin_returns {w w' : World SqliteAuthChoice SqliteAuthState} {user : AuthUser}
    (hrun : (AuthService.ensureAdmin n p).run (serveSqliteAuth P strftime) w = (.ok (.ok user), w')) :
    (8 ≤ byteSize p ∧ byteSize p ≤ 128) ∧ ∃ row ∈ w'.state.database.users, row.named n = true ∧
      row.isAdmin = true ∧ user = AuthService.readUser row ∧
      (((∃ salt, row.passwordHash = (P.passwordHash salt p).val) ∧
          ((∀ u ∈ w.state.database.users, u.named n = false) ∨
            ∃ u ∈ w.state.database.users, u.named n = true ∧ u.isAdmin = false)) ∨
        row ∈ w.state.database.users) := by
  unfold AuthService.ensureAdmin at hrun
  cases hvalid : AuthService.validateCredentials n p with
  | some error => simp [hvalid] at hrun
  | none =>
      refine ⟨(pgValidate_none hvalid).2, ?_⟩
      rw [hvalid] at hrun
      dsimp only at hrun
      unfold AuthService.passwordHash at hrun
      rw [Program.ask_bind, Program.run_call] at hrun
      dsimp only [serveSqliteAuth] at hrun
      cases hsalt : (w.choices 0).salt with
      | none =>
          rw [hsalt] at hrun
          cases hrun
      | some salt =>
          rw [hsalt] at hrun
          dsimp only [Option.map_some] at hrun
          rw [run_sqliteStep] at hrun
          -- Where the upsert returns no row, the account is looked up in the same tables.
          have hlookup : ∀ w₁ : World SqliteAuthChoice SqliteAuthState, w₁.state = w.state →
              (AuthService.existingAdmin n).run (serveSqliteAuth P strftime) w₁ = (.ok (.ok user), w') →
              ∃ row ∈ w'.state.database.users, row.named n = true ∧ row.isAdmin = true ∧
                user = AuthService.readUser row ∧ row ∈ w.state.database.users := by
            intro w₁ hw₁ hexisting
            obtain ⟨hsame, row, hrow, hnamed, hadmin, huser⟩ := existingAdmin_returns hexisting
            rw [hw₁] at hsame hrow
            exact ⟨row, hsame ▸ hrow, hnamed, hadmin, huser, hrow⟩
          rcases serveSqliteAuth_cases (P := P) strftime
              (.upsertAdmin n (P.passwordHash salt p).val) (w.choices 1) w.state with
            ⟨message, hserve⟩ | ⟨unique, hserve⟩ | ⟨rows, database, hexec, hserve⟩
          · dsimp only [World.advance] at hrun
            rw [hserve] at hrun
            cases hrun
          · dsimp only [World.advance] at hrun
            rw [hserve] at hrun
            obtain ⟨row, hrow, hnamed, hadmin, huser, hold⟩ :=
              hlookup ⟨fun k => w.choices (k + 1 + 1), w.state⟩ rfl hrun
            exact ⟨row, hrow, hnamed, hadmin, huser, Or.inr hold⟩
          · dsimp only [World.advance] at hrun
            rw [hserve] at hrun
            rcases exec_upsertAdmin_cases hexec with
              ⟨row, rfl, hrow, hnamed, hadmin, hhash, hbefore⟩ | ⟨rfl, rfl⟩
            · cases hrun
              exact ⟨row, hrow, hnamed, hadmin, rfl, Or.inl ⟨⟨salt, hhash⟩, hbefore⟩⟩
            · obtain ⟨row, hrow, hnamed, hadmin, huser, hold⟩ :=
                hlookup ⟨fun k => w.choices (k + 1 + 1), w.state⟩ rfl hrun
              exact ⟨row, hrow, hnamed, hadmin, huser, Or.inr hold⟩

/-- **With SQLite the only password is the given one**, unless the account is an administrator already:
    then it is the one that it had before. -/
theorem sqlite_ensureAdmin (hP : P.Lawful) (hdb : SoundAccounts P state.database)
    {choices : Nat → SqliteAuthChoice} {user : AuthUser} {w' : World SqliteAuthChoice SqliteAuthState}
    (hensure : (AuthService.ensureAdmin n p).run (serveSqliteAuth P strftime) ⟨choices, state⟩
      = (.ok (.ok user), w')) (dummy : String) :
    ((∀ u ∈ state.database.users, u.named n = true → u.isAdmin = false) →
      OnlyPassword (sqliteLogin P strftime dummy w'.state) (SqliteCalm P w'.state) user n p) ∧
    ∀ u ∈ state.database.users, u.named n = true → u.isAdmin = true →
      ∃ p₀, P.verifyPassword (cStr u.passwordHash) p₀ = true ∧
        OnlyPassword (sqliteLogin P strftime dummy w'.state) (SqliteCalm P w'.state) user n p₀ := by
  obtain ⟨hsize, row, hrow, hnamed, hadmin, rfl, hbefore⟩ := sqliteEnsureAdmin_returns hensure
  have hsound : SoundAccounts P w'.state.database := by
    have hrun := @SoundAccounts.run P strftime _ _ ⟨choices, state⟩
      (ensureAdmin_sendable n p) hdb
    rwa [hensure] at hrun
  constructor
  · intro hordinary
    rcases hbefore with ⟨⟨salt, hhash⟩, -⟩ | hold
    · exact sqlite_onlyPassword hP hsound hrow hadmin hnamed hhash hsize dummy
    · rw [hordinary row hold hnamed] at hadmin
      cases hadmin
  · intro u hu hunamed huadmin
    have hsame : ∀ x ∈ state.database.users, x.named n = true → x = u := fun x hx hxnamed =>
      hdb.unique x hx u hu ((named_iff.mp hxnamed).trans (named_iff.mp hunamed).symm)
    rcases hbefore with ⟨-, hnone | ⟨x, hx, hxnamed, hxordinary⟩⟩ | hold
    · rw [hnone u hu] at hunamed
      cases hunamed
    · rw [hsame x hx hxnamed, huadmin] at hxordinary
      cases hxordinary
    · obtain rfl := hsame row hold hnamed
      obtain ⟨salt, p₀, hhash, hsize₀⟩ := hdb.passwords row hold
      refine ⟨p₀, ?_, sqlite_onlyPassword hP hsound hrow hadmin hnamed hhash hsize₀ dummy⟩
      rw [hhash, cStr_val]
      exact (hP.verify_exact salt p₀ p₀).mpr rfl

end sqlite

/-! ## Both services -/

/-- **The administrator's password after `ensure_admin`**, in every state that calls lead to. -/
theorem admin_password {P : Platform} (hP : P.Lawful) (strftime : Timestamp → String) (dummy : String) :
    (∀ (db₀ db : Database) (h : List AuthEvent) (n p : String) (choices : Nat → Choice)
        (user : AuthUser) (w' : World Choice Database),
      db₀.users = .empty → db₀.sessions = .empty → Run (AuthStep P) db₀ h db →
      (PostgreSQLAuthService.ensureAdmin P n p).run (serve P) ⟨choices, db⟩ = (.ok (.ok user), w') →
      OnlyPassword (postgresLogin P dummy w'.state) (PostgresCalm P w'.state) user n p) ∧
    ∀ (now : Timestamp) (state : SqliteAuthState) (n p : String) (choices : Nat → SqliteAuthChoice)
        (user : AuthUser) (w' : World SqliteAuthChoice SqliteAuthState),
      Relation.ReflTransGen (SqliteAuthStep P strftime) ⟨.initial, now⟩ state →
      (AuthService.ensureAdmin n p).run (serveSqliteAuth P strftime) ⟨choices, state⟩
        = (.ok (.ok user), w') →
      ((∀ u ∈ state.database.users, u.named n = true → u.isAdmin = false) →
        OnlyPassword (sqliteLogin P strftime dummy w'.state) (SqliteCalm P w'.state) user n p) ∧
      ∀ u ∈ state.database.users, u.named n = true → u.isAdmin = true →
        ∃ p₀, P.verifyPassword (cStr u.passwordHash) p₀ = true ∧
          OnlyPassword (sqliteLogin P strftime dummy w'.state) (SqliteCalm P w'.state) user n p₀ := by
  constructor
  · intro db₀ db h n p choices user w' hu hs hrun hensure
    exact postgres_onlyPassword hP hu hs hrun hensure dummy
  · intro now state n p choices user w' hreached hensure
    exact sqlite_ensureAdmin hP (soundAccounts_of_steps hreached) hensure dummy

/-- The account `admin` is made an administrator in SQLite, with one password and then with another. -/
def sqliteAdmin (password : String) (state : SqliteAuthState) :
    Except Exception (Except AuthError AuthUser) × World SqliteAuthChoice SqliteAuthState :=
  (AuthService.ensureAdmin "admin" password).run (serveSqliteAuth .plain toString)
    ⟨fun _ => .calm, state⟩

def firstAdmin : SqliteAuthState := (sqliteAdmin "old-password" ⟨.initial, 0⟩).2.state

def secondAdmin : SqliteAuthState := (sqliteAdmin "new-password" firstAdmin).2.state

/-- A new account has the password it is given. -/
theorem admin_password_new :
    OnlyPassword (sqliteLogin .plain toString "" firstAdmin) (SqliteCalm .plain firstAdmin)
      ⟨1, "admin", "0", true⟩ "admin" "old-password" :=
  ((admin_password Platform.plain_lawful toString "").2 0 ⟨.initial, 0⟩ "admin" "old-password"
    (fun _ => .calm) ⟨1, "admin", "0", true⟩ (sqliteAdmin "old-password" ⟨.initial, 0⟩).2 .refl rfl).1
    fun u hu => absurd hu (Table.not_mem_empty u)

/-- **An account that is an administrator already keeps its password**: the second call returns the user,
    who cannot log in with the password it was given. -/
theorem admin_password_kept :
    Relation.ReflTransGen (SqliteAuthStep .plain toString) ⟨.initial, 0⟩ firstAdmin ∧
      (sqliteAdmin "new-password" firstAdmin).1 = .ok (.ok ⟨1, "admin", "0", true⟩) ∧
      ¬ OnlyPassword (sqliteLogin .plain toString "" secondAdmin) (SqliteCalm .plain secondAdmin)
        ⟨1, "admin", "0", true⟩ "admin" "new-password" := by
  refine ⟨.single (.call (.ensureAdmin "admin" "old-password") "" fun _ => .calm), rfl,
    fun honly => ?_⟩
  obtain ⟨error, hrefused⟩ := honly.refuses "old-password" (fun _ => .calm) (by decide)
  cases hrefused

end AlgorithmTrainer
