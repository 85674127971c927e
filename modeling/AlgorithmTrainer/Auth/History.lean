import Mathlib.Data.String.Basic
import AlgorithmTrainer.Auth.Service
import AlgorithmTrainer.Lib.Trace

/-!
# `Auth.History` — histories of calls on the auth service

An `AuthEvent` is a call with its time and its reply, or the passing of time; a history is a list of
events, latest first. What the service is for can be read off a history alone, without the tables:

* `passwordOf` — the password that the latest successful registration or `ensure_admin` set for a name;
* `issuedTo` — whom a token belongs to and since when, unless it was logged out.

`AuthStep` is the step relation of the service, and `AuthStep.effect` says once what a step does to the
tables and which entries of the history it makes.
-/

namespace AlgorithmTrainer

open Interaction Relational PostgreSQLAuthService

/-! ## Events -/

inductive AuthCall where
  | registerUser (username password : String)
  | login (username password : String)
  | ensureAdmin (username password : String)
  | logout (token : String)
deriving DecidableEq

inductive AuthReply where
  | session (result : Except AuthError AuthSession)
  | user (result : Except AuthError AuthUser)
  | done (result : Except AuthError Unit)

/-- The member function that is called. -/
def AuthCall.program (P : Platform) (dummyPasswordHash : String) : AuthCall → Call AuthReply
  | .registerUser username password => do
      let result ← PostgreSQLAuthService.registerUser P username password
      pure (.session result)
  | .login username password => do
      let result ← PostgreSQLAuthService.login P dummyPasswordHash username password
      pure (.session result)
  | .ensureAdmin username password => do
      let result ← PostgreSQLAuthService.ensureAdmin P username password
      pure (.user result)
  | .logout token => do
      let result ← PostgreSQLAuthService.logout P token
      pure (.done result)

inductive AuthEvent where
  | call (time : Timestamp) (c : AuthCall) (reply : AuthReply)
  | pass (elapsed : Nat)

/-- A registration that could not open a session has registered the user all the same. -/
def sessionFailed : AuthError := pgInternal "Could not create session"

namespace AuthEvent

/-- The name, folded, and the password that an event sets for it. -/
def sets : AuthEvent → Option (String × String)
  | .call _ (.registerUser n p) (.session (.ok _)) => some (asciiFold n, p)
  | .call _ (.registerUser n p) (.session (.error e)) =>
      if e = sessionFailed then some (asciiFold n, p) else none
  | .call _ (.ensureAdmin n p) (.user (.ok _)) => some (asciiFold n, p)
  | _ => none

/-- The token that an event issues, and to which user at which time. -/
def issues : AuthEvent → Option (String × Int × Timestamp)
  | .call time _ (.session (.ok s)) => some (s.token, s.user.id, time)
  | _ => none

/-- The token that an event logs out. -/
def revokes : AuthEvent → Option String
  | .call _ (.logout t) (.done (.ok _)) => some t
  | _ => none

/-- The user that an event makes an administrator. -/
def promotes : AuthEvent → Option Int
  | .call _ (.ensureAdmin ..) (.user (.ok user)) => some user.id
  | _ => none

/-- What an event says of a password: the one it sets for this name. -/
def setsFor (name : String) (e : AuthEvent) : Option String :=
  e.sets.bind fun x => if x.1 = name then some x.2 else none

/-- What an event says of a token: to whom it is issued, or that it is logged out. -/
def tokenEvent (t : String) (e : AuthEvent) : Option (Option (Int × Timestamp)) :=
  match e.issues with
  | some x => if x.1 = t then some (some x.2) else none
  | none => if e.revokes = some t then some none else none

end AuthEvent

/-- The password of a name, which is folded: the latest one set. -/
def passwordOf (h : List AuthEvent) (name : String) : Option String :=
  h.findSome? (·.setsFor name)

/-- Whom the token was issued to, and when, if it was not logged out since. -/
def issuedTo (h : List AuthEvent) (t : String) : Option (Int × Timestamp) :=
  (h.findSome? (·.tokenEvent t)).join

theorem passwordOf_cons (e : AuthEvent) (h : List AuthEvent) (name : String) :
    passwordOf (e :: h) name = (e.setsFor name).or (passwordOf h name) := by
  unfold passwordOf
  rw [List.findSome?_cons]
  cases e.setsFor name <;> rfl

theorem issuedTo_cons (e : AuthEvent) (h : List AuthEvent) (t : String) :
    issuedTo (e :: h) t = (e.tokenEvent t).getD (issuedTo h t) := by
  unfold issuedTo
  rw [List.findSome?_cons]
  cases e.tokenEvent t <;> rfl

/-! ## Steps -/

/-- A step of the service: a call that is not interrupted by another one, or the passing of time. -/
inductive AuthStep (P : Platform) : Database → AuthEvent → Database → Prop where
  | call {db : Database} {c : AuthCall} {reply : AuthReply} {w : World Choice Database}
      (dummyPasswordHash : String) (choices : Nat → Choice)
      (h : (c.program P dummyPasswordHash).run (serve P) ⟨choices, db⟩ = (.ok reply, w)) :
      AuthStep P db (.call db.clock c reply) w.state
  | pass {db : Database} (elapsed : Nat) :
      AuthStep P db (.pass elapsed) { db with clock := db.clock + elapsed }

/-! ## Names -/

/-- What the service accepts as a name. -/
structure ValidName (s : String) : Prop where
  ascii : isAscii s = true
  noNul : '\x00' ∉ s.toList
  atLeast : 3 ≤ byteSize s
  atMost : byteSize s ≤ 64

theorem isNameCharacter_ascii {c : Char} (h : isNameCharacter c = true) :
    c.val < 128 ∧ c ≠ '\x00' := by
  unfold isNameCharacter at h
  delta Char.isAlphanum Char.isAlpha Char.isUpper Char.isLower Char.isDigit at h
  simp only [Bool.or_eq_true, Bool.and_eq_true, decide_eq_true_eq, beq_iff_eq] at h
  constructor
  · rcases h with ((((h | h) | h) | rfl) | rfl) | rfl
    all_goals first
      | decide
      | simp only [UInt32.le_iff_toNat_le, UInt32.lt_iff_toNat_lt] at *
        simp at *
        omega
  · rintro rfl
    revert h
    decide

/-- What `pg_validate` lets pass. -/
theorem pgValidate_none {username password : String} (h : pgValidate username password = none) :
    ValidName username ∧ 8 ≤ byteSize password ∧ byteSize password ≤ 128 := by
  unfold pgValidate at h
  split at h
  · cases h
  · rename_i hsize
    split at h
    · cases h
    · rename_i hall
      split at h
      · cases h
      · rename_i hpassword
        have hchars : ∀ c ∈ username.toList, c.val < 128 ∧ c ≠ '\x00' := by
          intro c hc
          have hall' : username.toList.all isNameCharacter = true := by simpa using hall
          exact isNameCharacter_ascii (List.all_eq_true.mp hall' c hc)
        refine ⟨⟨?_, fun hnul => (hchars _ hnul).2 rfl, by omega, by omega⟩, by omega, by omega⟩
        rw [isAscii, List.all_eq_true]
        intro c hc
        exact decide_eq_true (hchars c hc).1

theorem ValidName.text {s : String} (h : ValidName s) : text s = s := cStr_of_not_mem h.noNul

theorem ValidName.lower {P : Platform} (hP : P.Lawful) {s : String} (h : ValidName s) :
    P.lower s = asciiFold s := hP.lower_ascii s h.ascii

theorem utf8Size_toLower (c : Char) : c.toLower.utf8Size = c.utf8Size := by
  unfold Char.toLower
  split
  · rename_i h
    have hle : c.val ≤ 90 := h.2
    have hsize : ∀ d : Char, d.val ≤ 127 → d.utf8Size = 1 := fun d hd => by
      unfold Char.utf8Size
      exact if_pos hd
    rw [hsize c (by simp only [UInt32.le_iff_toNat_le] at *; simp at *; omega), hsize]
    simp only [UInt32.le_iff_toNat_le, UInt32.toNat_add] at *
    simp at *
    omega
  · rfl

/-- Folding keeps the number of bytes. -/
theorem byteSize_asciiFold (s : String) : byteSize (asciiFold s) = byteSize s := by
  have hlist : ∀ l : List Char,
      byteSize (String.ofList (l.map Char.toLower)) = byteSize (String.ofList l) := by
    intro l
    induction l with
    | nil => rfl
    | cons c l ih =>
        simp only [byteSize, String.utf8ByteSize_ofList] at ih ⊢
        rw [List.map_cons, String.utf8Len_cons, String.utf8Len_cons, ih, utf8Size_toLower]
  have h := hlist s.toList
  rwa [String.ofList_toList] at h

/-! ## What a step does -/

/-- The row of a user that `ensure_admin` found. -/
def promotedRow (row : UserRow) (hash : String) : UserRow :=
  { row with passwordHash := hash, isAdmin := true }

/-- What a step does to the users, and the entry it makes. -/
inductive UserEffect (P : Platform) (db : Database) (e : AuthEvent) (db' : Database) : Prop where
  | kept (hu : db'.users = db.users) (hs : e.sets = none) (hp : e.promotes = none)
  | added (row : UserRow) (salt : Nat) (p : String)
      (hu : db'.users = db.users.insert row)
      (hs : e.sets = some (asciiFold row.username, p))
      (hp : e.promotes = if row.isAdmin then some row.id else none)
      (hname : ValidName row.username)
      (hhash : row.passwordHash = (P.passwordHash salt p).val)
      (hpassword : 8 ≤ byteSize p ∧ byteSize p ≤ 128)
      (hid : row.id < db'.sequences.users)
      (hfresh : ∀ u ∈ db.users, u.id ≠ row.id ∧ P.lower u.username ≠ P.lower row.username)
  | promoted (row : UserRow) (salt : Nat) (n p : String) (hrow : row ∈ db.users)
      (hu : db'.users = db.users.put (promotedRow row (P.passwordHash salt p).val))
      (hs : e.sets = some (asciiFold n, p))
      (hp : e.promotes = some row.id)
      (hname : ValidName n)
      (hlower : P.lower row.username = P.lower n)
      (hpassword : 8 ≤ byteSize p ∧ byteSize p ≤ 128)

/-- Why a session may be opened for a user: the user has just been registered, or logged in with the
    right password. -/
inductive Entitled (P : Platform) (db : Database) (id : Int) : AuthEvent → Prop where
  | registered {time : Timestamp} {n p : String} {r : AuthReply} (h : ∀ u ∈ db.users, u.id ≠ id) :
      Entitled P db id (.call time (.registerUser n p) r)
  | loggedIn {time : Timestamp} {n p : String} {r : AuthReply} {row : UserRow}
      (hrow : row ∈ db.users) (hid : row.id = id) (hlower : P.lower row.username = P.lower (text n))
      (hverify : P.verifyPassword (cStr row.passwordHash) p = true) :
      Entitled P db id (.call time (.login n p) r)

/-- What a step does to the sessions, and the entry it makes. -/
inductive SessionEffect (P : Platform) (db : Database) (e : AuthEvent) (db' : Database) : Prop where
  | kept (hsessions : db'.sessions = db.sessions) (hi : e.issues = none)
      (ht : ∀ t, t ≠ "" → e.tokenEvent t = none)
  | added (row : SessionRow) (token : String)
      (hsessions : db'.sessions = db.sessions.insert row)
      (ht : e.issues = some (token, row.userId, db.clock)) (htoken : token ≠ "")
      (hhash : row.tokenHash = pgTokenHash P token)
      (hexpires : row.expiresAt = db.clock + sessionLifetimeSeconds * second)
      (hid : row.id < db'.sequences.sessions)
      (hfresh : ∀ s ∈ db.sessions, s.id ≠ row.id ∧ s.tokenHash ≠ row.tokenHash)
      (howner : ∃ u ∈ db'.users, u.id = row.userId)
      (hentitled : Entitled P db row.userId e)
  | removed (t : String)
      (hsessions : db'.sessions = db.sessions.delete (·.tokenHash == pgTokenHash P t))
      (ht : e.revokes = some t) (hi : e.issues = none)

/-- What a step does. -/
structure AuthEffect (P : Platform) (db : Database) (e : AuthEvent) (db' : Database) : Prop where
  users : UserEffect P db e db'
  sessions : SessionEffect P db e db'
  userIds : db.sequences.users ≤ db'.sequences.users
  sessionIds : db.sequences.sessions ≤ db'.sequences.sessions
  clock : db.clock ≤ db'.clock

section effects
variable {P : Platform}

@[simp] theorem text_pgTokenHash (t : String) : text (pgTokenHash P t) = pgTokenHash P t :=
  cStr_val _

/-- The row of a session that is opened now. -/
def openedSession (P : Platform) (db : Database) (id : Int) (token : String) : SessionRow :=
  ⟨db.sequences.sessions, id, pgTokenHash P token, db.clock,
    db.clock + sessionLifetimeSeconds * second⟩

/-- How a call that opens a session ends: the session could not be stored, or it was. -/
inductive Opened (P : Platform) (user : AuthUser) (db : Database) :
    Except AuthError AuthSession → Database → Prop where
  | failed {db' : Database} (h : db' = db ∨ db' = db.nextSessionId) :
      Opened P user db (.error sessionFailed) db'
  | stored (token : String) (htoken : token ≠ "")
      (hfresh : ∀ s ∈ db.sessions,
        s.id ≠ db.sequences.sessions ∧ s.tokenHash ≠ pgTokenHash P token)
      (howner : ∃ u ∈ db.users, u.id = user.id) :
      Opened P user db (.ok ⟨user, token⟩) { db.nextSessionId with
        sessions := db.sessions.insert (openedSession P db user.id token) }

/-- The statement that stores a session. -/
abbrev sessionStatement (P : Platform) (id : Int) (token : String) : Statement :=
  .insertSession id (text (pgTokenHash P token)) sessionLifetimeSeconds

theorem newSession_eq (user : AuthUser) (w : World Choice Database) :
    (newSession P user).run (serve P) w = match serveStatement P
        (sessionStatement P user.id (w.choices 0).token.val) (w.choices 1) w.state with
      | (r, db') => (.ok (if r.commandOk then .ok ⟨user, (w.choices 0).token.val⟩
          else .error sessionFailed), (w.advance w.state).advance db') := by
  rw [newSession, Program.ask_bind, Program.run_call]
  simp only [serve_randomToken, run_execute]
  split
  · rename_i h
    exact (congrArg (fun x => (Except.ok x, _)) (if_pos h)).symm
  · rename_i h
    exact (congrArg (fun x => (Except.ok x, _)) (if_neg h)).symm

/-- **The end of `register_user` and `login`.** -/
theorem run_newSession (user : AuthUser) (w : World Choice Database) : ∃ reply w',
    (newSession P user).run (serve P) w = (.ok reply, w') ∧ Opened P user w.state reply w'.state := by
  rw [newSession_eq]
  rcases serveStatement_cases (P := P) (sessionStatement P user.id (w.choices 0).token.val)
      (w.choices 1) w.state with ⟨-, hs⟩ | ⟨-, hs⟩
  · rw [hs]
    exact ⟨_, _, rfl, .failed (Or.inl rfl)⟩
  · rw [hs]
    simp only [Statement.exec, text_pgTokenHash]
    split
    · exact ⟨_, _, rfl, .failed (Or.inr rfl)⟩
    · rename_i hcount
      split
      · rename_i howner
        refine ⟨_, _, rfl, .stored _ (w.choices 0).token.property (fun s hs => ?_)
          (hasUser_iff.mp howner)⟩
        have hnone := Table.count_eq_zero.mp (not_not.mp hcount) s hs
        simpa using hnone
      · exact ⟨_, _, rfl, .failed (Or.inr rfl)⟩

/-- Where no statement fails and the token is new, the session is stored. -/
theorem run_newSession_calm {user : AuthUser} {w : World Choice Database}
    (hcalm : (w.choices 1).failure = none) (howner : ∃ u ∈ w.state.users, u.id = user.id)
    (hfresh : ∀ s ∈ w.state.sessions, s.id ≠ w.state.sequences.sessions
      ∧ s.tokenHash ≠ pgTokenHash P (w.choices 0).token.val) :
    ((newSession P user).run (serve P) w).1 = .ok (.ok ⟨user, (w.choices 0).token.val⟩) := by
  have hcount : w.state.sessions.count (fun s => s.id == w.state.sequences.sessions
      || s.tokenHash == pgTokenHash P (w.choices 0).token.val) = 0 := by
    rw [Table.count_eq_zero]
    intro s hs
    simpa using hfresh s hs
  rw [newSession_eq]
  simp only [serveStatement, hcalm, Statement.exec, text_pgTokenHash]
  rw [if_neg (not_not.mpr hcount), if_pos (hasUser_iff.mpr howner)]
  rfl

/-- The hash that `password_hash` comes back with. -/
def drawnHash (P : Platform) (c : Choice) (password : String) : String :=
  (c.salt.map (P.passwordHash · password)).elim "" Subtype.val

theorem run_passwordHash {α : Type} (password : String) (f : String → Call α)
    (w : World Choice Database) : (passwordHash password >>= f).run (serve P) w =
      (f (drawnHash P (w.choices 0) password)).run (serve P) (w.advance w.state) := rfl

theorem drawnHash_eq {c : Choice} {password : String} (h : drawnHash P c password ≠ "") :
    ∃ salt, drawnHash P c password = (P.passwordHash salt password).val := by
  unfold drawnHash at h ⊢
  cases hsalt : c.salt with
  | none => rw [hsalt] at h; exact absurd rfl h
  | some salt => exact ⟨salt, rfl⟩

/-- Validation errors are about the input. -/
theorem pgValidate_code {username password : String} {error : AuthError}
    (h : pgValidate username password = some error) : error.code = .invalidInput := by
  unfold pgValidate at h
  split at h
  · cases h; rfl
  · split at h
    · cases h; rfl
    · split at h <;> cases h
      rfl

/-- A call that is refused leaves the accounts as they are. -/
theorem AuthEffect.refused {db db' : Database} {e : AuthEvent} (hs : e.sets = none)
    (hp : e.promotes = none) (hi : e.issues = none) (ht : ∀ t, t ≠ "" → e.tokenEvent t = none)
    (hdb : db' = db ∨ db' = db.nextUserId ∨ db' = db.nextSessionId) : AuthEffect P db e db' := by
  have hframe : db'.users = db.users ∧ db'.sessions = db.sessions ∧
      db.sequences.users ≤ db'.sequences.users ∧
      db.sequences.sessions ≤ db'.sequences.sessions ∧ db.clock ≤ db'.clock := by
    rcases hdb with rfl | rfl | rfl
    · exact ⟨rfl, rfl, Int.le_refl _, Int.le_refl _, Int.le_refl _⟩
    · exact ⟨rfl, rfl, Int.le_add_one (Int.le_refl _), Int.le_refl _, Int.le_refl _⟩
    · exact ⟨rfl, rfl, Int.le_refl _, Int.le_add_one (Int.le_refl _), Int.le_refl _⟩
  obtain ⟨hu, hsessions, huser, hsession, hclock⟩ := hframe
  exact ⟨.kept hu hs hp, .kept hsessions hi ht, huser, hsession, hclock⟩

@[simp] theorem text_hash (salt : Nat) (p : String) :
    text (P.passwordHash salt p).val = (P.passwordHash salt p).val := cStr_val _

/-- The row of a user that registers now. -/
def registeredRow (db : Database) (n hash : String) : UserRow :=
  ⟨db.sequences.users, n, hash, db.clock, false⟩

/-- What the insertion of a user does: nothing if the name or the id is taken. -/
theorem exec_insertUser {m : String} (n hash : String) (db : Database) :
    (Statement.insertUser n hash).exec P m db = (db.nextUserId, .tuples []) ∨
    ((∀ u ∈ db.users, u.id ≠ db.sequences.users ∧ P.lower u.username ≠ P.lower n) ∧
      (Statement.insertUser n hash).exec P m db =
        ({ db.nextUserId with users := db.users.insert (registeredRow db n hash) },
          .tuples [registeredRow db n hash])) := by
  simp only [Statement.exec]
  split
  · rename_i hcount
    refine Or.inr ⟨fun u hu => ?_, rfl⟩
    simpa using Table.count_eq_zero.mp hcount u hu
  · exact Or.inl rfl

/-- A user who was registered, and the session that was opened or not. -/
theorem registered_effect {n p : String} {salt : Nat} {db db' : Database}
    {reply : Except AuthError AuthSession} (hname : ValidName n)
    (hpassword : 8 ≤ byteSize p ∧ byteSize p ≤ 128)
    (hfresh : ∀ u ∈ db.users, u.id ≠ db.sequences.users ∧ P.lower u.username ≠ P.lower n)
    (hopened : Opened P (pgUser P (registeredRow db n (P.passwordHash salt p).val))
      { db.nextUserId with
        users := db.users.insert (registeredRow db n (P.passwordHash salt p).val) } reply db') :
    AuthEffect P db (.call db.clock (.registerUser n p) (.session reply)) db' := by
  have hlt : db.sequences.users < db.nextUserId.sequences.users := Int.lt_add_one_of_le (Int.le_refl _)
  have hadded : ∀ d : Database,
      d.users = db.users.insert (registeredRow db n (P.passwordHash salt p).val) →
      d.sequences.users = db.nextUserId.sequences.users →
      (AuthEvent.call db.clock (.registerUser n p) (.session reply)).sets = some (asciiFold n, p) →
      UserEffect P db (.call db.clock (.registerUser n p) (.session reply)) d :=
    fun d hu hseq hs => .added _ salt p hu hs rfl hname rfl hpassword (hseq ▸ hlt) hfresh
  cases hopened with
  | failed h =>
      rcases h with rfl | rfl
      · exact ⟨hadded _ rfl rfl (by simp [AuthEvent.sets]), .kept rfl rfl fun _ _ => rfl, Int.le_of_lt hlt,
          Int.le_refl _, Int.le_refl _⟩
      · exact ⟨hadded _ rfl rfl (by simp [AuthEvent.sets]), .kept rfl rfl fun _ _ => rfl, Int.le_of_lt hlt,
          Int.le_add_one (Int.le_refl _), Int.le_refl _⟩
  | stored token htoken hnew howner =>
      refine ⟨hadded _ rfl rfl rfl, ?_, Int.le_of_lt hlt, Int.le_add_one (Int.le_refl _),
        Int.le_refl _⟩
      exact .added _ token rfl rfl htoken rfl rfl (Int.lt_add_one_of_le (Int.le_refl _)) hnew howner
        (.registered fun u hu => (hfresh u hu).1)

theorem registerUser_effect (n p : String) (w : World Choice Database) : ∃ reply w',
    (registerUser P n p).run (serve P) w = (.ok reply, w') ∧
      AuthEffect P w.state (.call w.state.clock (.registerUser n p) (.session reply)) w'.state := by
  -- What fails before a session is opened leaves the tables as they were; an id may have been drawn.
  have hrefused : ∀ error db', error ≠ sessionFailed →
      db' = w.state ∨ db' = w.state.nextUserId ∨ db' = w.state.nextSessionId →
      AuthEffect P w.state (.call w.state.clock (.registerUser n p) (.session (.error error))) db' :=
    fun error db' herror hdb => .refused (if_neg herror) rfl rfl (fun _ _ => rfl) hdb
  unfold registerUser
  cases hv : pgValidate n p with
  | some error =>
      refine ⟨_, _, rfl, hrefused error _ (fun h => ?_) (Or.inl rfl)⟩
      have hcode := pgValidate_code hv
      rw [h] at hcode
      cases hcode
  | none =>
      obtain ⟨hname, hpassword⟩ := pgValidate_none hv
      dsimp only
      rw [run_passwordHash]
      split
      · exact ⟨_, _, rfl, hrefused _ _ (by decide) (Or.inl rfl)⟩
      · rename_i hne
        obtain ⟨salt, hsalt⟩ := drawnHash_eq (by simpa using hne)
        rw [hsalt, run_execute]
        rcases serveStatement_cases (P := P)
            (.insertUser (text n) (text (P.passwordHash salt p).val))
            ((w.advance w.state).choices 0) (w.advance w.state).state with ⟨-, hs⟩ | ⟨-, hs⟩
        · rw [hs]
          exact ⟨_, _, rfl, hrefused _ _ (by decide) (Or.inl rfl)⟩
        · rw [hs]
          rcases exec_insertUser (P := P) (m := ((w.advance w.state).choices 0).message) (text n)
            (text (P.passwordHash salt p).val) w.state with hexec | ⟨hfresh, hexec⟩
          -- the name is taken
          · rw [World.advance_state, hexec]
            exact ⟨_, _, rfl, hrefused _ _ (by decide) (Or.inr (Or.inl rfl))⟩
          · rw [World.advance_state, hexec, hname.text, text_hash]
            obtain ⟨reply, w', hrun, hopened⟩ := run_newSession (P := P)
              (pgUser P (registeredRow w.state n (P.passwordHash salt p).val))
              ((w.advance w.state).advance { w.state.nextUserId with
                users := w.state.users.insert
                  (registeredRow w.state n (P.passwordHash salt p).val) })
            refine ⟨reply, w', hrun, ?_⟩
            rw [hname.text] at hfresh
            exact registered_effect hname hpassword hfresh hopened

/-- A user who logged in, and the session that was opened or not. -/
theorem loggedIn_effect {n p : String} {row : UserRow} {db db' : Database}
    {reply : Except AuthError AuthSession} (hrow : row ∈ db.users)
    (hlower : P.lower row.username = P.lower (text n))
    (hverify : P.verifyPassword (cStr row.passwordHash) p = true)
    (hopened : Opened P (pgUser P row) db reply db') :
    AuthEffect P db (.call db.clock (.login n p) (.session reply)) db' := by
  cases hopened with
  | failed h => exact .refused rfl rfl rfl (fun _ _ => rfl) (h.imp_right Or.inr)
  | stored token htoken hnew howner =>
      refine ⟨.kept rfl rfl rfl, ?_, Int.le_refl _, Int.le_add_one (Int.le_refl _), Int.le_refl _⟩
      exact .added _ token rfl rfl htoken rfl rfl (Int.lt_add_one_of_le (Int.le_refl _)) hnew howner
        (.loggedIn hrow rfl hlower hverify)

theorem login_effect (dummy n p : String) (w : World Choice Database) : ∃ reply w',
    (login P dummy n p).run (serve P) w = (.ok reply, w') ∧
      AuthEffect P w.state (.call w.state.clock (.login n p) (.session reply)) w'.state := by
  have hrefused : ∀ error, AuthEffect P w.state
      (.call w.state.clock (.login n p) (.session (.error error))) w.state :=
    fun error => .refused rfl rfl rfl (fun _ _ => rfl) (Or.inl rfl)
  unfold login
  dsimp only
  split
  · exact ⟨_, _, rfl, hrefused _⟩
  · rw [run_execute]
    rcases serveStatement_cases (P := P) (.selectUserByName (text n)) (w.choices 0) w.state with
      ⟨-, hs⟩ | ⟨-, hs⟩
    · rw [hs]
      exact ⟨_, _, rfl, hrefused _⟩
    · rw [hs]
      dsimp only [Statement.exec]
      have hmem : ∀ u ∈ w.state.users.select (fun u => P.lower u.username == P.lower (text n)),
          u ∈ w.state.users ∧ P.lower u.username = P.lower (text n) :=
        fun u hu => (Table.mem_select.mp hu).imp_right beq_iff_eq.mp
      revert hmem
      match w.state.users.select (fun u => P.lower u.username == P.lower (text n)) with
      | [] => exact fun _ => ⟨_, _, rfl, hrefused _⟩
      | _ :: _ :: _ => exact fun _ => ⟨_, _, rfl, hrefused _⟩
      | [row] =>
          intro hmem
          dsimp only [Option.elim]
          split
          · rename_i row' hrow hverify
            cases hrow
            obtain ⟨reply, w', hrun, hopened⟩ := run_newSession (P := P) (pgUser P row)
              (w.advance w.state)
            refine ⟨reply, w', hrun, ?_⟩
            obtain ⟨hrow, hlower⟩ := hmem row (List.mem_singleton_self _)
            exact loggedIn_effect hrow hlower hverify hopened
          · exact ⟨_, _, rfl, hrefused _⟩

/-- What the administrator's statement does: it promotes the user it finds, or adds one, or fails. -/
theorem exec_upsertAdmin {m : String} (n hash : String) (db : Database) :
    (∃ row ∈ db.users, P.lower row.username = P.lower n ∧
      (Statement.upsertAdmin n hash).exec P m db =
        ({ db.nextUserId with users := db.users.put (promotedRow row hash) },
          .tuples [promotedRow row hash])) ∨
    ((∀ u ∈ db.users, u.id ≠ db.sequences.users ∧ P.lower u.username ≠ P.lower n) ∧
      (Statement.upsertAdmin n hash).exec P m db =
        ({ db.nextUserId with
            users := db.users.insert { registeredRow db n hash with isAdmin := true } },
          .tuples [{ registeredRow db n hash with isAdmin := true }])) ∨
    (Statement.upsertAdmin n hash).exec P m db = (db.nextUserId, .failed .uniqueViolation m) := by
  simp only [Statement.exec]
  split
  · rename_i row rest hrows
    have hrow : row ∈ db.users.select fun u => P.lower u.username == P.lower n := by
      rw [hrows]
      exact List.mem_cons_self
    obtain ⟨hmem, hlower⟩ := Table.mem_select.mp hrow
    exact Or.inl ⟨row, hmem, by simpa using hlower, rfl⟩
  · rename_i hnone
    split
    · rename_i hcount
      refine Or.inr (Or.inl ⟨fun u hu => ⟨?_, ?_⟩, rfl⟩)
      · simpa using Table.count_eq_zero.mp hcount u hu
      · simpa using Table.select_eq_nil.mp hnone u hu
    · exact Or.inr (Or.inr rfl)

theorem ensureAdmin_effect (n p : String) (w : World Choice Database) : ∃ reply w',
    (ensureAdmin P n p).run (serve P) w = (.ok reply, w') ∧
      AuthEffect P w.state (.call w.state.clock (.ensureAdmin n p) (.user reply)) w'.state := by
  -- What fails leaves the tables as they were.
  have hrefused : ∀ error db', db' = w.state ∨ db' = w.state.nextUserId →
      AuthEffect P w.state (.call w.state.clock (.ensureAdmin n p) (.user (.error error))) db' :=
    fun error db' hdb => .refused rfl rfl rfl (fun _ _ => rfl) (hdb.imp_right Or.inl)
  unfold ensureAdmin
  cases hv : pgValidate n p with
  | some error => exact ⟨_, _, rfl, hrefused _ _ (Or.inl rfl)⟩
  | none =>
      obtain ⟨hname, hpassword⟩ := pgValidate_none hv
      dsimp only
      rw [run_passwordHash]
      split
      · exact ⟨_, _, rfl, hrefused _ _ (Or.inl rfl)⟩
      · rename_i hne
        obtain ⟨salt, hsalt⟩ := drawnHash_eq (by simpa using hne)
        rw [hsalt, run_execute]
        rcases serveStatement_cases (P := P)
            (.upsertAdmin (text n) (text (P.passwordHash salt p).val))
            ((w.advance w.state).choices 0) (w.advance w.state).state with ⟨-, hs⟩ | ⟨-, hs⟩
        · rw [hs]
          exact ⟨_, _, rfl, hrefused _ _ (Or.inl rfl)⟩
        · rw [hs, World.advance_state]
          have hlt : w.state.sequences.users < w.state.nextUserId.sequences.users :=
            Int.lt_add_one_of_le (Int.le_refl _)
          rcases exec_upsertAdmin (P := P) (m := ((w.advance w.state).choices 0).message) (text n)
              (text (P.passwordHash salt p).val) w.state with
            ⟨row, hrow, hlower, hexec⟩ | ⟨hfresh, hexec⟩ | hexec
          -- the name has an account, whose hash and flag are set
          · rw [hexec, text_hash]
            rw [hname.text] at hlower
            exact ⟨_, _, rfl, .promoted row salt n p hrow rfl rfl rfl hname hlower hpassword,
              .kept rfl rfl fun _ _ => rfl, Int.le_of_lt hlt, Int.le_refl _, Int.le_refl _⟩
          -- a new account
          · rw [hexec, hname.text, text_hash]
            rw [hname.text] at hfresh
            exact ⟨_, _, rfl, .added _ salt p rfl rfl rfl hname rfl hpassword hlt hfresh,
              .kept rfl rfl fun _ _ => rfl, Int.le_of_lt hlt, Int.le_refl _, Int.le_refl _⟩
          · rw [hexec]
            exact ⟨_, _, rfl, hrefused _ _ (Or.inr rfl)⟩

theorem logout_effect (t : String) (w : World Choice Database) : ∃ reply w',
    (logout P t).run (serve P) w = (.ok reply, w') ∧
      AuthEffect P w.state (.call w.state.clock (.logout t) (.done reply)) w'.state := by
  unfold logout
  split
  · rename_i hempty
    refine ⟨_, _, rfl, .refused rfl rfl rfl (fun t' ht' => ?_) (Or.inl rfl)⟩
    exact if_neg fun h => ht' ((Option.some.inj h).symm.trans (by simpa using hempty))
  · rw [run_execute]
    rcases serveStatement_cases (P := P) (.deleteSession (text (pgTokenHash P t))) (w.choices 0)
      w.state with ⟨-, hs⟩ | ⟨-, hs⟩
    · rw [hs]
      exact ⟨_, _, rfl, .refused rfl rfl rfl (fun _ _ => rfl) (Or.inl rfl)⟩
    · rw [hs]
      refine ⟨_, _, rfl, .kept rfl rfl rfl, .removed t ?_ rfl rfl, Int.le_refl _, Int.le_refl _,
        Int.le_refl _⟩
      show w.state.sessions.delete (·.tokenHash == text (pgTokenHash P t)) = _
      rw [text_pgTokenHash]

/-- **What a step does**, and the entries of the history that go with it. -/
theorem AuthStep.effect {db db' : Database} {e : AuthEvent} (h : AuthStep P db e db') :
    AuthEffect P db e db' := by
  cases h with
  | pass elapsed =>
      exact ⟨.kept rfl rfl rfl, .kept rfl rfl fun _ _ => rfl, Int.le_refl _, Int.le_refl _,
        Int.le_add_of_nonneg_right (Int.natCast_nonneg _)⟩
  | @call c reply w dummy choices h =>
      cases c with
      | registerUser n p =>
          obtain ⟨r, w', hrun, heffect⟩ := registerUser_effect (P := P) n p ⟨choices, db⟩
          rw [AuthCall.program, Program.run_bind, hrun] at h
          cases h
          exact heffect
      | login n p =>
          obtain ⟨r, w', hrun, heffect⟩ := login_effect (P := P) dummy n p ⟨choices, db⟩
          rw [AuthCall.program, Program.run_bind, hrun] at h
          cases h
          exact heffect
      | ensureAdmin n p =>
          obtain ⟨r, w', hrun, heffect⟩ := ensureAdmin_effect (P := P) n p ⟨choices, db⟩
          rw [AuthCall.program, Program.run_bind, hrun] at h
          cases h
          exact heffect
      | logout t =>
          obtain ⟨r, w', hrun, heffect⟩ := logout_effect (P := P) t ⟨choices, db⟩
          rw [AuthCall.program, Program.run_bind, hrun] at h
          cases h
          exact heffect

end effects

end AlgorithmTrainer
