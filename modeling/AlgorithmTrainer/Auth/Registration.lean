import AlgorithmTrainer.Auth.History

/-!
# `Auth.Registration` — a registration that fails

`register_user` inserts the user and then a session, and each of the two statements commits by itself.
`registration_untouched_iff` says when a registration that returns an error has changed nothing: unless the
first of them took effect and the second did not.
-/

namespace AlgorithmTrainer

open Interaction Relational PostgreSQLAuthService

/-- The first statement of the registration inserts a user. -/
structure InsertsUser (P : Platform) (n p : String) (choices : Nat → Choice) (db : Database) :
    Prop where
  valid : pgValidate n p = none
  hashed : drawnHash P (choices 0) p ≠ ""
  succeeds : (choices 1).failure = none
  /-- Neither the name nor the next id is taken. -/
  free : ∀ u ∈ db.users, u.id ≠ db.sequences.users ∧ P.lower u.username ≠ P.lower (text n)

/-- The second one, for the token that was drawn, does not insert a session. -/
def RefusesSession (P : Platform) (choices : Nat → Choice) (db : Database) : Prop :=
  (choices 3).failure.isSome = true ∨ ∃ s ∈ db.sessions,
    s.id = db.sequences.sessions ∨ s.tokenHash = pgTokenHash P (choices 2).token.val

/-- A registration that returns an error leaves both tables as they were. -/
def Untouched (P : Platform) (n p : String) (choices : Nat → Choice) (db : Database) : Prop :=
  ∀ error w', (registerUser P n p).run (serve P) ⟨choices, db⟩ = (.ok (.error error), w') →
    w'.state.users = db.users ∧ w'.state.sessions = db.sessions

section registration
variable {P : Platform} {n p : String} {choices : Nat → Choice} {db : Database}

/-- Where the name and the id are free, the user is inserted. -/
theorem exec_insertUser_free {m name hash : String}
    (hfree : ∀ u ∈ db.users, u.id ≠ db.sequences.users ∧ P.lower u.username ≠ P.lower name) :
    (Statement.insertUser name hash).exec P m db =
      ({ db.nextUserId with users := db.users.insert (registeredRow db name hash) },
        .tuples [registeredRow db name hash]) := by
  have hcount : db.users.count (fun u => u.id == db.sequences.users
      || P.lower u.username == P.lower name) = 0 := by
    rw [Table.count_eq_zero]
    intro u hu
    simpa using hfree u hu
  exact if_pos hcount

/-- Where the session is refused, the call ends in an error. -/
theorem newSession_refused (user : AuthUser) {w : World Choice Database}
    (h : (w.choices 1).failure.isSome = true ∨ ∃ s ∈ w.state.sessions,
      s.id = w.state.sequences.sessions ∨ s.tokenHash = pgTokenHash P (w.choices 0).token.val) :
    ((newSession P user).run (serve P) w).1 = .ok (.error sessionFailed) := by
  rw [newSession_eq]
  rcases serveStatement_cases (P := P) (sessionStatement P user.id (w.choices 0).token.val)
      (w.choices 1) w.state with ⟨-, hs⟩ | ⟨hnone, hs⟩
  · rw [hs]
    rfl
  · rw [hs]
    obtain ⟨s, hs, htaken⟩ := h.resolve_left (by simp [hnone])
    have hcount : w.state.sessions.count (fun s => s.id == w.state.sequences.sessions
        || s.tokenHash == pgTokenHash P (w.choices 0).token.val) ≠ 0 := by
      rw [ne_eq, Table.count_eq_zero]
      intro hall
      have hfresh := hall s hs
      simp only [Bool.or_eq_false_iff, beq_eq_false_iff_ne] at hfresh
      exact htaken.elim hfresh.1 hfresh.2
    simp only [Statement.exec, text_pgTokenHash]
    rw [if_pos hcount]
    rfl

/-- The registration once the user is inserted: what `newSession` makes of the new row. -/
theorem registerUser_inserts (h : InsertsUser P n p choices db) :
    (registerUser P n p).run (serve P) ⟨choices, db⟩ =
      (newSession P (pgUser P (registeredRow db (text n) (text (drawnHash P (choices 0) p))))).run
        (serve P) ⟨fun k => choices (k + 2), { db.nextUserId with
          users := db.users.insert
            (registeredRow db (text n) (text (drawnHash P (choices 0) p))) }⟩ := by
  have hhash : (drawnHash P (choices 0) p == "") = false := beq_eq_false_iff_ne.mpr h.hashed
  have hserve : serveStatement P (.insertUser (text n) (text (drawnHash P (choices 0) p)))
      (choices 1) db = (.tuples [registeredRow db (text n) (text (drawnHash P (choices 0) p))],
        { db.nextUserId with
          users := db.users.insert (registeredRow db (text n) (text (drawnHash P (choices 0) p))) }) := by
    unfold serveStatement
    rw [h.succeeds]
    dsimp only
    rw [exec_insertUser_free h.free]
  unfold registerUser
  rw [h.valid]
  dsimp only
  rw [run_passwordHash, hhash, if_neg Bool.false_ne_true, run_execute]
  dsimp only [World.advance]
  rw [hserve]

/-- The registration where no user is inserted. -/
theorem registerUser_refused (h : ¬ InsertsUser P n p choices db) :
    ∃ error w', (registerUser P n p).run (serve P) ⟨choices, db⟩ = (.ok (.error error), w') ∧
      w'.state.users = db.users ∧ w'.state.sessions = db.sessions := by
  unfold registerUser
  cases hvalid : pgValidate n p with
  | some error => exact ⟨error, _, rfl, rfl, rfl⟩
  | none =>
      dsimp only
      rw [run_passwordHash]
      split
      · exact ⟨_, _, rfl, rfl, rfl⟩
      · rename_i hhash
        rw [run_execute]
        rcases serveStatement_cases (P := P) (.insertUser (text n) (text (drawnHash P (choices 0) p)))
          (choices 1) db with ⟨-, hs⟩ | ⟨hnone, hs⟩
        · dsimp only [World.advance]
          rw [hs]
          exact ⟨_, _, rfl, rfl, rfl⟩
        · rcases exec_insertUser (P := P) (m := (choices 1).message) (text n)
            (text (drawnHash P (choices 0) p)) db with hexec | ⟨hfree, -⟩
          · dsimp only [World.advance]
            rw [hs, hexec]
            exact ⟨_, _, rfl, rfl, rfl⟩
          · -- All of the condition holds.
            have hne : drawnHash P (choices 0) p ≠ "" := fun he => hhash (beq_iff_eq.mpr he)
            exact absurd ⟨hvalid, hne, hnone, hfree⟩ h

/-- The tables once the user is inserted. -/
abbrev insertedUser (P : Platform) (n p : String) (choices : Nat → Choice) (db : Database) :
    Database :=
  { db.nextUserId with
    users := db.users.insert (registeredRow db (text n) (text (drawnHash P (choices 0) p))) }

theorem mem_insertedUser (h : InsertsUser P n p choices db) :
    registeredRow db (text n) (text (drawnHash P (choices 0) p))
      ∈ (insertedUser P n p choices db).users := by
  refine Table.mem_insert.mpr (Or.inr ⟨rfl, fun hkey => ?_⟩)
  obtain ⟨u, hu, he⟩ := List.mem_map.mp hkey
  exact (h.free u hu).1 he

/-- A registration whose session is refused returns an error, and leaves the user. -/
theorem registerUser_refuses (h : InsertsUser P n p choices db) (hrefused : RefusesSession P choices db) :
    ∃ w', (registerUser P n p).run (serve P) ⟨choices, db⟩ = (.ok (.error sessionFailed), w') ∧
      w'.state.users = (insertedUser P n p choices db).users := by
  obtain ⟨reply, w', hsession, hopened⟩ := run_newSession (P := P)
    (pgUser P (registeredRow db (text n) (text (drawnHash P (choices 0) p))))
    ⟨fun k => choices (k + 2), insertedUser P n p choices db⟩
  have herror := newSession_refused (P := P)
    (pgUser P (registeredRow db (text n) (text (drawnHash P (choices 0) p))))
    (w := ⟨fun k => choices (k + 2), insertedUser P n p choices db⟩) hrefused
  rw [hsession] at herror
  cases herror
  refine ⟨w', (registerUser_inserts h).trans hsession, ?_⟩
  cases hopened with
  | failed hdb =>
      rcases hdb with hdb | hdb
      · rw [hdb]
      · rw [hdb]
        rfl

/-- A registration whose session is stored returns it. -/
theorem registerUser_opens (h : InsertsUser P n p choices db) (hstored : ¬ RefusesSession P choices db) :
    ∃ session, ((registerUser P n p).run (serve P) ⟨choices, db⟩).1 = .ok (.ok session) := by
  rw [registerUser_inserts h]
  refine ⟨_, run_newSession_calm ?_ ⟨_, mem_insertedUser h, rfl⟩ fun s hs => ?_⟩
  · exact Option.not_isSome_iff_eq_none.mp fun hsome => hstored (Or.inl hsome)
  · have hnot := fun htaken => hstored (Or.inr ⟨s, hs, htaken⟩)
    exact not_or.mp hnot

/-- **A registration that returns an error has changed nothing, exactly** unless it inserted the user and
    could then not store a session. -/
theorem registration_untouched_iff (P : Platform) (n p : String) (choices : Nat → Choice)
    (db : Database) :
    Untouched P n p choices db ↔
      ¬ (InsertsUser P n p choices db ∧ RefusesSession P choices db) := by
  by_cases hinserts : InsertsUser P n p choices db
  · constructor
    · rintro huntouched ⟨-, hrefused⟩
      obtain ⟨w', hrun, husers⟩ := registerUser_refuses hinserts hrefused
      have hmem := mem_insertedUser hinserts
      rw [← husers, (huntouched _ _ hrun).1] at hmem
      exact (hinserts.free _ hmem).1 rfl
    · intro hnot error w' hrun
      obtain ⟨session, hopened⟩ := registerUser_opens hinserts fun hrefused => hnot ⟨hinserts, hrefused⟩
      rw [hrun] at hopened
      cases hopened
  · obtain ⟨error, w', hrun, hsame⟩ := registerUser_refused hinserts
    constructor
    · exact fun _ h => hinserts h.1
    · intro _ error' w'' hresult
      rw [hrun] at hresult
      cases hresult
      exact hsame

/-- Everything succeeds but the session's statement. -/
def sessionFails : Nat → Choice
  | 3 => { failure := some .statement }
  | _ => .calm

/-- **The user stays**, and the same registration is rejected as a duplicate afterwards. -/
theorem registration_touched :
    ¬ Untouched .plain "alice" "password" sessionFails (.initial 0) ∧
      ((registerUser .plain "alice" "password").run (serve .plain)
        ⟨fun _ => .calm, ((registerUser .plain "alice" "password").run (serve .plain)
          ⟨sessionFails, .initial 0⟩).2.state⟩).1
        = .ok (.error ⟨.duplicateUser, "Username is already registered"⟩) := by
  constructor
  · intro huntouched
    have husers := (huntouched sessionFailed _ rfl).1
    exact absurd (congrArg (fun t => t.rows.length) husers) (by decide)
  · rfl

end registration

end AlgorithmTrainer
