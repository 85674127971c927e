import AlgorithmTrainer.Database.Queue
import AlgorithmTrainer.Server.Calls

/-!
# `Server.Requests` — a request in a state of the database

`respond` runs the handler of a route on a request, and `requester` is the user whose session the request
carries. Nothing that a visitor or an administrator's route asks changes who the requester is, which is
the invariant that two runs of one request are compared under.
-/

namespace AlgorithmTrainer

open Interaction Interaction.Observation PostgreSQLAuthService

/-- The user of the session that a request carries. -/
def requester (P : Platform) (db : Database) (request : HttpRequest) : Option UserRow :=
  if request.cookie = "" then none
  else
    match db.sessionUsers (text (pgTokenHash P request.cookie)) with
    | [row] => some row
    | _ => none

/-- What a request ends in, and the state it leaves, under the given choices of the surroundings. -/
def respond (server : Server) (route : Route) (request : HttpRequest) (choices : Nat → Choice)
    (db : Database) : Except Exception HttpResponse × Database :=
  let answer := (dispatch server route request).run (serve server.P) ⟨choices, db⟩
  (answer.1, answer.2.state)

/-- What a client sees of a response: its status and its body. -/
def HttpResponse.visible (response : HttpResponse) : Nat × Option Json :=
  (response.status, response.body)

/-- A server on the platform to compute with. -/
def Server.plain : Server where
  P := .plain
  dummyPasswordHash := ""
  limits := .unconfigured

/-! ## Who the requester is -/

section requester
variable {P : Platform} {db db' : Database} {request : HttpRequest} {q : BackendRequest} {c : Choice}

/-- The requester depends on the users, the sessions and the time. -/
theorem requester_congr (hu : db'.users = db.users) (hs : db'.sessions = db.sessions)
    (hc : db'.clock = db.clock) : requester P db' request = requester P db request := by
  unfold requester Database.sessionUsers
  rw [hu, hs, hc]

/-- The one user whom a session lookup returns is the requester. -/
theorem requester_of_lookup {row : UserRow} (htoken : request.cookie ≠ "")
    (h : (serveStatement P (.selectSessionUser (text (pgTokenHash P request.cookie))) c db).1
      = .tuples [row]) : requester P db request = some row := by
  unfold serveStatement at h
  split at h
  · cases h
  · have hrows : db.sessionUsers (text (pgTokenHash P request.cookie)) = [row] :=
      Result.tuples.inj h
    unfold requester
    rw [if_neg htoken, hrows]

/-- A locked transaction writes submissions and the audit log only. -/
theorem serveLocked_frame (s : LockedStatement) (c : Choice) (db : Database) :
    (serveLocked s c db).2.users = db.users ∧ (serveLocked s c db).2.sessions = db.sessions ∧
      (serveLocked s c db).2.clock = db.clock := by
  have hplan : (s.plan c.lockedRows db).1.users = db.users ∧
      (s.plan c.lockedRows db).1.sessions = db.sessions ∧
      (s.plan c.lockedRows db).1.clock = db.clock := by
    rw [plan_frame]
    exact ⟨rfl, rfl, rfl⟩
  rcases serveLocked_cases s c db with ⟨h, -⟩ | ⟨h, -⟩ | ⟨_, -, h, -⟩ | ⟨_, _, -, -, h⟩
  · rw [h]
    exact ⟨rfl, rfl, rfl⟩
  · rw [h]
    exact hplan
  · rw [h]
    exact hplan
  · rw [h]
    exact hplan

/-- A visitor's call does not change who the requester is. -/
theorem serve_requester {v : Visitor} (hq : v.Asks P q) :
    requester P (serve P q c db).2 request = requester P db request := by
  match q with
  | .executeLocked _ s =>
      obtain ⟨hu, hs, hc⟩ := serveLocked_frame s c db
      exact requester_congr hu hs hc
  | .randomToken | .passwordHash _ | .judge _ => rfl
  | .execute s =>
      rw [serve_execute]
      unfold serveStatement
      split
      · rfl
      · -- what a visitor sends outside a transaction only reads
        cases s with
        | selectSessionUser _ | selectHistory _ _ | selectActivity _ | selectStreak _
        | selectCompletedProblems _ | countActive _ | selectProblems _ | selectProblem _ _
        | selectTests _ _ => rfl
        | _ => exact hq.elim

/-- What a visitor is told about the session is true of the requester. -/
theorem Visitor.told {v : Visitor} (ht : request.cookie = v.token) (hq : v.Asks P q)
    (hown : ∀ row, requester P db request = some row → v.own row.id) :
    v.Told q (serve P q c db).1 := by
  match q with
  | .executeLocked _ _ | .randomToken | .passwordHash _ | .judge _ => trivial
  | .execute s =>
      cases s with
      | selectSessionUser hash =>
          obtain ⟨htoken, rfl⟩ := hq
          rw [← ht] at htoken ⊢
          have hlookup : ∀ row, (serveStatement P
              (.selectSessionUser (text (pgTokenHash P request.cookie))) c db).1 = .tuples [row] →
              v.own row.id := fun row hr => hown row (requester_of_lookup htoken hr)
          rw [serve_execute]
          revert hlookup
          generalize (serveStatement P
            (.selectSessionUser (text (pgTokenHash P request.cookie))) c db).1 = reply
          intro hlookup
          match reply with
          | .tuples [row] => exact hlookup row rfl
          | .tuples [] | .tuples (_ :: _ :: _) | .none | .failed _ _ | .command => trivial
      | _ => trivial

/-- Someone who is no administrator is told so, and the database is left as it is. -/
theorem serve_refusal (hq : (refusal P request.cookie).allowed () q)
    (hreq : ∀ row, requester P db request = some row → row.isAdmin = false) :
    (refusal P request.cookie).admits () q (serve P q c db).1 ∧ (serve P q c db).2 = db := by
  obtain ⟨htoken, rfl⟩ := hq
  have hlookup : ∀ row, (serveStatement P
      (.selectSessionUser (text (pgTokenHash P request.cookie))) c db).1 = .tuples [row] →
      row.isAdmin = false := fun row hr => hreq row (requester_of_lookup htoken hr)
  rw [serve_execute]
  constructor
  · revert hlookup
    generalize (serveStatement P
      (.selectSessionUser (text (pgTokenHash P request.cookie))) c db).1 = reply
    intro hlookup
    match reply with
    | .tuples [row] => exact hlookup row rfl
    | .tuples [] | .tuples (_ :: _ :: _) | .none | .failed _ _ | .command => trivial
  · unfold serveStatement
    split <;> rfl

end requester

/-! ## Calls that are answered blindly -/

section blind
variable {P : Platform} {erase : Database → Database}

theorem Blind.statement {s : Statement}
    (hexec : ∀ m db, s.exec P m (erase db) = (erase (s.exec P m db).1, (s.exec P m db).2)) :
    Blind (serve P) erase (.execute s) := by
  intro c db
  rw [serve_execute, serve_execute]
  unfold serveStatement
  split
  · rfl
  · rw [hexec]

/-- A locked transaction is answered blindly if its plan is, and if what it writes is not erased. -/
theorem Blind.locked {lock : Int} {s : LockedStatement}
    (hplan : ∀ l db, s.plan l (erase db) = (erase (s.plan l db).1, (s.plan l db).2))
    (happly : ∀ l db changes rows, (s.plan l db).2 = .ok (changes, rows) →
      changes.apply (erase (s.plan l db).1) = erase (changes.apply (s.plan l db).1)) :
    Blind (serve P) erase (.executeLocked lock s) := by
  intro c db
  have happly := happly c.lockedRows db
  rw [serve_executeLocked, serve_executeLocked]
  unfold serveLocked
  rw [hplan]
  rcases hp : s.plan c.lockedRows db with ⟨db', planned⟩
  rw [hp] at happly
  cases c.failure with
  | none =>
      cases planned with
      | error state => rfl
      | ok x =>
          have hx := happly x.1 x.2 rfl
          dsimp only at hx ⊢
          rw [hx]
  | some failure =>
      cases failure with
      | commit => cases planned <;> rfl
      | _ => rfl

/-- The plan of an insertion. -/
theorem plan_insertSubmission (l : Int → Bool) (db : Database) (problemId language code : String)
    (userId : Option Int) (maximum maximumPerUser : Int) :
    (LockedStatement.insertSubmission problemId language code userId maximum maximumPerUser).plan l db
      = if db.admits userId maximum maximumPerUser then
          (db.nextSubmissionId, db.planInsert
            ⟨db.sequences.submissions, problemId, language, code, "queued", none, db.clock, none,
              userId, none, none⟩ none)
        else (db, .ok (.empty, [])) := rfl

end blind

end AlgorithmTrainer
