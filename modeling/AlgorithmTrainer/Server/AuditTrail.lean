import AlgorithmTrainer.Lib.Pool
import AlgorithmTrainer.Server.Requests

/-!
# `Server.AuditTrail` — the audit rows of the administrators' changes

Requests run concurrently, one thread for each, and time passes between their calls. A handler that changed a
problem or a hidden test looks its session up again and then writes the audit row, in calls of their own,
so a logout, an expiry or a fault may come in between.

`AuditPhase` is how far a thread has got on that way. `admin_changes_audited` says that nothing is lost as
long as no call fails between a change and its audit row and the session is still there when it is looked
up again; `unaudited_change` is the run where the session goes first.
-/

namespace AlgorithmTrainer

open Interaction Interaction.Pool Transition Relational PostgreSQLAuthService

/-! ## Changes and audit rows -/

/-- What an administrator does to problems and hidden tests. -/
inductive AdminAction where
  | createProblem
  | updateProblem
  | deleteProblem
  | createTest
  | updateTest
  | deleteTest
deriving DecidableEq, Repr

namespace AdminAction

def name : AdminAction → String
  | createProblem => "problem.create"
  | updateProblem => "problem.update"
  | deleteProblem => "problem.delete"
  | createTest => "problem-test.create"
  | updateTest => "problem-test.update"
  | deleteTest => "problem-test.delete"

def entityType : AdminAction → String
  | createProblem | updateProblem | deleteProblem => "problem"
  | createTest | updateTest | deleteTest => "problem-test"

end AdminAction

/-- A committed change: the action and the entity it was done to. -/
structure Change where
  action : AdminAction
  entityId : String
deriving DecidableEq

def testEntity (problemId : String) (testId : Int) : String := problemId ++ ":" ++ toString testId

/-- The change that a call committed: a statement that writes problems or hidden tests and returned a row. -/
def changed : (q : BackendRequest) → q.Reply → Option Change
  | .execute (.insertProblem p), .tuples [_] => some ⟨.createProblem, p.id⟩
  | .execute (.updateProblem p _), .tuples (_ :: _) => some ⟨.updateProblem, p.id⟩
  | .execute (.deleteProblem id), .tuples (_ :: _) => some ⟨.deleteProblem, id⟩
  | .execute (.insertTest problemId ..), .tuples [row] =>
      some ⟨.createTest, testEntity problemId row.id⟩
  | .execute (.updateTest _ _ _ _ id problemId _), .tuples (_ :: _) =>
      some ⟨.updateTest, testEntity problemId id⟩
  | .execute (.deleteTest id problemId), .tuples (_ :: _) =>
      some ⟨.deleteTest, testEntity problemId id⟩
  | _, _ => none

/-- Whether a request is a statement that writes problems or hidden tests. -/
def BackendRequest.mutates : BackendRequest → Bool
  | .execute (.insertProblem _) | .execute (.updateProblem ..) | .execute (.deleteProblem _)
  | .execute (.insertTest ..) | .execute (.updateTest ..) | .execute (.deleteTest ..) => true
  | _ => false

/-- Whether a request writes an audit row by itself. -/
def BackendRequest.audits : BackendRequest → Bool
  | .execute (.insertAudit ..) => true
  | _ => false

/-- Who did what: the columns of an audit row that the trail is compared by. -/
structure AuditEntry where
  adminUserId : Option Int
  action : String
  entityType : String
  entityId : String
deriving DecidableEq

def Change.entry (c : Change) (admin : Option Int) : AuditEntry :=
  ⟨admin, c.action.name, c.action.entityType, c.entityId⟩

def AuditRow.entry (r : AuditRow) : AuditEntry :=
  ⟨some r.adminUserId, r.action, r.entityType, r.entityId⟩

/-- The audit rows of changes of problems and hidden tests, oldest first: those that no retry wrote. -/
def Database.trail (db : Database) : List AuditEntry :=
  (db.adminAuditLog.rows.filter (·.action != "submission.retry")).map AuditRow.entry

/-- The entry that a call wrote to the audit log. -/
def auditWritten : (q : BackendRequest) → q.Reply → Option AuditEntry
  | .execute (.insertAudit admin action entityType entityId _), .command =>
      some ⟨some admin, action, entityType, entityId⟩
  | _, _ => none

/-- The user that a call found for a session. -/
def lookedUp : (q : BackendRequest) → q.Reply → Option UserRow
  | .execute (.selectSessionUser _), .tuples [row] => some row
  | _, _ => none

/-! ## Requests that run concurrently -/

section pool
variable {ι : Type} [DecidableEq ι]

abbrev RequestPool (ι : Type) := Pool ι Backend Exception HttpResponse Database

/-- What happens besides the calls: a request arrives at a thread that is done, and time passes. -/
inductive RequestControl (ι : Type) where
  | arrive (i : ι) (route : Route) (request : HttpRequest)
  | elapse (time : Nat)

abbrev RequestEvent (ι : Type) := Event ι Backend Choice (RequestControl ι)

/-- The thread has sent its response, or ended in an exception. -/
def answered : Call HttpResponse → Bool
  | .call _ _ => false
  | _ => true

/-- The thread whose request is replaced. -/
def RequestControl.resets : RequestControl ι → ι → Bool
  | .arrive j _ _, i => i = j
  | .elapse _, _ => false

def requestControl (server : Server) : RequestControl ι → RequestPool ι → Option (RequestPool ι)
  | .arrive i route request, p =>
      if answered (p.thread i) then
        some { p with thread := Function.update p.thread i (dispatch server route request) }
      else none
  | .elapse time, p => some { p with shared := { p.shared with clock := p.shared.clock + time } }

/-- No request has arrived yet. -/
def idleServer (ι : Type) (db : Database) : RequestPool ι := ⟨db, fun _ => .ret (emptyResponse 200)⟩

/-! ## The history of changes and audits -/

/-- The user whose session a thread looked up last, in the request it serves. -/
def actor : List (RequestEvent ι) → ι → Option UserRow
  | [], _ => none
  | .call j _ x :: h, i =>
      if i = j then (lookedUp x.request x.reply).or (actor h i) else actor h i
  | .control b :: h, i => if b.resets i then none else actor h i

/-- The changes a thread committed, latest first, each with the user who made it. -/
def changesBy : List (RequestEvent ι) → ι → List AuditEntry
  | [], _ => []
  | .call j _ x :: h, i =>
      if i = j then
        ((changed x.request x.reply).map (·.entry ((actor h i).map UserRow.id))).toList
          ++ changesBy h i
      else changesBy h i
  | .control _ :: h, i => changesBy h i

/-- Whether a thread has committed a change in the request it serves. -/
def changedInRequest : List (RequestEvent ι) → ι → Bool
  | [], _ => false
  | .call j _ x :: h, i =>
      if i = j then (changed x.request x.reply).isSome || changedInRequest h i
      else changedInRequest h i
  | .control b :: h, i => if b.resets i then false else changedInRequest h i

/-- The audit entries a thread wrote, latest first. -/
def auditsBy : List (RequestEvent ι) → ι → List AuditEntry
  | [], _ => []
  | .call j _ x :: h, i =>
      if i = j then (auditWritten x.request x.reply).toList ++ auditsBy h i else auditsBy h i
  | .control _ :: h, i => auditsBy h i

/-- All audit entries that were written, latest first. -/
def audits : List (RequestEvent ι) → List AuditEntry
  | [] => []
  | .call _ _ x :: h => (auditWritten x.request x.reply).toList ++ audits h
  | .control _ :: h => audits h

/-- What the audit log is for. -/
structure ChangesAudited (db₀ : Database) (h : List (RequestEvent ι)) (p : RequestPool ι) : Prop where
  /-- Once a thread has answered, its changes and its audit rows are the same, one for one. -/
  settled : ∀ i, answered (p.thread i) = true → changesBy h i = auditsBy h i
  /-- At any time, every audit row is the one of a committed change. -/
  earned : ∀ i, auditsBy h i <:+ changesBy h i
  /-- The audit log holds exactly the rows that were written. -/
  rows : p.shared.trail = db₀.trail ++ (audits h).reverse
  /-- A request that has changed something does not end in an exception. -/
  returned : ∀ i e, p.thread i = .raise e → changedInRequest h i = false

end pool

/-! ## How far a request has got -/

/-- Nobody is authorised yet; an administrator is; a change is committed; the administrator's id has been
    looked up for the audit row; the audit row is written. -/
inductive AuditPhase where
  | idle
  | authorised (tokenHash : String) (admin : Int)
  | changed (tokenHash : String) (admin : Int) (change : Change)
  | identified (admin : Int) (change : Change)
  | audited

namespace AuditPhase

/-- No change is waiting for its audit row, and none was made. -/
def Quiet : AuditPhase → Prop
  | idle | authorised .. => True
  | _ => False

/-- The change that waits for its audit row. -/
def pending : AuditPhase → Option AuditEntry
  | changed _ admin change | identified admin change => some (change.entry (some admin))
  | _ => none

/-- The administrator a request is served for. -/
def admin : AuditPhase → Option Int
  | authorised _ admin | changed _ admin _ | identified admin _ => some admin
  | _ => none

def next (φ : AuditPhase) : (q : BackendRequest) → q.Reply → AuditPhase
  | .execute (.selectSessionUser hash), .tuples [row] =>
      match φ with
      | changed _ _ change => identified row.id change
      | _ => if row.isAdmin then authorised hash row.id else idle
  | .execute (.insertAudit ..), .command => audited
  | q, r =>
      match φ, AlgorithmTrainer.changed q r with
      | authorised hash admin, some change => changed hash admin change
      | φ, _ => φ

/-- What a thread may ask. -/
def Allows : AuditPhase → BackendRequest → Prop
  | idle, q => q.mutates = false ∧ q.audits = false
  | authorised .., q => q.audits = false
  | changed hash _ _, q => q = .execute (.selectSessionUser hash)
  | identified admin change, q => q = .execute (.insertAudit admin change.action.name
      change.action.entityType change.entityId (.object []))
  | audited, _ => False

/-- What a thread may assume once it has changed something: it finds its session again, and the audit row
    is written. -/
def Admits : AuditPhase → (q : BackendRequest) → q.Reply → Prop
  | changed _ admin _, .execute (.selectSessionUser _), .tuples [row] => row.id = admin
  | changed .., _, _ => False
  | identified .., .execute (.insertAudit ..), .command => True
  | identified .., _, _ => False
  | _, _, _ => True

/-- How a thread may end. -/
def Done {α : Type} : AuditPhase → Except Exception α → Prop
  | idle, _ | authorised .., _ => True
  | audited, o => o.isOk = true
  | _, _ => False

end AuditPhase

def auditProtocol : Protocol Backend AuditPhase where
  allowed := AuditPhase.Allows
  admits := AuditPhase.Admits
  next := AuditPhase.next

/-! ## Requests that change nothing -/

section quiet
variable {q : BackendRequest} {φ : AuditPhase}

theorem changed_eq_none (h : q.mutates = false) (r : q.Reply) : changed q r = none := by
  unfold changed
  split
  case h_7 => rfl
  all_goals cases h

theorem auditWritten_eq_none (h : q.audits = false) (r : q.Reply) : auditWritten q r = none := by
  unfold auditWritten
  split
  · cases h
  · rfl

/-- A call that changes nothing and audits nothing keeps a quiet phase quiet. -/
theorem AuditPhase.Quiet.next (hφ : φ.Quiet) (hm : q.mutates = false) (ha : q.audits = false)
    (r : q.Reply) : (φ.next q r).Quiet := by
  unfold AuditPhase.next
  split
  · split
    · cases hφ
    · split <;> trivial
  · cases ha
  · rw [changed_eq_none hm]
    cases φ <;> exact hφ

theorem AuditPhase.Quiet.allows (hφ : φ.Quiet) (hm : q.mutates = false) (ha : q.audits = false) :
    φ.Allows q := by
  cases φ with
  | idle => exact ⟨hm, ha⟩
  | authorised _ _ => exact ha
  | changed _ _ _ => cases hφ
  | identified _ _ => cases hφ
  | audited => cases hφ

theorem AuditPhase.Quiet.done {α : Type} (hφ : φ.Quiet) (o : Except Exception α) : φ.Done o := by
  cases φ with
  | idle => trivial
  | authorised _ _ => trivial
  | changed _ _ _ => cases hφ
  | identified _ _ => cases hφ
  | audited => cases hφ

/-- A program that changes nothing and audits nothing may run in any quiet phase. -/
theorem follows_quiet {α : Type} {A : Protocol Backend Unit} {Q : Unit → Except Exception α → Prop}
    {p : Call α} (hp : A.Follows Q () p)
    (hA : ∀ q, A.allowed () q → q.mutates = false ∧ q.audits = false)
    (hadmits : ∀ q r, A.admits () q r) (hφ : φ.Quiet) :
    auditProtocol.Follows (fun φ o => φ.Quiet ∧ Q () o) φ p := by
  refine (hp.simulate (R := fun _ φ => φ.Quiet) ?_ hφ).mono fun φ o h => ?_
  · intro _ φ q hφ hq
    obtain ⟨hm, ha⟩ := hA q hq
    exact ⟨hφ.allows hm ha, fun r _ => ⟨hadmits q r, hφ.next hm ha r⟩⟩
  · obtain ⟨_, hφ, hQ⟩ := h
    exact ⟨hφ, hQ⟩

theorem AccountRequest.quiet (h : AccountRequest q) : q.mutates = false ∧ q.audits = false := by
  match q with
  | .randomToken | .passwordHash _ => exact ⟨rfl, rfl⟩
  | .executeLocked _ _ | .judge _ => exact ⟨rfl, rfl⟩
  | .execute s => cases s <;> first | exact ⟨rfl, rfl⟩ | exact h.elim

theorem Visitor.Asks.quiet {P : Platform} {v : Visitor} (h : v.Asks P q) :
    q.mutates = false ∧ q.audits = false := by
  match q with
  | .randomToken | .passwordHash _ | .executeLocked _ _ | .judge _ => exact ⟨rfl, rfl⟩
  | .execute s => cases s <;> first | exact ⟨rfl, rfl⟩ | exact h.elim

end quiet

/-! ## The handlers -/

section handlers
variable {server : Server} {request : HttpRequest} {φ : AuditPhase}

/-- The digest a request's session is looked up by. -/
def sessionHash (server : Server) (request : HttpRequest) : String :=
  text (pgTokenHash server.P request.cookie)

/-- `require_admin` lets a request through only once an administrator's session was found. -/
theorem requireAdmin_follows : auditProtocol.Follows
    (fun φ o => φ.Quiet ∧ (o = .ok none → request.cookie ≠ "" ∧
      ∃ admin, φ = .authorised (sessionHash server request) admin)) .idle
    (Handlers.requireAdmin server request) := by
  have hlookup : auditProtocol.Follows (fun φ o => φ.Quiet ∧ ∀ user, o = .ok (.ok user) →
      user.isAdmin = true → request.cookie ≠ "" ∧
        ∃ admin, φ = .authorised (sessionHash server request) admin) .idle
      (currentUser server.P request.cookie) := by
    unfold currentUser
    simp only []
    split
    · refine ⟨trivial, fun user h => ?_⟩
      cases h
    · rename_i htoken
      refine ⟨⟨rfl, rfl⟩, fun result _ => ?_⟩
      match result with
      | .tuples [row] =>
          refine ⟨?_, fun user h hadmin => ⟨by simpa using htoken, row.id, ?_⟩⟩
          · show (if row.isAdmin then AuditPhase.authorised _ row.id else .idle).Quiet
            split <;> trivial
          · cases h
            exact if_pos hadmin
      | .tuples [] | .tuples (_ :: _ :: _) | .none | .failed _ _ | .command =>
          refine ⟨trivial, fun user h => ?_⟩
          cases h
  refine hlookup.bind (fun φ result h => ?_) fun φ e h => ⟨h.1, fun he => (by cases he)⟩
  match result with
  | .ok user =>
      dsimp only
      split
      · rename_i hadmin
        exact ⟨h.1, fun _ => h.2 user rfl hadmin⟩
      · exact ⟨h.1, fun he => (by cases he)⟩
  | .error error =>
      dsimp only
      split <;> exact ⟨h.1, fun he => (by cases he)⟩

/-- Behind `require_admin`, a handler starts with its administrator authorised. -/
theorem asAdmin_follows {handler : Call HttpResponse} (h : request.cookie ≠ "" → ∀ admin,
    auditProtocol.Follows AuditPhase.Done (.authorised (sessionHash server request) admin) handler) :
    auditProtocol.Follows AuditPhase.Done .idle (Handlers.asAdmin server request handler) := by
  refine requireAdmin_follows.bind (fun φ response hφ => ?_) fun φ e hφ => hφ.1.done _
  cases response with
  | none =>
      obtain ⟨htoken, admin, rfl⟩ := hφ.2 rfl
      exact h htoken admin
  | some response => exact hφ.1.done _

/-- What a request asks that neither changes nor audits anything. -/
def quietProtocol : Protocol Backend Unit := .only fun q => q.mutates = false ∧ q.audits = false

/-- A handler that changes nothing, behind `require_admin`. -/
theorem asAdmin_quiet {handler : Call HttpResponse} (h : quietProtocol.Follows Ends () handler) :
    auditProtocol.Follows AuditPhase.Done .idle (Handlers.asAdmin server request handler) := by
  refine asAdmin_follows fun _ admin => ?_
  have hquiet : (AuditPhase.authorised (sessionHash server request) admin).Quiet := trivial
  exact (follows_quiet h (fun _ hq => hq) (fun _ _ => trivial) hquiet).mono
    fun φ o hφ => hφ.1.done o

/-- What a visitor's route asks is quiet. -/
theorem quiet_anyone {α : Type} (P : Platform) (request : HttpRequest) (tests : Bool) {p : Call α}
    (hp : ((anyone request tests).protocol P).Follows Ends () p) :
    quietProtocol.Follows Ends () p := by
  refine (hp.simulate (R := fun _ _ => True) ?_ trivial).mono fun _ _ _ => trivial
  intro _ _ q _ hq
  exact ⟨Visitor.Asks.quiet hq, fun r _ => ⟨told_anyone request tests q r, trivial⟩⟩

/-- The end of a handler that has changed something. -/
theorem audited_follows {admin : Int} {change : Change} {action entityType entityId : String}
    (htoken : request.cookie ≠ "") (haction : text action = change.action.name)
    (htype : text entityType = change.action.entityType) (hid : text entityId = change.entityId)
    (response : HttpResponse) :
    auditProtocol.Follows AuditPhase.Done (.changed (sessionHash server request) admin change)
      (Handlers.audited server request action entityType entityId response) := by
  unfold Handlers.audited Handlers.authenticatedAdminId currentUser
  have htoken' : (request.cookie == "") = false := by simpa using htoken
  rw [htoken']
  refine ⟨rfl, fun result hadmits => ?_⟩
  match result with
  | .tuples [row] =>
      have hrow : row.id = admin := hadmits
      refine ⟨?_, fun written hwritten => ?_⟩
      · show BackendRequest.execute (.insertAudit row.id (text action) (text entityType)
          (text entityId) (.object [])) = _
        rw [haction, htype, hid]
      · match written with
        | .command => rfl
        | .none | .failed _ _ | .tuples _ => exact hwritten.elim
  | .tuples [] | .tuples (_ :: _ :: _) | .none | .failed _ _ | .command => exact hadmits.elim

theorem text_actionName (action : AdminAction) :
    text action.name = action.name ∧ text action.entityType = action.entityType := by
  cases action <;> decide

/-- The entity of a hidden test is written out in full if the problem's id is. -/
theorem text_testEntity {problemId : String} (h : '\x00' ∉ problemId.toList) (testId : Int) :
    text (testEntity problemId testId) = testEntity (text problemId) testId := by
  have hproblem : text problemId = problemId := cStr_of_not_mem h
  rw [hproblem]
  refine cStr_of_not_mem ?_
  unfold testEntity
  rw [String.toList_append, String.toList_append, List.mem_append, List.mem_append]
  rintro ((hmem | hmem) | hmem)
  · exact h hmem
  · exact absurd hmem (by decide)
  · exact nul_not_mem_toString testId hmem

/-- A write that returned a value has changed something, and one that returned an error has not. -/
def Wrote {α : Type} (tokenHash : String) (admin : Int) (change : α → Change) (φ : AuditPhase)
    (o : Except Exception (Except ProblemRepositoryError α)) : Prop :=
  ∃ result, o = .ok result ∧
    match result with
    | .error _ => φ.Quiet
    | .ok x => φ = .changed tokenHash admin (change x)

/-- A removal that returned `true` has changed something, and no other has. -/
def Removed (tokenHash : String) (admin : Int) (change : Change) (φ : AuditPhase)
    (o : Except Exception (Except ProblemRepositoryError Bool)) : Prop :=
  ∃ result, o = .ok result ∧
    match result with
    | .ok true => φ = .changed tokenHash admin change
    | _ => φ.Quiet

section writes
variable {hash : String} {admin : Int}

open PostgreSQLProblemRepository

theorem createProblem_follows (problem : Problem) : auditProtocol.Follows
    (Wrote hash admin fun x => ⟨.createProblem, text x.id⟩) (.authorised hash admin)
    (create problem) := by
  refine ⟨rfl, fun result _ => ?_⟩
  match result with
  | .tuples [row] => exact ⟨_, rfl, rfl⟩
  | .tuples [] | .tuples (_ :: _ :: _) | .none | .failed _ _ | .command => exact ⟨_, rfl, trivial⟩

theorem updateProblem_follows (problem : Problem) : auditProtocol.Follows
    (Wrote hash admin fun x => ⟨.updateProblem, text x.id⟩) (.authorised hash admin)
    (update problem) := by
  refine ⟨rfl, fun result _ => ?_⟩
  match result with
  | .tuples (row :: _) => exact ⟨_, rfl, rfl⟩
  | .tuples [] | .none | .failed _ _ | .command => exact ⟨_, rfl, trivial⟩

theorem createTest_follows (problemId : String) (test : ProblemTestCase) : auditProtocol.Follows
    (Wrote hash admin fun x => ⟨.createTest, testEntity (text problemId) x.id⟩)
    (.authorised hash admin) (createTest problemId test) := by
  refine ⟨rfl, fun result _ => ?_⟩
  match result with
  | .tuples [row] => exact ⟨_, rfl, rfl⟩
  | .tuples [] | .tuples (_ :: _ :: _) | .none | .failed _ _ | .command => exact ⟨_, rfl, trivial⟩

theorem updateTest_follows (problemId : String) (test : ProblemTestCase) : auditProtocol.Follows
    (Wrote hash admin fun x => ⟨.updateTest, testEntity (text problemId) x.id⟩)
    (.authorised hash admin) (updateTest problemId test) := by
  refine ⟨rfl, fun result _ => ?_⟩
  match result with
  | .tuples (row :: _) => exact ⟨_, rfl, rfl⟩
  | .tuples [] | .none | .failed _ _ | .command => exact ⟨_, rfl, trivial⟩

theorem removeProblem_follows (id : String) : auditProtocol.Follows
    (Removed hash admin ⟨.deleteProblem, text id⟩) (.authorised hash admin) (remove id) := by
  refine ⟨rfl, fun result _ => ?_⟩
  match result with
  | .tuples (row :: _) => exact ⟨_, rfl, rfl⟩
  | .tuples [] | .none | .failed _ _ | .command => exact ⟨_, rfl, trivial⟩

theorem removeTest_follows (problemId : String) (testId : Int) : auditProtocol.Follows
    (Removed hash admin ⟨.deleteTest, testEntity (text problemId) testId⟩) (.authorised hash admin)
    (removeTest problemId testId) := by
  refine ⟨rfl, fun result _ => ?_⟩
  match result with
  | .tuples (row :: _) => exact ⟨_, rfl, rfl⟩
  | .tuples [] | .none | .failed _ _ | .command => exact ⟨_, rfl, trivial⟩

/-- A handler that writes and goes on with what was written. -/
theorem Wrote.bind {α : Type} {change : α → Change}
    {write : Call (Except ProblemRepositoryError α)}
    {rest : Except ProblemRepositoryError α → Call HttpResponse}
    (hwrite : auditProtocol.Follows (Wrote hash admin change) (.authorised hash admin) write)
    (herror : ∀ φ error, φ.Quiet → auditProtocol.Follows AuditPhase.Done φ (rest (.error error)))
    (hok : ∀ x, auditProtocol.Follows AuditPhase.Done (.changed hash admin (change x))
      (rest (.ok x))) :
    auditProtocol.Follows AuditPhase.Done (.authorised hash admin) (write >>= rest) := by
  refine Protocol.Follows.bind hwrite (fun φ result hφ => ?_) fun φ e hφ => ?_
  · obtain ⟨result, ho, hφ⟩ := hφ
    cases ho
    cases result with
    | error error => exact herror φ error hφ
    | ok x =>
        dsimp only at hφ
        rw [hφ]
        exact hok x
  · obtain ⟨_, ho, -⟩ := hφ
    cases ho

theorem Removed.bind {change : Change} {remove : Call (Except ProblemRepositoryError Bool)}
    {rest : Except ProblemRepositoryError Bool → Call HttpResponse}
    (hremove : auditProtocol.Follows (Removed hash admin change) (.authorised hash admin) remove)
    (hquiet : ∀ φ result, φ.Quiet → result ≠ .ok true →
      auditProtocol.Follows AuditPhase.Done φ (rest result))
    (hok : auditProtocol.Follows AuditPhase.Done (.changed hash admin change) (rest (.ok true))) :
    auditProtocol.Follows AuditPhase.Done (.authorised hash admin) (remove >>= rest) := by
  refine Protocol.Follows.bind hremove (fun φ result hφ => ?_) fun φ e hφ => ?_
  · obtain ⟨result, ho, hφ⟩ := hφ
    cases ho
    match result with
    | .ok true =>
        dsimp only at hφ
        rw [hφ]
        exact hok
    | .ok false => exact hquiet φ _ hφ (by decide)
    | .error error => exact hquiet φ _ hφ (fun h => (by cases h))
  · obtain ⟨_, ho, -⟩ := hφ
    cases ho

/-- Reading the body changes nothing. -/
theorem checked_bind {α : Type} (check : Check α) {rest : Except String α → Call HttpResponse}
    (h : ∀ parsed, auditProtocol.Follows AuditPhase.Done (.authorised hash admin) (rest parsed)) :
    auditProtocol.Follows AuditPhase.Done (.authorised hash admin) (checked check >>= rest) := by
  refine (checked_follows (Q := fun φ _ => φ = .authorised hash admin) check fun _ => rfl).bind
    (fun φ parsed hφ => ?_) fun φ e hφ => ?_
  · rw [hφ]
    exact h parsed
  · rw [hφ]
    trivial

end writes

theorem adminWriteProblem_follows (id : Option String) :
    auditProtocol.Follows AuditPhase.Done .idle
      (Handlers.adminWriteProblem server id request) := by
  refine asAdmin_follows fun htoken admin => ?_
  split
  · trivial
  · refine checked_bind _ fun parsed => ?_
    cases parsed with
    | error message => trivial
    | ok problem =>
        cases id with
        | none =>
            refine Wrote.bind (createProblem_follows problem) (fun _ _ hφ => hφ.done _) fun x => ?_
            have haction := text_actionName .createProblem
            exact audited_follows htoken haction.1 haction.2 rfl _
        | some id =>
            refine Wrote.bind (updateProblem_follows problem) (fun _ _ hφ => hφ.done _) fun x => ?_
            have haction := text_actionName .updateProblem
            exact audited_follows htoken haction.1 haction.2 rfl _

theorem adminDeleteProblem_follows (id : String) :
    auditProtocol.Follows AuditPhase.Done .idle
      (Handlers.adminDeleteProblem server id request) := by
  refine asAdmin_follows fun htoken admin => ?_
  refine Removed.bind (removeProblem_follows id) (fun φ result hφ hne => ?_) ?_
  · match result with
    | .error _ | .ok false => exact hφ.done _
    | .ok true => exact absurd rfl hne
  · have haction := text_actionName .deleteProblem
    exact audited_follows htoken haction.1 haction.2 rfl _

theorem adminWriteTest_follows {problemId : String} (hnul : '\x00' ∉ problemId.toList)
    (rawTestId : Option String) :
    auditProtocol.Follows AuditPhase.Done .idle
      (Handlers.adminWriteTest server problemId rawTestId request) := by
  refine asAdmin_follows fun htoken admin => ?_
  split
  · trivial
  · split
    · trivial
    · refine checked_bind _ fun parsed => ?_
      cases parsed with
      | error message => trivial
      | ok test =>
          cases rawTestId with
          | none =>
              refine Wrote.bind (createTest_follows problemId test) (fun _ _ hφ => hφ.done _)
                fun x => ?_
              have haction := text_actionName .createTest
              exact audited_follows htoken haction.1 haction.2 (text_testEntity hnul _) _
          | some rawTestId =>
              refine Wrote.bind (updateTest_follows problemId test) (fun _ _ hφ => hφ.done _)
                fun x => ?_
              have haction := text_actionName .updateTest
              exact audited_follows htoken haction.1 haction.2 (text_testEntity hnul _) _

theorem adminDeleteTest_follows {problemId : String} (hnul : '\x00' ∉ problemId.toList)
    (rawTestId : String) :
    auditProtocol.Follows AuditPhase.Done .idle
      (Handlers.adminDeleteTest server problemId rawTestId request) := by
  refine asAdmin_follows fun htoken admin => ?_
  split
  · trivial
  · refine Removed.bind (removeTest_follows problemId _) (fun φ result hφ hne => ?_) ?_
    · match result with
      | .error _ | .ok false => exact hφ.done _
      | .ok true => exact absurd rfl hne
    · have haction := text_actionName .deleteTest
      exact audited_follows htoken haction.1 haction.2 (text_testEntity hnul _) _

/-! ### Administrators' handlers that only read, and retries -/

theorem adminListProblems_follows : auditProtocol.Follows AuditPhase.Done .idle
    (Handlers.adminListProblems server request) := by
  refine asAdmin_quiet ?_
  have hlist : quietProtocol.Follows Ends () PostgreSQLProblemRepository.listAll :=
    quiet_anyone server.P request false (listProblems_service_follows false)
  refine hlist.bind (fun _ result _ => ?_) fun _ _ h => h
  cases result <;> trivial

theorem adminGetProblem_follows (id : String) : auditProtocol.Follows AuditPhase.Done .idle
    (Handlers.adminGetProblem server id request) := by
  refine asAdmin_quiet ?_
  have hfind : quietProtocol.Follows Ends () (PostgreSQLProblemRepository.findAny id) :=
    quiet_anyone server.P request true (findProblem_follows id false fun _ => rfl)
  refine hfind.bind (fun _ result _ => ?_) fun _ _ h => h
  match result with
  | .error _ | .ok none | .ok (some _) => trivial

theorem adminGetSubmission_follows (rawId : String) : auditProtocol.Follows AuditPhase.Done .idle
    (Handlers.adminGetSubmission server rawId request) := by
  refine asAdmin_quiet ?_
  split
  · trivial
  · have hfind : ∀ id, quietProtocol.Follows Ends () (PostgreSQLSubmissionRepository.find server.P id) := by
      intro id
      refine ⟨⟨rfl, rfl⟩, fun result _ => ?_⟩
      cases result <;> trivial
    refine (hfind _).bind (fun _ result _ => ?_) fun _ _ h => h
    match result with
    | .error _ | .ok none | .ok (some _) => trivial

theorem adminListSubmissions_follows : auditProtocol.Follows AuditPhase.Done .idle
    (Handlers.adminListSubmissions server request) := by
  refine asAdmin_quiet ?_
  split
  · trivial
  · have hlist : ∀ filter, quietProtocol.Follows Ends ()
        (PostgreSQLSubmissionRepository.listFiltered server.P filter) :=
      fun _ => ⟨⟨rfl, rfl⟩, fun _ _ => trivial⟩
    refine (hlist _).bind (fun _ result _ => ?_) fun _ _ h => h
    cases result <;> trivial

theorem adminRetrySubmission_follows (rawId : String) : auditProtocol.Follows AuditPhase.Done .idle
    (Handlers.adminRetrySubmission server rawId request) := by
  refine asAdmin_quiet ?_
  split
  · trivial
  · have hadmin : quietProtocol.Follows Ends () (Handlers.authenticatedAdminId server request) := by
      have hlookup := quiet_anyone server.P request false
        ((currentUser_service_follows server.P (anyone request)).mono fun _ _ _ => trivial)
      refine hlookup.bind (fun _ result _ => ?_) fun _ _ h => h
      cases result <;> trivial
    have hretry : ∀ id admin, quietProtocol.Follows Ends ()
        (PostgreSQLSubmissionRepository.retry server.P server.limits id admin) := by
      intro id admin
      refine ⟨⟨rfl, rfl⟩, fun result _ => ?_⟩
      match result with
      | .tuples [_] | .tuples [] | .tuples (_ :: _ :: _) => trivial
      | .none | .failed _ _ | .command => trivial
    refine hadmin.bind (fun _ admin _ => ?_) fun _ _ h => h
    refine (hretry _ admin).bind (fun _ result _ => ?_) fun _ _ h => h
    cases result <;> trivial

end handlers

/-- The path parameter that an audit row of a hidden test starts with contains no U+0000. -/
def Route.NulFree : Route → Prop
  | .adminCreateTest problemId | .adminUpdateTest problemId _ | .adminDeleteTest problemId _ =>
      '\x00' ∉ problemId.toList
  | _ => True

/-- **Every request keeps the order** of changing, looking up and auditing. -/
theorem dispatch_follows (server : Server) {route : Route} (request : HttpRequest)
    (hroute : route.NulFree) :
    auditProtocol.Follows AuditPhase.Done .idle (dispatch server route request) := by
  have hquiet : ∀ {p : Call HttpResponse}, quietProtocol.Follows Ends () p →
      auditProtocol.Follows AuditPhase.Done .idle p := by
    intro p hp
    have hidle : AuditPhase.idle.Quiet := trivial
    exact (follows_quiet hp (fun _ hq => hq) (fun _ _ => trivial) hidle).mono
      fun φ o hφ => hφ.1.done o
  cases hg : route.group with
  | account =>
      refine hquiet ?_
      refine ((dispatch_account hg).simulate (R := fun _ _ => True) ?_ trivial).mono
        fun _ _ _ => trivial
      exact fun _ _ _ _ hq => ⟨AccountRequest.quiet hq, fun _ _ => ⟨trivial, trivial⟩⟩
  | visitor =>
      exact hquiet (quiet_anyone server.P request true (dispatch_visitor hg rfl fun _ => rfl))
  | lookup =>
      refine hquiet ?_
      refine ((dispatch_lookup hg).simulate (R := fun _ _ => True) ?_ trivial).mono
        fun _ _ _ => trivial
      rintro _ _ q _ ⟨id, rfl⟩
      exact ⟨⟨rfl, rfl⟩, fun _ _ => ⟨trivial, trivial⟩⟩
  | admin =>
      cases route with
      | adminListProblems => exact adminListProblems_follows
      | adminCreateProblem => exact adminWriteProblem_follows none
      | adminGetProblem id => exact adminGetProblem_follows id
      | adminUpdateProblem id => exact adminWriteProblem_follows (some id)
      | adminDeleteProblem id => exact adminDeleteProblem_follows id
      | adminCreateTest problemId => exact adminWriteTest_follows hroute none
      | adminUpdateTest problemId rawTestId => exact adminWriteTest_follows hroute (some rawTestId)
      | adminDeleteTest problemId rawTestId => exact adminDeleteTest_follows hroute rawTestId
      | adminListSubmissions => exact adminListSubmissions_follows
      | adminGetSubmission rawId => exact adminGetSubmission_follows rawId
      | adminRetrySubmission rawId => exact adminRetrySubmission_follows rawId
      | _ => cases hg

end AlgorithmTrainer
