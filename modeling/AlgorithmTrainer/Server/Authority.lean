import AlgorithmTrainer.Lib.Handling
import AlgorithmTrainer.Server.Calls

/-!
# `Server.Authority` — what a request has to have shown before it may ask

A handler learns who sent its request from the answers it gets: the users whose live session the token names,
and the users whose name and password the body gives. `Standing` is what it has learnt so far, and `authority`
the discipline that every handler keeps: it changes problems, reads all submissions or retries one only after
it has found an administrator's session, acts for no user but those it has found, and opens a session only
for a user whom it registered or whose password it was given.

`dispatch_authorised` says that every route keeps it, whatever the database answers.
-/

namespace AlgorithmTrainer

open Interaction Interaction.Protocol PostgreSQLAuthService

/-- What a request has shown about who sent it. -/
structure Standing where
  /-- The users whose session its token was found to be. -/
  users : List UserRow := []
  /-- The users who were found by a name, each with the name. -/
  named : List (String × UserRow) := []
  /-- The users who were registered for it. -/
  registered : List Int := []

namespace Standing

def IsUser (st : Standing) (id : Int) : Prop := ∃ row ∈ st.users, row.id = id

def IsAdmin (st : Standing) : Prop := ∃ row ∈ st.users, row.isAdmin = true

def next (st : Standing) : (q : BackendRequest) → q.Reply → Standing
  | .execute (.selectSessionUser _), .tuples [row] => { st with users := row :: st.users }
  | .execute (.selectUserByName name), .tuples [row] => { st with named := (name, row) :: st.named }
  | .execute (.insertUser ..), .tuples (row :: _) => { st with registered := row.id :: st.registered }
  | _, _ => st

end Standing

/-- The name and the password in the body of a request. -/
def Presents (request : HttpRequest) (username password : String) : Prop :=
  ∃ json message, request.json = some json ∧
    (Handlers.credentials message json).run = .ok (.ok (username, password))

/-- A session may be opened for the user: one who was registered, or was found by the name in the body and has
    the password there. -/
def Standing.Proves (P : Platform) (request : HttpRequest) (st : Standing) (id : Int) : Prop :=
  id ∈ st.registered ∨ ∃ row username password, (text username, row) ∈ st.named ∧ row.id = id ∧
    Presents request username password ∧ P.verifyPassword (cStr row.passwordHash) password = true

/-- What a handler may ask. -/
def Standing.May (P : Platform) (request : HttpRequest) (st : Standing) : BackendRequest → Prop
  | .execute (.selectSessionUser hash) =>
      request.cookie ≠ "" ∧ hash = text (pgTokenHash P request.cookie)
  | .execute (.insertSession userId _ _) => st.Proves P request userId
  | .execute (.insertUser ..) | .execute (.selectUserByName _) | .execute (.deleteSession _)
  | .randomToken | .passwordHash _ => True
  | .execute (.countActive _) | .execute (.selectProblems _) | .execute (.selectProblem ..)
  | .execute (.selectTests ..) | .execute (.selectSubmission _) => True
  | .execute (.selectHistory userId _) | .execute (.selectActivity userId)
  | .execute (.selectStreak userId) | .execute (.selectCompletedProblems userId) => st.IsUser userId
  | .execute (.selectFiltered _) => st.IsAdmin
  | .execute (.insertProblem _) | .execute (.updateProblem ..) | .execute (.deleteProblem _)
  | .execute (.insertTest ..) | .execute (.updateTest ..) | .execute (.deleteTest ..) => st.IsAdmin
  | .execute (.insertAudit admin _ _ _ _) => st.IsAdmin ∧ st.IsUser admin
  | .executeLocked _ (.insertSubmission _ _ _ userId _ _) => ∀ id, userId = some id → st.IsUser id
  | .executeLocked _ (.retrySubmission _ _ _ admin) => st.IsAdmin ∧ st.IsUser admin
  | _ => False

def authority (P : Platform) (request : HttpRequest) : Protocol Backend Standing where
  allowed := Standing.May P request
  admits _ _ _ := True
  next := Standing.next

section standing
variable {P : Platform} {request : HttpRequest} {st : Standing} {q : BackendRequest}

/-- What was shown stays shown. -/
theorem Standing.users_next {row : UserRow} (h : row ∈ st.users) (r : q.Reply) :
    row ∈ (st.next q r).users := by
  unfold Standing.next
  split
  · exact List.mem_cons_of_mem _ h
  · exact h
  · exact h
  · exact h

theorem Standing.IsAdmin.next (h : st.IsAdmin) (r : q.Reply) : (st.next q r).IsAdmin := by
  obtain ⟨row, hrow, hadmin⟩ := h
  exact ⟨row, users_next hrow r, hadmin⟩

/-- How a handler behind `require_admin` may go on. -/
def StaysAdmin {α : Type} (st : Standing) (_ : Except Exception α) : Prop := st.IsAdmin

/-- What an administrator's handler asks besides its session and the audit row. -/
def AdminAsks : BackendRequest → Prop
  | .execute (.selectFiltered _) | .execute (.selectSubmission _) | .execute (.insertProblem _)
  | .execute (.updateProblem ..) | .execute (.deleteProblem _) | .execute (.insertTest ..)
  | .execute (.updateTest ..) | .execute (.deleteTest ..) => True
  | _ => False

theorem AdminAsks.may (h : AdminAsks q) (hst : st.IsAdmin) : st.May P request q := by
  match q with
  | .execute s => cases s <;> first | exact hst | trivial
  | .executeLocked _ _ | .randomToken | .passwordHash _ | .judge _ => cases h

/-- A program that asks only that goes on as an administrator's. -/
theorem follows_admin {α : Type} {p : Call α} (hp : (Protocol.only AdminAsks).Follows Ends () p)
    (hst : st.IsAdmin) : (authority P request).Follows StaysAdmin st p := by
  refine (hp.simulate (R := fun _ st => st.IsAdmin) ?_ hst).mono fun st _ h => ?_
  · exact fun _ st q hst hq => ⟨hq.may hst, fun r _ => ⟨trivial, hst.next r⟩⟩
  · obtain ⟨_, hst, -⟩ := h
    exact hst

/-- **A visitor's route** keeps the discipline, since it keeps the visitor's for whoever the session may be
    of. The set of those users grows with each session that is found. -/
theorem follows_visitor {α : Type} (tests : Bool) {p : Call α}
    (hp : ∀ own : Int → Prop, (∀ row ∈ st.users, own row.id) →
      ((⟨request.cookie, own, tests⟩ : Visitor).protocol P).Follows Ends () p) :
    (authority P request).Follows AnyOutcome st p := by
  induction p generalizing st with
  | ret a => trivial
  | raise e => trivial
  | call q k ih =>
      have hasks := (hp st.IsUser fun row hrow => ⟨row, hrow, rfl⟩).1
      refine ⟨?_, fun r _ => ih r fun own hown => ?_⟩
      · match q with
        | .execute s => cases s <;> first | exact hasks | trivial
        | .executeLocked _ s => cases s <;> first | exact hasks | exact hasks.elim
        | .randomToken | .passwordHash _ | .judge _ => exact hasks.elim
      · refine (hp own fun row hrow => hown row (Standing.users_next hrow r)).2 r ?_
        -- the user who is found now is among those the route acts for later on
        show Visitor.Told _ q r
        unfold Visitor.Told
        split
        · exact hown _ List.mem_cons_self
        · trivial

end standing

/-! ## Accounts -/

section accounts
variable {P : Platform} {server : Server} {request : HttpRequest} {st : Standing}

theorem newSession_authorised {user : AuthUser} (h : st.Proves P request user.id) :
    (authority P request).Follows AnyOutcome st (newSession P user) := by
  refine ⟨trivial, fun token _ => ⟨h, fun session _ => ?_⟩⟩
  cases session <;> trivial

theorem registerUser_service_authorised (username password : String) :
    (authority P request).Follows AnyOutcome st (registerUser P username password) := by
  unfold registerUser
  split
  · trivial
  · refine ⟨trivial, fun hash _ => ?_⟩
    show (authority P request).Follows AnyOutcome st (ite _ _ _)
    split
    · trivial
    · refine ⟨trivial, fun result _ => ?_⟩
      match result with
      | .tuples [] => trivial
      | .tuples (row :: _) => exact newSession_authorised (Or.inl List.mem_cons_self)
      | .none | .failed _ _ | .command => trivial

theorem login_service_authorised {username password : String} (h : Presents request username password)
    (dummy : String) : (authority P request).Follows AnyOutcome st (login P dummy username password) := by
  unfold login
  simp only []
  split
  · trivial
  · refine ⟨trivial, fun result _ => ?_⟩
    match result with
    | .tuples [row] =>
        dsimp only [Program.bind, Option.elim]
        cases hverified : P.verifyPassword (cStr row.passwordHash) password with
        | true =>
            exact newSession_authorised
              (Or.inr ⟨row, username, password, List.mem_cons_self, rfl, h, hverified⟩)
        | false => trivial
    | .tuples [] | .tuples (_ :: _ :: _) => trivial
    | .none | .failed _ _ | .command => trivial

theorem registerUser_authorised :
    (authority server.P request).Follows AnyOutcome st (Handlers.registerUser server request) := by
  unfold Handlers.registerUser
  split
  · trivial
  · refine (checked_follows (Q := AnyOutcome) _ fun _ => trivial).bind (fun _ parsed _ => ?_)
      fun _ _ _ => trivial
    match parsed with
    | .error _ => trivial
    | .ok (username, password) =>
        exact (registerUser_service_authorised username password).bind
          (fun _ _ _ => trivial) fun _ _ _ => trivial

/-- What the body is read as is what it presents. -/
theorem credentials_follows {json : Json} (hjson : request.json = some json) (message : String) :
    (authority P request).Follows (fun st' o => st' = st ∧ ∀ username password,
        o = .ok (.ok (username, password)) → Presents request username password) st
      (checked (Handlers.credentials message json)) := by
  unfold checked
  split
  · exact ⟨rfl, fun _ _ h => (by cases h)⟩
  · rename_i result hrun
    refine ⟨rfl, fun username password h => ⟨json, message, hjson, ?_⟩⟩
    cases h
    exact hrun

theorem login_authorised :
    (authority server.P request).Follows AnyOutcome st (Handlers.login server request) := by
  unfold Handlers.login
  split
  · trivial
  · rename_i json hjson
    refine (credentials_follows hjson _).bind (fun st' parsed h => ?_) fun _ _ _ => trivial
    match parsed with
    | .error _ => trivial
    | .ok (username, password) =>
        exact (login_service_authorised (h.2 username password rfl) _).bind
          (fun _ _ _ => trivial) fun _ _ _ => trivial

theorem logout_authorised :
    (authority server.P request).Follows AnyOutcome st (Handlers.logout server request) := by
  refine Protocol.Follows.bind (Q := AnyOutcome) ?_ (fun _ result _ => ?_) fun _ _ _ => trivial
  · unfold logout
    split
    · trivial
    · refine ⟨trivial, fun result _ => ?_⟩
      show (authority server.P request).Follows AnyOutcome _ (ite _ _ _)
      split <;> trivial
  · cases result <;> trivial

end accounts

/-! ## Administrators -/

section admins
variable {server : Server} {request : HttpRequest} {st : Standing}

/-- What a session lookup leaves the handler with. -/
theorem currentUser_authorised : (authority server.P request).Follows
    (fun st' o => (∀ row ∈ st.users, row ∈ st'.users) ∧ ∀ user, o = .ok (.ok user) →
      ∃ row ∈ st'.users, user = pgUser server.P row) st
    (currentUser server.P request.cookie) := by
  unfold currentUser
  simp only []
  split
  · exact ⟨fun _ hrow => hrow, fun user h => (by cases h)⟩
  · rename_i htoken
    refine ⟨⟨by simpa using htoken, rfl⟩, fun result _ => ?_⟩
    match result with
    | .tuples [row] =>
        refine ⟨fun _ hrow => List.mem_cons_of_mem _ hrow, fun user h => ?_⟩
        cases h
        exact ⟨row, List.mem_cons_self, rfl⟩
    | .tuples [] | .tuples (_ :: _ :: _) | .none | .failed _ _ | .command =>
        exact ⟨fun _ hrow => hrow, fun user h => (by cases h)⟩

/-- Behind `require_admin` an administrator's session has been found. -/
theorem asAdmin_authorised {handler : Call HttpResponse}
    (h : ∀ st : Standing, st.IsAdmin → (authority server.P request).Follows AnyOutcome st handler) :
    (authority server.P request).Follows AnyOutcome st (Handlers.asAdmin server request handler) := by
  have hrequire : (authority server.P request).Follows (fun st' o => o = .ok none → st'.IsAdmin) st
      (Handlers.requireAdmin server request) := by
    refine currentUser_authorised.bind (fun st' result hst => ?_) fun _ _ _ he => (by cases he)
    match result with
    | .ok user =>
        obtain ⟨row, hrow, rfl⟩ := hst.2 user rfl
        dsimp only
        split
        · rename_i hadmin
          exact fun _ => ⟨row, hrow, hadmin⟩
        · exact fun he => (by cases he)
    | .error error =>
        dsimp only
        split <;> exact fun he => (by cases he)
  refine hrequire.bind (fun st' response hst => ?_) fun _ _ _ => trivial
  cases response with
  | none => exact h st' (hst rfl)
  | some response => trivial

/-- The administrator's id is that of a session that was found. -/
theorem adminId_authorised (hst : st.IsAdmin) : (authority server.P request).Follows
    (fun st' o => ∀ id, o = .ok id → st'.IsAdmin ∧ st'.IsUser id) st
    (Handlers.authenticatedAdminId server request) := by
  refine currentUser_authorised.bind (fun st' result h => ?_) fun _ _ _ id he => (by cases he)
  match result with
  | .ok user =>
      intro id he
      cases he
      obtain ⟨row, hrow, hadmin⟩ := hst
      obtain ⟨row', hrow', rfl⟩ := h.2 user rfl
      exact ⟨⟨row, h.1 row hrow, hadmin⟩, row', hrow', rfl⟩
  | .error error => exact fun id he => (by cases he)

/-- The audit row is written for that id. -/
theorem audited_authorised (hst : st.IsAdmin) (action entityType entityId : String)
    (response : HttpResponse) : (authority server.P request).Follows AnyOutcome st
      (Handlers.audited server request action entityType entityId response) := by
  refine (adminId_authorised hst).bind (fun st' id h => ?_) fun _ _ _ => trivial
  refine ⟨h id rfl, fun result _ => ?_⟩
  cases result <;> trivial

/-- A call of a repository, and what is done with its result. -/
theorem follows_admin_bind {α : Type} {p : Call α} {f : α → Call HttpResponse} (hst : st.IsAdmin)
    (hp : (Protocol.only AdminAsks).Follows Ends () p)
    (hf : ∀ st : Standing, st.IsAdmin → ∀ a,
      (authority server.P request).Follows AnyOutcome st (f a)) :
    (authority server.P request).Follows AnyOutcome st (p >>= f) :=
  (follows_admin hp hst).bind (fun st' a h => hf st' h a) fun _ _ _ => trivial

/-- A check of the body leaves the standing as it is. -/
theorem follows_checked_bind {α : Type} (check : Check α) {f : Except String α → Call HttpResponse}
    (hf : ∀ parsed, (authority server.P request).Follows AnyOutcome st (f parsed)) :
    (authority server.P request).Follows AnyOutcome st (checked check >>= f) :=
  (checked_follows (Q := fun st' _ => st' = st) check fun _ => rfl).bind
    (fun _ parsed h => h ▸ hf parsed) fun _ _ _ => trivial

section writes

theorem createProblem_asks (problem : Problem) : (Protocol.only AdminAsks).Follows Ends ()
    (PostgreSQLProblemRepository.create problem) := by
  refine ⟨trivial, fun result _ => ?_⟩
  match result with
  | .tuples [_] | .tuples [] | .tuples (_ :: _ :: _) | .none | .failed _ _ | .command => trivial

theorem updateProblem_asks (problem : Problem) : (Protocol.only AdminAsks).Follows Ends ()
    (PostgreSQLProblemRepository.update problem) := by
  refine ⟨trivial, fun result _ => ?_⟩
  match result with
  | .tuples [] | .tuples (_ :: _) | .none | .failed _ _ | .command => trivial

theorem removeProblem_asks (id : String) : (Protocol.only AdminAsks).Follows Ends ()
    (PostgreSQLProblemRepository.remove id) := by
  refine ⟨trivial, fun result _ => ?_⟩
  cases result <;> trivial

theorem createTest_asks (problemId : String) (test : ProblemTestCase) :
    (Protocol.only AdminAsks).Follows Ends ()
      (PostgreSQLProblemRepository.createTest problemId test) := by
  refine ⟨trivial, fun result _ => ?_⟩
  match result with
  | .tuples [_] | .tuples [] | .tuples (_ :: _ :: _) | .none | .failed _ _ | .command => trivial

theorem updateTest_asks (problemId : String) (test : ProblemTestCase) :
    (Protocol.only AdminAsks).Follows Ends ()
      (PostgreSQLProblemRepository.updateTest problemId test) := by
  refine ⟨trivial, fun result _ => ?_⟩
  match result with
  | .tuples [] | .tuples (_ :: _) | .none | .failed _ _ | .command => trivial

theorem removeTest_asks (problemId : String) (testId : Int) :
    (Protocol.only AdminAsks).Follows Ends ()
      (PostgreSQLProblemRepository.removeTest problemId testId) := by
  refine ⟨trivial, fun result _ => ?_⟩
  cases result <;> trivial

end writes

theorem adminListProblems_authorised :
    (authority server.P request).Follows AnyOutcome st (Handlers.adminListProblems server request) := by
  refine asAdmin_authorised fun st _ => follows_visitor false fun own _ => ?_
  refine (listProblems_service_follows false).bind (fun _ result _ => ?_) fun _ _ h => h
  cases result <;> trivial

theorem adminGetProblem_authorised (id : String) :
    (authority server.P request).Follows AnyOutcome st (Handlers.adminGetProblem server id request) := by
  refine asAdmin_authorised fun st _ => follows_visitor true fun own _ => ?_
  refine (findProblem_follows id false fun _ => rfl).bind (fun _ result _ => ?_) fun _ _ h => h
  match result with
  | .error _ | .ok none | .ok (some _) => trivial

theorem adminWriteProblem_authorised (id : Option String) :
    (authority server.P request).Follows AnyOutcome st
      (Handlers.adminWriteProblem server id request) := by
  refine asAdmin_authorised fun st hst => ?_
  split
  · trivial
  · refine follows_checked_bind _ fun parsed => ?_
    match parsed with
    | .error message => trivial
    | .ok problem =>
        cases id with
        | none =>
            refine follows_admin_bind hst (createProblem_asks problem) fun st hst result => ?_
            cases result with
            | error error => trivial
            | ok problem => exact audited_authorised hst _ _ _ _
        | some id =>
            refine follows_admin_bind hst (updateProblem_asks problem) fun st hst result => ?_
            cases result with
            | error error => trivial
            | ok problem => exact audited_authorised hst _ _ _ _

theorem adminDeleteProblem_authorised (id : String) :
    (authority server.P request).Follows AnyOutcome st
      (Handlers.adminDeleteProblem server id request) := by
  refine asAdmin_authorised fun st hst => ?_
  refine follows_admin_bind hst (removeProblem_asks id) fun st hst result => ?_
  match result with
  | .error _ | .ok false => trivial
  | .ok true => exact audited_authorised hst _ _ _ _

theorem adminWriteTest_authorised (problemId : String) (rawTestId : Option String) :
    (authority server.P request).Follows AnyOutcome st
      (Handlers.adminWriteTest server problemId rawTestId request) := by
  refine asAdmin_authorised fun st hst => ?_
  split
  · trivial
  · split
    · trivial
    · refine follows_checked_bind _ fun parsed => ?_
      match parsed with
      | .error message => trivial
      | .ok test =>
          cases rawTestId with
          | none =>
              refine follows_admin_bind hst (createTest_asks problemId test) fun st hst result => ?_
              cases result with
              | error error => trivial
              | ok test => exact audited_authorised hst _ _ _ _
          | some rawTestId =>
              refine follows_admin_bind hst (updateTest_asks problemId test) fun st hst result => ?_
              cases result with
              | error error => trivial
              | ok test => exact audited_authorised hst _ _ _ _

theorem adminDeleteTest_authorised (problemId rawTestId : String) :
    (authority server.P request).Follows AnyOutcome st
      (Handlers.adminDeleteTest server problemId rawTestId request) := by
  refine asAdmin_authorised fun st hst => ?_
  split
  · trivial
  · refine follows_admin_bind hst (removeTest_asks problemId _) fun st hst result => ?_
    match result with
    | .error _ | .ok false => trivial
    | .ok true => exact audited_authorised hst _ _ _ _

theorem adminGetSubmission_authorised (rawId : String) :
    (authority server.P request).Follows AnyOutcome st
      (Handlers.adminGetSubmission server rawId request) := by
  refine asAdmin_authorised fun st hst => ?_
  split
  · trivial
  · rename_i id _
    have hfind : (Protocol.only AdminAsks).Follows Ends ()
        (PostgreSQLSubmissionRepository.find server.P id) := by
      refine ⟨trivial, fun result _ => ?_⟩
      cases result <;> trivial
    refine follows_admin_bind hst hfind fun st hst result => ?_
    match result with
    | .error _ | .ok none | .ok (some _) => trivial

theorem adminListSubmissions_authorised :
    (authority server.P request).Follows AnyOutcome st
      (Handlers.adminListSubmissions server request) := by
  refine asAdmin_authorised fun st hst => ?_
  split
  · trivial
  · rename_i filter _
    have hlist : (Protocol.only AdminAsks).Follows Ends ()
        (PostgreSQLSubmissionRepository.listFiltered server.P filter) :=
      ⟨trivial, fun _ _ => trivial⟩
    refine follows_admin_bind hst hlist fun st hst result => ?_
    cases result <;> trivial

theorem adminRetrySubmission_authorised (rawId : String) :
    (authority server.P request).Follows AnyOutcome st
      (Handlers.adminRetrySubmission server rawId request) := by
  refine asAdmin_authorised fun st hst => ?_
  split
  · trivial
  · rename_i id _
    refine (adminId_authorised hst).bind (fun st admin h => ?_) fun _ _ _ => trivial
    have hretry : (authority server.P request).Follows AnyOutcome st
        (PostgreSQLSubmissionRepository.retry server.P server.limits id admin) := by
      refine ⟨h admin rfl, fun result _ => ?_⟩
      match result with
      | .tuples [_] | .tuples [] | .tuples (_ :: _ :: _) | .none | .failed _ _ | .command => trivial
    refine hretry.bind (fun _ result _ => ?_) fun _ _ _ => trivial
    cases result <;> trivial

end admins

/-! ## Routes -/

/-- **Every route** asks only what its request has shown a right to. -/
theorem dispatch_authorised (server : Server) (route : Route) (request : HttpRequest) (st : Standing) :
    (authority server.P request).Follows AnyOutcome st (dispatch server route request) := by
  cases hg : route.group with
  | account =>
      cases route with
      | register => exact registerUser_authorised
      | login => exact login_authorised
      | logout => exact logout_authorised
      | _ => cases hg
  | visitor => exact follows_visitor true fun _ _ => dispatch_visitor hg rfl fun _ => rfl
  | lookup =>
      refine ((dispatch_lookup hg).simulate (R := fun _ _ => True) ?_ trivial).mono
        fun _ _ _ => trivial
      rintro _ _ q _ ⟨id, rfl⟩
      exact ⟨trivial, fun _ _ => ⟨trivial, trivial⟩⟩
  | admin =>
      cases route with
      | adminListProblems => exact adminListProblems_authorised
      | adminCreateProblem => exact adminWriteProblem_authorised none
      | adminGetProblem id => exact adminGetProblem_authorised id
      | adminUpdateProblem id => exact adminWriteProblem_authorised (some id)
      | adminDeleteProblem id => exact adminDeleteProblem_authorised id
      | adminCreateTest problemId => exact adminWriteTest_authorised problemId none
      | adminUpdateTest problemId rawTestId =>
          exact adminWriteTest_authorised problemId (some rawTestId)
      | adminDeleteTest problemId rawTestId => exact adminDeleteTest_authorised problemId rawTestId
      | adminListSubmissions => exact adminListSubmissions_authorised
      | adminGetSubmission rawId => exact adminGetSubmission_authorised rawId
      | adminRetrySubmission rawId => exact adminRetrySubmission_authorised rawId
      | _ => cases hg

end AlgorithmTrainer
