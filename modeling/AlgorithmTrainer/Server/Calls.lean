import AlgorithmTrainer.Server.Admin

/-!
# `Server.Calls` — what each handler asks of the database

One lemma for each handler: every call it makes is among those that its group of routes is entitled to,
whatever the answers are. An account route writes users and sessions and looks no session up; a visitor's
route looks up its own session and reads and writes only on behalf of the user it finds; an
administrator's route asks for nothing but its session until that turns out to be an administrator's.
-/

namespace AlgorithmTrainer

open Interaction

/-! ## The groups of routes -/

/-- What registering, logging in and logging out ask. -/
def AccountRequest : BackendRequest → Prop
  | .execute (.insertUser ..) | .execute (.selectUserByName _) | .execute (.insertSession ..)
  | .execute (.deleteSession _) | .randomToken | .passwordHash _ => True
  | _ => False

def accountProtocol : Protocol Backend Unit := .only AccountRequest

/-- What looking a submission up asks. -/
def lookupProtocol : Protocol Backend Unit := .only fun q => ∃ id, q = .execute (.selectSubmission id)

/-- Someone who sends a request: the token, the users it may stand for, and whether the route reads hidden
    tests. -/
structure Visitor where
  token : String
  own : Int → Prop
  tests : Bool

namespace Visitor

variable (P : Platform) (v : Visitor)

/-- What a visitor's route asks. -/
def Asks : BackendRequest → Prop
  | .execute (.selectSessionUser hash) =>
      v.token ≠ "" ∧ hash = text (PostgreSQLAuthService.pgTokenHash P v.token)
  | .execute (.selectHistory userId _) | .execute (.selectActivity userId)
  | .execute (.selectStreak userId) | .execute (.selectCompletedProblems userId) => v.own userId
  | .execute (.countActive _) | .execute (.selectProblems _) | .execute (.selectProblem ..) => True
  | .execute (.selectTests ..) => v.tests = true
  | .executeLocked _ (.insertSubmission _ _ _ userId _ _) => ∀ id, userId = some id → v.own id
  | _ => False

/-- The session is that of a user the visitor may stand for. -/
def Told : (q : BackendRequest) → q.Reply → Prop
  | .execute (.selectSessionUser _), .tuples [row] => v.own row.id
  | _, _ => True

/-- A visitor's calls: what may be asked, on the assumption that the session is the visitor's. -/
def protocol : Protocol Backend Unit where
  allowed _ := v.Asks P
  admits _ := v.Told
  next _ _ _ := ()

end Visitor

/-- Anyone with the request's token; `tests` says whether the route reads hidden tests. -/
def anyone (request : HttpRequest) (tests : Bool := false) : Visitor :=
  ⟨request.cookie, fun _ => True, tests⟩

theorem told_anyone (request : HttpRequest) (tests : Bool) (q : BackendRequest) (r : q.Reply) :
    (anyone request tests).Told q r := by
  unfold Visitor.Told
  split <;> trivial

/-- What `require_admin` asks, and what it is told where the session is no administrator's. -/
def refusal (P : Platform) (token : String) : Protocol Backend Unit where
  allowed _ q := token ≠ ""
    ∧ q = .execute (.selectSessionUser (text (PostgreSQLAuthService.pgTokenHash P token)))
  admits _
    | .execute (.selectSessionUser _), .tuples [row] => row.isAdmin = false
    | _, _ => True
  next _ _ _ := ()

/-! ## Account routes -/

section accounts
variable {server : Server} {request : HttpRequest}

/-- A response or an exception, no matter which. -/
def Ends {α : Type} (_ : Unit) (_ : Except Exception α) : Prop := True

theorem checked_follows {α : Type} {Φ : Type} {A : Protocol Backend Φ} {φ : Φ}
    {Q : Φ → Except Exception (Except String α) → Prop} (check : Check α)
    (hQ : ∀ o, Q φ o) : A.Follows Q φ (checked check) := by
  unfold checked
  split <;> exact hQ _

theorem newSession_follows (P : Platform) (user : AuthUser) :
    accountProtocol.Follows Ends ()
      (PostgreSQLAuthService.newSession P user) := by
  refine ⟨trivial, fun token _ => ⟨trivial, fun session _ => ?_⟩⟩
  cases session <;> trivial

theorem registerUser_service_follows (P : Platform) (username password : String) :
    accountProtocol.Follows Ends ()
      (PostgreSQLAuthService.registerUser P username password) := by
  unfold PostgreSQLAuthService.registerUser
  split
  · trivial
  · refine ⟨trivial, fun hash _ => ?_⟩
    show accountProtocol.Follows Ends () (ite _ _ _)
    split
    · trivial
    · refine ⟨trivial, fun result _ => ?_⟩
      match result with
      | .tuples [] => trivial
      | .tuples (row :: _) => exact newSession_follows P _
      | .none | .failed _ _ | .command => trivial

theorem login_service_follows (P : Platform) (dummy username password : String) :
    accountProtocol.Follows Ends ()
      (PostgreSQLAuthService.login P dummy username password) := by
  unfold PostgreSQLAuthService.login
  simp only []
  split
  · trivial
  · refine ⟨trivial, fun result _ => ?_⟩
    match result with
    | .tuples rows =>
        dsimp only [Program.bind]
        split
        · exact newSession_follows P _
        · trivial
    | .none | .failed _ _ | .command => trivial

theorem registerUser_follows :
    accountProtocol.Follows Ends () (Handlers.registerUser server request) := by
  unfold Handlers.registerUser
  simp only []
  split
  · trivial
  · refine (checked_follows (Q := Ends) _ fun _ => trivial).bind (fun _ parsed _ => ?_) fun _ _ h => h
    match parsed with
    | .error _ => trivial
    | .ok (username, password) =>
        exact (registerUser_service_follows _ _ _).bind (fun _ _ _ => trivial) fun _ _ h => h

theorem login_follows :
    accountProtocol.Follows Ends () (Handlers.login server request) := by
  unfold Handlers.login
  simp only []
  split
  · trivial
  · refine (checked_follows (Q := Ends) _ fun _ => trivial).bind (fun _ parsed _ => ?_) fun _ _ h => h
    match parsed with
    | .error _ => trivial
    | .ok (username, password) =>
        exact (login_service_follows _ _ _ _).bind (fun _ _ _ => trivial) fun _ _ h => h

theorem logout_follows :
    accountProtocol.Follows Ends () (Handlers.logout server request) := by
  unfold Handlers.logout PostgreSQLAuthService.logout
  split
  · trivial
  · refine ⟨trivial, fun result _ => ?_⟩
    cases result <;> trivial

end accounts

/-! ## Problems -/

section problems
variable {P : Platform} {v : Visitor}

open PostgreSQLProblemRepository in
theorem readProblem_follows (row : ProblemRow) {tests : Tests}
    (h : tests ≠ .none → v.tests = true) :
    (v.protocol P).Follows Ends () (readProblem row tests) := by
  have hread : ∀ onlyEnabled problem, v.tests = true →
      (v.protocol P).Follows Ends () (readTests onlyEnabled problem) := by
    intro onlyEnabled problem hv
    refine ⟨hv, fun result _ => ?_⟩
    cases result <;> trivial
  unfold readProblem
  split
  · trivial
  · trivial
  · cases tests with
    | none => trivial
    | enabled => exact hread _ _ (h (by decide))
    | all => exact hread _ _ (h (by decide))

open PostgreSQLProblemRepository in
theorem findProblem_follows (id : String) (onlyEnabled : Bool) {tests : Tests}
    (h : tests ≠ .none → v.tests = true) :
    (v.protocol P).Follows Ends () (find id onlyEnabled tests) := by
  refine ⟨trivial, fun result _ => ?_⟩
  match result with
  | .tuples [] => trivial
  | .tuples (row :: _) =>
      exact (readProblem_follows row h).bind (fun _ _ _ => trivial) fun _ _ h => h
  | .none | .failed _ _ | .command => trivial

theorem find_follows (id : String) : (v.protocol P).Follows Ends () (ProblemService.find id) :=
  findProblem_follows id true fun h => absurd rfl h

theorem listProblems_service_follows (onlyEnabled : Bool) :
    (v.protocol P).Follows Ends () (PostgreSQLProblemRepository.list onlyEnabled) := by
  refine ⟨trivial, fun result _ => ?_⟩
  cases result with
  | tuples rows =>
      dsimp only [Program.bind]
      split <;> trivial
  | _ => trivial

theorem getProblem_follows (slug : String) :
    (v.protocol P).Follows Ends () (Handlers.getProblem slug) := by
  refine (find_follows slug).bind (fun _ found _ => ?_) fun _ _ h => h
  match found with
  | .error _ | .ok none | .ok (some _) => trivial

theorem listProblems_follows : (v.protocol P).Follows Ends () Handlers.listProblems := by
  refine (listProblems_service_follows true).bind (fun _ problems _ => ?_) fun _ _ h => h
  cases problems <;> trivial

end problems

/-! ## Sessions -/

section sessions
variable {server : Server} {v : Visitor} {request : HttpRequest}

/-- A session that is found is one of a user that the visitor may stand for. -/
theorem currentUser_service_follows (P : Platform) (v : Visitor) :
    (v.protocol P).Follows (fun _ o => ∀ user, o = .ok (.ok user) → v.own user.id) ()
      (PostgreSQLAuthService.currentUser P v.token) := by
  unfold PostgreSQLAuthService.currentUser
  simp only []
  split
  · rintro user ⟨⟩
  · rename_i htoken
    refine ⟨⟨by simpa using htoken, rfl⟩, fun result htold => ?_⟩
    match result with
    | .tuples [row] =>
        rintro user ⟨⟩
        exact htold
    | .tuples [] | .tuples (_ :: _ :: _) | .none | .failed _ _ | .command => rintro user ⟨⟩

theorem authenticated_follows (ht : request.cookie = v.token) :
    (v.protocol server.P).Follows (fun _ o => ∀ user, o = .ok (.ok user) → v.own user.id) ()
      (Handlers.authenticated server request) := by
  unfold Handlers.authenticated
  rw [ht]
  refine (currentUser_service_follows server.P v).bind (fun _ result h => ?_) ?_
  · match result with
    | .ok user =>
        rintro user' ⟨⟩
        exact h user rfl
    | .error error =>
        dsimp only
        split <;> rintro user ⟨⟩
  · rintro _ e _ user ⟨⟩

theorem me_follows (ht : request.cookie = v.token) :
    (v.protocol server.P).Follows Ends () (Handlers.currentUser server request) := by
  refine (authenticated_follows ht).bind (fun _ found _ => ?_) fun _ _ _ => trivial
  cases found <;> trivial

theorem submissionOwner_follows (ht : request.cookie = v.token) :
    (v.protocol server.P).Follows
      (fun _ o => ∀ owner, o = .ok (.ok owner) → ∀ id, owner = some id → v.own id) ()
      (Handlers.submissionOwner server request) := by
  unfold Handlers.submissionOwner
  rw [ht]
  split
  · rintro owner ⟨⟩ id ⟨⟩
  · refine (currentUser_service_follows server.P v).bind (fun _ result h => ?_) ?_
    · match result with
      | .ok user =>
          rintro owner ⟨⟩ id ⟨⟩
          exact h user rfl
      | .error error =>
          dsimp only
          split
          · rintro owner ⟨⟩
          · rintro owner ⟨⟩ id ⟨⟩
    · rintro _ e _ owner ⟨⟩

end sessions

/-! ## Submissions and the profile -/

section submissions
variable {server : Server} {v : Visitor} {request : HttpRequest}

theorem create_follows {submission : SubmissionRequest}
    (h : ∀ id, submission.userId = some id → v.own id) :
    (v.protocol server.P).Follows Ends () (SubmissionService.submit server submission) := by
  refine ⟨h, fun result _ => ?_⟩
  match result with
  | .tuples [_] => trivial
  | .tuples [] | .tuples (_ :: _ :: _) => exact ⟨trivial, fun _ _ => trivial⟩
  | .none | .failed _ _ | .command => trivial

theorem submit_follows (ht : request.cookie = v.token) :
    (v.protocol server.P).Follows Ends () (Handlers.submit server request) := by
  unfold Handlers.submit
  split
  · trivial
  · refine (checked_follows (Q := Ends) _ fun _ => trivial).bind (fun _ parsed _ => ?_) fun _ _ h => h
    cases parsed with
    | error _ => trivial
    | ok submission =>
        refine (find_follows _).bind (fun _ found _ => ?_) fun _ _ h => h
        match found with
        | .error _ | .ok none => trivial
        | .ok (some problem) =>
            dsimp only
            split
            · trivial
            · refine (submissionOwner_follows ht).bind (fun _ owner h => ?_) fun _ _ _ => trivial
              cases owner with
              | error _ => trivial
              | ok owner =>
                  exact (create_follows (h owner rfl)).bind (fun _ _ _ => trivial) fun _ _ h => h

theorem history_follows {userId : Int} (h : v.own userId) {problemId : String} :
    (v.protocol server.P).Follows Ends () (SubmissionService.history server userId problemId) :=
  ⟨h, fun _ _ => trivial⟩

theorem submissionHistory_follows (ht : request.cookie = v.token) (problemId : String) :
    (v.protocol server.P).Follows Ends ()
      (Handlers.submissionHistory server problemId request) := by
  refine (find_follows _).bind (fun _ found _ => ?_) fun _ _ h => h
  match found with
  | .error _ | .ok none => trivial
  | .ok (some _) =>
      refine (authenticated_follows ht).bind (fun _ user h => ?_) fun _ _ _ => trivial
      cases user with
      | error _ => trivial
      | ok user =>
          refine (history_follows (h user rfl)).bind (fun _ records _ => ?_) fun _ _ h => h
          cases records <;> trivial

theorem progress_follows {userId : Int} (h : v.own userId) :
    (v.protocol server.P).Follows Ends () (SubmissionService.progress server userId) := by
  refine Protocol.Follows.bind (Q := Ends) ?_ (fun _ _ _ => trivial) fun _ _ h => h
  refine ⟨h, fun activity _ => ?_⟩
  match activity with
  | .tuples [] | .none | .failed _ _ | .command => trivial
  | .tuples (_ :: _) =>
      refine ⟨h, fun streak _ => ?_⟩
      match streak with
      | .tuples [] | .none | .failed _ _ | .command => trivial
      | .tuples (_ :: _) =>
          refine ⟨h, fun completed _ => ?_⟩
          cases completed <;> trivial

theorem completedItems_follows (hv : v.tests = true) (completed : List CompletedProblem) :
    (v.protocol server.P).Follows Ends () (Handlers.completedItems completed) := by
  induction completed with
  | nil => trivial
  | cons item rest ih =>
      refine (findProblem_follows _ _ fun _ => hv).bind (fun _ _ _ => ?_) fun _ _ h => h
      exact ih.bind (fun _ _ _ => trivial) fun _ _ h => h

theorem profile_follows (ht : request.cookie = v.token) (hv : v.tests = true) :
    (v.protocol server.P).Follows Ends () (Handlers.profile server request) := by
  refine (authenticated_follows ht).bind (fun _ user h => ?_) fun _ _ _ => trivial
  cases user with
  | error _ => trivial
  | ok user =>
      refine (progress_follows (h user rfl)).bind (fun _ progress _ => ?_) fun _ _ h => h
      cases progress with
      | error _ => trivial
      | ok progress =>
          exact (completedItems_follows hv _).bind (fun _ _ _ => trivial) fun _ _ h => h

end submissions

/-! ## Administrators' routes -/

section admins
variable {server : Server} {request : HttpRequest}

/-- The session of someone who is no administrator is none, or not an administrator's. -/
theorem currentUser_refuses (P : Platform) (token : String) : (refusal P token).Follows
    (fun _ o => ∃ result, o = .ok result ∧ ∀ user, result = .ok user → user.isAdmin = false) ()
    (PostgreSQLAuthService.currentUser P token) := by
  unfold PostgreSQLAuthService.currentUser
  simp only []
  split
  · exact ⟨_, rfl, fun user h => (by cases h)⟩
  · rename_i htoken
    refine ⟨⟨by simpa using htoken, rfl⟩, fun result htold => ?_⟩
    match result with
    | .tuples [row] =>
        refine ⟨_, rfl, fun user h => ?_⟩
        cases h
        exact htold
    | .tuples [] | .tuples (_ :: _ :: _) | .none | .failed _ _ | .command =>
        exact ⟨_, rfl, fun user h => (by cases h)⟩

/-- Who is no administrator gets a response from `require_admin`. -/
theorem requireAdmin_refuses : (refusal server.P request.cookie).Follows
    (fun _ o => ∃ response, o = .ok (some response)) ()
    (Handlers.requireAdmin server request) := by
  refine (currentUser_refuses _ _).bind (fun _ result h => ?_) fun _ _ h => ?_
  · obtain ⟨result, ho, h⟩ := h
    cases ho
    cases result with
    | ok user =>
        have hadmin : hasAdminAccess user = false := h user rfl
        dsimp only
        rw [hadmin]
        exact ⟨_, rfl⟩
    | error error =>
        dsimp only
        split <;> exact ⟨_, rfl⟩
  · obtain ⟨_, ho, -⟩ := h
    cases ho

/-- Behind `require_admin`, no handler of an administrator's route asks anything for anyone else. -/
theorem asAdmin_refuses (handler : Call HttpResponse) :
    (refusal server.P request.cookie).Follows Ends ()
      (Handlers.asAdmin server request handler) := by
  refine requireAdmin_refuses.bind (fun _ response h => ?_) fun _ _ _ => trivial
  obtain ⟨_, ho⟩ := h
  cases ho
  trivial

end admins

/-! ## Routes -/

section routes
variable {server : Server} {request : HttpRequest} {route : Route}

theorem dispatch_account (h : route.group = .account) :
    accountProtocol.Follows Ends () (dispatch server route request) := by
  cases route with
  | register => exact registerUser_follows
  | login => exact login_follows
  | logout => exact logout_follows
  | _ => cases h

theorem dispatch_visitor {v : Visitor} (h : route.group = .visitor) (ht : request.cookie = v.token)
    (hv : route = .profile → v.tests = true) :
    (v.protocol server.P).Follows Ends () (dispatch server route request) := by
  cases route with
  | me => exact me_follows ht
  | profile => exact profile_follows ht (hv rfl)
  | listProblems => exact listProblems_follows
  | getProblem slug => exact getProblem_follows slug
  | submissionHistory problemId => exact submissionHistory_follows ht problemId
  | submit => exact submit_follows ht
  | _ => cases h

theorem dispatch_lookup (h : route.group = .lookup) :
    lookupProtocol.Follows Ends () (dispatch server route request) := by
  cases route with
  | getSubmission rawId =>
      show lookupProtocol.Follows Ends () (Handlers.getSubmission server rawId)
      unfold Handlers.getSubmission
      split
      · trivial
      · refine Protocol.Follows.bind (Q := Ends) ⟨⟨_, rfl⟩, fun result _ => ?_⟩
          (fun _ found _ => ?_) fun _ _ h => h
        · cases result <;> trivial
        · match found with
          | .error _ | .ok none | .ok (some _) => trivial
  | _ => cases h

/-- Every administrator's route starts with `require_admin`. -/
theorem dispatch_admin (h : route.group = .admin) :
    ∃ handler, dispatch server route request = Handlers.asAdmin server request handler := by
  cases route with
  | register | login | logout | me | profile | listProblems | submit => cases h
  | getProblem _ | submissionHistory _ | getSubmission _ => cases h
  | _ => exact ⟨_, rfl⟩

theorem dispatch_refuses (h : route.group = .admin) :
    (refusal server.P request.cookie).Follows Ends () (dispatch server route request) := by
  obtain ⟨handler, hd⟩ : ∃ handler, dispatch server route request =
      Handlers.asAdmin server request handler := dispatch_admin h
  rw [hd]
  exact asAdmin_refuses handler

end routes

end AlgorithmTrainer
