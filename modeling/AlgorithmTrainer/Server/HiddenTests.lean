import AlgorithmTrainer.Server.Requests

/-!
# `Server.HiddenTests` — hidden tests stay hidden from everyone but administrators

Two runs of one request on states that differ in `problem_tests` only. Every call but one is answered without
a look at that table (`Unaware`); the exception is the profile, which loads the completed problems as the
judge does and keeps nothing but their titles.
-/

namespace AlgorithmTrainer

open Interaction Interaction.Observation Relational PostgreSQLAuthService

/-- The database with another table of hidden tests. -/
def Database.withTests (db : Database) (tests : Table ProblemTestRow) : Database :=
  { db with problemTests := tests }

/-- The two states agree on everything except the `problem_tests` table. -/
def AgreeOutsideTests (db db' : Database) : Prop :=
  db.withTests .empty = db'.withTests .empty

/-! ## Calls that do not look at the hidden tests -/

/-- The request is no query for hidden tests, and is answered whatever hidden tests there are. -/
def Unaware (P : Platform) (q : BackendRequest) : Prop :=
  (∀ id onlyEnabled, q ≠ .execute (.selectTests id onlyEnabled)) ∧
    ∀ tests, Blind (serve P) (Database.withTests · tests) q

section unaware
variable {P : Platform} {q : BackendRequest}

/-- A statement that is executed alike whatever hidden tests there are. -/
theorem Unaware.statement {s : Statement} (hs : ∀ id onlyEnabled, s ≠ .selectTests id onlyEnabled)
    (hexec : ∀ m db tests, s.exec P m (db.withTests tests)
      = ((s.exec P m db).1.withTests tests, (s.exec P m db).2)) : Unaware P (.execute s) := by
  constructor
  · intro id onlyEnabled h
    exact hs id onlyEnabled (BackendRequest.execute.inj h)
  · exact fun tests => Blind.statement fun m db => hexec m db tests

theorem AccountRequest.unaware (hq : AccountRequest q) : Unaware P q := by
  match q with
  | .randomToken | .passwordHash _ => exact ⟨fun _ _ h => (by cases h), fun _ _ _ => rfl⟩
  | .executeLocked _ _ | .judge _ => exact hq.elim
  | .execute s =>
      cases s with
      | insertUser username hash =>
          refine Unaware.statement (fun _ _ h => (by cases h)) fun m db tests => ?_
          show Statement.exec P m (.insertUser username hash) _ = _
          unfold Statement.exec
          dsimp only [Database.withTests]
          split <;> rfl
      | selectUserByName username =>
          exact Unaware.statement (fun _ _ h => (by cases h)) fun _ _ _ => rfl
      | insertSession userId hash lifetime =>
          refine Unaware.statement (fun _ _ h => (by cases h)) fun m db tests => ?_
          unfold Statement.exec
          dsimp only [Database.withTests]
          split
          · rfl
          · show (if db.hasUser userId then _ else _) = _
            split <;> rfl
      | deleteSession hash =>
          exact Unaware.statement (fun _ _ h => (by cases h)) fun _ _ _ => rfl
      | _ => exact hq.elim

theorem unaware_selectSessionUser (hash : String) :
    Unaware P (.execute (.selectSessionUser hash)) :=
  Unaware.statement (fun _ _ h => (by cases h)) fun _ _ _ => rfl

theorem unaware_selectSubmission (id : Int) : Unaware P (.execute (.selectSubmission id)) :=
  Unaware.statement (fun _ _ h => (by cases h)) fun _ _ _ => rfl

/-- Admission looks at submissions and users only. -/
theorem unaware_insertSubmission (lock : Int) (problemId language code : String)
    (userId : Option Int) (maximum maximumPerUser : Int) :
    Unaware P (.executeLocked lock
      (.insertSubmission problemId language code userId maximum maximumPerUser)) := by
  refine ⟨fun _ _ h => (by cases h), fun tests => Blind.locked (fun l db => ?_) ?_⟩
  · rw [plan_insertSubmission, plan_insertSubmission]
    show (if db.admits userId maximum maximumPerUser then _ else _) = _
    split <;> rfl
  · intro l db changes rows _
    rfl

theorem Visitor.Asks.unaware {v : Visitor} (hv : v.tests = false) (hq : v.Asks P q) :
    Unaware P q := by
  match q with
  | .randomToken | .passwordHash _ | .judge _ => exact hq.elim
  | .executeLocked _ s =>
      cases s with
      | insertSubmission problemId language code userId maximum maximumPerUser =>
          exact unaware_insertSubmission _ _ _ _ _ _ _
      | _ => exact hq.elim
  | .execute s =>
      cases s with
      | selectTests id onlyEnabled => exact absurd (hv.symm.trans hq) (by decide)
      | selectSessionUser _ | selectHistory _ _ | selectActivity _ | selectStreak _
      | selectCompletedProblems _ | countActive _ | selectProblems _ | selectProblem _ _ =>
          exact Unaware.statement (fun _ _ h => (by cases h)) fun _ _ _ => rfl
      | _ => exact hq.elim

/-- What is answered whatever hidden tests there are leaves them as they are. -/
theorem Unaware.tests (hq : Unaware P q) (c : Choice) (db : Database) :
    (serve P q c db).2.problemTests = db.problemTests := by
  have hself : serve P q c db
      = ((serve P q c db).1, (serve P q c db).2.withTests db.problemTests) :=
    hq.2 db.problemTests c db
  exact congrArg (fun x => x.2.problemTests) hself

end unaware

/-! ## Two runs -/

/-- How the replies of two runs are related: a query for hidden tests succeeds in both or in neither, and
    every other reply is the same. -/
def TestReplies : (q : BackendRequest) → q.Reply → q.Reply → Prop
  | .execute (.selectTests ..), r, r' => r.tuplesOk = r'.tuplesOk
  | _, r, r' => r = r'

def testsObservation (P : Platform) : Observation Backend where
  allowed q := Unaware P q ∨ ∃ id onlyEnabled, q = .execute (.selectTests id onlyEnabled)
  replies := TestReplies

/-- The two states agree outside `problem_tests`, where one has the rows `t` and the other the rows `t'`. -/
structure Hiding (t t' : Table ProblemTestRow) (db db' : Database) : Prop where
  agree : AgreeOutsideTests db db'
  left : db.problemTests = t
  right : db'.problemTests = t'

section runs
variable {P : Platform} {q : BackendRequest} {c : Choice} {t t' : Table ProblemTestRow}
  {db db' : Database}

theorem testReplies_eq (hq : ∀ id onlyEnabled, q ≠ .execute (.selectTests id onlyEnabled))
    {r r' : q.Reply} : TestReplies q r r' ↔ r = r' := by
  match q with
  | .executeLocked _ _ | .randomToken | .passwordHash _ | .judge _ => exact Iff.rfl
  | .execute s =>
      cases s with
      | selectTests id onlyEnabled => exact absurd rfl (hq id onlyEnabled)
      | _ => exact Iff.rfl

/-- One call of two runs: related replies, and states that still agree outside `problem_tests`. -/
theorem Hiding.step (h : Hiding t t' db db') (hq : (testsObservation P).allowed q) :
    TestReplies q (serve P q c db).1 (serve P q c db').1 ∧
      Hiding t t' (serve P q c db).2 (serve P q c db').2 := by
  rcases hq with hq | ⟨id, onlyEnabled, rfl⟩
  · obtain ⟨hreply, hstate⟩ := (hq.2 .empty).answer h.agree c
    exact ⟨(testReplies_eq hq.1).mpr hreply, hstate, (hq.tests c db).trans h.left,
      (hq.tests c db').trans h.right⟩
  · rw [serve_execute, serve_execute]
    unfold serveStatement
    split
    · exact ⟨rfl, h⟩
    · exact ⟨rfl, h⟩

/-- A program whose calls do not look at the hidden tests runs alike on both states. -/
theorem indist_of_unaware {α : Type} {A : Protocol Backend Unit} {p : Call α}
    (hp : A.Follows Ends () p) (hA : ∀ q, A.allowed () q → Unaware P q)
    (hadmits : ∀ q r, A.admits () q r) : (testsObservation P).Indist (· = ·) p p := by
  have h : (testsObservation P).Indist (fun o o' => o = o' ∧ Ends () o) p p :=
    Indist.of_follows hp (fun q hq => Or.inl (hA q hq)) fun q r r' hq hr =>
      ⟨(testReplies_eq (hA q hq).1).mp hr, hadmits q r⟩
  exact h.mono fun o o' h => h.1

/-! ## The profile -/

theorem indist_anyone {α : Type} {request : HttpRequest} {p : Call α}
    (hp : ((anyone request).protocol P).Follows Ends () p) :
    (testsObservation P).Indist (· = ·) p p :=
  indist_of_unaware hp (fun _ hq => hq.unaware rfl) fun q r => told_anyone request false q r

/-- The problem that is looked up for the profile has the same title in both runs. -/
theorem findForJudging_indist (completed : CompletedProblem) :
    (testsObservation P).Indist
      (fun o o' => o.map (Handlers.completedItem completed)
        = o'.map (Handlers.completedItem completed))
      (ProblemService.findForJudging completed.problemId)
      (ProblemService.findForJudging completed.problemId) := by
  have hfind : ∀ id onlyEnabled, Unaware P (.execute (.selectProblem id onlyEnabled)) :=
    fun _ _ => Visitor.Asks.unaware (v := anyone {}) rfl trivial
  refine .call (Or.inl (hfind _ _)) fun result result' hr => ?_
  obtain rfl : result = result' := hr
  match result with
  | .tuples [] => exact .ret rfl
  | .none | .failed _ _ | .command => exact .ret rfl
  | .tuples (row :: _) =>
      show (testsObservation P).Indist _
        (PostgreSQLProblemRepository.readProblem row .enabled >>= fun problem =>
          pure (problem.map some))
        (PostgreSQLProblemRepository.readProblem row .enabled >>= fun problem =>
          pure (problem.map some))
      unfold PostgreSQLProblemRepository.readProblem
      split
      · exact .raise rfl
      · exact .ret rfl
      · -- the query for the tests succeeds in both runs or in neither
        refine .call (Or.inr ⟨_, _, rfl⟩) fun tests tests' ht => ?_
        replace ht : tests.tuplesOk = tests'.tuplesOk := ht
        match tests, tests' with
        | .tuples _, .tuples _ => exact .ret rfl
        | .tuples _, .none | .tuples _, .failed _ _ | .tuples _, .command => cases ht
        | .none, .tuples _ | .failed _ _, .tuples _ | .command, .tuples _ => cases ht
        | .none, .none | .none, .failed _ _ | .none, .command => exact .ret rfl
        | .failed _ _, .none | .failed _ _, .failed _ _ | .failed _ _, .command => exact .ret rfl
        | .command, .none | .command, .failed _ _ | .command, .command => exact .ret rfl

theorem completedItems_indist (completed : List CompletedProblem) :
    (testsObservation P).Indist (· = ·) (Handlers.completedItems completed)
      (Handlers.completedItems completed) := by
  induction completed with
  | nil => exact .ret rfl
  | cons item rest ih =>
      refine (findForJudging_indist item).bind (fun found found' hfound => ?_) ?_
      · refine ih.bind (fun items items' hitems => ?_) fun e e' he => he
        obtain rfl : items = items' := Except.ok.inj hitems
        refine .ret ?_
        show Except.ok (_ :: items) = Except.ok (_ :: items)
        rw [Except.ok.inj hfound]
      · intro e e' he
        exact congrArg Except.error (Except.error.inj he)

theorem profile_indist (server : Server) (request : HttpRequest) :
    (testsObservation server.P).Indist (· = ·) (Handlers.profile server request)
      (Handlers.profile server request) := by
  have hauth : ((anyone request).protocol server.P).Follows Ends ()
      (Handlers.authenticated server request) :=
    (authenticated_follows rfl).mono fun _ _ _ => trivial
  have hprogress : ∀ userId, ((anyone request).protocol server.P).Follows Ends ()
      (SubmissionService.progress server userId) := fun _ => progress_follows trivial
  refine (indist_anyone hauth).bind (fun user user' hu => ?_) ?_
  · obtain rfl : user = user' := Except.ok.inj hu
    cases user with
    | error _ => exact .ret rfl
    | ok user =>
        refine (indist_anyone (hprogress user.id)).bind (fun progress progress' hp => ?_) ?_
        · obtain rfl : progress = progress' := Except.ok.inj hp
          cases progress with
          | error _ => exact .ret rfl
          | ok progress =>
              refine (completedItems_indist _).bind (fun items items' hi => ?_) ?_
              · obtain rfl : items = items' := Except.ok.inj hi
                exact .ret rfl
              · intro e e' he
                exact congrArg Except.error (Except.error.inj he)
        · intro e e' he
          exact congrArg Except.error (Except.error.inj he)
  · intro e e' he
    exact congrArg Except.error (Except.error.inj he)

end runs

/-! ## Every route -/

section routes
variable {server : Server} {request : HttpRequest} {route : Route} {db db' : Database}

/-- Outside the administrators' routes, every request runs alike on both states. -/
theorem dispatch_indist (h : route.group ≠ .admin) :
    (testsObservation server.P).Indist (· = ·) (dispatch server route request)
      (dispatch server route request) := by
  cases hg : route.group with
  | account =>
      exact indist_of_unaware (dispatch_account hg) (fun _ hq => AccountRequest.unaware hq)
        fun _ _ => trivial
  | lookup =>
      refine indist_of_unaware (dispatch_lookup hg) ?_ fun _ _ => trivial
      rintro q ⟨id, rfl⟩
      exact unaware_selectSubmission id
  | visitor =>
      by_cases hp : route = .profile
      · subst hp
        exact profile_indist server request
      · exact indist_anyone (dispatch_visitor hg rfl fun h => absurd h hp)
  | admin => exact absurd hg h

/-- Who is no administrator gets the same answer in both states from an administrator's route, and
    leaves both as they are. -/
theorem respond_refused (h : route.group = .admin) (choices : Nat → Choice)
    (hagree : AgreeOutsideTests db db')
    (hreq : ∀ u, requester server.P db request = some u → u.isAdmin = false) :
    (respond server route request choices db).1 = (respond server route request choices db').1 ∧
      (respond server route request choices db).2 = db ∧
      (respond server route request choices db').2 = db' := by
  have hkept : ∀ d : Database,
      (∀ u, requester server.P d request = some u → u.isAdmin = false) →
      (respond server route request choices d).2 = d := by
    intro d hd
    have hserve : ∀ (φ : Unit) q c s, (refusal server.P request.cookie).allowed φ q → s = d →
        (refusal server.P request.cookie).admits φ q (serve server.P q c s).1 ∧
          (serve server.P q c s).2 = d := by
      rintro φ q c s hq rfl
      exact serve_refusal hq hd
    have hrefuses : (refusal server.P request.cookie).Follows Ends ()
        (dispatch server route request) := dispatch_refuses h
    obtain ⟨-, -, hstate⟩ := hrefuses.run (I := fun _ s => s = d) hserve (w := ⟨choices, d⟩) rfl
    exact hstate
  have hreq' : ∀ u, requester server.P db' request = some u → u.isAdmin = false := by
    have hsame : requester server.P db' request = requester server.P db request :=
      requester_congr (congrArg Database.users hagree).symm (congrArg Database.sessions hagree).symm
        (congrArg Database.clock hagree).symm
    rw [hsame]
    exact hreq
  refine ⟨?_, hkept db hreq, hkept db' hreq'⟩
  have hblind : ∀ q, (refusal server.P request.cookie).allowed () q →
      Blind (serve server.P) (Database.withTests · .empty) q := by
    rintro q ⟨-, rfl⟩
    exact (unaware_selectSessionUser _).2 .empty
  have hserve : ∀ q c s, (refusal server.P request.cookie).allowed () q →
      (∀ u, requester server.P s request = some u → u.isAdmin = false) →
      (refusal server.P request.cookie).admits () q (serve server.P q c s).1 ∧
        ∀ u, requester server.P (serve server.P q c s).2 request = some u → u.isAdmin = false := by
    intro q c s hq hs
    obtain ⟨hadmits, hstate⟩ := serve_refusal hq hs
    refine ⟨hadmits, ?_⟩
    rw [hstate]
    exact hs
  have hstart : Database.withTests (World.mk choices db).state .empty
      = Database.withTests (World.mk choices db').state .empty := hagree
  have hchoices : (World.mk choices db).choices = (World.mk choices db').choices := rfl
  exact (Blind.run (dispatch_refuses h) hblind hserve hchoices hstart hreq).1

/-- **Hidden tests are hidden.** On two states that agree outside `problem_tests`, any request of someone
    without an administrator's session is answered alike; the states it leaves agree outside
    `problem_tests` again, and neither run changed that table. -/
theorem hidden_tests_unobservable (server : Server) (route : Route) (request : HttpRequest)
    (choices : Nat → Choice) {db db' : Database} (hagree : AgreeOutsideTests db db')
    (hreq : ∀ u, requester server.P db request = some u → u.isAdmin = false) :
    (respond server route request choices db).1 = (respond server route request choices db').1 ∧
      AgreeOutsideTests (respond server route request choices db).2
        (respond server route request choices db').2 ∧
      (respond server route request choices db).2.problemTests = db.problemTests ∧
      (respond server route request choices db').2.problemTests = db'.problemTests := by
  by_cases h : route.group = .admin
  · obtain ⟨houtcome, hdb, hdb'⟩ := respond_refused h choices hagree hreq
    rw [hdb, hdb']
    exact ⟨houtcome, hagree, rfl, rfl⟩
  · have hserve : ∀ q c s s', (testsObservation server.P).allowed q →
        Hiding db.problemTests db'.problemTests s s' →
        (testsObservation server.P).replies q (serve server.P q c s).1 (serve server.P q c s').1 ∧
          Hiding db.problemTests db'.problemTests (serve server.P q c s).2 (serve server.P q c s').2 :=
      fun q c s s' hq hs => hs.step hq
    have hstart : Hiding db.problemTests db'.problemTests (World.mk choices db).state
        (World.mk choices db').state := ⟨hagree, rfl, rfl⟩
    have hchoices : (World.mk choices db).choices = (World.mk choices db').choices := rfl
    obtain ⟨houtcome, hstate⟩ := (dispatch_indist h).run hserve hchoices hstart
    exact ⟨houtcome, hstate.agree, hstate.left, hstate.right⟩

end routes

/-! ### A user asks for a problem -/

/-- A user with a session, and one problem. -/
def oneUser : Database :=
  { Database.initial 0 with
      users := Table.empty.insert ⟨7, "ada", "hash", 0, false⟩
      sessions := Table.empty.insert ⟨1, 7, "token", 0, 3600 * second⟩
      problems := Table.empty.insert ⟨"sum", "Sum", "Add the numbers.", "", "", "Easy", .array [],
        .array [.string "python"], .array [], true, 0, 0, 1⟩ }

/-- The user gets the problem, and the same answer whether the problem has a hidden test or not. -/
theorem hidden_tests_unobservable_user :
    let db' := oneUser.withTests (Table.empty.insert ⟨1, "sum", "1 2", "3", 0, true, 1⟩)
    let request : HttpRequest := { cookie := "token" }
    let answer := respond Server.plain (.getProblem "sum") request fun _ => .calm
    (requester Server.plain.P oneUser request).map (·.isAdmin) = some false ∧
      oneUser.problemTests.rows ≠ db'.problemTests.rows ∧
      (∃ body, (answer oneUser).1.map HttpResponse.visible = .ok (200, some body)) ∧
      (answer oneUser).1 = (answer db').1 := by
  refine ⟨by decide, by decide, ⟨_, rfl⟩, ?_⟩
  refine (hidden_tests_unobservable Server.plain _ _ _ rfl ?_).1
  intro u hu
  cases hu
  rfl

end AlgorithmTrainer
