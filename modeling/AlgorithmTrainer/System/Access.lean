import AlgorithmTrainer.Auth.History
import AlgorithmTrainer.Problem.Catalog
import AlgorithmTrainer.System.Verdicts

/-!
# `System.Access` — nothing is done without the right to it

`steps_authorised`: in every run of the backends, whatever is interleaved and whatever fails, each step that
writes problems or hidden tests, adds a submission or an audit row, opens a session or writes a user was made
by a thread that had the right to it by what was found since its request came in: a session that was live
then, a registration, or a password; or by a process that sets up its configured administrator, or opens the
problem repository and adds the built-in problems that are missing.

`AccessPhase` is what a thread may ask, and `Known` what the history shows for it. The phases of a request are
the standings of `Server.Authority`, taken down to the calls by the handler rule.
-/

namespace AlgorithmTrainer

open Interaction Interaction.Pool Interaction.Protocol Transition Relational PostgreSQLAuthService

/-! ## What a call writes -/

section writes
variable {P : Platform} {q : BackendRequest} {c : Choice} {db : Database}

/-- A user whom a call writes: one that is registered, or an administrator. -/
inductive WritesUser (P : Platform) (db : Database) (u : UserRow) : BackendRequest → Prop where
  | registered {name hash : String} (hname : u.username = name) (hadmin : u.isAdmin = false)
      (hfresh : ∀ x ∈ db.users, x.id ≠ u.id) : WritesUser P db u (.execute (.insertUser name hash))
  | promoted {name hash : String} (hname : P.lower u.username = P.lower name)
      (hadmin : u.isAdmin = true) : WritesUser P db u (.execute (.upsertAdmin name hash))

/-- No user is lost, renamed or made less than an administrator. -/
def KeepsUsers (db db' : Database) : Prop :=
  ∀ u ∈ db.users, ∃ u' ∈ db'.users, u'.id = u.id ∧ u'.username = u.username ∧
    (u.isAdmin = true → u'.isAdmin = true)

theorem KeepsUsers.of_eq {db' : Database} (h : db'.users = db.users) : KeepsUsers db db' :=
  fun u hu => ⟨u, h ▸ hu, rfl, rfl, id⟩

theorem serve_users : (∀ u ∈ (serve P q c db).2.users, u ∈ db.users ∨ WritesUser P db u q) ∧
    KeepsUsers db (serve P q c db).2 := by
  have hsame : ∀ db' : Database, db'.users = db.users →
      (∀ u ∈ db'.users, u ∈ db.users ∨ WritesUser P db u q) ∧ KeepsUsers db db' :=
    fun db' h => ⟨fun u hu => Or.inl (h ▸ hu), .of_eq h⟩
  -- Of all queries only the two statements on users write an account.
  match q with
  | .randomToken | .passwordHash _ | .judge _ => exact hsame _ rfl
  | .executeLocked _ s => exact hsame _ (serveLocked_frame s c db).1
  | .execute s =>
      rw [serve_execute]
      rcases serveStatement_cases (P := P) s c db with ⟨-, hs⟩ | ⟨-, hs⟩
      · rw [hs]
        exact hsame _ rfl
      · rw [hs]
        cases s with
        | insertUser name hash =>
            rcases exec_insertUser (P := P) (m := c.message) name hash db with he | ⟨hfresh, he⟩
            · rw [he]
              exact hsame _ rfl
            · rw [he]
              refine ⟨fun u hu => ?_, fun u hu => ⟨u, Table.mem_insert_of_mem hu, rfl, rfl, id⟩⟩
              rcases Table.mem_insert.mp hu with hu | ⟨rfl, -⟩
              · exact Or.inl hu
              · exact Or.inr (.registered rfl rfl fun x hx => (hfresh x hx).1)
        | upsertAdmin name hash =>
            rcases exec_upsertAdmin (P := P) (m := c.message) name hash db with
              ⟨row, hrow, hlower, he⟩ | ⟨hfresh, he⟩ | he
            · rw [he]
              -- ON CONFLICT: the account of this name is promoted and keeps its id
              refine ⟨fun u hu => ?_, fun u hu => ?_⟩
              · rcases Table.mem_put.mp hu with ⟨hu, -⟩ | ⟨rfl, -⟩
                · exact Or.inl hu
                · exact Or.inr (.promoted hlower rfl)
              · by_cases hid : u.id = row.id
                · obtain rfl := Table.eq_of_key hu hrow hid
                  exact ⟨_, Table.mem_put_self hu rfl, rfl, rfl, fun _ => rfl⟩
                · exact ⟨u, Table.mem_put.mpr (Or.inl ⟨hu, hid⟩), rfl, rfl, id⟩
            · rw [he]
              refine ⟨fun u hu => ?_, fun u hu => ⟨u, Table.mem_insert_of_mem hu, rfl, rfl, id⟩⟩
              rcases Table.mem_insert.mp hu with hu | ⟨rfl, -⟩
              · exact Or.inl hu
              · exact Or.inr (.promoted rfl rfl)
            · rw [he]
              exact hsame _ rfl
        | _ => exact hsame _ ((exec_kept c.message _).2 rfl)

/-- Only its own statement adds a session. -/
theorem serve_sessions {x : SessionRow} (hx : x ∈ (serve P q c db).2.sessions) :
    x ∈ db.sessions ∨ ∃ hash lifetime, q = .execute (.insertSession x.userId hash lifetime) := by
  match q with
  | .randomToken | .passwordHash _ | .judge _ => exact Or.inl hx
  | .executeLocked _ s =>
      rw [serve_executeLocked, (serveLocked_frame s c db).2.1] at hx
      exact Or.inl hx
  | .execute s =>
      rw [serve_execute] at hx
      rcases serveStatement_cases (P := P) s c db with ⟨-, hs⟩ | ⟨-, hs⟩
      · rw [hs] at hx
        exact Or.inl hx
      · rw [hs] at hx
        have hupdate : ∀ p f (hf : ∀ r, p r = true → (f r).id = r.id),
            (db.updateSubmissions c.message p f hf).1.sessions = db.sessions := by
          intro p f hf
          obtain ⟨t, ht⟩ := db.updateSubmissions_frame c.message p f hf
          rw [ht]
        cases s with
        | insertSession userId hash lifetime =>
            simp only [Statement.exec] at hx
            split at hx
            · exact Or.inl hx
            · split at hx
              · rcases Table.mem_insert.mp hx with hx | ⟨rfl, -⟩
                · exact Or.inl hx
                · exact Or.inr ⟨hash, lifetime, rfl⟩
              · exact Or.inl hx
        | deleteSession hash => exact Or.inl (Table.mem_delete.mp hx).1
        | completeSubmission | failSubmission => exact Or.inl (hupdate _ _ _ ▸ hx)
        | recoverRunning => exact Or.inl (hupdate _ _ _ ▸ hx)
        | insertUser | upsertAdmin | selectFiltered | insertAudit | insertProblem | updateProblem
        | insertTest | updateTest =>
            simp only [Statement.exec] at hx
            repeat' split at hx
            all_goals exact Or.inl hx
        | _ => exact Or.inl hx

/-- The audit row that a call adds names the administrator that the call names. -/
def Audits (q : BackendRequest) (admin : Int) : Prop :=
  (∃ action entityType entityId details,
    q = .execute (.insertAudit admin action entityType entityId details)) ∨
  ∃ lock id maximum maximumPerUser,
    q = .executeLocked lock (.retrySubmission id maximum maximumPerUser admin)

/-- A submission that a call adds: one for the user that the call names, or a copy of one for the
    administrator that it names. -/
inductive Submits (db : Database) (r : SubmissionRow) : BackendRequest → Prop where
  | created {lock maximum maximumPerUser : Int} (hretry : r.retryOf = none) :
      Submits db r (.executeLocked lock (.insertSubmission r.problemId r.language r.sourceCode r.userId
        maximum maximumPerUser))
  | retried {lock maximum maximumPerUser admin : Int} {original : SubmissionRow}
      (horiginal : original ∈ db.submissions) (hretry : r.retryOf = some original.id)
      (huser : r.userId = original.userId) (hrequest : r.judgeRequest = original.judgeRequest) :
      Submits db r (.executeLocked lock (.retrySubmission original.id maximum maximumPerUser admin))

theorem updateSubmissions_same {m : String} {p : SubmissionRow → Bool} {f : SubmissionRow → SubmissionRow}
    {hf : ∀ r, p r = true → (f r).id = r.id} (hsame : ∀ r, SameSubmission r (f r)) {r : SubmissionRow}
    (hr : r ∈ (db.updateSubmissions m p f hf).1.submissions) :
    ∃ r₀ ∈ db.submissions, SameSubmission r₀ r := by
  unfold Database.updateSubmissions at hr
  dsimp only at hr
  split at hr
  · obtain ⟨r₀, hr₀, rfl⟩ := (Table.mem_update hf).mp hr
    refine ⟨r₀, hr₀, ?_⟩
    split
    · exact hsame r₀
    · exact .refl r₀
  · exact ⟨r, hr, .refl r⟩

/-- What a locked statement inserts. -/
theorem plan_writes (lock : Int) {s : LockedStatement} {l : Int → Bool} {changes : Changes}
    {rows : List SubmissionRow} (h : (s.plan l db).2 = .ok (changes, rows)) :
    (∀ r, changes.inserted = some r → Submits db r (.executeLocked lock s)) ∧
    (∀ r, changes.updated = some r → ∃ r₀ ∈ db.submissions, SameSubmission r₀ r) ∧
    ∀ a, changes.audited = some a → Audits (.executeLocked lock s) a.adminUserId := by
  -- a statement that finds no row writes nothing
  have hnothing : changes = .empty → (∀ r, changes.inserted = some r →
      Submits db r (.executeLocked lock s)) ∧
      (∀ r, changes.updated = some r → ∃ r₀ ∈ db.submissions, SameSubmission r₀ r) ∧
      ∀ a, changes.audited = some a → Audits (.executeLocked lock s) a.adminUserId := by
    rintro rfl
    exact ⟨fun _ h => (by cases h), fun _ h => (by cases h), fun _ h => (by cases h)⟩
  cases s with
  | insertSubmission problemId language code userId maximum maximumPerUser =>
      rw [plan_insertSubmission] at h
      split at h
      · dsimp only at h
        obtain ⟨rfl, -⟩ := planInsert_ok h
        refine ⟨fun r hr => ?_, fun _ h => (by cases h), fun _ h => (by cases h)⟩
        cases hr
        exact .created rfl
      · exact hnothing (congrArg Prod.fst (Except.ok.inj h)).symm
  | claimSubmission limit =>
      simp only [LockedStatement.plan] at h
      split at h
      · rename_i r₀ hcandidate
        split at h
        · cases h
          refine ⟨fun _ h => (by cases h), fun r hr => ?_, fun _ h => (by cases h)⟩
          cases hr
          exact ⟨r₀, (candidate_some hcandidate).1, rfl, rfl, rfl, rfl, rfl, rfl, rfl⟩
        · cases h
      · exact hnothing (congrArg Prod.fst (Except.ok.inj h)).symm
  | retrySubmission id maximum maximumPerUser admin =>
      rcases @plan_retry l db id maximum maximumPerUser admin with
        hnone | ⟨original, horiginal, rfl, -, -, -, hplan⟩
      · rw [hnone] at h
        exact hnothing (congrArg Prod.fst (Except.ok.inj h)).symm
      · rw [hplan] at h
        dsimp only at h
        obtain ⟨rfl, -⟩ := planInsert_ok h
        refine ⟨fun r hr => ?_, fun _ h => (by cases h), fun a ha => ?_⟩
        · cases hr
          exact .retried horiginal rfl rfl rfl
        · cases ha
          exact Or.inr ⟨lock, _, _, _, rfl⟩

/-- Where a locked transaction leaves a submission or an audit row, it was there, or was planned. -/
theorem serveLocked_writes (lock : Int) (s : LockedStatement) :
    (∀ r ∈ (serveLocked s c db).2.submissions,
      (∃ r₀ ∈ db.submissions, SameSubmission r₀ r) ∨ Submits db r (.executeLocked lock s)) ∧
    ∀ a ∈ (serveLocked s c db).2.adminAuditLog,
      a ∈ db.adminAuditLog ∨ Audits (.executeLocked lock s) a.adminUserId := by
  have hsame : ∀ db' : Database, db'.submissions = db.submissions → db'.adminAuditLog = db.adminAuditLog →
      (∀ r ∈ db'.submissions,
        (∃ r₀ ∈ db.submissions, SameSubmission r₀ r) ∨ Submits db r (.executeLocked lock s)) ∧
      ∀ a ∈ db'.adminAuditLog, a ∈ db.adminAuditLog ∨ Audits (.executeLocked lock s) a.adminUserId :=
    fun db' hs ha => ⟨fun r hr => Or.inl ⟨r, hs ▸ hr, .refl r⟩, fun a h => Or.inl (ha ▸ h)⟩
  have hlog : (s.plan c.lockedRows db).1.adminAuditLog = db.adminAuditLog := by rw [plan_frame]
  rcases serveLocked_cases s c db with ⟨h, -⟩ | ⟨h, -⟩ | ⟨_, -, h, -⟩ | ⟨changes, rows, hok, -, h⟩
  · rw [h]
    exact hsame _ rfl rfl
  · rw [h]
    exact hsame _ plan_submissions hlog
  · rw [h]
    exact hsame _ plan_submissions hlog
  · rw [h]
    obtain ⟨hinserted, hupdated, haudited⟩ := plan_writes lock hok
    refine ⟨fun r hr => ?_, fun a ha => ?_⟩
    · rw [apply_plan_submissions] at hr
      rcases mem_apply hr with hr | hr | hr
      · exact Or.inl ⟨r, hr, .refl r⟩
      · exact Or.inr (hinserted r hr)
      · exact Or.inl (hupdated r hr)
    · have ha' : a ∈ changes.audited.elim db.adminAuditLog db.adminAuditLog.insert := hlog ▸ ha
      cases hc : changes.audited with
      | none =>
          rw [hc] at ha'
          exact Or.inl ha'
      | some row =>
          rw [hc] at ha'
          rcases Table.mem_insert.mp ha' with ha' | ⟨rfl, -⟩
          · exact Or.inl ha'
          · exact Or.inr (haudited _ hc)

/-- Where a call leaves a submission, it was there, or the call added it. -/
theorem serve_submitted {r : SubmissionRow} (hr : r ∈ (serve P q c db).2.submissions) :
    (∃ r₀ ∈ db.submissions, SameSubmission r₀ r) ∨ Submits db r q := by
  match q with
  | .randomToken | .passwordHash _ | .judge _ => exact Or.inl ⟨r, hr, .refl r⟩
  | .executeLocked lock s => exact (serveLocked_writes lock s).1 r hr
  | .execute s =>
      rw [serve_execute] at hr
      rcases serveStatement_cases (P := P) s c db with ⟨-, hs⟩ | ⟨-, hs⟩
      · rw [hs] at hr
        exact Or.inl ⟨r, hr, .refl r⟩
      · rw [hs] at hr
        cases s with
        | completeSubmission | failSubmission | recoverRunning =>
            refine Or.inl (updateSubmissions_same ?_ hr)
            exact fun _ => ⟨rfl, rfl, rfl, rfl, rfl, rfl, rfl⟩
        | _ =>
            rw [exec_submissions _ _ rfl (fun h => (by cases h))] at hr
            exact Or.inl ⟨r, hr, .refl r⟩

/-- Where a call leaves an audit row, it was there, or the call added it. -/
theorem serve_audited {a : AuditRow} (ha : a ∈ (serve P q c db).2.adminAuditLog) :
    a ∈ db.adminAuditLog ∨ Audits q a.adminUserId := by
  match q with
  | .randomToken | .passwordHash _ | .judge _ => exact Or.inl ha
  | .executeLocked lock s => exact (serveLocked_writes lock s).2 a ha
  | .execute s =>
      rw [serve_execute] at ha
      rcases serveStatement_cases (P := P) s c db with ⟨-, hs⟩ | ⟨-, hs⟩
      · rw [hs] at ha
        exact Or.inl ha
      · rw [hs] at ha
        cases s with
        | insertAudit admin action entityType entityId details =>
            simp only [Statement.exec] at ha
            split at ha
            · exact Or.inl ha
            · split at ha
              · exact Or.inl ha
              · split at ha
                · rcases Table.mem_insert.mp ha with ha | ⟨rfl, -⟩
                  · exact Or.inl ha
                  · exact Or.inr (Or.inl ⟨action, entityType, entityId, details, rfl⟩)
                · exact Or.inl ha
        | _ =>
            rw [((exec_kept c.message _).1 rfl).1] at ha
            exact Or.inl ha

end writes

/-! ## What a history shows of a request -/

section requests
variable {κ ι τ : Type} [DecidableEq κ] [DecidableEq ι]

/-- The request that a control step makes a thread serve; it may be none. -/
def SystemControl.turns : SystemControl κ ι → Process κ ι → Option (Option HttpRequest)
  | .openProblems _ _, _ => none
  | .start k, j => if j = .starter k then some none else none
  | .ensure k, j => if j = .registrar k then some none else none
  | .work k n, j => if j = .worker k n then some none else none
  | .arrive k i _ request, j => if j = .request k i then some (some request) else none
  | .exit k, j => if j.backend = k then some none else none
  | .elapse _, _ => none

/-- The request that a thread serves. -/
def served (j : Process κ ι) : SystemHistory κ ι τ → Option HttpRequest
  | [] => none
  | (_, .call _ _ _) :: h => served j h
  | (_, .control b) :: h => (b.turns j).getD (served j h)

/-- The calls that it has made for it, latest first, each with the database that it was made on. -/
def callsSince (j : Process κ ι) : SystemHistory κ ι τ → List (Database × Exchange (Backend.sum Executor))
  | [] => []
  | (s, .call i _ x) :: h => if i = j then (s.1, x) :: callsSince j h else callsSince j h
  | (_, .control b) :: h => if (b.turns j).isSome then [] else callsSince j h

/-- The thread serves a request of this user: at one of its calls for it the session that the request
    carries was live, and the user's. -/
def ActsFor (P : Platform) (h : SystemHistory κ ι τ) (j : Process κ ι) (row : UserRow) : Prop :=
  ∃ request, served j h = some request ∧ ∃ x ∈ callsSince j h, requester P x.1 request = some row

def ActsForUser (P : Platform) (h : SystemHistory κ ι τ) (j : Process κ ι) (id : Int) : Prop :=
  ∃ row, ActsFor P h j row ∧ row.id = id

def ActsForAdmin (P : Platform) (h : SystemHistory κ ι τ) (j : Process κ ι) : Prop :=
  ∃ row, ActsFor P h j row ∧ row.isAdmin = true

/-- A call that registered the user. -/
def Registers (id : Int) : Exchange (Backend.sum Executor) → Prop
  | ⟨.inl (.execute (.insertUser _ _)), .tuples (row :: _)⟩ => row.id = id
  | _ => False

/-- The thread serves a request that registered the user, or that gave the name and the password which the
    user had at one of its calls. -/
inductive Proves (P : Platform) (h : SystemHistory κ ι τ) (j : Process κ ι) (id : Int) : Prop where
  | registered {request : HttpRequest} {x : Database × Exchange (Backend.sum Executor)}
      (hserved : served j h = some request) (hmem : x ∈ callsSince j h) (hregisters : Registers id x.2) :
      Proves P h j id
  | password {request : HttpRequest} {x : Database × Exchange (Backend.sum Executor)} {row : UserRow}
      {username password : String} (hserved : served j h = some request) (hmem : x ∈ callsSince j h)
      (hrow : row ∈ x.1.users) (hid : row.id = id) (hpresents : Presents request username password)
      (hname : P.lower row.username = P.lower (text username))
      (hverified : P.verifyPassword (cStr row.passwordHash) password = true) : Proves P h j id

/-- The thread whose call a step was. -/
def caller : (Database × τ) × SystemEvent κ ι → Option (Process κ ι)
  | (_, .call j _ _) => some j
  | (_, .control _) => none

/-- What a step after the history `h` adds to the tables, it has the right to. -/
structure StepAuthorised (D : Deployment κ) (h : SystemHistory κ ι τ)
    (l : (Database × τ) × SystemEvent κ ι) (db db' : Database) : Prop where
  /-- Problems and hidden tests are written for administrators, or an opening has added what was missing. -/
  catalog : db'.problems ≠ db.problems ∨ db'.problemTests ≠ db.problemTests →
    (∃ j, caller l = some j ∧ ActsForAdmin D.server.P h j) ∨
      (∃ k choices, l.2 = .control (.openProblems k choices)) ∧ Seeded D.defaultProblems db db'
  /-- An audit row names an administrator whom the thread acts for. -/
  audited : ∀ a ∈ db'.adminAuditLog, a ∈ db.adminAuditLog ∨
    ∃ j, caller l = some j ∧ ActsForAdmin D.server.P h j ∧ ActsForUser D.server.P h j a.adminUserId
  /-- A new submission is the user's or anonymous, or is an administrator's retry. -/
  submitted : ∀ r ∈ db'.submissions, (∃ r₀ ∈ db.submissions, SameSubmission r₀ r) ∨
    ∃ j, caller l = some j ∧
      ((r.retryOf = none ∧ ∀ id, r.userId = some id → ActsForUser D.server.P h j id) ∨
        (ActsForAdmin D.server.P h j ∧ ∃ original ∈ db.submissions, r.retryOf = some original.id ∧
          r.userId = original.userId ∧ r.judgeRequest = original.judgeRequest))
  /-- A session is opened for whoever registered or knows the password. -/
  opened : ∀ x ∈ db'.sessions, x ∈ db.sessions ∨
    ∃ j, caller l = some j ∧ Proves D.server.P h j x.userId
  /-- A user is registered by a request, or is the configured administrator of a backend. -/
  accounts : ∀ u ∈ db'.users, u ∈ db.users ∨ ∃ j, caller l = some j ∧
    (((served j h).isSome = true ∧ u.isAdmin = false ∧ ∀ x ∈ db.users, x.id ≠ u.id) ∨
      ∃ k, j = .registrar k ∧ u.isAdmin = true ∧
        D.server.P.lower u.username = D.server.P.lower (text (D.adminUsername k)))
  kept : KeepsUsers db db'

section histories
variable {P : Platform} {h : SystemHistory κ ι τ} {i j : Process κ ι} {s : Database × τ} {c : Choice}
  {x : Exchange (Backend.sum Executor)} {request : HttpRequest} {st : Standing} {b : SystemControl κ ι}

theorem callsSince_self : callsSince i ((s, .call i c x) :: h) = (s.1, x) :: callsSince i h := if_pos rfl

theorem callsSince_other (hij : i ≠ j) : callsSince j ((s, .call i c x) :: h) = callsSince j h := if_neg hij

/-- What a standing says has been shown by the calls. -/
structure Shown (P : Platform) (request : HttpRequest)
    (calls : List (Database × Exchange (Backend.sum Executor))) (st : Standing) : Prop where
  users : ∀ row ∈ st.users, ∃ x ∈ calls, requester P x.1 request = some row
  named : ∀ n ∈ st.named, ∃ x ∈ calls, n.2 ∈ x.1.users ∧ P.lower n.2.username = P.lower n.1
  registered : ∀ id ∈ st.registered, ∃ x ∈ calls, Registers id x.2

variable {calls : List (Database × Exchange (Backend.sum Executor))} {q : BackendRequest} {db : Database}

theorem Shown.start : Shown P request [] {} :=
  ⟨fun _ h => (by cases h), fun _ h => (by cases h), fun _ h => (by cases h)⟩

theorem Shown.later {x : Database × Exchange (Backend.sum Executor)} (h : Shown P request calls st) :
    Shown P request (x :: calls) st where
  users row hrow := (h.users row hrow).imp fun _ hx => ⟨List.mem_cons_of_mem _ hx.1, hx.2⟩
  named n hn := (h.named n hn).imp fun _ hx => ⟨List.mem_cons_of_mem _ hx.1, hx.2⟩
  registered id hid := (h.registered id hid).imp fun _ hx => ⟨List.mem_cons_of_mem _ hx.1, hx.2⟩

/-- What the answer to an allowed call shows. -/
theorem Shown.next (h : Shown P request calls st) (hq : st.May P request q) {r : q.Reply}
    (hr : (serve P q c db).1 = r) :
    Shown P request ((db, ⟨.inl q, r⟩) :: calls) (st.next q r) := by
  unfold Standing.next
  split
  · rename_i hash row
    obtain ⟨htoken, rfl⟩ := hq
    refine { h.later with users := fun row' hrow' => ?_ }
    rcases List.mem_cons.mp hrow' with rfl | hrow'
    · exact ⟨_, List.mem_cons_self, requester_of_lookup htoken hr⟩
    · exact h.later.users row' hrow'
  · rename_i name row
    refine { h.later with named := fun n hn => ?_ }
    rcases List.mem_cons.mp hn with rfl | hn
    · rcases serveStatement_cases (P := P) (.selectUserByName name) c db with ⟨-, hs⟩ | ⟨-, hs⟩
      · rw [serve_execute, hs] at hr
        cases hr
      · rw [serve_execute, hs] at hr
        have hrows : db.users.select (fun u => P.lower u.username == P.lower name) = [row] :=
          Result.tuples.inj hr
        have hmem : row ∈ db.users.select (fun u => P.lower u.username == P.lower name) :=
          hrows ▸ List.mem_singleton_self row
        obtain ⟨hmem, hlower⟩ := Table.mem_select.mp hmem
        exact ⟨_, List.mem_cons_self, hmem, by simpa using hlower⟩
    · exact h.later.named n hn
  · rename_i name hash row rows
    refine { h.later with registered := fun id hid => ?_ }
    rcases List.mem_cons.mp hid with rfl | hid
    · exact ⟨_, List.mem_cons_self, rfl⟩
    · exact h.later.registered id hid
  · exact h.later

theorem Shown.actsForUser (hs : Shown P request (callsSince j h) st) (hserved : served j h = some request)
    {id : Int} (hst : st.IsUser id) : ActsForUser P h j id := by
  obtain ⟨row, hrow, hid⟩ := hst
  exact ⟨row, ⟨request, hserved, hs.users row hrow⟩, hid⟩

theorem Shown.actsForAdmin (hs : Shown P request (callsSince j h) st) (hserved : served j h = some request)
    (hst : st.IsAdmin) : ActsForAdmin P h j := by
  obtain ⟨row, hrow, hadmin⟩ := hst
  exact ⟨row, ⟨request, hserved, hs.users row hrow⟩, hadmin⟩

theorem Shown.proves (hs : Shown P request (callsSince j h) st) (hserved : served j h = some request)
    {id : Int} (hst : st.Proves P request id) : Proves P h j id := by
  rcases hst with hid | ⟨row, username, password, hmem, hid, hpresents, hverified⟩
  · obtain ⟨x, hx, hregisters⟩ := hs.registered id hid
    exact .registered hserved hx hregisters
  · obtain ⟨x, hx, hrow, hname⟩ := hs.named _ hmem
    exact .password hserved hx hrow hid hpresents hname hverified

end histories
end requests

/-! ## What a thread may ask -/

/-- A thread works for its backend, sets up the administrator of the backend `k`, or serves a request. -/
inductive AccessPhase (κ : Type) where
  | inner
  | account (k : κ)
  | serving (request : HttpRequest) (st : Standing)

/-- What a backend asks on its own behalf: it reads problems, and works on the queue. -/
def BackendRequest.internal : BackendRequest → Bool
  | .execute .recoverRunning | .executeLocked _ (.claimSubmission _) | .execute (.completeSubmission ..)
  | .execute (.failSubmission ..) | .execute (.selectProblem ..) | .execute (.selectTests ..) => true
  | _ => false

namespace AccessPhase
variable {κ : Type}

def Allows (D : Deployment κ) : AccessPhase κ → (Backend.sum Executor).Request → Prop
  | inner, .inr _ => True
  | inner, .inl q => q.internal = true
  | account k, .inl q => (∃ password, q = .passwordHash password) ∨
      ∃ hash, q = .execute (.upsertAdmin (text (D.adminUsername k)) hash)
  | serving request st, .inl q => st.May D.server.P request q
  | _, _ => False

def next (φ : AccessPhase κ) : (q : (Backend.sum Executor).Request) →
    (Backend.sum Executor).Reply q → AccessPhase κ
  | .inl q, r =>
      match φ with
      | serving request st => serving request (st.next q r)
      | φ => φ
  | .inr _, _ => φ

end AccessPhase

def accessProtocol {κ : Type} (D : Deployment κ) : Protocol (Backend.sum Executor) (AccessPhase κ) where
  allowed := AccessPhase.Allows D
  admits _ := JudgingPhase.Admits
  next := AccessPhase.next

section threads
variable {κ : Type} {D : Deployment κ}

/-- Who takes part in the judging stays in it. -/
theorem JudgingPhase.next_ne_outside {φ : JudgingPhase} (h : φ ≠ .outside)
    {q : (Backend.sum Executor).Request} (r : (Backend.sum Executor).Reply q) : φ.next q r ≠ .outside := by
  unfold JudgingPhase.next
  split
  · exact fun h => (by cases h)
  · split
    · exact fun h => (by cases h)
    · exact h
  · split
    · exact fun h => (by cases h)
    · exact h
  · exact h

/-- What a worker may ask is internal. -/
theorem JudgingPhase.Allows.internal {φ : JudgingPhase} (h : φ ≠ .outside)
    {q : (Backend.sum Executor).Request} (hq : φ.Allows q) : (AccessPhase.inner (κ := κ)).Allows D q := by
  cases q with
  | inr request => trivial
  | inl q =>
      cases q with
      | execute s =>
          cases s with
          | completeSubmission | failSubmission | selectProblem | selectTests => rfl
          | _ => exact absurd hq.1 h
      | executeLocked lock s =>
          cases s with
          | claimSubmission => rfl
          | insertSubmission | retrySubmission => exact absurd hq.1 h
      | randomToken | passwordHash | judge => exact absurd hq.1 h

theorem workerProgram_access :
    (accessProtocol D).Follows AnyOutcome .inner (workerProgram D) := by
  have hworker : judgingProtocol.Follows AnyOutcome .free (workerProgram D) := workerProgram_follows
  refine (hworker.simulate (R := fun φ ψ => φ ≠ .outside ∧ ψ = .inner) ?_ ⟨fun h => (by cases h), rfl⟩).mono
    fun _ _ _ => trivial
  rintro φ _ q ⟨hφ, rfl⟩ hq
  refine ⟨hq.internal hφ, fun r hr => ⟨hr, JudgingPhase.next_ne_outside hφ r, ?_⟩⟩
  cases q <;> rfl

theorem starterProgram_access :
    (accessProtocol D).Follows AnyOutcome .inner starterProgram := by
  refine ⟨rfl, fun result _ => ?_⟩
  cases result <;> trivial

theorem registrarProgram_access (k : κ) :
    (accessProtocol D).Follows AnyOutcome (.account k) (registrarProgram D k) := by
  let asks : Backend.Request → Prop := fun q => (∃ password, q = .passwordHash password) ∨
    ∃ hash, q = .execute (.upsertAdmin (text (D.adminUsername k)) hash)
  have hensure : (Protocol.only asks).Follows Ends () (ensureAdmin D.server.P (D.adminUsername k)
      (D.adminPassword k)) := by
    unfold ensureAdmin
    split
    · trivial
    · refine ⟨Or.inl ⟨_, rfl⟩, fun hash _ => ?_⟩
      show (Protocol.only asks).Follows Ends () (ite _ _ _)
      split
      · trivial
      · refine ⟨Or.inr ⟨_, rfl⟩, fun result _ => ?_⟩
        cases result with
        | tuples rows =>
            cases rows with
            | nil => trivial
            | cons row rows => cases rows <;> trivial
        | none | failed _ _ | command => trivial
  have hmapped : (Protocol.only asks).Follows Ends () (ProcessResult.ensured <$>
      ensureAdmin D.server.P (D.adminUsername k) (D.adminPassword k)) :=
    hensure.bind (fun _ _ _ => trivial) fun _ _ h => h
  refine (hmapped.handle (B := accessProtocol D) (R := fun _ ψ => ψ = .account k) ?_ rfl).mono
    fun _ _ _ => trivial
  rintro _ _ q rfl hq
  have hworks : BackendRequest.works q = false := by
    rcases hq with ⟨_, rfl⟩ | ⟨_, rfl⟩ <;> rfl
  exact judging_passes (A := .only asks) (B := accessProtocol D) (R := fun _ ψ => ψ = .account k) hworks hq
    fun r _ => ⟨trivial, rfl⟩

theorem requestProgram_access (route : Route) (request : HttpRequest) :
    (accessProtocol D).Follows AnyOutcome (.serving request {}) (requestProgram D route request) := by
  have hdispatch : (authority D.server.P request).Follows AnyOutcome {}
      (ProcessResult.responded <$> dispatch D.server route request) :=
    (dispatch_authorised D.server route request {}).bind (fun _ _ _ => trivial) fun _ _ h => h
  refine (hdispatch.handle (R := fun st ψ => ψ = .serving request st) ?_ rfl).mono fun _ _ _ => trivial
  rintro st _ q rfl hq
  exact judging_passes (A := authority D.server.P request) (B := accessProtocol D)
    (R := fun st ψ => ψ = .serving request st) (Standing.May.works hq) hq fun r _ => ⟨trivial, rfl⟩

end threads

/-! ## The invariant -/

section invariant
variable {κ ι τ : Type} [DecidableEq κ] [DecidableEq ι]

/-- What a phase says of its thread is what the history shows. -/
def Known (D : Deployment κ) (h : SystemHistory κ ι τ) (j : Process κ ι) : AccessPhase κ → Prop
  | .inner => True
  | .account k => j = .registrar k
  | .serving request st => served j h = some request ∧ Shown D.server.P request (callsSince j h) st

/-- The user was an administrator in the beginning, or has the name of one that is configured. -/
def Appointed (D : Deployment κ) (db₀ : Database) (u : UserRow) : Prop :=
  (∃ u₀ ∈ db₀.users, u₀.id = u.id ∧ u₀.isAdmin = true) ∨
    ∃ k, D.server.P.lower u.username = D.server.P.lower (text (D.adminUsername k))

structure AccessSound (D : Deployment κ) (db₀ : Database) (h : SystemHistory κ ι τ)
    (φ : Process κ ι → AccessPhase κ) (s : Database × τ) : Prop where
  known : ∀ j, Known D h j (φ j)
  appointed : ∀ u ∈ s.1.users, u.isAdmin = true → Appointed D db₀ u

/-- How the phase of a thread is changed by a control step. -/
inductive Turned (b : SystemControl κ ι) (φ : AccessPhase κ) (j : Process κ ι) : AccessPhase κ → Prop where
  | kept (h : b.turns j = none) : Turned b φ j φ
  | inner : Turned b φ j .inner
  | account {k : κ} (h : j = .registrar k) : Turned b φ j (.account k)
  | serving {request : HttpRequest} (h : b.turns j = some (some request)) :
      Turned b φ j (.serving request {})

variable {D : Deployment κ} {db₀ : Database} {h : SystemHistory κ ι τ} {φ φ' : Process κ ι → AccessPhase κ}
  {s s' : Database × τ} {i j : Process κ ι} {c : Choice} {V : Service Executor Choice τ}

theorem Known.other {ψ : AccessPhase κ} {x : Exchange (Backend.sum Executor)} (hk : Known D h j ψ)
    (hij : i ≠ j) : Known D ((s, .call i c x) :: h) j ψ := by
  cases ψ with
  | inner => trivial
  | account k => exact hk
  | serving request st => exact ⟨hk.1, (callsSince_other hij).symm ▸ hk.2⟩

theorem Known.turned {b : SystemControl κ ι} {ψ ψ' : AccessPhase κ} (hk : Known D h j ψ)
    (ht : Turned b ψ j ψ') : Known D ((s, .control b) :: h) j ψ' := by
  have hserved : served j ((s, .control b) :: h) = (b.turns j).getD (served j h) := rfl
  have hcalls : callsSince j ((s, .control b) :: h)
      = if (b.turns j).isSome then [] else callsSince j h := rfl
  cases ht with
  | inner => trivial
  | account hj => exact hj
  | kept hb =>
      rw [hb] at hserved hcalls
      cases ψ with
      | inner => trivial
      | account k => exact hk
      | serving request st => exact ⟨hserved.trans hk.1, hcalls.symm ▸ hk.2⟩
  | serving hb =>
      rw [hb] at hserved hcalls
      exact ⟨hserved, hcalls.symm ▸ .start⟩

omit [DecidableEq κ] in
/-- Nobody but a process that sets up its administrator makes one. -/
theorem AccessPhase.Allows.account {ψ : AccessPhase κ} {name hash : String}
    (h : ψ.Allows D (.inl (.execute (.upsertAdmin name hash)))) :
    ∃ k, ψ = .account k ∧ name = text (D.adminUsername k) := by
  cases ψ with
  | inner => cases h
  | serving request st => exact h.elim
  | account k =>
      rcases h with ⟨_, h⟩ | ⟨_, h⟩
      · cases h
      · cases h
        exact ⟨k, rfl, rfl⟩

omit [DecidableEq κ] in
/-- What is neither internal nor about the administrator's account is asked for a request. -/
theorem AccessPhase.Allows.serving {ψ : AccessPhase κ} {q : BackendRequest} (h : ψ.Allows D (.inl q))
    (hq : q.internal = false) (hname : ∀ name hash, q ≠ .execute (.upsertAdmin name hash))
    (hpassword : ∀ password, q ≠ .passwordHash password) :
    ∃ request st, ψ = .serving request st ∧ st.May D.server.P request q := by
  cases ψ with
  | inner => exact absurd (hq.symm.trans h) (by decide)
  | serving request st => exact ⟨request, st, rfl, h⟩
  | account k =>
      rcases h with ⟨_, h⟩ | ⟨_, h⟩
      · exact absurd h (hpassword _)
      · exact absurd h (hname _ _)

/-- **A call** that is allowed. -/
theorem AccessSound.call (hJ : AccessSound D db₀ h φ s) {q : (Backend.sum Executor).Request}
    (hq : (φ i).Allows D q) :
    AccessSound D db₀ ((s, .call i c ⟨q, (((serve D.server.P).sum V) q c s).1⟩) :: h)
      (Function.update φ i ((φ i).next q (((serve D.server.P).sum V) q c s).1))
      (((serve D.server.P).sum V) q c s).2 := by
  constructor
  · intro j
    by_cases hji : j = i
    · subst hji
      rw [Function.update_self]
      have hk := hJ.known j
      cases hφ : φ j with
      | inner => cases q <;> trivial
      | account k =>
          rw [hφ] at hk
          cases q <;> exact hk
      | serving request st =>
          rw [hφ] at hk hq
          cases q with
          | inr q => exact hq.elim
          | inl q =>
              refine ⟨hk.1, ?_⟩
              rw [callsSince_self]
              exact hk.2.next hq rfl
    · rw [Function.update_of_ne hji]
      exact (hJ.known j).other (Ne.symm hji)
  · intro u hu hadmin
    cases q with
    | inr q => exact hJ.appointed u hu hadmin
    | inl q =>
        rcases serve_users.1 u hu with hu | hwrites
        · exact hJ.appointed u hu hadmin
        · cases hwrites with
          | registered _ hfalse _ => exact absurd (hfalse.symm.trans hadmin) (by decide)
          | promoted hname _ =>
              obtain ⟨k, -, rfl⟩ := hq.account
              exact Or.inr ⟨k, hname⟩

theorem AccessSound.control (hJ : AccessSound D db₀ h φ s) {b : SystemControl κ ι}
    (hs : s'.1.users = s.1.users) (hφ : ∀ j, Turned b (φ j) j (φ' j)) :
    AccessSound D db₀ ((s, .control b) :: h) φ' s' where
  known j := (hJ.known j).turned (hφ j)
  appointed u hu := hJ.appointed u (hs ▸ hu)

/-- A control step gives threads programs that keep the discipline. -/
theorem systemControl_access {b : SystemControl κ ι} {p p' : System κ ι τ}
    (hF : ∀ i, (accessProtocol D).Follows AnyOutcome (φ i) (p.thread i))
    (hb : systemControl D b p = some p') :
    ∃ φ' : Process κ ι → AccessPhase κ, (∀ i, Turned b (φ i) i (φ' i)) ∧
      ∀ i, (accessProtocol D).Follows AnyOutcome (φ' i) (p'.thread i) := by
  -- A thread that is given a program enters the phase of that program.
  have hassign : ∀ (j : Process κ ι) {ψ : AccessPhase κ} {program : Judging ProcessResult},
      (∀ i, i ≠ j → b.turns i = none) → Turned b (φ j) j ψ →
      (accessProtocol D).Follows AnyOutcome ψ program →
      ∃ φ' : Process κ ι → AccessPhase κ, (∀ i, Turned b (φ i) i (φ' i)) ∧
        ∀ i, (accessProtocol D).Follows AnyOutcome (φ' i) ((assign p j program).thread i) := by
    intro j ψ program hothers hj hprogram
    refine ⟨Function.update φ j ψ, fun i => ?_, fun i => ?_⟩
    · by_cases hij : i = j
      · subst hij
        rw [Function.update_self]
        exact hj
      · rw [Function.update_of_ne hij]
        exact .kept (hothers i hij)
    · by_cases hij : i = j
      · subst hij
        simp only [assign, Function.update_self]
        exact hprogram
      · simp only [assign, Function.update_of_ne hij]
        exact hF i
  cases b with
  | openProblems k choices =>
      simp only [systemControl, Option.ite_none_right_eq_some, Option.some.injEq] at hb
      obtain ⟨-, rfl⟩ := hb
      exact ⟨φ, fun i => .kept rfl, hF⟩
  | start k =>
      simp only [systemControl, Option.ite_none_right_eq_some, Option.some.injEq] at hb
      obtain ⟨-, rfl⟩ := hb
      exact hassign (.starter k) (fun i hi => if_neg hi) .inner starterProgram_access
  | ensure k =>
      simp only [systemControl, Option.ite_none_right_eq_some, Option.some.injEq] at hb
      obtain ⟨-, rfl⟩ := hb
      exact hassign (.registrar k) (fun i hi => if_neg hi) (.account rfl) (registrarProgram_access k)
  | work k n =>
      simp only [systemControl, Option.ite_none_right_eq_some, Option.some.injEq] at hb
      obtain ⟨-, rfl⟩ := hb
      exact hassign (.worker k n) (fun i hi => if_neg hi) .inner workerProgram_access
  | arrive k i route request =>
      simp only [systemControl, Option.ite_none_right_eq_some, Option.some.injEq] at hb
      obtain ⟨-, rfl⟩ := hb
      exact hassign (.request k i) (fun i hi => if_neg hi) (.serving (if_pos rfl))
        (requestProgram_access route request)
  | exit k =>
      cases hb
      refine ⟨fun i => if i.backend = k then .inner else φ i, fun i => ?_, fun i => ?_⟩
      · dsimp only
        split
        · exact .inner
        · rename_i hi
          exact .kept (if_neg hi)
      · dsimp only
        split
        · trivial
        · exact hF i
  | elapse time =>
      cases hb
      exact ⟨φ, fun i => .kept rfl, hF⟩

/-! ## Steps -/

/-- A control step has the right to what it writes. -/
theorem ControlWrites.authorised {b : SystemControl κ ι} {db db' : Database}
    (hwrites : ControlWrites D b db db') : StepAuthorised D h (s, .control b) db db' where
  catalog hne := by
    rcases hwrites.catalog with ⟨hproblems, htests⟩ | ⟨⟨k, choices, rfl⟩, hseeded⟩
    · exact hne.elim (fun hne => absurd hproblems hne) fun hne => absurd htests hne
    · exact Or.inr ⟨⟨k, choices, rfl⟩, hseeded⟩
  audited _ ha := Or.inl (hwrites.adminAuditLog ▸ ha)
  submitted r hr := Or.inl ⟨r, hwrites.submissions ▸ hr, .refl r⟩
  opened _ hx := Or.inl (hwrites.sessions ▸ hx)
  accounts _ hu := Or.inl (hwrites.users ▸ hu)
  kept := .of_eq hwrites.users

/-- A step that leaves the database as it is. -/
theorem StepAuthorised.same {l : (Database × τ) × SystemEvent κ ι} {db : Database} :
    StepAuthorised D h l db db where
  catalog hne := hne.elim (fun hne => absurd rfl hne) fun hne => absurd rfl hne
  audited _ ha := Or.inl ha
  submitted r hr := Or.inl ⟨r, hr, .refl r⟩
  opened _ hx := Or.inl hx
  accounts _ hu := Or.inl hu
  kept := .of_eq rfl

/-- A call that its thread may make has the right to what it writes. -/
theorem AccessSound.authorised (hJ : AccessSound D db₀ h φ s) {q : BackendRequest}
    (hq : (φ i).Allows D (.inl q)) {x : Exchange (Backend.sum Executor)} :
    StepAuthorised D h (s, .call i c x) s.1 (serve D.server.P q c s.1).2 := by
  -- what a request asks, its standing allows, and its calls have shown
  have hasked : q.internal = false → (∀ name hash, q ≠ .execute (.upsertAdmin name hash)) →
      (∀ password, q ≠ .passwordHash password) → ∃ request st, st.May D.server.P request q ∧
        served i h = some request ∧ Shown D.server.P request (callsSince i h) st := by
    intro hinternal hname hpassword
    obtain ⟨request, st, hφ, hmay⟩ := hq.serving hinternal hname hpassword
    have hk := hJ.known i
    rw [hφ] at hk
    exact ⟨request, st, hmay, hk⟩
  refine ⟨fun hne => ?_, fun a ha => ?_, fun r hr => ?_, fun y hy => ?_, fun u hu => ?_, serve_users.2⟩
  · have hsets : ∃ t, q = .execute t ∧ t.setsCatalog = true := by
      by_contra hno
      have hsame : SameCatalog s.1 (serve D.server.P q c s.1).2 := by
        refine serve_sameCatalog fun t ht => ?_
        rw [← Bool.not_eq_true]
        exact fun hcatalog => hno ⟨t, ht, hcatalog⟩
      exact hne.elim (fun hne => hne hsame.problems) fun hne => hne hsame.problemTests
    obtain ⟨t, rfl, hcatalog⟩ := hsets
    have hadmin : ∃ request st, Standing.IsAdmin st ∧ served i h = some request ∧
        Shown D.server.P request (callsSince i h) st := by
      cases t with
      | insertProblem | updateProblem | deleteProblem | insertTest | updateTest | deleteTest =>
          exact hasked rfl (fun _ _ h => (by cases h)) fun _ h => (by cases h)
      | _ => cases hcatalog
    obtain ⟨request, st, hst, hserved, hshown⟩ := hadmin
    exact Or.inl ⟨i, rfl, hshown.actsForAdmin hserved hst⟩
  · rcases serve_audited ha with ha | haudits
    · exact Or.inl ha
    · have hadmin : ∃ request st, (Standing.IsAdmin st ∧ Standing.IsUser st a.adminUserId) ∧
          served i h = some request ∧ Shown D.server.P request (callsSince i h) st := by
        rcases haudits with ⟨_, _, _, _, rfl⟩ | ⟨_, _, _, _, rfl⟩
        · exact hasked rfl (fun _ _ h => (by cases h)) fun _ h => (by cases h)
        · exact hasked rfl (fun _ _ h => (by cases h)) fun _ h => (by cases h)
      obtain ⟨request, st, hst, hserved, hshown⟩ := hadmin
      exact Or.inr ⟨i, rfl, hshown.actsForAdmin hserved hst.1, hshown.actsForUser hserved hst.2⟩
  · rcases serve_submitted hr with hr | hsubmits
    · exact Or.inl hr
    · refine Or.inr ⟨i, rfl, ?_⟩
      cases hsubmits with
      | created hretry =>
          obtain ⟨request, st, hst, hserved, hshown⟩ :=
            hasked rfl (fun _ _ h => (by cases h)) fun _ h => (by cases h)
          exact Or.inl ⟨hretry, fun id hid => hshown.actsForUser hserved (hst id hid)⟩
      | retried horiginal hretry huser hrequest =>
          obtain ⟨request, st, hst, hserved, hshown⟩ :=
            hasked rfl (fun _ _ h => (by cases h)) fun _ h => (by cases h)
          exact Or.inr ⟨hshown.actsForAdmin hserved hst.1, _, horiginal, hretry, huser, hrequest⟩
  · rcases serve_sessions hy with hy | ⟨hash, lifetime, rfl⟩
    · exact Or.inl hy
    · obtain ⟨request, st, hst, hserved, hshown⟩ :=
        hasked rfl (fun _ _ h => (by cases h)) fun _ h => (by cases h)
      exact Or.inr ⟨i, rfl, hshown.proves hserved hst⟩
  · rcases serve_users.1 u hu with hu | hwrites
    · exact Or.inl hu
    · refine Or.inr ⟨i, rfl, ?_⟩
      cases hwrites with
      | registered hname hadmin hfresh =>
          obtain ⟨request, st, -, hserved, -⟩ :=
            hasked rfl (fun _ _ h => (by cases h)) fun _ h => (by cases h)
          exact Or.inl ⟨hserved ▸ rfl, hadmin, hfresh⟩
      | promoted hname hadmin =>
          obtain ⟨k, hφ, rfl⟩ := hq.account
          have hk := hJ.known i
          rw [hφ] at hk
          exact Or.inr ⟨k, hk, hadmin, hname⟩

/-- Every run keeps the invariant, and its threads the discipline. -/
theorem accessSound_of_run {executor : τ} {p : System κ ι τ}
    (hrun : Run (SystemStep D V) (deployed κ ι db₀ executor) h p) :
    ∃ φ, AccessSound D db₀ h φ p.shared ∧ ∀ i, (accessProtocol D).Follows AnyOutcome (φ i) (p.thread i) := by
  refine phases_of_watched (accessProtocol D) AnyOutcome (AccessSound D db₀) hrun
    ⟨fun _ => .inner, ⟨fun _ => trivial, fun u hu hadmin => Or.inl ⟨u, hu, rfl, hadmin⟩⟩, fun _ => trivial⟩
    (fun h p φ i c q _ hJ hq => ⟨served_admits q c p.shared, hJ.call hq⟩) fun h p φ b p' _ hJ hF hb => ?_
  obtain ⟨φ', hφ', hF'⟩ := systemControl_access hF hb
  exact ⟨φ', hJ.control (systemControl_shared hb).users hφ', hF'⟩

/-- **Nothing is done without the right to it.** In every run of the backends, with any executor and whatever
    fails, whatever a step adds to the tables its thread had the right to; and every administrator was one
    in the beginning, or has the name of a configured one. -/
theorem steps_authorised {executor : τ} {p p' : System κ ι τ} {l : (Database × τ) × SystemEvent κ ι}
    (hrun : Run (SystemStep D V) (deployed κ ι db₀ executor) h p) (hstep : SystemStep D V p l p') :
    StepAuthorised D h l p.shared.1 p'.shared.1 ∧
      ∀ u ∈ p.shared.1.users, u.isAdmin = true → Appointed D db₀ u := by
  obtain ⟨φ, hJ, hF⟩ := accessSound_of_run hrun
  refine ⟨?_, hJ.appointed⟩
  obtain ⟨s, e⟩ := l
  obtain ⟨rfl, hs⟩ := hstep
  cases hs with
  | @call i q k c hthread =>
      have hi := hF i
      rw [hthread] at hi
      cases q with
      | inl q => exact hJ.authorised hi.1
      | inr q => exact .same
  | control hb => exact (systemControl_shared hb).authorised

end invariant

/-! ### A problem is deleted -/

/-- The backend starts, sets up its administrator, and is sent a request to delete the problem; the session is
    looked up. -/
def deletionAhead : List SystemMove :=
  [opens, .inr (.start ()), steps (.starter ()), .inr (.ensure ()), steps (.registrar ()), steps (.registrar ()),
    .inr (.arrive () () (.adminDeleteProblem "sum") fromAdmin), steps (.request () ())]

/-- The next step of the request deletes it. -/
theorem steps_authorised_deletion : ∃ (h : SystemHistory Unit Unit Unit) (p p' : System Unit Unit Unit)
    (l : (Database × Unit) × SystemEvent Unit Unit), p'.shared.1.problems.rows.length = 0 ∧
      StepAuthorised oneBackend h l p.shared.1 p'.shared.1 ∧
      ∃ j, caller l = some j ∧ ActsForAdmin .plain h j := by
  have hrows : ((playedSystem deletionAhead).bind fun x =>
      (x.2.call ((serve Platform.plain).sum printsThree) (.request () ()) .calm
        : Option (SystemEvent Unit Unit × System Unit Unit Unit)).map
        fun y => (x.2.shared.1.problems.rows.length, y.2.shared.1.problems.rows.length))
      = some (1, 0) := by decide +kernel
  obtain ⟨⟨h, p⟩, hplayed, hrows⟩ := Option.bind_eq_some_iff.mp hrows
  obtain ⟨⟨e, p'⟩, hcall, hrows⟩ := Option.map_eq_some_iff.mp hrows
  obtain ⟨hone, hnone⟩ := Prod.mk.inj hrows
  have hstep : SystemStep oneBackend printsThree p (p.shared, e) p' := ⟨rfl, step_of_call hcall⟩
  have hauthorised := (steps_authorised (run_of_played hplayed) hstep).1
  have hchanged : p'.shared.1.problems ≠ p.shared.1.problems := by
    intro heq
    rw [heq, hone] at hnone
    cases hnone
  refine ⟨h, p, p', _, hnone, hauthorised, (hauthorised.catalog (Or.inl hchanged)).resolve_right ?_⟩
  -- An opening would have kept the problem.
  rintro ⟨-, hseeded⟩
  obtain ⟨row, hrow⟩ := List.exists_mem_of_length_pos (hone.symm ▸ Nat.one_pos)
  have hkept : row ∈ p'.shared.1.problems.rows := hseeded.kept row hrow
  rw [List.eq_nil_of_length_eq_zero hnone] at hkept
  cases hkept

end AlgorithmTrainer
