import AlgorithmTrainer.Server.Requests

/-!
# `Server.Disclosure` — whose source code a route shows

Two runs of one request on states that differ in the sources of one user only. No visitor's route and no
account route tells them apart, but `get_submission` reads a submission by its id without looking at the
session: `sources_private_iff` says exactly when its answer is the same.
-/

namespace AlgorithmTrainer

open Interaction Interaction.Observation Relational PostgreSQLAuthService

def isOwnedBy (user : Int) (r : SubmissionRow) : Bool := r.userId == some user

def withoutSource (r : SubmissionRow) : SubmissionRow := { r with sourceCode := "" }

theorem key_withoutSource (user : Int) (r : SubmissionRow) (_ : isOwnedBy user r = true) :
    Keyed.key (withoutSource r) = Keyed.key r := rfl

/-- A table of submissions with a user's sources blanked out. -/
def blanked (user : Int) (t : Table SubmissionRow) : Table SubmissionRow :=
  t.update (isOwnedBy user) withoutSource (key_withoutSource user)

/-- The database with a user's sources blanked out. -/
def Database.withoutSources (user : Int) (db : Database) : Database :=
  { db with submissions := blanked user db.submissions }

/-- The two states differ in the sources of the user's submissions only. -/
def SameButSources (user : Int) (db db' : Database) : Prop :=
  db.withoutSources user = db'.withoutSources user

/-! ## What does not depend on the sources -/

section blanked
variable {user : Int} {t : Table SubmissionRow} {p : SubmissionRow → Bool}

theorem count_blanked (hp : ∀ r, p (withoutSource r) = p r) :
    (blanked user t).count p = t.count p := by
  unfold blanked
  exact Table.count_update_eq hp

/-- A query for the rows of others returns them as they are. -/
theorem select_blanked (hp : ∀ r, p (withoutSource r) = p r)
    (hother : ∀ r, p r = true → r.userId ≠ some user) :
    (blanked user t).select p = t.select p := by
  unfold blanked
  rw [Table.select_update hp]
  refine (List.map_congr_left fun r hr => ?_).trans (List.map_id _)
  have hnot : isOwnedBy user r = false := by
    have hne := hother r (Table.mem_select.mp hr).2
    simpa [isOwnedBy] using hne
  rw [hnot]
  rfl

/-- A row of someone else is inserted as it is. -/
theorem insert_blanked {row : SubmissionRow} (hrow : row.userId ≠ some user) :
    (blanked user t).insert row = blanked user (t.insert row) := by
  have hnot : isOwnedBy user row = false := by simpa [isOwnedBy] using hrow
  unfold blanked
  exact Table.insert_update hnot

end blanked

/-! ## Calls that do not look at the sources -/

section blind
variable {P : Platform} {user : Int} {q : BackendRequest}

theorem AccountRequest.blind (hq : AccountRequest q) :
    Blind (serve P) (Database.withoutSources user) q := by
  match q with
  | .randomToken | .passwordHash _ => exact fun _ _ => rfl
  | .executeLocked _ _ | .judge _ => exact hq.elim
  | .execute s =>
      cases s with
      | insertUser username hash =>
          refine Blind.statement fun m db => ?_
          unfold Statement.exec
          dsimp only [Database.withoutSources]
          split <;> rfl
      | selectUserByName username => exact Blind.statement fun _ _ => rfl
      | insertSession userId hash lifetime =>
          refine Blind.statement fun m db => ?_
          unfold Statement.exec
          dsimp only [Database.withoutSources]
          split
          · rfl
          · show (if db.hasUser userId then _ else _) = _
            split <;> rfl
      | deleteSession hash => exact Blind.statement fun _ _ => rfl
      | _ => exact hq.elim

/-- Admission counts the active submissions, and a visitor's submission is not the user's. -/
theorem blind_insertSubmission (lock : Int) (problemId language code : String)
    {owner : Option Int} (howner : owner ≠ some user) (maximum maximumPerUser : Int) :
    Blind (serve P) (Database.withoutSources user) (.executeLocked lock
      (.insertSubmission problemId language code owner maximum maximumPerUser)) := by
  -- The numbers that admission compares do not depend on the sources.
  have hadmits : ∀ db : Database, (db.withoutSources user).admits owner maximum maximumPerUser
      = db.admits owner maximum maximumPerUser := by
    intro db
    have hactive : (db.withoutSources user).active = db.active := count_blanked fun _ => rfl
    have hactiveOf : (db.withoutSources user).activeOf owner = db.activeOf owner :=
      count_blanked fun _ => rfl
    unfold Database.admits
    rw [hactive, hactiveOf]
  -- Neither do the constraints.
  have hinsert : ∀ (db : Database) (row : SubmissionRow),
      (db.withoutSources user).planInsert row none = db.planInsert row none := by
    intro db row
    have hcount : (db.withoutSources user).submissions.count (fun r => r.id == row.id
          || (row.retryOf.isSome && r.retryOf == row.retryOf))
        = db.submissions.count (fun r => r.id == row.id
          || (row.retryOf.isSome && r.retryOf == row.retryOf)) := count_blanked fun _ => rfl
    unfold Database.planInsert
    rw [hcount]
    rfl
  refine Blind.locked (fun l db => ?_) fun l db changes rows h => ?_
  · rw [plan_insertSubmission, plan_insertSubmission, hadmits]
    split
    · exact congrArg (Prod.mk _) (hinsert db _)
    · rfl
  · rw [plan_insertSubmission] at h ⊢
    split at h
    · rename_i hroom
      rw [if_pos hroom]
      dsimp only at h ⊢
      obtain ⟨rfl, -, -, -⟩ := planInsert_ok h
      refine congrArg (fun t => { db.nextSubmissionId with submissions := t })
        (insert_blanked ?_)
      exact howner
    · rename_i hroom
      rw [if_neg hroom]
      cases Except.ok.inj h
      rfl

theorem Visitor.Asks.blind {v : Visitor} (hown : ∀ id, v.own id → id ≠ user) (hq : v.Asks P q) :
    Blind (serve P) (Database.withoutSources user) q := by
  -- a query for the rows of one of the visitor's own users
  have hselect : ∀ (db : Database) (p : SubmissionRow → Bool) (id : Int), v.own id →
      (∀ r, p (withoutSource r) = p r) → (∀ r, p r = true → r.userId = some id) →
      (db.withoutSources user).submissions.select p = db.submissions.select p := by
    intro db p id hid hp howner
    refine select_blanked hp fun r hr hu => ?_
    exact hown id hid (Option.some.inj ((howner r hr).symm.trans hu))
  have hcount : ∀ (db : Database) (p : SubmissionRow → Bool), (∀ r, p (withoutSource r) = p r) →
      (db.withoutSources user).submissions.count p = db.submissions.count p :=
    fun db p hp => count_blanked hp
  match q with
  | .randomToken | .passwordHash _ | .judge _ => exact hq.elim
  | .executeLocked _ s =>
      cases s with
      | insertSubmission problemId language code owner maximum maximumPerUser =>
          refine blind_insertSubmission _ _ _ _ ?_ _ _
          intro howner
          exact hown user (hq user howner) rfl
      | _ => exact hq.elim
  | .execute s =>
      cases s with
      | selectSessionUser _ | selectProblems _ | selectProblem _ _ | selectTests _ _ =>
          exact Blind.statement fun _ _ => rfl
      | countActive owner =>
          refine Blind.statement fun m db => ?_
          simp only [Statement.exec]
          rw [hcount _ _ fun _ => rfl]
      | selectHistory id problemId =>
          refine Blind.statement fun m db => ?_
          simp only [Statement.exec]
          rw [hselect _ _ id hq fun _ => rfl]
          intro r hr
          rw [Bool.and_eq_true, beq_iff_eq] at hr
          exact hr.1
      | selectActivity id =>
          refine Blind.statement fun m db => ?_
          simp only [Statement.exec]
          rw [hcount _ _ fun _ => rfl, hcount _ _ fun _ => rfl, hselect _ _ id hq fun _ => rfl]
          intro r hr
          exact beq_iff_eq.mp hr
      | selectStreak id =>
          refine Blind.statement fun m db => ?_
          simp only [Statement.exec]
          rw [hselect _ _ id hq fun _ => rfl]
          · rfl
          · intro r hr
            rw [Bool.and_eq_true, beq_iff_eq] at hr
            exact hr.1
      | selectCompletedProblems id =>
          refine Blind.statement fun m db => ?_
          simp only [Statement.exec]
          rw [hselect _ _ id hq fun _ => rfl]
          intro r hr
          rw [Bool.and_eq_true, beq_iff_eq] at hr
          exact hr.1
      | _ => exact hq.elim

end blind

/-! ## Looking a submission up -/

section lookup
variable {server : Server} {request : HttpRequest} {user : Int} {db db' : Database}

/-- What the lookup of a submission shows. -/
def lookupResponse : Except RepositoryError (Option SubmissionRecord) → HttpResponse
  | .error _ => errorResponse "Submission could not be retrieved" 500
  | .ok none => errorResponse "Submission not found" 404
  | .ok (some submission) => jsonResponse (submissionToJson submission true)

/-- `find` on a server that answers. -/
theorem run_find {P : Platform} {id : Int} {w : World Choice Database}
    (hcalm : (w.choices 0).failure = none) :
    (PostgreSQLSubmissionRepository.find P id).run (serve P) w
      = (.ok (PostgreSQLSubmissionRepository.optionalRecord P (w.state.submissions.select (·.id == id))),
        w.advance w.state) := by
  unfold PostgreSQLSubmissionRepository.find
  rw [run_execute]
  simp only [serveStatement, hcalm, Statement.exec]
  rfl

/-- A lookup that reaches the server shows the row with the id. -/
theorem respond_lookup {rawId : String} {id : Int} (hid : positiveId rawId = some id)
    {choices : Nat → Choice} (hcalm : (choices 0).failure = none) :
    (respond server (.getSubmission rawId) request choices db).1 = .ok (lookupResponse
      (PostgreSQLSubmissionRepository.optionalRecord server.P
        (db.submissions.select (·.id == id)))) := by
  show ((Handlers.getSubmission server rawId).run (serve server.P) ⟨choices, db⟩).1 = _
  unfold Handlers.getSubmission SubmissionService.find
  rw [hid, Program.run_bind, Program.run_bind, run_find hcalm]
  match PostgreSQLSubmissionRepository.optionalRecord server.P
      (db.submissions.select (·.id == id)) with
  | .error _ | .ok none | .ok (some _) => rfl

/-- A lookup that is refused, or does not reach the server, is answered the same in every state. -/
theorem respond_no_lookup {rawId : String} {choices : Nat → Choice}
    (h : positiveId rawId = none ∨ (choices 0).failure.isSome = true) :
    (respond server (.getSubmission rawId) request choices db).1
      = (respond server (.getSubmission rawId) request choices db').1 := by
  show ((Handlers.getSubmission server rawId).run (serve server.P) ⟨choices, db⟩).1
    = ((Handlers.getSubmission server rawId).run (serve server.P) ⟨choices, db'⟩).1
  unfold Handlers.getSubmission
  cases hid : positiveId rawId with
  | none => rfl
  | some id =>
      obtain ⟨f, hf⟩ := Option.isSome_iff_exists.mp (h.resolve_left (by simp [hid]))
      have hfail : ∀ d : Database,
          (PostgreSQLSubmissionRepository.find server.P id).run (serve server.P) ⟨choices, d⟩
            = (.ok (.error (PostgreSQLSubmissionRepository.failure "Could not retrieve submission"
                (.failed (ρ := SubmissionRow) .fault (choices 0).message))),
              (World.mk choices d).advance d) := by
        intro d
        unfold PostgreSQLSubmissionRepository.find
        rw [run_execute]
        simp only [serveStatement, hf]
        rfl
      unfold SubmissionService.find
      simp only [Program.run_bind, hfail]
      rfl

/-- The `code` that a body shows. -/
def shownCode (response : HttpResponse) : Option Json :=
  match response.body with
  | some (.object members) => members.lookup "code"
  | _ => none

theorem shownCode_record (x : SubmissionRecord) :
    shownCode (jsonResponse (submissionToJson x true)) = some (.string x.sourceCode) := by
  unfold submissionToJson
  cases x.verdict <;> cases x.completedAt <;> cases x.errorType <;> rfl

/-- In two states that differ in sources only, an id selects rows that differ in the source only. -/
theorem SameButSources.select (h : SameButSources user db db') (id : Int) :
    (db.submissions.select (·.id == id)).map (fun r => if isOwnedBy user r then withoutSource r else r)
      = (db'.submissions.select (·.id == id)).map
          (fun r => if isOwnedBy user r then withoutSource r else r) := by
  have hsubmissions : blanked user db.submissions = blanked user db'.submissions :=
    congrArg Database.submissions h
  have hselect : (blanked user db.submissions).select (·.id == id)
      = (blanked user db'.submissions).select (·.id == id) := by rw [hsubmissions]
  have hkept : ∀ r, ((withoutSource r).id == id) = (r.id == id) := fun _ => rfl
  unfold blanked at hselect
  rwa [Table.select_update hkept, Table.select_update hkept] at hselect

/-- Rows that are equal once blanked are equal if their sources are. -/
theorem eq_of_blanked {r r' : SubmissionRow} (hs : r.sourceCode = r'.sourceCode)
    (h : (if isOwnedBy user r then withoutSource r else r)
      = if isOwnedBy user r' then withoutSource r' else r') : r = r' := by
  have hrestore : ∀ x : SubmissionRow,
      x = { (if isOwnedBy user x then withoutSource x else x) with sourceCode := x.sourceCode } := by
    intro x
    split <;> rfl
  rw [hrestore r, hrestore r', h, hs]

end lookup

/-! ## Every route -/

/-- The request is no lookup of a submission whose source the two states disagree on. -/
def SameLookedUp (route : Route) (choices : Nat → Choice) (db db' : Database) : Prop :=
  ∀ rawId id, route = .getSubmission rawId → positiveId rawId = some id →
    (choices 0).failure = none → ∀ r ∈ db.submissions, ∀ r' ∈ db'.submissions,
      r.id = id → r'.id = id → r.sourceCode = r'.sourceCode

section routes
variable {server : Server} {route : Route} {request : HttpRequest} {choices : Nat → Choice}
  {user : Int} {db db' : Database}

/-- An account route answers alike in states that differ in sources. -/
theorem respond_account (hroute : route.group = .account) (hsame : SameButSources user db db') :
    (respond server route request choices db).1 = (respond server route request choices db').1 := by
  have hserve : ∀ q c s, accountProtocol.allowed () q → True →
      accountProtocol.admits () q (serve server.P q c s).1 ∧ True :=
    fun _ _ _ _ _ => ⟨trivial, trivial⟩
  have hchoices : (World.mk choices db).choices = (World.mk choices db').choices := rfl
  have hstart : (World.mk choices db).state.withoutSources user
      = (World.mk choices db').state.withoutSources user := hsame
  exact (Blind.run (I := fun _ => True) (dispatch_account hroute)
    (fun _ hq => AccountRequest.blind hq) hserve hchoices hstart trivial).1

/-- A visitor's route answers everyone but the user alike in states that differ in the user's sources. -/
theorem respond_visitor (hroute : route.group = .visitor) (hsame : SameButSources user db db')
    (hreq : ∀ u, requester server.P db request = some u → u.id ≠ user) :
    (respond server route request choices db).1 = (respond server route request choices db').1 := by
  let v : Visitor := ⟨request.cookie, (· ≠ user), true⟩
  have hserve : ∀ q c s, (v.protocol server.P).allowed () q →
      (∀ u, requester server.P s request = some u → u.id ≠ user) →
      (v.protocol server.P).admits () q (serve server.P q c s).1 ∧
        ∀ u, requester server.P (serve server.P q c s).2 request = some u → u.id ≠ user := by
    intro q c s hq hs
    refine ⟨Visitor.told rfl hq hs, ?_⟩
    rw [serve_requester hq]
    exact hs
  have hchoices : (World.mk choices db).choices = (World.mk choices db').choices := rfl
  have hstart : (World.mk choices db).state.withoutSources user
      = (World.mk choices db').state.withoutSources user := hsame
  have hfollows : (v.protocol server.P).Follows Ends () (dispatch server route request) :=
    dispatch_visitor hroute rfl fun _ => rfl
  exact (Blind.run hfollows (fun _ hq => Visitor.Asks.blind (fun _ h => h) hq) hserve hchoices hstart
    hreq).1

/-- Rows that are equal once blanked pass their constraints both or neither. -/
theorem check_of_blanked {r r' : SubmissionRow}
    (h : (if isOwnedBy user r then withoutSource r else r)
      = if isOwnedBy user r' then withoutSource r' else r') : r.check = r'.check := by
  have hcheck : ∀ x : SubmissionRow,
      (if isOwnedBy user x then withoutSource x else x).check = x.check := by
    intro x
    split <;> rfl
  rw [← hcheck r, h, hcheck]

/-- A lookup answers alike exactly if it shows no source that the states disagree on. -/
theorem respond_lookup_iff {rawId : String} (hsame : SameButSources user db db')
    (hchecked : db.Checked) :
    (respond server (.getSubmission rawId) request choices db).1.map HttpResponse.visible
        = (respond server (.getSubmission rawId) request choices db').1.map HttpResponse.visible
      ↔ SameLookedUp (.getSubmission rawId) choices db db' := by
  by_cases hlookup : positiveId rawId = none ∨ (choices 0).failure.isSome = true
  · refine ⟨fun _ => ?_, fun _ => by rw [respond_no_lookup hlookup]⟩
    rintro _ id ⟨⟩ hid hcalm
    rcases hlookup with h | h
    · rw [hid] at h
      cases h
    · rw [hcalm] at h
      cases h
  rw [not_or, Bool.not_eq_true, Option.isSome_eq_false_iff, Option.isNone_iff_eq_none] at hlookup
  obtain ⟨id, hid⟩ := Option.ne_none_iff_exists'.mp hlookup.1
  have hcalm := hlookup.2
  rw [respond_lookup hid hcalm, respond_lookup hid hcalm]
  have hselect := hsame.select id
  match hrows : db.submissions.select (·.id == id), hrows' : db'.submissions.select (·.id == id) with
  | [], [] =>
      refine ⟨fun _ => ?_, fun _ => rfl⟩
      rintro _ id' ⟨⟩ hid' - r hr - - hrid
      obtain rfl : id = id' := Option.some.inj (hid.symm.trans hid')
      have hnone := Table.select_eq_nil.mp hrows r hr
      simp [hrid] at hnone
  | [], _ :: _ =>
      rw [hrows, hrows'] at hselect
      cases hselect
  | _ :: _, [] =>
      rw [hrows, hrows'] at hselect
      cases hselect
  | r :: rest, r' :: rest' =>
      rw [hrows, hrows'] at hselect
      have hblanked := (List.cons.inj hselect).1
      have hr : r ∈ db.submissions ∧ r.id = id := by
        have hmem : r ∈ db.submissions.select (·.id == id) := hrows ▸ List.mem_cons_self
        obtain ⟨hr, hrid⟩ := Table.mem_select.mp hmem
        exact ⟨hr, beq_iff_eq.mp hrid⟩
      have hr' : r' ∈ db'.submissions ∧ r'.id = id := by
        have hmem : r' ∈ db'.submissions.select (·.id == id) := hrows' ▸ List.mem_cons_self
        obtain ⟨hr', hrid'⟩ := Table.mem_select.mp hmem
        exact ⟨hr', beq_iff_eq.mp hrid'⟩
      constructor
      · intro heq
        have hcheck : r.check = true := hchecked r hr.1
        have hcheck' : r'.check = true := (check_of_blanked hblanked).symm.trans hcheck
        obtain ⟨x, hx, hsource⟩ : ∃ x, PostgreSQLSubmissionRepository.record server.P r = .ok x ∧
            x.sourceCode = r.sourceCode := PostgreSQLSubmissionRepository.record_checked hcheck
        obtain ⟨x', hx', hsource'⟩ : ∃ x, PostgreSQLSubmissionRepository.record server.P r' = .ok x ∧
            x.sourceCode = r'.sourceCode := PostgreSQLSubmissionRepository.record_checked hcheck'
        simp only [PostgreSQLSubmissionRepository.optionalRecord, hx, hx', Except.map,
          lookupResponse, Except.ok.injEq] at heq
        -- the bodies show the sources
        have hbody := congrArg (fun visible => shownCode ⟨0, visible.2, [], []⟩) heq
        have hcode := (shownCode_record x).symm.trans (hbody.trans (shownCode_record x'))
        rintro _ id' ⟨⟩ hid' - s hs s' hs' hsid hsid'
        obtain rfl : id = id' := Option.some.inj (hid.symm.trans hid')
        obtain rfl : s = r := Table.eq_of_key hs hr.1 (hsid.trans hr.2.symm)
        obtain rfl : s' = r' := Table.eq_of_key hs' hr'.1 (hsid'.trans hr'.2.symm)
        rw [← hsource, ← hsource']
        exact Json.string.inj (Option.some.inj hcode)
      · intro hsources
        have hsource := hsources rawId id rfl hid hcalm r hr.1 r' hr'.1 hr.2 hr'.2
        obtain rfl : r = r' := eq_of_blanked hsource hblanked
        rfl

/-- **Whose sources a request shows.** On two states that differ only in the sources of a user's
    submissions, a request that does not carry the user's session is answered with the same status and
    body, outside the administrators' routes, exactly if it is no lookup, by its id, of a submission
    whose source differs. -/
theorem sources_private_iff (server : Server) (route : Route) (request : HttpRequest)
    (choices : Nat → Choice) {user : Int} {db db' : Database} (hsame : SameButSources user db db')
    (hchecked : db.Checked) (hroute : route.group ≠ .admin)
    (hreq : ∀ u, requester server.P db request = some u → u.id ≠ user) :
    (respond server route request choices db).1.map HttpResponse.visible
        = (respond server route request choices db').1.map HttpResponse.visible
      ↔ SameLookedUp route choices db db' := by
  cases hg : route.group with
  | account =>
      refine ⟨fun _ rawId id hr => ?_, fun _ => by rw [respond_account hg hsame]⟩
      rw [hr] at hg
      cases hg
  | visitor =>
      refine ⟨fun _ rawId id hr => ?_, fun _ => by rw [respond_visitor hg hsame hreq]⟩
      rw [hr] at hg
      cases hg
  | lookup =>
      cases route with
      | getSubmission rawId => exact respond_lookup_iff hsame hchecked
      | _ => cases hg
  | admin => exact absurd hg hroute

end routes

/-! ## An anonymous lookup -/

/-- A user's only submission, with this source. -/
def oneSubmission (source : String) : Database :=
  { Database.initial 0 with
      users := Table.empty.insert ⟨1, "alice", "hash", 0, false⟩
      submissions := Table.empty.insert
        ⟨1, "sum", "python", source, "queued", none, 0, none, some 1, none, none⟩ }

theorem oneSubmission_same (source source' : String) :
    SameButSources 1 (oneSubmission source) (oneSubmission source') := rfl

theorem oneSubmission_checked (source : String) : (oneSubmission source).Checked := by
  rintro r hr
  obtain rfl : r = ⟨1, "sum", "python", source, "queued", none, 0, none, some 1, none, none⟩ :=
    List.mem_singleton.mp hr
  rfl

theorem oneSubmission_anonymous (source : String) (u : UserRow)
    (hu : requester .plain (oneSubmission source) {} = some u) : u.id ≠ 1 := by
  have hnone : requester .plain (oneSubmission source) {} = none := rfl
  rw [hnone] at hu
  cases hu

/-- An anonymous history answers the same, whatever the user submitted. -/
theorem sources_private_iff_history :
    (respond .plain (.submissionHistory "sum") {} (fun _ => .calm)
        (oneSubmission "print(1)")).1.map HttpResponse.visible
      = (respond .plain (.submissionHistory "sum") {} (fun _ => .calm)
        (oneSubmission "print(2)")).1.map HttpResponse.visible :=
  (sources_private_iff .plain (.submissionHistory "sum") {} (fun _ => .calm)
    (oneSubmission_same _ _) (oneSubmission_checked _) (by decide) (oneSubmission_anonymous _)).mpr
    fun _ _ h => (by cases h)

/-- **An anonymous lookup shows the source.** `GET /api/submissions/1` without a session is answered
    differently if the user's source is another one. -/
theorem lookup_discloses : ¬ ∀ (server : Server) (route : Route) (request : HttpRequest)
    (choices : Nat → Choice) (user : Int) (db db' : Database), SameButSources user db db' →
    db.Checked → route.group ≠ .admin →
    (∀ u, requester server.P db request = some u → u.id ≠ user) →
    (respond server route request choices db).1.map HttpResponse.visible
      = (respond server route request choices db').1.map HttpResponse.visible := by
  intro hclaim
  have hsame := hclaim .plain (.getSubmission "1") {} (fun _ => .calm) 1 (oneSubmission "print(1)")
    (oneSubmission "print(2)") (oneSubmission_same _ _) (oneSubmission_checked _) (by decide)
    (oneSubmission_anonymous _)
  have hcode := congrArg (fun answer => answer.toOption.bind fun visible =>
    (shownCode ⟨0, visible.2, [], []⟩).bind fun code => code.asString.toOption) hsame
  exact absurd hcode (by decide)

end AlgorithmTrainer
