import AlgorithmTrainer.Database.Queue
import AlgorithmTrainer.Lib.Trace
import AlgorithmTrainer.Submission.Repository

/-!
# `Submission.Lifecycle` — the life of a submission under the queue operations

`QueueCall` is a call of `create`, `claim_next`, `complete`, `fail`, `recover_running` or `retry`, and
`QueueStep` the step relation of a database on which such calls are made one after the other, by any
number of clients, with whatever the surroundings decide for each statement. `Issues` says once which
statements a call sends; `issued_spec` what each of them does to the rows. The invariant, the edges and
the permanence of submissions are assembled from it.
-/

namespace AlgorithmTrainer

open Interaction Transition Relational PostgreSQLSubmissionRepository

inductive QueueCall where
  | create (request : SubmissionRequest)
  | claimNext
  | complete (id : Int) (value : Verdict) (errorType : Option String)
  | fail (id : Int) (errorType : Option String)
  | recoverRunning
  | retry (id admin : Int)

/-- The member function that is called, its result forgotten. -/
def QueueCall.program (P : Platform) (limits : PostgreSQLRepositoryLimits) : QueueCall → Call Unit
  | .create request => do let _ ← PostgreSQLSubmissionRepository.create P limits request
  | .claimNext => do let _ ← PostgreSQLSubmissionRepository.claimNext P limits
  | .complete id value errorType => do
      let _ ← PostgreSQLSubmissionRepository.complete P id value errorType
  | .fail id errorType => do let _ ← PostgreSQLSubmissionRepository.fail P id errorType
  | .recoverRunning => do let _ ← PostgreSQLSubmissionRepository.recoverRunning
  | .retry id admin => do let _ ← PostgreSQLSubmissionRepository.retry P limits id admin

/-- The status change a call may make: from, and to. -/
def QueueCall.edge : QueueCall → Option (String × String)
  | .create _ => none
  | .claimNext => some ("queued", "running")
  | .complete .. => some ("running", "completed")
  | .fail .. => some ("running", "failed")
  | .recoverRunning => some ("running", "queued")
  | .retry .. => none

/-- What a call sends. -/
inductive Issues (limits : PostgreSQLRepositoryLimits) : QueueCall → BackendRequest → Prop where
  | create (r : SubmissionRequest) : Issues limits (.create r) (.executeLocked admissionLock
      (.insertSubmission (text r.problemId) (text r.language) (text r.code) r.userId
        limits.maximumActiveSubmissions limits.maximumActiveSubmissionsPerUser))
  | count (r : SubmissionRequest) : Issues limits (.create r) (.execute (.countActive r.userId))
  | claimNext : Issues limits .claimNext (.executeLocked claimLock
      (.claimSubmission limits.maximumRunningSubmissionsPerUser))
  | complete (id : Int) (v : Verdict) (e : Option String) : Issues limits (.complete id v e)
      (.execute (.completeSubmission (text (verdictName v)) (e.map text) id))
  | fail (id : Int) (e : Option String) : Issues limits (.fail id e)
      (.execute (.failSubmission (e.map text) id))
  | recoverRunning : Issues limits .recoverRunning (.execute .recoverRunning)
  | retry (id admin : Int) : Issues limits (.retry id admin) (.executeLocked admissionLock
      (.retrySubmission id limits.maximumActiveSubmissions limits.maximumActiveSubmissionsPerUser
        admin))

/-- A call sends only what `Issues` says. -/
theorem QueueCall.program_follows (P : Platform) (limits : PostgreSQLRepositoryLimits)
    (c : QueueCall) :
    (Protocol.only (Issues limits c)).Follows (fun _ _ => True) () (c.program P limits) := by
  cases c with
  | create request =>
      refine ⟨.create request, fun result _ => ?_⟩
      match result with
      | .tuples [row] => trivial
      | .tuples [] => exact ⟨.count request, fun _ _ => trivial⟩
      | .tuples (_ :: _ :: _) => exact ⟨.count request, fun _ _ => trivial⟩
      | .none => trivial
      | .failed _ _ => trivial
      | .command => trivial
  | claimNext =>
      refine ⟨.claimNext, fun result _ => ?_⟩
      cases result <;> trivial
  | complete id value errorType => exact ⟨.complete id value errorType, fun _ _ => trivial⟩
  | fail id errorType => exact ⟨.fail id errorType, fun _ _ => trivial⟩
  | recoverRunning =>
      refine ⟨.recoverRunning, fun result _ => ?_⟩
      cases result <;> trivial
  | retry id admin =>
      refine ⟨.retry id admin, fun result _ => ?_⟩
      match result with
      | .tuples [row] => trivial
      | .tuples [] => trivial
      | .tuples (_ :: _ :: _) => trivial
      | .none => trivial
      | .failed _ _ => trivial
      | .command => trivial

/-! ## What one statement does to the rows -/

/-- The same submission: everything that is fixed at its insertion. -/
structure SameSubmission (r r' : SubmissionRow) : Prop where
  id : r'.id = r.id
  problemId : r'.problemId = r.problemId
  language : r'.language = r.language
  sourceCode : r'.sourceCode = r.sourceCode
  userId : r'.userId = r.userId
  createdAt : r'.createdAt = r.createdAt
  retryOf : r'.retryOf = r.retryOf

theorem SameSubmission.refl (r : SubmissionRow) : SameSubmission r r :=
  ⟨rfl, rfl, rfl, rfl, rfl, rfl, rfl⟩

theorem SameSubmission.trans {a b c : SubmissionRow} (h : SameSubmission a b)
    (h' : SameSubmission b c) : SameSubmission a c :=
  ⟨h'.id.trans h.id, h'.problemId.trans h.problemId, h'.language.trans h.language,
    h'.sourceCode.trans h.sourceCode, h'.userId.trans h.userId, h'.createdAt.trans h.createdAt,
    h'.retryOf.trans h.retryOf⟩

/-- Every row is still there, unchanged or moved along the edge. -/
def Moves (edge : Option (String × String)) (db db' : Database) : Prop :=
  ∀ r ∈ db.submissions, ∃ r' ∈ db'.submissions,
    SameSubmission r r' ∧ (r' = r ∨ edge = some (r.status, r'.status))

theorem Moves.of_eq {edge : Option (String × String)} {db db' : Database}
    (h : db'.submissions = db.submissions) : Moves edge db db' :=
  fun r hr => ⟨r, h ▸ hr, .refl r, Or.inl rfl⟩

/-- Moves along one edge compose, since no edge ends where it begins. -/
theorem Moves.trans {edge : Option (String × String)} (hedge : ∀ a b, edge = some (a, b) → a ≠ b)
    {db₁ db₂ db₃ : Database} (h : Moves edge db₁ db₂) (h' : Moves edge db₂ db₃) :
    Moves edge db₁ db₃ := by
  intro r hr
  obtain ⟨r', hr', hsame, hstep⟩ := h r hr
  obtain ⟨r'', hr'', hsame', hstep'⟩ := h' r' hr'
  refine ⟨r'', hr'', hsame.trans hsame', ?_⟩
  rcases hstep with rfl | hstep
  · exact hstep'
  · rcases hstep' with rfl | hstep'
    · exact Or.inr hstep
    · have hends := Prod.mk.inj (Option.some.inj (hstep.symm.trans hstep'))
      exact absurd hends.1 (hedge _ _ hstep)

theorem QueueCall.edge_ne (c : QueueCall) (a b : String) (h : c.edge = some (a, b)) : a ≠ b := by
  cases c <;> cases h <;> decide

theorem Moves.update {edge : Option (String × String)} {db : Database}
    {p : SubmissionRow → Bool} {f : SubmissionRow → SubmissionRow}
    {hf : ∀ r, p r = true → (f r).id = r.id}
    (h : ∀ r, p r = true → SameSubmission r (f r) ∧ edge = some (r.status, (f r).status)) :
    Moves edge db { db with submissions := db.submissions.update p f hf } := by
  intro r hr
  refine ⟨_, Table.mem_update_of_mem hf hr, ?_⟩
  by_cases hp : p r = true
  · rw [if_pos hp]; exact ⟨(h r hp).1, Or.inr (h r hp).2⟩
  · rw [if_neg hp]; exact ⟨.refl r, Or.inl rfl⟩

/-- The commit of a plan moves along the edge of the call that sent the statement. -/
theorem Moves.commit {l : Int → Bool} {db : Database} {s : LockedStatement} {e : Changes}
    {rows : List SubmissionRow} (h : Planned l db s e rows) {edge : Option (String × String)}
    (hedge : s.admission = none → edge = some ("queued", "running")) :
    Moves edge db (e.apply db) := by
  intro r hr
  obtain ⟨r', hr', hstep⟩ := apply_mem (e := e) hr
  refine ⟨r', hr', ?_⟩
  rcases hstep with rfl | ⟨hupd, hid⟩
  · exact ⟨.refl _, Or.inl rfl⟩
  · cases h with
    | nothing => cases hupd
    | admitted => cases hupd
    | @claimed limit x hx =>
        cases hupd
        obtain ⟨hmem, hqueued, -⟩ := candidate_some hx
        obtain rfl : x = r := Table.eq_of_key hmem hr hid
        exact ⟨⟨rfl, rfl, rfl, rfl, rfl, rfl, rfl⟩, Or.inr (by rw [hqueued]; exact hedge rfl)⟩

/-- The server rejected the call's statement because of a `CHECK` constraint. -/
def CheckRejected : Exchange Backend → Prop
  | ⟨.execute _, reply⟩ => ∃ m, reply = .failed .checkViolation m
  | ⟨.executeLocked _ _, reply⟩ => ∃ m, reply = .failed .checkViolation m
  | _ => False

/-- What a statement of a call does: the rows still pass their constraints, they moved along the call's
    edge, and the statement was not rejected by a `CHECK` constraint. -/
structure Orderly (c : QueueCall) (db : Database) (q : BackendRequest) (reply : q.Reply)
    (db' : Database) : Prop where
  checked : db'.Checked
  moves : Moves c.edge db db'
  accepted : ¬ CheckRejected ⟨q, reply⟩

section orderly
variable {P : Platform} {limits : PostgreSQLRepositoryLimits} {c : QueueCall} {db : Database}

/-- A statement by itself, where it fails without effect or is executed in an orderly way. -/
theorem serveStatement_orderly {s : Statement} (hdb : db.Checked) (ch : Choice)
    (h : Orderly c db (.execute s) (s.exec P ch.message db).2 (s.exec P ch.message db).1) :
    Orderly c db (.execute s) (serveStatement P s ch db).1 (serveStatement P s ch db).2 := by
  rcases serveStatement_cases (P := P) s ch db with ⟨-, hs⟩ | ⟨-, hs⟩
  · rw [hs]
    exact ⟨hdb, .of_eq rfl, by rintro ⟨m, hm⟩; cases hm⟩
  · rw [hs]
    exact h

theorem serveLocked_orderly {lock : Int} {s : LockedStatement} (hdb : db.Checked) (ch : Choice)
    (hedge : s.admission = none → c.edge = some ("queued", "running")) :
    Orderly c db (.executeLocked lock s) (serveLocked s ch db).1 (serveLocked s ch db).2 := by
  rcases serveLocked_cases s ch db with
    ⟨hdb', -, hne⟩ | ⟨hdb', hreply⟩ | ⟨state, hplan, hdb', hreply⟩ | ⟨e, rows, hplan, -, heq⟩
  · exact ⟨by rw [hdb']; exact hdb, .of_eq (by rw [hdb']), fun ⟨m, hm⟩ => hne m hm⟩
  · refine ⟨hdb.of_eq ?_, .of_eq ?_, ?_⟩
    · rw [hdb', plan_submissions]
    · rw [hdb', plan_submissions]
    · rintro ⟨m, hm⟩; rw [hreply] at hm; cases hm
  · refine ⟨hdb.of_eq ?_, .of_eq ?_, ?_⟩
    · rw [hdb', plan_submissions]
    · rw [hdb', plan_submissions]
    · rintro ⟨m, hm⟩
      rw [hreply] at hm
      cases hm
      exact plan_not_check hdb hplan
  · rw [heq]
    refine ⟨(hdb.commit (plan_ok hplan)).of_eq (apply_plan_submissions e), ?_, ?_⟩
    · have hmoves := Moves.commit (plan_ok hplan) hedge
      intro r hr
      simpa only [apply_plan_submissions] using hmoves r hr
    · rintro ⟨m, hm⟩; cases hm

/-- **What a statement of a queue call does**, whatever the surroundings decide. -/
theorem issued_orderly {q : BackendRequest} (hq : Issues limits c q) (hdb : db.Checked)
    (ch : Choice) : Orderly c db q (serve P q ch db).1 (serve P q ch db).2 := by
  cases hq with
  | create r => exact serveLocked_orderly hdb ch nofun
  | count r => exact serveStatement_orderly hdb ch ⟨hdb, .of_eq rfl, by rintro ⟨m, hm⟩; cases hm⟩
  | claimNext => exact serveLocked_orderly hdb ch fun _ => rfl
  | complete id v e =>
      refine serveStatement_orderly hdb ch ?_
      rw [exec_complete]
      refine ⟨hdb.update fun r _ _ => r.check_completed v _ db.clock,
        .update fun r hr => ⟨⟨rfl, rfl, rfl, rfl, rfl, rfl, rfl⟩, ?_⟩,
        by rintro ⟨m, hm⟩; cases hm⟩
      rw [(runningRow_iff.mp hr).2]; rfl
  | fail id e =>
      refine serveStatement_orderly hdb ch ?_
      rw [exec_fail hdb]
      refine ⟨hdb.update fun r hr hp =>
          r.check_failed (hdb r hr) (runningRow_iff.mp hp).2 _ db.clock,
        .update fun r hr => ⟨⟨rfl, rfl, rfl, rfl, rfl, rfl, rfl⟩, ?_⟩,
        by rintro ⟨m, hm⟩; cases hm⟩
      rw [(runningRow_iff.mp hr).2]; rfl
  | recoverRunning =>
      refine serveStatement_orderly hdb ch ?_
      rw [exec_recover hdb]
      refine ⟨hdb.update fun r hr hp => r.check_recovered (hdb r hr) (anyRunning_iff.mp hp),
        .update fun r hr => ⟨⟨rfl, rfl, rfl, rfl, rfl, rfl, rfl⟩, ?_⟩,
        by rintro ⟨m, hm⟩; cases hm⟩
      rw [anyRunning_iff.mp hr]; rfl
  | retry id admin => exact serveLocked_orderly hdb ch nofun

/-! ## Calls -/

/-- A call keeps the constraints and moves rows along its edge only. -/
theorem QueueCall.run_orderly (P : Platform) (limits : PostgreSQLRepositoryLimits)
    (c : QueueCall) (hdb : db.Checked) (choices : Nat → Choice) :
    ((c.program P limits).run (serve P) ⟨choices, db⟩).2.state.Checked ∧
      Moves c.edge db ((c.program P limits).run (serve P) ⟨choices, db⟩).2.state := by
  have hfollows := c.program_follows P limits
  obtain ⟨-, -, h⟩ := hfollows.run (V := serve P) (w := ⟨choices, db⟩)
    (I := fun _ d => d.Checked ∧ Moves c.edge db d)
    (fun _ q ch d hq hd => ⟨trivial, (issued_orderly hq hd.1 ch).checked,
      hd.2.trans c.edge_ne (issued_orderly hq hd.1 ch).moves⟩) ⟨hdb, .of_eq rfl⟩
  exact h

/-- No statement of a call is rejected by a `CHECK` constraint. -/
theorem QueueCall.log_accepted (hdb : db.Checked) (choices : Nat → Choice) :
    ∀ x ∈ (c.program P limits).log (serve P) ⟨choices, db⟩, ¬ CheckRejected x :=
  (c.program_follows P limits).log (V := serve P) (I := fun _ d => d.Checked)
    (fun _ _ ch _ hq hd => ⟨trivial, (issued_orderly hq hd ch).checked⟩)
    (fun _ _ ch _ hq hd => (issued_orderly hq hd ch).accepted) hdb

end orderly

/-! ## Runs -/

/-- A step of the queue: a call, by a client with its limits, or the passing of time. -/
inductive QueueLabel where
  | call (limits : PostgreSQLRepositoryLimits) (c : QueueCall) (choices : Nat → Choice)
  | pass (elapsed : Nat)

/-- The database after a step. -/
def QueueLabel.next (P : Platform) : QueueLabel → Database → Database
  | .call limits c choices, db => ((c.program P limits).run (serve P) ⟨choices, db⟩).2.state
  | .pass elapsed, db => { db with clock := db.clock + elapsed }

def QueueStep (P : Platform) (db : Database) (l : QueueLabel) (db' : Database) : Prop :=
  db' = l.next P db

section runs
variable {P : Platform} {db₀ db db' : Database} {h : List QueueLabel}

theorem QueueStep.checked {l : QueueLabel} (hdb : db.Checked) (hs : QueueStep P db l db') :
    db'.Checked := by
  cases hs
  cases l with
  | call limits c choices => exact (c.run_orderly P limits hdb choices).1
  | pass elapsed => exact hdb.of_eq rfl

theorem checked_of_run (h₀ : db₀.submissions = .empty) (hrun : Run (QueueStep P) db₀ h db) :
    db.Checked :=
  hrun.invariant (I := fun _ d => d.Checked)
    (fun r hr => absurd (h₀ ▸ hr) (Table.not_mem_empty r))
    fun _ _ _ _ hd _ hs => hs.checked hd

/-- From checked rows, a run keeps every submission. -/
theorem permanent_of_run (hdb : db.Checked) (hrun : Run (QueueStep P) db h db') :
    ∀ r ∈ db.submissions, ∃ r' ∈ db'.submissions, SameSubmission r r' := by
  have hkeep : db'.Checked ∧ ∀ r ∈ db.submissions, ∃ r' ∈ db'.submissions, SameSubmission r r' :=
    hrun.invariant
      (I := fun _ d => d.Checked ∧ ∀ r ∈ db.submissions, ∃ r' ∈ d.submissions, SameSubmission r r')
      ⟨hdb, fun r hr => ⟨r, hr, .refl r⟩⟩ fun _ d l d' hd _ hs => by
        refine ⟨hs.checked hd.1, fun r hr => ?_⟩
        obtain ⟨r', hr', hsame⟩ := hd.2 r hr
        cases hs
        cases l with
        | call limits c choices =>
            obtain ⟨r'', hr'', hsame', -⟩ :=
              (c.run_orderly P limits hd.1 choices).2 r' hr'
            exact ⟨r'', hr'', hsame.trans hsame'⟩
        | pass elapsed => exact ⟨r', hr', hsame⟩
  exact hkeep.2

end runs

/-- What a row looks like in each status. -/
structure SubmissionRow.Lifecycle (r : SubmissionRow) : Prop where
  status : r.status ∈ ["queued", "running", "completed", "failed"]
  active : r.status = "queued" ∨ r.status = "running" → r.verdict = none ∧ r.completedAt = none
  completed : r.status = "completed" → r.verdict.isSome ∧ r.completedAt.isSome
  failed : r.status = "failed" → r.completedAt.isSome ∧ r.verdict = none

theorem SubmissionRow.lifecycle_of_check {r : SubmissionRow} (h : r.check = true) :
    r.Lifecycle := by
  rw [check_iff] at h
  obtain ⟨-, ⟨hs | hs, hv, hc⟩ | ⟨hs, hv, hc⟩ | ⟨hs, hv, hc⟩⟩ := h <;>
    constructor <;> simp [hs, hv, hc]

/-- The submission has been judged or has failed. -/
def SubmissionRow.terminal (r : SubmissionRow) : Prop := r.status = "completed" ∨ r.status = "failed"

/-- A row moved along an edge of the queue was active. -/
theorem QueueCall.edge_active {c : QueueCall} {r : SubmissionRow} {s : String}
    (h : c.edge = some (r.status, s)) : ¬ r.terminal := by
  rintro (hr | hr) <;> rw [hr] at h <;> cases c <;> simp [QueueCall.edge] at h

/-- **The life of a submission.** In every run of queue calls from an empty table, in every state: each
    row has the columns its status calls for, and no statement of a next call is rejected by a `CHECK`
    constraint; a next call changes the status of a row only along its own edge, and leaves a completed
    or failed row as it is; and whatever run follows, no row disappears and what was fixed at its
    insertion never changes. -/
theorem submission_lifecycle {P : Platform} {db₀ db : Database} {h : List QueueLabel}
    (h₀ : db₀.submissions = .empty) (hrun : Run (QueueStep P) db₀ h db) :
    (∀ r ∈ db.submissions, r.Lifecycle) ∧
    (∀ limits (c : QueueCall) choices,
      ∀ x ∈ (c.program P limits).log (serve P) ⟨choices, db⟩, ¬ CheckRejected x) ∧
    (∀ limits (c : QueueCall) choices, ∀ r ∈ db.submissions,
      ∃ r' ∈ ((QueueLabel.call limits c choices).next P db).submissions,
        r'.id = r.id ∧ (r' = r ∨ c.edge = some (r.status, r'.status)) ∧
          (r.terminal → r' = r)) ∧
    (∀ h' db', Run (QueueStep P) db h' db' →
      ∀ r ∈ db.submissions, ∃ r' ∈ db'.submissions, SameSubmission r r') := by
  have hdb := checked_of_run h₀ hrun
  refine ⟨fun r hr => SubmissionRow.lifecycle_of_check (hdb r hr),
    fun limits c choices => QueueCall.log_accepted hdb choices, fun limits c choices r hr => ?_,
    fun h' db' hrun' => permanent_of_run hdb hrun'⟩
  obtain ⟨r', hr', hsame, hstep⟩ :=
    (c.run_orderly P limits hdb choices).2 r hr
  refine ⟨r', hr', hsame.id, hstep, fun hterm => ?_⟩
  rcases hstep with heq | hedge
  · exact heq
  · exact absurd hterm (QueueCall.edge_active hedge)

/-- The migrated tables after a submission was created and claimed. -/
def createdAndClaimed : Database :=
  (QueueLabel.call .unconfigured .claimNext fun _ => .calm).next .plain
    ((QueueLabel.call .unconfigured (.create ⟨"a-plus-b", "python", "pass", none⟩)
      fun _ => .calm).next .plain (.initial 0))

theorem submission_lifecycle_claimed : createdAndClaimed.submissions.rows.map (·.status) = ["running"]
    ∧ ∀ r ∈ createdAndClaimed.submissions, r.Lifecycle :=
  ⟨by decide, (@submission_lifecycle .plain (.initial 0) _ _ rfl
    (Run.next (Run.next .start rfl) rfl)).1⟩

end AlgorithmTrainer
