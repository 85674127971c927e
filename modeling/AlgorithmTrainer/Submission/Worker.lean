import AlgorithmTrainer.Database.Queue
import AlgorithmTrainer.Submission.Repository

/-!
# `Submission.Worker` — `SubmissionWorkerPool::process_one`

`processOne` claims a submission, has it judged, and reports the outcome. `processOne_settles` says
exactly when the claimed submission is in a terminal state afterwards: the path that completes falls back
to `fail`, but the paths that only `fail` have no second try.
-/

namespace AlgorithmTrainer

open Interaction Relational PostgreSQLSubmissionRepository

inductive WorkResult where
  | repositoryError
  | idle
  | processed
deriving DecidableEq, Repr

/-- `Judge::run`: it answers or throws. -/
def runJudge (request : JudgeRequest) : Call JudgeResult := do
  let judged ← Program.ask (S := Backend) (.judge request)
  match judged with
  | .ok result => pure result
  | .error e => throw e

/-- The local `complete`: a result that cannot be stored fails the submission. -/
def report (P : Platform) (id : Int) (verdict : Verdict) (errorType : Option String := none) :
    Call Unit := do
  let result ← PostgreSQLSubmissionRepository.complete P id verdict errorType
  match result with
  | .error _ =>
      let _ ← PostgreSQLSubmissionRepository.fail P id (some "Result Persistence Error")
  | .ok _ => pure ()

/-- What is done with the judge's answer. -/
def reportJudged (P : Platform) (id : Int) : JudgeResult → Call WorkResult
  | .judgeError _ => do
      let _ ← PostgreSQLSubmissionRepository.fail P id (some "Sandbox Error")
      pure .processed
  | .runtimeError type => do
      report P id .runtimeError (some type)
      pure .processed
  | .verdict value => do
      report P id value
      pure .processed

/-- What is done with a claimed submission. -/
def judgeClaimed (P : Platform) (submission : SubmissionRecord) : Call WorkResult :=
  tryCatch
    (do
      let judged ← runJudge
        ⟨submission.problemId, submission.language, submission.sourceCode⟩
      reportJudged P submission.id judged)
    -- `catch (const std::exception &)` and `catch (...)` do the same
    fun _ => do
      let _ ← PostgreSQLSubmissionRepository.fail P submission.id (some "Worker Error")
      pure .processed

def processOne (P : Platform) (limits : PostgreSQLRepositoryLimits) : Call WorkResult := do
  let claimed ← claimNext P limits
  match claimed with
  | .error _ => pure .repositoryError
  | .ok none => pure .idle
  | .ok (some submission) => judgeClaimed P submission

/-! ## Single calls -/

section calls
variable {P : Platform} {limits : PostgreSQLRepositoryLimits} {w : World Choice Database}

theorem verdict_verdictName (v : Verdict) : verdict (verdictName v) = some v := by
  cases v <;> rfl

/-- A completed row reads back. -/
theorem record_completed (r : SubmissionRow) (v : Verdict) (e : Option String) (t : Timestamp) :
    ∃ x, record P (completedRow (verdictName v) e t r) = .ok x := by
  simp [record, completedRow, status, verdict_verdictName]

/-- The running row with an id is selected alone. -/
theorem select_running {db : Database} {r : SubmissionRow} (hr : r ∈ db.submissions)
    (hs : r.status = "running") : db.submissions.select (runningRow r.id) = [r] :=
  Table.select_eq_singleton hr (runningRow_iff.mpr ⟨rfl, hs⟩)
    fun _ _ hp => (runningRow_iff.mp hp).1

/-- A call that fails leaves the database and returns an error. -/
theorem run_fail_fault (id : Int) (e : Option String) (hc : (w.choices 0).failure.isSome = true) :
    ∃ error, (PostgreSQLSubmissionRepository.fail P id e).run (serve P) w
      = (.ok (.error error), w.advance w.state) := by
  obtain ⟨f, hf⟩ := Option.isSome_iff_exists.mp hc
  simp [PostgreSQLSubmissionRepository.fail, serveStatement, hf, transition]

theorem run_complete_fault (id : Int) (v : Verdict) (e : Option String)
    (hc : (w.choices 0).failure.isSome = true) :
    ∃ error, (PostgreSQLSubmissionRepository.complete P id v e).run (serve P) w
      = (.ok (.error error), w.advance w.state) := by
  obtain ⟨f, hf⟩ := Option.isSome_iff_exists.mp hc
  simp [PostgreSQLSubmissionRepository.complete, serveStatement, hf, transition]

/-- A `fail` that reaches the server marks the row as failed, if it is running. -/
theorem run_fail_calm (hdb : w.state.Checked) (id : Int) (e : Option String)
    (hc : (w.choices 0).failure = none) :
    ∃ result, (PostgreSQLSubmissionRepository.fail P id e).run (serve P) w
      = (.ok result, w.advance { w.state with
          submissions := w.state.submissions.update (runningRow id)
            (failedRow (e.map text) w.state.clock) }) := by
  simp [PostgreSQLSubmissionRepository.fail, serveStatement, hc, exec_fail hdb]

/-- A `complete` that reaches the server marks the running row as completed, and succeeds. -/
theorem run_complete_calm {r : SubmissionRow} (hr : r ∈ w.state.submissions)
    (hs : r.status = "running") (v : Verdict) (e : Option String)
    (hc : (w.choices 0).failure = none) :
    ∃ x, (PostgreSQLSubmissionRepository.complete P r.id v e).run (serve P) w
      = (.ok (.ok x), w.advance { w.state with
          submissions := w.state.submissions.update (runningRow r.id)
            (completedRow (verdictName v) (e.map text) w.state.clock) }) := by
  obtain ⟨x, hx⟩ := record_completed (P := P) r v (e.map text) w.state.clock
  refine ⟨x, ?_⟩
  simp [PostgreSQLSubmissionRepository.complete, serveStatement, hc,
    exec_complete, select_running hr hs, transition, hx]

/-- A claim that returned a submission has committed its row as running. -/
theorem run_claimNext_some {x : SubmissionRecord} (hdb : w.state.Checked)
    (h : ((claimNext P limits).run (serve P) w).1 = .ok (.ok (some x))) :
    ∃ db r, (claimNext P limits).run (serve P) w = (.ok (.ok (some x)), w.advance db)
      ∧ db.Checked ∧ r ∈ db.submissions ∧ r.id = x.id ∧ r.status = "running"
      ∧ ∃ r₀ ∈ w.state.submissions, r = claimedRow r₀ := by
  simp only [claimNext, run_executeLocked] at h ⊢
  rcases serveLocked_cases (.claimSubmission limits.maximumRunningSubmissionsPerUser)
      (w.choices 0) w.state with
    ⟨-, hno, -⟩ | ⟨-, hreply⟩ | ⟨state, -, -, hreply⟩ | ⟨e, rows, hplan, -, heq⟩
  · split at h
    · rename_i hrows; rw [hrows] at hno; cases hno
    · cases h
  · rw [hreply] at h; cases h
  · rw [hreply] at h; cases h
  · rw [heq] at h ⊢
    cases plan_ok hplan with
    | nothing => cases h
    | admitted hadm => obtain ⟨_, _, hnone, -⟩ := hadm.room; cases hnone
    | @claimed _ r hr =>
        obtain ⟨hmem, hqueued, -⟩ := candidate_some hr
        have hrecord : record P (claimedRow r) = .ok x := by
          simp only [optionalRecord, Program.pure_eq, Program.run_ret] at h
          cases hx : record P (claimedRow r) with
          | error e => rw [hx] at h; cases h
          | ok y => rw [hx] at h; cases h; rfl
        refine ⟨_, claimedRow r, Prod.ext h rfl, ?_, ?_, (record_columns hrecord).1.symm, rfl, r, hmem, rfl⟩
        · exact fun y hy => hdb.commit (plan_ok hplan) y (by simpa using hy)
        · rw [apply_plan_submissions]
          exact Table.mem_put.mpr (Or.inr ⟨rfl, r, hmem, rfl⟩)

/-- A submission that could be reported is completed, or failed by the fallback, unless both calls
    fail. -/
theorem run_report {r : SubmissionRow} (hdb : w.state.Checked) (hr : r ∈ w.state.submissions)
    (hs : r.status = "running") (v : Verdict) (e : Option String)
    (hc : (w.choices 0).failure = none ∨ (w.choices 1).failure = none) :
    ∃ w', (report P r.id v e).run (serve P) w = (.ok (), w') ∧ ∃ r' ∈ w'.state.submissions,
      r'.id = r.id ∧ (r'.status = "failed" ∨
        (r'.status = "completed" ∧ r'.verdict = some (verdictName v))) := by
  have hrun : runningRow r.id r = true := runningRow_iff.mpr ⟨rfl, hs⟩
  unfold report
  rw [Program.run_bind]
  cases hfail : (w.choices 0).failure with
  | none =>
      obtain ⟨x, hx⟩ := run_complete_calm (P := P) hr hs v e hfail
      rw [hx]
      exact ⟨_, rfl, completedRow (verdictName v) (e.map text) w.state.clock r,
        Table.mem_update_of_pos hr hrun, rfl, Or.inr ⟨rfl, rfl⟩⟩
  | some f =>
      obtain ⟨error, hx⟩ := run_complete_fault (P := P) r.id v e (by rw [hfail]; rfl)
      have hc' : ((w.advance w.state).choices 0).failure = none :=
        hc.resolve_left (by rw [hfail]; nofun)
      obtain ⟨result, hy⟩ :=
        run_fail_calm (P := P) (w := w.advance w.state) hdb r.id (some "Result Persistence Error") hc'
      rw [hx]
      simp only [Program.run_bind, hy]
      exact ⟨_, rfl, failedRow (some (text "Result Persistence Error")) w.state.clock r,
        Table.mem_update_of_pos hr hrun, rfl, Or.inl rfl⟩

end calls

/-! ## The outcome of a claimed submission -/

/-- The verdict that the judge's answer leads to. -/
def judgedVerdict : Except Exception JudgeResult → Option Verdict
  | .ok (.verdict v) => some v
  | .ok (.runtimeError _) => some .runtimeError
  | _ => none

/-- The row is in a terminal state: failed, or completed with the verdict of the judge's answer. -/
def Settled (judged : Except Exception JudgeResult) (r : SubmissionRow) : Prop :=
  r.status = "failed" ∨
    (r.status = "completed" ∧ ∃ v, judgedVerdict judged = some v ∧ r.verdict = some (verdictName v))

section settle
variable {P : Platform} {limits : PostgreSQLRepositoryLimits} {w : World Choice Database}
  {r : SubmissionRow} {x : SubmissionRecord}

/-- A single `fail` settles the row exactly if it reaches the server. -/
theorem fail_settles_iff (hdb : w.state.Checked) (hr : r ∈ w.state.submissions)
    (hs : r.status = "running") (e : Option String) (judged : Except Exception JudgeResult) :
    ∃ result w', (PostgreSQLSubmissionRepository.fail P r.id e).run (serve P) w = (.ok result, w') ∧
      ((∃ r' ∈ w'.state.submissions, r'.id = r.id ∧ Settled judged r') ↔
        (w.choices 0).failure = none) := by
  cases hfail : (w.choices 0).failure with
  | none =>
      obtain ⟨result, hx⟩ := run_fail_calm (P := P) hdb r.id e hfail
      exact ⟨result, _, hx, iff_of_true ⟨failedRow (e.map text) w.state.clock r,
        Table.mem_update_of_pos hr (runningRow_iff.mpr ⟨rfl, hs⟩), rfl, Or.inl rfl⟩ rfl⟩
  | some f =>
      obtain ⟨error, hx⟩ := run_fail_fault (P := P) r.id e (by rw [hfail]; rfl)
      refine ⟨.error error, _, hx, iff_of_false ?_ nofun⟩
      rintro ⟨r', hr', hid, hsettled⟩
      obtain rfl : r' = r := Table.eq_of_key hr' hr hid
      rcases hsettled with h | ⟨h, -⟩ <;> rw [hs] at h <;> exact absurd h (by decide)

/-- What is done with the judge's answer ends as processed, and settles the row exactly if the answer has
    a verdict or the one `fail` reaches the server. -/
theorem run_reportJudged (hdb : w.state.Checked) (hr : r ∈ w.state.submissions)
    (hs : r.status = "running")
    (hc : (w.choices 0).failure = none ∨ (w.choices 1).failure = none) (answer : JudgeResult) :
    ∃ w', (reportJudged P r.id answer).run (serve P) w = (.ok .processed, w') ∧
      ((∃ r' ∈ w'.state.submissions, r'.id = r.id ∧ Settled (.ok answer) r') ↔
        ((judgedVerdict (.ok answer)).isSome ∨ (w.choices 0).failure = none)) := by
  have hreport : ∀ v e, judgedVerdict (.ok answer) = some v →
      ∃ w', (do report P r.id v e; pure WorkResult.processed).run (serve P) w
          = (.ok .processed, w') ∧
        ((∃ r' ∈ w'.state.submissions, r'.id = r.id ∧ Settled (.ok answer) r') ↔
          ((judgedVerdict (.ok answer)).isSome ∨ (w.choices 0).failure = none)) := by
    intro v e hv
    obtain ⟨w', hx, r', hr', hid, hend⟩ := run_report (P := P) hdb hr hs v e hc
    refine ⟨w', by rw [Program.run_bind, hx]; rfl, iff_of_true ⟨r', hr', hid, ?_⟩ ?_⟩
    · exact hend.imp_right fun h => ⟨h.1, v, hv, h.2⟩
    · rw [hv]; exact Or.inl rfl
  cases answer with
  | judgeError message =>
      obtain ⟨result, w', hx, hiff⟩ :=
        fail_settles_iff (P := P) hdb hr hs (some "Sandbox Error") (.ok (.judgeError message))
      refine ⟨w', ?_, hiff.trans (by simp [judgedVerdict])⟩
      simp only [reportJudged, Program.run_bind, hx]
      rfl
  | runtimeError type => exact hreport .runtimeError (some type) rfl
  | verdict v => exact hreport v none rfl

theorem run_runJudge (request : JudgeRequest) :
    (runJudge request).run (serve P) w = ((w.choices 0).judged, w.advance w.state) := by
  simp only [runJudge, Program.ask_bind, Program.run_call, serve_judge]
  cases (w.choices 0).judged <;> rfl

/-- What is done with a claimed submission ends as processed, and settles its row exactly if the judge
    came to a verdict or the one `fail` reaches the server. -/
theorem run_judgeClaimed (hdb : w.state.Checked) (hr : r ∈ w.state.submissions) (hid : r.id = x.id)
    (hs : r.status = "running")
    (hc : (w.choices 1).failure = none ∨ (w.choices 2).failure = none) :
    ∃ w', (judgeClaimed P x).run (serve P) w = (.ok .processed, w') ∧
      ((∃ r' ∈ w'.state.submissions, r'.id = x.id ∧ Settled (w.choices 0).judged r') ↔
        ((judgedVerdict (w.choices 0).judged).isSome ∨ (w.choices 1).failure = none)) := by
  unfold judgeClaimed
  rw [← hid, Program.run_tryCatch, Program.run_bind, run_runJudge]
  cases (w.choices 0).judged with
  | ok answer =>
      obtain ⟨w', hx, hiff⟩ :=
        run_reportJudged (P := P) (w := w.advance w.state) hdb hr hs hc answer
      simp only [hx]
      exact ⟨w', rfl, hiff⟩
  | error e =>
      obtain ⟨result, w', hx, hiff⟩ :=
        fail_settles_iff (P := P) (w := w.advance w.state) hdb hr hs (some "Worker Error") (.error e)
      simp only [Program.run_bind, hx]
      exact ⟨w', rfl, hiff.trans (by simp [judgedVerdict, World.advance])⟩

/-- **When a claimed submission ends in a terminal state.** Let `process_one` claim a submission, on rows
    that pass their constraints, and let at most one of the repository calls after the claim fail. It
    returns `processed`; and the row is then failed, or completed with the judge's verdict, exactly if
    the judge came to a verdict or the first call after the judge does not fail. -/
theorem processOne_settles (hdb : w.state.Checked)
    (hclaim : ((claimNext P limits).run (serve P) w).1 = .ok (.ok (some x)))
    (hfault : ∀ i j, 2 ≤ i → 2 ≤ j → (w.choices i).failure.isSome = true →
      (w.choices j).failure.isSome = true → i = j) :
    ((processOne P limits).run (serve P) w).1 = .ok .processed ∧
      ((∃ r' ∈ ((processOne P limits).run (serve P) w).2.state.submissions,
          r'.id = x.id ∧ Settled (w.choices 1).judged r') ↔
        ((judgedVerdict (w.choices 1).judged).isSome ∨ (w.choices 2).failure = none)) := by
  obtain ⟨db, r, hrun, hdb', hr, hid, hs, -⟩ := run_claimNext_some hdb hclaim
  have hc : (w.choices 2).failure = none ∨ (w.choices 3).failure = none := by
    by_contra hno
    simp only [not_or, ← ne_eq, Option.ne_none_iff_isSome] at hno
    exact absurd (hfault 2 3 (by decide) (by decide) hno.1 hno.2) (by decide)
  obtain ⟨w', hx, hiff⟩ := run_judgeClaimed (P := P) (w := w.advance db) hdb' hr hid hs hc
  unfold processOne
  rw [Program.run_bind, hrun]
  simp only [hx]
  exact ⟨trivial, hiff⟩

end settle

/-- The migrated tables with one queued submission. -/
def oneQueued : Database :=
  (Changes.mk (some ⟨1, "a-plus-b", "python", "pass", "queued", none, 0, none, some 7, none, none⟩)
    none none).apply (.initial 0)

/-- One queued submission, and the database call after the judge's answer fails and no other. -/
def reportFault (judged : Except Exception JudgeResult) : World Choice Database where
  choices n := if n = 2 then { failure := some .statement } else { judged }
  state := oneQueued

theorem reportFault_failure {judged : Except Exception JudgeResult} {n : Nat}
    (h : ((reportFault judged).choices n).failure.isSome = true) : n = 2 := by
  simp only [reportFault] at h
  split at h
  · assumption
  · cases h

/-- An accepted submission whose `complete` fails is stored as failed. -/
theorem processOne_settles_fallback :
    ∃ r ∈ ((processOne .plain {}).run (serve .plain)
        (reportFault (.ok (.verdict .accepted)))).2.state.submissions,
      r.id = 1 ∧ Settled (.ok (.verdict .accepted)) r :=
  (@processOne_settles .plain {} (reportFault (.ok (.verdict .accepted)))
    ⟨1, "a-plus-b", "python", "pass", .running, none, "0", none, some 7, none, none⟩
    (Database.checked_iff.mpr (by decide)) (by decide)
    fun _ _ _ _ hi hj => (reportFault_failure hi).trans (reportFault_failure hj).symm).2.mpr
      (Or.inl rfl)

/-- When the judge fails and the one call that reports it fails too, the worker reports the submission
    as processed and leaves it running. -/
theorem processOne_leaves_running :
    (∀ n, ((reportFault (.ok (.judgeError "no sandbox"))).choices n).failure.isSome = true
      → n = 2) ∧
    ((claimNext .plain {}).run (serve .plain) (reportFault (.ok (.judgeError "no sandbox")))).1
      = .ok (.ok (some
        ⟨1, "a-plus-b", "python", "pass", .running, none, "0", none, some 7, none, none⟩)) ∧
    ((processOne .plain {}).run (serve .plain) (reportFault (.ok (.judgeError "no sandbox")))).1
      = .ok .processed ∧
    ((processOne .plain {}).run (serve .plain)
        (reportFault (.ok (.judgeError "no sandbox")))).2.state.submissions.rows.map
      (fun r => (r.id, r.status)) = [(1, "running")] :=
  ⟨fun _ => reportFault_failure, by decide, by decide, by decide⟩

end AlgorithmTrainer
