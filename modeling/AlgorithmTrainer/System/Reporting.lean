import AlgorithmTrainer.System.Processes

/-!
# `System.Reporting` — what a worker may store

A worker stores what its judge ended with, for the submission it claimed, or that this could not be stored.
The judge ends with a verdict only after it has read the enabled tests and run the submission on them. Both
are disciplines of calls: `reportProtocol` is that of `process_one`, for any judge; `judgingProtocol` is that
of the worker with the problem judge, call by call. The handler rule takes the first down to the second.
-/

namespace AlgorithmTrainer

open Interaction Interaction.Protocol Relational PostgreSQLSubmissionRepository PostgreSQLProblemRepository

/-- What the judge is asked about a submission. -/
def SubmissionRow.judgeRequest (r : SubmissionRow) : JudgeRequest :=
  ⟨r.problemId, r.language, r.sourceCode⟩

theorem SameSubmission.judgeRequest {r r' : SubmissionRow} (h : SameSubmission r r') :
    r'.judgeRequest = r.judgeRequest := by
  unfold SubmissionRow.judgeRequest
  rw [h.problemId, h.language, h.sourceCode]

/-- The status, verdict and error type that an outcome of the judge may be stored with. -/
inductive Stores : Except Exception JudgeResult → String → Option String → Option String → Prop where
  | verdict (v : Verdict) : Stores (.ok (.verdict v)) "completed" (some (verdictName v)) none
  | runtimeError (type : String) : Stores (.ok (.runtimeError type)) "completed"
      (some (verdictName .runtimeError)) (some (text type))
  | judgeError (message : String) : Stores (.ok (.judgeError message)) "failed" none (some "Sandbox Error")
  | thrown (exception : Exception) : Stores (.error exception) "failed" none (some "Worker Error")
  /-- The result could not be stored. -/
  | unstored (result : JudgeResult) (h : ∀ message, result ≠ .judgeError message) :
      Stores (.ok result) "failed" none (some "Result Persistence Error")

theorem Stores.verdict_of_completed {outcome : Except Exception JudgeResult} {status : String}
    {verdict errorType : Option String} (h : Stores outcome status verdict errorType)
    (hstatus : status = "completed") : ∃ v, verdict = some (verdictName v) := by
  cases h with
  | verdict v => exact ⟨v, rfl⟩
  | runtimeError type => exact ⟨.runtimeError, rfl⟩
  | judgeError | thrown | unstored => exact absurd hstatus (by decide)

/-- `Accepted` is stored for that verdict only. -/
theorem Stores.accepted {outcome : Except Exception JudgeResult} {status : String}
    {verdict errorType : Option String} (h : Stores outcome status verdict errorType)
    (hverdict : verdict = some (verdictName .accepted)) : outcome = .ok (.verdict .accepted) := by
  cases h with
  | verdict v => cases v <;> first | rfl | exact absurd hverdict (by decide)
  | runtimeError type => exact absurd hverdict (by decide)
  | judgeError | thrown | unstored => cases hverdict

/-! ## `process_one`, for any judge -/

/-- A worker has nothing, has claimed a row, or has the judge's outcome for it. -/
inductive ReportPhase where
  | free
  | claimed (row : SubmissionRow)
  | answered (row : SubmissionRow) (outcome : Except Exception JudgeResult)

namespace ReportPhase

def Allows : ReportPhase → BackendRequest → Prop
  | free, .executeLocked _ (.claimSubmission _) => True
  | claimed row, .judge request => request = row.judgeRequest
  | answered row outcome, .execute (.completeSubmission verdict errorType id) =>
      id = row.id ∧ Stores outcome "completed" (some verdict) errorType
  | answered row outcome, .execute (.failSubmission errorType id) =>
      id = row.id ∧ Stores outcome "failed" none errorType
  | _, _ => False

def next (φ : ReportPhase) : (q : BackendRequest) → q.Reply → ReportPhase
  | .executeLocked _ _, .tuples (row :: _) => claimed row
  | .judge _, outcome =>
      match φ with
      | claimed row => answered row outcome
      | φ => φ
  | _, _ => φ

end ReportPhase

def reportProtocol : Protocol Backend ReportPhase where
  allowed := ReportPhase.Allows
  admits _ _ _ := True
  next := ReportPhase.next

section reports
variable {P : Platform} {row : SubmissionRow} {outcome : Except Exception JudgeResult}

/-- What was answered is still there, and nothing was raised. -/
def Answered {α : Type} (row : SubmissionRow) (outcome : Except Exception JudgeResult) (φ : ReportPhase)
    (o : Except Exception α) : Prop := φ = .answered row outcome ∧ o.isOk = true

theorem fail_reports {errorType : String} (h : Stores outcome "failed" none (some errorType))
    (htext : text errorType = errorType) : reportProtocol.Follows (Answered row outcome)
      (.answered row outcome) (PostgreSQLSubmissionRepository.fail P row.id (some errorType)) := by
  refine ⟨⟨rfl, ?_⟩, fun result _ => ⟨?_, rfl⟩⟩
  · rw [Option.map_some, htext]
    exact h
  · cases result <;> rfl

/-- A verdict is completed, or else the row fails because it could not be. -/
theorem report_reports {v : Verdict} {errorType : Option String}
    (h : Stores outcome "completed" (some (verdictName v)) (errorType.map text))
    (hunstored : Stores outcome "failed" none (some "Result Persistence Error")) :
    reportProtocol.Follows (Answered row outcome) (.answered row outcome) (report P row.id v errorType) := by
  have hcomplete : reportProtocol.Follows (Answered row outcome) (.answered row outcome)
      (PostgreSQLSubmissionRepository.complete P row.id v errorType) := by
    refine ⟨⟨rfl, ?_⟩, fun result _ => ⟨?_, rfl⟩⟩
    · rw [text_verdictName]
      exact h
    · cases result <;> rfl
  refine hcomplete.bind (fun φ result hφ => ?_) fun _ _ hφ => ⟨hφ.1, hφ.2⟩
  rw [hφ.1]
  cases result with
  | ok x => exact ⟨rfl, rfl⟩
  | error e =>
      exact (fail_reports hunstored (by decide)).bind (fun _ _ hφ => ⟨hφ.1, rfl⟩) fun _ _ hφ => ⟨hφ.1, hφ.2⟩

theorem reportJudged_reports (result : JudgeResult) :
    reportProtocol.Follows (Answered row (.ok result)) (.answered row (.ok result))
      (reportJudged P row.id result) := by
  cases result with
  | judgeError message =>
      exact (fail_reports (.judgeError message) (by decide)).bind (fun _ _ hφ => ⟨hφ.1, rfl⟩)
        fun _ _ hφ => ⟨hφ.1, hφ.2⟩
  | runtimeError type =>
      exact (report_reports (.runtimeError type) (.unstored _ fun _ h => (by cases h))).bind
        (fun _ _ hφ => ⟨hφ.1, rfl⟩) fun _ _ hφ => ⟨hφ.1, hφ.2⟩
  | verdict v =>
      exact (report_reports (.verdict v) (.unstored _ fun _ h => (by cases h))).bind
        (fun _ _ hφ => ⟨hφ.1, rfl⟩) fun _ _ hφ => ⟨hφ.1, hφ.2⟩

/-- What is done with a claimed row. -/
theorem judgeClaimed_reports {x : SubmissionRecord} (h : record P row = .ok x) :
    reportProtocol.Follows AnyOutcome (.claimed row) (judgeClaimed P x) := by
  obtain ⟨hid, hproblem, hlanguage, hcode, -⟩ := record_columns h
  unfold judgeClaimed
  rw [hid, hproblem, hlanguage, hcode]
  refine Protocol.Follows.tryCatch
    (R := fun φ o => ∀ e, o = .error e → φ = .answered row (.error e)) ?_ (fun _ _ _ => trivial) fun φ e h => ?_
  · refine ⟨rfl, fun judged _ => ?_⟩
    cases judged with
    | error e =>
        intro _ he
        cases he
        rfl
    | ok result =>
        exact (reportJudged_reports result).mono fun _ _ hφ _ he => by
          rw [he] at hφ
          cases hφ.2
  · rw [h e rfl]
    exact (fail_reports (.thrown e) (by decide)).bind (fun _ _ _ => trivial) fun _ _ _ => trivial

theorem worker_reports (limits : PostgreSQLRepositoryLimits) :
    reportProtocol.Follows AnyOutcome .free (worker P limits) := by
  have hclaim : reportProtocol.Follows (fun φ o => ∀ x, o = .ok (.ok (some x)) →
      ∃ row, φ = .claimed row ∧ record P row = .ok x) .free (claimNext P limits) := by
    refine ⟨trivial, fun result _ => ?_⟩
    cases result with
    | tuples rows =>
        cases rows with
        | nil => exact fun x hx => (by cases hx)
        | cons row rows =>
            intro x hx
            refine ⟨row, rfl, ?_⟩
            simp only [optionalRecord] at hx
            cases hr : record P row with
            | error e => rw [hr] at hx; cases hx
            | ok y => rw [hr] at hx; cases hx; rfl
    | none | failed _ _ | command => exact fun x hx => (by cases hx)
  refine Protocol.Follows.bind (Q := AnyOutcome) ?_ (fun _ _ _ => trivial) fun _ _ _ => trivial
  refine hclaim.bind (fun φ claimed h => ?_) fun _ _ _ => trivial
  cases claimed with
  | error e => trivial
  | ok found =>
      cases found with
      | none => trivial
      | some x =>
          obtain ⟨row, rfl, hrow⟩ := h x rfl
          exact judgeClaimed_reports hrow

end reports

/-! ## The worker with the problem judge -/

/-- A thread that is no worker; a worker that has nothing, has claimed a row, or has read the tests of its
    problem and made these calls of the executor since. -/
inductive JudgingPhase where
  | outside
  | free
  | claimed (row : SubmissionRow)
  | testing (row : SubmissionRow) (tests : List ProblemTestCase) (calls : List (Exchange Executor))

namespace JudgingPhase

def row : JudgingPhase → Option SubmissionRow
  | claimed row | testing row _ _ => some row
  | _ => none

/-- The judge may have ended with the outcome. Where it has read no tests, or there are none, that is no
    verdict; else it is what the tests and the executions amount to. -/
def Shows : JudgingPhase → Except Exception JudgeResult → Prop
  | claimed _, outcome => ∀ result, outcome = .ok result → ∃ message, result = .judgeError message
  | testing row tests calls, outcome =>
      (tests = [] ∧ ∃ message, outcome = .ok (.judgeError message)) ∨
      (tests ≠ [] ∧ ∃ result, outcome = .ok result ∧ Verdicted row.judgeRequest tests calls result)
  | _, _ => False

/-- The outcome that is stored was shown. -/
def Reports (φ : JudgingPhase) (status : String) (verdict errorType : Option String) (id : Int) : Prop :=
  ∃ row outcome, φ.row = some row ∧ id = row.id ∧ φ.Shows outcome ∧
    Stores outcome status verdict errorType

def Allows (φ : JudgingPhase) : (Backend.sum Executor).Request → Prop
  | .inl (.execute (.completeSubmission verdict errorType id)) =>
      φ.Reports "completed" (some verdict) errorType id
  | .inl (.execute (.failSubmission errorType id)) => φ.Reports "failed" none errorType id
  | .inl (.executeLocked _ (.claimSubmission _)) => φ = free
  | .inl (.execute (.selectProblem id onlyEnabled)) =>
      φ = outside ∨ ∃ row, φ = claimed row ∧ id = text row.problemId ∧ onlyEnabled = false
  | .inl (.execute (.selectTests id onlyEnabled)) =>
      φ = outside ∨ ∃ row, φ = claimed row ∧ id = text row.problemId ∧ onlyEnabled = true
  | .inl q => φ = outside ∧ q.works = false
  | .inr _ => ∃ row tests calls, φ = testing row tests calls

/-- A problem is found under the id that was asked for. -/
def Admits : (q : (Backend.sum Executor).Request) → (Backend.sum Executor).Reply q → Prop
  | .inl (.execute (.selectProblem id _)), .tuples rows => ∀ row ∈ rows, row.id = id
  | _, _ => True

def next (φ : JudgingPhase) : (q : (Backend.sum Executor).Request) →
    (Backend.sum Executor).Reply q → JudgingPhase
  | .inl (.executeLocked _ (.claimSubmission _)), .tuples (row :: _) => claimed row
  | .inl (.execute (.selectTests _ _)), .tuples rows =>
      match φ with
      | claimed row => testing row (rows.map testOfRow) []
      | φ => φ
  | .inr q, answer =>
      match φ with
      | testing row tests calls => testing row tests (calls ++ [⟨q, answer⟩])
      | φ => φ
  | _, _ => φ

end JudgingPhase

/-- The backend answers so. -/
theorem served_admits {P : Platform} {τ : Type} {V : Service Executor Choice τ}
    (q : (Backend.sum Executor).Request) (c : Choice) (s : Database × τ) :
    JudgingPhase.Admits q (((serve P).sum V) q c s).1 := by
  cases q with
  | inr q => trivial
  | inl q =>
      cases q with
      | execute t =>
          cases t with
          | selectProblem id onlyEnabled =>
              show JudgingPhase.Admits (.inl (.execute (.selectProblem id onlyEnabled)))
                (serveStatement P (.selectProblem id onlyEnabled) c s.1).1
              rcases serveStatement_cases (P := P) (.selectProblem id onlyEnabled) c s.1 with
                ⟨-, hs⟩ | ⟨-, hs⟩
              · rw [hs]
                trivial
              · rw [hs]
                intro row hrow
                have hselected := (Table.mem_select.mp hrow).2
                simp only [Bool.and_eq_true, beq_iff_eq] at hselected
                exact hselected.1
          | _ => trivial
      | executeLocked | randomToken | passwordHash | judge => trivial

def judgingProtocol : Protocol (Backend.sum Executor) JudgingPhase where
  allowed := JudgingPhase.Allows
  admits _ := JudgingPhase.Admits
  next := JudgingPhase.next

section judging
variable {row : SubmissionRow}

/-- How the judge ends: with an outcome that its calls have shown. -/
def Judges (row : SubmissionRow) (φ : JudgingPhase) (o : Except Exception JudgeResult) : Prop :=
  φ.row = some row ∧ φ.Shows o

/-- **The loop over the tests.** What it adds to the calls amounts to its result. -/
theorem judgeTests_follows {all : List ProblemTestCase} (tests : List ProblemTestCase)
    (calls : List (Exchange Executor)) : judgingProtocol.Follows
      (fun φ o => ∃ more result, φ = .testing row all (calls ++ more) ∧ o = .ok result ∧
        Verdicted row.judgeRequest tests more result) (.testing row all calls)
      (ProblemJudge.judgeTests row.judgeRequest tests) := by
  induction tests generalizing calls with
  | nil => exact ⟨[], _, by rw [List.append_nil], rfl, verdicted_nil⟩
  | cons testCase tests ih =>
      refine ⟨⟨row, all, calls, rfl⟩, fun answer _ => ?_⟩
      have hnext : judgingProtocol.next (.testing row all calls)
          (.inr (executionRequest row.judgeRequest testCase)) answer
            = .testing row all (calls ++ [⟨executionRequest row.judgeRequest testCase, answer⟩]) := rfl
      rw [hnext]
      rcases passes_or_fails testCase answer with hpasses | ⟨result, hfails⟩
      · rw [judgeExecution_passes hpasses]
        refine (ih _).mono fun φ o h => ?_
        obtain ⟨more, result, rfl, rfl, hverdicted⟩ := h
        exact ⟨_ :: more, result, by rw [List.append_assoc, List.singleton_append], rfl,
          hverdicted.cons hpasses⟩
      · rw [judgeExecution_fails hfails]
        exact ⟨_, result, rfl, rfl, verdicted_of_fails hfails⟩

/-- What the judge makes of a problem whose tests were read. -/
theorem judgeFound_follows (problem : Problem) :
    judgingProtocol.Follows (Judges row) (.testing row problem.hiddenTests [])
      (ProblemJudge.judgeFound row.judgeRequest (.ok (some problem))) := by
  show judgingProtocol.Follows (Judges row) _ (ite _ _ _)
  split
  · rename_i hempty
    exact ⟨rfl, Or.inl ⟨List.isEmpty_iff.mp hempty, _, rfl⟩⟩
  · rename_i hsome
    refine (judgeTests_follows problem.hiddenTests []).mono fun φ o h => ?_
    obtain ⟨more, result, rfl, rfl, hverdicted⟩ := h
    exact ⟨rfl, Or.inr ⟨mt List.isEmpty_iff.mpr hsome, result, rfl, hverdicted⟩⟩

/-- Where no tests were read there is no verdict. -/
theorem judges_error (message : String) : Judges row (.claimed row) (.ok (.judgeError message)) :=
  ⟨rfl, fun _ h => ⟨message, (Except.ok.inj h).symm⟩⟩

theorem judges_thrown (e : Exception) : Judges row (.claimed row) (.error e) :=
  ⟨rfl, fun _ h => (by cases h)⟩

/-- **The judge**, for a row that was claimed. -/
theorem judge_follows : judgingProtocol.Follows (Judges row) (.claimed row)
    (ProblemJudge.run row.judgeRequest) := by
  refine ⟨Or.inr ⟨row, rfl, rfl, rfl⟩, fun result hadmits => ?_⟩
  match result with
  | .tuples [] => exact judges_error _
  | .tuples (problemRow :: _) =>
      have hid : problemRow.id = text row.problemId := hadmits problemRow List.mem_cons_self
      show judgingProtocol.Follows (Judges row) (.claimed row)
        ((readProblem problemRow .enabled >>= fun problem => pure (problem.map some)).inl >>=
          ProblemJudge.judgeFound row.judgeRequest)
      unfold readProblem
      cases hread : (problemOfRow problemRow).run with
      | error exception => exact judges_thrown exception
      | ok read =>
          cases read with
          | error error => exact judges_error _
          | ok problem =>
              -- the tests are read under the id that the problem's row has
              have hsame : text problem.id = text row.problemId := by
                rw [problemOfRow_id hread, hid]
                exact cStr_cStr row.problemId
              refine ⟨Or.inr ⟨row, rfl, hsame, rfl⟩, fun result _ => ?_⟩
              match result with
              | .tuples rows => exact judgeFound_follows { problem with hiddenTests := rows.map testOfRow }
              | .none | .failed _ _ | .command => exact judges_error _
  | .none | .failed _ _ | .command => exact judges_error _

end judging

/-! ## The threads -/

section threads
variable {κ : Type} {D : Deployment κ}

/-- How the phases of the two disciplines belong together. -/
def Refines : ReportPhase → JudgingPhase → Prop
  | .free, ψ => ψ = .free
  | .claimed row, ψ => ψ = .claimed row
  | .answered row outcome, ψ => ψ.row = some row ∧ ψ.Shows outcome

/-- Each request of `process_one` is answered in keeping with the calls below it. -/
theorem judging_refines {φ : ReportPhase} {ψ : JudgingPhase} {q : BackendRequest} (hφ : Refines φ ψ)
    (hq : φ.Allows q) : judgingProtocol.Follows
      (fun ψ' o => ∃ r, o = .ok r ∧ True ∧ Refines (φ.next q r) ψ') ψ (judging q) := by
  cases φ with
  | free =>
      cases q with
      | executeLocked lock locked =>
          cases locked with
          | claimSubmission limit =>
              refine ⟨hφ, fun result _ => ⟨result, rfl, trivial, ?_⟩⟩
              match result with
              | .tuples (row :: _) => rfl
              | .tuples [] | .none | .failed _ _ | .command => exact hφ
          | _ => exact hq.elim
      | _ => exact hq.elim
  | claimed row =>
      cases q with
      | judge request =>
          obtain rfl : request = row.judgeRequest := hq
          obtain rfl : ψ = .claimed row := hφ
          refine judge_follows.attempt.mono fun ψ' o h => ?_
          obtain ⟨outcome, rfl, hjudges⟩ := h
          exact ⟨outcome, rfl, trivial, hjudges⟩
      | _ => exact hq.elim
  | answered row outcome =>
      cases q with
      | execute statement =>
          cases statement with
          | completeSubmission verdict errorType id =>
              exact ⟨⟨row, outcome, hφ.1, hq.1, hφ.2, hq.2⟩, fun result _ => ⟨result, rfl, trivial, hφ⟩⟩
          | failSubmission errorType id =>
              exact ⟨⟨row, outcome, hφ.1, hq.1, hφ.2, hq.2⟩, fun result _ => ⟨result, rfl, trivial, hφ⟩⟩
          | _ => exact hq.elim
      | _ => exact hq.elim

/-- **A worker's turn**, call by call. -/
theorem workerProgram_follows :
    judgingProtocol.Follows AnyOutcome .free (workerProgram D) := by
  have hturn : reportProtocol.Follows AnyOutcome .free
      (ProcessResult.pool <$> worker D.server.P D.server.limits) :=
    (worker_reports D.server.limits).bind (fun _ _ _ => trivial) fun _ _ _ => trivial
  have hfree : Refines .free .free := rfl
  exact (hturn.handle (R := Refines) (fun φ ψ q hφ hq => judging_refines hφ hq) hfree).mono
    fun _ _ _ => trivial

/-- What is asked without work on a submission. -/
def uninvolved : Protocol Backend Unit := .only fun q => q.works = false

/-- A thread that is outside may ask what is no work on a submission, and stays there. -/
theorem outside_passes {q : BackendRequest} (hq : q.works = false) :
    judgingProtocol.Follows (fun ψ (o : Except Exception q.Reply) => ∃ r, o = .ok r ∧ True ∧ ψ = .outside)
      .outside (judging q) := by
  refine judging_passes (A := uninvolved) (B := judgingProtocol)
    (R := fun _ ψ => ψ = .outside) (φ := ()) hq ?_ fun r _ => ⟨trivial, ?_⟩
  · cases q with
    | execute s =>
        cases s with
        | completeSubmission | failSubmission => cases hq
        | selectProblem _ _ | selectTests _ _ => exact Or.inl rfl
        | _ => exact ⟨rfl, rfl⟩
    | executeLocked lock s =>
        cases s with
        | claimSubmission _ => cases hq
        | _ => exact ⟨rfl, rfl⟩
    | randomToken | passwordHash _ => exact ⟨rfl, rfl⟩
    | judge _ => cases hq
  · cases q with
    | execute s =>
        cases s with
        | selectTests _ _ => cases r <;> rfl
        | _ => rfl
    | executeLocked lock s =>
        cases s with
        | claimSubmission _ => cases hq
        | _ => rfl
    | randomToken | passwordHash _ | judge _ => rfl

/-- A program that works on no submission stays outside. -/
theorem outside_follows {α : Type} {p : Call α} (hp : uninvolved.Follows Ends () p) :
    judgingProtocol.Follows AnyOutcome .outside (p.handle judging) := by
  refine (hp.handle (R := fun _ ψ => ψ = .outside) ?_ rfl).mono fun _ _ _ => trivial
  rintro _ ψ q rfl hq
  exact outside_passes hq

theorem starterProgram_follows : judgingProtocol.Follows AnyOutcome .outside starterProgram := by
  have hstart : uninvolved.Follows Ends () (ProcessResult.pool <$> startPool) := by
    refine ⟨rfl, fun result _ => ?_⟩
    cases result <;> trivial
  exact outside_follows hstart

theorem registrarProgram_follows (k : κ) :
    judgingProtocol.Follows AnyOutcome .outside (registrarProgram D k) := by
  have hensure : uninvolved.Follows Ends ()
      (PostgreSQLAuthService.ensureAdmin D.server.P (D.adminUsername k) (D.adminPassword k)) := by
    unfold PostgreSQLAuthService.ensureAdmin
    split
    · trivial
    · refine ⟨rfl, fun hash _ => ?_⟩
      show uninvolved.Follows Ends () (ite _ _ _)
      split
      · trivial
      · refine ⟨rfl, fun result _ => ?_⟩
        match result with
        | .tuples [_] | .tuples [] | .tuples (_ :: _ :: _) | .none | .failed _ _ | .command => trivial
  exact outside_follows (hensure.bind (fun _ _ _ => trivial) fun _ _ h => h)

/-- What a request may ask is no work on a submission. -/
theorem Standing.May.works {P : Platform} {request : HttpRequest} {st : Standing} {q : BackendRequest}
    (h : st.May P request q) : q.works = false := by
  match q with
  | .execute s => cases s <;> first | rfl | exact h.elim
  | .executeLocked _ s => cases s <;> first | rfl | exact h.elim
  | .randomToken | .passwordHash _ => rfl
  | .judge _ => exact h.elim

theorem requestProgram_follows (route : Route) (request : HttpRequest) :
    judgingProtocol.Follows AnyOutcome .outside (requestProgram D route request) := by
  have hdispatch : (authority D.server.P request).Follows AnyOutcome {}
      (ProcessResult.responded <$> dispatch D.server route request) :=
    (dispatch_authorised D.server route request {}).bind (fun _ _ _ => trivial) fun _ _ h => h
  refine (hdispatch.handle (R := fun _ ψ => ψ = .outside) ?_ rfl).mono fun _ _ _ => trivial
  rintro st ψ q rfl hq
  exact outside_passes (Standing.May.works hq)

end threads

end AlgorithmTrainer
