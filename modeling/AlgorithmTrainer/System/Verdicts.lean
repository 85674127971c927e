import AlgorithmTrainer.Server.AuditRuns
import AlgorithmTrainer.System.Reporting

/-!
# `System.Verdicts` — every stored result was earned

`results_earned`: in every run of the backends, whatever fails and whatever administrators do to the problems
meanwhile, a submission that was settled during the run carries the result of a judging of its own. If it was
completed, or a verdict could not be stored (`Result Persistence Error`), a worker claimed it, read the tests
that were enabled at that moment, and ran its own source on them; the columns say what came of it. If its
judging ended without a verdict (`Sandbox Error`, `Worker Error`), a worker had claimed it, and no more is
said: its problem may have been deleted before any test was read (`Earned.untested`).

The invariant has the evidence that each thread has gathered so far (`Evidence`) beside that of the rows. What
is no report settles nothing (`LeavesResults`).
-/

namespace AlgorithmTrainer

open Interaction Interaction.Pool Interaction.Protocol Transition Relational PostgreSQLSubmissionRepository

section history
variable {κ ι τ : Type} [DecidableEq κ] [DecidableEq ι]

/-! ## What a history shows -/

/-- The call of the executor that a step of the thread was. -/
def executionOf (i : Process κ ι) : (Database × τ) × SystemEvent κ ι → Option (Exchange Executor)
  | (_, .call j _ x) => if j = i then x.inr? else none
  | (_, .control _) => none

/-- The calls of the executor that a thread has made, first call first. -/
def executionsBy (i : Process κ ι) (h : SystemHistory κ ι τ) : List (Exchange Executor) :=
  (h.filterMap (executionOf i)).reverse

/-- A worker's claim that returned the submission. -/
def Claims (i : Process κ ι) (r : SubmissionRow) : (Database × τ) × SystemEvent κ ι → Prop
  | (_, .call j _ ⟨.inl (.executeLocked _ (.claimSubmission _)), .tuples (row :: _)⟩) =>
      j = i ∧ (∃ k n, i = .worker k n) ∧ SameSubmission row r
  | _ => False

/-- The query for the enabled tests of a problem, answered. -/
def ReadsTests (i : Process κ ι) (problemId : String) : (Database × τ) × SystemEvent κ ι → Prop
  | (_, .call j _ ⟨.inl (.execute (.selectTests id true)), .tuples _⟩) => j = i ∧ id = text problemId
  | _ => False

/-- The judging that an outcome comes from. -/
inductive Earned (h : SystemHistory κ ι τ) (r : SubmissionRow) : Except Exception JudgeResult → Prop where
  /-- A worker claimed the submission, and came to no verdict: there was nothing to run it on, or a lookup or
      the executor failed. -/
  | untested {outcome : Except Exception JudgeResult} {i : Process κ ι}
      {claim : (Database × τ) × SystemEvent κ ι} (hmem : claim ∈ h) (hclaim : Claims i r claim)
      (hno : ∀ result, outcome = .ok result → ∃ message, result = .judgeError message) :
      Earned h r outcome
  /-- A worker claimed the submission, read the tests that were enabled then, and ran it on them. -/
  | tested {result : JudgeResult} {i : Process κ ι} {claim read : (Database × τ) × SystemEvent κ ι}
      {later since before : SystemHistory κ ι τ} (hh : h = later ++ (since ++ read :: before))
      (hmem : claim ∈ before) (hclaim : Claims i r claim) (hread : ReadsTests i r.problemId read)
      (hsome : enabledTests read.1.1 r.problemId ≠ [])
      (hverdicted : Verdicted r.judgeRequest (enabledTests read.1.1 r.problemId) (executionsBy i since)
        result) : Earned h r (.ok result)

/-- What a thread has done so far for the row that it is about. -/
def Evidence (h : SystemHistory κ ι τ) (i : Process κ ι) : JudgingPhase → Prop
  | .claimed row => ∃ claim ∈ h, Claims i row claim
  | .testing row tests calls => ∃ since read before, h = since ++ read :: before ∧
      (∃ claim ∈ before, Claims i row claim) ∧ ReadsTests i row.problemId read ∧
      tests = enabledTests read.1.1 row.problemId ∧ calls = executionsBy i since
  | _ => True

section evidence
variable {h : SystemHistory κ ι τ} {i : Process κ ι} {r r' : SubmissionRow} {φ : JudgingPhase}
  {l : (Database × τ) × SystemEvent κ ι} {outcome : Except Exception JudgeResult}

omit [DecidableEq κ] [DecidableEq ι] in
theorem Claims.of_same (h : Claims i r l) (hsame : SameSubmission r r') : Claims i r' l := by
  unfold Claims at h ⊢
  split at h
  · exact ⟨h.1, h.2.1, h.2.2.trans hsame⟩
  · exact h.elim

omit [DecidableEq κ] [DecidableEq ι] in
theorem Claims.isWorker (h : Claims i r l) : ∃ k n, i = .worker k n := by
  unfold Claims at h
  split at h
  · exact h.2.1
  · exact h.elim

theorem executionsBy_cons_none (h : SystemHistory κ ι τ) (hnone : executionOf i l = none) :
    executionsBy i (l :: h) = executionsBy i h := by
  unfold executionsBy
  rw [List.filterMap_cons_none hnone]

theorem executionsBy_cons_some (h : SystemHistory κ ι τ) {x : Exchange Executor}
    (hsome : executionOf i l = some x) : executionsBy i (l :: h) = executionsBy i h ++ [x] := by
  unfold executionsBy
  rw [List.filterMap_cons_some hsome, List.reverse_cons]

theorem Earned.later (he : Earned h r outcome) : Earned (l :: h) r outcome := by
  cases he with
  | untested hmem hclaim hno => exact .untested (List.mem_cons_of_mem l hmem) hclaim hno
  | @tested _ _ _ _ later _ _ hh hmem hclaim hread hsome hverdicted =>
      exact .tested (by rw [hh, ← List.cons_append]) hmem hclaim hread hsome hverdicted

/-- An outcome that the evidence shows was earned. -/
theorem Evidence.earned (he : Evidence h i φ) (hrow : φ.row = some r) (hsame : SameSubmission r r')
    (hshows : φ.Shows outcome) : Earned h r' outcome := by
  match φ with
  | .claimed row =>
      cases hrow
      obtain ⟨claim, hmem, hclaim⟩ := he
      exact .untested hmem (hclaim.of_same hsame) hshows
  | .testing row tests calls =>
      cases hrow
      obtain ⟨since, read, before, rfl, ⟨claim, hmem, hclaim⟩, hread, rfl, rfl⟩ := he
      rcases hshows with ⟨-, message, rfl⟩ | ⟨hsome, result, rfl, hverdicted⟩
      · refine .untested (List.mem_append_right _ (List.mem_cons_of_mem _ hmem)) (hclaim.of_same hsame) ?_
        exact fun result h => ⟨message, (Except.ok.inj h).symm⟩
      · rw [← hsame.judgeRequest] at hverdicted
        rw [← hsame.problemId] at hread hsome hverdicted
        exact .tested (List.nil_append _).symm hmem (hclaim.of_same hsame) hread hsome hverdicted

/-- Evidence stays where nothing is executed for it. -/
theorem Evidence.later (he : Evidence h i φ) (hnone : executionOf i l = none) : Evidence (l :: h) i φ := by
  match φ with
  | .outside | .free => trivial
  | .claimed row =>
      obtain ⟨claim, hmem, hclaim⟩ := he
      exact ⟨claim, List.mem_cons_of_mem l hmem, hclaim⟩
  | .testing row tests calls =>
      obtain ⟨since, read, before, rfl, hclaim, hread, htests, rfl⟩ := he
      refine ⟨l :: since, read, before, rfl, hclaim, hread, htests, ?_⟩
      exact (executionsBy_cons_none since hnone).symm

end evidence
end history

/-! ## What settles nothing -/

/-- The rows pass their constraints, none is lost, and none is settled. -/
structure LeavesResults (db db' : Database) : Prop where
  checked : db'.Checked
  kept : ∀ r ∈ db.submissions, ∃ r' ∈ db'.submissions, SameSubmission r r'
  settled : ∀ r ∈ db'.submissions, r.terminal → r ∈ db.submissions

/-- A request that reports the outcome of a judging. -/
def BackendRequest.reports : BackendRequest → Bool
  | .execute (.completeSubmission ..) | .execute (.failSubmission ..) => true
  | _ => false

section leaves
variable {P : Platform} {db db' : Database} {c : Choice}

theorem LeavesResults.of_eq (hdb : db.Checked) (h : db'.submissions = db.submissions) :
    LeavesResults db db' where
  checked := hdb.of_eq h
  kept r hr := ⟨r, h ▸ hr, .refl r⟩
  settled _ hr _ := h ▸ hr

/-- A statement that neither reports nor recovers writes no submission. -/
theorem exec_submissions (m : String) (s : Statement) (hs : (BackendRequest.execute s).reports = false)
    (hr : s ≠ .recoverRunning) : (s.exec P m db).1.submissions = db.submissions := by
  cases s with
  | completeSubmission | failSubmission => cases hs
  | recoverRunning => exact absurd rfl hr
  | insertUser | upsertAdmin | insertSession | insertAudit | selectFiltered | insertProblem
  | updateProblem | insertTest | updateTest =>
      simp only [Statement.exec]
      repeat' split
      all_goals rfl
  | _ => rfl

/-- An active row is not settled. -/
theorem not_terminal {r : SubmissionRow} (h : r.status = "queued" ∨ r.status = "running") :
    ¬ r.terminal := by
  unfold SubmissionRow.terminal
  rcases h with h | h <;> rw [h] <;> decide

/-- A recovery puts running rows back into the queue. -/
theorem recover_leaves (hdb : db.Checked) :
    LeavesResults db { db with submissions := db.submissions.update anyRunning recoveredRow } where
  checked := hdb.update fun r hr hp => r.check_recovered (hdb r hr) (anyRunning_iff.mp hp)
  kept r hr := by
    refine ⟨_, Table.mem_update_of_mem (f := recoveredRow) (fun _ _ => rfl) hr, ?_⟩
    split
    · exact ⟨rfl, rfl, rfl, rfl, rfl, rfl, rfl⟩
    · exact .refl r
  settled r hr hterminal := by
    obtain ⟨x, hx, rfl⟩ := (Table.mem_update (f := recoveredRow) fun _ _ => rfl).mp hr
    by_cases hp : anyRunning x = true
    · rw [if_pos hp] at hterminal
      exact absurd hterminal (not_terminal (Or.inl rfl))
    · rwa [if_neg hp]

/-- A locked statement inserts queued rows and sets queued rows running. -/
theorem locked_leaves (hdb : db.Checked) (s : LockedStatement) :
    LeavesResults db (serveLocked s c db).2 := by
  rcases serveLocked_cases s c db with
    ⟨hdb', -⟩ | ⟨hdb', -⟩ | ⟨_, -, hdb', -⟩ | ⟨e, rows, hplan, -, heq⟩
  · exact .of_eq hdb (by rw [hdb'])
  · exact .of_eq hdb (by rw [hdb', plan_submissions])
  · exact .of_eq hdb (by rw [hdb', plan_submissions])
  · have hp := plan_ok hplan
    have hsubmissions : (serveLocked s c db).2.submissions = (e.apply db).submissions := by
      rw [heq]
      exact apply_plan_submissions e
    refine ⟨(hdb.commit hp).of_eq hsubmissions, fun r hr => ?_, fun r hr hterminal => ?_⟩
    · rw [hsubmissions]
      have hmoves : Moves (some ("queued", "running")) db (e.apply db) := .commit hp fun _ => rfl
      obtain ⟨r', hr', hsame, -⟩ := hmoves r hr
      exact ⟨r', hr', hsame⟩
    · rw [hsubmissions] at hr
      rcases mem_apply hr with hr | hinserted | hupdated
      · exact hr
      · cases hp with
        | nothing => cases hinserted
        | claimed => cases hinserted
        | admitted hadm =>
            cases hinserted
            exact absurd hterminal (not_terminal (Or.inl hadm.queued))
      · cases hp with
        | nothing => cases hupdated
        | admitted => cases hupdated
        | claimed =>
            cases hupdated
            exact absurd hterminal (not_terminal (Or.inr rfl))

/-- **What is no report** settles no submission. -/
theorem serve_leaves (hdb : db.Checked) {q : BackendRequest} (hq : q.reports = false) :
    LeavesResults db (serve P q c db).2 := by
  match q with
  | .execute s =>
      rw [serve_execute]
      rcases serveStatement_cases (P := P) s c db with ⟨-, hs⟩ | ⟨-, hs⟩
      · rw [hs]
        exact .of_eq hdb rfl
      · rw [hs]
        by_cases hrecover : s = .recoverRunning
        · subst hrecover
          rw [exec_recover hdb]
          exact recover_leaves hdb
        · exact .of_eq hdb (exec_submissions _ s hq hrecover)
  | .executeLocked _ s => exact locked_leaves hdb s
  | .randomToken | .passwordHash _ | .judge _ => exact .of_eq hdb rfl

end leaves

/-! ## The invariant -/

/-- A worker starts with nothing; the other threads never take part. -/
def JudgingPhase.initial {κ ι : Type} : Process κ ι → JudgingPhase
  | .worker _ _ => .free
  | _ => .outside

section invariant
variable {κ ι τ : Type} [DecidableEq κ] [DecidableEq ι]

/-- The rows pass their constraints; only workers take part; the rows they are about are there; what the
    phases say is what the history shows; and what was settled since the beginning was earned. -/
structure ResultsSound (db₀ : Database) (h : SystemHistory κ ι τ) (φ : Process κ ι → JudgingPhase)
    (s : Database × τ) : Prop where
  checked : s.1.Checked
  workers : ∀ i, φ i ≠ .outside → ∃ k n, i = .worker k n
  present : ∀ i row, (φ i).row = some row → ∃ r ∈ s.1.submissions, SameSubmission row r
  evidence : ∀ i, Evidence h i (φ i)
  earned : ∀ r ∈ s.1.submissions, r.terminal → r ∈ db₀.submissions ∨
    ∃ outcome, Earned h r outcome ∧ Stores outcome r.status r.verdict r.errorType

variable {db₀ : Database} {h : SystemHistory κ ι τ} {φ φ' : Process κ ι → JudgingPhase} {s s' : Database × τ}
  {l : (Database × τ) × SystemEvent κ ι} {i : Process κ ι} {P : Platform} {c : Choice}
  {V : Service Executor Choice τ}

/-- A step that settles nothing. -/
theorem ResultsSound.step (hJ : ResultsSound db₀ h φ s) (hleaves : LeavesResults s.1 s'.1)
    (hworkers : ∀ i, φ' i ≠ .outside → ∃ k n, i = .worker k n)
    (hpresent : ∀ i row, (φ' i).row = some row → (φ i).row = some row ∨
      ∃ r ∈ s'.1.submissions, SameSubmission row r)
    (hevidence : ∀ i, Evidence (l :: h) i (φ' i)) : ResultsSound db₀ (l :: h) φ' s' where
  checked := hleaves.checked
  workers := hworkers
  present i row hrow := by
    rcases hpresent i row hrow with hrow | hpresent
    · obtain ⟨r, hr, hsame⟩ := hJ.present i row hrow
      obtain ⟨r', hr', hsame'⟩ := hleaves.kept r hr
      exact ⟨r', hr', hsame.trans hsame'⟩
    · exact hpresent
  evidence := hevidence
  earned r hr hterminal := by
    rcases hJ.earned r (hleaves.settled r hr hterminal) hterminal with hold | ⟨outcome, hearned, hstores⟩
    · exact Or.inl hold
    · exact Or.inr ⟨outcome, hearned.later, hstores⟩

/-- What a step of thread `i` leaves of the others, where `ψ` is its own next phase. -/
theorem ResultsSound.call (hJ : ResultsSound db₀ h φ s) {x : Exchange (Backend.sum Executor)}
    {ψ : JudgingPhase} (hleaves : LeavesResults s.1 s'.1) (hworker : ψ ≠ .outside → φ i ≠ .outside)
    (hpresent : ∀ row, ψ.row = some row → (φ i).row = some row ∨
      ∃ r ∈ s'.1.submissions, SameSubmission row r)
    (hevidence : Evidence ((s, .call i c x) :: h) i ψ) :
    ResultsSound db₀ ((s, .call i c x) :: h) (Function.update φ i ψ) s' := by
  refine hJ.step hleaves (fun j hj => ?_) (fun j row hrow => ?_) fun j => ?_
  · by_cases hji : j = i
    · subst hji
      rw [Function.update_self] at hj
      exact hJ.workers j (hworker hj)
    · rw [Function.update_of_ne hji] at hj
      exact hJ.workers j hj
  · by_cases hji : j = i
    · subst hji
      rw [Function.update_self] at hrow
      exact hpresent row hrow
    · rw [Function.update_of_ne hji] at hrow
      exact Or.inl hrow
  · by_cases hji : j = i
    · subst hji
      rw [Function.update_self]
      exact hevidence
    · rw [Function.update_of_ne hji]
      exact (hJ.evidence j).later (if_neg (Ne.symm hji))

theorem executionOf_inl {j : Process κ ι} {q : BackendRequest} {r : q.Reply} :
    executionOf i ((s, .call j c ⟨.inl q, r⟩) : (Database × τ) × SystemEvent κ ι) = none := by
  show (if j = i then none else none) = none
  rw [ite_self]

theorem executionOf_self {q : ExecutionRequest} {r : ExecutorResult Bytes} :
    executionOf i ((s, .call i c ⟨.inr q, r⟩) : (Database × τ) × SystemEvent κ ι) = some ⟨q, r⟩ :=
  if_pos rfl

/-- A call that is no report and leaves its thread where it was. -/
theorem ResultsSound.quiet (hJ : ResultsSound db₀ h φ s) {q : BackendRequest} (hq : q.reports = false)
    {r : q.Reply} : ResultsSound db₀ ((s, .call i c ⟨.inl q, r⟩) :: h) (Function.update φ i (φ i))
      ((serve P q c s.1).2, s.2) :=
  hJ.call (serve_leaves hJ.checked hq) (fun h => h) (fun _ h => Or.inl h)
    ((hJ.evidence i).later executionOf_inl)

/-- The executor is called on a test. -/
theorem ResultsSound.execute (hJ : ResultsSound db₀ h φ s) {row : SubmissionRow}
    {tests : List ProblemTestCase} {calls : List (Exchange Executor)} (hi : φ i = .testing row tests calls)
    (q : ExecutionRequest) (answer : ExecutorResult Bytes) (t : τ) :
    ResultsSound db₀ ((s, .call i c ⟨.inr q, answer⟩) :: h)
      (Function.update φ i (.testing row tests (calls ++ [⟨q, answer⟩]))) (s.1, t) := by
  refine hJ.call (.of_eq hJ.checked rfl) (fun _ => by simp [hi]) (fun row' hrow => ?_) ?_
  · rw [hi]
    exact Or.inl hrow
  · have he := hJ.evidence i
    rw [hi] at he
    obtain ⟨since, read, before, rfl, hclaim, hread, htests, rfl⟩ := he
    refine ⟨_ :: since, read, before, rfl, hclaim, hread, htests, ?_⟩
    exact (executionsBy_cons_some since executionOf_self).symm

/-- The tests of the claimed row's problem are read. -/
theorem ResultsSound.readTests (hJ : ResultsSound db₀ h φ s) {row : SubmissionRow}
    (hi : φ i = .claimed row) :
    ResultsSound db₀ ((s, .call i c ⟨.inl (.execute (.selectTests (text row.problemId) true)),
        (serveStatement P (.selectTests (text row.problemId) true) c s.1).1⟩) :: h)
      (Function.update φ i ((φ i).next (.inl (.execute (.selectTests (text row.problemId) true)))
        (serveStatement P (.selectTests (text row.problemId) true) c s.1).1))
      ((serve P (.execute (.selectTests (text row.problemId) true)) c s.1).2, s.2) := by
  rcases serveStatement_cases (P := P) (.selectTests (text row.problemId) true) c s.1 with
    ⟨-, hs⟩ | ⟨-, hs⟩
  · rw [hs]
    exact hJ.quiet rfl
  · rw [hs, hi]
    refine hJ.call (serve_leaves hJ.checked rfl) (fun _ => by simp [hi]) (fun row' hrow => ?_) ?_
    · rw [hi]
      exact Or.inl hrow
    · have he := hJ.evidence i
      rw [hi] at he
      refine ⟨[], _, h, rfl, he, ⟨rfl, rfl⟩, rfl, rfl⟩

/-- A claim returns a row that is in the table. -/
theorem claim_mem {limit : Int} {row : SubmissionRow} {rows : List SubmissionRow} {db : Database}
    (h : (serveLocked (.claimSubmission limit) c db).1 = .tuples (row :: rows)) :
    row ∈ (serveLocked (.claimSubmission limit) c db).2.submissions := by
  rcases serveLocked_cases (.claimSubmission limit) c db with
    ⟨-, hno, -⟩ | ⟨-, hreply⟩ | ⟨_, -, -, hreply⟩ | ⟨e, rows', hplan, -, heq⟩
  · rw [h] at hno; cases hno
  · rw [hreply] at h; cases h
  · rw [hreply] at h; cases h
  · rw [heq] at h ⊢
    rw [apply_plan_submissions]
    cases plan_ok hplan with
    | nothing => cases h
    | admitted hadm => obtain ⟨_, _, hnone, -⟩ := hadm.room; cases hnone
    | claimed hr =>
        cases h
        obtain ⟨hmem, -⟩ := candidate_some hr
        exact Table.mem_put.mpr (Or.inr ⟨rfl, _, hmem, rfl⟩)

/-- A claim. -/
theorem ResultsSound.claim (hJ : ResultsSound db₀ h φ s) (hi : φ i = .free) (lock limit : Int) :
    ResultsSound db₀ ((s, .call i c ⟨.inl (.executeLocked lock (.claimSubmission limit)),
        (serveLocked (.claimSubmission limit) c s.1).1⟩) :: h)
      (Function.update φ i ((φ i).next (.inl (.executeLocked lock (.claimSubmission limit)))
        (serveLocked (.claimSubmission limit) c s.1).1))
      ((serve P (.executeLocked lock (.claimSubmission limit)) c s.1).2, s.2) := by
  cases hreply : (serveLocked (.claimSubmission limit) c s.1).1 with
  | none => exact hJ.quiet rfl
  | failed _ _ => exact hJ.quiet rfl
  | command => exact hJ.quiet rfl
  | tuples rows =>
      match rows with
      | [] => exact hJ.quiet rfl
      | row :: rows =>
          refine hJ.call (serve_leaves hJ.checked rfl) (fun _ => by simp [hi]) (fun row' hrow => ?_) ?_
          · cases hrow
            exact Or.inr ⟨row, claim_mem hreply, .refl row⟩
          · exact ⟨_, List.mem_cons_self, rfl, hJ.workers i (by simp [hi]), .refl row⟩

/-- **A report** stores what its thread has shown. -/
theorem ResultsSound.report (hJ : ResultsSound db₀ h φ s) {q : BackendRequest} {r : q.Reply}
    {row : SubmissionRow} {outcome : Except Exception JudgeResult} {f : SubmissionRow → SubmissionRow}
    {hf : ∀ r, runningRow row.id r = true → (f r).id = r.id} (hrow : (φ i).row = some row)
    (hshows : (φ i).Shows outcome)
    (hchecked : Database.Checked
      { s.1 with submissions := s.1.submissions.update (runningRow row.id) f hf })
    (hstores : ∀ x ∈ s.1.submissions, x.status = "running" →
      SameSubmission x (f x) ∧ Stores outcome (f x).status (f x).verdict (f x).errorType) :
    ResultsSound db₀ ((s, .call i c ⟨.inl q, r⟩) :: h) (Function.update φ i (φ i))
      ({ s.1 with submissions := s.1.submissions.update (runningRow row.id) f hf }, s.2) := by
  rw [Function.update_eq_self]
  have hkept : ∀ x ∈ s.1.submissions, ∃ x' ∈ s.1.submissions.update (runningRow row.id) f hf,
      SameSubmission x x' := by
    intro x hx
    refine ⟨_, Table.mem_update_of_mem hf hx, ?_⟩
    split
    · rename_i hp
      exact (hstores x hx (runningRow_iff.mp hp).2).1
    · exact .refl x
  have hevidence : ∀ j, Evidence ((s, .call i c ⟨.inl q, r⟩) :: h) j (φ j) :=
    fun j => (hJ.evidence j).later executionOf_inl
  refine ⟨hchecked, hJ.workers, fun j row' hrow' => ?_, hevidence, fun x hx hterminal => ?_⟩
  · obtain ⟨x, hx, hsame⟩ := hJ.present j row' hrow'
    obtain ⟨x', hx', hsame'⟩ := hkept x hx
    exact ⟨x', hx', hsame.trans hsame'⟩
  · obtain ⟨x, hold, rfl⟩ := (Table.mem_update hf).mp hx
    by_cases hp : runningRow row.id x = true
    · rw [if_pos hp]
      obtain ⟨hid, hrunning⟩ := runningRow_iff.mp hp
      obtain ⟨hsame, hstored⟩ := hstores x hold hrunning
      -- the row that is reported is the one that the thread's evidence is about
      obtain ⟨y, hy, hsame'⟩ := hJ.present i row hrow
      obtain rfl := Table.eq_of_key hy hold (hsame'.id.trans hid.symm)
      exact Or.inr ⟨outcome, (hevidence i).earned hrow (hsame'.trans hsame) hshows, hstored⟩
    · rw [if_neg hp] at hterminal ⊢
      exact (hJ.earned x hold hterminal).imp_right fun ⟨o, he, hs⟩ => ⟨o, he.later, hs⟩

/-- A result that is completed, of the row that the thread is about. -/
theorem ResultsSound.complete (hJ : ResultsSound db₀ h φ s) {verdict : String} {errorType : Option String}
    {id : Int} (hq : (φ i).Reports "completed" (some verdict) errorType id) :
    ResultsSound db₀ ((s, .call i c ⟨.inl (.execute (.completeSubmission verdict errorType id)),
        (serveStatement P (.completeSubmission verdict errorType id) c s.1).1⟩) :: h)
      (Function.update φ i (φ i))
      ((serveStatement P (.completeSubmission verdict errorType id) c s.1).2, s.2) := by
  obtain ⟨row, outcome, hrow, rfl, hshows, hstores⟩ := hq
  obtain ⟨v, hv⟩ := hstores.verdict_of_completed rfl
  cases hv
  rcases serveStatement_cases (P := P) (.completeSubmission (verdictName v) errorType row.id) c s.1 with
    ⟨-, hs⟩ | ⟨-, hs⟩
  · rw [hs]
    exact hJ.call (.of_eq hJ.checked rfl) (fun h => h) (fun _ h => Or.inl h)
      ((hJ.evidence i).later executionOf_inl)
  · rw [hs]
    have hexec := @exec_complete P c.message s.1 v errorType row.id
    rw [text_verdictName] at hexec
    rw [hexec]
    refine hJ.report hrow hshows (hJ.checked.update fun r _ _ => r.check_completed v errorType s.1.clock) ?_
    exact fun x _ _ => ⟨⟨rfl, rfl, rfl, rfl, rfl, rfl, rfl⟩, hstores⟩

/-- A failure of the row that the thread is about. -/
theorem ResultsSound.fail (hJ : ResultsSound db₀ h φ s) {errorType : Option String} {id : Int}
    (hq : (φ i).Reports "failed" none errorType id) :
    ResultsSound db₀ ((s, .call i c ⟨.inl (.execute (.failSubmission errorType id)),
        (serveStatement P (.failSubmission errorType id) c s.1).1⟩) :: h)
      (Function.update φ i (φ i)) ((serveStatement P (.failSubmission errorType id) c s.1).2, s.2) := by
  obtain ⟨row, outcome, hrow, rfl, hshows, hstores⟩ := hq
  rcases serveStatement_cases (P := P) (.failSubmission errorType row.id) c s.1 with ⟨-, hs⟩ | ⟨-, hs⟩
  · rw [hs]
    exact hJ.call (.of_eq hJ.checked rfl) (fun h => h) (fun _ h => Or.inl h)
      ((hJ.evidence i).later executionOf_inl)
  · rw [hs, exec_fail hJ.checked]
    refine hJ.report hrow hshows (hJ.checked.update fun r hr hp =>
      r.check_failed (hJ.checked r hr) (runningRow_iff.mp hp).2 errorType s.1.clock) fun x hx hrunning => ?_
    refine ⟨⟨rfl, rfl, rfl, rfl, rfl, rfl, rfl⟩, ?_⟩
    have hnone : x.verdict = none :=
      ((SubmissionRow.lifecycle_of_check (hJ.checked x hx)).active (Or.inr hrunning)).1
    show Stores outcome "failed" x.verdict errorType
    rw [hnone]
    exact hstores

/-- **One call of any thread** keeps the invariant. -/
theorem ResultsSound.serve (hJ : ResultsSound db₀ h φ s) {q : (Backend.sum Executor).Request}
    (hq : (φ i).Allows q) :
    ResultsSound db₀ ((s, .call i c ⟨q, (((serve P).sum V) q c s).1⟩) :: h)
      (Function.update φ i ((φ i).next q (((serve P).sum V) q c s).1)) (((serve P).sum V) q c s).2 := by
  match q with
  | .inr request =>
      obtain ⟨row, tests, calls, hi⟩ := hq
      have hnext : (φ i).next (.inr request) (V request c s.2).1
          = .testing row tests (calls ++ [⟨request, (V request c s.2).1⟩]) := by
        rw [hi]
        rfl
      show ResultsSound db₀ _ (Function.update φ i ((φ i).next (.inr request) (V request c s.2).1)) _
      rw [hnext]
      exact hJ.execute hi request _ _
  | .inl (.executeLocked lock locked) =>
      cases locked with
      | claimSubmission limit => exact hJ.claim hq lock limit
      | insertSubmission | retrySubmission => exact hJ.quiet rfl
  | .inl .randomToken | .inl (.passwordHash _) | .inl (.judge _) => exact hJ.quiet rfl
  | .inl (.execute statement) =>
      cases statement with
      | completeSubmission verdict errorType id => exact hJ.complete hq
      | failSubmission errorType id => exact hJ.fail hq
      | selectTests id onlyEnabled =>
          rcases hq with hi | ⟨row, hi, rfl, rfl⟩
          · have hnext : (φ i).next (.inl (.execute (.selectTests id onlyEnabled)))
                (serveStatement P (.selectTests id onlyEnabled) c s.1).1 = φ i := by
              rw [hi]
              generalize (serveStatement P (.selectTests id onlyEnabled) c s.1).1 = reply
              cases reply <;> rfl
            show ResultsSound db₀ _ (Function.update φ i
              ((φ i).next (.inl (.execute (.selectTests id onlyEnabled)))
                (serveStatement P (.selectTests id onlyEnabled) c s.1).1)) _
            rw [hnext]
            exact hJ.quiet rfl
          · exact hJ.readTests hi
      | _ => exact hJ.quiet rfl

/-- A control step resets threads, and lets time pass. -/
theorem ResultsSound.control (hJ : ResultsSound db₀ h φ s) {b : SystemControl κ ι}
    (hs : s'.1.submissions = s.1.submissions)
    (hφ : ∀ i, φ' i = φ i ∨ φ' i = JudgingPhase.initial i) :
    ResultsSound db₀ ((s, .control b) :: h) φ' s' := by
  refine hJ.step (.of_eq hJ.checked hs) (fun i hi => ?_) (fun i row hrow => ?_) fun i => ?_
  · rcases hφ i with he | he
    · rw [he] at hi
      exact hJ.workers i hi
    · rw [he] at hi
      cases i with
      | worker k n => exact ⟨k, n, rfl⟩
      | starter _ | registrar _ | request _ _ => exact absurd rfl hi
  · rcases hφ i with he | he
    · rw [he] at hrow
      exact Or.inl hrow
    · rw [he] at hrow
      cases i <;> cases hrow
  · rcases hφ i with he | he
    · rw [he]
      exact (hJ.evidence i).later rfl
    · rw [he]
      cases i <;> trivial

end invariant

/-! ## Runs -/

section runs
variable {κ ι τ : Type} [DecidableEq κ] [DecidableEq ι] {D : Deployment κ} {V : Service Executor Choice τ}

/-- A control step gives threads programs that keep the discipline from the start. -/
theorem systemControl_follows {b : SystemControl κ ι} {p p' : System κ ι τ} {φ : Process κ ι → JudgingPhase}
    (hF : ∀ i, judgingProtocol.Follows AnyOutcome (φ i) (p.thread i))
    (hb : systemControl D b p = some p') : p'.shared.1.submissions = p.shared.1.submissions ∧
      ∃ φ' : Process κ ι → JudgingPhase, (∀ i, φ' i = φ i ∨ φ' i = JudgingPhase.initial i) ∧
        ∀ i, judgingProtocol.Follows AnyOutcome (φ' i) (p'.thread i) := by
  have hassign : ∀ (j : Process κ ι) {program : Judging ProcessResult},
      judgingProtocol.Follows AnyOutcome (JudgingPhase.initial j) program →
      ∃ φ' : Process κ ι → JudgingPhase, (∀ i, φ' i = φ i ∨ φ' i = JudgingPhase.initial i) ∧
        ∀ i, judgingProtocol.Follows AnyOutcome (φ' i) ((assign p j program).thread i) := by
    intro j program hprogram
    refine ⟨Function.update φ j (JudgingPhase.initial j), fun i => ?_, fun i => ?_⟩
    · by_cases hij : i = j
      · subst hij
        exact Or.inr (Function.update_self ..)
      · exact Or.inl (Function.update_of_ne hij ..)
    · by_cases hij : i = j
      · subst hij
        simp only [assign, Function.update_self]
        exact hprogram
      · simp only [assign, Function.update_of_ne hij]
        exact hF i
  refine ⟨(systemControl_shared hb).submissions, ?_⟩
  cases b with
  | openProblems k choices =>
      simp only [systemControl, Option.ite_none_right_eq_some, Option.some.injEq] at hb
      obtain ⟨-, rfl⟩ := hb
      exact ⟨φ, fun i => Or.inl rfl, hF⟩
  | start k =>
      simp only [systemControl, Option.ite_none_right_eq_some, Option.some.injEq] at hb
      obtain ⟨-, rfl⟩ := hb
      exact hassign (.starter k) starterProgram_follows
  | ensure k =>
      simp only [systemControl, Option.ite_none_right_eq_some, Option.some.injEq] at hb
      obtain ⟨-, rfl⟩ := hb
      exact hassign (.registrar k) (registrarProgram_follows k)
  | work k n =>
      simp only [systemControl, Option.ite_none_right_eq_some, Option.some.injEq] at hb
      obtain ⟨-, rfl⟩ := hb
      exact hassign (.worker k n) workerProgram_follows
  | arrive k i route request =>
      simp only [systemControl, Option.ite_none_right_eq_some, Option.some.injEq] at hb
      obtain ⟨-, rfl⟩ := hb
      exact hassign (.request k i) (requestProgram_follows route request)
  | exit k =>
      cases hb
      refine ⟨fun i => if i.backend = k then JudgingPhase.initial i else φ i, fun i => ?_, fun i => ?_⟩
      · dsimp only
        split
        · exact Or.inr rfl
        · exact Or.inl rfl
      · dsimp only
        split
        · trivial
        · exact hF i
  | elapse time =>
      cases hb
      exact ⟨φ, fun i => Or.inl rfl, hF⟩

/-- Every run keeps the invariant. -/
theorem resultsSound_of_run {db₀ : Database} {executor : τ} {h : SystemHistory κ ι τ} {p : System κ ι τ}
    (hdb : db₀.Checked) (hrun : Run (SystemStep D V) (deployed κ ι db₀ executor) h p) :
    ∃ φ, ResultsSound db₀ h φ p.shared := by
  have hinit : ResultsSound db₀ ([] : SystemHistory κ ι τ) JudgingPhase.initial (db₀, executor) := by
    refine ⟨hdb, fun i hi => ?_, fun i row hrow => ?_, fun i => ?_, fun r hr _ => Or.inl hr⟩
    · cases i with
      | worker k n => exact ⟨k, n, rfl⟩
      | starter _ | registrar _ | request _ _ => exact absurd rfl hi
    · cases i <;> cases hrow
    · cases i <;> trivial
  obtain ⟨φ, hJ, -⟩ := phases_of_watched judgingProtocol AnyOutcome (ResultsSound db₀) hrun
    ⟨JudgingPhase.initial, hinit, fun _ => trivial⟩
    (fun h p φ i c q _ hJ hq => ⟨served_admits q c p.shared, hJ.serve hq⟩)
    fun h p φ b p' _ hJ hF hb => by
      obtain ⟨hs, φ', hφ', hF'⟩ := systemControl_follows hF hb
      exact ⟨φ', hJ.control hs hφ', hF'⟩
  exact ⟨φ, hJ⟩

/-- **Every stored result was earned.** In every run of the backends, with any executor and whatever fails: a
    submission that is settled at the end was so at the beginning, or its status, verdict and error type are
    what came of a judging of it in the run (of a claim, where the judging came to no verdict). An accepted
    one had been run by a worker on every test that its problem had enabled when the worker read them, there
    was one at least, and each passed. -/
theorem results_earned {db₀ : Database} {executor : τ} {h : SystemHistory κ ι τ} {p : System κ ι τ}
    (hdb : db₀.Checked) (hrun : Run (SystemStep D V) (deployed κ ι db₀ executor) h p) :
    (∀ r ∈ p.shared.1.submissions, r.terminal → r ∈ db₀.submissions ∨
      ∃ outcome, Earned h r outcome ∧ Stores outcome r.status r.verdict r.errorType) ∧
    (∀ r ∈ p.shared.1.submissions, r ∉ db₀.submissions → r.verdict = some (verdictName .accepted) →
      ∃ k n read before later since, h = later ++ (since ++ read :: before) ∧
        (∃ claim ∈ before, Claims (.worker k n) r claim) ∧
        ReadsTests (.worker k n) r.problemId read ∧ enabledTests read.1.1 r.problemId ≠ [] ∧
        AllPass r.judgeRequest (enabledTests read.1.1 r.problemId) (executionsBy (.worker k n) since)) := by
  obtain ⟨φ, hJ⟩ := resultsSound_of_run hdb hrun
  refine ⟨hJ.earned, fun r hr hnew hverdict => ?_⟩
  have hcompleted : r.status = "completed" := by
    obtain ⟨-, ⟨-, hv, -⟩ | ⟨hs, -⟩ | ⟨-, hv, -⟩⟩ := (SubmissionRow.check_iff r).mp (hJ.checked r hr)
    · rw [hverdict] at hv; cases hv
    · exact hs
    · rw [hverdict] at hv; cases hv
  obtain ⟨outcome, hearned, hstores⟩ := (hJ.earned r hr (Or.inl hcompleted)).resolve_left hnew
  obtain rfl := hstores.accepted hverdict
  cases hearned with
  | untested _ _ hno =>
      obtain ⟨message, hm⟩ := hno _ rfl
      cases hm
  | tested hh hmem hclaim hread hsome hverdicted =>
      obtain ⟨k, n, rfl⟩ := hclaim.isWorker
      exact ⟨k, n, _, _, _, _, hh, ⟨_, hmem, hclaim⟩, hread, hsome, hverdicted.accepted.mp rfl⟩

end runs

/-! ### One submission is judged -/

/-- An administrator, a problem with one test, and a queued submission. -/
def oneToJudge : Database :=
  { oneAdmin with
      problemTests := Table.empty.insert ⟨1, "sum", "1 2", "3", 0, true, 1⟩
      submissions := Table.empty.insert
        ⟨1, "sum", "python", "print(3)", "queued", none, 0, none, none, none, none⟩ }

/-- One backend with one worker. -/
def oneBackend : Deployment Unit := ⟨.plain, [], fun _ => 1, fun _ => "admin", fun _ => "password1234"⟩

abbrev SystemMove := Process Unit Unit × Choice ⊕ SystemControl Unit Unit

/-- A step of a thread where nothing goes wrong. -/
def steps (i : Process Unit Unit) : SystemMove := .inl (i, .calm)

/-- The problem repository is opened, where nothing goes wrong. -/
def opens : SystemMove := .inr (.openProblems () fun _ => .calm)

/-- The backend starts, and its worker claims the submission, reads the problem and its tests, runs the test
    and stores the result. -/
def judgedOnce : List SystemMove :=
  [opens, .inr (.start ()), steps (.starter ()), .inr (.work () 0), steps (.worker () 0), steps (.worker () 0),
    steps (.worker () 0), steps (.worker () 0), steps (.worker () 0)]

def playedSystem (moves : List SystemMove) : Option (SystemHistory Unit Unit Unit × System Unit Unit Unit) :=
  watch ((serve Platform.plain).sum printsThree) (systemControl oneBackend) (fun _ _ _ => True) moves []
    (deployed Unit Unit oneToJudge ())

theorem run_of_played {moves : List SystemMove} {h : SystemHistory Unit Unit Unit}
    {p : System Unit Unit Unit} (hplayed : playedSystem moves = some (h, p)) :
    Run (SystemStep oneBackend printsThree) (deployed Unit Unit oneToJudge ()) h p := by
  unfold playedSystem at hplayed
  exact guarded_of_watch .start hplayed

/-- The submission, once it is accepted. -/
def acceptedRow : SubmissionRow :=
  ⟨1, "sum", "python", "print(3)", "completed", some "Accepted", 0, some 0, none, none, none⟩

theorem results_earned_accepted : ∃ (h : SystemHistory Unit Unit Unit) (p : System Unit Unit Unit),
    acceptedRow ∈ p.shared.1.submissions ∧
      ∃ k n read before later since, h = later ++ (since ++ read :: before) ∧
        (∃ claim ∈ before, Claims (.worker k n) acceptedRow claim) ∧
        ReadsTests (.worker k n) acceptedRow.problemId read ∧
        enabledTests read.1.1 acceptedRow.problemId ≠ [] ∧
        AllPass acceptedRow.judgeRequest (enabledTests read.1.1 acceptedRow.problemId)
          (executionsBy (.worker k n) since) := by
  have hrows : (playedSystem judgedOnce).map (fun x => x.2.shared.1.submissions.rows)
      = some [acceptedRow] := by decide +kernel
  obtain ⟨⟨h, p⟩, hplayed, hrows⟩ := Option.map_eq_some_iff.mp hrows
  have hrun := run_of_played hplayed
  have hmem : acceptedRow ∈ p.shared.1.submissions := by
    show acceptedRow ∈ p.shared.1.submissions.rows
    rw [hrows]
    exact List.mem_singleton_self _
  have hnew : acceptedRow ∉ oneToJudge.submissions.rows := by decide +kernel
  exact ⟨h, p, hmem, (results_earned (Database.checked_iff.mpr (by decide)) hrun).2 _ hmem hnew rfl⟩

end AlgorithmTrainer
