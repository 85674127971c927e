import AlgorithmTrainer.Lib.Scheduling
import AlgorithmTrainer.System.Verdicts

/-!
# `System.Recovery` — no state of the queue is a dead end

Calls that fail leave submissions running that nobody works on: a worker that could not report, a process that
ended. `restart_settles` says that this is never for good. From every state that the backends can reach,
whatever the other threads are in the middle of, one backend that is restarted settles every submission with
one worker, if nothing goes wrong then.

`processOne_calm` is one turn of a worker in full, for any answer of the judge; `run_judging` puts the problem
judge in its place.
-/

namespace AlgorithmTrainer

open Interaction Interaction.Pool Interaction.Protocol Transition Relational PostgreSQLSubmissionRepository

/-! ## Rows that are left -/

/-- Every submission is still there, and as it was if it had been settled. -/
def KeepsSettled (db db' : Database) : Prop :=
  ∀ r ∈ db.submissions, ∃ r' ∈ db'.submissions, SameSubmission r r' ∧ (r.terminal → r' = r)

theorem KeepsSettled.refl (db : Database) : KeepsSettled db db :=
  fun r hr => ⟨r, hr, .refl r, fun _ => rfl⟩

theorem KeepsSettled.trans {a b c : Database} (h : KeepsSettled a b) (h' : KeepsSettled b c) :
    KeepsSettled a c := by
  intro r hr
  obtain ⟨r₁, hr₁, hsame, hterminal⟩ := h r hr
  obtain ⟨r₂, hr₂, hsame', hterminal'⟩ := h' r₁ hr₁
  refine ⟨r₂, hr₂, hsame.trans hsame', fun ht => ?_⟩
  obtain rfl := hterminal ht
  exact hterminal' ht

/-- No submission is running. -/
def Database.NoneRunning (db : Database) : Prop := ∀ r ∈ db.submissions, r.status ≠ "running"

section rows
variable {db : Database}

/-- An update of rows that are not settled. -/
theorem keepsSettled_update {p : SubmissionRow → Bool} {f : SubmissionRow → SubmissionRow}
    {hf : ∀ r, p r = true → (f r).id = r.id} (hp : ∀ r, p r = true → ¬ r.terminal)
    (hsame : ∀ r, SameSubmission r (f r)) :
    KeepsSettled db { db with submissions := db.submissions.update p f hf } := by
  intro r hr
  by_cases hpr : p r = true
  · exact ⟨f r, Table.mem_update_of_pos hr hpr hf, hsame r, fun ht => absurd ht (hp r hpr)⟩
  · rw [Bool.not_eq_true] at hpr
    exact ⟨r, Table.mem_update_of_neg hr hpr hf, .refl r, fun _ => rfl⟩

theorem not_terminal_of_running {r : SubmissionRow} (h : r.status = "running") : ¬ r.terminal :=
  not_terminal (Or.inr h)

/-- A row that is not running is active exactly if it is queued. -/
theorem active_iff {r : SubmissionRow} (h : r.status ≠ "running") :
    r.active = true ↔ r.status = "queued" := by
  unfold SubmissionRow.active
  simp [h]

/-- A row that passes its constraints and is not active is settled. -/
theorem terminal_of_inactive {r : SubmissionRow} (hcheck : r.check = true) (h : r.active = false) :
    r.terminal := by
  unfold SubmissionRow.active at h
  simp only [Bool.or_eq_false_iff, beq_eq_false_iff_ne] at h
  obtain ⟨-, ⟨hs | hs, -⟩ | ⟨hs, -⟩ | ⟨hs, -⟩⟩ := (SubmissionRow.check_iff r).mp hcheck
  · exact absurd hs h.1
  · exact absurd hs h.2
  · exact Or.inl hs
  · exact Or.inr hs

theorem inactive_of_terminal {r : SubmissionRow} (h : r.terminal) : r.active = false := by
  unfold SubmissionRow.active
  rcases h with h | h
  all_goals
    rw [h]
    rfl

/-- Where nothing is running and somebody may run something, a claim finds a queued submission. -/
theorem candidate_of_queued {limit : Int} (hlimit : 0 < limit) (hnone : db.NoneRunning) {r : SubmissionRow}
    (hr : r ∈ db.submissions) (hs : r.status = "queued") :
    ∃ r', db.candidate limit (fun _ => false) = some r' := by
  have hrunning : ∀ user, db.runningOf user = 0 := by
    intro user
    refine Table.count_eq_zero.mpr fun x hx => ?_
    simp [hnone x hx]
  have hmem : r ∈ orderBy (fun a b => decide (a.id ≤ b.id)) (db.submissions.select fun r =>
      r.status == "queued" && decide ((db.runningOf r.userId : Int) < limit)) := by
    refine mem_orderBy.mpr (Table.mem_select.mpr ⟨hr, ?_⟩)
    simp [hs, hrunning, hlimit]
  refine Option.isSome_iff_exists.mp ?_
  unfold Database.candidate
  rw [List.find?_isSome]
  exact ⟨r, hmem, rfl⟩

end rows

/-! ## A worker's turn, for any judge -/

/-- A row is settled by it, and stays the same submission. -/
structure SettlesRow (f : SubmissionRow → SubmissionRow) : Prop where
  same : ∀ r, SameSubmission r (f r)
  terminal : ∀ r, (f r).terminal
  check : ∀ r, r.check = true → r.status = "running" → (f r).check = true

theorem settlesRow_failed (errorType : Option String) (now : Timestamp) :
    SettlesRow (failedRow errorType now) where
  same _ := ⟨rfl, rfl, rfl, rfl, rfl, rfl, rfl⟩
  terminal _ := Or.inr rfl
  check _ hr hs := SubmissionRow.check_failed hr hs errorType now

theorem settlesRow_completed (v : Verdict) (errorType : Option String) (now : Timestamp) :
    SettlesRow (completedRow (verdictName v) errorType now) where
  same _ := ⟨rfl, rfl, rfl, rfl, rfl, rfl, rfl⟩
  terminal _ := Or.inl rfl
  check r _ _ := r.check_completed v errorType now

/-- The database where the running row with this id is settled. -/
def Database.settle (db : Database) (id : Int) {f : SubmissionRow → SubmissionRow} (hf : SettlesRow f) :
    Database :=
  { db with submissions := db.submissions.update (runningRow id) f fun r _ => (hf.same r).id }

section turn
variable {P : Platform} {limits : PostgreSQLRepositoryLimits} {w : World Choice Database}
  {r : SubmissionRow} {x : SubmissionRecord}

/-- The program ends as processed, and settles the row. -/
def Reported (P : Platform) (id : Int) (db : Database) (p : Call WorkResult) (w : World Choice Database) :
    Prop :=
  ∃ (f : SubmissionRow → SubmissionRow) (hf : SettlesRow f) (w' : World Choice Database),
    p.run (serve P) w = (.ok .processed, w') ∧ w'.state = db.settle id hf

theorem fail_reported (hcalm : (w.choices 0).failure = none) (hdb : w.state.Checked) (id : Int)
    (errorType : String) : Reported P id w.state (do
      let _ ← PostgreSQLSubmissionRepository.fail P id (some errorType)
      pure WorkResult.processed) w := by
  obtain ⟨result, hx⟩ := run_fail_calm (P := P) hdb id (some errorType) hcalm
  refine ⟨_, settlesRow_failed ((some errorType).map text) w.state.clock, w.advance _, ?_, rfl⟩
  rw [Program.run_bind, hx]
  rfl

theorem report_reported (hcalm : (w.choices 0).failure = none) (hr : r ∈ w.state.submissions)
    (hs : r.status = "running") (v : Verdict) (errorType : Option String) :
    Reported P r.id w.state (do report P r.id v errorType; pure WorkResult.processed) w := by
  obtain ⟨y, hx⟩ := run_complete_calm (P := P) hr hs v errorType hcalm
  refine ⟨_, settlesRow_completed v (errorType.map text) w.state.clock, w.advance _, ?_, rfl⟩
  unfold report
  rw [Program.run_bind, Program.run_bind, hx]
  rfl

/-- What was judged is reported by one call, whatever the judge answered. -/
theorem judgeClaimed_reported (hcalm : (w.choices 1).failure = none) (hdb : w.state.Checked)
    (hr : r ∈ w.state.submissions) (hs : r.status = "running") (hid : x.id = r.id) :
    Reported P r.id w.state (judgeClaimed P x) w := by
  unfold Reported judgeClaimed
  rw [hid, Program.run_tryCatch, Program.run_bind, run_runJudge]
  cases (w.choices 0).judged with
  | error e => exact fail_reported (w := w.advance w.state) hcalm hdb r.id "Worker Error"
  | ok result =>
      cases result with
      | judgeError message =>
          obtain ⟨f, hf, w', hx, hstate⟩ :=
            fail_reported (P := P) (w := w.advance w.state) hcalm hdb r.id "Sandbox Error"
          refine ⟨f, hf, w', ?_, hstate⟩
          simp only [reportJudged, hx]
      | runtimeError type =>
          obtain ⟨f, hf, w', hx, hstate⟩ :=
            report_reported (P := P) (w := w.advance w.state) hcalm hr hs .runtimeError (some type)
          refine ⟨f, hf, w', ?_, hstate⟩
          simp only [reportJudged, hx]
      | verdict v =>
          obtain ⟨f, hf, w', hx, hstate⟩ :=
            report_reported (P := P) (w := w.advance w.state) hcalm hr hs v none
          refine ⟨f, hf, w', ?_, hstate⟩
          simp only [reportJudged, hx]

/-- **One turn, in full.** It claims the candidate and settles it, or there is none. -/
theorem processOne_calm (hcalm : ∀ n, (w.choices n).Served) (hdb : w.state.Checked) :
    (w.state.candidate limits.maximumRunningSubmissionsPerUser (fun _ => false) = none ∧
      ((processOne P limits).run (serve P) w).2.state = w.state) ∨
    ∃ (r : SubmissionRow) (f : SubmissionRow → SubmissionRow) (hf : SettlesRow f),
      w.state.candidate limits.maximumRunningSubmissionsPerUser (fun _ => false) = some r ∧
      ((processOne P limits).run (serve P) w).2.state
        = { w.state with submissions := w.state.submissions.put (claimedRow r) : Database }.settle r.id hf := by
  have hlocked : (w.choices 0).lockedRows = fun _ => false := funext (hcalm 0).2
  -- an undisturbed statement applies what it plans
  have hserved : ∀ s : LockedStatement, ∀ changes rows,
      (s.plan (fun _ => false) w.state) = (w.state, .ok (changes, rows)) →
      serveLocked s (w.choices 0) w.state = (.tuples rows, changes.apply w.state) := by
    intro s changes rows hplan
    unfold serveLocked
    rw [(hcalm 0).1, hlocked]
    simp only [hplan]
  have hplan := plan_claim (l := fun _ => false) hdb limits.maximumRunningSubmissionsPerUser
  unfold processOne
  rw [Program.run_bind]
  simp only [claimNext, run_executeLocked]
  cases hcandidate : w.state.candidate limits.maximumRunningSubmissionsPerUser (fun _ => false) with
  | none =>
      rw [hcandidate] at hplan
      refine Or.inl ⟨rfl, ?_⟩
      rw [hserved _ _ _ hplan]
      rfl
  | some r =>
      rw [hcandidate] at hplan
      obtain ⟨hr, hqueued, -⟩ := candidate_some hcandidate
      have hcheck : (claimedRow r).check = true := SubmissionRow.check_claimed (hdb r hr) hqueued
      obtain ⟨x, hx, -⟩ := record_checked (P := P) hcheck
      have hclaimed : claimedRow r ∈ w.state.submissions.put (claimedRow r) := Table.mem_put_self hr rfl
      -- whatever the judge says, the claimed row is then reported
      have hdb' : Database.Checked { w.state with submissions := w.state.submissions.put (claimedRow r) } :=
        hdb.commit (Planned.claimed (l := fun _ => false) hcandidate)
      obtain ⟨f, hf, w', hrun, hstate⟩ := judgeClaimed_reported (P := P)
        (w := w.advance { w.state with submissions := w.state.submissions.put (claimedRow r) }) (x := x)
        (hcalm 2).1 hdb' hclaimed rfl (record_columns hx).1
      refine Or.inr ⟨r, f, hf, rfl, ?_⟩
      rw [hserved _ _ _ hplan]
      simp only [optionalRecord, hx]
      exact (congrArg (fun o => o.2.state) hrun).trans hstate

end turn

/-- What a turn makes of a queue in which nothing is running. -/
structure TurnTaken (db db' : Database) : Prop where
  checked : db'.Checked
  noneRunning : db'.NoneRunning
  keeps : KeepsSettled db db'
  progress : db'.active < db.active ∨ ∀ r ∈ db'.submissions, r.terminal

section taken
variable {P : Platform} {limits : PostgreSQLRepositoryLimits} {w : World Choice Database} {db : Database}

/-- Where nothing is running and no candidate is found, everything is settled. -/
theorem terminal_of_no_candidate {limit : Int} (hlimit : 0 < limit) (hdb : db.Checked)
    (hnone : db.NoneRunning) (hcandidate : db.candidate limit (fun _ => false) = none) :
    ∀ r ∈ db.submissions, r.terminal := by
  intro r hr
  refine terminal_of_inactive (hdb r hr) ?_
  by_contra hactive
  rw [Bool.not_eq_false] at hactive
  obtain ⟨r', hr'⟩ := candidate_of_queued hlimit hnone hr ((active_iff (hnone r hr)).mp hactive)
  rw [hcandidate] at hr'
  cases hr'

/-- A claimed candidate that is settled. -/
theorem turnTaken_settle {limit : Int} {r : SubmissionRow} {f : SubmissionRow → SubmissionRow}
    (hf : SettlesRow f) (hdb : db.Checked) (hnone : db.NoneRunning)
    (hcandidate : db.candidate limit (fun _ => false) = some r) :
    TurnTaken db ({ db with submissions := db.submissions.put (claimedRow r) : Database }.settle r.id hf) := by
  obtain ⟨hr, hqueued, -⟩ := candidate_some hcandidate
  have hdb' : Database.Checked { db with submissions := db.submissions.put (claimedRow r) } :=
    hdb.commit (Planned.claimed (l := fun _ => false) hcandidate)
  -- the claimed row is the only one that runs
  have hrunning : ∀ x ∈ db.submissions.put (claimedRow r), x.status = "running" → x = claimedRow r := by
    intro x hx hs
    rcases Table.mem_put.mp hx with ⟨hx, -⟩ | ⟨hx, -⟩
    · exact absurd hs (hnone x hx)
    · exact hx
  have hclaimed : claimedRow r ∈ db.submissions.put (claimedRow r) := Table.mem_put_self hr rfl
  have hterminal : ∀ x : SubmissionRow, x.terminal → x.status ≠ "running" := by
    rintro x (hx | hx) <;> rw [hx] <;> decide
  refine ⟨?_, fun x hx => ?_, fun x hx => ?_, Or.inl ?_⟩
  · exact hdb'.update fun x hx hp => hf.check x (hdb' x hx) (runningRow_iff.mp hp).2
  · obtain ⟨y, hy, rfl⟩ := (Table.mem_update fun r _ => (hf.same r).id).mp hx
    split
    · exact hterminal _ (hf.terminal y)
    · rename_i hp
      intro hs
      obtain rfl := hrunning y hy hs
      exact hp (runningRow_iff.mpr ⟨rfl, rfl⟩)
  · -- the claimed row is settled, and the others are left alone
    by_cases hid : x.id = r.id
    · obtain rfl := Table.eq_of_key hx hr hid
      refine ⟨f (claimedRow x), Table.mem_update_of_pos hclaimed (runningRow_iff.mpr ⟨rfl, rfl⟩)
        fun r _ => (hf.same r).id, ?_, fun ht => absurd ht (not_terminal (Or.inl hqueued))⟩
      have hclaim : SameSubmission x (claimedRow x) := ⟨rfl, rfl, rfl, rfl, rfl, rfl, rfl⟩
      exact hclaim.trans (hf.same (claimedRow x))
    · have hput : x ∈ db.submissions.put (claimedRow r) := Table.mem_put.mpr (Or.inl ⟨hx, hid⟩)
      refine ⟨x, Table.mem_update_of_neg hput ?_ fun r _ => (hf.same r).id, .refl x, fun _ => rfl⟩
      rw [← Bool.not_eq_true]
      exact fun hp => hid (runningRow_iff.mp hp).1
  · have hput : (db.submissions.put (claimedRow r)).count SubmissionRow.active = db.active := by
      refine Table.count_put_eq fun x hx hid => ?_
      obtain rfl : x = r := Table.eq_of_key hx hr hid
      unfold SubmissionRow.active
      rw [hqueued]
      rfl
    -- claiming keeps the number of active rows, and settling lowers it
    rw [← hput]
    show ((db.submissions.put (claimedRow r)).update (runningRow r.id) f fun r _ => (hf.same r).id).count
      SubmissionRow.active < _
    refine Table.count_update_lt hclaimed (runningRow_iff.mpr ⟨rfl, rfl⟩) rfl ?_ fun x _ _ hactive => ?_
    · exact inactive_of_terminal (hf.terminal _)
    · rw [inactive_of_terminal (hf.terminal x)] at hactive
      cases hactive

theorem processOne_taken (hcalm : ∀ n, (w.choices n).Served) (hdb : w.state.Checked)
    (hnone : w.state.NoneRunning) (hlimit : 0 < limits.maximumRunningSubmissionsPerUser) :
    TurnTaken w.state ((processOne P limits).run (serve P) w).2.state := by
  rcases @processOne_calm P limits w hcalm hdb with
    ⟨hcandidate, hstate⟩ | ⟨r, f, hf, hcandidate, hstate⟩
  · rw [hstate]
    refine ⟨hdb, hnone, .refl _, Or.inr ?_⟩
    exact terminal_of_no_candidate (by exact_mod_cast hlimit) hdb hnone hcandidate
  · rw [hstate]
    exact turnTaken_settle hf hdb hnone hcandidate

end taken

/-! ## The problem judge in the place of the judge -/

section judging
variable {P : Platform} {τ : Type} {V : Service Executor Choice τ}

/-- What the judge asks. -/
def JudgeAsks : (Backend.sum Executor).Request → Prop
  | .inl (.execute (.selectProblem ..)) | .inl (.execute (.selectTests ..)) | .inr _ => True
  | _ => False

theorem judgeTests_asks (request : JudgeRequest) (tests : List ProblemTestCase) :
    (Protocol.only JudgeAsks).Follows AnyOutcome () (ProblemJudge.judgeTests request tests) := by
  induction tests with
  | nil => trivial
  | cons testCase tests ih =>
      refine ⟨trivial, fun answer _ => ?_⟩
      rcases passes_or_fails testCase answer with hpasses | ⟨result, hfails⟩
      · rw [judgeExecution_passes hpasses]
        exact ih
      · rw [judgeExecution_fails hfails]
        trivial

theorem judge_asks (request : JudgeRequest) :
    (Protocol.only JudgeAsks).Follows AnyOutcome () (ProblemJudge.run request) := by
  refine ⟨trivial, fun result _ => ?_⟩
  cases result with
  | none | failed _ _ | command => trivial
  | tuples rows =>
      cases rows with
      | nil => trivial
      | cons row rows =>
          show (Protocol.only JudgeAsks).Follows AnyOutcome ()
            ((PostgreSQLProblemRepository.readProblem row .enabled >>= fun problem =>
              pure (problem.map some)).inl >>= ProblemJudge.judgeFound request)
          unfold PostgreSQLProblemRepository.readProblem
          cases (PostgreSQLProblemRepository.problemOfRow row).run with
          | error exception => trivial
          | ok read =>
              cases read with
              | error error => trivial
              | ok problem =>
                  refine ⟨trivial, fun result _ => ?_⟩
                  cases result with
                  | none | failed _ _ | command => trivial
                  | tuples rows =>
                      show (Protocol.only JudgeAsks).Follows AnyOutcome () (ite _ _ _)
                      split
                      · trivial
                      · exact judgeTests_asks request _

/-- The judge reads the database only. -/
theorem judge_reads (request : JudgeRequest) (w : World Choice (Database × τ)) :
    ((ProblemJudge.run request).run ((serve P).sum V) w).2.state.1 = w.state.1 := by
  refine (judge_asks request).run_rel (R := fun s s' : Database × τ => s'.1 = s.1) (fun _ => rfl)
    (fun h h' => h'.trans h) (fun _ _ _ _ => trivial) fun _ q c s hq => ?_
  cases q with
  | inr q => rfl
  | inl q =>
      cases q with
      | execute t =>
          cases t with
          | selectProblem id onlyEnabled =>
              show (serveStatement P (.selectProblem id onlyEnabled) c s.1).2 = s.1
              unfold serveStatement
              split <;> rfl
          | selectTests id onlyEnabled =>
              show (serveStatement P (.selectTests id onlyEnabled) c s.1).2 = s.1
              unfold serveStatement
              split <;> rfl
          | _ => exact hq.elim
      | _ => exact hq.elim

/-- **The problem judge is a judge.** A program whose requests to the judge are answered by the problem judge
    runs as the program itself does with some answers of the judge. -/
theorem run_judging {α : Type} (p : Call α) (w : World Choice (Database × τ))
    (hcalm : ∀ n, (w.choices n).Served) :
    ∃ choices : Nat → Choice, (∀ n, (choices n).Served) ∧
      ((p.handle judging).run ((serve P).sum V) w).1 = (p.run (serve P) ⟨choices, w.state.1⟩).1 ∧
      ((p.handle judging).run ((serve P).sum V) w).2.state.1
        = (p.run (serve P) ⟨choices, w.state.1⟩).2.state := by
  induction p generalizing w with
  | ret a => exact ⟨w.choices, hcalm, rfl, rfl⟩
  | raise e => exact ⟨w.choices, hcalm, rfl, rfl⟩
  | call q k ih =>
      have hserved : ∀ (c : Choice) (choices : Nat → Choice), c.Served → (∀ n, (choices n).Served) →
          ∀ n, (first c choices n).Served := by
        intro c choices hc hchoices n
        cases n with
        | zero => exact hc
        | succ n => exact hchoices n
      cases q with
      | judge request =>
          -- the answer is the outcome of the problem judge
          let judged := (ProblemJudge.run request).run ((serve P).sum V) w
          have hstate : judged.2.state.1 = w.state.1 := judge_reads request w
          obtain ⟨m, hm⟩ := (ProblemJudge.run request).run_choices (V := (serve P).sum V) w
          obtain ⟨choices, hchoices, houtcome, hleft⟩ := ih judged.1 judged.2 fun n => by
            rw [hm]
            exact hcalm (n + m)
          rw [hstate] at houtcome hleft
          have hrun : ((Program.call (S := Backend) (.judge request) k).handle judging).run ((serve P).sum V) w
              = ((k judged.1).handle judging).run ((serve P).sum V) judged.2 := by
            show ((ProblemJudge.run request).attempt >>= fun r => (k r).handle judging).run _ w = _
            rw [Program.run_bind, Program.run_attempt]
          refine ⟨first { w.choices 0 with judged := judged.1 } choices,
            hserved _ _ (hcalm 0) hchoices, ?_, ?_⟩
          · rw [hrun]
            exact houtcome
          · rw [hrun]
            exact hleft
      | execute | executeLocked | randomToken | passwordHash =>
          obtain ⟨choices, hchoices, houtcome, hleft⟩ := ih _
            (w.advance (((serve P).sum V) (.inl _) (w.choices 0) w.state).2) fun n => hcalm (n + 1)
          exact ⟨first (w.choices 0) choices, hserved _ _ (hcalm 0) hchoices, houtcome, hleft⟩

end judging

/-! ## The start of a pool -/

/-- The database where the running rows are queued again. -/
def Database.recovered (db : Database) : Database :=
  { db with submissions := db.submissions.update anyRunning recoveredRow }

section recovered
variable {P : Platform} {w : World Choice Database} {db : Database}

theorem startPool_calm (hcalm : (w.choices 0).Served) (hdb : w.state.Checked) :
    startPool.run (serve P) w = (.ok (.started none), w.advance w.state.recovered) := by
  have hserved : serveStatement P .recoverRunning (w.choices 0) w.state
      = (.tuples ((w.state.submissions.select anyRunning).map (·.id)), w.state.recovered) := by
    unfold serveStatement
    rw [hcalm.1, exec_recover hdb]
    rfl
  unfold startPool recoverRunning
  rw [Program.run_bind, run_execute, hserved]
  rfl

theorem checked_recovered (hdb : db.Checked) : db.recovered.Checked :=
  hdb.update fun r hr hp => r.check_recovered (hdb r hr) (anyRunning_iff.mp hp)

theorem noneRunning_recovered : db.recovered.NoneRunning := by
  intro x hx
  obtain ⟨r, -, rfl⟩ := (Table.mem_update (f := recoveredRow) fun _ _ => rfl).mp hx
  split
  · show "queued" ≠ "running"
    decide
  · rename_i hp
    exact fun hs => hp (anyRunning_iff.mpr hs)

theorem keepsSettled_recovered : KeepsSettled db db.recovered := by
  refine keepsSettled_update (fun r hp => not_terminal_of_running (anyRunning_iff.mp hp)) fun r => ?_
  exact ⟨rfl, rfl, rfl, rfl, rfl, rfl, rfl⟩

theorem active_recovered_le : db.recovered.active ≤ db.active := by
  show (db.submissions.update anyRunning recoveredRow).count SubmissionRow.active ≤ _
  refine Table.count_update_le fun r _ hp _ => ?_
  unfold SubmissionRow.active
  rw [anyRunning_iff.mp hp]
  rfl

end recovered

/-! ## A backend that is restarted -/

section restart
variable {κ ι τ : Type} [DecidableEq κ] [DecidableEq ι] {D : Deployment κ} {V : Service Executor Choice τ}
  {db₀ : Database} {executor : τ} {h : SystemHistory κ ι τ} {p : System κ ι τ} {k : κ}

/-- A step of the backend in which nothing goes wrong: its process ends or starts, a worker of it takes a
    turn, or a thread of it makes a call. -/
def RestartStep (k : κ) (l : (Database × τ) × SystemEvent κ ι) : Prop :=
  (∃ i x, l.2 = .call i .calm x ∧ i.backend = k) ∨ l.2 = .control (.exit k) ∨ l.2 = .control (.start k) ∨
    ∃ n, l.2 = .control (.work k n)

def isTurn : SystemEvent κ ι → Bool
  | .control (.work _ _) => true
  | _ => false

/-- How many turns workers have taken. -/
def turns (h : SystemHistory κ ι τ) : Nat := h.countP fun l => isTurn l.2

/-- Its first worker can take a turn. -/
structure Restarted (k : κ) (p : System κ ι τ) : Prop where
  started : hasStarted (p.thread (.starter k)) = true
  idle : isDone (p.thread (.worker k 0)) = true
  checked : p.shared.1.Checked
  noneRunning : p.shared.1.NoneRunning

omit [DecidableEq κ] [DecidableEq ι] in
theorem isDone_ended {o : Except Exception ProcessResult} : isDone (.ended o) = true := by
  cases o <;> rfl

/-- A thread that is scheduled alone, with calls that do not fail, runs its program on the database, with
    some answers of the judge. -/
theorem run_thread_calm (hrun : Run (SystemStep D V) (deployed κ ι db₀ executor) h p) (i : Process κ ι)
    (hi : i.backend = k) {q : Call ProcessResult} (hq : p.thread i = q.handle judging) :
    ∃ h' p' choices, Run (SystemStep D V) (deployed κ ι db₀ executor) (h' ++ h) p' ∧
      (∀ l ∈ h', RestartStep k l) ∧ turns h' = 0 ∧ (∀ n, (choices n : Choice).Served) ∧
      p'.thread = Function.update p.thread i
        (.ended (q.run (serve D.server.P) ⟨choices, p.shared.1⟩).1) ∧
      p'.shared.1 = (q.run (serve D.server.P) ⟨choices, p.shared.1⟩).2.state := by
  obtain ⟨h', p', hrun', hcalls, hthread, hshared⟩ := run_scheduled hrun i fun _ => .calm
  obtain ⟨choices, hchoices, houtcome, hstate⟩ := run_judging (P := D.server.P) (V := V) q
    ⟨fun _ => .calm, p.shared⟩ fun _ => ⟨rfl, fun _ => rfl⟩
  rw [hq] at hthread hshared
  refine ⟨h', p', choices, hrun', fun l hl => ?_, ?_, hchoices, ?_, ?_⟩
  · obtain ⟨n, x, hx⟩ := hcalls l hl
    exact Or.inl ⟨i, x, hx, hi⟩
  · refine List.countP_eq_zero.mpr fun l hl => ?_
    obtain ⟨n, x, hx⟩ := hcalls l hl
    rw [hx]
    exact Bool.false_ne_true
  · rw [hthread, houtcome]
  · rw [hshared, hstate]

/-- A backend that is restarted recovers what was running. -/
theorem restart_recovers (hdb : db₀.Checked)
    (hrun : Run (SystemStep D V) (deployed κ ι db₀ executor) h p) :
    ∃ h' p', Run (SystemStep D V) (deployed κ ι db₀ executor) (h' ++ h) p' ∧
      (∀ l ∈ h', RestartStep k l) ∧ turns h' = 0 ∧ Restarted k p' ∧
      p'.shared.1 = p.shared.1.recovered := by
  obtain ⟨φ, hJ⟩ := resultsSound_of_run hdb hrun
  -- kill, start again, and let the new start-up thread run to its end
  have hexit := Run.next hrun (⟨rfl, .control rfl⟩ : SystemStep D V p (p.shared, .control (.exit k)) _)
  have hstart := Run.next hexit
    (⟨rfl, .control (if_pos (by simp [Process.backend, isFresh]))⟩ : SystemStep D V _ (_, .control (.start k)) _)
  obtain ⟨h', p', choices, hrun', hsteps, hturns, hchoices, hthread, hstate⟩ :=
    run_thread_calm (k := k) hstart (.starter k) rfl (q := ProcessResult.pool <$> startPool)
      (Function.update_self ..)
  -- start() asks for recover_running, which nothing disturbs
  have hpool : (ProcessResult.pool <$> startPool).run (serve D.server.P) ⟨choices, p.shared.1⟩
      = (.ok (.pool (.started none)), World.advance ⟨choices, p.shared.1⟩ p.shared.1.recovered) := by
    show (startPool >>= fun a => pure (ProcessResult.pool a)).run (serve D.server.P) _ = _
    rw [Program.run_bind, startPool_calm (w := ⟨choices, p.shared.1⟩) (hchoices 0) hJ.checked]
    rfl
  have hstate' : p'.shared.1 = p.shared.1.recovered := by
    rw [hstate]
    exact congrArg (fun o => o.2.state) hpool
  refine ⟨h' ++ [(p.shared, .control (.start k)), (p.shared, .control (.exit k))], p', ?_,
    fun l hl => ?_, ?_, ⟨?_, ?_, ?_, ?_⟩, hstate'⟩
  · rwa [List.append_assoc]
  · rcases List.mem_append.mp hl with hl | hl
    · exact hsteps l hl
    · simp only [List.mem_cons, List.not_mem_nil, or_false] at hl
      rcases hl with rfl | rfl
      · exact Or.inr (Or.inr (Or.inl rfl))
      · exact Or.inr (Or.inl rfl)
  · unfold turns at hturns ⊢
    rw [List.countP_append, hturns]
    rfl
  · rw [hthread, Function.update_self]
    exact congrArg (fun o => hasStarted (.ended o.1)) hpool
  · have hworker : Process.worker (ι := ι) k 0 ≠ .starter k := fun h => by cases h
    rw [hthread, Function.update_of_ne hworker]
    dsimp only [assign]
    rw [Function.update_of_ne hworker]
    exact congrArg isDone (if_pos rfl)
  · rw [hstate']
    exact checked_recovered hJ.checked
  · rw [hstate']
    exact noneRunning_recovered

/-- **One turn of a worker.** -/
theorem turn_taken (hworkers : 0 < D.workerCount k)
    (hlimit : 0 < D.server.limits.maximumRunningSubmissionsPerUser) (hrestarted : Restarted k p)
    (hrun : Run (SystemStep D V) (deployed κ ι db₀ executor) h p) :
    ∃ h' p', Run (SystemStep D V) (deployed κ ι db₀ executor) (h' ++ h) p' ∧
      (∀ l ∈ h', RestartStep k l) ∧ turns h' = 1 ∧ Restarted k p' ∧
      TurnTaken p.shared.1 p'.shared.1 := by
  have hwork := Run.next hrun
    (⟨rfl, .control (if_pos ⟨hworkers, hrestarted.started, hrestarted.idle⟩)⟩ :
      SystemStep D V p (p.shared, .control (.work k 0)) _)
  obtain ⟨h', p', choices, hrun', hsteps, hturns, hchoices, hthread, hstate⟩ :=
    run_thread_calm (k := k) hwork (.worker k 0) rfl
      (q := ProcessResult.pool <$> worker D.server.P D.server.limits) (Function.update_self ..)
  -- one turn of the worker is one run of process_one
  have htaken : TurnTaken p.shared.1 p'.shared.1 := by
    have h := processOne_taken (P := D.server.P) (w := ⟨choices, p.shared.1⟩) hchoices hrestarted.checked
      hrestarted.noneRunning hlimit
    have hworker : ((ProcessResult.pool <$> worker D.server.P D.server.limits).run (serve D.server.P)
        ⟨choices, p.shared.1⟩).2.state
        = ((processOne D.server.P D.server.limits).run (serve D.server.P) ⟨choices, p.shared.1⟩).2.state := by
      show ((processOne D.server.P D.server.limits >>= fun a => pure (PoolResult.worked a)) >>=
        fun a => pure (ProcessResult.pool a)).run (serve D.server.P) ⟨choices, p.shared.1⟩ |>.2.state = _
      rw [Program.run_bind, Program.run_bind]
      generalize (processOne D.server.P D.server.limits).run (serve D.server.P) ⟨choices, p.shared.1⟩ = o
      obtain ⟨o, w⟩ := o
      cases o <;> rfl
    rw [hstate]
    exact hworker ▸ h
  refine ⟨h' ++ [(p.shared, .control (.work k 0))], p', ?_, fun l hl => ?_, ?_,
    ⟨?_, ?_, htaken.checked, htaken.noneRunning⟩, htaken⟩
  · rwa [List.append_assoc]
  · rcases List.mem_append.mp hl with hl | hl
    · exact hsteps l hl
    · rw [List.mem_singleton.mp hl]
      exact Or.inr (Or.inr (Or.inr ⟨0, rfl⟩))
  · unfold turns at hturns ⊢
    rw [List.countP_append, hturns]
    rfl
  · have hstarter : Process.starter (ι := ι) k ≠ .worker k 0 := fun h => by cases h
    rw [hthread, Function.update_of_ne hstarter]
    dsimp only [assign]
    rw [Function.update_of_ne hstarter]
    exact hrestarted.started
  · rw [hthread, Function.update_self]
    exact isDone_ended

/-- Turn after turn, by what is left to do. -/
theorem queue_drained (hworkers : 0 < D.workerCount k)
    (hlimit : 0 < D.server.limits.maximumRunningSubmissionsPerUser) {n : Nat}
    (hn : p.shared.1.active ≤ n) (hrestarted : Restarted k p)
    (hrun : Run (SystemStep D V) (deployed κ ι db₀ executor) h p) :
    ∃ h' p', Run (SystemStep D V) (deployed κ ι db₀ executor) (h' ++ h) p' ∧
      (∀ l ∈ h', RestartStep k l) ∧ turns h' ≤ n ∧ (∀ r ∈ p'.shared.1.submissions, r.terminal) ∧
      KeepsSettled p.shared.1 p'.shared.1 := by
  induction n generalizing h p with
  | zero =>
      refine ⟨[], p, hrun, fun _ hl => (by cases hl), le_rfl, fun r hr => ?_, .refl _⟩
      refine terminal_of_inactive (hrestarted.checked r hr) ?_
      exact Table.count_eq_zero.mp (Nat.le_zero.mp hn) r hr
  | succ n ih =>
      obtain ⟨h₁, p₁, hrun₁, hsteps₁, hturns₁, hrestarted₁, htaken⟩ :=
        turn_taken hworkers hlimit hrestarted hrun
      rcases htaken.progress with hless | hterminal
      · obtain ⟨h₂, p₂, hrun₂, hsteps₂, hturns₂, hterminal, hkeeps⟩ :=
          ih (by omega) hrestarted₁ hrun₁
        refine ⟨h₂ ++ h₁, p₂, by rwa [List.append_assoc], fun l hl => ?_, ?_, hterminal,
          htaken.keeps.trans hkeeps⟩
        · exact (List.mem_append.mp hl).elim (hsteps₂ l) (hsteps₁ l)
        · unfold turns at hturns₁ hturns₂ ⊢
          rw [List.countP_append]
          omega
      · exact ⟨h₁, p₁, hrun₁, hsteps₁, by omega, hterminal, htaken.keeps⟩

/-- **No state of the queue is a dead end.** From every state that the backends can come to, whatever failed
    on the way and whatever the threads are in the middle of, the backend `k` alone can settle every
    submission: it is restarted, and one worker takes no more turns than there are submissions to be settled.
    Nothing that had been settled changes, whatever the executor answers. -/
theorem restart_settles (hworkers : 0 < D.workerCount k)
    (hlimit : 0 < D.server.limits.maximumRunningSubmissionsPerUser) (hdb : db₀.Checked)
    (hrun : Run (SystemStep D V) (deployed κ ι db₀ executor) h p) :
    ∃ h' p', Run (SystemStep D V) (deployed κ ι db₀ executor) (h' ++ h) p' ∧
      (∀ l ∈ h', RestartStep k l) ∧ turns h' ≤ p.shared.1.active ∧
      (∀ r ∈ p'.shared.1.submissions, r.terminal) ∧ KeepsSettled p.shared.1 p'.shared.1 := by
  obtain ⟨h₁, p₁, hrun₁, hsteps₁, hturns₁, hrestarted, hrecovered⟩ := restart_recovers (k := k) hdb hrun
  have hactive : p₁.shared.1.active ≤ p.shared.1.active := by
    rw [hrecovered]
    exact active_recovered_le
  obtain ⟨h₂, p₂, hrun₂, hsteps₂, hturns₂, hterminal, hkeeps⟩ :=
    queue_drained hworkers hlimit hactive hrestarted hrun₁
  refine ⟨h₂ ++ h₁, p₂, by rwa [List.append_assoc], fun l hl => ?_, ?_, hterminal, ?_⟩
  · exact (List.mem_append.mp hl).elim (hsteps₂ l) (hsteps₁ l)
  · unfold turns at hturns₁ hturns₂ ⊢
    rw [List.countP_append]
    omega
  · rw [hrecovered] at hkeeps
    exact keepsSettled_recovered.trans hkeeps

end restart

/-- The backend's worker has claimed the submission, and has come no further. -/
def claimedOnce : List SystemMove :=
  [opens, .inr (.start ()), steps (.starter ()), .inr (.work () 0), steps (.worker () 0)]

theorem restart_settles_claimed : ∃ (h : SystemHistory Unit Unit Unit) (p : System Unit Unit Unit),
    p.shared.1.submissions.rows.map SubmissionRow.status = ["running"] ∧
    ∃ h' p', Run (SystemStep oneBackend printsThree) (deployed Unit Unit oneToJudge ()) (h' ++ h) p' ∧
      (∀ l ∈ h', RestartStep () l) ∧ turns h' ≤ p.shared.1.active ∧
      (∀ r ∈ p'.shared.1.submissions, r.terminal) ∧ KeepsSettled p.shared.1 p'.shared.1 := by
  have hrows : (playedSystem claimedOnce).map (fun x => x.2.shared.1.submissions.rows.map SubmissionRow.status)
      = some ["running"] := by decide +kernel
  obtain ⟨⟨h, p⟩, hplayed, hrows⟩ := Option.map_eq_some_iff.mp hrows
  exact ⟨h, p, hrows, restart_settles (by decide) (by decide) (Database.checked_iff.mpr (by decide))
    (run_of_played hplayed)⟩

end AlgorithmTrainer
