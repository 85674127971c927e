import AlgorithmTrainer.Executor.Execution
import AlgorithmTrainer.Judge.ProblemJudge

/-!
# `Judge.Category` — the categories of the infrastructure

`run_isolated` reports an exceeded output limit twice, as an error type and as an exit code of its own, and
`classify_runtime_error` reads both; the exit code of a child that could not be launched is read the same
way. A submitted program is free in its exit status, so it can return these codes as well.

`categoriesFaithful_iff` says for which executions "Output Limit Exceeded" and "Sandbox Runtime Error" mean
what they say.
-/

namespace AlgorithmTrainer

open Transition

/-! ## The reported category -/

/-- The category under which the judge reports what the executor returns, if it reports a runtime error. -/
def reportedCategory : ExecutorResult Bytes → Option String
  | .error _ => none
  | .ok execution =>
      if execution.timedOut then none
      else if execution.exitCode != 0 then some (classifyRuntimeError execution)
      else none

section classification
variable {execution : ExecutionResult Bytes}

/-- A category that begins with another character. -/
theorem append_ne_of_head {s t : String} (rest : String) {c d : Char} {cs ds : List Char}
    (hs : s.toList = c :: cs) (ht : t.toList = d :: ds) (hne : c ≠ d) : s ++ rest ≠ t := by
  intro h
  have hlist := congrArg String.toList h
  rw [String.toList_append, hs, ht, List.cons_append] at hlist
  exact hne (List.cons.inj hlist).1

/-- A category that is found on stderr, or for want of anything there, is none of the two. -/
theorem classify_of_code (htype : execution.errorType = none) (h120 : execution.exitCode ≠ 120)
    (h127 : execution.exitCode ≠ 127) :
    classifyRuntimeError execution ≠ "Output Limit Exceeded" ∧
      classifyRuntimeError execution ≠ "Sandbox Runtime Error" := by
  unfold classifyRuntimeError
  simp only [htype, beq_iff_eq, h120, h127, if_false]
  split
  · exact ⟨by decide, by decide⟩
  · split
    · exact ⟨by decide, by decide⟩
    · split
      · exact ⟨append_ne_of_head _ rfl rfl (by decide), append_ne_of_head _ rfl rfl (by decide)⟩
      · split
        · exact ⟨append_ne_of_head _ rfl rfl (by decide), append_ne_of_head _ rfl rfl (by decide)⟩
        · exact ⟨by decide, by decide⟩

end classification

/-! ## The result of a phase -/

/-- The exit status of the phase is what `run_isolated` reports. -/
structure SupervisedRun.Concluded {limits : SupervisionLimits} (phase : SupervisedRun limits) : Prop where
  launched : phase.execError = none
  inTime : ¬ phase.TimedOut
  within : phase.produced ≤ limits.outputLimit
  initialized : nsjailFailedToInitialize phase.final.status phase.log = false

section phases
variable {limits : SupervisionLimits} {request : ExecutionRequest}
  {answers : NsJailPythonExecutor.Answers limits} {phase : SupervisedRun limits}

theorem finish_concluded (h : phase.Concluded) :
    finish phase.execError phase.log phase.final = .ok
      { exitCode := executionExitCode phase.final.status
        standardOutput := phase.final.stdout.text
        standardError := phase.final.stderr.text
        timedOut := false
        errorType := none } := by
  have htimed : phase.final.timedOut = false :=
    Bool.eq_false_iff.mpr fun h' => h.inTime (phase.timedOut_final.mp h')
  have hwithin : phase.final.output.limitExceeded = false :=
    Bool.eq_false_iff.mpr fun h' => absurd (phase.limitExceeded_final.mp h') (Nat.not_lt.mpr h.within)
  simp [finish, h.launched, htimed, hwithin, h.initialized]

/-- Where something else than the exit status decides, the output limit is reported if it is exceeded in time,
    and no other category is. -/
theorem finish_unconcluded (h : ¬ phase.Concluded) :
    (limits.outputLimit < phase.produced ∧ ¬ phase.TimedOut ∧
        reportedCategory (finish phase.execError phase.log phase.final)
          = some "Output Limit Exceeded") ∨
      (¬ (limits.outputLimit < phase.produced ∧ ¬ phase.TimedOut) ∧
        reportedCategory (finish phase.execError phase.log phase.final) = none) := by
  unfold finish
  cases hexec : phase.execError with
  | some description =>
      -- A child that was not launched has printed nothing.
      obtain ⟨-, hout, herr⟩ := phase.unlaunched (by rw [hexec]; rfl)
      have hproduced : phase.produced = 0 := by
        unfold SupervisedRun.produced
        rw [hout, herr]
        rfl
      exact Or.inr ⟨fun h => by omega, rfl⟩
  | none =>
      by_cases hlimit : limits.outputLimit < phase.produced
      · have hflag := phase.limitExceeded_final.mpr hlimit
        by_cases htimed : phase.TimedOut
        · refine Or.inr ⟨fun h => h.2 htimed, ?_⟩
          simp [hflag, phase.timedOut_final.mpr htimed, reportedCategory]
        · have hfalse : phase.final.timedOut = false :=
            Bool.eq_false_iff.mpr fun h' => htimed (phase.timedOut_final.mp h')
          refine Or.inl ⟨hlimit, htimed, ?_⟩
          simp [hflag, hfalse, reportedCategory, outputLimitExitCode, classifyRuntimeError]
      · have hflag : phase.final.output.limitExceeded = false :=
          Bool.eq_false_iff.mpr fun h' => hlimit (phase.limitExceeded_final.mp h')
        refine Or.inr ⟨fun h => hlimit h.1, ?_⟩
        by_cases htimed : phase.TimedOut
        · simp [hflag, phase.timedOut_final.mpr htimed, reportedCategory]
        · have hfalse : phase.final.timedOut = false :=
            Bool.eq_false_iff.mpr fun h' => htimed (phase.timedOut_final.mp h')
          have hfailed : nsjailFailedToInitialize phase.final.status phase.log = true := by
            by_contra hok
            exact h ⟨hexec, htimed, Nat.not_lt.mp hlimit, Bool.eq_false_iff.mpr hok⟩
          simp [hflag, hfalse, hfailed, reportedCategory]

theorem executionExitCode_120 {status : WaitStatus} :
    executionExitCode status = 120 ↔ status = .exited 120 := by
  cases status with
  | exited code => simp [executionExitCode]; omega
  | signaled signal => simp [executionExitCode, signalExitCodeOffset]; omega
  | other => simp [executionExitCode]

theorem executionExitCode_127 {status : WaitStatus} :
    executionExitCode status = 127 ↔ status = .exited 127 := by
  cases status with
  | exited code => simp [executionExitCode]; omega
  | signaled signal => simp [executionExitCode, signalExitCodeOffset]; omega
  | other => simp [executionExitCode]

/-- Where the exit status decides, it gives the two categories for its own codes and for no others. -/
theorem category_concluded (h : phase.Concluded) :
    (reportedCategory (finish phase.execError phase.log phase.final) = some "Output Limit Exceeded" ↔
        phase.final.status = .exited 120) ∧
      (reportedCategory (finish phase.execError phase.log phase.final) = some "Sandbox Runtime Error" ↔
        phase.final.status = .exited 127) := by
  rw [finish_concluded h, ← executionExitCode_120, ← executionExitCode_127]
  unfold reportedCategory
  by_cases h0 : executionExitCode phase.final.status = 0
  · simp [h0]
  · by_cases h120 : executionExitCode phase.final.status = 120
    · simp [classifyRuntimeError, h120]
    · by_cases h127 : executionExitCode phase.final.status = 127
      · simp [classifyRuntimeError, h127]
      · simp only [Bool.false_eq_true, if_false, bne_iff_ne, ne_eq, h0, not_false_eq_true, if_true,
          Option.some.injEq, h120, h127, iff_false]
        exact classify_of_code rfl h120 h127

/-! ## When the categories are right -/

/-- The output limit is reported exactly if the execution has printed more than it allows, in time, and a
    failure of the sandbox only if the sandbox has not started the program. -/
structure CategoriesFaithful (request : ExecutionRequest)
    (answers : NsJailPythonExecutor.Answers limits) : Prop where
  outputLimit :
    reportedCategory (NsJailPythonExecutor.run request answers) = some "Output Limit Exceeded" ↔
      ∃ phase, RunPhase request answers phase ∧ limits.outputLimit < phase.produced ∧ ¬ phase.TimedOut
  sandbox :
    reportedCategory (NsJailPythonExecutor.run request answers) = some "Sandbox Runtime Error" →
      ∃ phase, RunPhase request answers phase ∧ phase.started = false

/-- An execution that takes place is the only one. -/
theorem RunPhase.unique {phase' : SupervisedRun limits} (h : RunPhase request answers phase)
    (h' : RunPhase request answers phase') : phase = phase' :=
  Isolation.supervised.inj (h.supervised.symm.trans h'.supervised)

/-- Without an execution there is nothing that could be reported under either category. -/
theorem faithful_of_unexecuted (hnone : ∀ phase, ¬ RunPhase request answers phase)
    (houtput : reportedCategory (NsJailPythonExecutor.run request answers)
      ≠ some "Output Limit Exceeded")
    (hsandbox : reportedCategory (NsJailPythonExecutor.run request answers)
      ≠ some "Sandbox Runtime Error") : CategoriesFaithful request answers where
  outputLimit := ⟨fun h => absurd h houtput, fun ⟨phase, h, _⟩ => absurd h (hnone phase)⟩
  sandbox h := absurd h hsandbox

/-- **When the categories of the infrastructure are right.** They are exactly if no execution whose exit
    status is reported ends with the exit status 120, or with 127 although the sandbox has started the
    program. -/
theorem categoriesFaithful_iff (request : ExecutionRequest)
    (answers : NsJailPythonExecutor.Answers limits) :
    CategoriesFaithful request answers ↔
      ∀ phase, RunPhase request answers phase → phase.Concluded →
        phase.final.status ≠ .exited 120 ∧
          (phase.started = true → phase.final.status ≠ .exited 127) := by
  -- A run ends before an execution, with a result of the compilation, or with an execution.
  rcases run_cases request answers with
    ⟨error, hrun, hnone⟩ | ⟨result, hrun, htimed, htype, hnone⟩ | ⟨phase, hphase, hrun⟩
  · refine ⟨fun _ phase h => absurd h (hnone phase), fun _ => ?_⟩
    apply faithful_of_unexecuted hnone
    · rw [hrun]
      simp [reportedCategory]
    · rw [hrun]
      simp [reportedCategory]
  · -- A compilation has an error type of its own.
    refine ⟨fun _ phase h => absurd h (hnone phase), fun _ => ?_⟩
    apply faithful_of_unexecuted hnone
    · rw [hrun]
      rcases htype with htype | htype <;> simp [reportedCategory, htimed, classifyRuntimeError, htype]
    · rw [hrun]
      rcases htype with htype | htype <;> simp [reportedCategory, htimed, classifyRuntimeError, htype]
  · by_cases hconcluded : phase.Concluded
    · obtain ⟨h120, h127⟩ := category_concluded hconcluded
      constructor
      · intro hfaithful phase' hphase' _
        obtain rfl := hphase.unique hphase'
        refine ⟨fun hstatus => ?_, fun hstarted hstatus => ?_⟩
        · obtain ⟨phase', hphase', hover, -⟩ :=
            hfaithful.outputLimit.mp ((congrArg reportedCategory hrun).trans (h120.mpr hstatus))
          obtain rfl := hphase.unique hphase'
          exact absurd hover (Nat.not_lt.mpr hconcluded.within)
        · obtain ⟨phase', hphase', hunstarted⟩ :=
            hfaithful.sandbox ((congrArg reportedCategory hrun).trans (h127.mpr hstatus))
          obtain rfl := hphase.unique hphase'
          exact absurd (hstarted.symm.trans hunstarted) (by decide)
      -- Where the two statuses do not occur, neither category is reported of a concluded execution.
      · intro hcodes
        obtain ⟨hne, hne'⟩ := hcodes phase hphase hconcluded
        rw [← hrun] at h120 h127
        refine ⟨⟨fun h => absurd (h120.mp h) hne, ?_⟩, fun h => ⟨phase, hphase, ?_⟩⟩
        · rintro ⟨phase', hphase', hover, -⟩
          obtain rfl := hphase.unique hphase'
          exact absurd hover (Nat.not_lt.mpr hconcluded.within)
        · by_contra hstarted
          exact hne' (Bool.not_eq_false _ ▸ hstarted) (h127.mp h)
    · refine ⟨fun _ phase' hphase' h => ?_, fun _ => ?_⟩
      · obtain rfl := hphase.unique hphase'
        exact absurd h hconcluded
      · rcases finish_unconcluded hconcluded with ⟨hover, hin, hcategory⟩ | ⟨hnot, hcategory⟩
        · rw [← hrun] at hcategory
          refine ⟨⟨fun _ => ⟨phase, hphase, hover, hin⟩, fun _ => hcategory⟩, fun h => ?_⟩
          rw [hcategory] at h
          exact absurd h (by decide)
        · rw [← hrun] at hcategory
          refine ⟨⟨fun h => ?_, ?_⟩, fun h => ?_⟩
          · rw [hcategory] at h
            cases h
          · rintro ⟨phase', hphase', hover⟩
            obtain rfl := hphase.unique hphase'
            exact absurd hover hnot
          · rw [hcategory] at h
            cases h

end phases

/-! ### A program that exits with 120 -/

/-- Nothing goes wrong with the files. -/
def workingFiles : Filesystem where
  workspace := none
  manifest := fun _ => some ["/nix/store/python3"]
  workDirectory := true
  workspaceMount := true
  runtimeMount := fun _ => true
  source := none
  standardInput := none
  compileInput := none
  executable := none

/-- The supervisor exits with this status at once, and nothing was printed. -/
def silentTurn (code : Nat) : Turn := ⟨[.endOfFile], [.endOfFile], 10, some (.exited code)⟩

/-- A started program that prints nothing and exits with this status. -/
def silentExit (code : Nat) : SupervisedRun defaultLimits where
  enteredAt := 0
  iterations := _
  final := _
  run := Run.next .start (.iterate rfl rfl :
    SupervisionStep defaultLimits (.start defaultLimits 0) ⟨_, silentTurn code, _, _⟩ _)
  ended := rfl
  execError := none
  log := []
  started := true
  unlaunched := fun h => (by cases h)

/-- **A program that prints nothing is reported for its output.** -/
theorem silent_program_over_limit : ¬ ∀ (limits : SupervisionLimits) (request : ExecutionRequest)
    (answers : NsJailPythonExecutor.Answers limits), CategoriesFaithful request answers := by
  intro hclaim
  have hfaithful := hclaim defaultLimits ⟨"python", "import sys; sys.exit(120)", ""⟩
    ⟨workingFiles, .inputUnavailable, .supervised (silentExit 120)⟩
  obtain ⟨phase, hphase, hover, -⟩ := hfaithful.outputLimit.mp (by decide)
  obtain rfl := Isolation.supervised.inj hphase.supervised
  exact absurd hover (by decide)

end AlgorithmTrainer
