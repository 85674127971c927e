import AlgorithmTrainer.Executor.Output

/-!
# `Executor.Execution` — `NsJailPythonExecutor::run`

A C++ submission is compiled in one call of `run_isolated` and executed in another, a Python submission is
executed only. What a call of `run_isolated` comes to is a run of the supervision loop from its start to its
end, together with what the parent cannot see: whether the sandbox has started the program.

`timedOut_iff` says when the loop sets `timed_out`, in terms of what happened in its iterations, and
`execution_cases` what is left of the executor's results.
-/

namespace AlgorithmTrainer

open Transition

/-! ## `run_isolated` -/

/-- A run of the supervision loop to its end, and what `run_isolated` reads afterwards. -/
structure SupervisedRun (limits : SupervisionLimits) where
  enteredAt : Milliseconds
  iterations : List Iteration
  final : Supervision
  run : Run (SupervisionStep limits) (.start limits enteredAt) iterations final
  ended : final.running = false
  /-- The error that the child reports if it does not become the supervisor. -/
  execError : Option String
  /-- What the log of the supervisor begins with. -/
  log : Bytes
  /-- The sandbox has started the program. -/
  started : Bool
  /-- A child that reports an error exits, and writes nothing else. -/
  unlaunched : execError.isSome = true →
    started = false ∧ stdoutRead iterations = [] ∧ stderrRead iterations = []

/-- What a call of `run_isolated` comes to. -/
inductive Isolation (limits : SupervisionLimits) where
  | inputUnavailable
  | pipesUnavailable
  /-- `fork` fails. -/
  | unforked (description : String)
  | supervised (phase : SupervisedRun limits)

/-- `run_isolated`. -/
def runIsolated {limits : SupervisionLimits} : Isolation limits → ExecutorResult Bytes
  | .inputUnavailable => .error ⟨"Could not open executor input"⟩
  | .pipesUnavailable => .error ⟨"Could not establish executor communication pipes"⟩
  | .unforked description => .error ⟨"Could not launch NsJail supervisor: " ++ description⟩
  | .supervised phase => finish phase.execError phase.log phase.final

/-! ### Timeouts -/

/-- The iteration finds the deadline passed, where the supervisor was not asked to stop before and the output
    is within the limit. -/
def Iteration.Expires (limits : SupervisionLimits) (r : Iteration) : Prop :=
  r.before.terminationRequested = false ∧
    r.before.output.total + r.before.receives r.turn ≤ limits.outputLimit ∧
    r.before.deadline ≤ r.before.clock + r.turn.elapsed

section timeouts
variable {limits : SupervisionLimits} {turn : Turn} {s s' : Supervision} {signals : List Signal}

theorem reap_requested (s : Supervision) (waited : Option WaitStatus) :
    (s.reap waited).terminationRequested = s.terminationRequested := by
  unfold Supervision.reap
  split
  · rfl
  · split <;> rfl

/-- What an iteration makes of `timed_out` and `termination_requested`. -/
theorem iterate_flags (hexact : s.output.Exact limits.outputLimit)
    (h : s.iterate limits turn = some (signals, s')) :
    s'.terminationRequested = (s.terminationRequested || s.provoked limits turn) ∧
      s'.timedOut = if s.provoked limits turn
        then decide (s.output.total + s.receives turn ≤ limits.outputLimit) else s.timedOut := by
  simp only [Supervision.iterate, Option.bind_eq_bind, Option.bind_eq_some_iff, Option.some.injEq,
    Prod.mk.injEq] at h
  obtain ⟨received, hreceived, -, rfl⟩ := h
  have hmust := mustTerminate_receive hexact hreceived
  obtain ⟨⟨stdout, stderr, output, hr⟩, htotal, hflag⟩ := receive_spec hreceived
  have hlimit : received.output.limitExceeded
      = decide (limits.outputLimit < s.output.total + s.receives turn) := by
    rw [← htotal]
    exact hflag hexact
  rw [reap_requested, reap_timedOut]
  unfold Supervision.requestTermination
  by_cases hp : s.provoked limits turn = true
  · rw [hmust, hp]
    refine ⟨(Bool.or_true _).symm, ?_⟩
    show (!received.output.limitExceeded) = _
    rw [hlimit, if_pos rfl]
    grind
  · rw [hmust, Bool.eq_false_iff.mpr hp, hr]
    exact ⟨(Bool.or_false _).symm, rfl⟩

theorem provoked_of_expires {r : Iteration} (h : r.Expires limits) :
    r.before.provoked limits r.turn = true := by
  obtain ⟨hasked, -, hdeadline⟩ := h
  simp [Supervision.provoked, hasked, hdeadline]

/-- **When the loop sets `timed_out`.** It is set after a run exactly if one of the iterations has found the
    deadline passed with the output within the limit, before anything else had asked the supervisor to
    stop. -/
theorem timedOut_iff {now : Milliseconds} {h : List Iteration}
    (hrun : Run (SupervisionStep limits) (.start limits now) h s) :
    s.timedOut = true ↔ ∃ r ∈ h, r.Expires limits := by
  -- Before the supervisor is asked to stop, no iteration can have expired.
  suffices hboth : (s.timedOut = true ↔ ∃ r ∈ h, r.Expires limits) ∧
      (s.terminationRequested = false → s.timedOut = false) from hboth.1
  induction hrun with
  | start => exact ⟨by simp [Supervision.start], fun _ => rfl⟩
  | @next h s r s' hrun _ hstep ih =>
      obtain ⟨htimed, hasked⟩ := ih
      have hexact := (supervised hrun).exact
      cases hstep with
      | @iterate _ turn signals _ hiterate =>
          obtain ⟨hrequested, hflag⟩ := iterate_flags hexact hiterate
          simp only [List.exists_mem_cons_iff, ← htimed]
          rw [hrequested, hflag]
          by_cases hp : s.provoked limits turn = true
          · rw [if_pos hp, hp]
            have hbefore : s.terminationRequested = false ∧ (limits.outputLimit
                < s.output.total + s.receives turn ∨ s.deadline ≤ s.clock + turn.elapsed) := by
              simpa [Supervision.provoked] using hp
            simp only [Iteration.Expires, hbefore.1, hasked hbefore.1]
            grind
          · rw [if_neg hp, Bool.eq_false_iff.mpr hp, Bool.or_false]
            refine ⟨⟨Or.inr, fun h => ?_⟩, hasked⟩
            rcases h with hexpires | h
            · exact absurd (provoked_of_expires hexpires) hp
            · exact h

end timeouts

/-- The number of bytes that the program has printed. -/
def SupervisedRun.produced {limits : SupervisionLimits} (phase : SupervisedRun limits) : Nat :=
  (stdoutRead phase.iterations).length + (stderrRead phase.iterations).length

/-- The program has timed out. -/
def SupervisedRun.TimedOut {limits : SupervisionLimits} (phase : SupervisedRun limits) : Prop :=
  ∃ r ∈ phase.iterations, r.Expires limits

theorem SupervisedRun.timedOut_final {limits : SupervisionLimits} (phase : SupervisedRun limits) :
    phase.final.timedOut = true ↔ phase.TimedOut :=
  timedOut_iff phase.run

theorem SupervisedRun.limitExceeded_final {limits : SupervisionLimits} (phase : SupervisedRun limits) :
    phase.final.output.limitExceeded = true ↔ limits.outputLimit < phase.produced :=
  (collected_of_reads (run_reads phase.run)).exceeded

/-! ## The files of an execution -/

/-- The step of `write_file` that fails. -/
inductive WriteStep where
  | create
  | write
  | protect

/-- The step of `protect_compiled_executable` that fails. -/
inductive ExecutableStep where
  /-- It is not a regular file of the service user. -/
  | inspect
  | protect

/-- What the file system answers, with the description of an error where the code passes it on. -/
structure Filesystem where
  workspace : Option String
  /-- The lines of the manifest of a language, if it can be read. -/
  manifest : String → Option (List String)
  workDirectory : Bool
  workspaceMount : Bool
  runtimeMount : String → Bool
  source : Option (WriteStep × String)
  standardInput : Option (WriteStep × String)
  compileInput : Option (WriteStep × String)
  executable : Option ExecutableStep

/-- `TemporaryWorkspace::create`. -/
def createWorkspace : Option String → Except ExecutorError Unit
  | some description => .error ⟨"Could not create an isolated workspace: " ++ description⟩
  | none => .ok ()

def readRuntimeClosure : Option (List String) → Except ExecutorError (List String)
  | none => .error ⟨"Runtime closure manifest is unavailable"⟩
  | some paths =>
      if paths.any fun line => !"/nix/store/".toList.isPrefixOf line.toList || line.toList.contains ':'
      then .error ⟨"Runtime closure manifest contains an invalid path"⟩
      else if paths.isEmpty then .error ⟨"Runtime closure manifest is empty"⟩
      else .ok paths

def prepareRoot (files : Filesystem) (runtimeClosure : List String) : Except ExecutorError Unit :=
  if !files.workspaceMount then .error ⟨"Could not prepare sandbox workspace mount"⟩
  else if runtimeClosure.any fun path => !files.runtimeMount path then
    .error ⟨"Could not prepare runtime mount"⟩
  else .ok ()

def writeFile : Option (WriteStep × String) → Except ExecutorError Unit
  | some (.create, description) => .error ⟨"Could not create executor input file: " ++ description⟩
  | some (.write, description) => .error ⟨"Could not write executor input file: " ++ description⟩
  | some (.protect, description) => .error ⟨"Could not protect executor input file: " ++ description⟩
  | none => .ok ()

def protectCompiledExecutable : Option ExecutableStep → Except ExecutorError Unit
  | some .inspect => .error ⟨"Compiler did not produce a safe regular executable"⟩
  | some .protect => .error ⟨"Could not protect the compiled executable"⟩
  | none => .ok ()

/-! ## The executor -/

/-- The limits of the compiler. -/
def compileLimits (limits : SupervisionLimits) : SupervisionLimits := { limits with wallTimeLimit := 15000 }

namespace NsJailPythonExecutor

/-- What the system answers in a call of `run`. -/
structure Answers (limits : SupervisionLimits) where
  files : Filesystem
  compilation : Isolation (compileLimits limits)
  execution : Isolation limits

/-- The result of a compilation, if it is returned in place of that of an execution. -/
def compilationResult (result : ExecutionResult Bytes) : Option (ExecutionResult Bytes) :=
  if result.timedOut then
    some { result with
      errorType := some "Compilation Time Limit Exceeded", timedOut := false, exitCode := 1 }
  else if result.exitCode != 0 then some { result with errorType := some "Compilation Error" }
  else none

def require (condition : Bool) (message : String) : Except ExecutorError Unit :=
  if condition then .ok () else .error ⟨message⟩

/-- The steps of `run` that prepare the files. -/
def prepare (request : ExecutionRequest) (files : Filesystem) : Except ExecutorError Unit := do
  require (request.language == "python" || request.language == "cpp")
    "Executor supports only Python and C++"
  createWorkspace files.workspace
  let runtimeClosure ← readRuntimeClosure (files.manifest request.language)
  require files.workDirectory "Could not prepare executor workspace"
  prepareRoot files runtimeClosure
  writeFile files.source
  writeFile files.standardInput

/-- The steps of `run` that compile a C++ submission: the result that ends `run`, if there is one. -/
def compile {limits : SupervisionLimits} (answers : Answers limits) :
    Except ExecutorError (Option (ExecutionResult Bytes)) := do
  writeFile answers.files.compileInput
  let result ← runIsolated answers.compilation
  match compilationResult result with
  | some result => .ok (some result)
  | none => do
      protectCompiledExecutable answers.files.executable
      .ok none

/-- The steps of `run` before the execution. -/
def beforeExecution {limits : SupervisionLimits} (request : ExecutionRequest)
    (answers : Answers limits) : Except ExecutorError (Option (ExecutionResult Bytes)) := do
  prepare request answers.files
  if request.language == "cpp" then compile answers else .ok none

/-- `NsJailPythonExecutor::run`. -/
def run {limits : SupervisionLimits} (request : ExecutionRequest) (answers : Answers limits) :
    ExecutorResult Bytes :=
  match beforeExecution request answers with
  | .error error => .error error
  | .ok (some result) => .ok result
  | .ok none => runIsolated answers.execution

end NsJailPythonExecutor

/-- The submitted program is executed, and this is what its supervision comes to. -/
structure RunPhase {limits : SupervisionLimits} (request : ExecutionRequest)
    (answers : NsJailPythonExecutor.Answers limits) (phase : SupervisedRun limits) : Prop where
  reached : NsJailPythonExecutor.beforeExecution request answers = .ok none
  supervised : answers.execution = .supervised phase

section execution
variable {limits : SupervisionLimits} {request : ExecutionRequest}
  {answers : NsJailPythonExecutor.Answers limits} {phase : SupervisedRun limits}

/-- A compilation that ends `run` has an error type of its own. -/
theorem compilationResult_type {result result' : ExecutionResult Bytes}
    (h : NsJailPythonExecutor.compilationResult result = some result') :
    result'.timedOut = false ∧ (result'.errorType = some "Compilation Time Limit Exceeded" ∨
      result'.errorType = some "Compilation Error") := by
  unfold NsJailPythonExecutor.compilationResult at h
  by_cases htimed : result.timedOut = true
  · rw [if_pos htimed] at h
    cases h
    exact ⟨rfl, Or.inl rfl⟩
  · rw [if_neg htimed] at h
    split at h
    · cases h
      exact ⟨Bool.eq_false_iff.mpr htimed, Or.inr rfl⟩
    · cases h

theorem beforeExecution_type {result : ExecutionResult Bytes}
    (h : NsJailPythonExecutor.beforeExecution request answers = .ok (some result)) :
    result.timedOut = false ∧ (result.errorType = some "Compilation Time Limit Exceeded" ∨
      result.errorType = some "Compilation Error") := by
  obtain ⟨-, -, h⟩ := except_bind_ok h
  by_cases hcpp : (request.language == "cpp") = true
  · rw [if_pos hcpp] at h
    obtain ⟨-, -, h⟩ := except_bind_ok h
    obtain ⟨compilation, -, h⟩ := except_bind_ok h
    cases hresult : NsJailPythonExecutor.compilationResult compilation with
    | some result' =>
        rw [hresult] at h
        cases h
        exact compilationResult_type hresult
    | none =>
        -- A compilation that went well returns nothing of its own.
        rw [hresult] at h
        obtain ⟨-, -, h⟩ := except_bind_ok h
        cases h
  · rw [if_neg hcpp] at h
    cases h

/-- **The results of the executor.** They are an error, or the result of a compilation under an error type of
    its own, or what the execution of the program comes to. -/
theorem run_cases (request : ExecutionRequest) (answers : NsJailPythonExecutor.Answers limits) :
    (∃ error, NsJailPythonExecutor.run request answers = .error error ∧
        ∀ phase, ¬ RunPhase request answers phase) ∨
      (∃ result, NsJailPythonExecutor.run request answers = .ok result ∧ result.timedOut = false ∧
        (result.errorType = some "Compilation Time Limit Exceeded" ∨
          result.errorType = some "Compilation Error") ∧ ∀ phase, ¬ RunPhase request answers phase) ∨
      ∃ phase, RunPhase request answers phase ∧
        NsJailPythonExecutor.run request answers = finish phase.execError phase.log phase.final := by
  unfold NsJailPythonExecutor.run
  cases hbefore : NsJailPythonExecutor.beforeExecution request answers with
  | error error => exact Or.inl ⟨error, rfl, fun phase h => by cases hbefore.symm.trans h.reached⟩
  | ok before =>
      cases before with
      | some result =>
          obtain ⟨htimed, htype⟩ := beforeExecution_type hbefore
          exact Or.inr (Or.inl
            ⟨result, rfl, htimed, htype, fun phase h => by cases hbefore.symm.trans h.reached⟩)
      | none =>
          show (∃ error, runIsolated answers.execution = .error error ∧ _) ∨
            (∃ result, runIsolated answers.execution = .ok result ∧ _) ∨
            ∃ phase, _ ∧ runIsolated answers.execution = _
          cases hexecution : answers.execution with
          | inputUnavailable =>
              exact Or.inl ⟨_, rfl, fun phase h => by cases hexecution.symm.trans h.supervised⟩
          | pipesUnavailable =>
              exact Or.inl ⟨_, rfl, fun phase h => by cases hexecution.symm.trans h.supervised⟩
          | unforked description =>
              exact Or.inl ⟨_, rfl, fun phase h => by cases hexecution.symm.trans h.supervised⟩
          | supervised phase => exact Or.inr (Or.inr ⟨phase, ⟨hbefore, hexecution⟩, rfl⟩)

end execution

end AlgorithmTrainer
