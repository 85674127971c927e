import Mathlib.Data.List.Infix
import AlgorithmTrainer.Judge.Normalization
import AlgorithmTrainer.Problem.Repository

/-!
# `Judge.ProblemJudge` — the judge of a submission

`ProblemJudge.run` reads a problem with its enabled hidden tests, and has the executor run the submission on
one test after another. The executor is a service with a state of its own, so its answer to a test may depend
on all earlier calls.

`Verdicted` says which result a list of tests and the executions on them amount to, without a loop.
`judge_run` proves that this is what the judge returns.
-/

namespace AlgorithmTrainer

open Interaction Relational

/-! ## The classification of a runtime error -/

/-- `std::isspace`. -/
def isSpaceByte (c : UInt8) : Bool := c == 32 || (9 ≤ c && c ≤ 13)

/-- `std::isalnum`. -/
def isAlnumByte (c : UInt8) : Bool := (48 ≤ c && c ≤ 57) || (65 ≤ c && c ≤ 90) || (97 ≤ c && c ≤ 122)

/-- The name at the beginning of a line, if it is that of an exception. -/
def lineExceptionName (line : Bytes) : Option Bytes :=
  let name := (line.dropWhile isSpaceByte).takeWhile (· != 58)
  let identifier := !name.isEmpty && name.all fun c => isAlnumByte c || c == 95
  if identifier && (decide (utf8 "Error" <:+ name) || decide (utf8 "Exception" <:+ name)) then
    some name
  else none

/-- `python_exception_name`: that of the first line which has one. -/
def pythonExceptionName (error : Bytes) : Option Bytes :=
  (error.splitOn lineFeed).findSome? lineExceptionName

def signalName (signal : Int) : String :=
  if signal == 11 then "SIGSEGV"
  else if signal == 6 then "SIGABRT"
  else if signal == 4 then "SIGILL"
  else if signal == 8 then "SIGFPE"
  else if signal == 9 then "SIGKILL"
  else if signal == 15 then "SIGTERM"
  else "signal " ++ toString signal

/-- `classify_runtime_error`. -/
def classifyRuntimeError (execution : ExecutionResult Bytes) : String :=
  match execution.errorType with
  | some type => type
  | none =>
      if execution.exitCode == 120 then "Output Limit Exceeded"
      else if execution.exitCode == 127 then "Sandbox Runtime Error"
      else
        let exception := pythonExceptionName execution.standardError
        if exception == some (utf8 "MemoryError")
            || decide (utf8 "std::bad_alloc" <:+: execution.standardError) then
          "Memory Limit Exceeded"
        else if exception == some (utf8 "SyntaxError")
            || exception == some (utf8 "IndentationError")
            || exception == some (utf8 "TabError") then
          "Syntax Error"
        else match exception with
          -- the characters of the name are ASCII
          | some name => "Exception: " ++ String.ofList (name.map fun c => Char.ofNat c.toNat)
          | none =>
              if 128 ≤ execution.exitCode then
                "Terminated by " ++ signalName (execution.exitCode - 128)
              else "Runtime Error"

/-! ## The judge -/

/-- The `Executor`. -/
@[reducible] def Executor : Signature := ⟨ExecutionRequest, fun _ => ExecutorResult Bytes⟩

/-- What the judge calls. -/
abbrev Judging := Program (Backend.sum Executor) Exception

/-- The request for the execution on a test. -/
def executionRequest (request : JudgeRequest) (testCase : ProblemTestCase) : ExecutionRequest where
  language := request.language
  sourceCode := request.sourceCode
  standardInput := testCase.input

namespace ProblemJudge

/-- What is done with the executor's answer, where the loop goes on with `next`. -/
def judgeExecution (testCase : ProblemTestCase) (next : Judging JudgeResult) :
    ExecutorResult Bytes → Judging JudgeResult
  | .error error => pure (.judgeError error.message)
  | .ok execution =>
      if execution.timedOut then pure (.verdict .timeLimitExceeded)
      else if execution.exitCode != 0 then pure (.runtimeError (classifyRuntimeError execution))
      else if normalizeOutput execution.standardOutput
          != normalizeOutput (utf8 testCase.expectedOutput) then
        pure (.verdict .wrongAnswer)
      else next

/-- The loop over the hidden tests. -/
def judgeTests (request : JudgeRequest) : List ProblemTestCase → Judging JudgeResult
  | [] => pure (.verdict .accepted)
  | testCase :: rest =>
      .call (.inr (executionRequest request testCase))
        (judgeExecution testCase (judgeTests request rest))

/-- What is done with the problem that was found. -/
def judgeFound (request : JudgeRequest) :
    Except ProblemRepositoryError (Option Problem) → Judging JudgeResult
  | .error error => pure (.judgeError error.message)
  | .ok none => pure (.judgeError "Unknown problem")
  | .ok (some problem) =>
      if problem.hiddenTests.isEmpty then pure (.judgeError "Problem has no enabled hidden tests")
      else judgeTests request problem.hiddenTests

/-- `ProblemJudge::run`. -/
def run (request : JudgeRequest) : Judging JudgeResult := do
  let found ← (PostgreSQLProblemRepository.findForJudging request.problemId).inl
  judgeFound request found

end ProblemJudge

/-! ## Verdicts -/

/-- The execution passes the test. -/
def Passes (testCase : ProblemTestCase) (answer : ExecutorResult Bytes) : Prop :=
  ∃ execution, answer = .ok execution ∧ execution.timedOut = false ∧ execution.exitCode = 0 ∧
    normalizeOutput execution.standardOutput = normalizeOutput (utf8 testCase.expectedOutput)

/-- The result of an execution that does not pass. -/
inductive Fails (testCase : ProblemTestCase) : ExecutorResult Bytes → JudgeResult → Prop where
  | error (error : ExecutorError) : Fails testCase (.error error) (.judgeError error.message)
  /-- Whatever the exit code and the output. -/
  | timedOut (execution : ExecutionResult Bytes) (h : execution.timedOut = true) :
      Fails testCase (.ok execution) (.verdict .timeLimitExceeded)
  | exited (execution : ExecutionResult Bytes) (h : execution.timedOut = false)
      (hcode : execution.exitCode ≠ 0) :
      Fails testCase (.ok execution) (.runtimeError (classifyRuntimeError execution))
  | mismatch (execution : ExecutionResult Bytes) (h : execution.timedOut = false)
      (hcode : execution.exitCode = 0)
      (houtput : normalizeOutput execution.standardOutput
        ≠ normalizeOutput (utf8 testCase.expectedOutput)) :
      Fails testCase (.ok execution) (.verdict .wrongAnswer)

/-- The executor was called on these tests, once each and in this order, and each of them passed. -/
def AllPass (request : JudgeRequest) (tests : List ProblemTestCase)
    (executions : List (Exchange Executor)) : Prop :=
  List.Forall₂ (fun testCase x => x.request = executionRequest request testCase ∧
    Passes testCase x.reply) tests executions

/-- What the tests and the executions on them amount to. -/
structure Verdicted (request : JudgeRequest) (tests : List ProblemTestCase)
    (executions : List (Exchange Executor)) (result : JudgeResult) : Prop where
  /-- A submission is accepted exactly if it was run on all tests and passed each. -/
  accepted : result = .verdict .accepted ↔ AllPass request tests executions
  /-- Otherwise the executions end with the first that does not pass, and that one decides. -/
  rejected : result ≠ .verdict .accepted →
    ∃ passed testCase rest executions' x, tests = passed ++ testCase :: rest ∧
      executions = executions' ++ [x] ∧ AllPass request passed executions' ∧
      x.request = executionRequest request testCase ∧ Fails testCase x.reply result

section verdicts
variable {request : JudgeRequest} {testCase : ProblemTestCase} {answer : ExecutorResult Bytes}
  {result : JudgeResult} {tests : List ProblemTestCase} {executions : List (Exchange Executor)}

theorem Fails.not_passes (h : Fails testCase answer result) : ¬ Passes testCase answer := by
  rintro ⟨execution, rfl, htime, hcode, houtput⟩
  cases h with
  | timedOut _ h => exact absurd (h.symm.trans htime) (by decide)
  | exited _ _ h => exact h hcode
  | mismatch _ _ _ h => exact h houtput

theorem Fails.ne_accepted (h : Fails testCase answer result) : result ≠ .verdict .accepted := by
  cases h <;> simp

/-- An execution passes or fails. -/
theorem passes_or_fails (testCase : ProblemTestCase) (answer : ExecutorResult Bytes) :
    Passes testCase answer ∨ ∃ result, Fails testCase answer result := by
  cases answer with
  | error error => exact Or.inr ⟨_, .error error⟩
  | ok execution =>
      cases htime : execution.timedOut with
      | true => exact Or.inr ⟨_, .timedOut execution htime⟩
      | false =>
          by_cases hcode : execution.exitCode = 0
          · by_cases houtput : normalizeOutput execution.standardOutput
                = normalizeOutput (utf8 testCase.expectedOutput)
            · exact Or.inl ⟨execution, rfl, htime, hcode, houtput⟩
            · exact Or.inr ⟨_, .mismatch execution htime hcode houtput⟩
          · exact Or.inr ⟨_, .exited execution htime hcode⟩

theorem verdicted_nil : Verdicted request [] [] (.verdict .accepted) where
  accepted := ⟨fun _ => .nil, fun _ => rfl⟩
  rejected h := absurd rfl h

/-- A first test that passes leaves the result to the others. -/
theorem Verdicted.cons (h : Verdicted request tests executions result)
    (hpasses : Passes testCase answer) :
    Verdicted request (testCase :: tests) (⟨executionRequest request testCase, answer⟩ :: executions)
      result where
  accepted := by
    rw [h.accepted]
    constructor
    · exact fun hall => .cons ⟨rfl, hpasses⟩ hall
    · intro hall
      cases hall with
      | cons _ hrest => exact hrest
  rejected hne := by
    obtain ⟨passed, failed, rest, executions', x, rfl, rfl, hall, hx, hfails⟩ := h.rejected hne
    exact ⟨testCase :: passed, failed, rest, _ :: executions', x, rfl, rfl,
      .cons ⟨rfl, hpasses⟩ hall, hx, hfails⟩

/-- A first test that fails decides. -/
theorem verdicted_of_fails (hfails : Fails testCase answer result) :
    Verdicted request (testCase :: tests) [⟨executionRequest request testCase, answer⟩] result where
  accepted := by
    constructor
    · exact fun he => absurd he hfails.ne_accepted
    · intro hall
      cases hall with
      | cons hfirst _ => exact absurd hfirst.2 hfails.not_passes
  rejected _ := ⟨[], testCase, tests, [], _, rfl, rfl, .nil, rfl, hfails⟩

end verdicts

/-! ## The loop -/

section loop
variable {P : Platform} {τ : Type} {V : Service Executor Choice τ} {request : JudgeRequest}
  {testCase : ProblemTestCase} {tests : List ProblemTestCase} {result : JudgeResult}

/-- A test that passes is followed by the next. -/
theorem judgeExecution_passes {next : Judging JudgeResult} {answer : ExecutorResult Bytes}
    (h : Passes testCase answer) : ProblemJudge.judgeExecution testCase next answer = next := by
  obtain ⟨execution, rfl, htime, hcode, houtput⟩ := h
  simp [ProblemJudge.judgeExecution, htime, hcode, houtput]

/-- A test that fails ends the loop. -/
theorem judgeExecution_fails {next : Judging JudgeResult} {answer : ExecutorResult Bytes}
    (h : Fails testCase answer result) :
    ProblemJudge.judgeExecution testCase next answer = pure result := by
  cases h with
  | error error => rfl
  | timedOut execution htime => simp [ProblemJudge.judgeExecution, htime]
  | exited execution htime hcode => simp [ProblemJudge.judgeExecution, htime, hcode]
  | mismatch execution htime hcode houtput =>
      simp [ProblemJudge.judgeExecution, htime, hcode, houtput]

/-- The executions that a program has made. -/
def executions (V : Service Executor Choice τ) (P : Platform) (p : Judging JudgeResult)
    (w : World Choice (Database × τ)) : List (Exchange Executor) :=
  (p.log ((serve P).sum V) w).filterMap Exchange.inr?

/-- **The loop**, from any state of the executor on. -/
theorem judgeTests_verdicted (w : World Choice (Database × τ)) :
    ∃ result, ((ProblemJudge.judgeTests request tests).run ((serve P).sum V) w).1 = .ok result ∧
      Verdicted request tests (executions V P (ProblemJudge.judgeTests request tests) w) result := by
  induction tests generalizing w with
  | nil => exact ⟨_, rfl, verdicted_nil⟩
  | cons testCase tests ih =>
      -- The executor answers, and is in a new state afterwards.
      let answer := (V (executionRequest request testCase) (w.choices 0) w.state.2).1
      let w' : World Choice (Database × τ) := w.advance
        (w.state.1, (V (executionRequest request testCase) (w.choices 0) w.state.2).2)
      have hrun : (ProblemJudge.judgeTests request (testCase :: tests)).run ((serve P).sum V) w
          = (ProblemJudge.judgeExecution testCase (ProblemJudge.judgeTests request tests) answer).run
            ((serve P).sum V) w' := rfl
      have hlog : executions V P (ProblemJudge.judgeTests request (testCase :: tests)) w
          = ⟨executionRequest request testCase, answer⟩
            :: executions V P (ProblemJudge.judgeExecution testCase
              (ProblemJudge.judgeTests request tests) answer) w' := rfl
      rw [hrun, hlog]
      rcases passes_or_fails testCase answer with hpasses | ⟨result, hfails⟩
      · rw [judgeExecution_passes hpasses]
        obtain ⟨result, houtcome, hverdicted⟩ := ih w'
        exact ⟨result, houtcome, hverdicted.cons hpasses⟩
      · rw [judgeExecution_fails hfails]
        exact ⟨result, rfl, verdicted_of_fails hfails⟩

end loop

/-! ## The problem that is judged -/

open PostgreSQLProblemRepository

/-- The enabled hidden tests of a problem, in the order they are read in. -/
def enabledTests (db : Database) (problemId : String) : List ProblemTestCase :=
  (orderBy byPosition (db.problemTests.select fun t =>
    t.problemId == text problemId && t.enabled)).map testOfRow

/-- The order of hidden tests. -/
def Precedes (a b : ProblemTestCase) : Prop :=
  a.position < b.position ∨ (a.position = b.position ∧ a.id < b.id)

/-- The row of the problem, and what it is read as. -/
def Stored (db : Database) (problemId : String) (problem : Problem) : Prop :=
  ∃ row ∈ db.problems, row.id = text problemId ∧ (problemOfRow row).run = .ok (.ok problem)

section find
variable {P : Platform} {id : String}

theorem mem_enabledTests {db : Database} {t : ProblemTestCase} :
    t ∈ enabledTests db id ↔
      ∃ row ∈ db.problemTests, row.problemId = text id ∧ row.enabled = true ∧ testOfRow row = t := by
  unfold enabledTests
  simp only [List.mem_map, mem_orderBy, Table.mem_select, Bool.and_eq_true, beq_iff_eq, and_assoc]

/-- The order is strict, since no two rows have one id. -/
theorem pairwise_enabledTests (db : Database) (id : String) :
    (enabledTests db id).Pairwise Precedes := by
  have hsorted := @pairwise_orderBy ProblemTestRow byPosition
    (fun a b => by simp only [byPosition]; grind) (fun a b c => by simp only [byPosition]; grind)
    (db.problemTests.select fun t => t.problemId == text id && t.enabled)
  have hnodup : (orderBy byPosition (db.problemTests.select fun t =>
      t.problemId == text id && t.enabled)).Nodup :=
    (List.perm_insertionSort _ _).nodup_iff.mpr ((List.Nodup.of_map _ db.problemTests.nodup).filter _)
  refine List.pairwise_map.mpr ((hsorted.and hnodup).imp_of_mem ?_)
  rintro a b ha hb ⟨hle, hne⟩
  have hids : a.id ≠ b.id := fun he =>
    hne (Table.eq_of_key (Table.mem_select.mp (mem_orderBy.mp ha)).1
      (Table.mem_select.mp (mem_orderBy.mp hb)).1 he)
  show a.position < b.position ∨ (a.position = b.position ∧ a.id < b.id)
  simp only [byPosition, Bool.or_eq_true, decide_eq_true_eq, Bool.and_eq_true, beq_iff_eq] at hle
  omega

/-- A sequence that reads something has read each part. -/
theorem read_bind {α β : Type} {x : Read α} {f : α → Read β} {b : β}
    (h : (x >>= f).run = .ok (.ok b)) : ∃ a, (f a).run = .ok (.ok b) := by
  rw [ExceptT.run_bind] at h
  cases hx : x.run with
  | error e => rw [hx] at h; cases h
  | ok read =>
      rw [hx] at h
      cases read with
      | error e => cases h
      | ok a => exact ⟨a, h⟩

/-- A problem has the id of its row. -/
theorem problemOfRow_id {row : ProblemRow} {problem : Problem}
    (h : (problemOfRow row).run = .ok (.ok problem)) : problem.id = row.id := by
  unfold problemOfRow at h
  split at h
  · obtain ⟨tags, h⟩ := read_bind h
    obtain ⟨languages, h⟩ := read_bind h
    obtain ⟨examples, h⟩ := read_bind h
    cases h
    rfl
  · cases h

/-- What `find_for_judging` returns or throws. -/
inductive Lookup (db : Database) (id : String) (choices : Nat → Choice) :
    Except Exception (Except ProblemRepositoryError (Option Problem)) → Prop where
  | failed (error : ProblemRepositoryError)
      (h : (choices 0).failure.isSome = true ∨ (choices 1).failure.isSome = true) :
      Lookup db id choices (.ok (.error error))
  | unknown (h : ∀ row ∈ db.problems, row.id ≠ text id) : Lookup db id choices (.ok (.ok none))
  | unreadable (error : ProblemRepositoryError) (row : ProblemRow) (hrow : row ∈ db.problems)
      (hid : row.id = text id) (h : (problemOfRow row).run = .ok (.error error)) :
      Lookup db id choices (.ok (.error error))
  | thrown (exception : Exception) (row : ProblemRow) (hrow : row ∈ db.problems)
      (hid : row.id = text id) (h : (problemOfRow row).run = .error exception) :
      Lookup db id choices (.error exception)
  | found (problem : Problem) (h : Stored db id problem) :
      Lookup db id choices (.ok (.ok (some { problem with hiddenTests := enabledTests db id })))

/-- The query for the enabled tests of a problem that was read. -/
theorem readTests_run {problem : Problem} (hid : text problem.id = text id)
    (w : World Choice Database) :
    ((w.choices 0).failure.isSome = true ∧ ∃ error,
      ((readTests true problem).run (serve P) w).1 = .ok (.error error)) ∨
    ((readTests true problem).run (serve P) w).1
      = .ok (.ok { problem with hiddenTests := enabledTests w.state id }) := by
  unfold readTests
  rw [run_execute]
  rcases serveStatement_cases (P := P) (.selectTests (text problem.id) true) (w.choices 0) w.state with
    ⟨hfailed, h⟩ | ⟨-, h⟩
  · rw [h]
    exact Or.inl ⟨hfailed, _, rfl⟩
  · rw [h, hid]
    exact Or.inr rfl

/-- The row that was selected is read, and then its tests. -/
theorem readProblem_lookup {row : ProblemRow} {w : World Choice Database} {choices : Nat → Choice}
    (hrow : row ∈ w.state.problems) (hid : row.id = text id) (hchoice : w.choices 0 = choices 1) :
    Lookup w.state id choices
      ((readProblem row .enabled >>= fun problem => pure (problem.map some)).run (serve P) w).1 := by
  unfold readProblem
  cases hread : (problemOfRow row).run with
  | error exception => exact .thrown exception row hrow hid hread
  | ok read =>
      cases read with
      | error error => exact .unreadable error row hrow hid hread
      | ok problem =>
          -- `find_for_judging` asks for the tests under the id that it read.
          have hsame : text problem.id = text id := by
            rw [problemOfRow_id hread, hid]
            exact cStr_cStr id
          dsimp only
          rw [Program.run_bind]
          rcases readTests_run (P := P) hsame w with ⟨hfailed, error, h⟩ | h
          · rw [← Prod.eta ((readTests true problem).run (serve P) w), h]
            exact .failed error (Or.inr (hchoice ▸ hfailed))
          · rw [← Prod.eta ((readTests true problem).run (serve P) w), h]
            exact .found problem ⟨row, hrow, hid, hread⟩

/-- **`find_for_judging`**, whatever fails. -/
theorem findForJudging_lookup (id : String) (w : World Choice Database) :
    Lookup w.state id w.choices ((findForJudging id).run (serve P) w).1 := by
  unfold findForJudging find
  rw [run_execute]
  rcases serveStatement_cases (P := P) (.selectProblem (text id) false) (w.choices 0) w.state with
    ⟨hfailed, h⟩ | ⟨-, h⟩
  · rw [h]
    exact .failed _ (Or.inl hfailed)
  · rw [h]
    let rows := w.state.problems.select fun p => p.id == text id && (!false || p.enabled)
    have hrows : ∀ row, row ∈ rows ↔ row ∈ w.state.problems ∧ row.id = text id := by
      intro row
      simp [rows, Table.mem_select]
    have hexec : (Statement.selectProblem (text id) false).exec P (w.choices 0).message w.state
        = (w.state, .tuples rows) := rfl
    rw [hexec]
    cases hselected : rows with
    | nil =>
        refine .unknown fun row hrow hid => ?_
        have hmem := (hrows row).mpr ⟨hrow, hid⟩
        rw [hselected] at hmem
        exact absurd hmem List.not_mem_nil
    | cons row rest =>
        obtain ⟨hrow, hid⟩ := (hrows row).mp (hselected ▸ List.mem_cons_self)
        exact readProblem_lookup (w := w.advance w.state) hrow hid rfl

theorem Stored.unique {db : Database} {problem : Problem} {row : ProblemRow}
    (h : Stored db id problem) (hrow : row ∈ db.problems) (hid : row.id = text id) :
    (problemOfRow row).run = .ok (.ok problem) := by
  obtain ⟨row', hrow', hid', hread⟩ := h
  rwa [Table.eq_of_key hrow hrow' (hid.trans hid'.symm)]

section lookup
variable {db : Database} {choices : Nat → Choice} {problem : Problem} {exception : Exception}

/-- A problem that is found is stored, and comes with its enabled tests. -/
theorem Lookup.of_found (h : Lookup db id choices (.ok (.ok (some problem)))) :
    (∃ stored, Stored db id stored) ∧ problem.hiddenTests = enabledTests db id := by
  cases h with
  | found stored h => exact ⟨⟨stored, h⟩, rfl⟩

theorem Lookup.row_of_error (h : Lookup db id choices (.error exception)) :
    ∃ row ∈ db.problems, row.id = text id := by
  cases h with
  | thrown _ row hrow hid _ => exact ⟨row, hrow, hid⟩

/-- Reading a problem throws only where its row cannot be read. -/
theorem Lookup.not_error (h : Lookup db id choices (.error exception))
    (hstored : Stored db id problem) : False := by
  cases h with
  | thrown _ row hrow hid hread =>
      have hok := hstored.unique hrow hid
      rw [hread] at hok
      cases hok

/-- A stored problem is found where neither query fails. -/
theorem Lookup.of_stored {found : Except Exception (Except ProblemRepositoryError (Option Problem))}
    (h : Lookup db id choices found) (hstored : Stored db id problem)
    (hfirst : (choices 0).failure = none) (hsecond : (choices 1).failure = none) :
    ∃ problem, found = .ok (.ok (some problem)) ∧ problem.hiddenTests = enabledTests db id := by
  cases h with
  | failed error h => simp [hfirst, hsecond] at h
  | unknown h =>
      obtain ⟨row, hrow, hid, -⟩ := hstored
      exact absurd hid (h row hrow)
  | unreadable error row hrow hid hread =>
      have hok := hstored.unique hrow hid
      rw [hread] at hok
      cases hok
  | thrown exception row hrow hid hread =>
      have hok := hstored.unique hrow hid
      rw [hread] at hok
      cases hok
  | found problem h => exact ⟨_, rfl, rfl⟩

end lookup
end find

/-! ## The judge -/

section judge
variable {P : Platform} {τ : Type} {V : Service Executor Choice τ} {request : JudgeRequest}
  {w : World Choice (Database × τ)}

/-- What the judge makes of what it finds: an error without any execution, or a verdict on the tests. -/
inductive Judged (request : JudgeRequest) :
    Except Exception (Except ProblemRepositoryError (Option Problem)) →
      Except Exception JudgeResult → List (Exchange Executor) → Prop where
  | thrown (exception : Exception) : Judged request (.error exception) (.error exception) []
  | failed (error : ProblemRepositoryError) :
      Judged request (.ok (.error error)) (.ok (.judgeError error.message)) []
  | unknown : Judged request (.ok (.ok none)) (.ok (.judgeError "Unknown problem")) []
  | untested (problem : Problem) (h : problem.hiddenTests = []) :
      Judged request (.ok (.ok (some problem)))
        (.ok (.judgeError "Problem has no enabled hidden tests")) []
  | tested (problem : Problem) (h : problem.hiddenTests ≠ []) (result : JudgeResult)
      (calls : List (Exchange Executor))
      (hverdicted : Verdicted request problem.hiddenTests calls result) :
      Judged request (.ok (.ok (some problem))) (.ok result) calls

theorem judgeFound_judged (found : Except ProblemRepositoryError (Option Problem))
    (w : World Choice (Database × τ)) :
    Judged request (.ok found) ((ProblemJudge.judgeFound request found).run ((serve P).sum V) w).1
      (executions V P (ProblemJudge.judgeFound request found) w) := by
  cases found with
  | error error => exact .failed error
  | ok found =>
      cases found with
      | none => exact .unknown
      | some problem =>
          have hfound : ProblemJudge.judgeFound request (.ok (some problem)) =
              if problem.hiddenTests.isEmpty then
                pure (.judgeError "Problem has no enabled hidden tests")
              else ProblemJudge.judgeTests request problem.hiddenTests := rfl
          rw [hfound]
          by_cases htests : problem.hiddenTests = []
          · rw [if_pos (List.isEmpty_iff.mpr htests)]
            exact .untested problem htests
          · rw [if_neg (mt List.isEmpty_iff.mp htests)]
            obtain ⟨result, hrun, hverdicted⟩ := @judgeTests_verdicted P τ V request
              problem.hiddenTests w
            rw [hrun]
            exact .tested problem htests result _ hverdicted

/-- The judge looks the problem up, and goes on with what it finds. -/
theorem judge_lookup (V : Service Executor Choice τ) (request : JudgeRequest)
    (w : World Choice (Database × τ)) :
    ∃ found, Lookup w.state.1 request.problemId w.choices found ∧
      Judged request found ((ProblemJudge.run request).run ((serve P).sum V) w).1
        (executions V P (ProblemJudge.run request) w) := by
  have hlookup := findForJudging_lookup (P := P) request.problemId ⟨w.choices, w.state.1⟩
  refine ⟨_, hlookup, ?_⟩
  unfold executions ProblemJudge.run
  rw [Program.run_bind, Program.log_bind, Program.run_inl, List.filterMap_append, Program.log_inl,
    List.nil_append]
  cases hfound : ((findForJudging request.problemId).run (serve P) ⟨w.choices, w.state.1⟩).1 with
  | error exception => exact .thrown exception
  | ok found => exact judgeFound_judged found _

section judged
variable {found : Except Exception (Except ProblemRepositoryError (Option Problem))}
  {outcome : Except Exception JudgeResult} {calls : List (Exchange Executor)}

theorem Judged.verdicted {problem : Problem}
    (h : Judged request (.ok (.ok (some problem))) outcome calls)
    (htests : problem.hiddenTests ≠ []) :
    ∃ result, outcome = .ok result ∧ Verdicted request problem.hiddenTests calls result := by
  cases h with
  | untested _ hnil => exact absurd hnil htests
  | tested _ _ result _ hverdicted => exact ⟨result, rfl, hverdicted⟩

/-- Without tests there is an error and no execution. -/
theorem Judged.error (h : Judged request found outcome calls) (hthrown : ∀ e, found ≠ .error e)
    (htests : ∀ problem, found = .ok (.ok (some problem)) → problem.hiddenTests = []) :
    calls = [] ∧ ∃ message, outcome = .ok (.judgeError message) := by
  cases h with
  | thrown exception => exact absurd rfl (hthrown exception)
  | failed error => exact ⟨rfl, _, rfl⟩
  | unknown => exact ⟨rfl, _, rfl⟩
  | untested problem h => exact ⟨rfl, _, rfl⟩
  | tested problem h => exact absurd (htests problem rfl) h

theorem Judged.unjudged (h : Judged request found outcome calls)
    (htests : ∀ problem, found = .ok (.ok (some problem)) → problem.hiddenTests = []) :
    calls = [] ∧ ∀ result, outcome = .ok result → ∃ message, result = .judgeError message := by
  by_cases hthrown : ∃ e, found = .error e
  · obtain ⟨e, rfl⟩ := hthrown
    cases h with
    | thrown _ => exact ⟨rfl, fun result he => (by cases he)⟩
  · obtain ⟨hcalls, message, rfl⟩ := h.error (fun e he => hthrown ⟨e, he⟩) htests
    exact ⟨hcalls, fun result he => ⟨message, (Except.ok.inj he).symm⟩⟩

end judged

/-- **The judge.** The tests are the enabled ones of the problem, in order. Either the result is what they
    and the executions amount to, or there is an error and no execution; the first if nothing fails and
    there are tests, the second if the problem is unknown or has none. -/
theorem judge_run (P : Platform) (V : Service Executor Choice τ) (request : JudgeRequest)
    (w : World Choice (Database × τ)) :
    ((enabledTests w.state.1 request.problemId).Pairwise Precedes ∧
      ∀ t, t ∈ enabledTests w.state.1 request.problemId ↔
        ∃ row ∈ w.state.1.problemTests, row.problemId = text request.problemId ∧
          row.enabled = true ∧ testOfRow row = t) ∧
    (∀ problem, Stored w.state.1 request.problemId problem →
      (w.choices 0).failure = none → (w.choices 1).failure = none →
      enabledTests w.state.1 request.problemId ≠ [] →
      ∃ result, ((ProblemJudge.run request).run ((serve P).sum V) w).1 = .ok result ∧
        Verdicted request (enabledTests w.state.1 request.problemId)
          (executions V P (ProblemJudge.run request) w) result) ∧
    ((∀ row ∈ w.state.1.problems, row.id ≠ text request.problemId) ∨
        ((∃ problem, Stored w.state.1 request.problemId problem) ∧
          enabledTests w.state.1 request.problemId = []) →
      executions V P (ProblemJudge.run request) w = [] ∧
        ∃ message, ((ProblemJudge.run request).run ((serve P).sum V) w).1
          = .ok (.judgeError message)) ∧
    ((enabledTests w.state.1 request.problemId ≠ [] ∧
        ∃ result, ((ProblemJudge.run request).run ((serve P).sum V) w).1 = .ok result ∧
          Verdicted request (enabledTests w.state.1 request.problemId)
            (executions V P (ProblemJudge.run request) w) result) ∨
      (executions V P (ProblemJudge.run request) w = [] ∧
        ∀ result, ((ProblemJudge.run request).run ((serve P).sum V) w).1 = .ok result →
          ∃ message, result = .judgeError message)) := by
  obtain ⟨found, hlookup, hjudged⟩ := judge_lookup (P := P) V request w
  refine ⟨⟨pairwise_enabledTests .., fun t => mem_enabledTests⟩, ?_, ?_, ?_⟩
  · rintro problem hstored hfirst hsecond htests
    obtain ⟨problem', rfl, hsame⟩ := hlookup.of_stored hstored hfirst hsecond
    exact hsame ▸ hjudged.verdicted (hsame ▸ htests)
  · rintro (hunknown | ⟨⟨problem, hstored⟩, htests⟩)
    · refine hjudged.error (fun e he => ?_) fun problem he => ?_
      · obtain ⟨row, hrow, hid⟩ := (he ▸ hlookup).row_of_error
        exact hunknown row hrow hid
      · obtain ⟨⟨-, row, hrow, hid, -⟩, -⟩ := (he ▸ hlookup).of_found
        exact absurd hid (hunknown row hrow)
    · refine hjudged.error (fun e he => ?_) fun problem he => ?_
      · exact (he ▸ hlookup).not_error hstored
      · exact (he ▸ hlookup).of_found.2.trans htests
  · by_cases hfound : ∃ problem, found = .ok (.ok (some problem)) ∧ problem.hiddenTests ≠ []
    · obtain ⟨problem, rfl, htests⟩ := hfound
      have hsame := hlookup.of_found.2
      exact Or.inl ⟨hsame ▸ htests, hsame ▸ hjudged.verdicted htests⟩
    · exact Or.inr (hjudged.unjudged fun problem he => by_contra fun hne => hfound ⟨problem, he, hne⟩)

end judge

/-! ### Two tests -/

/-- A problem with two enabled tests, the later of which comes first. -/
def twoTests : Database :=
  { Database.initial 0 with
      problems := Table.empty.insert ⟨"sum", "Sum", "Add the numbers.", "", "", "Easy", .array [],
        .array [.string "python"], .array [], true, 0, 0, 1⟩
      problemTests := (Table.empty.insert ⟨1, "sum", "2 2", "4", 1, true, 1⟩).insert
        ⟨2, "sum", "1 2", "3", 0, true, 1⟩ }

/-- An executor on which every program prints 3. -/
def printsThree : Service Executor Choice Unit := fun _ _ t => (.ok ⟨0, utf8 "3", [], false, none⟩, t)

/-- The first test passes, the second does not, and the answer is that of the second. -/
theorem judge_run_twice :
    let request : JudgeRequest := ⟨"sum", "python", "print(3)"⟩
    let w : World Choice (Database × Unit) := ⟨fun _ => .calm, (twoTests, ())⟩
    (enabledTests twoTests "sum").map (·.input) = ["1 2", "2 2"] ∧
      (executions printsThree .plain (ProblemJudge.run request) w).length = 2 ∧
      ((ProblemJudge.run request).run ((serve Platform.plain).sum printsThree) w).1
        = .ok (.verdict .wrongAnswer) ∧
      Verdicted request (enabledTests twoTests "sum")
        (executions printsThree .plain (ProblemJudge.run request) w) (.verdict .wrongAnswer) := by
  intro request w
  have houtcome : ((ProblemJudge.run request).run ((serve Platform.plain).sum printsThree) w).1
      = .ok (.verdict .wrongAnswer) := by decide
  refine ⟨by decide, by decide, houtcome, ?_⟩
  obtain ⟨result, hresult, hverdicted⟩ := (judge_run .plain printsThree request w).2.1 _
    ⟨_, Table.mem_def.mpr List.mem_cons_self, by decide, rfl⟩ rfl rfl (by decide)
  obtain rfl : result = .verdict .wrongAnswer := Except.ok.inj (hresult.symm.trans houtcome)
  exact hverdicted

end AlgorithmTrainer
