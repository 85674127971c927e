import Mathlib.Data.Nat.Digits.Defs
import AlgorithmTrainer.Database.Indexes
import AlgorithmTrainer.Executor.Message
import AlgorithmTrainer.Executor.Supervisor
import AlgorithmTrainer.Judge.Traceback
import AlgorithmTrainer.Submission.Worker

/-!
# `Submission.StoredCategory` — storing the error category of a submission

The category of a runtime error is stored as `error_type`, which `submissions_admin_filter_index` is an index
on, and PostgreSQL refuses a row whose index row is too long. The category is cut from what the program has
printed on stderr, by a filter of its characters.

`processOne_stores_iff` says for which executions the category is no longer than the limit, and for which a
worker stores it; any other is recorded as a failed submission. The two differ, since the index row has other
columns, and its texts may be compressed.

## Contents
- **Categories.** `CategoryOf` says which category follows from an execution, without `classifyRuntimeError`.
- **Lengths.** `byteSize_classify_iff`, from the length of what is said of a name (`length_nameCategory`).
- **What a worker stores**, call by call: the claim is served (`run_claimNext_indexed`), `complete` is served
  or refused by the row that it would write (`run_complete_indexed`), and the fallback completes nothing.
-/

namespace AlgorithmTrainer

open Interaction Relational PostgreSQLSubmissionRepository

/-- The longest name that leaves room for `Exception: `. -/
def exceptionNameLimit : Nat := 2693

/-- An error type of the executor is short enough, or another condition decides, or the first line of stderr
    with a name to it has a short one. -/
def ShortCategory (execution : ExecutionResult Bytes) : Prop :=
  match execution.errorType with
  | some type => byteSize type ≤ indexEntryLimit
  | none => execution.exitCode = 120 ∨ execution.exitCode = 127 ∨
      utf8 "std::bad_alloc" <:+: execution.standardError ∨
      ∀ name, FirstNamed (execution.standardError.splitOn lineFeed) name →
        name.length ≤ exceptionNameLimit

/-- The limits of the executor and its own failures do not decide the category. -/
structure ByProgram (execution : ExecutionResult Bytes) : Prop where
  type : execution.errorType = none
  outputLimit : execution.exitCode ≠ 120
  launched : execution.exitCode ≠ 127

/-- The category that follows from an execution: the executor's, or that of an exit code, of an allocation
    that has failed, of the first line of stderr with a name to it, or of a signal. -/
inductive CategoryOf (execution : ExecutionResult Bytes) : String → Prop where
  | supplied {type : String} (htype : execution.errorType = some type) : CategoryOf execution type
  | outputLimit (htype : execution.errorType = none) (hcode : execution.exitCode = 120) :
      CategoryOf execution "Output Limit Exceeded"
  | launch (htype : execution.errorType = none) (hcode : execution.exitCode = 127) :
      CategoryOf execution "Sandbox Runtime Error"
  | allocation (h : ByProgram execution) (halloc : utf8 "std::bad_alloc" <:+: execution.standardError) :
      CategoryOf execution "Memory Limit Exceeded"
  | named {name : Bytes} {category : String} (h : ByProgram execution)
      (halloc : ¬ utf8 "std::bad_alloc" <:+: execution.standardError)
      (hname : FirstNamed (execution.standardError.splitOn lineFeed) name)
      (hcategory : utf8 category = nameCategory name) : CategoryOf execution category
  | unnamed (h : ByProgram execution) (halloc : ¬ utf8 "std::bad_alloc" <:+: execution.standardError)
      (hname : ∀ name, ¬ FirstNamed (execution.standardError.splitOn lineFeed) name) :
      CategoryOf execution (if 128 ≤ execution.exitCode
        then "Terminated by " ++ signalName (execution.exitCode - 128) else "Runtime Error")

/-! ## The length of a category -/

section lengths
variable {execution : ExecutionResult Bytes}

theorem byteSize_append (s t : String) : byteSize (s ++ t) = byteSize s + byteSize t := by
  rw [← length_utf8, utf8_append, List.length_append, length_utf8, length_utf8]

/-- A number of at most ten digits is printed with at most ten bytes. -/
theorem byteSize_repr {n : Nat} (h : n < 10 ^ 10) : byteSize n.repr ≤ 10 := by
  have hdigits : ∀ c ∈ Nat.toDigits 10 n, c.utf8Size = 1 := by
    intro c hc
    have hdigit := Nat.isDigit_of_mem_toDigits (by decide) (by decide) hc
    rw [Char.utf8Size_eq_one_iff]
    simp only [Char.isDigit, Bool.and_eq_true, decide_eq_true_eq] at hdigit
    exact Nat.le_trans hdigit.2 (by decide)
  have hsum : byteSize n.repr = (Nat.toDigits 10 n).length := by
    rw [byteSize_eq_sum, Nat.repr_eq_ofList_toDigits, String.toList_ofList, List.map_congr_left hdigits]
    simp
  rw [hsum]
  exact Nat.toDigits_length 10 n 10 (by decide) h

theorem byteSize_signalName {signal : Int} (h : 0 ≤ signal) (h' : signal < 2 ^ 31) :
    byteSize (signalName signal) ≤ 17 := by
  unfold signalName
  repeat' split
  all_goals try decide
  obtain ⟨n, rfl⟩ := Int.eq_ofNat_of_zero_le h
  rw [byteSize_append]
  have hn := @byteSize_repr n (by omega)
  show 7 + byteSize n.repr ≤ 17
  omega

/-- What is said of a name that is found takes as many bytes as the name, and eleven. -/
theorem length_nameCategory (name : Bytes) :
    (nameCategory name).length ≤ indexEntryLimit ↔ name.length ≤ exceptionNameLimit := by
  by_cases hmemory : name = utf8 "MemoryError"
  · subst hmemory
    decide
  · by_cases hgrammar : name ∈ syntaxErrors
    · rw [nameCategory_ofGrammar hgrammar]
      have hshort : ∀ name ∈ syntaxErrors, name.length ≤ exceptionNameLimit := by decide
      exact iff_of_true (by decide) (hshort name hgrammar)
    · rw [nameCategory_other hmemory hgrammar, List.length_append]
      have hlength : (utf8 "Exception: ").length = 11 := by decide
      unfold indexEntryLimit exceptionNameLimit
      omega

/-- **The length of a category.** It fits into an index entry exactly if the name it is cut from is short,
    where it is cut from one. -/
theorem byteSize_classify_iff (hcode : execution.exitCode < 2 ^ 31) :
    byteSize (classifyRuntimeError execution) ≤ indexEntryLimit ↔ ShortCategory execution := by
  unfold ShortCategory
  cases htype : execution.errorType with
  | some type => simp [classifyRuntimeError, htype]
  | none =>
      by_cases h120 : execution.exitCode = 120
      · refine iff_of_true ?_ (Or.inl h120)
        rw [classify_120 htype h120]
        decide
      by_cases h127 : execution.exitCode = 127
      · refine iff_of_true ?_ (Or.inr (Or.inl h127))
        rw [classify_127 htype h127]
        decide
      by_cases halloc : utf8 "std::bad_alloc" <:+: execution.standardError
      · rw [classify_alloc htype h120 h127 halloc]
        exact iff_of_true (by decide) (Or.inr (Or.inr (Or.inl halloc)))
      simp only [h120, h127, halloc, false_or, ← findSome_firstNamed]
      show _ ↔ ∀ name, pythonExceptionName execution.standardError = some name → _
      cases hname : pythonExceptionName execution.standardError with
      | some name =>
          obtain ⟨-, line, -, -, hline, -⟩ := findSome_firstNamed.mp hname
          rw [← length_utf8, classify_found htype h120 h127 halloc hname (lineExceptionName_ascii hline),
            length_nameCategory]
          simp
      | none =>
          refine iff_of_true ?_ fun name h => by cases h
          rw [classify_unnamed htype h120 h127 halloc hname]
          split
          · rename_i hsignal
            have hbyte := @byteSize_signalName (execution.exitCode - 128) (by omega) (by omega)
            have hterminated : byteSize "Terminated by " = 14 := by decide
            rw [byteSize_append, hterminated]
            unfold indexEntryLimit
            omega
          · decide

theorem utf8_injective {s t : String} (h : utf8 s = utf8 t) : s = t :=
  String.toByteArray_inj.mp (ByteArray.ext (Array.ext' h))

/-- The line with the first name is what the code looks for. -/
theorem firstNamed_iff {name : Bytes} : FirstNamed (execution.standardError.splitOn lineFeed) name ↔
    pythonExceptionName execution.standardError = some name := findSome_firstNamed.symm

/-- **Classification.** The code reports the category that follows. -/
theorem categoryOf_iff {category : String} :
    CategoryOf execution category ↔ category = classifyRuntimeError execution := by
  constructor
  · intro h
    -- each rule names what the classifier returns
    cases h with
    | supplied htype => simp [classifyRuntimeError, htype]
    | outputLimit htype hcode => exact (classify_120 htype hcode).symm
    | launch htype hcode => exact (classify_127 htype hcode).symm
    | allocation h halloc => exact (classify_alloc h.type h.outputLimit h.launched halloc).symm
    | named h halloc hname hcategory =>
        have hfound := firstNamed_iff.mp hname
        obtain ⟨-, line, -, -, hline, -⟩ := hname
        exact utf8_injective (hcategory.trans (classify_found h.type h.outputLimit h.launched halloc hfound
          (lineExceptionName_ascii hline)).symm)
    | unnamed h halloc hname =>
        refine (classify_unnamed h.type h.outputLimit h.launched halloc ?_).symm
        exact Option.eq_none_iff_forall_ne_some.mpr fun name hsome => hname name (firstNamed_iff.mpr hsome)
  · rintro rfl
    -- and the classifier tries the rules in this order
    cases htype : execution.errorType with
    | some type =>
        have hsame : classifyRuntimeError execution = type := by simp [classifyRuntimeError, htype]
        rw [hsame]
        exact .supplied htype
    | none =>
        by_cases h120 : execution.exitCode = 120
        · rw [classify_120 htype h120]
          exact .outputLimit htype h120
        by_cases h127 : execution.exitCode = 127
        · rw [classify_127 htype h127]
          exact .launch htype h127
        have h : ByProgram execution := ⟨htype, h120, h127⟩
        by_cases halloc : utf8 "std::bad_alloc" <:+: execution.standardError
        · rw [classify_alloc htype h120 h127 halloc]
          exact .allocation h halloc
        cases hname : pythonExceptionName execution.standardError with
        | some name =>
            have hfirst := firstNamed_iff.mpr hname
            obtain ⟨-, line, -, -, hline, -⟩ := hfirst
            exact .named h halloc (firstNamed_iff.mpr hname)
              (classify_found htype h120 h127 halloc hname (lineExceptionName_ascii hline))
        | none =>
            rw [classify_unnamed htype h120 h127 halloc hname]
            refine .unnamed h halloc fun name hfirst => ?_
            rw [firstNamed_iff, hname] at hfirst
            cases hfirst

end lengths

/-! ## What a worker stores -/

/-- Every index row of the database is short enough, as one that PostgreSQL holds is. -/
def Database.Indexed (P : Platform) (btree : Btree) (db : Database) : Prop :=
  ∀ row ∈ db.indexRows P, btree row = true

/-- The submission as it is completed with a runtime error of this category. -/
def runtimeErrorRow (category : String) (now : Timestamp) (r : SubmissionRow) : SubmissionRow :=
  completedRow (verdictName .runtimeError) (some (text category)) now r

/-- The submission is stored as completed with a runtime error of this category. -/
def StoredRuntimeError (category : String) (id : Int) (db : Database) : Prop :=
  ∃ r ∈ db.submissions, r.id = id ∧ r.status = "completed" ∧
    r.verdict = some (verdictName .runtimeError) ∧ r.errorType = some (text category)

section stores
variable {P : Platform} {btree : Btree} {limits : PostgreSQLRepositoryLimits} {w : World Choice Database}
  {db : Database} {r : SubmissionRow} {x : SubmissionRecord} {c : Choice} {q : BackendRequest}

/-- A call that is served leaves index rows that are short enough. -/
theorem Database.Indexed.fits {db' : Database} (hindexed : db.Indexed P btree)
    (h : db.fits P btree db' = true) : db'.Indexed P btree :=
  fun row hrow => (Database.fits_iff.mp h row hrow).elim id (hindexed row)

theorem Database.Indexed.adminFilter (hindexed : db.Indexed P btree) (hr : r ∈ db.submissions) :
    btree r.adminFilter = true ∧ btree r.userProblemCreated = true := by
  have hrows : ∀ row ∈ r.indexRows, btree row = true := fun row hrow =>
    hindexed row (List.mem_append_right _ (List.mem_flatMap.mpr ⟨r, hr, hrow⟩))
  exact ⟨hrows _ (List.mem_cons_of_mem _ List.mem_cons_self), hrows _ List.mem_cons_self⟩

/-- A claim that has returned a submission was served. -/
theorem run_claimNext_indexed
    (h : ((claimNext P limits).run (serveIndexed P btree) w).1 = .ok (.ok (some x))) :
    (claimNext P limits).run (serveIndexed P btree) w = (claimNext P limits).run (serve P) w ∧
      w.state.fits P btree ((claimNext P limits).run (serve P) w).2.state = true := by
  have hstate : ((claimNext P limits).run (serve P) w).2.state = (serve P (.executeLocked claimLock
      (.claimSubmission limits.maximumRunningSubmissionsPerUser)) (w.choices 0) w.state).2 := by
    simp only [claimNext, run_executeLocked]
    split <;> rfl
  rw [hstate]
  cases hfits : w.state.fits P btree (serve P (.executeLocked claimLock
      (.claimSubmission limits.maximumRunningSubmissionsPerUser)) (w.choices 0) w.state).2 with
  | true => exact ⟨run_indexed_of_fits hfits fun r v => by cases r <;> rfl, rfl⟩
  | false =>
      have hrun : (claimNext P limits).run (serveIndexed P btree) w
          = (claimNext P limits).run (serve P) (refusedFirst w) :=
        run_indexed_of_not_fits hfits fun r v => by cases r <;> rfl
      rw [hrun] at h
      cases h

/-- **`complete` with the indexes.** It completes the running row as long as its row of
    `submissions_admin_filter_index` is short enough, and is refused otherwise. -/
theorem run_complete_indexed (hindexed : w.state.Indexed P btree) (hr : r ∈ w.state.submissions)
    (hs : r.status = "running") (category : String) (hc : (w.choices 0).failure = none) :
    (btree (runtimeErrorRow category w.state.clock r).adminFilter = true ∧
      ∃ x, (complete P r.id .runtimeError (some category)).run (serveIndexed P btree) w
        = (.ok (.ok x), w.advance { w.state with
            submissions := w.state.submissions.update (runningRow r.id)
              (runtimeErrorRow category w.state.clock) })) ∨
    (btree (runtimeErrorRow category w.state.clock r).adminFilter = false ∧
      ∃ error, (complete P r.id .runtimeError (some category)).run (serveIndexed P btree) w
        = (.ok (.error error), w.advance w.state)) := by
  have hrunning : runningRow r.id r = true := runningRow_iff.mpr ⟨rfl, hs⟩
  let completed : Database := { w.state with
    submissions := w.state.submissions.update (runningRow r.id) (runtimeErrorRow category w.state.clock) }
  have hstate : (serve P (.execute (.completeSubmission (text (verdictName .runtimeError))
      ((some category).map text) r.id)) (w.choices 0) w.state).2 = completed := by
    simp only [serve_execute, serveStatement, hc, exec_complete]
    rfl
  -- Of the rows that are there after it, only this one is new.
  have hfits : w.state.fits P btree completed =
      btree (runtimeErrorRow category w.state.clock r).adminFilter := by
    rw [Bool.eq_iff_iff]
    constructor
    · intro h
      exact ((hindexed.fits h).adminFilter (Table.mem_update_of_pos hr hrunning)).1
    · intro h
      refine Database.fits_update fun r₀ hr₀ hpos row hrow => ?_
      obtain rfl := Table.eq_of_key hr₀ hr (runningRow_iff.mp hpos).1
      rcases List.mem_cons.mp hrow with rfl | hrow
      · exact (hindexed.adminFilter hr).2
      · exact (List.mem_singleton.mp hrow) ▸ h
  rw [← hstate] at hfits
  cases hbtree : btree (runtimeErrorRow category w.state.clock r).adminFilter with
  | true =>
      obtain ⟨x, hx⟩ := run_complete_calm (P := P) hr hs .runtimeError (some category) hc
      exact Or.inl ⟨rfl, x, (run_indexed_of_fits (hfits.trans hbtree) fun _ _ => rfl).trans hx⟩
  | false =>
      obtain ⟨error, hx⟩ := run_complete_fault (P := P) (w := refusedFirst w) r.id .runtimeError
        (some category) rfl
      exact Or.inr ⟨rfl, error, (run_indexed_of_not_fits (hfits.trans hbtree) fun _ _ => rfl).trans hx⟩

/-- `fail` completes nothing. -/
theorem run_fail_indexed (hdb : w.state.Checked) (id : Int) (e : Option String) :
    ∃ result db', (fail P id e).run (serveIndexed P btree) w = (.ok result, w.advance db') ∧
      ∀ y ∈ db'.submissions, y ∈ w.state.submissions ∨ y.status = "failed" := by
  let c := (w.choices 0).indexed P btree (.execute (.failSubmission (e.map text) id)) w.state
  refine ⟨_, (serveStatement P (.failSubmission (e.map text) id) c w.state).2, rfl, fun y hy => ?_⟩
  rcases serveStatement_cases (P := P) (.failSubmission (e.map text) id) c w.state with ⟨-, h⟩ | ⟨-, h⟩
  · rw [h] at hy
    exact Or.inl hy
  · rw [h, exec_fail hdb] at hy
    change y ∈ w.state.submissions.update (runningRow id) (failedRow (e.map text) w.state.clock) at hy
    obtain ⟨r₀, hr₀, rfl⟩ := (Table.mem_update (by intros; rfl)).mp hy
    split
    · exact Or.inr rfl
    · exact Or.inl hr₀

/-- A runtime error is stored under its category exactly if the index row is short enough. -/
theorem run_report_runtimeError (hdb : w.state.Checked) (hindexed : w.state.Indexed P btree)
    (hr : r ∈ w.state.submissions) (hs : r.status = "running") (category : String)
    (hc : (w.choices 0).failure = none) :
    ∃ w', (reportJudged P r.id (.runtimeError category)).run (serveIndexed P btree) w = (.ok .processed, w') ∧
      (StoredRuntimeError category r.id w'.state ↔
        btree (runtimeErrorRow category w.state.clock r).adminFilter = true) := by
  have hrunning : runningRow r.id r = true := runningRow_iff.mpr ⟨rfl, hs⟩
  unfold reportJudged report
  simp only [Program.run_bind]
  rcases run_complete_indexed hindexed hr hs category hc with ⟨hfits, y, hy⟩ | ⟨hlong, error, hy⟩
  · rw [hy]
    exact ⟨_, rfl, iff_of_true ⟨_, Table.mem_update_of_pos hr hrunning, rfl, rfl, rfl, rfl⟩ hfits⟩
  · rw [hy]
    obtain ⟨result, db', hz, hfailed⟩ := @run_fail_indexed P btree (w.advance w.state) hdb r.id
      (some "Result Persistence Error")
    simp only [Program.run_bind, hz]
    refine ⟨_, rfl, iff_of_false ?_ (by rw [hlong]; exact Bool.false_ne_true)⟩
    rintro ⟨y, hy, hid, hcompleted, -⟩
    rcases hfailed y hy with hold | hstatus
    · -- The row with this id is still the running one.
      obtain rfl := Table.eq_of_key hold hr hid
      rw [hs] at hcompleted
      exact absurd hcompleted (by decide)
    · rw [hstatus] at hcompleted
      exact absurd hcompleted (by decide)

/-- The judge is not asked differently. -/
theorem run_runJudge_indexed (request : JudgeRequest) :
    (runJudge request).run (serveIndexed P btree) w = (runJudge request).run (serve P) w :=
  run_indexed_of_fits Database.fits_self fun r v => by cases r <;> rfl

/-- **What a worker stores** of a submission whose execution ends in a runtime error. -/
theorem processOne_stored_iff (hdb : w.state.Checked) (hindexed : w.state.Indexed P btree)
    (hclaim : ((claimNext P limits).run (serveIndexed P btree) w).1 = .ok (.ok (some x))) (category : String)
    (hjudged : (w.choices 1).judged = .ok (.runtimeError category)) (hc : (w.choices 2).failure = none) :
    StoredRuntimeError category x.id ((processOne P limits).run (serveIndexed P btree) w).2.state ↔
      ∀ r ∈ w.state.submissions, r.id = x.id →
        btree (runtimeErrorRow category w.state.clock r).adminFilter = true := by
  obtain ⟨hserved, hfits⟩ := run_claimNext_indexed hclaim
  rw [hserved] at hclaim
  obtain ⟨db, r, hrun, hdb', hr, hid, hs, r₀, hr₀, rfl⟩ := run_claimNext_some hdb hclaim
  rw [hrun] at hfits
  obtain ⟨w', hreport, hstored⟩ := @run_report_runtimeError P btree ((w.advance db).advance (w.advance db).state)
    _ hdb' (hindexed.fits hfits) hr hs category hc
  have hstate : ((processOne P limits).run (serveIndexed P btree) w).2 = w' := by
    unfold processOne
    rw [Program.run_bind, hserved, hrun]
    show ((judgeClaimed P x).run (serveIndexed P btree) (w.advance db)).2 = w'
    rw [judgeClaimed, Program.run_tryCatch, Program.run_bind, run_runJudge_indexed, run_runJudge]
    have hanswer : ((w.advance db).choices 0).judged = .ok (.runtimeError category) := hjudged
    simp only [hanswer, ← hid, hreport]
  rw [hstate, ← hid, hstored]
  constructor
  · intro h r hr' hsame
    obtain rfl := Table.eq_of_key hr' hr₀ hsame
    exact h
  · intro h
    exact h r₀ hr₀ rfl

/-- **When a runtime error can be stored.** Let a worker claim a submission whose execution ends in a runtime
    error, and let nothing fail but the indexes. The category is no longer than the limit exactly if it is cut
    from a short name, and the submission is stored as completed with its runtime error exactly if its row of
    `submissions_admin_filter_index` is short enough with the category that follows from the execution. -/
theorem processOne_stores_iff (hdb : w.state.Checked) (hindexed : w.state.Indexed P btree)
    (hclaim : ((claimNext P limits).run (serveIndexed P btree) w).1 = .ok (.ok (some x)))
    (execution : ExecutionResult Bytes) (hcode : execution.exitCode < 2 ^ 31)
    (hjudged : (w.choices 1).judged = .ok (.runtimeError (classifyRuntimeError execution)))
    (hnext : (w.choices 2).failure = none) :
    (byteSize (classifyRuntimeError execution) ≤ indexEntryLimit ↔ ShortCategory execution) ∧
      (StoredRuntimeError (classifyRuntimeError execution) x.id
          ((processOne P limits).run (serveIndexed P btree) w).2.state ↔
        ∀ category, CategoryOf execution category → ∀ r ∈ w.state.submissions, r.id = x.id →
          btree (runtimeErrorRow category w.state.clock r).adminFilter = true) := by
  refine ⟨byteSize_classify_iff hcode, ?_⟩
  rw [processOne_stored_iff hdb hindexed hclaim _ hjudged hnext]
  constructor
  · intro h category hcategory
    rw [categoryOf_iff.mp hcategory]
    exact h
  · intro h
    exact h _ (categoryOf_iff.mpr rfl)

end stores

/-! ### An exception with a long name -/

/-- `Aa0Aa1Aa2…`: no four of its bytes come twice. -/
@[irreducible] def letterGroups (n : Nat) : Bytes := (List.range n).flatMap fun i =>
  [65 + UInt8.ofNat (i / 200), 97 + UInt8.ofNat (i / 10 % 20), 48 + UInt8.ofNat (i % 10)]

theorem letterGroups_length (n : Nat) : (letterGroups n).length = 3 * n := by
  rw [letterGroups, List.length_flatMap]
  simp only [List.length_cons, List.length_nil, List.map_const', List.length_range, List.sum_replicate_nat]
  exact Nat.mul_comm n 3

theorem letterGroups_head (n : Nat) : (letterGroups (n + 1)).head? = some 65 := by
  rw [letterGroups, List.range_succ_eq_map, List.flatMap_cons]
  rfl

/-- What holds of the letters and digits in it holds of each of its bytes. -/
theorem letterGroups_all {p : UInt8 → Bool} {n : Nat} (hn : n ≤ 1000)
    (hupper : ∀ k < 5, p (65 + UInt8.ofNat k) = true) (hlower : ∀ k < 20, p (97 + UInt8.ofNat k) = true)
    (hdigit : ∀ k < 10, p (48 + UInt8.ofNat k) = true) : ∀ c ∈ letterGroups n, p c = true := by
  intro c hc
  rw [letterGroups] at hc
  obtain ⟨i, hi, hc⟩ := List.mem_flatMap.mp hc
  have hi := List.mem_range.mp hi
  simp only [List.mem_cons, List.not_mem_nil, or_false] at hc
  rcases hc with rfl | rfl | rfl
  · exact hupper _ (by omega)
  · exact hlower _ (by omega)
  · exact hdigit _ (by omega)

/-- `Aa0Aa1Aa2…Et9Error`, which cannot be compressed. -/
def longName : Bytes := letterGroups 1000 ++ utf8 "Error"

theorem longName_length : longName.length = 3005 := by
  rw [longName, List.length_append, letterGroups_length]
  rfl

theorem longName_all {p : UInt8 → Bool} (hupper : ∀ k < 5, p (65 + UInt8.ofNat k) = true)
    (hlower : ∀ k < 20, p (97 + UInt8.ofNat k) = true) (hdigit : ∀ k < 10, p (48 + UInt8.ofNat k) = true)
    (herror : (utf8 "Error").all p = true) : ∀ c ∈ longName, p c = true := by
  intro c hc
  rcases List.mem_append.mp hc with hc | hc
  · exact letterGroups_all (Nat.le_refl 1000) hupper hlower hdigit c hc
  · exact List.all_eq_true.mp herror c hc

theorem longName_head : longName.head? = some 65 := by
  rw [longName, List.head?_append, letterGroups_head]
  rfl

theorem longName_holds : asciiIdentifiers.holds longName = true := by
  have hletters := @longName_all (fun c => isAlnumByte c || c == 95) (by decide) (by decide) (by decide)
    (by decide)
  simp only [asciiIdentifiers, Bool.and_eq_true, List.all_eq_true, longName_head]
  refine ⟨⟨?_, hletters⟩, by decide⟩
  cases hname : longName with
  | nil => exact absurd (hname ▸ longName_length) (by decide)
  | cons => rfl

theorem longName_ascii : ∀ c ∈ longName, c < 128 := fun c hc =>
  of_decide_eq_true (@longName_all (fun c => decide (c < 128)) (by decide) (by decide) (by decide)
    (by decide) c hc)

/-- `raise` of an exception whose class has the long name, without a message. -/
def longNameBlock : TracebackBlock asciiIdentifiers where
  lines := []
  name := longName
  message := none
  unbroken line h := absurd h List.not_mem_nil
  unshaped line h := absurd h List.not_mem_nil
  named := ⟨longName_holds, Or.inl (List.suffix_append _ _)⟩
  messageUnbroken m h := by cases h

theorem longNameText : tracebackText [longNameBlock] true = longName ++ [lineFeed] := by
  have hlines : tracebackLines [longNameBlock] = [longName] := by
    show [longName ++ []] = [longName]
    rw [List.append_nil]
  simp [tracebackText, hlines, List.intercalate]

/-- The execution of a program that raises it. -/
def longNameExecution : ExecutionResult Bytes := ⟨1, [], tracebackText [longNameBlock] true, false, none⟩

theorem longNameExecution_named :
    FirstNamed (longNameExecution.standardError.splitOn lineFeed) longName := by
  rw [firstNamed_iff]
  show pythonExceptionName (tracebackText [longNameBlock] true) = _
  rw [pythonExceptionName_text (by simp)]
  exact findSome_firstNamed.mpr (firstNamed_firstBlock longNameBlock [] longName_ascii
    fun line hline => absurd hline List.not_mem_nil)

/-- Its category: the name, with what is put before it. -/
def longCategory : String := "Exception: " ++ String.ofList (longName.map fun c => Char.ofNat c.toNat)

theorem longNameExecution_category : classifyRuntimeError longNameExecution = longCategory := by
  have hplain : ¬ utf8 "std::bad_alloc" <:+: longNameExecution.standardError := by
    intro h
    -- The text has no colon in it.
    have hmem : (58 : UInt8) ∈ longName ++ [lineFeed] := longNameText ▸ h.subset (by decide)
    rcases List.mem_append.mp hmem with hmem | hmem
    · exact absurd (@longName_all (fun c => c != 58) (by decide) (by decide) (by decide) (by decide) _ hmem)
        (by decide)
    · exact absurd hmem (by decide)
  have hmemory : longName ≠ utf8 "MemoryError" := fun h => absurd (h ▸ longName_length) (by decide)
  have hgrammar : longName ∉ syntaxErrors := by
    have hshort : ∀ name ∈ syntaxErrors, name.length < 3005 := by decide
    exact fun h => absurd (hshort longName h) (by rw [longName_length]; decide)
  refine utf8_injective ((classify_found rfl (by decide) (by decide) hplain
    (firstNamed_iff.mp longNameExecution_named) longName_ascii).trans ?_)
  rw [nameCategory_other hmemory hgrammar, longCategory, utf8_append, utf8_ascii longName_ascii]

theorem longCategory_size : indexEntryLimit < byteSize longCategory := by
  rw [← length_utf8, longCategory, utf8_append, utf8_ascii longName_ascii, List.length_append, longName_length]
  decide

theorem longCategory_noNul : '\x00' ∉ longCategory.toList := by
  intro h
  rw [longCategory, String.toList_append] at h
  rcases List.mem_append.mp h with h | h
  · exact absurd h (by decide)
  · rw [String.toList_ofList] at h
    obtain ⟨c, hc, hzero⟩ := List.mem_map.mp h
    have hne := @longName_all (fun c => Char.ofNat c.toNat != '\x00') (by decide) (by decide) (by decide)
      (by decide) c hc
    exact bne_iff_ne.mp hne hzero

theorem longCategory_refused (now : Timestamp) (r : SubmissionRow) :
    uncompressed (runtimeErrorRow longCategory now r).adminFilter = false := by
  have hmem : .text longCategory ∈ (runtimeErrorRow longCategory now r).adminFilter := by
    show _ ∈ [_, IndexValue.text (text longCategory), _, _, _, _]
    rw [text, cStr_of_not_mem longCategory_noNul]
    exact List.mem_cons_of_mem _ List.mem_cons_self
  exact uncompressed_long hmem longCategory_size

/-- A worker that claims the one submission, and whose judge reports this runtime error. -/
def judgedAs (category : String) : World Choice Database :=
  ⟨fun _ => { judged := .ok (.runtimeError category) }, oneQueued⟩

theorem oneQueued_indexed : oneQueued.Indexed .plain uncompressed := by
  unfold Database.Indexed
  decide

theorem judgedAs_claims (category : String) :
    ((claimNext .plain {}).run (serveIndexed .plain uncompressed) (judgedAs category)).1
      = .ok (.ok (some ⟨1, "a-plus-b", "python", "pass", .running, none, "0", none, some 7, none, none⟩)) := by
  have hfits : oneQueued.fits .plain uncompressed (serve .plain (.executeLocked claimLock
      (.claimSubmission ({} : PostgreSQLRepositoryLimits).maximumRunningSubmissionsPerUser)) {} oneQueued).2
      = true := by decide
  have hserved := serveIndexed_of_fits hfits
  rw [claimNext, executeLocked, Program.ask_bind, Program.run_call]
  have hanswer : serveIndexed .plain uncompressed (.executeLocked claimLock (.claimSubmission
      ({} : PostgreSQLRepositoryLimits).maximumRunningSubmissionsPerUser)) ((judgedAs category).choices 0)
      (judgedAs category).state = serve .plain (.executeLocked claimLock (.claimSubmission
        ({} : PostgreSQLRepositoryLimits).maximumRunningSubmissionsPerUser)) {} oneQueued := by
    rw [← hserved]
    rfl
  rw [hanswer]
  rfl

/-- A plain runtime error, without a word on stderr. -/
def plainExecution : ExecutionResult Bytes := ⟨1, [], [], false, none⟩

theorem plainExecution_category : classifyRuntimeError plainExecution = "Runtime Error" := by decide

/-- A plain runtime error is stored, and one with the long name is not. -/
theorem processOne_stores_iff_plain :
    StoredRuntimeError (classifyRuntimeError plainExecution) 1
      ((processOne .plain {}).run (serveIndexed .plain uncompressed)
        (judgedAs (classifyRuntimeError plainExecution))).2.state ∧
    ¬ StoredRuntimeError (classifyRuntimeError longNameExecution) 1
      ((processOne .plain {}).run (serveIndexed .plain uncompressed)
        (judgedAs (classifyRuntimeError longNameExecution))).2.state := by
  have hdb : oneQueued.Checked := Database.checked_iff.mpr (by decide)
  constructor
  · refine (processOne_stores_iff hdb oneQueued_indexed (judgedAs_claims _) plainExecution (by decide) rfl
      rfl).2.mpr fun category hcategory r hr hid => ?_
    rw [categoryOf_iff.mp hcategory, plainExecution_category]
    obtain rfl := List.mem_singleton.mp (Table.mem_def.mp hr)
    decide
  · intro hstored
    have hrow := (processOne_stores_iff hdb oneQueued_indexed (judgedAs_claims _) longNameExecution (by decide)
      rfl rfl).2.mp hstored longCategory (categoryOf_iff.mpr longNameExecution_category.symm) _
      (Table.mem_def.mpr List.mem_cons_self) rfl
    rw [longCategory_refused] at hrow
    cases hrow

/-- **A category that no index row has room for**, from an output far below the limit: the worker records the
    program's own runtime error as a failed submission. -/
theorem long_category_unstorable : ∃ execution : ExecutionResult Bytes, execution.exitCode < 2 ^ 31 ∧
    execution.standardOutput.length + execution.standardError.length ≤ defaultLimits.outputLimit ∧
    ¬ byteSize (classifyRuntimeError execution) ≤ indexEntryLimit ∧
    ¬ StoredRuntimeError (classifyRuntimeError execution) 1
      ((processOne .plain {}).run (serveIndexed .plain uncompressed)
        (judgedAs (classifyRuntimeError execution))).2.state := by
  have hbytes : longNameExecution.standardError.length = 3006 := by
    show (tracebackText [longNameBlock] true).length = 3006
    rw [longNameText, List.length_append, longName_length]
    rfl
  refine ⟨longNameExecution, by decide, ?_, ?_, fun hstored => ?_⟩
  · rw [hbytes]
    decide
  · rw [longNameExecution_category]
    exact Nat.not_le.mpr longCategory_size
  · have hfits := (processOne_stored_iff (Database.checked_iff.mpr (by decide)) oneQueued_indexed
      (judgedAs_claims _) _ rfl rfl).mp hstored
    have hrow := hfits _ (Table.mem_def.mpr List.mem_cons_self) rfl
    rw [longNameExecution_category, longCategory_refused] at hrow
    cases hrow

end AlgorithmTrainer
