import AlgorithmTrainer.Server.ProblemForms
import AlgorithmTrainer.Sqlite.Problems

/-!
# `Sqlite.ProblemStorage` — a problem that is stored and read back

A problem and its hidden tests are written by `create` and `create_test`, and read by `find_any` and by
`find_for_judging`. `stored_problem_iff` says for which of them both read what was written: a text that
contains U+0000 is stored whole and read back up to there, and a text in a list is what the JSON library makes
of it.

## Contents
- **Texts.** What a C string keeps (`cStr_eq_iff`), and what the JSON library makes of the lists
  (`JsonText.ReadsLists`).
- **Writing and reading.** Each call is run once, where nothing fails (`create_run`, `createTests_run`,
  `find_run`), and the calls are put together (`storeAndRead_run`).
- **What is read is what was written** exactly if the problem is `Storable` (`readsBack_iff`).
-/

namespace AlgorithmTrainer

open Interaction Relational

/-! ## Texts -/

/-- A text is what a C string keeps of it exactly if it does not contain U+0000. -/
theorem cStr_eq_iff {s : String} : cStr s = s ↔ '\x00' ∉ s.toList := by
  constructor
  · intro h hmem
    rw [← h, cStr, String.toList_ofList] at hmem
    simpa using List.mem_takeWhile_imp hmem
  · exact cStr_of_not_mem

/-- The JSON library reads this back of a value that it has written, and writes no U+0000. -/
structure JsonText.ReadsAs (J : JsonText) (value read : Json) : Prop where
  parsed : J.parseFromStream (J.writeString value) = some read
  plain : '\x00' ∉ (J.writeString value).toList

/-- The texts in the lists of a problem. -/
def Problem.listTexts (problem : Problem) : List String :=
  problem.tags ++ problem.languages ++ problem.examples.flatMap fun e => [e.input, e.output]

/-- An example whose texts have become these. -/
def ProblemExample.kept (kept : String → String) (e : ProblemExample) : ProblemExample :=
  ⟨kept e.input, kept e.output⟩

/-- The JSON library writes the lists of a problem, and reads them back with what it makes of their texts. It
    keeps a text that is UTF-8. The parser of a body lets others through (a lone surrogate, written `\udc00`,
    is one), and of these the writer replaces what is not UTF-8 by U+FFFD. A `String` is a text of the program
    here, be it UTF-8 or not. -/
structure JsonText.ReadsLists (J : JsonText) (kept : String → String) (problem : Problem) : Prop where
  tags : J.ReadsAs (Json.strings problem.tags) (Json.strings (problem.tags.map kept))
  languages : J.ReadsAs (Json.strings problem.languages) (Json.strings (problem.languages.map kept))
  examples : J.ReadsAs (.array (problem.examples.map exampleToJson))
    (.array ((problem.examples.map (·.kept kept)).map exampleToJson))

namespace SQLiteProblemRepository

variable (J : JsonText) (kept : String → String)

/-! ## Writing and reading -/

/-- `create_test` for each of these tests, until one fails. -/
def createTests (problemId : String) :
    List ProblemTestCase → SqliteProblemCall (Except ProblemRepositoryError Unit)
  | [] => pure (.ok ())
  | test :: tests => do
      let created ← createTest problemId test
      match created with
      | .error error => pure (.error error)
      | .ok _ => createTests problemId tests

/-- Create a problem and its tests, and read both views of it. -/
def storeAndRead (problem : Problem) (tests : List ProblemTestCase) :
    SqliteProblemCall (Except ProblemRepositoryError (Option Problem × Option Problem)) := do
  let created ← create J problem
  match created with
  | .error error => pure (.error error)
  | .ok _ => do
      let stored ← createTests problem.id tests
      match stored with
      | .error error => pure (.error error)
      | .ok () => do
          let found ← findAny J problem.id
          match found with
          | .error error => pure (.error error)
          | .ok found => do
              let judged ← findForJudging J problem.id
              pure (judged.map fun judged => (found, judged))

/-- The rows of tests that are created one after the other. -/
def testRows (problemId : String) : Int → List ProblemTestCase → List SqliteProblemTestRow
  | _, [] => []
  | id, test :: tests =>
      ⟨id, problemId, test.input, test.expectedOutput, test.position, test.enabled, 1⟩
        :: testRows problemId (id + 1) tests

/-- What is read back of a problem, without its hidden tests. -/
def readBack (problem : Problem) : Problem :=
  { problem with
    title := cStr problem.title, description := cStr problem.description,
    inputFormat := cStr problem.inputFormat, outputFormat := cStr problem.outputFormat,
    tags := problem.tags.map kept, languages := problem.languages.map kept,
    examples := problem.examples.map (·.kept kept), revision := 1, hiddenTests := [] }

section runs
variable {J} {kept} {strftime : Timestamp → String} {w : World SqliteChoice SqliteProblemState}

/-- A statement that breaks no constraint, where nothing fails. -/
theorem run_step {α : Type} (s : SqliteProblemStatement) (f : Stepped s.Row → SqliteProblemCall α)
    {rows : List s.Row} {db : SqliteCatalog} (hcalm : ∀ n, (w.choices n).fault = none)
    (hexec : s.exec (strftime w.state.clock) w.state.db = some (rows, db)) :
    (step s >>= f).run (serveSqliteProblems strftime) w
      = (f (.rows rows)).run (serveSqliteProblems strftime) (w.advance { w.state with db := db }) := by
  have hanswer : serveSqliteProblems strftime s (w.choices 0) w.state
      = (.rows rows, { w.state with db := db }) := by
    simp only [serveSqliteProblems, hcalm 0, hexec]
  show (f (serveSqliteProblems strftime s (w.choices 0) w.state).1).run (serveSqliteProblems strftime)
    (w.advance (serveSqliteProblems strftime s (w.choices 0) w.state).2) = _
  rw [hanswer]

/-- The row of a problem that is created. -/
def rowOf (J : JsonText) (problem : Problem) (now : String) : SqliteProblemRow where
  id := problem.id
  title := problem.title
  description := problem.description
  inputFormat := problem.inputFormat
  outputFormat := problem.outputFormat
  difficulty := difficultyName problem.difficulty
  tagsJson := J.writeString (Json.strings problem.tags)
  languagesJson := J.writeString (Json.strings problem.languages)
  examplesJson := J.writeString (.array (problem.examples.map exampleToJson))
  enabled := problem.enabled
  createdAt := now
  updatedAt := now
  revision := 1

/-- A problem under a new id is created. -/
theorem create_run (problem : Problem) (hcalm : ∀ n, (w.choices n).fault = none)
    (hnew : ∀ r ∈ w.state.db.problems, r.id ≠ problem.id) :
    ∃ w', (create J problem).run (serveSqliteProblems strftime) w = (.ok (.ok problem), w') ∧
      (∀ n, (w'.choices n).fault = none) ∧
      w'.state.db.problems.rows
        = w.state.db.problems.rows ++ [rowOf J problem (strftime w.state.clock)] ∧
      w'.state.db.problemTests = w.state.db.problemTests := by
  have hcheck : (rowOf J problem (strftime w.state.clock)).check = true := by
    cases hdifficulty : problem.difficulty <;>
      simp [SqliteProblemRow.check, rowOf, hdifficulty, difficultyName]
  have hcount : w.state.db.problems.count (·.id == problem.id) = 0 :=
    Table.count_eq_zero.mpr fun r hr => beq_eq_false_iff_ne.mpr (hnew r hr)
  obtain ⟨db, hdb, hproblems, htests⟩ : ∃ db, w.state.db.insertProblem
      (rowOf J problem (strftime w.state.clock)) = some db ∧
      db.problems = w.state.db.problems.insert (rowOf J problem (strftime w.state.clock)) ∧
      db.problemTests = w.state.db.problemTests := by
    unfold SqliteCatalog.insertProblem
    rw [if_pos ⟨hcheck, hcount⟩]
    exact ⟨_, rfl, rfl, rfl⟩
  have hexec : (SqliteProblemStatement.insertProblem (parameters J problem)).exec (strftime w.state.clock)
      w.state.db = some ([], db) := by
    show (w.state.db.insertProblem (rowOf J problem (strftime w.state.clock))).map _ = _
    rw [hdb]
    rfl
  refine ⟨w.advance { w.state with db := db }, ?_, fun n => hcalm (n + 1), ?_, htests⟩
  · exact run_step _ _ hcalm hexec
  · show db.problems.rows = _
    rw [hproblems, Table.rows_insert]
    exact hnew

/-- Tests at new positions of a problem are created, under the next ids. -/
theorem createTests_run {problemId : String} {tests : List ProblemTestCase}
    (hcalm : ∀ n, (w.choices n).fault = none)
    (hproblem : ∃ r ∈ w.state.db.problems, r.id = problemId)
    (hpositions : (tests.map (·.position)).Nodup)
    (hfree : ∀ test ∈ tests, ∀ t ∈ w.state.db.problemTests, t.problemId = problemId →
      t.position ≠ test.position) :
    ∃ w', (createTests problemId tests).run (serveSqliteProblems strftime) w = (.ok (.ok ()), w') ∧
      (∀ n, (w'.choices n).fault = none) ∧ w'.state.db.problems = w.state.db.problems ∧
      w'.state.db.problemTests.rows
        = w.state.db.problemTests.rows ++ testRows problemId w.state.db.nextTest tests := by
  induction tests generalizing w with
  | nil => exact ⟨w, rfl, hcalm, rfl, by simp [testRows]⟩
  | cons test tests ih =>
      have hthere : w.state.db.problems.count (·.id == problemId) ≠ 0 := by
        intro hzero
        obtain ⟨r, hr, hid⟩ := hproblem
        have hne := Table.count_eq_zero.mp hzero r hr
        exact beq_eq_false_iff_ne.mp hne hid
      have hunique : w.state.db.problemTests.count
          (fun t => t.problemId == problemId && t.position == test.position) = 0 := by
        refine Table.count_eq_zero.mpr fun t ht => ?_
        by_cases hid : t.problemId = problemId
        · simp [hfree test List.mem_cons_self t ht hid]
        · simp [hid]
      obtain ⟨db, hdb, hproblems, htests, hnext⟩ : ∃ db, w.state.db.insertTest problemId test.input
          test.expectedOutput test.position test.enabled = some db ∧
          db.problems = w.state.db.problems ∧
          db.problemTests = w.state.db.problemTests.insert ⟨w.state.db.nextTest, problemId, test.input,
            test.expectedOutput, test.position, test.enabled, 1⟩ ∧
          db.nextTest = w.state.db.nextTest + 1 := by
        unfold SqliteCatalog.insertTest
        rw [dif_pos ⟨hthere, hunique⟩]
        exact ⟨_, rfl, rfl, rfl, rfl⟩
      have hrows : db.problemTests.rows = w.state.db.problemTests.rows ++ [⟨w.state.db.nextTest, problemId,
          test.input, test.expectedOutput, test.position, test.enabled, 1⟩] := by
        rw [htests, Table.rows_insert]
        intro t ht
        have hdrawn := w.state.db.drawn t ht
        show t.id ≠ w.state.db.nextTest
        omega
      have hexec : (SqliteProblemStatement.insertTest problemId test.input test.expectedOutput
          test.position test.enabled).exec (strftime w.state.clock) w.state.db
          = some ([w.state.db.nextTest], db) := by
        show (w.state.db.insertTest _ _ _ _ _).map _ = _
        rw [hdb]
        rfl
      obtain ⟨hposition, hpositions⟩ := List.nodup_cons.mp hpositions
      obtain ⟨w', hrun, hcalm', hproblems', hrows'⟩ := @ih (w.advance { w.state with db := db })
        (fun n => hcalm (n + 1)) (hproblems ▸ hproblem) hpositions (by
          intro later hlater t ht hid
          have hmem : t ∈ db.problemTests.rows := ht
          rw [hrows, List.mem_append, List.mem_singleton] at hmem
          rcases hmem with hold | rfl
          · exact hfree later (List.mem_cons_of_mem test hlater) t hold hid
          · exact fun heq => hposition (List.mem_map.mpr ⟨later, hlater, heq.symm⟩))
      refine ⟨w', ?_, hcalm', hproblems'.trans hproblems, ?_⟩
      · have hcreated : (createTest problemId test).run (serveSqliteProblems strftime) w
            = (.ok (.ok { test with id := w.state.db.nextTest }), w.advance { w.state with db := db }) :=
          run_step _ _ hcalm hexec
        rw [← hrun, createTests, Program.run_bind, hcreated]
      · rw [hrows']
        show db.problemTests.rows ++ testRows problemId db.nextTest tests = _
        rw [hrows, hnext, List.append_assoc]
        rfl

/-- What is read of the row of a problem whose lists the JSON library reads back. -/
theorem problemOfRow_rowOf {problem : Problem} (now : String) (hid : validProblemSlug problem.id = true)
    (hlists : J.ReadsLists kept problem) :
    (problemOfRow J (rowOf J problem now)).run = .ok (.ok (readBack kept problem)) := by
  have hdifficulty : parseDifficulty (columnText (difficultyName problem.difficulty))
      = some problem.difficulty := by
    cases problem.difficulty <;> decide
  -- A JSON column is written without U+0000, so that it is read back whole.
  have hcolumn : ∀ {value read : Json}, J.ReadsAs value read →
      J.parseFromStream (columnText (J.writeString value)) = some read := by
    intro value read hvalue
    unfold columnText
    rw [cStr_of_not_mem hvalue.plain, hvalue.parsed]
  have htexts : ∀ texts : List String, (texts.map Json.string).mapM Json.asString
      = (.ok texts : Except Exception (List String)) := by
    intro texts
    induction texts with
    | nil => rfl
    | cons text texts ih =>
        rw [List.map_cons, List.mapM_cons, ih]
        rfl
  -- The examples are read one after the other.
  have hread : ∀ examples : List ProblemExample,
      ((examples.map exampleToJson).mapM PostgreSQLProblemRepository.readExample).run
        = .ok (.ok examples) := by
    intro examples
    induction examples with
    | nil => rfl
    | cons e examples ih =>
        rw [List.map_cons, List.mapM_cons]
        show ((examples.map exampleToJson).mapM PostgreSQLProblemRepository.readExample >>= _).run = _
        rw [ExceptT.run_bind, ih]
        rfl
  unfold problemOfRow
  simp only [rowOf, hdifficulty, hcolumn hlists.tags, hcolumn hlists.languages, hcolumn hlists.examples]
  simp only [Json.strings]
  rw [htexts, htexts]
  show (((problem.examples.map (·.kept kept)).map exampleToJson).mapM
    PostgreSQLProblemRepository.readExample >>= _).run = _
  rw [ExceptT.run_bind, hread]
  have hcolumnId : columnText problem.id = problem.id := validProblemSlug.cStr hid
  simp only [hcolumnId]
  rfl

/-- The hidden tests that are read with a problem. -/
def testsOf (db : SqliteCatalog) (problemId : String) (includeDisabledTests : Bool) :
    List ProblemTestCase :=
  (orderBy SqliteProblemTestRow.inOrder (db.problemTests.select fun t =>
    t.problemId == problemId && (includeDisabledTests || t.enabled))).map testOfRow

/-- A problem that is there is found, with its hidden tests. -/
theorem find_run {name id : String} {includeDisabledTests : Bool} {row : SqliteProblemRow}
    {problem : Problem} (hcalm : ∀ n, (w.choices n).fault = none)
    (hrow : w.state.db.problems.select (·.id == id) = [row])
    (hread : (problemOfRow J row).run = .ok (.ok problem)) :
    ∃ w', (find J name id includeDisabledTests).run (serveSqliteProblems strftime) w
        = (.ok (.ok (some { problem with
          hiddenTests := testsOf w.state.db problem.id includeDisabledTests })), w') ∧
      (∀ n, (w'.choices n).fault = none) ∧ w'.state = w.state := by
  have hselect : (SqliteProblemStatement.selectProblem id).exec (strftime w.state.clock) w.state.db
      = some ([row], w.state.db) := by
    simp only [SqliteProblemStatement.exec, hrow]
  let w₁ := w.advance w.state
  have htests : (SqliteProblemStatement.selectTests problem.id !includeDisabledTests).exec
      (strftime w₁.state.clock) w₁.state.db
      = some (orderBy SqliteProblemTestRow.inOrder (w.state.db.problemTests.select fun t =>
        t.problemId == problem.id && (includeDisabledTests || t.enabled)), w.state.db) := by
    simp only [SqliteProblemStatement.exec, Bool.not_not]
    rfl
  refine ⟨w₁.advance w.state, ?_, fun n => hcalm (n + 2), rfl⟩
  unfold find
  rw [run_step (.selectProblem id) _ hcalm hselect]
  have hproblem : (readProblem J row includeDisabledTests).run (serveSqliteProblems strftime) w₁
      = (.ok (.ok { problem with
        hiddenTests := testsOf w.state.db problem.id includeDisabledTests }), w₁.advance w.state) := by
    unfold readProblem
    rw [hread]
    exact run_step (.selectTests problem.id !includeDisabledTests) _ (fun n => hcalm (n + 1)) htests
  show (readProblem J row includeDisabledTests >>= _).run _ w₁ = _
  rw [Program.run_bind, hproblem]
  rfl

/-- The tests of a problem that were created one after the other have its id. -/
theorem mem_testRows {problemId : String} {id : Int} {tests : List ProblemTestCase}
    {t : SqliteProblemTestRow} (h : t ∈ testRows problemId id tests) : t.problemId = problemId := by
  induction tests generalizing id with
  | nil => cases h
  | cons test tests ih =>
      rcases List.mem_cons.mp h with rfl | h
      · rfl
      · exact ih h

/-- **What is read back** of a problem under a new id, and of tests at different positions. -/
theorem storeAndRead_run {problem : Problem} {tests : List ProblemTestCase}
    (hid : validProblemSlug problem.id = true) (hlists : J.ReadsLists kept problem)
    (hcalm : ∀ n, (w.choices n).fault = none)
    (hnew : ∀ r ∈ w.state.db.problems, r.id ≠ problem.id)
    (hpositions : (tests.map (·.position)).Nodup) :
    ∃ id, ((storeAndRead J problem tests).run (serveSqliteProblems strftime) w).1 = .ok (.ok
      (some { readBack kept problem with
        hiddenTests := (orderBy SqliteProblemTestRow.inOrder (testRows problem.id id tests)).map
          testOfRow },
       some { readBack kept problem with
        hiddenTests := (orderBy SqliteProblemTestRow.inOrder
          ((testRows problem.id id tests).filter (·.enabled))).map testOfRow })) := by
  obtain ⟨w₁, hcreate, hcalm₁, hproblems₁, htests₁⟩ :=
    @create_run J strftime w problem hcalm hnew
  let row := rowOf J problem (strftime w.state.clock)
  have hrow : row ∈ w₁.state.db.problems := by
    show row ∈ w₁.state.db.problems.rows
    rw [hproblems₁]
    exact List.mem_append_right _ List.mem_cons_self
  -- no test of an earlier problem has the new id
  have hold : ∀ t ∈ w₁.state.db.problemTests, t.problemId ≠ problem.id := by
    intro t ht heq
    rw [htests₁] at ht
    obtain ⟨r, hr, hrid⟩ := w.state.db.references t ht
    exact hnew r hr (hrid.trans heq)
  obtain ⟨w₂, hstore, hcalm₂, hproblems₂, htests₂⟩ := @createTests_run strftime w₁ problem.id tests hcalm₁
    ⟨row, hrow, rfl⟩ hpositions fun test _ t ht heq => absurd heq (hold t ht)
  have hselect : w₂.state.db.problems.select (·.id == problem.id) = [row] := by
    rw [hproblems₂]
    refine Table.select_eq_singleton hrow (beq_iff_eq.mpr rfl) fun x _ hx => ?_
    exact beq_iff_eq.mp hx
  have hread := problemOfRow_rowOf (strftime w.state.clock) hid hlists
  obtain ⟨w₃, hfound, hcalm₃, hstate₃⟩ := @find_run J strftime w₂ "admin problem" problem.id true row _
    hcalm₂ hselect hread
  obtain ⟨w₄, hjudged, -, -⟩ := @find_run J strftime w₃ "judge problem" problem.id false row _ hcalm₃
    (hstate₃ ▸ hselect) hread
  have htestsOf : ∀ includeDisabledTests, testsOf w₂.state.db problem.id includeDisabledTests
      = (orderBy SqliteProblemTestRow.inOrder ((testRows problem.id w₁.state.db.nextTest tests).filter
        fun t => includeDisabledTests || t.enabled)).map testOfRow := by
    intro includeDisabledTests
    have hnone : w₁.state.db.problemTests.rows.filter (fun t =>
        t.problemId == problem.id && (includeDisabledTests || t.enabled)) = [] := by
      refine List.filter_eq_nil_iff.mpr fun t ht => ?_
      simp [hold t ht]
    have hall : (testRows problem.id w₁.state.db.nextTest tests).filter (fun t =>
        t.problemId == problem.id && (includeDisabledTests || t.enabled))
        = (testRows problem.id w₁.state.db.nextTest tests).filter
          fun t => includeDisabledTests || t.enabled := by
      refine List.filter_congr fun t ht => ?_
      simp [mem_testRows ht]
    unfold testsOf Table.select
    rw [htests₂, List.filter_append, hnone, List.nil_append, hall]
  have hall : testsOf w₂.state.db problem.id true = (orderBy SqliteProblemTestRow.inOrder
      (testRows problem.id w₁.state.db.nextTest tests)).map testOfRow := by
    rw [htestsOf]
    simp
  have henabled : testsOf w₃.state.db problem.id false = (orderBy SqliteProblemTestRow.inOrder
      ((testRows problem.id w₁.state.db.nextTest tests).filter (·.enabled))).map testOfRow := by
    rw [hstate₃, htestsOf]
    simp
  refine ⟨w₁.state.db.nextTest, ?_⟩
  have hreadId : (readBack kept problem).id = problem.id := rfl
  rw [hreadId, hall] at hfound
  rw [hreadId, henabled] at hjudged
  have hfindAny : (findAny J problem.id).run (serveSqliteProblems strftime) w₂ = _ := hfound
  have hfindForJudging : (findForJudging J problem.id).run (serveSqliteProblems strftime) w₃ = _ := hjudged
  unfold storeAndRead
  rw [Program.run_bind, hcreate]
  dsimp only
  rw [Program.run_bind, hstore]
  dsimp only
  rw [Program.run_bind, hfindAny]
  dsimp only
  rw [Program.run_bind, hfindForJudging]
  rfl

end runs

/-! ## What is read is what was written -/

/-- What an administrator writes of a hidden test. -/
def content (test : ProblemTestCase) : String × String × Int × Bool :=
  (test.input, test.expectedOutput, test.position, test.enabled)

/-- `find_any` has found the problem, with exactly these tests in the order of their positions, and
    `find_for_judging` the same with those that are enabled. -/
structure ReadsBack (problem : Problem) (tests : List ProblemTestCase) (found judged : Problem) : Prop where
  metadata : { found with hiddenTests := [] } = { problem with hiddenTests := [] }
  tests : (found.hiddenTests.map content).Perm (tests.map content)
  ordered : found.hiddenTests.Pairwise fun a b => a.position < b.position
  enabledOnly : judged = { found with hiddenTests := found.hiddenTests.filter (·.enabled) }

/-- No text that is stored as it is contains U+0000, the JSON library keeps the texts of the lists, and the
    problem is at its first revision. -/
structure Storable (problem : Problem) (tests : List ProblemTestCase) : Prop where
  title : '\x00' ∉ problem.title.toList
  description : '\x00' ∉ problem.description.toList
  inputFormat : '\x00' ∉ problem.inputFormat.toList
  outputFormat : '\x00' ∉ problem.outputFormat.toList
  tests : ∀ test ∈ tests, '\x00' ∉ test.input.toList ∧ '\x00' ∉ test.expectedOutput.toList
  lists : ∀ text ∈ problem.listTexts, kept text = text
  revision : problem.revision = 1

variable {kept}

/-- The lists come back as they were exactly if the library keeps each of their texts. -/
theorem lists_kept_iff (problem : Problem) : (problem.tags.map kept = problem.tags ∧
      problem.languages.map kept = problem.languages ∧
      problem.examples.map (·.kept kept) = problem.examples) ↔
    ∀ text ∈ problem.listTexts, kept text = text := by
  have htexts : ∀ texts : List String, texts.map kept = texts ↔ ∀ text ∈ texts, kept text = text := by
    intro texts
    rw [← List.map_id texts, List.map_map, List.map_inj_left]
    simp
  have hexamples : problem.examples.map (·.kept kept) = problem.examples ↔
      ∀ e ∈ problem.examples, kept e.input = e.input ∧ kept e.output = e.output := by
    conv_lhs => rhs; rw [← List.map_id problem.examples]
    rw [List.map_inj_left]
    refine forall₂_congr fun e _ => ?_
    rw [id_eq, ProblemExample.kept, ProblemExample.mk.injEq]
  rw [htexts, htexts, hexamples]
  simp only [Problem.listTexts, List.mem_append, List.mem_flatMap, List.mem_cons, List.not_mem_nil, or_false]
  constructor
  · rintro ⟨htags, hlanguages, he⟩ text ((h | h) | ⟨e, hmem, rfl | rfl⟩)
    · exact htags text h
    · exact hlanguages text h
    · exact (he e hmem).1
    · exact (he e hmem).2
  · intro h
    refine ⟨fun text ht => h text (Or.inl (Or.inl ht)), fun text ht => h text (Or.inl (Or.inr ht)),
      fun e he => ⟨h _ (Or.inr ⟨e, he, Or.inl rfl⟩), h _ (Or.inr ⟨e, he, Or.inr rfl⟩)⟩⟩

section rows
variable {problemId : String} {id : Int} {tests : List ProblemTestCase} {t : SqliteProblemTestRow}

theorem inOrder_total (a b : SqliteProblemTestRow) : a.inOrder b = true ∨ b.inOrder a = true := by
  simp only [SqliteProblemTestRow.inOrder, Bool.or_eq_true, Bool.and_eq_true, decide_eq_true_eq,
    beq_iff_eq]
  omega

theorem inOrder_trans (a b c : SqliteProblemTestRow) (hab : a.inOrder b = true)
    (hbc : b.inOrder c = true) : a.inOrder c = true := by
  simp only [SqliteProblemTestRow.inOrder, Bool.or_eq_true, Bool.and_eq_true, decide_eq_true_eq,
    beq_iff_eq] at hab hbc ⊢
  omega

/-- The rows have the positions of the tests. -/
theorem positions_testRows (problemId : String) (id : Int) (tests : List ProblemTestCase) :
    (testRows problemId id tests).map (·.position) = tests.map (·.position) := by
  induction tests generalizing id with
  | nil => rfl
  | cons test tests ih => simp [testRows, ih]

/-- A row is that of one of the tests. -/
theorem test_of_mem_testRows (h : t ∈ testRows problemId id tests) :
    ∃ test ∈ tests, t.input = test.input ∧ t.expectedOutput = test.expectedOutput ∧
      t.position = test.position := by
  induction tests generalizing id with
  | nil => cases h
  | cons test tests ih =>
      rcases List.mem_cons.mp h with rfl | h
      · exact ⟨test, List.mem_cons_self, rfl, rfl, rfl⟩
      · obtain ⟨test', htest', hsame⟩ := ih h
        exact ⟨test', List.mem_cons_of_mem test htest', hsame⟩

/-- Of tests without U+0000, the rows are read back as they were written. -/
theorem content_testRows (hplain : ∀ test ∈ tests,
      '\x00' ∉ test.input.toList ∧ '\x00' ∉ test.expectedOutput.toList) :
    ((testRows problemId id tests).map testOfRow).map content = tests.map content := by
  induction tests generalizing id with
  | nil => rfl
  | cons test tests ih =>
      obtain ⟨hinput, houtput⟩ := hplain test List.mem_cons_self
      rw [testRows, List.map_cons, List.map_cons, List.map_cons,
        ih fun later hlater => hplain later (List.mem_cons_of_mem test hlater)]
      have hcontent : content (testOfRow ⟨id, problemId, test.input, test.expectedOutput, test.position,
          test.enabled, 1⟩) = content test := by
        simp only [content, testOfRow, columnText, cStr_of_not_mem hinput, cStr_of_not_mem houtput]
      rw [hcontent]

/-- Ordered rows at different positions are in increasing order of these. -/
theorem ordered_testRows (hpositions : (tests.map (·.position)).Nodup) :
    (orderBy SqliteProblemTestRow.inOrder (testRows problemId id tests)).Pairwise
      fun a b => a.position < b.position := by
  have hsorted := pairwise_orderBy inOrder_total inOrder_trans (testRows problemId id tests)
  have hperm : ((orderBy SqliteProblemTestRow.inOrder (testRows problemId id tests)).map
      (·.position)).Perm (tests.map (·.position)) := by
    rw [← positions_testRows problemId id tests]
    exact (List.perm_insertionSort _ _).map _
  have hdistinct := List.pairwise_map.mp (hperm.nodup_iff.mpr hpositions)
  refine hsorted.imp₂ (fun a b hab hne => ?_) hdistinct
  simp only [SqliteProblemTestRow.inOrder, Bool.or_eq_true, Bool.and_eq_true, decide_eq_true_eq,
    beq_iff_eq] at hab
  omega

/-- Leaving out the disabled rows does not change the order of the others. -/
theorem filter_ordered (hpositions : (tests.map (·.position)).Nodup) :
    orderBy SqliteProblemTestRow.inOrder ((testRows problemId id tests).filter (·.enabled))
      = (orderBy SqliteProblemTestRow.inOrder (testRows problemId id tests)).filter (·.enabled) := by
  refine (filter_orderBy inOrder_total inOrder_trans (fun a ha b hb hab hba => ?_) _).symm
  have hnodup : ((testRows problemId id tests).map (·.position)).Nodup := by
    rw [positions_testRows]
    exact hpositions
  have hposition : a.position = b.position := by
    simp only [SqliteProblemTestRow.inOrder, Bool.or_eq_true, Bool.and_eq_true, decide_eq_true_eq,
      beq_iff_eq] at hab hba
    omega
  exact List.inj_on_of_nodup_map hnodup ha hb hposition

end rows

/-- **What was written is read back**, of tests at different positions, exactly if it is storable. -/
theorem readsBack_iff {problem : Problem} {tests : List ProblemTestCase} {id : Int}
    (hpositions : (tests.map (·.position)).Nodup) :
    ReadsBack problem tests
      { readBack kept problem with hiddenTests := (orderBy SqliteProblemTestRow.inOrder
          (testRows problem.id id tests)).map testOfRow }
      { readBack kept problem with hiddenTests := (orderBy SqliteProblemTestRow.inOrder
          ((testRows problem.id id tests).filter (·.enabled))).map testOfRow } ↔
    Storable kept problem tests := by
  constructor
  · intro h
    have hfound := h.metadata
    have htitle : cStr problem.title = problem.title := congrArg Problem.title hfound
    have hdescription : cStr problem.description = problem.description :=
      congrArg Problem.description hfound
    have hinput : cStr problem.inputFormat = problem.inputFormat := congrArg Problem.inputFormat hfound
    have houtput : cStr problem.outputFormat = problem.outputFormat := congrArg Problem.outputFormat hfound
    have hrevision : 1 = problem.revision := congrArg Problem.revision hfound
    have hlists := (lists_kept_iff problem).mp ⟨congrArg Problem.tags hfound,
      congrArg Problem.languages hfound, congrArg Problem.examples hfound⟩
    refine ⟨cStr_eq_iff.mp htitle, cStr_eq_iff.mp hdescription, cStr_eq_iff.mp hinput,
      cStr_eq_iff.mp houtput, fun test htest => ?_, hlists, hrevision.symm⟩
    -- the row that reads as this test is its own, since no other is at its position
    obtain ⟨read, hread, hcontent⟩ := List.mem_map.mp
      (h.tests.mem_iff.mpr (List.mem_map.mpr ⟨test, htest, rfl⟩))
    obtain ⟨row, hrow, rfl⟩ := List.mem_map.mp hread
    obtain ⟨written, hwritten, hin, hout, hposition⟩ := test_of_mem_testRows (mem_orderBy.mp hrow)
    simp only [content, testOfRow, columnText, Prod.mk.injEq] at hcontent
    obtain ⟨hreadIn, hreadOut, hreadPosition, -⟩ := hcontent
    have heq : written = test :=
      List.inj_on_of_nodup_map hpositions hwritten htest (hposition.symm.trans hreadPosition)
    rw [hin, heq] at hreadIn
    rw [hout, heq] at hreadOut
    exact ⟨cStr_eq_iff.mp hreadIn, cStr_eq_iff.mp hreadOut⟩
  · intro h
    refine ⟨?_, ?_, ?_, ?_⟩
    · obtain ⟨htags, hlanguages, hexamples⟩ := (lists_kept_iff problem).mpr h.lists
      simp only [readBack, cStr_of_not_mem h.title, cStr_of_not_mem h.description,
        cStr_of_not_mem h.inputFormat, cStr_of_not_mem h.outputFormat, htags, hlanguages, hexamples,
        ← h.revision]
    · rw [← @content_testRows problem.id id tests h.tests]
      exact ((List.perm_insertionSort _ _).map testOfRow).map content
    · exact List.pairwise_map.mpr (ordered_testRows hpositions)
    · rw [filter_ordered hpositions, List.filter_map]
      rfl

/-- **Storing a problem and reading it back.** A problem that was accepted of a body, under an id that is new,
    and hidden tests at different positions are read back as they were written, where nothing fails, exactly
    if no text of them that is stored as it is contains U+0000, the JSON library keeps the texts of the lists,
    and the problem is at its first revision, as one that is created is. -/
theorem stored_problem_iff {J : JsonText} {kept : String → String} {json : Json}
    {pathId : Option String} {problem : Problem} {tests : List ProblemTestCase} {strftime : Timestamp → String}
    {w : World SqliteChoice SqliteProblemState}
    (hparsed : (parseAdminProblem json pathId).run = .ok (.ok problem))
    (hlists : J.ReadsLists kept problem) (hcalm : ∀ n, (w.choices n).fault = none)
    (hnew : ∀ r ∈ w.state.db.problems, r.id ≠ problem.id)
    (hpositions : (tests.map (·.position)).Nodup) :
    (∃ found judged, ((storeAndRead J problem tests).run (serveSqliteProblems strftime) w).1
      = .ok (.ok (some found, some judged)) ∧ ReadsBack problem tests found judged) ↔
    Storable kept problem tests := by
  obtain ⟨id, hrun⟩ := @storeAndRead_run J kept strftime w problem tests (slug_of_parsed hparsed) hlists
    hcalm hnew hpositions
  rw [← @readsBack_iff kept problem tests id hpositions, hrun]
  constructor
  · rintro ⟨found, judged, hfound, h⟩
    cases hfound
    exact h
  · intro h
    exact ⟨_, _, rfl, h⟩

/-! ### A title with U+0000 -/

/-- What the JSON library makes of lists with one text, and of a list with one example. -/
def shortLists : JsonText where
  writeString
    | .array [.string text] => "[\"" ++ text ++ "\"]"
    | _ => "[\x7b\"input\":\"1 2\",\"output\":\"3\"\x7d]"
  parseFromStream text :=
    if text = "[\"math\"]" then some (.array [.string "math"])
    else if text = "[\"python\"]" then some (.array [.string "python"])
    else some (.array [.object [("input", .string "1 2"), ("output", .string "3")]])

/-- A problem with this title, a tag, a language and an example. -/
def titled (title : String) : Json := .object [("id", .string "a-plus-b"), ("title", .string title),
  ("description", .string ""), ("inputFormat", .string ""), ("outputFormat", .string ""),
  ("difficulty", .string "Easy"), ("tags", .array [.string "math"]), ("languages", .array [.string "python"]),
  ("examples", .array [.object [("input", .string "1 2"), ("output", .string "3")]]), ("enabled", .bool true)]

/-- What is accepted of it. -/
def titledProblem (title : String) : Problem where
  id := "a-plus-b"
  title := title
  description := ""
  inputFormat := ""
  outputFormat := ""
  tags := ["math"]
  languages := ["python"]
  examples := [⟨"1 2", "3"⟩]

theorem shortLists_readsLists (title : String) : shortLists.ReadsLists id (titledProblem title) where
  tags := ⟨rfl, show '\x00' ∉ (shortLists.writeString (Json.strings ["math"])).toList by decide⟩
  languages := ⟨rfl, show '\x00' ∉ (shortLists.writeString (Json.strings ["python"])).toList by decide⟩
  examples := ⟨rfl, show '\x00' ∉ (shortLists.writeString (.array [exampleToJson ⟨"1 2", "3"⟩])).toList
    by decide⟩

/-- A migrated database, and nothing fails. -/
def calmProblems : World SqliteChoice SqliteProblemState := ⟨fun _ => .calm, ⟨.initial, 0⟩⟩

/-- **A title is cut.** `"A\u0000B"` is accepted and stored, and read back as `"A"`. -/
theorem title_cut : ¬ ∀ (J : JsonText) (json : Json) (pathId : Option String) (problem : Problem)
    (tests : List ProblemTestCase) (strftime : Timestamp → String)
    (w : World SqliteChoice SqliteProblemState),
    (parseAdminProblem json pathId).run = .ok (.ok problem) → pathId = none → J.ReadsLists id problem →
    (∀ n, (w.choices n).fault = none) → (∀ r ∈ w.state.db.problems, r.id ≠ problem.id) →
    (tests.map (·.position)).Nodup →
    ∃ found judged, ((storeAndRead J problem tests).run (serveSqliteProblems strftime) w).1
      = .ok (.ok (some found, some judged)) ∧ ReadsBack problem tests found judged := by
  intro hclaim
  obtain ⟨found, judged, hrun, hback⟩ := hclaim shortLists (titled "A\x00B") none
    (titledProblem "A\x00B") [] (fun _ => "1970-01-01T00:00:00.000Z") calmProblems rfl rfl
    (shortLists_readsLists _) (fun _ => rfl) (fun r hr => absurd hr (Table.not_mem_empty r)) List.nodup_nil
  cases hrun
  exact absurd (congrArg Problem.title hback.metadata) (by decide)

/-- Without U+0000 it is read back, with its lists. -/
theorem title_kept : ∃ found judged, ((storeAndRead shortLists (titledProblem "A + B")
      [⟨"2 2", "4", 0, 1, true, 1⟩, ⟨"1 1", "2", 0, 0, false, 1⟩]).run
      (serveSqliteProblems fun _ => "1970-01-01T00:00:00.000Z") calmProblems).1
      = .ok (.ok (some found, some judged)) ∧
    ReadsBack (titledProblem "A + B") [⟨"2 2", "4", 0, 1, true, 1⟩, ⟨"1 1", "2", 0, 0, false, 1⟩]
      found judged := by
  refine (@stored_problem_iff shortLists id (titled "A + B") none (titledProblem "A + B") _ _ calmProblems
    rfl (shortLists_readsLists _) (fun _ => rfl)
    (fun r hr => absurd hr (Table.not_mem_empty r)) (by decide)).mpr ?_
  exact ⟨by decide, by decide, by decide, by decide, by decide, fun _ _ => rfl, rfl⟩

end SQLiteProblemRepository
end AlgorithmTrainer
