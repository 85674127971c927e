import AlgorithmTrainer.Database.Queue
import AlgorithmTrainer.Lib.Pool
import AlgorithmTrainer.Problem.Repository

/-!
# `Problem.Catalog` — what calls do to `problems` and `problem_tests`

`ProblemEffect` and `TestEffect` say everything a call of the program can do to the two tables, together
with its reply; `serve_problems` and `serve_tests` are the inversions, so that no later proof unfolds the
statements. The second part is the system the catalog is edited in: any number of administrators, each a
thread that makes one repository call after the other.
-/

namespace AlgorithmTrainer

open Interaction Interaction.Pool Relational

/-! ## Problems -/

/-- The columns of a problem that `update` sets. -/
def ProblemRow.edited (p : ProblemParameters) (now : Timestamp) (r : ProblemRow) : ProblemRow :=
  { r with
    title := p.title, description := p.description, inputFormat := p.inputFormat,
    outputFormat := p.outputFormat, difficulty := p.difficulty, tagsJson := p.tagsJson,
    languagesJson := p.languagesJson, examplesJson := p.examplesJson, enabled := p.enabled,
    revision := r.revision + 1, updatedAt := now }

theorem ProblemRow.key_edited (p : ProblemParameters) (now : Timestamp) (r : ProblemRow) :
    Keyed.key (r.edited p now) = Keyed.key r := rfl

/-- The problem with this id, at this revision. -/
def problemAt (id : String) (revision : Int) (r : ProblemRow) : Bool :=
  r.id == id && r.revision == revision

theorem problemAt_iff {id : String} {revision : Int} {r : ProblemRow} :
    problemAt id revision r = true ↔ r.id = id ∧ r.revision = revision := by
  simp [problemAt]

/-- The problem that a call created, changed or removed. -/
def problemWritten : (q : BackendRequest) → q.Reply → Option String
  | .execute (.insertProblem p), .tuples (_ :: _) => some p.id
  | .execute (.updateProblem p _), .tuples (_ :: _) => some p.id
  | .execute (.deleteProblem id), .tuples (_ :: _) => some id
  | _, _ => none

/-- Everything a call can do to `problems`. -/
inductive ProblemEffect (db : Database) :
    (q : BackendRequest) → q.Reply → Table ProblemRow → Prop where
  | kept {q : BackendRequest} {r : q.Reply} (h : problemWritten q r = none) :
      ProblemEffect db q r db.problems
  | created {p : ProblemParameters} {row : ProblemRow} (hid : row.id = p.id)
      (hrevision : row.revision = 1) (hnew : ∀ x ∈ db.problems, x.id ≠ p.id) :
      ProblemEffect db (.execute (.insertProblem p)) (.tuples [row]) (db.problems.insert row)
  | updated {p : ProblemParameters} {revision : Int} {row : ProblemRow} (hrow : row ∈ db.problems)
      (hat : problemAt p.id revision row = true) :
      ProblemEffect db (.execute (.updateProblem p revision)) (.tuples [row.edited p db.clock])
        (db.problems.update (problemAt p.id revision) (ProblemRow.edited p db.clock)
          fun r _ => r.key_edited p db.clock)
  | removed {row : ProblemRow} (hrow : row ∈ db.problems) :
      ProblemEffect db (.execute (.deleteProblem row.id)) (.tuples [row.id])
        (db.problems.delete (·.id == row.id))

/-! ## Hidden tests -/

/-- The columns of a hidden test that `update_test` sets. -/
def ProblemTestRow.edited (input expectedOutput : String) (position : Int) (enabled : Bool)
    (r : ProblemTestRow) : ProblemTestRow :=
  { r with
    input := input, expectedOutput := expectedOutput, position := position, enabled := enabled,
    revision := r.revision + 1 }

theorem ProblemTestRow.key_edited (input expectedOutput : String) (position : Int) (enabled : Bool)
    (r : ProblemTestRow) :
    Keyed.key (r.edited input expectedOutput position enabled) = Keyed.key r := rfl

/-- The hidden test with this id, of this problem, at this revision. -/
def testAt (id : Int) (problemId : String) (revision : Int) (r : ProblemTestRow) : Bool :=
  r.id == id && r.problemId == problemId && r.revision == revision

theorem testAt_iff {id : Int} {problemId : String} {revision : Int} {r : ProblemTestRow} :
    testAt id problemId revision r = true ↔
      r.id = id ∧ r.problemId = problemId ∧ r.revision = revision := by
  simp [testAt, and_assoc]

/-- The hidden test with this id, of this problem. -/
def testOf (id : Int) (problemId : String) (r : ProblemTestRow) : Bool :=
  r.id == id && r.problemId == problemId

theorem testOf_iff {id : Int} {problemId : String} {r : ProblemTestRow} :
    testOf id problemId r = true ↔ r.id = id ∧ r.problemId = problemId := by
  simp [testOf]

/-- The hidden test that a call created, changed or removed. -/
def testWritten : (q : BackendRequest) → q.Reply → Option Int
  | .execute (.insertTest ..), .tuples (row :: _) => some row.id
  | .execute (.updateTest _ _ _ _ id _ _), .tuples (_ :: _) => some id
  | .execute (.deleteTest id _), .tuples (_ :: _) => some id
  | _, _ => none

/-- The hidden test that a call created. -/
def testCreated : (q : BackendRequest) → q.Reply → Option Int
  | .execute (.insertTest ..), .tuples (row :: _) => some row.id
  | _, _ => none

/-- Everything a call can do to `problem_tests`. -/
inductive TestEffect (db : Database) :
    (q : BackendRequest) → q.Reply → Table ProblemTestRow → Prop where
  | kept {q : BackendRequest} {r : q.Reply} (h : testWritten q r = none) :
      TestEffect db q r db.problemTests
  | created {problemId input expectedOutput : String} {position : Int} {enabled : Bool}
      {row : ProblemTestRow}
      (hrow : row = ⟨db.sequences.problemTests, problemId, input, expectedOutput, position, enabled,
        1⟩)
      (hnew : ∀ t ∈ db.problemTests, t.id ≠ row.id)
      (hfree : ∀ t ∈ db.problemTests, t.problemId = problemId → t.position ≠ position) :
      TestEffect db (.execute (.insertTest problemId input expectedOutput position enabled))
        (.tuples [row]) (db.problemTests.insert row)
  | updated {input expectedOutput problemId : String} {position id revision : Int} {enabled : Bool}
      {row : ProblemTestRow} (hrow : row ∈ db.problemTests)
      (hat : testAt id problemId revision row = true)
      (hfree : ∀ t ∈ db.problemTests, t.id ≠ id → t.problemId = problemId →
        t.position ≠ position) :
      TestEffect db
        (.execute (.updateTest input expectedOutput position enabled id problemId revision))
        (.tuples [row.edited input expectedOutput position enabled])
        (db.problemTests.update (testAt id problemId revision)
          (ProblemTestRow.edited input expectedOutput position enabled)
          fun r _ => r.key_edited input expectedOutput position enabled)
  | removed {row : ProblemTestRow} (hrow : row ∈ db.problemTests) :
      TestEffect db (.execute (.deleteTest row.id row.problemId)) (.tuples [row.id])
        (db.problemTests.delete (testOf row.id row.problemId))
  | cascaded {id : String} {r : Result String} :
      TestEffect db (.execute (.deleteProblem id)) r
        (db.problemTests.delete (·.problemId == id))

/-! ## What a call does -/

section calls
variable {P : Platform} {q : BackendRequest} {c : Choice} {db : Database}

/-- Whether a statement writes problems or hidden tests, or draws the id of a hidden test. -/
def Statement.setsCatalog : Statement → Bool
  | .insertProblem .. | .updateProblem .. | .deleteProblem .. | .insertTest .. | .updateTest ..
  | .deleteTest .. => true
  | _ => false

/-- The part of a database that the problem repository writes. -/
structure SameCatalog (db db' : Database) : Prop where
  problems : db'.problems = db.problems
  problemTests : db'.problemTests = db.problemTests
  nextTest : db'.sequences.problemTests = db.sequences.problemTests

theorem SameCatalog.refl (db : Database) : SameCatalog db db := ⟨rfl, rfl, rfl⟩

theorem exec_sameCatalog {s : Statement} (m : String) (hs : s.setsCatalog = false) :
    SameCatalog db (s.exec P m db).1 := by
  have hupdate : ∀ p f (hf : ∀ r, p r = true → (f r).id = r.id),
      SameCatalog db (db.updateSubmissions m p f hf).1 := by
    intro p f hf
    obtain ⟨t, ht⟩ := db.updateSubmissions_frame m p f hf
    rw [ht]
    exact ⟨rfl, rfl, rfl⟩
  cases s with
  | completeSubmission _ _ _ => exact hupdate _ _ _
  | failSubmission _ _ => exact hupdate _ _ _
  | recoverRunning => exact hupdate _ _ _
  | insertProblem _ | updateProblem _ _ | deleteProblem _ | insertTest _ _ _ _ _
  | updateTest _ _ _ _ _ _ _ | deleteTest _ _ => cases hs
  | insertUser _ _ | selectFiltered _ =>
      simp only [Statement.exec]
      split <;> exact ⟨rfl, rfl, rfl⟩
  | upsertAdmin _ _ | insertSession _ _ _ | insertAudit _ _ _ _ _ =>
      simp only [Statement.exec]
      split
      · exact ⟨rfl, rfl, rfl⟩
      · split
        · exact ⟨rfl, rfl, rfl⟩
        · first
            | exact ⟨rfl, rfl, rfl⟩
            | (split <;> exact ⟨rfl, rfl, rfl⟩)
  | _ => exact ⟨rfl, rfl, rfl⟩

/-- A locked statement draws ids of submissions and audit rows only. -/
theorem plan_nextTest (l : Int → Bool) (s : LockedStatement) :
    (s.plan l db).1.sequences.problemTests = db.sequences.problemTests := by
  cases s with
  | insertSubmission _ _ _ _ _ _ =>
      simp only [LockedStatement.plan]
      split <;> rfl
  | claimSubmission _ =>
      simp only [LockedStatement.plan]
      split
      · split <;> rfl
      · rfl
  | retrySubmission _ _ _ _ =>
      simp only [LockedStatement.plan]
      split
      · split <;> rfl
      · rfl

theorem serveLocked_sameCatalog (s : LockedStatement) : SameCatalog db (serveLocked s c db).2 := by
  have hplan : SameCatalog db (s.plan c.lockedRows db).1 := by
    refine ⟨?_, ?_, plan_nextTest c.lockedRows s⟩ <;> rw [plan_frame]
  rcases serveLocked_cases s c db with ⟨h, -⟩ | ⟨h, -⟩ | ⟨_, -, h, -⟩ | ⟨changes, rows, -, -, h⟩
  · rw [h]
    exact .refl db
  · rw [h]
    exact hplan
  · rw [h]
    exact hplan
  · rw [h]
    exact ⟨hplan.problems, hplan.problemTests, hplan.nextTest⟩

/-- A call that is no statement of the catalog leaves it as it is. -/
theorem serve_sameCatalog (hq : ∀ s, q = .execute s → s.setsCatalog = false) :
    SameCatalog db (serve P q c db).2 := by
  match q with
  | .randomToken | .passwordHash _ | .judge _ => exact .refl db
  | .executeLocked _ s => exact serveLocked_sameCatalog s
  | .execute s =>
      rw [serve_execute]
      rcases serveStatement_cases (P := P) s c db with ⟨-, hr⟩ | ⟨-, hr⟩
      · rw [hr]
        exact .refl db
      · rw [hr]
        exact exec_sameCatalog _ (hq s rfl)

theorem problemWritten_eq_none (hq : ∀ s, q = .execute s → s.setsCatalog = false) (r : q.Reply) :
    problemWritten q r = none := by
  unfold problemWritten
  split
  case h_4 => rfl
  all_goals cases hq _ rfl

theorem testWritten_eq_none (hq : ∀ s, q = .execute s → s.setsCatalog = false) (r : q.Reply) :
    testWritten q r = none := by
  unfold testWritten
  split
  case h_4 => rfl
  all_goals cases hq _ rfl

theorem problemWritten_failed (s : Statement) (state : SqlState) (m : String) :
    problemWritten (.execute s) (Result.failed state m) = none := by
  cases s <;> rfl

theorem testWritten_failed (s : Statement) (state : SqlState) (m : String) :
    testWritten (.execute s) (Result.failed state m) = none := by
  cases s <;> rfl

/-! ### Statements that write problems -/

theorem exec_insertProblem (m : String) (p : ProblemParameters) :
    ProblemEffect db (.execute (.insertProblem p)) ((Statement.insertProblem p).exec P m db).2
      ((Statement.insertProblem p).exec P m db).1.problems := by
  simp only [Statement.exec]
  split
  · exact .kept rfl
  · split
    · exact .kept rfl
    · split
      · exact .kept rfl
      · rename_i hfree
        refine .created rfl rfl fun x hx => ?_
        simpa using Table.count_eq_zero.mp (not_not.mp hfree) x hx

theorem ProblemEffect.ofUpdate (p : ProblemParameters) (revision : Int) :
    ProblemEffect db (.execute (.updateProblem p revision))
      (Result.tuples ((db.problems.select (problemAt p.id revision)).map
        (ProblemRow.edited p db.clock)))
      (db.problems.update (problemAt p.id revision) (ProblemRow.edited p db.clock)
        fun r _ => r.key_edited p db.clock) := by
  rcases Table.select_cases (t := db.problems) (p := problemAt p.id revision)
    fun r hr => (problemAt_iff.mp hr).1 with hnone | ⟨row, hrow, hat, hselect⟩
  · rw [Table.select_eq_nil.mpr hnone, Table.update_eq_self hnone]
    exact .kept rfl
  · rw [hselect]
    exact .updated hrow hat

theorem exec_updateProblem (m : String) (p : ProblemParameters) (revision : Int) :
    ProblemEffect db (.execute (.updateProblem p revision))
      ((Statement.updateProblem p revision).exec P m db).2
      ((Statement.updateProblem p revision).exec P m db).1.problems := by
  simp only [Statement.exec]
  split
  · exact .kept rfl
  · split
    · exact .ofUpdate p revision
    · exact .kept rfl

theorem exec_deleteProblem (m : String) (id : String) :
    ProblemEffect db (.execute (.deleteProblem id)) ((Statement.deleteProblem id).exec P m db).2
      ((Statement.deleteProblem id).exec P m db).1.problems := by
  simp only [Statement.exec]
  rcases Table.select_cases (t := db.problems) (p := (·.id == id)) (k := id)
    fun r hr => beq_iff_eq.mp hr with hnone | ⟨row, hrow, hid, hselect⟩
  · rw [Table.select_eq_nil.mpr hnone, Table.delete_eq_self hnone]
    exact .kept rfl
  · rw [hselect]
    obtain rfl := beq_iff_eq.mp hid
    exact .removed hrow

/-! ### Statements that write hidden tests -/

theorem exec_insertTest (m problemId input expectedOutput : String) (position : Int)
    (enabled : Bool) :
    TestEffect db (.execute (.insertTest problemId input expectedOutput position enabled))
      ((Statement.insertTest problemId input expectedOutput position enabled).exec P m db).2
      ((Statement.insertTest problemId input expectedOutput position enabled).exec
        P m db).1.problemTests := by
  simp only [Statement.exec]
  split
  · exact .kept rfl
  · rename_i hfree
    split
    · exact .kept rfl
    · have hnone := Table.count_eq_zero.mp (not_not.mp hfree)
      refine .created rfl (fun t ht he => ?_) fun t ht hproblem hposition => ?_
      · simpa [he] using hnone t ht
      · simpa [hproblem, hposition] using hnone t ht

/-- Another hidden test of the problem is at this position. -/
def taken (id : Int) (problemId : String) (position : Int) (r : ProblemTestRow) : Bool :=
  r.id != id && r.problemId == problemId && r.position == position

theorem TestEffect.ofUpdate (input expectedOutput : String) (position : Int) (enabled : Bool)
    (id : Int) (problemId : String) (revision : Int)
    (hfree : db.problemTests.select (testAt id problemId revision) ≠ [] →
      db.problemTests.count (taken id problemId position) = 0) :
    TestEffect db
      (.execute (.updateTest input expectedOutput position enabled id problemId revision))
      (Result.tuples ((db.problemTests.select (testAt id problemId revision)).map
        (ProblemTestRow.edited input expectedOutput position enabled)))
      (db.problemTests.update (testAt id problemId revision)
        (ProblemTestRow.edited input expectedOutput position enabled)
        fun r _ => r.key_edited input expectedOutput position enabled) := by
  rcases Table.select_cases (t := db.problemTests) (p := testAt id problemId revision)
    fun r hr => (testAt_iff.mp hr).1 with hnone | ⟨row, hrow, hat, hselect⟩
  · rw [Table.select_eq_nil.mpr hnone, Table.update_eq_self hnone]
    exact .kept rfl
  · rw [hselect] at hfree ⊢
    have hcount := Table.count_eq_zero.mp (hfree (List.cons_ne_nil _ _))
    refine .updated hrow hat fun t ht hid hproblem hposition => ?_
    simpa [taken, hid, hproblem, hposition] using hcount t ht

theorem exec_updateTest (m input expectedOutput : String) (position : Int) (enabled : Bool)
    (id : Int) (problemId : String) (revision : Int) :
    TestEffect db
      (.execute (.updateTest input expectedOutput position enabled id problemId revision))
      ((Statement.updateTest input expectedOutput position enabled id problemId revision).exec
        P m db).2
      ((Statement.updateTest input expectedOutput position enabled id problemId revision).exec
        P m db).1.problemTests := by
  simp only [Statement.exec]
  split
  · exact .kept rfl
  · rename_i hfree
    split
    · refine .ofUpdate input expectedOutput position enabled id problemId revision fun hsome => ?_
      by_contra hcount
      refine hfree ?_
      rw [Bool.and_eq_true, decide_eq_true_eq]
      refine ⟨?_, hcount⟩
      rw [Bool.not_eq_true', List.isEmpty_eq_false_iff]
      exact fun h => hsome (List.map_eq_nil_iff.mp h)
    · exact .kept rfl

theorem TestEffect.ofDelete (id : Int) (problemId : String) :
    TestEffect db (.execute (.deleteTest id problemId))
      (Result.tuples ((db.problemTests.select (testOf id problemId)).map (·.id)))
      (db.problemTests.delete (testOf id problemId)) := by
  rcases Table.select_cases (t := db.problemTests) (p := testOf id problemId)
    fun r hr => (testOf_iff.mp hr).1 with hnone | ⟨row, hrow, hof, hselect⟩
  · rw [Table.select_eq_nil.mpr hnone, Table.delete_eq_self hnone]
    exact .kept rfl
  · rw [hselect]
    obtain ⟨rfl, rfl⟩ := testOf_iff.mp hof
    exact .removed hrow

theorem exec_deleteTest (m : String) (id : Int) (problemId : String) :
    TestEffect db (.execute (.deleteTest id problemId))
      ((Statement.deleteTest id problemId).exec P m db).2
      ((Statement.deleteTest id problemId).exec P m db).1.problemTests := .ofDelete id problemId

/-- Whether a statement writes problems only. -/
def Statement.setsProblems : Statement → Bool
  | .insertProblem .. | .updateProblem .. => true
  | _ => false

/-- Whether a statement writes hidden tests only. -/
def Statement.setsTests : Statement → Bool
  | .insertTest .. | .updateTest .. | .deleteTest .. => true
  | _ => false

theorem exec_test_problems {s : Statement} {m : String} (hs : s.setsTests = true) :
    (s.exec P m db).1.problems = db.problems := by
  cases s with
  | insertTest _ _ _ _ _ | updateTest _ _ _ _ _ _ _ =>
      simp only [Statement.exec]
      split
      · rfl
      · split <;> rfl
  | deleteTest _ _ => rfl
  | _ => cases hs

/-! ### Calls -/

/-- **What a call does to the problems.** -/
theorem serve_problems : ProblemEffect db q (serve P q c db).1 (serve P q c db).2.problems := by
  have hother : (∀ s, q = .execute s → s.setsCatalog = false) →
      ProblemEffect db q (serve P q c db).1 (serve P q c db).2.problems := by
    intro hq
    rw [(serve_sameCatalog hq).problems]
    exact .kept (problemWritten_eq_none hq _)
  match q with
  | .randomToken | .passwordHash _ | .judge _ | .executeLocked _ _ => exact hother fun _ h => (by cases h)
  | .execute s =>
      by_cases hs : s.setsCatalog = false
      · exact hother fun s' he => by cases he; exact hs
      · rw [serve_execute]
        rcases serveStatement_cases (P := P) s c db with ⟨-, hr⟩ | ⟨-, hr⟩
        · rw [hr]
          exact .kept (problemWritten_failed s _ _)
        · rw [hr]
          cases s with
          | insertProblem p => exact exec_insertProblem (P := P) c.message p
          | updateProblem p revision => exact exec_updateProblem (P := P) c.message p revision
          | deleteProblem id => exact exec_deleteProblem (P := P) c.message id
          | insertTest _ _ _ _ _ | updateTest _ _ _ _ _ _ _ | deleteTest _ _ =>
              rw [exec_test_problems rfl]
              exact .kept rfl
          | _ => exact absurd rfl hs

theorem exec_problem_tests {s : Statement} {m : String} (hs : s.setsProblems = true) :
    (s.exec P m db).1.problemTests = db.problemTests := by
  cases s with
  | insertProblem _ =>
      simp only [Statement.exec]
      split
      · rfl
      · split
        · rfl
        · split <;> rfl
  | updateProblem _ _ =>
      simp only [Statement.exec]
      split
      · rfl
      · split <;> rfl
  | _ => cases hs

/-- **What a call does to the hidden tests.** -/
theorem serve_tests : TestEffect db q (serve P q c db).1 (serve P q c db).2.problemTests := by
  have hother : (∀ s, q = .execute s → s.setsCatalog = false) →
      TestEffect db q (serve P q c db).1 (serve P q c db).2.problemTests := by
    intro hq
    rw [(serve_sameCatalog hq).problemTests]
    exact .kept (testWritten_eq_none hq _)
  match q with
  | .randomToken | .passwordHash _ | .judge _ | .executeLocked _ _ => exact hother fun _ h => (by cases h)
  | .execute s =>
      by_cases hs : s.setsCatalog = false
      · exact hother fun s' he => by cases he; exact hs
      · rw [serve_execute]
        rcases serveStatement_cases (P := P) s c db with ⟨-, hr⟩ | ⟨-, hr⟩
        · rw [hr]
          exact .kept (testWritten_failed s _ _)
        · rw [hr]
          cases s with
          | insertTest problemId input expectedOutput position enabled =>
              exact exec_insertTest (P := P) c.message problemId input expectedOutput position enabled
          | updateTest input expectedOutput position enabled id problemId revision =>
              exact exec_updateTest (P := P) c.message input expectedOutput position enabled id
                problemId revision
          | deleteTest id problemId => exact exec_deleteTest (P := P) c.message id problemId
          | insertProblem _ | updateProblem _ _ =>
              rw [exec_problem_tests rfl]
              exact .kept rfl
          | deleteProblem id => exact .cascaded
          | _ => exact absurd rfl hs

theorem testCreated_failed (s : Statement) (state : SqlState) (m : String) :
    testCreated (.execute s) (Result.failed state m) = none := by
  cases s <;> rfl

/-- The id of a hidden test is drawn from the sequence, which never goes back. -/
theorem serve_nextTest :
    db.sequences.problemTests ≤ (serve P q c db).2.sequences.problemTests ∧
      ∀ id, testCreated q (serve P q c db).1 = some id → id = db.sequences.problemTests ∧
        (serve P q c db).2.sequences.problemTests = db.sequences.problemTests + 1 := by
  -- Only an insert of a hidden test draws an id.
  have hother : (∀ r, testCreated q r = none) →
      (serve P q c db).2.sequences.problemTests = db.sequences.problemTests →
      db.sequences.problemTests ≤ (serve P q c db).2.sequences.problemTests ∧
        ∀ id, testCreated q (serve P q c db).1 = some id → id = db.sequences.problemTests ∧
          (serve P q c db).2.sequences.problemTests = db.sequences.problemTests + 1 := by
    intro hnone hsame
    refine ⟨Int.le_of_eq hsame.symm, fun id hid => ?_⟩
    rw [hnone] at hid
    cases hid
  match q with
  | .randomToken | .passwordHash _ | .judge _ => exact hother (fun _ => rfl) rfl
  | .executeLocked _ s => exact hother (fun _ => rfl) (serveLocked_sameCatalog s).nextTest
  | .execute s =>
      rcases serveStatement_cases (P := P) s c db with ⟨-, hr⟩ | ⟨-, hr⟩
      · rw [serve_execute, hr]
        refine ⟨Int.le_refl _, fun id hid => ?_⟩
        rw [testCreated_failed] at hid
        cases hid
      · by_cases hs : s.setsCatalog = false
        · refine hother (fun r => ?_) (serve_sameCatalog fun s' he => by cases he; exact hs).nextTest
          cases s <;> first | rfl | cases hs
        · cases s with
          | insertTest problemId input expectedOutput position enabled =>
              rw [serve_execute, hr]
              simp only [Statement.exec]
              split
              -- refused, with the id drawn already
              · exact ⟨by simp only [Database.nextTestId]; omega, fun _ hid => (by cases hid)⟩
              · split
                · exact ⟨by simp only [Database.nextTestId]; omega, fun _ hid => (by cases hid)⟩
                · refine ⟨by simp only [Database.nextTestId]; omega, fun _ hid => ?_⟩
                  cases hid
                  exact ⟨rfl, rfl⟩
          | insertProblem p =>
              refine hother (fun _ => rfl) ?_
              rw [serve_execute, hr]
              simp only [Statement.exec]
              split
              · rfl
              · split
                · rfl
                · split <;> rfl
          | updateProblem _ _ | updateTest _ _ _ _ _ _ _ =>
              refine hother (fun _ => rfl) ?_
              rw [serve_execute, hr]
              simp only [Statement.exec]
              split
              · rfl
              · split <;> rfl
          | deleteProblem _ | deleteTest _ _ =>
              refine hother (fun _ => rfl) ?_
              rw [serve_execute, hr]
              rfl
          | _ => exact absurd rfl hs

end calls

/-! ## Editing the catalog -/

/-- A call of the problem repository by an administrator. -/
inductive CatalogCall where
  | findAny (id : String)
  | create (problem : Problem)
  | update (problem : Problem)
  | remove (id : String)
  | createTest (problemId : String) (test : ProblemTestCase)
  | updateTest (problemId : String) (test : ProblemTestCase)
  | removeTest (problemId : String) (testId : Int)

inductive CatalogResult where
  | found (result : Except ProblemRepositoryError (Option Problem))
  | written (result : Except ProblemRepositoryError Problem)
  | testWritten (result : Except ProblemRepositoryError ProblemTestCase)
  | removed (result : Except ProblemRepositoryError Bool)

open PostgreSQLProblemRepository in
def CatalogCall.program : CatalogCall → Call CatalogResult
  | .findAny id => do pure (.found (← PostgreSQLProblemRepository.findAny id))
  | .create problem => do pure (.written (← PostgreSQLProblemRepository.create problem))
  | .update problem => do pure (.written (← PostgreSQLProblemRepository.update problem))
  | .remove id => do pure (.removed (← PostgreSQLProblemRepository.remove id))
  | .createTest problemId test => do
      pure (.testWritten (← PostgreSQLProblemRepository.createTest problemId test))
  | .updateTest problemId test => do
      pure (.testWritten (← PostgreSQLProblemRepository.updateTest problemId test))
  | .removeTest problemId testId => do
      pure (.removed (← PostgreSQLProblemRepository.removeTest problemId testId))

section pool
variable (ι : Type)

abbrev CatalogPool := Pool ι Backend Exception CatalogResult Database

/-- Besides the calls to the database: an administrator whose last call has ended makes another one, and
    time passes. -/
inductive CatalogControl where
  | issue (i : ι) (call : CatalogCall)
  | elapse (time : Nat)

abbrev CatalogEvent := Event ι Backend Choice (CatalogControl ι)

variable {ι} [DecidableEq ι]

/-- The call has returned, or thrown. -/
def Ended {α : Type} : Call α → Bool
  | .call _ _ => false
  | _ => true

def catalogControl : CatalogControl ι → CatalogPool ι → Option (CatalogPool ι)
  | .issue i call, p =>
      if Ended (p.thread i) then
        some { p with thread := Function.update p.thread i call.program }
      else none
  | .elapse time, p => some { p with shared := { p.shared with clock := p.shared.clock + time } }

/-- The steps of any number of administrators. -/
abbrev CatalogStep (P : Platform) := Pool.Step (ι := ι) (serve P) catalogControl

/-- Nobody has made a call yet. -/
def idleCatalog (ι : Type) (db : Database) : CatalogPool ι :=
  ⟨db, fun _ => .ret (.removed (.ok false))⟩

/-- A control step leaves the tables as they are. -/
theorem catalogControl_sameCatalog {b : CatalogControl ι} {p p' : CatalogPool ι}
    (h : catalogControl b p = some p') : SameCatalog p.shared p'.shared := by
  cases b with
  | issue i call =>
      simp only [catalogControl, Option.ite_none_right_eq_some, Option.some.injEq] at h
      obtain ⟨-, rfl⟩ := h
      exact .refl _
  | elapse time =>
      cases h
      exact ⟨rfl, rfl, rfl⟩

end pool

end AlgorithmTrainer
