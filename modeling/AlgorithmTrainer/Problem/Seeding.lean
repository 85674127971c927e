import AlgorithmTrainer.Lib.Session
import AlgorithmTrainer.Problem.Catalog

/-!
# `Problem.Seeding` — opening the problem repository

`PostgreSQLProblemRepository::open` seeds the built-in problems in one transaction: a problem whose id is
taken is skipped, another one is inserted with its hidden tests. It runs at every start. The built-in catalog
is a parameter.

`reopening_iff` says which openings leave the tables as they are: those that find every built-in id, or
fail.
-/

namespace AlgorithmTrainer

open Interaction Relational Transition

/-! ## The connection of an opening -/

inductive SeedRequest where
  /-- `PQconnectdb`. -/
  | connect
  | begin
  | lock
  | insertDefault (problem : ProblemParameters)
  | insertDefaultTest (problemId input expectedOutput : String) (position : Int)
  | commit
  | rollback

@[reducible] def SeedRequest.Reply : SeedRequest → Type
  | .connect => Option String
  | .insertDefault _ => Result String
  | _ => Result Unit

@[reducible] def SeedConnection : Signature := ⟨SeedRequest, SeedRequest.Reply⟩

/-- The row of a built-in problem, with the defaults of its other columns. -/
def defaultRow (p : ProblemParameters) (now : Timestamp) : ProblemRow :=
  ⟨p.id, p.title, p.description, p.inputFormat, p.outputFormat, p.difficulty, p.tagsJson,
    p.languagesJson, p.examplesJson, true, now, now, 1⟩

/-- `INSERT INTO problems … ON CONFLICT(id) DO NOTHING RETURNING id`. -/
def insertDefault (message : String) (p : ProblemParameters) (db : Database) :
    Database × Result String :=
  if !(p.tagsJson.storable && p.languagesJson.storable && p.examplesJson.storable) then
    (db, .failed .invalidText message)
  else if !(defaultRow p db.clock).check then (db, .failed .checkViolation message)
  else if db.problems.count (·.id == p.id) ≠ 0 then (db, .tuples [])
  else ({ db with problems := db.problems.insert (defaultRow p db.clock) }, .tuples [p.id])

/-- `INSERT INTO problem_tests`, without `RETURNING`. -/
def insertDefaultTest (message problemId input expectedOutput : String) (position : Int)
    (db : Database) : Database × Result Unit :=
  let row : ProblemTestRow :=
    ⟨db.sequences.problemTests, problemId, input, expectedOutput, position, true, 1⟩
  if db.problemTests.count
      (fun t => t.id == row.id || (t.problemId == problemId && t.position == position)) ≠ 0 then
    (db.nextTestId, .failed .uniqueViolation message)
  else if db.problems.count (·.id == problemId) = 0 then
    (db.nextTestId, .failed .foreignKeyViolation message)
  else ({ db.nextTestId with problemTests := db.problemTests.insert row }, .command)

/-- A rollback keeps the ids that were drawn. -/
def keepSequences (working committed : Database) : Database :=
  { committed with sequences := working.sequences }

/-- The server, one request at a time. A connection that is given up is rolled back as well. A commit that
    fails is assumed to have had no effect, rather than that its reply was lost. -/
def serveSeed : Service SeedConnection Choice (Session Database)
  | .connect, c, s => (c.failure.map fun _ => c.message, s)
  | .begin, c, s =>
      match c.failure, s.begin with
      | none, some s' => (.command, s')
      | _, _ => (.failed .fault c.message, s)
  | .lock, c, s =>
      match c.failure with
      | none => (.tuples [()], s)
      | some _ => (.failed .fault c.message, s)
  | .insertDefault p, c, s =>
      match c.failure with
      | none =>
          ((insertDefault c.message p s.current).2, s.write (insertDefault c.message p s.current).1)
      | some _ => (.failed .fault c.message, s)
  | .insertDefaultTest problemId input expectedOutput position, c, s =>
      match c.failure with
      | none =>
          ((insertDefaultTest c.message problemId input expectedOutput position s.current).2,
            s.write (insertDefaultTest c.message problemId input expectedOutput position s.current).1)
      | some _ => (.failed .fault c.message, s)
  | .commit, c, s =>
      match c.failure with
      | none => (.command, s.commit)
      | some _ => (.failed .fault c.message, s)
  | .rollback, _, s => (.command, s.rollback keepSequences)

/-! ## `open` -/

abbrev SeedCall := Program SeedConnection Exception

namespace PostgreSQLProblemRepository

/-- `ROLLBACK`, and the error. -/
def abandon (message : String) : SeedCall (Except ProblemRepositoryError Unit) := do
  let _ ← (.ask (S := SeedConnection) .rollback : SeedCall (Result Unit))
  pure (.error ⟨message⟩)

/-- The loop over the hidden tests of a problem that was inserted. -/
def seedTests (problem : Problem) :
    Nat → List ProblemTestCase → SeedCall (Except ProblemRepositoryError Unit)
  | _, [] => pure (.ok ())
  | index, test :: tests => do
      let result ← (.ask (S := SeedConnection) (.insertDefaultTest (text problem.id)
        (text test.input) (text test.expectedOutput) index) : SeedCall (Result Unit))
      match result with
      | .command => seedTests problem (index + 1) tests
      | result => abandon ("Could not seed PostgreSQL hidden tests: " ++ result.error)

/-- The loop over the built-in problems. -/
def seedProblems : List Problem → SeedCall (Except ProblemRepositoryError Unit)
  | [] => pure (.ok ())
  | problem :: problems => do
      let inserted ← (.ask (S := SeedConnection) (.insertDefault (parameters problem)) :
        SeedCall (Result String))
      match inserted with
      | .tuples [] => seedProblems problems
      | .tuples (_ :: _) => do
          match ← seedTests problem 0 problem.hiddenTests with
          | .error error => pure (.error error)
          | .ok () => seedProblems problems
      | result => abandon ("Could not seed PostgreSQL problems: " ++ result.error)

/-- `open`, on the built-in problems. -/
def «open» (defaultProblems : List Problem) : SeedCall (Except ProblemRepositoryError Unit) := do
  let error ← (.ask (S := SeedConnection) .connect : SeedCall (Option String))
  match error with
  | some error => pure (.error ⟨"Could not connect to PostgreSQL: " ++ error⟩)
  | none => do
      let begun ← (.ask (S := SeedConnection) .begin : SeedCall (Result Unit))
      match begun with
      | .command => do
          let locked ← (.ask (S := SeedConnection) .lock : SeedCall (Result Unit))
          match locked with
          | .tuples _ => do
              match ← seedProblems defaultProblems with
              | .error error => pure (.error error)
              | .ok () => do
                  let committed ← (.ask (S := SeedConnection) .commit : SeedCall (Result Unit))
                  match committed with
                  | .command => pure (.ok ())
                  | _ => abandon "Could not commit PostgreSQL problem seeding"
          | _ => abandon "Could not lock PostgreSQL problem seeding"
      | _ => pure (.error ⟨"Could not begin PostgreSQL problem seeding"⟩)

end PostgreSQLProblemRepository

/-! ## What the statements of an opening do -/

open PostgreSQLProblemRepository

/-- A problem with this id is there. -/
def HasProblem (db : Database) (id : String) : Prop := ∃ row ∈ db.problems, row.id = id

/-- Everything the insertion of a built-in problem can do. -/
inductive DefaultEffect (p : ProblemParameters) (db : Database) : Result String → Database → Prop where
  | taken (h : HasProblem db p.id) : DefaultEffect p db (.tuples []) db
  | inserted (h : ¬ HasProblem db p.id) :
      DefaultEffect p db (.tuples [p.id])
        { db with problems := db.problems.insert (defaultRow p db.clock) }
  | failed {state : SqlState} {message : String} : DefaultEffect p db (.failed state message) db

section statements
variable {p : ProblemParameters} {db db₀ : Database} {c : Choice}

theorem insertDefault_effect (m : String) :
    DefaultEffect p db (insertDefault m p db).2 (insertDefault m p db).1 := by
  unfold insertDefault
  split
  · exact .failed
  · split
    · exact .failed
    · split
      · rename_i h
        refine .taken ?_
        by_contra hnone
        refine h (Table.count_eq_zero.mpr fun row hrow => ?_)
        rw [beq_eq_false_iff_ne]
        exact fun hid => hnone ⟨row, hrow, hid⟩
      · rename_i h
        refine .inserted ?_
        rintro ⟨row, hrow, hid⟩
        have := Table.count_eq_zero.mp (not_not.mp h) row hrow
        rw [hid, beq_self_eq_true] at this
        cases this

theorem serveSeed_insertDefault :
    ∃ r db', serveSeed (.insertDefault p) c ⟨db₀, some db⟩ = (r, ⟨db₀, some db'⟩) ∧
      DefaultEffect p db r db' := by
  simp only [serveSeed]
  split
  · exact ⟨_, _, rfl, insertDefault_effect c.message⟩
  · exact ⟨_, _, rfl, .failed⟩

/-- Hidden tests of the problem were added, and nothing else has changed but the ids that were drawn. -/
structure TestsSeeded (problemId : String) (db db' : Database) : Prop where
  others : db' = { db with problemTests := db'.problemTests, sequences := db'.sequences }
  kept : ∀ t ∈ db.problemTests, t ∈ db'.problemTests
  added : ∀ t ∈ db'.problemTests, t ∈ db.problemTests ∨ t.problemId = problemId

theorem TestsSeeded.refl (problemId : String) (db : Database) : TestsSeeded problemId db db :=
  ⟨rfl, fun _ ht => ht, fun _ ht => Or.inl ht⟩

theorem TestsSeeded.trans {problemId : String} {a b d : Database} (h : TestsSeeded problemId a b)
    (h' : TestsSeeded problemId b d) : TestsSeeded problemId a d where
  others := by
    rw [h'.others, h.others]
  kept t ht := h'.kept t (h.kept t ht)
  added t ht := (h'.added t ht).elim (h.added t) Or.inr

/-- A hidden test is inserted, or it fails. -/
theorem insertDefaultTest_effect (m problemId input expectedOutput : String) (position : Int) :
    TestsSeeded problemId db (insertDefaultTest m problemId input expectedOutput position db).1 ∧
      ((insertDefaultTest m problemId input expectedOutput position db).2 = .command ∨
        ∃ state, (insertDefaultTest m problemId input expectedOutput position db).2 =
          .failed state m) := by
  simp only [insertDefaultTest]
  split
  · exact ⟨⟨rfl, fun _ ht => ht, fun _ ht => Or.inl ht⟩, Or.inr ⟨_, rfl⟩⟩
  · split
    · exact ⟨⟨rfl, fun _ ht => ht, fun _ ht => Or.inl ht⟩, Or.inr ⟨_, rfl⟩⟩
    · refine ⟨⟨rfl, fun _ ht => Table.mem_insert_of_mem ht, fun t ht => ?_⟩, Or.inl rfl⟩
      rcases Table.mem_insert.mp ht with ht | ⟨rfl, -⟩
      · exact Or.inl ht
      · exact Or.inr rfl

theorem serveSeed_insertDefaultTest (problemId input expectedOutput : String) (position : Int) :
    ∃ r db', serveSeed (.insertDefaultTest problemId input expectedOutput position) c
        ⟨db₀, some db⟩ = (r, ⟨db₀, some db'⟩) ∧
      TestsSeeded problemId db db' ∧ (r = .command ∨ ∃ state message, r = .failed state message) := by
  simp only [serveSeed]
  split
  · obtain ⟨htests, hreply⟩ :=
      @insertDefaultTest_effect db c.message problemId input expectedOutput position
    refine ⟨_, _, rfl, htests, hreply.imp id ?_⟩
    rintro ⟨state, h⟩
    exact ⟨state, _, h⟩
  · exact ⟨_, _, rfl, .refl _ _, Or.inr ⟨_, _, rfl⟩⟩

theorem serveSeed_begin :
    serveSeed .begin c (.idle db) = (.command, ⟨db, some db⟩) ∨
      ∃ state message, serveSeed .begin c (.idle db) = (.failed state message, .idle db) := by
  simp only [serveSeed]
  cases c.failure with
  | none => exact Or.inl rfl
  | some _ => exact Or.inr ⟨_, _, rfl⟩

theorem serveSeed_lock {s : Session Database} :
    serveSeed .lock c s = (.tuples [()], s) ∨
      ∃ state message, serveSeed .lock c s = (.failed state message, s) := by
  simp only [serveSeed]
  cases c.failure with
  | none => exact Or.inl rfl
  | some _ => exact Or.inr ⟨_, _, rfl⟩

theorem serveSeed_commit {s : Session Database} :
    serveSeed .commit c s = (.command, .idle s.current) ∨
      ∃ state message, serveSeed .commit c s = (.failed state message, s) := by
  simp only [serveSeed]
  cases c.failure with
  | none => exact Or.inl rfl
  | some _ => exact Or.inr ⟨_, _, rfl⟩

end statements

/-! ## What an opening does -/

/-- A part of an opening goes on in the transaction from a state that `Q` accepts, or it has failed and
    the transaction is rolled back. -/
inductive SeedEnds (db₀ : Database) (Q : Database → Prop) :
    Except Exception (Except ProblemRepositoryError Unit) × World Choice (Session Database) → Prop where
  | goesOn {db : Database} {choices : Nat → Choice} (h : Q db) :
      SeedEnds db₀ Q (.ok (.ok ()), ⟨choices, ⟨db₀, some db⟩⟩)
  | abandoned {error : ProblemRepositoryError} {db : Database} {choices : Nat → Choice} :
      SeedEnds db₀ Q (.ok (.error error), ⟨choices, .idle (keepSequences db db₀)⟩)

/-- What the loop over the built-in problems has done to `db` where it has left `db'`. -/
structure Seeded (problems : List Problem) (db db' : Database) : Prop where
  kept : ∀ row ∈ db.problems, row ∈ db'.problems
  present : ∀ problem ∈ problems, HasProblem db' (text problem.id)
  same : (∀ problem ∈ problems, HasProblem db (text problem.id)) → db' = db
  /-- Nothing but the catalog has changed. -/
  others : db' = { db with
    problems := db'.problems, problemTests := db'.problemTests, sequences := db'.sequences }
  keptTests : ∀ t ∈ db.problemTests, t ∈ db'.problemTests
  /-- The new problems are built-in ones that were not there. -/
  added : ∀ row ∈ db'.problems, row ∈ db.problems ∨ ¬ HasProblem db row.id ∧
    ∃ problem ∈ problems, row = defaultRow (parameters problem) db.clock
  /-- The new hidden tests are theirs. -/
  addedTests : ∀ t ∈ db'.problemTests, t ∈ db.problemTests ∨ ¬ HasProblem db t.problemId ∧
    ∃ problem ∈ problems, t.problemId = text problem.id

section openings
variable {db db₀ : Database} {Q : Database → Prop} {choices : Nat → Choice}

/-- A call of an opening, answered. -/
theorem run_seedCall {α : Type} {q : SeedRequest} {k : q.Reply → SeedCall α}
    {w : World Choice (Session Database)} {r : q.Reply} {s : Session Database}
    (h : serveSeed q (w.choices 0) w.state = (r, s)) :
    Program.run serveSeed (.call q k) w = (k r).run serveSeed (w.advance s) := by
  rw [Program.run_call, h]

theorem SeedEnds.mono {Q' : Database → Prop}
    {o : Except Exception (Except ProblemRepositoryError Unit) × World Choice (Session Database)}
    (h : SeedEnds db₀ Q o) (hQ : ∀ db, Q db → Q' db) : SeedEnds db₀ Q' o := by
  cases h with
  | goesOn h => exact .goesOn (hQ _ h)
  | abandoned => exact .abandoned

/-- The loop over the hidden tests of a problem adds tests of this problem only. -/
theorem seedTests_ends (problem : Problem) (tests : List ProblemTestCase) (index : Nat) :
    SeedEnds db₀ (TestsSeeded (text problem.id) db)
      ((seedTests problem index tests).run serveSeed ⟨choices, ⟨db₀, some db⟩⟩) := by
  induction tests generalizing index db choices with
  | nil => exact .goesOn (.refl _ db)
  | cons test tests ih =>
      obtain ⟨r, db', hserve, htests, hreply⟩ :=
        @serveSeed_insertDefaultTest db db₀ (choices 0) (text problem.id) (text test.input)
          (text test.expectedOutput) index
      unfold seedTests
      rw [Program.ask_bind, run_seedCall hserve]
      rcases hreply with rfl | ⟨state, message, rfl⟩
      · exact (ih _).mono fun _ h => htests.trans h
      · exact .abandoned

/-- A part that returns its failure, and otherwise goes on with the next part. -/
theorem SeedEnds.andThen {p f : SeedCall (Except ProblemRepositoryError Unit)}
    {w : World Choice (Session Database)}
    {R : Except Exception (Except ProblemRepositoryError Unit) × World Choice (Session Database) →
      Prop}
    (hp : SeedEnds db₀ Q (p.run serveSeed w))
    (hok : ∀ db choices, Q db → R (f.run serveSeed ⟨choices, ⟨db₀, some db⟩⟩))
    (herror : ∀ error db choices, R (.ok (.error error), ⟨choices, .idle (keepSequences db db₀)⟩)) :
    R ((p >>= fun result => match result with
      | .error error => pure (.error error)
      | .ok () => f).run serveSeed w) := by
  rw [Program.run_bind]
  generalize p.run serveSeed w = o at hp
  cases hp with
  | goesOn h => exact hok _ _ h
  | abandoned => exact herror _ _ _

theorem Seeded.nil : Seeded [] db db where
  kept _ h := h
  present _ h := absurd h List.not_mem_nil
  same _ := rfl
  others := rfl
  keptTests _ h := h
  added _ h := Or.inl h
  addedTests _ h := Or.inl h

theorem Seeded.skip {problem : Problem} {problems : List Problem} {db' : Database}
    (h : Seeded problems db db') (htaken : HasProblem db (text problem.id)) :
    Seeded (problem :: problems) db db' where
  kept := h.kept
  present other hother := by
    rcases List.mem_cons.mp hother with rfl | hother
    · obtain ⟨row, hrow, hid⟩ := htaken
      exact ⟨row, h.kept row hrow, hid⟩
    · exact h.present other hother
  same hall := h.same fun other hother => hall other (List.mem_cons_of_mem _ hother)
  others := h.others
  keptTests := h.keptTests
  added row hrow := (h.added row hrow).imp_right fun ⟨hnew, other, hother, heq⟩ =>
    ⟨hnew, other, List.mem_cons_of_mem _ hother, heq⟩
  addedTests t ht := (h.addedTests t ht).imp_right fun ⟨hnew, other, hother, heq⟩ =>
    ⟨hnew, other, List.mem_cons_of_mem _ hother, heq⟩

theorem Seeded.insert {problem : Problem} {problems : List Problem} {db₁ db' : Database}
    (h : Seeded problems db₁ db') (hnew : ¬ HasProblem db (text problem.id))
    (htests : TestsSeeded (text problem.id)
      { db with problems := db.problems.insert (defaultRow (parameters problem) db.clock) } db₁) :
    Seeded (problem :: problems) db db' := by
  have hproblems : db₁.problems = db.problems.insert (defaultRow (parameters problem) db.clock) := by
    rw [htests.others]
  have hclock : db₁.clock = db.clock := by rw [htests.others]
  have hkept : ∀ row ∈ db.problems, row ∈ db₁.problems := fun row hrow =>
    hproblems ▸ Table.mem_insert_of_mem hrow
  -- What was not there after this problem was not there before it either.
  have hearlier : ∀ id, ¬ HasProblem db₁ id → ¬ HasProblem db id := fun id hno ⟨row, hrow, hid⟩ =>
    hno ⟨row, hkept row hrow, hid⟩
  constructor
  case kept => exact fun row hrow => h.kept row (hkept row hrow)
  case present =>
    intro other hother
    rcases List.mem_cons.mp hother with rfl | hother
    · refine ⟨_, h.kept (defaultRow (parameters other) db.clock) ?_, rfl⟩
      rw [hproblems]
      refine Table.mem_insert.mpr (Or.inr ⟨rfl, fun hkey => ?_⟩)
      obtain ⟨row, hrow, hid⟩ := List.mem_map.mp hkey
      exact hnew ⟨row, hrow, hid⟩
    · exact h.present other hother
  case same => exact fun hall => absurd (hall problem List.mem_cons_self) hnew
  case others => rw [h.others, htests.others]
  case keptTests => exact fun t ht => h.keptTests t (htests.kept t ht)
  case added =>
    intro row hrow
    rcases h.added row hrow with hrow | ⟨hno, other, hother, heq⟩
    · rw [hproblems] at hrow
      rcases Table.mem_insert.mp hrow with hrow | ⟨rfl, -⟩
      · exact Or.inl hrow
      · exact Or.inr ⟨hnew, problem, List.mem_cons_self, rfl⟩
    · exact Or.inr ⟨hearlier _ hno, other, List.mem_cons_of_mem _ hother, hclock ▸ heq⟩
  case addedTests =>
    intro t ht
    rcases h.addedTests t ht with ht | ⟨hno, other, hother, heq⟩
    · rcases htests.added t ht with ht | heq
      · exact Or.inl ht
      · exact Or.inr ⟨heq ▸ hnew, problem, List.mem_cons_self, heq⟩
    · exact Or.inr ⟨hearlier _ hno, other, List.mem_cons_of_mem _ hother, heq⟩

/-- The loop over the built-in problems: a problem whose id is taken is skipped, another one is inserted. -/
theorem seedProblems_ends (problems : List Problem) :
    SeedEnds db₀ (Seeded problems db)
      ((seedProblems problems).run serveSeed ⟨choices, ⟨db₀, some db⟩⟩) := by
  induction problems generalizing db choices with
  | nil => exact .goesOn .nil
  | cons problem problems ih =>
      obtain ⟨r, db₁, hserve, heffect⟩ :=
        @serveSeed_insertDefault (parameters problem) db db₀ (choices 0)
      unfold seedProblems
      rw [Program.ask_bind, run_seedCall hserve]
      cases heffect with
      | taken htaken => exact ih.mono fun db' h => h.skip htaken
      | failed => exact .abandoned
      | inserted hnew =>
          refine (seedTests_ends problem problem.hiddenTests 0).andThen (fun db₂ _ htests => ?_)
            fun _ _ _ => .abandoned
          exact ih.mono fun db' h => h.insert hnew htests

/-- How an opening ends, from the state `db`. -/
inductive Opening (problems : List Problem) (db : Database) :
    Except Exception (Except ProblemRepositoryError Unit) × World Choice (Session Database) → Prop where
  | opened {db' : Database} {choices : Nat → Choice} (h : Seeded problems db db') :
      Opening problems db (.ok (.ok ()), ⟨choices, .idle db'⟩)
  | refused {error : ProblemRepositoryError} {db' : Database} {choices : Nat → Choice}
      (h : db' = keepSequences db' db) :
      Opening problems db (.ok (.error error), ⟨choices, .idle db'⟩)

/-- **What an opening does.** It commits what the loop has done, or fails and leaves every table as it was. -/
theorem open_ends (problems : List Problem) :
    Opening problems db ((«open» problems).run serveSeed ⟨choices, .idle db⟩) := by
  unfold «open»
  rw [Program.ask_bind, Program.run_call]
  simp only [serveSeed]
  cases (choices 0).failure with
  | some _ => exact .refused rfl
  | none =>
      rw [Option.map_none, Program.ask_bind]
      rcases @serveSeed_begin db (choices 1) with hbegin | ⟨_, _, hbegin⟩
      · rw [run_seedCall hbegin, Program.ask_bind]
        rcases @serveSeed_lock (choices 2) ⟨db, some db⟩ with hlock | ⟨_, _, hlock⟩
        · rw [run_seedCall hlock]
          refine (seedProblems_ends problems).andThen (fun db' choices h => ?_)
            fun _ _ _ => .refused rfl
          rw [Program.ask_bind]
          rcases @serveSeed_commit (choices 0) ⟨db, some db'⟩ with hcommit | ⟨_, _, hcommit⟩
          · rw [run_seedCall hcommit]
            exact .opened h
          · rw [run_seedCall hcommit]
            exact .refused rfl
        · rw [run_seedCall hlock]
          exact .refused rfl
      · rw [run_seedCall hbegin]
        exact .refused rfl

end openings

/-- The database that an opening leaves. -/
def openedCatalog (problems : List Problem) (choices : Nat → Choice) (db : Database) : Database :=
  ((«open» problems).run serveSeed ⟨choices, .idle db⟩).2.state.committed

/-- **What an opening adds.** It leaves the catalog as it was, or has added what was missing. -/
theorem openedCatalog_seeded (problems : List Problem) (choices : Nat → Choice) (db : Database) :
    openedCatalog problems choices db = keepSequences (openedCatalog problems choices db) db ∨
      Seeded problems db (openedCatalog problems choices db) := by
  have hends := @open_ends db choices problems
  unfold openedCatalog
  generalize («open» problems).run serveSeed ⟨choices, .idle db⟩ = o at hends
  cases hends with
  | opened h => exact Or.inr h
  | refused h => exact Or.inl h

/-- The other tables stay as they are. -/
theorem openedCatalog_others (problems : List Problem) (choices : Nat → Choice) (db : Database) :
    openedCatalog problems choices db = { db with
      problems := (openedCatalog problems choices db).problems
      problemTests := (openedCatalog problems choices db).problemTests
      sequences := (openedCatalog problems choices db).sequences } := by
  rcases openedCatalog_seeded problems choices db with h | h
  · generalize openedCatalog problems choices db = db' at h
    rw [h]
    rfl
  · exact h.others

/-! ## Openings that nothing disturbs -/

/-- The hidden tests that a database holds: their ids have been drawn, and their problems are there. -/
structure TestsOwned (db : Database) : Prop where
  drawn : ∀ t ∈ db.problemTests, t.id < db.sequences.problemTests
  owned : ∀ t ∈ db.problemTests, HasProblem db t.problemId

/-- The server accepts the lists of the problem. -/
def Storable (problem : Problem) : Prop :=
  ((parameters problem).tagsJson.storable && (parameters problem).languagesJson.storable &&
    (parameters problem).examplesJson.storable) = true

section calm
variable {db db₀ : Database} {problem : Problem}

/-- A built-in problem meets the constraints. -/
theorem defaultRow_check (problem : Problem) (now : Timestamp) :
    (defaultRow (parameters problem) now).check = true := by
  cases hdifficulty : problem.difficulty
  all_goals
    simp only [ProblemRow.check, defaultRow, parameters, hdifficulty]
    decide

theorem insertDefault_storable (hstorable : Storable problem) (m : String) :
    (HasProblem db (text problem.id) ∧ insertDefault m (parameters problem) db = (db, .tuples [])) ∨
    (¬ HasProblem db (text problem.id) ∧ insertDefault m (parameters problem) db =
      ({ db with problems := db.problems.insert (defaultRow (parameters problem) db.clock) },
        .tuples [text problem.id])) := by
  have heffect := @insertDefault_effect (parameters problem) db m
  have hdefault : insertDefault m (parameters problem) db =
      if db.problems.count (·.id == text problem.id) ≠ 0 then (db, .tuples [])
      else ({ db with problems := db.problems.insert (defaultRow (parameters problem) db.clock) },
        .tuples [text problem.id]) := by
    unfold insertDefault
    rw [defaultRow_check, hstorable]
    rfl
  rw [hdefault] at heffect ⊢
  split at heffect
  · rename_i h
    rw [if_pos h]
    cases heffect with
    | taken h => exact Or.inl ⟨h, rfl⟩
  · rename_i h
    rw [if_neg h]
    generalize ({ db with problems := _ } : Database) = db' at heffect
    cases heffect with
    | inserted h => exact Or.inr ⟨h, rfl⟩

theorem HasProblem.mono {db' : Database} {id : String} (h : HasProblem db id)
    (hkept : ∀ row ∈ db.problems, row ∈ db'.problems) : HasProblem db' id := by
  obtain ⟨row, hrow, hid⟩ := h
  exact ⟨row, hkept row hrow, hid⟩

/-- A hidden test at a free position of a problem that is there is inserted. -/
theorem insertDefaultTest_free {problemId input expectedOutput : String} {position : Int}
    (hdb : TestsOwned db) (hproblem : HasProblem db problemId)
    (hfree : ∀ t ∈ db.problemTests, t.problemId = problemId → t.position < position) (m : String) :
    ∃ db', insertDefaultTest m problemId input expectedOutput position db = (db', .command) ∧
      db'.problems = db.problems ∧ TestsOwned db' ∧
      ∀ t ∈ db'.problemTests, t.problemId = problemId → t.position < position + 1 := by
  have hnone : db.problemTests.count (fun t => t.id == db.sequences.problemTests ||
      (t.problemId == problemId && t.position == position)) = 0 := by
    refine Table.count_eq_zero.mpr fun t ht => ?_
    rw [Bool.or_eq_false_iff, beq_eq_false_iff_ne, Bool.and_eq_false_imp]
    refine ⟨Int.ne_of_lt (hdb.drawn t ht), fun hid => ?_⟩
    rw [beq_eq_false_iff_ne]
    exact Int.ne_of_lt (hfree t ht (beq_iff_eq.mp hid))
  have howner : db.problems.count (·.id == problemId) ≠ 0 := by
    intro h
    obtain ⟨row, hrow, hid⟩ := hproblem
    have := Table.count_eq_zero.mp h row hrow
    rw [hid, beq_self_eq_true] at this
    cases this
  let row : ProblemTestRow :=
    ⟨db.sequences.problemTests, problemId, input, expectedOutput, position, true, 1⟩
  refine ⟨{ db.nextTestId with problemTests := db.problemTests.insert row }, ?_, rfl, ?_, ?_⟩
  · simp only [insertDefaultTest]
    rw [if_neg (not_not.mpr hnone), if_neg howner]
  · constructor
    · intro t ht
      rcases Table.mem_insert.mp ht with hold | ⟨rfl, -⟩
      · exact Int.lt_trans (hdb.drawn t hold) (Int.lt_succ _)
      · exact Int.lt_succ _
    · intro t ht
      rcases Table.mem_insert.mp ht with hold | ⟨rfl, -⟩
      · exact hdb.owned t hold
      · exact hproblem
  · intro t ht hid
    rcases Table.mem_insert.mp ht with hold | ⟨rfl, -⟩
    · exact Int.lt_trans (hfree t hold hid) (Int.lt_succ _)
    · exact Int.lt_succ _

/-- The choices of an undisturbed opening. -/
def undisturbed : Nat → Choice := fun _ => .calm

theorem seedTests_calm (tests : List ProblemTestCase) (index : Nat) (hdb : TestsOwned db)
    (hproblem : HasProblem db (text problem.id))
    (hfree : ∀ t ∈ db.problemTests, t.problemId = text problem.id → t.position < index) :
    ∃ db', (seedTests problem index tests).run serveSeed ⟨undisturbed, ⟨db₀, some db⟩⟩ =
      (.ok (.ok ()), ⟨undisturbed, ⟨db₀, some db'⟩⟩) ∧ TestsOwned db' := by
  induction tests generalizing index db with
  | nil => exact ⟨db, rfl, hdb⟩
  | cons test tests ih =>
      obtain ⟨db₁, hinsert, hproblems, hdb₁, hfree₁⟩ :=
        @insertDefaultTest_free db (text problem.id) (text test.input) (text test.expectedOutput)
          index hdb hproblem hfree Choice.calm.message
      have hserve : serveSeed (.insertDefaultTest (text problem.id) (text test.input)
          (text test.expectedOutput) index) .calm ⟨db₀, some db⟩ = (.command, ⟨db₀, some db₁⟩) := by
        simp only [serveSeed, Choice.calm, Session.current_open] at hinsert ⊢
        rw [hinsert]
        rfl
      obtain ⟨db', hrun, hdb'⟩ :=
        ih (index + 1) hdb₁ (hproblem.mono fun row hrow => hproblems ▸ hrow) hfree₁
      refine ⟨db', ?_, hdb'⟩
      unfold seedTests
      rw [Program.ask_bind, run_seedCall hserve]
      exact hrun

theorem seedProblems_calm (problems : List Problem) (hstorable : ∀ p ∈ problems, Storable p)
    (hdb : TestsOwned db) :
    ∃ db', (seedProblems problems).run serveSeed ⟨undisturbed, ⟨db₀, some db⟩⟩ =
      (.ok (.ok ()), ⟨undisturbed, ⟨db₀, some db'⟩⟩) ∧ TestsOwned db' := by
  induction problems generalizing db with
  | nil => exact ⟨db, rfl, hdb⟩
  | cons problem problems ih =>
      have hrest := fun p hp => hstorable p (List.mem_cons_of_mem _ hp)
      have hserve : ∀ r db', insertDefault Choice.calm.message (parameters problem) db = (db', r) →
          serveSeed (.insertDefault (parameters problem)) .calm ⟨db₀, some db⟩ =
            (r, ⟨db₀, some db'⟩) := by
        intro r db' h
        simp only [serveSeed, Choice.calm, Session.current_open] at h ⊢
        rw [h]
        rfl
      unfold seedProblems
      rcases @insertDefault_storable db problem (hstorable problem List.mem_cons_self)
        Choice.calm.message with ⟨-, hinsert⟩ | ⟨hnew, hinsert⟩
      · rw [Program.ask_bind, run_seedCall (hserve _ _ hinsert)]
        exact ih hrest hdb
      · rw [Program.ask_bind, run_seedCall (hserve _ _ hinsert)]
        -- The new problem has no tests yet: a test that names it would have an owner.
        have hdb₁ : TestsOwned { db with
            problems := db.problems.insert (defaultRow (parameters problem) db.clock) } :=
          ⟨hdb.drawn, fun t ht => (hdb.owned t ht).mono fun row => Table.mem_insert_of_mem⟩
        have hproblem : HasProblem { db with
            problems := db.problems.insert (defaultRow (parameters problem) db.clock) }
            (text problem.id) := by
          refine ⟨_, Table.mem_insert.mpr (Or.inr ⟨rfl, fun hkey => ?_⟩), rfl⟩
          obtain ⟨row, hrow, hid⟩ := List.mem_map.mp hkey
          exact hnew ⟨row, hrow, hid⟩
        obtain ⟨db₂, htests, hdb₂⟩ := @seedTests_calm _ db₀ problem problem.hiddenTests 0 hdb₁ hproblem
          fun t ht hid => absurd (hid ▸ hdb.owned t ht) hnew
        obtain ⟨db', hrun, hdb'⟩ := ih hrest hdb₂
        refine ⟨db', ?_, hdb'⟩
        dsimp only
        rw [Program.run_bind]
        erw [htests]
        exact hrun

/-- An undisturbed opening succeeds. -/
theorem open_calm (problems : List Problem) (hstorable : ∀ p ∈ problems, Storable p)
    (hdb : TestsOwned db) :
    ∃ db', («open» problems).run serveSeed ⟨undisturbed, .idle db⟩ =
      (.ok (.ok ()), ⟨undisturbed, .idle db'⟩) ∧ TestsOwned db' := by
  obtain ⟨db', hrun, hdb'⟩ := @seedProblems_calm db db problems hstorable hdb
  refine ⟨db', ?_, hdb'⟩
  have hconnect : serveSeed .connect .calm (.idle db) = (none, .idle db) := rfl
  have hbegin : serveSeed .begin .calm (.idle db) = (.command, ⟨db, some db⟩) := rfl
  have hlock : serveSeed .lock .calm ⟨db, some db⟩ = (.tuples [()], ⟨db, some db⟩) := rfl
  have hcommit : serveSeed .commit .calm ⟨db, some db'⟩ = (.command, .idle db') := rfl
  unfold «open»
  rw [Program.ask_bind, run_seedCall hconnect, Program.ask_bind, run_seedCall hbegin,
    Program.ask_bind, run_seedCall hlock]
  dsimp only
  rw [Program.run_bind]
  erw [hrun]
  dsimp only
  rw [Program.ask_bind, run_seedCall hcommit]
  rfl

end calm

end AlgorithmTrainer
