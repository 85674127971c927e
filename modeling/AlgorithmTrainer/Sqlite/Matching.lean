import AlgorithmTrainer.Sqlite.Correspondence

/-!
# `Sqlite.Matching` — each call on both repositories

One lemma for each member function: called on related databases with corresponding arguments, both versions
return corresponding results and leave related databases. `Served` choices are those of calls that are made
one at a time and do not fail from outside.

## Contents

- **Results and requests**: `SameResult` through the reading of rows; a request at the head of a run.
- **A retry's transaction**: the three ways in which SQLite's `retry` ends, as equations.
- **Queries** (`find_matched`, `history_matched`): related tables select related rows, and both sort them
  alike.
- **Transitions** (`complete_matched`, `fail_matched`, `recoverRunning_matched`): guarded updates of running
  rows, the first two instances of one lemma.
- **Claims** (`claimNext_matched`): both take the same candidate, and each updates it in its own way.
- **Insertions** (`create_matched`, `retry_matched`): both decide alike whether there is room; a row that is
  inserted adds a pair of ids, and where a foreign key fails, PostgreSQL has drawn an id that SQLite has not.

The recurring step: the rows that a statement touches are selected by predicates that agree on related rows
(`Same.updateSubmissions_eq`, `List.Forall₂`), so what the versions return and keep is related row by row.
-/

namespace AlgorithmTrainer

open Interaction Relational

/-- Nothing fails from outside. -/
def SqliteChoice.Served (c : SqliteChoice) : Prop := c.fault = none

/-- **What a matched call shows.** Both versions return, with results that `R` relates, and leave related
    databases, in which the pairs of before still correspond. -/
def Matched {α β : Type} (strftime : Timestamp → String) (pairs : List (Int × Int)) (clock : Timestamp)
    (R : List (Int × Int) → α → β → Prop) (x : Except Exception α × World Choice Database)
    (y : Except Exception β × World SqliteChoice SqliteState) : Prop :=
  ∃ pairs' a b sq, (∀ p ∈ pairs, p ∈ pairs') ∧ x.1 = .ok a ∧ y.1 = .ok b ∧ R pairs' a b ∧
    y.2.state = ⟨.idle sq, clock⟩ ∧ Same strftime pairs' x.2.state sq clock

/-! ## Results -/

section results
variable {pairs : List (Int × Int)} {P : Platform} {rows : List SubmissionRow}
  {rows' : List SqliteSubmissionRow}

/-- A function on what was read keeps the relation. -/
theorem SameResult.map {α β γ δ : Type} {R : α → β → Prop} {R' : γ → δ → Prop} {f : α → γ} {g : β → δ}
    {x : Except RepositoryError α} {y : Except RepositoryError β} (h : SameResult R x y)
    (hfg : ∀ a b, R a b → R' (f a) (g b)) : SameResult R' (x.map f) (y.map g) := by
  cases h with
  | ok h => exact .ok (hfg _ _ h)
  | error h => exact .error h

theorem SameResult.mono {α β : Type} {R R' : α → β → Prop} {x : Except RepositoryError α}
    {y : Except RepositoryError β} (h : SameResult R x y) (hR : ∀ a b, R a b → R' a b) :
    SameResult R' x y := by
  cases h with
  | ok h => exact .ok (hR _ _ h)
  | error h => exact .error h

/-- Both read the first row, if there is one. -/
theorem optionalRecord_same (h : List.Forall₂ (SameRow pairs) rows rows') :
    SameResult (SameOption (SameRecord pairs)) (PostgreSQLSubmissionRepository.optionalRecord P rows)
      (SQLiteSubmissionRepository.optionalRecord rows') := by
  cases h with
  | nil => exact .ok .none
  | cons hrow _ => exact (hrow.record P).map fun _ _ hrecord => .some hrecord

/-- Of two readings, the second decides where the first succeeds. -/
theorem SameResult.bind {α β γ δ : Type} {R : α → β → Prop} {R' : γ → δ → Prop}
    {x : Except RepositoryError α} {y : Except RepositoryError β} {f : α → Except RepositoryError γ}
    {g : β → Except RepositoryError δ} (h : SameResult R x y)
    (hfg : ∀ a b, R a b → SameResult R' (f a) (g b)) : SameResult R' (x >>= f) (y >>= g) := by
  cases h with
  | ok h => exact hfg _ _ h
  | error h => exact .error h

/-- The first element that fails decides on both sides. -/
theorem SameResult.mapM {α β ρ σ : Type} {R : α → β → Prop} {Q : ρ → σ → Prop} {l : List ρ} {l' : List σ}
    {f : ρ → Except RepositoryError α} {g : σ → Except RepositoryError β} (h : List.Forall₂ Q l l')
    (hfg : ∀ r s, Q r s → SameResult R (f r) (g s)) :
    SameResult (List.Forall₂ R) (l.mapM f) (l'.mapM g) := by
  induction h with
  | nil => exact .ok .nil
  | cons hrow _ ih =>
      rw [List.mapM_cons, List.mapM_cons]
      exact (hfg _ _ hrow).bind fun _ _ hab => ih.bind fun _ _ hrest => .ok (.cons hab hrest)

/-- Related rows are read as related records, or none of them is. -/
theorem records_same (h : List.Forall₂ (SameRow pairs) rows rows') :
    SameResult (List.Forall₂ (SameRecord pairs))
      (PostgreSQLSubmissionRepository.records P (.tuples rows))
      (rows'.mapM SQLiteSubmissionRepository.readRecord) :=
  SameResult.mapM h fun _ _ hrow => hrow.record P

/-- The result of a transition that touches one row at most. -/
theorem transition_same {operation : String} (h : List.Forall₂ (SameRow pairs) rows rows')
    (hone : rows = [] ∨ ∃ r, rows = [r]) :
    SameResult (SameRecord pairs) (PostgreSQLSubmissionRepository.transition P operation (.tuples rows))
      (SQLiteSubmissionRepository.transition (.rows rows')) := by
  rcases hone with rfl | ⟨r, rfl⟩
  · cases h
    exact .error rfl
  · cases h with
    | cons hrow hnil =>
        cases hnil
        exact hrow.record P

end results

/-! ## Requests -/

/-- A text without U+0000 reaches the server as it is. -/
theorem map_text {o : Option String} (h : ∀ e ∈ o, '\x00' ∉ e.toList) : o.map text = o := by
  cases o with
  | none => rfl
  | some e => exact congrArg some (cStr_of_not_mem (h e rfl))

section requests
variable {P : Platform} {strftime : Timestamp → String} {α : Type}

/-- A statement that is served is executed. -/
theorem serveStatement_served {c : Choice} (hc : c.Served) (s : Statement) (db : Database) :
    serveStatement P s c db = ((s.exec P c.message db).2, (s.exec P c.message db).1) := by
  unfold serveStatement
  rw [hc.1]

/-- A SQLite statement at the head of a run. -/
theorem run_step (s : SqliteStatement) (f : Stepped s.Row → SqliteCall α)
    (w : World SqliteChoice SqliteState) :
    Program.run (serveSqlite strftime) (@Bind.bind (Program SqliteConnection Exception) _
        (no_index (Stepped s.Row)) α (SQLiteSubmissionRepository.step s) f) w =
      (f (serveSqlite strftime (.execute s) (w.choices 0) w.state).1).run (serveSqlite strftime)
        (w.advance (serveSqlite strftime (.execute s) (w.choices 0) w.state).2) := rfl

/-- A statement that is executed outside of a transaction commits by itself. -/
theorem serveSqlite_served {c : SqliteChoice} (hc : c.Served) {s : SqliteStatement} {sq sq' : SqliteDatabase}
    {clock : Timestamp} {rows : List s.Row} (h : s.exec (strftime clock) sq = some (rows, sq')) :
    serveSqlite strftime (.execute s) c ⟨.idle sq, clock⟩ = (.rows rows, ⟨.idle sq', clock⟩) := by
  unfold serveSqlite
  dsimp only
  rw [show c.fault = none from hc]
  simp only [Session.current_idle, h]
  rfl

/-- A statement that violates a constraint changes nothing, and is answered by an error. -/
theorem serveSqlite_rejected {c : SqliteChoice} (hc : c.Served) {s : SqliteStatement} {sq : SqliteDatabase}
    {clock : Timestamp} (h : s.exec (strftime clock) sq = none) :
    serveSqlite strftime (.execute s) c ⟨.idle sq, clock⟩ = (.error c.message, ⟨.idle sq, clock⟩) := by
  unfold serveSqlite
  dsimp only
  rw [show c.fault = none from hc]
  simp only [Session.current_idle, h]

end requests

/-! ### A retry's transaction -/

section transaction
variable {strftime : Timestamp → String} {clock : Timestamp} {choices : Nat → SqliteChoice}
  {sq sq' sq'' : SqliteDatabase} {limits : PostgreSQLRepositoryLimits} {id admin : Int}

/-- The statement that inserts the retry. -/
abbrev retryStatement (limits : PostgreSQLRepositoryLimits) (id : Int) : SqliteStatement :=
  .insertRetry id limits.maximumActiveSubmissions limits.maximumActiveSubmissionsPerUser

theorem serveSqlite_open {c : SqliteChoice} (hc : c.Served) {s : SqliteStatement} {rows : List s.Row}
    (h : s.exec (strftime clock) sq' = some (rows, sq'')) :
    serveSqlite strftime (.execute s) c ⟨⟨sq, some sq'⟩, clock⟩
      = (.rows rows, ⟨⟨sq, some sq''⟩, clock⟩) := by
  unfold serveSqlite
  dsimp only
  rw [show c.fault = none from hc]
  simp only [Session.current_open, h]
  rfl

theorem serveSqlite_open_rejected {c : SqliteChoice} (hc : c.Served) {s : SqliteStatement}
    (h : s.exec (strftime clock) sq' = none) :
    serveSqlite strftime (.execute s) c ⟨⟨sq, some sq'⟩, clock⟩
      = (.error c.message, ⟨⟨sq, some sq'⟩, clock⟩) := by
  unfold serveSqlite
  dsimp only
  rw [show c.fault = none from hc]
  simp only [Session.current_open, h]

/-- `BEGIN` at the head of a run, outside of a transaction. -/
theorem run_begin {α : Type} (hc : (choices 0).Served) (f : Option String → SqliteCall α) :
    (SQLiteSubmissionRepository.begin >>= f).run (serveSqlite strftime) ⟨choices, .idle sq, clock⟩ =
      (f none).run (serveSqlite strftime) ⟨fun n => choices (n + 1), ⟨sq, some sq⟩, clock⟩ := by
  have hbegin : serveSqlite strftime .begin (choices 0) ⟨.idle sq, clock⟩
      = (none, ⟨⟨sq, some sq⟩, clock⟩) := by
    unfold serveSqlite
    dsimp only
    rw [show (choices 0).fault = none from hc]
    rfl
  unfold SQLiteSubmissionRepository.begin
  rw [Program.ask_bind, Program.run_call, hbegin]
  rfl

/-- `COMMIT` at the head of a run, in a transaction. -/
theorem run_commit {α : Type} (hc : (choices 0).Served) (f : Option String → SqliteCall α) :
    (SQLiteSubmissionRepository.commit >>= f).run (serveSqlite strftime)
        ⟨choices, ⟨sq, some sq'⟩, clock⟩ =
      (f none).run (serveSqlite strftime) ⟨fun n => choices (n + 1), .idle sq', clock⟩ := by
  have hcommit : serveSqlite strftime .commit (choices 0) ⟨⟨sq, some sq'⟩, clock⟩
      = (none, ⟨.idle sq', clock⟩) := by
    unfold serveSqlite
    dsimp only
    rw [show (choices 0).fault = none from hc]
    rfl
  unfold SQLiteSubmissionRepository.commit
  rw [Program.ask_bind, Program.run_call, hcommit]
  rfl

/-- A transaction that is given up leaves what was committed before it. -/
theorem run_abandon (error : RepositoryError) :
    (SQLiteSubmissionRepository.abandon error).run (serveSqlite strftime)
        ⟨choices, ⟨sq, some sq'⟩, clock⟩ =
      (.ok (.error error), ⟨fun n => choices (n + 1), .idle sq, clock⟩) := rfl

/-- A retry that inserts nothing fails, and is rolled back. -/
theorem retry_nothing (hc : ∀ n, (choices n).Served)
    (h : (retryStatement limits id).exec (strftime clock) sq = none ∨
      (retryStatement limits id).exec (strftime clock) sq = some ([], sq)) :
    ∃ rest, (SQLiteSubmissionRepository.retry limits id admin).run (serveSqlite strftime)
        ⟨choices, .idle sq, clock⟩ =
      (.ok (.error { message := "Submission is not retryable or was already retried" }),
        ⟨rest, .idle sq, clock⟩) := by
  unfold SQLiteSubmissionRepository.retry
  rw [run_begin (hc 0)]
  dsimp only
  rw [run_step]
  dsimp only
  rcases h with h | h
  · rw [serveSqlite_open_rejected (hc 1) h]
    exact ⟨_, run_abandon _⟩
  · rw [serveSqlite_open (hc 1) h]
    exact ⟨_, run_abandon _⟩

/-- A retry that cannot be audited fails, and is rolled back. -/
theorem retry_unaudited {row : SqliteSubmissionRow} {record : SubmissionRecord}
    (hc : ∀ n, (choices n).Served)
    (hinsert : (retryStatement limits id).exec (strftime clock) sq = some ([row], sq'))
    (hrecord : SQLiteSubmissionRepository.readRecord row = .ok record)
    (haudit : (SqliteStatement.insertAudit admin "submission.retry" "submission" (toString id)
      (SQLiteSubmissionRepository.retryDetails record.id)).exec (strftime clock) sq' = none) :
    ∃ error rest, error.code = RepositoryErrorCode.internal ∧
      (SQLiteSubmissionRepository.retry limits id admin).run (serveSqlite strftime)
        ⟨choices, .idle sq, clock⟩ = (.ok (.error error), ⟨rest, .idle sq, clock⟩) := by
  unfold SQLiteSubmissionRepository.retry
  rw [run_begin (hc 0)]
  dsimp only
  rw [run_step]
  dsimp only
  rw [serveSqlite_open (hc 1) hinsert]
  dsimp only
  rw [hrecord]
  dsimp only
  rw [run_step]
  simp only [World.advance]
  rw [serveSqlite_open_rejected (hc 2) haudit]
  exact ⟨_, _, rfl, run_abandon _⟩

/-- A retry that is inserted and audited is committed. -/
theorem retry_committed {row : SqliteSubmissionRow} {record : SubmissionRecord}
    (hc : ∀ n, (choices n).Served)
    (hinsert : (retryStatement limits id).exec (strftime clock) sq = some ([row], sq'))
    (hrecord : SQLiteSubmissionRepository.readRecord row = .ok record)
    (haudit : (SqliteStatement.insertAudit admin "submission.retry" "submission" (toString id)
      (SQLiteSubmissionRepository.retryDetails record.id)).exec (strftime clock) sq'
        = some ([], sq'')) :
    ∃ rest, (SQLiteSubmissionRepository.retry limits id admin).run (serveSqlite strftime)
        ⟨choices, .idle sq, clock⟩ = (.ok (.ok record), ⟨rest, .idle sq'', clock⟩) := by
  unfold SQLiteSubmissionRepository.retry
  rw [run_begin (hc 0)]
  dsimp only
  rw [run_step]
  dsimp only
  rw [serveSqlite_open (hc 1) hinsert]
  dsimp only
  rw [hrecord]
  dsimp only
  rw [run_step]
  simp only [World.advance]
  rw [serveSqlite_open (hc 2) haudit]
  dsimp only
  rw [run_commit (hc 3)]
  exact ⟨_, rfl⟩

end transaction

/-! ## The member functions -/

section calls
variable {P : Platform} {strftime : Timestamp → String} {pairs : List (Int × Int)} {pg : Database}
  {sq : SqliteDatabase} {clock : Timestamp} {choices : Nat → Choice} {choices' : Nat → SqliteChoice}
  {i j : Int}

/-! ### Queries -/

/-- One row has the id on each side, or none has. -/
theorem find_matched (h : Same strftime pairs pg sq clock) (hid : SameId pairs i j)
    (hc : ∀ n, (choices n).Served) (hc' : ∀ n, (choices' n).Served) :
    Matched strftime pairs clock (fun pairs => SameResult (SameOption (SameRecord pairs)))
      ((PostgreSQLSubmissionRepository.find P i).run (serve P) ⟨choices, pg⟩)
      ((SQLiteSubmissionRepository.find j).run (serveSqlite strftime) ⟨choices', .idle sq, clock⟩) := by
  have hrows : List.Forall₂ (SameRow pairs) (pg.submissions.select (·.id == i))
      (sq.submissions.select (·.id == j)) :=
    h.submissions.select fun r s hrow => hid.beq_eq h.orderPreserving hrow.id
  have hexec : (SqliteStatement.selectSubmission j).exec (strftime clock) sq
      = some (sq.submissions.select (·.id == j), sq) := rfl
  unfold PostgreSQLSubmissionRepository.find SQLiteSubmissionRepository.find
  rw [run_execute, run_step, serveStatement_served (hc 0), serveSqlite_served (hc' 0) hexec]
  exact ⟨pairs, _, _, sq, fun _ hp => hp, rfl, rfl, optionalRecord_same hrows, rfl, h⟩

/-- Both sort by the time and then by the id, the latest first, which is the opposite of the order in which
    the submissions were created. -/
theorem history_matched (h : Same strftime pairs pg sq clock) (user : Int) {problem : String}
    (hproblem : '\x00' ∉ problem.toList) (hc : ∀ n, (choices n).Served)
    (hc' : ∀ n, (choices' n).Served) :
    Matched strftime pairs clock (fun pairs => SameResult (List.Forall₂ (SameRecord pairs)))
      ((PostgreSQLSubmissionRepository.history P user problem).run (serve P) ⟨choices, pg⟩)
      ((SQLiteSubmissionRepository.history user problem).run (serveSqlite strftime)
        ⟨choices', .idle sq, clock⟩) := by
  let p : SubmissionRow → Bool := fun r => r.userId == some user && r.problemId == problem
  let q : SqliteSubmissionRow → Bool := fun s => s.userId == some user && s.problemId == problem
  have hrows : List.Forall₂ (SameRow pairs) (pg.submissions.select p) (sq.submissions.select q) :=
    h.submissions.select fun r s hrow => by
      show (r.userId == some user && r.problemId == problem) =
        (s.userId == some user && s.problemId == problem)
      rw [hrow.userId, hrow.problemId]
  -- Both tables hold their rows in the order of creation, and the sorts reverse it.
  have hpg : orderBy newestFirst (pg.submissions.select p) = (pg.submissions.select p).reverse := by
    refine orderBy_eq_reverse ((h.pgOrder.filter _).imp fun {a b} hab => ?_)
    unfold newestFirst
    simp only [Bool.or_eq_false_iff, Bool.and_eq_false_iff, decide_eq_false_iff_not]
    exact ⟨Int.not_lt.mpr hab.2, Or.inr (Int.not_le.mpr hab.1)⟩
  have hsq : orderBy SqliteSubmissionRow.newestFirst (sq.submissions.select q)
      = (sq.submissions.select q).reverse := by
    refine orderBy_eq_reverse ((h.sqOrder.filter _).imp fun {a b} hab => ?_)
    unfold SqliteSubmissionRow.newestFirst
    simp only [Bool.or_eq_false_iff, Bool.and_eq_false_iff, decide_eq_false_iff_not]
    exact ⟨hab.2, Or.inr (Int.not_le.mpr hab.1)⟩
  have hexec : (SqliteStatement.selectHistory user problem).exec (strftime clock) sq
      = some ((sq.submissions.select q).reverse, sq) := by
    rw [← hsq]
    rfl
  have hexec' : ((Statement.selectHistory user problem).exec P (choices 0).message pg)
      = (pg, .tuples (pg.submissions.select p).reverse) := by
    rw [← hpg]
    rfl
  unfold PostgreSQLSubmissionRepository.history SQLiteSubmissionRepository.history
  rw [show text problem = problem from cStr_of_not_mem hproblem, run_execute, run_step,
    serveStatement_served (hc 0), serveSqlite_served (hc' 0) hexec, hexec']
  exact ⟨pairs, _, _, sq, fun _ hp => hp, rfl, rfl, records_same (List.rel_reverse hrows), rfl, h⟩

/-! ### Transitions -/

/-- Completing and failing: one guarded update of a running row. -/
theorem running_matched (h : Same strftime pairs pg sq clock) (hid : SameId pairs i j)
    {f : SubmissionRow → SubmissionRow} {g : SqliteSubmissionRow → SqliteSubmissionRow}
    {hf : ∀ r, runningRow i r = true → (f r).id = r.id}
    {hg : ∀ s : SqliteSubmissionRow, (s.id == j && s.status == "running") = true → (g s).id = s.id}
    (hfg : ∀ r s, SameRow pairs r s → runningRow i r = true → SameRow pairs (f r) (g s))
    (hf' : ∀ r, (f r).createdAt = r.createdAt) (hg' : ∀ s, (g s).createdAt = s.createdAt)
    (hcheck : ∀ r ∈ pg.submissions, runningRow i r = true → (f r).check = true) (operation : String) :
    ∃ rows sq', sq.updateSubmissions (fun s => s.id == j && s.status == "running") g hg
        = some (rows, sq') ∧
      SameResult (SameRecord pairs) (PostgreSQLSubmissionRepository.transition P operation
          (.tuples ((pg.submissions.select (runningRow i)).map f)))
        (SQLiteSubmissionRepository.transition (.rows rows)) ∧
      Same strftime pairs { pg with submissions := pg.submissions.update (runningRow i) f hf } sq'
        clock := by
  -- The guards agree on related rows: corresponding ids are equal alike, and the statuses are the same.
  have hpq : ∀ r s, SameRow pairs r s → r ∈ pg.submissions → s ∈ sq.submissions →
      runningRow i r = (s.id == j && s.status == "running") := fun r s hrow _ _ => by
    unfold runningRow
    rw [hid.beq_eq h.orderPreserving hrow.id, hrow.status]
  refine ⟨_, _, h.updateSubmissions_eq hpq hfg hcheck, transition_same (h.updated hpq hfg) ?_,
    h.update hpq hfg (fun r _ => hf' r) (fun s _ => hg' s) hcheck⟩
  rcases Table.select_cases (t := pg.submissions) (p := runningRow i) (k := i)
    (fun r hr => (runningRow_iff.mp hr).1) with hnone | ⟨r, -, -, hselect⟩
  · exact Or.inl (by rw [Table.select_eq_nil.mpr hnone]; rfl)
  · exact Or.inr ⟨f r, by rw [hselect]; rfl⟩

/-- `complete`, with an error type that reaches PostgreSQL as it is. -/
theorem complete_matched (h : Same strftime pairs pg sq clock) (hid : SameId pairs i j)
    (value : Verdict) {errorType : Option String} (herror : ∀ e ∈ errorType, '\x00' ∉ e.toList)
    (hc : ∀ n, (choices n).Served) (hc' : ∀ n, (choices' n).Served) :
    Matched strftime pairs clock (fun pairs => SameResult (SameRecord pairs))
      ((PostgreSQLSubmissionRepository.complete P i value errorType).run (serve P) ⟨choices, pg⟩)
      ((SQLiteSubmissionRepository.complete j value errorType).run (serveSqlite strftime)
        ⟨choices', .idle sq, clock⟩) := by
  have htext : errorType.map text = errorType := map_text herror
  obtain ⟨rows, sq', hexec, hresult, hsame⟩ := @running_matched P strftime pairs pg sq clock i j h hid
    (completedRow (verdictName value) errorType pg.clock)
    (fun s => { s with
      status := "completed", verdict := some (verdictName value), errorType := errorType,
      completedAt := some (strftime clock) })
    (fun _ _ => rfl) (fun _ _ => rfl)
    (fun r s hrow _ => { hrow with status := rfl, verdict := rfl, completedAt := rfl, errorType := rfl })
    (fun _ => rfl) (fun _ => rfl) (fun r _ _ => r.check_completed _ _ _) "Could not complete submission"
  have hexec' : (SqliteStatement.completeSubmission (verdictName value) errorType j).exec
      (strftime clock) sq = some (rows, sq') := hexec
  unfold PostgreSQLSubmissionRepository.complete SQLiteSubmissionRepository.complete
  rw [htext, run_execute, run_step, serveStatement_served (hc 0), exec_complete,
    serveSqlite_served (hc' 0) hexec']
  exact ⟨pairs, _, _, sq', fun _ hp => hp, rfl, rfl, hresult, rfl, hsame⟩

/-- `fail`. That the row passes its checks afterwards rests on its passing them before. -/
theorem fail_matched (h : Same strftime pairs pg sq clock) (hid : SameId pairs i j)
    {errorType : Option String} (herror : ∀ e ∈ errorType, '\x00' ∉ e.toList)
    (hc : ∀ n, (choices n).Served) (hc' : ∀ n, (choices' n).Served) :
    Matched strftime pairs clock (fun pairs => SameResult (SameRecord pairs))
      ((PostgreSQLSubmissionRepository.fail P i errorType).run (serve P) ⟨choices, pg⟩)
      ((SQLiteSubmissionRepository.fail j errorType).run (serveSqlite strftime)
        ⟨choices', .idle sq, clock⟩) := by
  have htext : errorType.map text = errorType := map_text herror
  obtain ⟨rows, sq', hexec, hresult, hsame⟩ := @running_matched P strftime pairs pg sq clock i j h hid
    (failedRow errorType pg.clock)
    (fun s => { s with
      status := "failed", errorType := errorType, completedAt := some (strftime clock) })
    (fun _ _ => rfl) (fun _ _ => rfl)
    (fun r s hrow _ => { hrow with status := rfl, completedAt := rfl, errorType := rfl })
    (fun _ => rfl) (fun _ => rfl)
    (fun r hr hp => r.check_failed (h.checked r hr) (runningRow_iff.mp hp).2 _ _)
    "Could not fail submission"
  have hexec' : (SqliteStatement.failSubmission errorType j).exec (strftime clock) sq
      = some (rows, sq') := hexec
  unfold PostgreSQLSubmissionRepository.fail SQLiteSubmissionRepository.fail
  rw [htext, run_execute, run_step, serveStatement_served (hc 0), exec_fail h.checked,
    serveSqlite_served (hc' 0) hexec']
  exact ⟨pairs, _, _, sq', fun _ hp => hp, rfl, rfl, hresult, rfl, hsame⟩

/-- `recover_running` updates every running row. PostgreSQL returns the ids and SQLite the number of changes,
    so what is compared are numbers. -/
theorem recoverRunning_matched (h : Same strftime pairs pg sq clock) (hc : ∀ n, (choices n).Served)
    (hc' : ∀ n, (choices' n).Served) :
    Matched strftime pairs clock (fun _ => SameResult Eq)
      (PostgreSQLSubmissionRepository.recoverRunning.run (serve P) ⟨choices, pg⟩)
      (SQLiteSubmissionRepository.recoverRunning.run (serveSqlite strftime)
        ⟨choices', .idle sq, clock⟩) := by
  let q : SqliteSubmissionRow → Bool := fun s => s.status == "running"
  let g : SqliteSubmissionRow → SqliteSubmissionRow := fun s => { s with status := "queued" }
  have hpq : ∀ r s, SameRow pairs r s → r ∈ pg.submissions → s ∈ sq.submissions →
      anyRunning r = q s := fun r s hrow _ _ => by
    show (r.status == "running") = (s.status == "running")
    rw [hrow.status]
  have hfg : ∀ r s, SameRow pairs r s → anyRunning r = true →
      SameRow pairs (recoveredRow r) (g s) := fun r s hrow _ => { hrow with status := rfl }
  have hcheck : ∀ r ∈ pg.submissions, anyRunning r = true → (recoveredRow r).check = true :=
    fun r hr hp => r.check_recovered (h.checked r hr) (anyRunning_iff.mp hp)
  have hupdate : sq.updateSubmissions q g (fun _ _ => rfl)
      = some ((sq.submissions.select q).map g,
        { sq with submissions := sq.submissions.update q g }) :=
    h.updateSubmissions_eq hpq hfg hcheck
  have hexec : SqliteStatement.recoverRunning.exec (strftime clock) sq
      = some ([((sq.submissions.select q).map g).length],
        { sq with submissions := sq.submissions.update q g }) := by
    show (sq.updateSubmissions q g fun _ _ => rfl).map _ = _
    rw [hupdate]
    rfl
  have hlength : ((sq.submissions.select q).map g).length
      = ((pg.submissions.select anyRunning).map (·.id)).length := by
    rw [List.length_map, List.length_map]
    exact (h.submissions.mem.select fun r s hrow =>
      hpq r s hrow.1 hrow.2.1 hrow.2.2).length_eq.symm
  unfold PostgreSQLSubmissionRepository.recoverRunning SQLiteSubmissionRepository.recoverRunning
  rw [run_execute, run_step, serveStatement_served (hc 0), exec_recover h.checked,
    serveSqlite_served (hc' 0) hexec]
  exact ⟨pairs, _, _, _, fun _ hp => hp, rfl, rfl, .ok hlength.symm, rfl,
    h.update hpq hfg (fun _ _ => rfl) (fun _ _ => rfl) hcheck⟩

/-! ### Claims -/

/-- Both take the first queued submission whose owner is below the limit. -/
theorem candidate_same (h : Same strftime pairs pg sq clock) (limit : Int) {l : Int → Bool}
    (hl : ∀ id, l id = false) :
    SameOption (SameRow pairs) (pg.candidate limit l) (sq.candidate limit) := by
  let p : SubmissionRow → Bool := fun r =>
    r.status == "queued" && decide ((pg.runningOf r.userId : Int) < limit)
  let q : SqliteSubmissionRow → Bool := fun s =>
    s.status == "queued" && decide ((sq.runningOf s.userId : Int) < limit)
  have hrows : List.Forall₂ (SameRow pairs) (pg.submissions.select p) (sq.submissions.select q) :=
    h.submissions.select fun r s hrow => by
      show (r.status == "queued" && decide ((pg.runningOf r.userId : Int) < limit)) =
        (s.status == "queued" && decide ((sq.runningOf s.userId : Int) < limit))
      rw [h.runningOf_eq, hrow.status, hrow.userId]
  -- The rows are in the order of their ids already.
  have hpg : orderBy (fun a b => decide (a.id ≤ b.id)) (pg.submissions.select p)
      = pg.submissions.select p :=
    orderBy_eq_self ((h.pgOrder.filter _).imp fun hab => decide_eq_true (Int.le_of_lt hab.1))
  have hsq : orderBy (fun a b => decide (a.id ≤ b.id)) (sq.submissions.select q)
      = sq.submissions.select q :=
    orderBy_eq_self ((h.sqOrder.filter _).imp fun hab => decide_eq_true (Int.le_of_lt hab.1))
  show SameOption _ ((orderBy _ (pg.submissions.select p)).find? fun r => !l r.id)
    (orderBy _ (sq.submissions.select q)).head?
  rw [hpg, hsq]
  generalize pg.submissions.select p = rows at hrows
  generalize sq.submissions.select q = rows' at hrows
  cases hrows with
  | nil => exact .none
  | @cons r s rest rest' hrow _ =>
      -- `SKIP LOCKED` skips nothing, since no row is locked.
      rw [List.find?_cons_of_pos (by rw [hl]; rfl)]
      exact .some hrow

/-- PostgreSQL replaces the row it claimed by its id, which comes to the guarded update. -/
theorem put_claimed {t : Table SubmissionRow} {r : SubmissionRow} (hr : r ∈ t)
    (hqueued : r.status = "queued") :
    t.put (claimedRow r) = t.update (fun x => x.id == r.id && x.status == "queued") claimedRow := by
  apply Table.ext_rows
  refine List.map_congr_left fun x hx => ?_
  by_cases hid : x.id = r.id
  · obtain rfl : x = r := Table.eq_of_key hx hr hid
    have hsame : decide (Keyed.key x = Keyed.key (claimedRow x)) = true := decide_eq_true rfl
    have htaken : (x.id == x.id && x.status == "queued") = true := by
      rw [hqueued, Bool.and_eq_true]
      exact ⟨beq_self_eq_true _, beq_self_eq_true _⟩
    dsimp only
    rw [if_pos hsame, if_pos htaken]
  · have hother : ¬ decide (Keyed.key x = Keyed.key (claimedRow r)) = true :=
      fun h => hid (of_decide_eq_true h)
    have hleft : ¬ (x.id == r.id && x.status == "queued") = true :=
      fun h => hid (eq_of_beq (Bool.and_eq_true_iff.mp h).1)
    dsimp only
    rw [if_neg hother, if_neg hleft]

/-- `claim_next`. SQLite updates the row of the id that its subquery found, if it is still queued; PostgreSQL
    updates the row that it has locked. -/
theorem claimNext_matched (h : Same strftime pairs pg sq clock) (limits : PostgreSQLRepositoryLimits)
    (hc : ∀ n, (choices n).Served) (hc' : ∀ n, (choices' n).Served) :
    Matched strftime pairs clock (fun pairs => SameResult (SameOption (SameRecord pairs)))
      ((PostgreSQLSubmissionRepository.claimNext P limits).run (serve P) ⟨choices, pg⟩)
      ((SQLiteSubmissionRepository.claimNext limits).run (serveSqlite strftime)
        ⟨choices', .idle sq, clock⟩) := by
  let limit : Int := limits.maximumRunningSubmissionsPerUser
  have hplan := @plan_claim (choices 0).lockedRows pg h.checked limit
  have hcandidate := candidate_same h limit (hc 0).2
  unfold PostgreSQLSubmissionRepository.claimNext SQLiteSubmissionRepository.claimNext
  rw [run_executeLocked, run_step]
  cases hr : pg.candidate limit (choices 0).lockedRows with
  | none =>
      have hserve : serveLocked (.claimSubmission limit) (choices 0) pg = (.tuples [], pg) := by
        unfold serveLocked
        rw [(hc 0).1, hplan, hr]
        rfl
      rw [hr] at hcandidate
      rw [hserve]
      cases hs : sq.candidate limit with
      | some s => rw [hs] at hcandidate; cases hcandidate
      | none =>
          have hexec : (SqliteStatement.claimSubmission limit).exec (strftime clock) sq
              = some ([], sq) := by
            simp only [SqliteStatement.exec, hs]
          rw [serveSqlite_served (hc' 0) hexec]
          exact ⟨pairs, _, _, sq, fun _ hp => hp, rfl, rfl, optionalRecord_same .nil, rfl, h⟩
  | some r =>
      have hserve : serveLocked (.claimSubmission limit) (choices 0) pg =
          (.tuples [claimedRow r], Changes.apply ⟨none, some (claimedRow r), none⟩ pg) := by
        unfold serveLocked
        rw [(hc 0).1, hplan, hr]
      rw [hr] at hcandidate
      rw [hserve]
      cases hs : sq.candidate limit with
      | none => rw [hs] at hcandidate; cases hcandidate
      | some s =>
          rw [hs] at hcandidate
          cases hcandidate with
          | some hrow =>
              obtain ⟨hmem, hqueued, -⟩ := candidate_some hr
              -- Both updates as guarded ones, so that the lemmas about these apply.
              let p : SubmissionRow → Bool := fun x => x.id == r.id && x.status == "queued"
              let q : SqliteSubmissionRow → Bool := fun y => y.id == s.id && y.status == "queued"
              let g : SqliteSubmissionRow → SqliteSubmissionRow := fun y =>
                { y with status := "running" }
              have hpq : ∀ x y, SameRow pairs x y → x ∈ pg.submissions → y ∈ sq.submissions →
                  p x = q y := fun x y hxy _ _ => by
                show (x.id == r.id && x.status == "queued") = (y.id == s.id && y.status == "queued")
                rw [SameId.beq_eq (Or.inl hrow.id) h.orderPreserving hxy.id, hxy.status]
              have hfg : ∀ x y, SameRow pairs x y → p x = true → SameRow pairs (claimedRow x) (g y) :=
                fun x y hxy _ => { hxy with status := rfl }
              have hcheck : ∀ x ∈ pg.submissions, p x = true → (claimedRow x).check = true := by
                intro x hx hp
                have hstatus : x.status = "queued" := eq_of_beq (Bool.and_eq_true_iff.mp hp).2
                exact x.check_claimed (h.checked x hx) hstatus
              have hselect : pg.submissions.select p = [r] := by
                refine Table.select_eq_singleton hmem ?_ fun x _ hp =>
                  eq_of_beq (Bool.and_eq_true_iff.mp hp).1
                show (r.id == r.id && r.status == "queued") = true
                rw [hqueued, Bool.and_eq_true]
                exact ⟨beq_self_eq_true _, beq_self_eq_true _⟩
              have hupdate : sq.updateSubmissions q g (fun _ _ => rfl)
                  = some ((sq.submissions.select q).map g,
                    { sq with submissions := sq.submissions.update q g }) :=
                h.updateSubmissions_eq hpq hfg hcheck
              have hexec : (SqliteStatement.claimSubmission limit).exec (strftime clock) sq
                  = some ((sq.submissions.select q).map g,
                    { sq with submissions := sq.submissions.update q g }) := by
                simp only [SqliteStatement.exec, hs]
                exact hupdate
              have hrows : List.Forall₂ (SameRow pairs) [claimedRow r]
                  ((sq.submissions.select q).map g) := by
                have hupdated := h.updated hpq hfg
                rw [hselect] at hupdated
                exact hupdated
              have hsame : Same strftime pairs
                  { pg with submissions := pg.submissions.update p claimedRow }
                  { sq with submissions := sq.submissions.update q g } clock :=
                h.update hpq hfg (fun _ _ => rfl) (fun _ _ => rfl) hcheck
              rw [serveSqlite_served (hc' 0) hexec]
              refine ⟨pairs, _, _, _, fun _ hp => hp, rfl, rfl, optionalRecord_same hrows, rfl, ?_⟩
              show Same strftime pairs
                { pg with submissions := pg.submissions.put (claimedRow r) } _ clock
              rw [put_claimed hmem hqueued]
              exact hsame

/-! ### Insertions -/

/-- A new submission breaks no constraint but that its user, and the admin of its audit row, must exist. -/
theorem Same.planInsert (h : Same strftime pairs pg sq clock) {row : SubmissionRow}
    {audited : Option AuditRow} (hid : row.id = pg.sequences.submissions) (hcheck : row.check = true)
    (hretry : ∀ r ∈ pg.submissions, row.retryOf.isSome = true → r.retryOf ≠ row.retryOf)
    (haudit : ∀ a ∈ audited, a.id = pg.sequences.adminAuditLog) :
    pg.planInsert row audited =
      if row.userId.all pg.hasUser && audited.all fun a => pg.hasUser a.adminUserId then
        .ok (⟨some row, none, audited⟩, [row])
      else .error .foreignKeyViolation := by
  have hrows : pg.submissions.count (fun r => r.id == row.id
      || (row.retryOf.isSome && r.retryOf == row.retryOf)) = 0 := by
    refine Table.count_eq_zero.mpr fun r hr => ?_
    rw [Bool.or_eq_false_iff, Bool.and_eq_false_iff]
    refine ⟨beq_false_of_ne (hid ▸ Int.ne_of_lt (h.pgNext r hr).1), ?_⟩
    cases hof : row.retryOf.isSome with
    | false => exact Or.inl rfl
    | true => exact Or.inr (beq_false_of_ne (hretry r hr hof))
  have haudits : audited.any (fun a => pg.adminAuditLog.count (·.id == a.id) ≠ 0) = false := by
    cases haudited : audited with
    | none => rfl
    | some a =>
        have hcount : pg.adminAuditLog.count (·.id == a.id) = 0 :=
          Table.count_eq_zero.mpr fun x hx =>
            beq_false_of_ne (haudit a haudited ▸ Int.ne_of_lt (h.pgAudit x hx))
        show decide (pg.adminAuditLog.count (·.id == a.id) ≠ 0) = false
        rw [hcount]
        rfl
  unfold Database.planInsert
  rw [hcheck, hrows, haudits]
  cases hkeys : row.userId.all pg.hasUser && audited.all fun a => pg.hasUser a.adminUserId <;> rfl

/-- The same for SQLite, whose next id is not in use either. -/
theorem Same.insertSubmission (h : Same strftime pairs pg sq clock) {row : SqliteSubmissionRow}
    (hid : row.id = sq.nextSubmission) (hcheck : row.check = true)
    (hretry : ∀ s ∈ sq.submissions, row.retryOf.isSome = true → s.retryOf ≠ row.retryOf) :
    sq.insertSubmission row =
      if row.userId.all fun user => sq.userIds.contains user then
        some ([row], { sq with
          submissions := sq.submissions.insert row, nextSubmission := sq.nextSubmission + 1 })
      else none := by
  have hrows : sq.submissions.count (fun s => s.id == row.id
      || (row.retryOf.isSome && s.retryOf == row.retryOf)) = 0 := by
    refine Table.count_eq_zero.mpr fun s hs => ?_
    rw [Bool.or_eq_false_iff, Bool.and_eq_false_iff]
    refine ⟨beq_false_of_ne (hid ▸ Int.ne_of_lt (h.sqNext s hs).1), ?_⟩
    cases hof : row.retryOf.isSome with
    | false => exact Or.inl rfl
    | true => exact Or.inr (beq_false_of_ne (hretry s hs hof))
  unfold SqliteDatabase.insertSubmission
  rw [hcheck, hrows]
  cases row.userId.all fun user => sq.userIds.contains user <;> rfl

/-- The users of corresponding rows exist on both sides, or on neither. -/
theorem Same.userId_eq (h : Same strftime pairs pg sq clock) (user : Option Int) :
    (user.all fun id => sq.userIds.contains id) = user.all pg.hasUser := by
  cases user with
  | none => rfl
  | some id => exact (h.users id).symm

/-- `create`, with texts that reach PostgreSQL as they are. Without room both count the active submissions
    again and answer with the same code; with room the insert goes through if the user exists. -/
theorem create_matched (h : Same strftime pairs pg sq clock) (hstrftime : Chronological strftime)
    (limits : PostgreSQLRepositoryLimits) {request : SubmissionRequest}
    (hproblem : '\x00' ∉ request.problemId.toList) (hlanguage : '\x00' ∉ request.language.toList)
    (hcode : '\x00' ∉ request.code.toList) (hc : ∀ n, (choices n).Served)
    (hc' : ∀ n, (choices' n).Served) :
    Matched strftime pairs clock (fun pairs => SameResult (SameRecord pairs))
      ((PostgreSQLSubmissionRepository.create P limits request).run (serve P) ⟨choices, pg⟩)
      ((SQLiteSubmissionRepository.create limits request).run (serveSqlite strftime)
        ⟨choices', .idle sq, clock⟩) := by
  let row : SubmissionRow := ⟨pg.sequences.submissions, request.problemId, request.language,
    request.code, "queued", none, pg.clock, none, request.userId, none, none⟩
  let row' : SqliteSubmissionRow := ⟨sq.nextSubmission, request.problemId, request.language,
    request.code, "queued", none, strftime clock, none, request.userId, none, none⟩
  let maximum : Int := limits.maximumActiveSubmissions
  let maximumPerUser : Int := limits.maximumActiveSubmissionsPerUser
  let inserted : LockedStatement := .insertSubmission request.problemId request.language request.code
    request.userId maximum maximumPerUser
  let inserted' : SqliteStatement := .insertSubmission request.problemId request.language
    request.code request.userId maximum maximumPerUser
  have hcheck : row.check = true := check_queued rfl rfl rfl
  have hcheck' : row'.check = true := hcheck
  have hplanned : pg.planInsert row none = if row.userId.all pg.hasUser && true then
      .ok (⟨some row, none, none⟩, [row]) else .error .foreignKeyViolation :=
    h.planInsert rfl hcheck (fun r _ hof => by cases hof) fun a ha => by cases ha
  have hinserted : sq.insertSubmission row' = if row'.userId.all fun user => sq.userIds.contains user then
      some ([row'], { sq with
        submissions := sq.submissions.insert row', nextSubmission := sq.nextSubmission + 1 })
      else none :=
    h.insertSubmission rfl hcheck' fun s _ hof => by cases hof
  rw [show row'.userId = request.userId from rfl, h.userId_eq] at hinserted
  unfold PostgreSQLSubmissionRepository.create SQLiteSubmissionRepository.create
  rw [show text request.problemId = request.problemId from cStr_of_not_mem hproblem,
    show text request.language = request.language from cStr_of_not_mem hlanguage,
    show text request.code = request.code from cStr_of_not_mem hcode, run_executeLocked, run_step]
  cases hroom : pg.admits request.userId maximum maximumPerUser with
  | false =>
      have hserve : serveLocked inserted (choices 0) pg = (.tuples [], pg) := by
        unfold serveLocked
        rw [(hc 0).1]
        simp only [inserted, LockedStatement.plan, hroom]
        rfl
      have hexec : inserted'.exec (strftime clock) sq = some ([], sq) := by
        simp only [inserted', SqliteStatement.exec, h.admits_eq, hroom]
        rfl
      have hcount : (SqliteStatement.countActive request.userId).exec (strftime clock) sq
          = some ([sq.activeOf request.userId], sq) := rfl
      rw [hserve, serveSqlite_served (hc' 0) hexec]
      dsimp only
      rw [run_execute, run_step]
      simp only [World.advance]
      rw [serveStatement_served (hc 1), serveSqlite_served (hc' 1) hcount]
      refine ⟨pairs, _, _, sq, fun _ hp => hp, rfl, rfl, .error ?_, rfl, h⟩
      show (SQLiteSubmissionRepository.admissionError limits (.rows [sq.activeOf request.userId])).code =
        (PostgreSQLSubmissionRepository.admissionError limits
          (.tuples [pg.activeOf request.userId])).code
      rw [h.activeOf_eq]
      rfl
  | true =>
      have hserve : serveLocked inserted (choices 0) pg =
          if request.userId.all pg.hasUser && true then
            (.tuples [row], Changes.apply ⟨some row, none, none⟩ pg.nextSubmissionId)
          else (.failed .foreignKeyViolation (choices 0).message, pg.nextSubmissionId) := by
        unfold serveLocked
        rw [(hc 0).1]
        simp only [inserted, LockedStatement.plan, hroom, if_true]
        rw [show pg.planInsert ⟨pg.sequences.submissions, request.problemId, request.language,
          request.code, "queued", none, pg.clock, none, request.userId, none, none⟩ none = _ from
          hplanned]
        cases request.userId.all pg.hasUser && true <;> rfl
      have hexec : inserted'.exec (strftime clock) sq = sq.insertSubmission row' := by
        simp only [inserted', SqliteStatement.exec, h.admits_eq, hroom, if_true, row']
      rw [hserve]
      cases huser : request.userId.all pg.hasUser with
      | false =>
          -- The sequence of PostgreSQL has moved although nothing was inserted.
          rw [huser] at hinserted
          have hrejected : inserted'.exec (strftime clock) sq = none := hexec.trans hinserted
          rw [serveSqlite_rejected (hc' 0) hrejected]
          refine ⟨pairs, _, _, sq, fun _ hp => hp, rfl, rfl, .error rfl, rfl, ?_⟩
          exact h.draw (by show pg.sequences.submissions ≤ pg.sequences.submissions + 1; omega)
            (Int.le_refl _)
      | true =>
          rw [huser] at hinserted
          have hrow : SameRow (pairs ++ [(row.id, row'.id)]) row row' :=
            ⟨List.mem_append_right _ List.mem_cons_self, rfl, rfl, rfl, rfl, rfl, rfl, rfl, rfl,
              trivial⟩
          rw [serveSqlite_served (hc' 0) (hexec.trans hinserted)]
          exact ⟨_, _, _, _, fun _ hp => List.mem_append_left _ hp, rfl, rfl, hrow.record P, rfl,
            h.insert rfl rfl rfl rfl hstrftime hcheck hrow⟩

/-- A retry of a corresponding submission corresponds. -/
theorem SameRetry.beq_eq {x y : Option Int} (h : SameRetry pairs x y) (hpairs : OrderPreserving pairs)
    (hid : SameId pairs i j) : (x == some i) = (y == some j) := by
  cases x with
  | none =>
      cases y with
      | none => rfl
      | some y => cases h
  | some x =>
      cases y with
      | none => cases h
      | some y =>
          have hbeq : (x == i) = (y == j) := hid.beq_eq hpairs h
          show (some x == some i) = (some y == some j)
          rw [Option.some_beq_some, Option.some_beq_some, hbeq]

/-- A queued submission reads back under its id. -/
theorem readRecord_queued {row : SqliteSubmissionRow} (hstatus : row.status = "queued")
    (hverdict : row.verdict = none) :
    ∃ record, SQLiteSubmissionRepository.readRecord row = .ok record ∧ record.id = row.id := by
  unfold SQLiteSubmissionRepository.readRecord
  rw [hstatus, hverdict]
  exact ⟨_, rfl, rfl⟩

/-- The audit row of a retry breaks no constraint but that its admin must exist. -/
theorem Same.exec_insertAudit (h : Same strftime pairs pg sq clock) {admin : Int} {known : Bool}
    (hadmin : pg.hasUser admin = known) (action type entity details now : String) :
    (SqliteStatement.insertAudit admin action type entity details).exec now sq =
      if known then
        some ([], { sq with
          adminAuditLog := sq.adminAuditLog.insert
            ⟨sq.nextAudit, admin, action, type, entity, details, now⟩
          nextAudit := sq.nextAudit + 1 })
      else none := by
  have hcount : sq.adminAuditLog.count (·.id == sq.nextAudit) = 0 :=
    Table.count_eq_zero.mpr fun b hb => beq_false_of_ne (Int.ne_of_lt (h.sqAudit b hb))
  show (if sq.adminAuditLog.count (·.id == sq.nextAudit) ≠ 0 then none else _) = _
  rw [hcount, if_neg (fun hne => hne rfl), ← h.users, hadmin]

/-- The submission that a retry inserts in SQLite. -/
def SqliteSubmissionRow.retried (sq : SqliteDatabase) (now : String) (original : SqliteSubmissionRow) :
    SqliteSubmissionRow :=
  ⟨sq.nextSubmission, original.problemId, original.language, original.sourceCode, "queued", none, now,
    none, original.userId, none, some original.id⟩

/-- A retry that is admitted: it goes through if its user and its admin exist, and else neither version
    keeps anything of it. -/
theorem retry_admitted (h : Same strftime pairs pg sq clock) (hstrftime : Chronological strftime)
    {limits : PostgreSQLRepositoryLimits} {admin : Int} {original : SubmissionRow}
    {original' : SqliteSubmissionRow} (hrow : SameRow pairs original original')
    (hfresh : ∀ r ∈ pg.submissions, r.retryOf ≠ some original.id)
    (hfresh' : ∀ s ∈ sq.submissions, s.retryOf ≠ some original'.id) (hc : ∀ n, (choices n).Served)
    (hc' : ∀ n, (choices' n).Served)
    (hplan : (LockedStatement.retrySubmission original.id limits.maximumActiveSubmissions
        limits.maximumActiveSubmissionsPerUser admin).plan (choices 0).lockedRows pg =
      (pg.nextSubmissionId.nextAuditId,
        pg.planInsert (retriedRow pg original) (some (retryAudit pg original.id admin))))
    (hexec : (retryStatement limits original'.id).exec (strftime clock) sq =
      sq.insertSubmission (.retried sq (strftime clock) original')) :
    Matched strftime pairs clock (fun pairs => SameResult (SameRecord pairs))
      ((PostgreSQLSubmissionRepository.retry P limits original.id admin).run (serve P) ⟨choices, pg⟩)
      ((SQLiteSubmissionRepository.retry limits original'.id admin).run (serveSqlite strftime)
        ⟨choices', .idle sq, clock⟩) := by
  let row := retriedRow pg original
  let row' := SqliteSubmissionRow.retried sq (strftime clock) original'
  let audited := retryAudit pg original.id admin
  have hcheck : row.check = true := check_queued rfl rfl rfl
  have hcheck' : row'.check = true := hcheck
  have hplanned : pg.planInsert row (some audited) =
      if original.userId.all pg.hasUser && pg.hasUser admin then
        .ok (⟨some row, none, some audited⟩, [row])
      else .error .foreignKeyViolation := by
    refine h.planInsert rfl hcheck (fun r hr _ => hfresh r hr) fun a ha => ?_
    cases ha
    rfl
  have hinserted : sq.insertSubmission row' = if original.userId.all pg.hasUser then
      some ([row'], { sq with
        submissions := sq.submissions.insert row', nextSubmission := sq.nextSubmission + 1 })
      else none := by
    rw [← h.userId_eq, ← hrow.userId]
    exact h.insertSubmission rfl hcheck' fun s hs _ => hfresh' s hs
  have hdrawn : Same strftime pairs pg.nextSubmissionId.nextAuditId sq clock :=
    h.draw (by show pg.sequences.submissions ≤ pg.sequences.submissions + 1; omega)
      (by show pg.sequences.adminAuditLog ≤ pg.sequences.adminAuditLog + 1; omega)
  unfold PostgreSQLSubmissionRepository.retry
  rw [run_executeLocked]
  dsimp only
  unfold serveLocked
  rw [(hc 0).1, hplan]
  rw [show pg.planInsert (retriedRow pg original) (some (retryAudit pg original.id admin)) = _ from
    hplanned]
  cases huser : original.userId.all pg.hasUser with
  | false =>
      rw [huser] at hinserted
      obtain ⟨rest, hrun⟩ := @retry_nothing strftime clock choices' sq limits original'.id admin hc'
        (Or.inl (hexec.trans hinserted))
      rw [hrun]
      exact ⟨pairs, _, _, sq, fun _ hp => hp, rfl, rfl, .error rfl, rfl, hdrawn⟩
  | true =>
      rw [huser] at hinserted
      obtain ⟨record, hrecord, hid⟩ := @readRecord_queued row' rfl rfl
      have hnew : SameRow (pairs ++ [(row.id, row'.id)]) row row' :=
        ⟨List.mem_append_right _ List.mem_cons_self, hrow.problemId, hrow.language, hrow.sourceCode, rfl,
          rfl, rfl, hrow.userId, rfl, List.mem_append_left _ hrow.id⟩
      have hsame := h.insert rfl rfl rfl rfl hstrftime hcheck hnew
      have hinsert : (retryStatement limits original'.id).exec (strftime clock) sq
          = some ([row'], { sq with
            submissions := sq.submissions.insert row', nextSubmission := sq.nextSubmission + 1 }) :=
        hexec.trans hinserted
      cases hadmin : pg.hasUser admin with
      | false =>
          -- SQLite has inserted the submission already, and its transaction is rolled back.
          have haudit := hsame.exec_insertAudit hadmin "submission.retry" "submission"
            (toString original'.id) (SQLiteSubmissionRepository.retryDetails record.id) (strftime clock)
          obtain ⟨error, rest, hcode, hrun⟩ := retry_unaudited hc' hinsert hrecord haudit
          rw [hrun]
          exact ⟨pairs, _, _, sq, fun _ hp => hp, rfl, rfl, .error hcode, rfl, hdrawn⟩
      | true =>
          have haudit := hsame.exec_insertAudit hadmin "submission.retry" "submission"
            (toString original'.id) (SQLiteSubmissionRepository.retryDetails record.id) (strftime clock)
          obtain ⟨rest, hrun⟩ := retry_committed hc' hinsert hrecord haudit
          rw [hrun]
          have hrecords := hnew.record P
          rw [hrecord] at hrecords
          refine ⟨pairs ++ [(row.id, row'.id)], _, _, _, fun _ hp => List.mem_append_left _ hp, rfl, rfl,
            hrecords, rfl, ?_⟩
          refine hsame.audit rfl rfl ⟨rfl, rfl, rfl, ?_, ?_⟩
          · exact ⟨_, List.mem_append_left _ hrow.id, rfl, rfl⟩
          · exact ⟨_, List.mem_append_right _ List.mem_cons_self, rfl, by rw [hid]⟩

/-! The statement of a retry inserts something if it selects the submission, no retry of it is there yet, and
there is room; the versions select the same submission and have the same room. -/

/-- The submission is selected by the statement of its retry. -/
def SubmissionRow.retriable (id : Int) (r : SubmissionRow) : Bool :=
  r.id == id && (r.status == "failed" || r.verdict == some "Runtime Error")

def SqliteSubmissionRow.retriable (id : Int) (s : SqliteSubmissionRow) : Bool :=
  s.id == id && (s.status == "failed" || s.verdict == some "Runtime Error")

/-- There is no retry of the submission yet, and its user may have another active submission. -/
def Database.RoomForRetry (db : Database) (limits : PostgreSQLRepositoryLimits) (id : Int)
    (original : SubmissionRow) : Prop :=
  db.submissions.count (·.retryOf == some id) = 0 ∧
    db.admits original.userId limits.maximumActiveSubmissions limits.maximumActiveSubmissionsPerUser = true

def SqliteDatabase.RoomForRetry (db : SqliteDatabase) (limits : PostgreSQLRepositoryLimits) (id : Int)
    (original : SqliteSubmissionRow) : Prop :=
  db.submissions.count (·.retryOf == some id) = 0 ∧
    db.admits original.userId limits.maximumActiveSubmissions limits.maximumActiveSubmissionsPerUser = true

section retries
variable {limits : PostgreSQLRepositoryLimits} {admin : Int} {original : SubmissionRow}
  {original' : SqliteSubmissionRow} {rest : List SubmissionRow} {rest' : List SqliteSubmissionRow}

/-- PostgreSQL inserts no retry without room. -/
theorem serveLocked_retry_refused {c : Choice} (hc : c.failure = none)
    (h : ∀ original rest, pg.submissions.select (SubmissionRow.retriable i) = original :: rest →
      ¬ pg.RoomForRetry limits i original) :
    serveLocked (.retrySubmission i limits.maximumActiveSubmissions limits.maximumActiveSubmissionsPerUser
      admin) c pg = (.tuples [], pg) := by
  have hplan : (LockedStatement.retrySubmission i limits.maximumActiveSubmissions
      limits.maximumActiveSubmissionsPerUser admin).plan c.lockedRows pg = (pg, .ok (.empty, [])) := by
    simp only [LockedStatement.plan]
    split
    · rename_i original rest hselect
      exact if_neg (h original rest hselect)
    · rfl
  unfold serveLocked
  rw [hc, hplan]
  rfl

/-- With room, the retry and its audit row are planned. -/
theorem plan_retry_admitted {lockedRows : Int → Bool}
    (hselect : pg.submissions.select (SubmissionRow.retriable i) = original :: rest)
    (hroom : pg.RoomForRetry limits i original) :
    (LockedStatement.retrySubmission i limits.maximumActiveSubmissions limits.maximumActiveSubmissionsPerUser
        admin).plan lockedRows pg =
      (pg.nextSubmissionId.nextAuditId,
        pg.planInsert (retriedRow pg original) (some (retryAudit pg i admin))) := by
  simp only [LockedStatement.plan]
  rw [show pg.submissions.select (fun r => r.id == i
    && (r.status == "failed" || r.verdict == some "Runtime Error")) = original :: rest from hselect]
  exact if_pos hroom

/-- SQLite inserts no retry without room. -/
theorem exec_retry_refused
    (h : ∀ original rest, sq.submissions.select (SqliteSubmissionRow.retriable j) = original :: rest →
      ¬ sq.RoomForRetry limits j original) :
    (retryStatement limits j).exec (strftime clock) sq = some ([], sq) := by
  simp only [SqliteStatement.exec]
  split
  · rename_i original rest hselect
    exact if_neg (h original rest hselect)
  · rfl

/-- With room, SQLite inserts the retry. -/
theorem exec_retry_admitted
    (hselect : sq.submissions.select (SqliteSubmissionRow.retriable j) = original' :: rest')
    (hroom : sq.RoomForRetry limits j original') :
    (retryStatement limits j).exec (strftime clock) sq =
      sq.insertSubmission (.retried sq (strftime clock) original') := by
  simp only [SqliteStatement.exec]
  rw [show sq.submissions.select (fun s => s.id == j
    && (s.status == "failed" || s.verdict == some "Runtime Error")) = original' :: rest' from hselect]
  exact if_pos hroom

/-- The versions select related submissions for a retry. -/
theorem Same.select_retriable (h : Same strftime pairs pg sq clock) (hid : SameId pairs i j) :
    List.Forall₂ (SameRow pairs) (pg.submissions.select (SubmissionRow.retriable i))
      (sq.submissions.select (SqliteSubmissionRow.retriable j)) := by
  have hrows := h.submissions.mem.select (p := SubmissionRow.retriable i)
    (q := SqliteSubmissionRow.retriable j) fun r s hrow => by
      show (r.id == i && (r.status == "failed" || r.verdict == some "Runtime Error")) =
        (s.id == j && (s.status == "failed" || s.verdict == some "Runtime Error"))
      rw [hid.beq_eq h.orderPreserving hrow.1.id, hrow.1.status, hrow.1.verdict]
  exact hrows.imp fun _ _ hrow => hrow.1

/-- The versions have room for a retry alike. -/
theorem Same.roomForRetry_iff (h : Same strftime pairs pg sq clock) (hid : SameId pairs i j)
    (hrow : SameRow pairs original original') :
    sq.RoomForRetry limits j original' ↔ pg.RoomForRetry limits i original := by
  have hcount : sq.submissions.count (·.retryOf == some j) = pg.submissions.count (·.retryOf == some i) :=
    (h.submissions.count fun r s hrow => hrow.retryOf.beq_eq h.orderPreserving hid).symm
  unfold SqliteDatabase.RoomForRetry Database.RoomForRetry
  rw [hcount, h.admits_eq, hrow.userId]

/-- Where nothing is inserted, both versions answer that the submission cannot be retried. -/
theorem retry_refused (h : Same strftime pairs pg sq clock) (hc' : ∀ n, (choices' n).Served)
    (hserve : serveLocked (.retrySubmission i limits.maximumActiveSubmissions
      limits.maximumActiveSubmissionsPerUser admin) (choices 0) pg = (.tuples [], pg))
    (hexec : (retryStatement limits j).exec (strftime clock) sq = some ([], sq)) :
    Matched strftime pairs clock (fun pairs => SameResult (SameRecord pairs))
      ((PostgreSQLSubmissionRepository.retry P limits i admin).run (serve P) ⟨choices, pg⟩)
      ((SQLiteSubmissionRepository.retry limits j admin).run (serveSqlite strftime)
        ⟨choices', .idle sq, clock⟩) := by
  obtain ⟨rest, hrun⟩ := @retry_nothing strftime clock choices' sq limits j admin hc' (Or.inr hexec)
  unfold PostgreSQLSubmissionRepository.retry
  rw [run_executeLocked, hserve, hrun]
  exact ⟨pairs, _, _, sq, fun _ hp => hp, rfl, rfl, .error rfl, rfl, h⟩

end retries

/-- `retry`: both select the same submission and have the same room for it. -/
theorem retry_matched (h : Same strftime pairs pg sq clock) (hstrftime : Chronological strftime)
    (hid : SameId pairs i j) (limits : PostgreSQLRepositoryLimits) (admin : Int)
    (hc : ∀ n, (choices n).Served) (hc' : ∀ n, (choices' n).Served) :
    Matched strftime pairs clock (fun pairs => SameResult (SameRecord pairs))
      ((PostgreSQLSubmissionRepository.retry P limits i admin).run (serve P) ⟨choices, pg⟩)
      ((SQLiteSubmissionRepository.retry limits j admin).run (serveSqlite strftime)
        ⟨choices', .idle sq, clock⟩) := by
  have hrows := h.select_retriable hid
  cases hpg : pg.submissions.select (SubmissionRow.retriable i) with
  | nil =>
      have hsq := List.forall₂_nil_left_iff.mp (hpg ▸ hrows)
      refine retry_refused h hc' (serveLocked_retry_refused (hc 0).1 ?_) (exec_retry_refused ?_)
      · intro original rest he
        exact absurd (hpg.symm.trans he) (List.cons_ne_nil _ _).symm
      · intro original rest he
        exact absurd (hsq.symm.trans he) (List.cons_ne_nil _ _).symm
  | cons original rest =>
      obtain ⟨original', rest', hrow, -, hsq⟩ := List.forall₂_cons_left_iff.mp (hpg ▸ hrows)
      by_cases hroom : pg.RoomForRetry limits i original
      · have hroom' : sq.RoomForRetry limits j original' := (h.roomForRetry_iff hid hrow).mpr hroom
        have hselected : original ∈ pg.submissions.select (SubmissionRow.retriable i) :=
          hpg ▸ List.mem_cons_self
        have hselected' : original' ∈ sq.submissions.select (SqliteSubmissionRow.retriable j) :=
          hsq ▸ List.mem_cons_self
        have hi : original.id = i := eq_of_beq (Bool.and_eq_true_iff.mp (Table.mem_select.mp hselected).2).1
        have hj : original'.id = j := eq_of_beq (Bool.and_eq_true_iff.mp (Table.mem_select.mp hselected').2).1
        -- No retry of the submission is there, so the unique index on `retry_of` admits the new one.
        have hfresh : ∀ r ∈ pg.submissions, r.retryOf ≠ some original.id := by
          intro r hr he
          have hnone := Table.count_eq_zero.mp hroom.1 r hr
          rw [he, hi] at hnone
          simp at hnone
        have hfresh' : ∀ s ∈ sq.submissions, s.retryOf ≠ some original'.id := by
          intro s hs he
          have hnone := Table.count_eq_zero.mp hroom'.1 s hs
          rw [he, hj] at hnone
          simp at hnone
        subst hi hj
        exact retry_admitted h hstrftime hrow hfresh hfresh' hc hc' (plan_retry_admitted hpg hroom)
          (exec_retry_admitted hsq hroom')
      · have hroom' : ¬ sq.RoomForRetry limits j original' :=
          fun hr => hroom ((h.roomForRetry_iff hid hrow).mp hr)
        refine retry_refused h hc' (serveLocked_retry_refused (hc 0).1 ?_) (exec_retry_refused ?_)
        · intro o r he
          obtain ⟨rfl, -⟩ := List.cons.inj (hpg.symm.trans he)
          exact hroom
        · intro o r he
          obtain ⟨rfl, -⟩ := List.cons.inj (hsq.symm.trans he)
          exact hroom'

end calls

end AlgorithmTrainer
