import AlgorithmTrainer.Sqlite.Legacy

/-!
# `Sqlite.Reachability` — the databases that the repositories leave

`LegacyReachable` are the databases that the auth service and the two repositories make of the migrated
tables. `SoundLegacy` is what holds of all of them: the rows satisfy every constraint of the tables, and a
retry is younger than the submission that it retries.
-/

namespace AlgorithmTrainer

open Interaction Relational

/-! ## The other writes of the problem repository -/

/-- `WHERE id = ? AND revision = ?`. -/
def SqliteProblemRow.isAt (id : String) (revision : Int) (r : SqliteProblemRow) : Bool :=
  r.id == id && r.revision == revision

/-- The row with these values, and the next revision. -/
def SqliteProblemRow.changed (now : String) (p : SqliteProblemParameters) (r : SqliteProblemRow) :
    SqliteProblemRow :=
  { r with
    title := p.title, description := p.description, inputFormat := p.inputFormat,
    outputFormat := p.outputFormat, difficulty := p.difficulty, tagsJson := p.tagsJson,
    languagesJson := p.languagesJson, examplesJson := p.examplesJson, enabled := p.enabled,
    revision := r.revision + 1, updatedAt := now }

theorem SqliteProblemRow.key_changed {now id : String} {revision : Int} {p : SqliteProblemParameters}
    (r : SqliteProblemRow) (_ : r.isAt id revision = true) : Keyed.key (r.changed now p) = Keyed.key r := rfl

/-- `WHERE id = ? AND problem_id = ? AND revision = ?`. -/
def SqliteProblemTestRow.isAt (problemId : String) (id revision : Int) (t : SqliteProblemTestRow) : Bool :=
  t.id == id && t.problemId == problemId && t.revision == revision

/-- The row with these values, and the next revision. -/
def SqliteProblemTestRow.changed (input expectedOutput : String) (position : Int) (enabled : Bool)
    (t : SqliteProblemTestRow) : SqliteProblemTestRow :=
  { t with
    input := input, expectedOutput := expectedOutput, position := position, enabled := enabled,
    revision := t.revision + 1 }

theorem SqliteProblemTestRow.key_changed {problemId input expectedOutput : String}
    {id revision position : Int} {enabled : Bool} (t : SqliteProblemTestRow)
    (_ : t.isAt problemId id revision = true) :
    Keyed.key (t.changed input expectedOutput position enabled) = Keyed.key t := rfl

namespace SqliteCatalog

/-- `UPDATE problems SET … WHERE id = ? AND revision = ?`. -/
def updateProblem (now : String) (p : SqliteProblemParameters) (revision : Int) (db : SqliteCatalog) :
    Option SqliteCatalog :=
  if ((db.problems.select (·.isAt p.id revision)).map (·.changed now p)).all SqliteProblemRow.check then
    some { db with
      problems := db.problems.update (·.isAt p.id revision) (·.changed now p) SqliteProblemRow.key_changed
      references := fun t ht => by
        obtain ⟨r, hr, hid⟩ := db.references t ht
        refine ⟨_, Table.mem_update_of_mem SqliteProblemRow.key_changed hr, ?_⟩
        split
        · exact hid
        · exact hid }
  else none

/-- `DELETE FROM problems WHERE id = ?`, and the hidden tests go with the problem. -/
def deleteProblem (id : String) (db : SqliteCatalog) : SqliteCatalog where
  problems := db.problems.delete (·.id == id)
  problemTests := db.problemTests.delete (·.problemId == id)
  nextTest := db.nextTest
  references t ht := by
    obtain ⟨ht, hne⟩ := Table.mem_delete.mp ht
    obtain ⟨r, hr, hid⟩ := db.references t ht
    exact ⟨r, Table.mem_delete.mpr ⟨hr, by rw [hid]; exact hne⟩, hid⟩
  drawn t ht := db.drawn t (Table.mem_delete.mp ht).1

/-- `UPDATE problem_tests SET … WHERE id = ? AND problem_id = ? AND revision = ?`. -/
def updateTest (problemId input expectedOutput : String) (position : Int) (enabled : Bool)
    (id revision : Int) (db : SqliteCatalog) : Option SqliteCatalog :=
  if db.problemTests.count (·.isAt problemId id revision) ≠ 0 ∧ db.problemTests.count
      (fun t => t.id != id && t.problemId == problemId && t.position == position) ≠ 0 then none
  else
    some { db with
      problemTests := db.problemTests.update (·.isAt problemId id revision)
        (·.changed input expectedOutput position enabled) SqliteProblemTestRow.key_changed
      references := fun t ht => by
        obtain ⟨x, hx, rfl⟩ := (Table.mem_update SqliteProblemTestRow.key_changed).mp ht
        obtain ⟨r, hr, hid⟩ := db.references x hx
        refine ⟨r, hr, ?_⟩
        split
        · exact hid
        · exact hid
      drawn := fun t ht => by
        obtain ⟨x, hx, rfl⟩ := (Table.mem_update SqliteProblemTestRow.key_changed).mp ht
        have hdrawn := db.drawn x hx
        split
        · exact hdrawn
        · exact hdrawn }

/-- `DELETE FROM problem_tests WHERE id = ? AND problem_id = ?`. -/
def deleteTest (problemId : String) (id : Int) (db : SqliteCatalog) : SqliteCatalog where
  problems := db.problems
  problemTests := db.problemTests.delete fun t => t.id == id && t.problemId == problemId
  nextTest := db.nextTest
  references t ht := db.references t (Table.mem_delete.mp ht).1
  drawn t ht := db.drawn t (Table.mem_delete.mp ht).1

end SqliteCatalog

/-- What the problem repository sends; `seed` sends inserts, and ignores those of problems that are there. -/
inductive SqliteProblemWrite where
  | execute (s : SqliteProblemStatement)
  | updateProblem (p : SqliteProblemParameters) (revision : Int)
  | deleteProblem (id : String)
  | updateTest (problemId input expectedOutput : String) (position : Int) (enabled : Bool)
      (id revision : Int)
  | deleteTest (problemId : String) (id : Int)

/-- The tables that a write leaves, or nothing where it violates a constraint. -/
def SqliteProblemWrite.exec (now : String) : SqliteProblemWrite → SqliteCatalog → Option SqliteCatalog
  | .execute s, db => (s.exec now db).map Prod.snd
  | .updateProblem p revision, db => db.updateProblem now p revision
  | .deleteProblem id, db => some (db.deleteProblem id)
  | .updateTest problemId input expectedOutput position enabled id revision, db =>
      db.updateTest problemId input expectedOutput position enabled id revision
  | .deleteTest problemId id, db => some (db.deleteTest problemId id)

/-! ## The steps -/

/-- The migrated tables. -/
def LegacyDatabase.initial : LegacyDatabase := ⟨.initial, .initial, .initial []⟩

/-- A step of the application: a call of the auth service, a write of the problem repository, or whatever
    requests calls of the submission repository make of its connection, in the order in which they come. -/
inductive LegacyStep (P : Platform) (strftime : Timestamp → String) :
    LegacyDatabase → LegacyDatabase → Prop where
  | accounts {s : LegacyDatabase} {now : Timestamp} {state : SqliteAuthState}
      (h : SqliteAuthStep P strftime ⟨s.accounts, now⟩ state) :
      LegacyStep P strftime s { s with
        accounts := state.database
        queue := { s.queue with userIds := state.database.users.rows.map (·.id) } }
  | problems {s : LegacyDatabase} {catalog : SqliteCatalog} (now : Timestamp) (q : SqliteProblemWrite)
      (h : q.exec (strftime now) s.catalog = some catalog) :
      LegacyStep P strftime s { s with catalog }
  | submissions {s : LegacyDatabase} {α : Type} (p : SqliteCall α) (choices : Nat → SqliteChoice)
      (now : Timestamp) :
      LegacyStep P strftime s { s with
        queue := (p.run (serveSqlite strftime) ⟨choices, .idle s.queue, now⟩).2.state.session.committed }

/-- The databases that the application leaves. -/
def LegacyReachable (P : Platform) (strftime : Timestamp → String) (s : LegacyDatabase) : Prop :=
  Relation.ReflTransGen (LegacyStep P strftime) .initial s

/-! ## The invariants -/

/-- The ids of a table were drawn from 1 on. -/
def Numbered {ρ : Type} [Keyed ρ Int] (t : Table ρ) (next : Int) : Prop :=
  1 ≤ next ∧ ∀ r ∈ t, 1 ≤ Keyed.key r

namespace Numbered

variable {ρ : Type} [Keyed ρ Int] {t : Table ρ} {next : Int}

theorem empty : Numbered (.empty : Table ρ) 1 := ⟨Int.le_refl 1, fun r hr => absurd hr (Table.not_mem_empty r)⟩

theorem insert (h : Numbered t next) {r : ρ} (hr : Keyed.key r = next) : Numbered (t.insert r) (next + 1) := by
  refine ⟨by have := h.1; omega, fun x hx => ?_⟩
  rcases Table.mem_insert.mp hx with hx | ⟨rfl, -⟩
  · exact h.2 x hx
  · rw [hr]
    exact h.1

theorem update (h : Numbered t next) {p : ρ → Bool} {f : ρ → ρ}
    (hf : ∀ r, p r = true → Keyed.key (f r) = Keyed.key r) : Numbered (t.update p f hf) next := by
  refine ⟨h.1, fun x hx => ?_⟩
  obtain ⟨y, hy, rfl⟩ := (Table.mem_update hf).mp hx
  split
  · rename_i hp
    rw [hf y hp]
    exact h.2 y hy
  · exact h.2 y hy

theorem put (h : Numbered t next) (r : ρ) : Numbered (t.put r) next := h.update _

theorem delete (h : Numbered t next) {p : ρ → Bool} : Numbered (t.delete p) next :=
  ⟨h.1, fun x hx => h.2 x (Table.mem_delete.mp hx).1⟩

end Numbered

/-- The problems and hidden tests satisfy the constraints that PostgreSQL checks. -/
structure SoundCatalog (db : SqliteCatalog) : Prop where
  problems : ∀ r ∈ db.problems, r.check = true ∧ 0 < r.revision
  revisions : ∀ t ∈ db.problemTests, 0 < t.revision
  positions : ∀ t ∈ db.problemTests, ∀ t' ∈ db.problemTests,
    t.problemId = t'.problemId → t.position = t'.position → t = t'
  numbered : Numbered db.problemTests db.nextTest

/-- The sessions belong to users, and no two share a token. -/
structure SoundSessions (db : SqliteAuthDatabase) : Prop where
  users : ∀ s ∈ db.sessions, s.userId ∈ db.users.rows.map (·.id)
  tokens : ∀ s ∈ db.sessions, ∀ s' ∈ db.sessions, s.tokenHash = s'.tokenHash → s = s'
  numberedUsers : Numbered db.users db.nextUser
  numbered : Numbered db.sessions db.nextSession

/-- The submissions and audit records satisfy the constraints, a submission is retried once at most, and by a
    submission with a larger id. -/
structure SoundQueue (db : SqliteDatabase) : Prop where
  checked : ∀ r ∈ db.submissions, r.check = true
  users : ∀ r ∈ db.submissions, ∀ user, r.userId = some user → user ∈ db.userIds
  once : ∀ r ∈ db.submissions, ∀ r' ∈ db.submissions, ∀ id, r.retryOf = some id →
    r'.retryOf = some id → r = r'
  retried : ∀ r ∈ db.submissions, ∀ id, r.retryOf = some id →
    id < r.id ∧ id ∈ db.submissions.rows.map (·.id)
  drawn : ∀ r ∈ db.submissions, r.id < db.nextSubmission
  admins : ∀ a ∈ db.adminAuditLog, a.adminUserId ∈ db.userIds
  numbered : Numbered db.submissions db.nextSubmission
  numberedAudits : Numbered db.adminAuditLog db.nextAudit

/-- What holds of every database that the application leaves. -/
structure SoundLegacy (P : Platform) (s : LegacyDatabase) : Prop where
  accounts : SoundAccounts P s.accounts
  sessions : SoundSessions s.accounts
  catalog : SoundCatalog s.catalog
  queue : SoundQueue s.queue
  userIds : s.queue.userIds = s.accounts.users.rows.map (·.id)

/-! ### Problems -/

section catalog
variable {db db' : SqliteCatalog} {now : String}

theorem SoundCatalog.initial : SoundCatalog .initial where
  problems _ hr := absurd hr (Table.not_mem_empty _)
  revisions _ ht := absurd ht (Table.not_mem_empty _)
  positions _ ht := absurd ht (Table.not_mem_empty _)
  numbered := .empty

theorem SoundCatalog.insertProblem (h : SoundCatalog db) {row : SqliteProblemRow}
    (hrevision : 0 < row.revision) (hinsert : db.insertProblem row = some db') : SoundCatalog db' := by
  unfold SqliteCatalog.insertProblem at hinsert
  split at hinsert
  · rename_i hchecked
    cases hinsert
    refine { h with problems := fun r hr => ?_ }
    rcases Table.mem_insert.mp hr with hr | ⟨rfl, -⟩
    · exact h.problems r hr
    · exact ⟨hchecked.1, hrevision⟩
  · cases hinsert

theorem SoundCatalog.insertTest (h : SoundCatalog db) {problemId input expectedOutput : String}
    {position : Int} {enabled : Bool}
    (hinsert : db.insertTest problemId input expectedOutput position enabled = some db') :
    SoundCatalog db' := by
  unfold SqliteCatalog.insertTest at hinsert
  split at hinsert
  · rename_i hfree
    cases hinsert
    have hvacant : ∀ t ∈ db.problemTests, ¬ (t.problemId = problemId ∧ t.position = position) := by
      rintro t ht ⟨hproblem, hposition⟩
      have hnone := Table.count_eq_zero.mp hfree.2 t ht
      simp [hproblem, hposition] at hnone
    refine ⟨h.problems, fun t ht => ?_, fun t ht t' ht' hproblem hposition => ?_, h.numbered.insert rfl⟩
    · rcases Table.mem_insert.mp ht with ht | ⟨rfl, -⟩
      · exact h.revisions t ht
      · exact Int.zero_lt_one
    · rcases Table.mem_insert.mp ht with hold | ⟨rfl, -⟩
      · rcases Table.mem_insert.mp ht' with hold' | ⟨rfl, -⟩
        · exact h.positions t hold t' hold' hproblem hposition
        · exact absurd ⟨hproblem, hposition⟩ (hvacant t hold)
      · rcases Table.mem_insert.mp ht' with hold' | ⟨rfl, -⟩
        · exact absurd ⟨hproblem.symm, hposition.symm⟩ (hvacant t' hold')
        · rfl
  · cases hinsert

theorem SoundCatalog.updateProblem (h : SoundCatalog db) {p : SqliteProblemParameters} {revision : Int}
    (hupdate : db.updateProblem now p revision = some db') : SoundCatalog db' := by
  unfold SqliteCatalog.updateProblem at hupdate
  split at hupdate
  · rename_i hchecked
    cases hupdate
    refine { h with problems := fun r hr => ?_ }
    obtain ⟨x, hx, rfl⟩ := (Table.mem_update SqliteProblemRow.key_changed).mp hr
    have hpositive := (h.problems x hx).2
    split
    · rename_i hselected
      refine ⟨?_, by show 0 < x.revision + 1; omega⟩
      exact List.all_eq_true.mp hchecked _ (List.mem_map_of_mem (Table.mem_select.mpr ⟨hx, hselected⟩))
    · exact h.problems x hx
  · cases hupdate

theorem SoundCatalog.deleteProblem (h : SoundCatalog db) (id : String) :
    SoundCatalog (db.deleteProblem id) where
  problems r hr := h.problems r (Table.mem_delete.mp hr).1
  revisions t ht := h.revisions t (Table.mem_delete.mp ht).1
  positions t ht t' ht' := h.positions t (Table.mem_delete.mp ht).1 t' (Table.mem_delete.mp ht').1
  numbered := h.numbered.delete

theorem SoundCatalog.updateTest (h : SoundCatalog db) {problemId input expectedOutput : String}
    {position : Int} {enabled : Bool} {id revision : Int}
    (hupdate : db.updateTest problemId input expectedOutput position enabled id revision = some db') :
    SoundCatalog db' := by
  unfold SqliteCatalog.updateTest at hupdate
  split at hupdate
  · cases hupdate
  · rename_i hfree
    cases hupdate
    -- The test that is changed, if there is one, moves to a position that no other test has.
    have hvacant : ∀ x ∈ db.problemTests, ∀ x' ∈ db.problemTests,
        x.isAt problemId id revision = true → x'.id ≠ id →
          ¬ (x'.problemId = problemId ∧ x'.position = position) := by
      rintro x hx x' hx' hselected hid ⟨hproblem, hposition⟩
      refine hfree ⟨fun hnone => ?_, fun hnone => ?_⟩
      · rw [Table.count_eq_zero.mp hnone x hx] at hselected
        cases hselected
      · have hcounted := Table.count_eq_zero.mp hnone x' hx'
        simp [hproblem, hposition, hid] at hcounted
    refine ⟨h.problems, fun t ht => ?_, fun t ht t' ht' hproblem hposition => ?_,
      h.numbered.update SqliteProblemTestRow.key_changed⟩
    · obtain ⟨x, hx, rfl⟩ := (Table.mem_update SqliteProblemTestRow.key_changed).mp ht
      have hpositive := h.revisions x hx
      split
      · show 0 < x.revision + 1
        omega
      · exact hpositive
    · obtain ⟨x, hx, rfl⟩ := (Table.mem_update SqliteProblemTestRow.key_changed).mp ht
      obtain ⟨x', hx', rfl⟩ := (Table.mem_update SqliteProblemTestRow.key_changed).mp ht'
      by_cases hid : x.id = x'.id
      · cases Table.eq_of_key hx hx' hid
        rfl
      by_cases hselected : x.isAt problemId id revision = true
      · obtain ⟨⟨hx_id, hx_problem⟩, -⟩ : (x.id = id ∧ x.problemId = problemId) ∧ x.revision = revision := by
          simpa only [SqliteProblemTestRow.isAt, Bool.and_eq_true, beq_iff_eq] using hselected
        have hne : x'.id ≠ id := fun he => hid (hx_id.trans he.symm)
        have hother : ¬ x'.isAt problemId id revision = true := by
          simp [SqliteProblemTestRow.isAt, hne]
        rw [if_pos hselected, if_neg hother] at hproblem hposition
        exact absurd ⟨hproblem.symm.trans hx_problem, hposition.symm⟩ (hvacant x hx x' hx' hselected hne)
      by_cases hselected' : x'.isAt problemId id revision = true
      · obtain ⟨⟨hx_id, hx_problem⟩, -⟩ : (x'.id = id ∧ x'.problemId = problemId) ∧ x'.revision = revision := by
          simpa only [SqliteProblemTestRow.isAt, Bool.and_eq_true, beq_iff_eq] using hselected'
        have hne : x.id ≠ id := fun he => hid (he.trans hx_id.symm)
        rw [if_neg hselected, if_pos hselected'] at hproblem hposition
        exact absurd ⟨hproblem.trans hx_problem, hposition⟩ (hvacant x' hx' x hx hselected' hne)
      rw [if_neg hselected, if_neg hselected'] at hproblem hposition
      exact absurd (congrArg SqliteProblemTestRow.id (h.positions x hx x' hx' hproblem hposition)) hid

theorem SoundCatalog.deleteTest (h : SoundCatalog db) (problemId : String) (id : Int) :
    SoundCatalog (db.deleteTest problemId id) where
  problems := h.problems
  revisions t ht := h.revisions t (Table.mem_delete.mp ht).1
  positions t ht t' ht' := h.positions t (Table.mem_delete.mp ht).1 t' (Table.mem_delete.mp ht').1
  numbered := h.numbered.delete

/-- **Every write keeps the problems sound.** -/
theorem SoundCatalog.exec (h : SoundCatalog db) {q : SqliteProblemWrite} (hexec : q.exec now db = some db') :
    SoundCatalog db' := by
  cases q with
  | execute s =>
      obtain ⟨x, hx, rfl⟩ := Option.map_eq_some_iff.mp hexec
      cases s with
      | insertProblem p =>
          obtain ⟨catalog, hinsert, rfl⟩ := Option.map_eq_some_iff.mp hx
          exact h.insertProblem Int.zero_lt_one hinsert
      | insertTest problemId input expectedOutput position enabled =>
          obtain ⟨catalog, hinsert, rfl⟩ := Option.map_eq_some_iff.mp hx
          exact h.insertTest hinsert
      | selectProblem id | selectTests problemId onlyEnabled =>
          cases hx
          exact h
  | updateProblem p revision => exact h.updateProblem hexec
  | deleteProblem id =>
      cases hexec
      exact h.deleteProblem id
  | updateTest problemId input expectedOutput position enabled id revision => exact h.updateTest hexec
  | deleteTest problemId id =>
      cases hexec
      exact h.deleteTest problemId id

end catalog

/-! ### Sessions -/

section sessions
variable {P : Platform} {strftime : Timestamp → String} {db db' : SqliteAuthDatabase}

theorem SoundSessions.initial : SoundSessions .initial where
  users _ hs := absurd hs (Table.not_mem_empty _)
  tokens _ hs := absurd hs (Table.not_mem_empty _)
  numberedUsers := .empty
  numbered := .empty

/-- The sessions stay sound where only users are added. -/
theorem SoundSessions.of_users (h : SoundSessions db) (hsessions : db'.sessions = db.sessions)
    (hnext : db'.nextSession = db.nextSession) (hnumbered : Numbered db'.users db'.nextUser)
    (husers : ∀ id ∈ db.users.rows.map (·.id), id ∈ db'.users.rows.map (·.id)) : SoundSessions db' where
  users s hs := by
    rw [hsessions] at hs
    exact husers _ (h.users s hs)
  tokens := by
    rw [hsessions]
    exact h.tokens
  numberedUsers := hnumbered
  numbered := by
    rw [hsessions, hnext]
    exact h.numbered

theorem ids_insert {t : Table SqliteUserRow} (row : SqliteUserRow) {id : Int} (h : id ∈ t.rows.map (·.id)) :
    id ∈ (t.insert row).rows.map (·.id) := by
  obtain ⟨u, hu, rfl⟩ := List.mem_map.mp h
  exact List.mem_map_of_mem (Table.mem_insert_of_mem hu)

/-- **A statement** removes no user, and keeps the sessions sound. -/
theorem SoundSessions.exec (h : SoundSessions db) {s : SqliteAuthStatement} {now : Timestamp}
    {rows : List s.Row} (hexec : s.exec strftime now db = .ok (rows, db')) :
    SoundSessions db' ∧ ∀ id ∈ db.users.rows.map (·.id), id ∈ db'.users.rows.map (·.id) := by
  cases s with
  | insertUser n hash =>
      simp only [SqliteAuthStatement.exec] at hexec
      split at hexec
      · cases hexec
      · split at hexec
        · cases hexec
        · cases hexec
          exact ⟨h.of_users rfl rfl (h.numberedUsers.insert rfl) fun _ => ids_insert _, fun _ => ids_insert _⟩
  | upsertAdmin n hash =>
      simp only [SqliteAuthStatement.exec] at hexec
      split at hexec
      · split at hexec
        · cases hexec
          exact ⟨h, fun _ hid => hid⟩
        · rename_i user _ _ _
          cases hexec
          have hids : (db.users.put { user with passwordHash := hash, isAdmin := true }).rows.map (·.id)
              = db.users.rows.map (·.id) := Table.map_key_update
          have hkept : ∀ id ∈ db.users.rows.map (·.id), id ∈
              (db.users.put { user with passwordHash := hash, isAdmin := true }).rows.map (·.id) :=
            fun id hid => hids ▸ hid
          exact ⟨h.of_users rfl rfl (h.numberedUsers.put _) hkept, hkept⟩
      · split at hexec
        · cases hexec
        · cases hexec
          exact ⟨h.of_users rfl rfl (h.numberedUsers.insert rfl) fun _ => ids_insert _, fun _ => ids_insert _⟩
  | insertSession userId tokenHash lifetime =>
      simp only [SqliteAuthStatement.exec] at hexec
      split at hexec
      · cases hexec
      · rename_i hunique
        split at hexec
        · cases hexec
        · rename_i hfree
          cases hexec
          -- the token is not in use, and the user is there: the insert was not refused
          have hother : ∀ s ∈ db.sessions, s.tokenHash ≠ tokenHash := by
            intro s hs he
            have hnone := Table.count_eq_zero.mp (not_not.mp hunique) s hs
            rw [he] at hnone
            simp at hnone
          have huser : userId ∈ db.users.rows.map (·.id) := by
            by_contra hnone
            refine hfree (.inr (Table.count_eq_zero.mpr fun u hu => ?_))
            exact beq_eq_false_iff_ne.mpr fun he => hnone (he ▸ List.mem_map_of_mem hu)
          refine ⟨⟨fun s hs => ?_, fun s hs s' hs' htoken => ?_, h.numberedUsers, h.numbered.insert rfl⟩,
            fun _ hid => hid⟩
          · rcases Table.mem_insert.mp hs with hs | ⟨rfl, -⟩
            · exact h.users s hs
            · exact huser
          · rcases Table.mem_insert.mp hs with hold | ⟨rfl, -⟩
            · rcases Table.mem_insert.mp hs' with hold' | ⟨rfl, -⟩
              · exact h.tokens s hold s' hold' htoken
              · exact absurd htoken (hother s hold)
            · rcases Table.mem_insert.mp hs' with hold' | ⟨rfl, -⟩
              · exact absurd htoken.symm (hother s' hold')
              · rfl
  | deleteSession tokenHash =>
      cases hexec
      refine ⟨⟨fun s hs => ?_, fun s hs s' hs' => ?_, h.numberedUsers, h.numbered.delete⟩, fun _ hid => hid⟩
      · exact h.users s (Table.mem_delete.mp hs).1
      · exact h.tokens s (Table.mem_delete.mp hs).1 s' (Table.mem_delete.mp hs').1
  | selectAdmin _ | selectUserByName _ | selectSessionUser _ =>
      cases hexec
      exact ⟨h, fun _ hid => hid⟩

/-- The accounts, for which these users are kept. -/
structure AccountsKept (P : Platform) (ids : List Int) (db : SqliteAuthDatabase) : Prop where
  accounts : SoundAccounts P db
  sessions : SoundSessions db
  users : ∀ id ∈ ids, id ∈ db.users.rows.map (·.id)

theorem serveSqliteAuth_kept {ids : List Int} (q : SqliteAuthRequest) (c : SqliteAuthChoice)
    (state : SqliteAuthState) (hq : Sendable P q) (h : AccountsKept P ids state.database) :
    DrawnHash P q (serveSqliteAuth P strftime q c state).1 ∧
      AccountsKept P ids (serveSqliteAuth P strftime q c state).2.database := by
  obtain ⟨hadmits, haccounts⟩ := serveSqliteAuth_sound q c state hq h.accounts
  suffices hkept : SoundSessions (serveSqliteAuth P strftime q c state).2.database ∧
      ∀ id ∈ ids, id ∈ (serveSqliteAuth P strftime q c state).2.database.users.rows.map (·.id) from
    ⟨hadmits, haccounts, hkept.1, hkept.2⟩
  cases q with
  | randomToken | passwordHash _ => exact ⟨h.sessions, h.users⟩
  | execute s =>
      unfold serveSqliteAuth
      dsimp only
      split
      · exact ⟨h.sessions, h.users⟩
      · exact ⟨h.sessions, h.users⟩
      · split
        · rename_i hexec
          obtain ⟨hsound, hgrown⟩ := h.sessions.exec hexec
          exact ⟨hsound, fun id hid => hgrown id (h.users id hid)⟩
        · exact ⟨h.sessions, h.users⟩

/-- A step of the auth service. -/
theorem accounts_step {now : Timestamp} {state : SqliteAuthState}
    (hstep : SqliteAuthStep P strftime ⟨db, now⟩ state) (haccounts : SoundAccounts P db)
    (hsessions : SoundSessions db) : AccountsKept P (db.users.rows.map (·.id)) state.database := by
  have hkept : AccountsKept P (db.users.rows.map (·.id)) db := ⟨haccounts, hsessions, fun _ hid => hid⟩
  cases hstep with
  | pass elapsed => exact hkept
  | call c dummy choices =>
      obtain ⟨_, -, h⟩ := (sqliteProgram_follows dummy c).run (V := serveSqliteAuth P strftime)
        (I := fun _ state => AccountsKept P (db.users.rows.map (·.id)) state.database)
        (w := ⟨choices, ⟨db, now⟩⟩) (fun _ q c state hq h => serveSqliteAuth_kept q c state hq h) hkept
      exact h

end sessions

/-! ### Submissions -/

section queue
variable {strftime : Timestamp → String} {db db' : SqliteDatabase} {now : String}

theorem SoundQueue.initial (userIds : List Int) : SoundQueue (.initial userIds) where
  checked _ hr := absurd hr (Table.not_mem_empty _)
  users _ hr := absurd hr (Table.not_mem_empty _)
  once _ hr := absurd hr (Table.not_mem_empty _)
  retried _ hr := absurd hr (Table.not_mem_empty _)
  drawn _ hr := absurd hr (Table.not_mem_empty _)
  admins _ ha := absurd ha (Table.not_mem_empty _)
  numbered := .empty
  numberedAudits := .empty

/-- A submission under the next id, which retries one that is there, or none. -/
theorem SoundQueue.insertSubmission (h : SoundQueue db) {row : SqliteSubmissionRow}
    {rows : List SqliteSubmissionRow} (hid : row.id = db.nextSubmission)
    (hretried : ∀ id, row.retryOf = some id → id ∈ db.submissions.rows.map (·.id))
    (hinsert : db.insertSubmission row = some (rows, db')) : SoundQueue db' ∧ db'.userIds = db.userIds := by
  unfold SqliteDatabase.insertSubmission at hinsert
  split at hinsert
  · cases hinsert
  rename_i hcheck
  split at hinsert
  · cases hinsert
  rename_i hunique
  split at hinsert
  · cases hinsert
  rename_i huser
  cases hinsert
  -- The unique index has refused a second retry.
  have honce : ∀ r ∈ db.submissions, ∀ id, row.retryOf = some id → r.retryOf ≠ some id := by
    intro r hr id hrow hretry
    have hnone := Table.count_eq_zero.mp (not_not.mp hunique) r hr
    rw [hrow, hretry] at hnone
    simp at hnone
  have hkept : ∀ id ∈ db.submissions.rows.map (·.id), id ∈ (db.submissions.insert row).rows.map (·.id) := by
    intro id hid
    obtain ⟨r, hr, rfl⟩ := List.mem_map.mp hid
    exact List.mem_map_of_mem (Table.mem_insert_of_mem hr)
  -- Each part of the invariant: for the rows of before, and for the new one.
  refine ⟨⟨fun r hr => ?_, fun r hr user hof => ?_, fun r hr r' hr' id hretry hretry' => ?_,
      fun r hr id hretry => ?_, fun r hr => ?_, h.admins, h.numbered.insert hid, h.numberedAudits⟩, rfl⟩
  · rcases Table.mem_insert.mp hr with hr | ⟨rfl, -⟩
    · exact h.checked r hr
    · simpa using hcheck
  · rcases Table.mem_insert.mp hr with hr | ⟨rfl, -⟩
    · exact h.users r hr user hof
    · simpa [hof] using huser
  · rcases Table.mem_insert.mp hr with hold | ⟨rfl, -⟩
    · rcases Table.mem_insert.mp hr' with hold' | ⟨rfl, -⟩
      · exact h.once r hold r' hold' id hretry hretry'
      · exact absurd hretry (honce r hold id hretry')
    · rcases Table.mem_insert.mp hr' with hold' | ⟨rfl, -⟩
      · exact absurd hretry' (honce r' hold' id hretry)
      · rfl
  · rcases Table.mem_insert.mp hr with hr | ⟨rfl, -⟩
    · obtain ⟨hlt, hmem⟩ := h.retried r hr id hretry
      exact ⟨hlt, hkept id hmem⟩
    · have hmem := hretried id hretry
      obtain ⟨x, hx, rfl⟩ := List.mem_map.mp hmem
      exact ⟨hid ▸ h.drawn x hx, hkept _ hmem⟩
  · show r.id < db.nextSubmission + 1
    rcases Table.mem_insert.mp hr with hr | ⟨rfl, -⟩
    · exact Int.lt_add_one_of_le (Int.le_of_lt (h.drawn r hr))
    · rw [hid]
      exact Int.lt_succ _

/-- An update that leaves owners and retries as they are. -/
theorem SoundQueue.updateSubmissions (h : SoundQueue db) {p : SqliteSubmissionRow → Bool}
    {f : SqliteSubmissionRow → SqliteSubmissionRow} {hf : ∀ r, p r = true → (f r).id = r.id}
    {rows : List SqliteSubmissionRow}
    (hleft : ∀ r, p r = true → (f r).userId = r.userId ∧ (f r).retryOf = r.retryOf)
    (hupdate : db.updateSubmissions p f hf = some (rows, db')) :
    SoundQueue db' ∧ db'.userIds = db.userIds := by
  unfold SqliteDatabase.updateSubmissions at hupdate
  dsimp only at hupdate
  split at hupdate
  · rename_i hchecked
    cases hupdate
    -- A row of after is a row of before, with the columns that the invariant looks at.
    have hrow : ∀ r ∈ db.submissions.update p f hf, ∃ x ∈ db.submissions, r = (if p x then f x else x) ∧
        r.id = x.id ∧ r.userId = x.userId ∧ r.retryOf = x.retryOf := by
      intro r hr
      obtain ⟨x, hx, rfl⟩ := (Table.mem_update hf).mp hr
      refine ⟨x, hx, rfl, ?_⟩
      split
      · rename_i hp
        exact ⟨hf x hp, hleft x hp⟩
      · exact ⟨rfl, rfl, rfl⟩
    have hids : (db.submissions.update p f hf).rows.map (·.id) = db.submissions.rows.map (·.id) :=
      Table.map_key_update
    refine ⟨⟨fun r hr => ?_, fun r hr user hof => ?_, fun r hr r' hr' id hretry hretry' => ?_,
      fun r hr id hretry => ?_, fun r hr => ?_, h.admins, h.numbered.update hf, h.numberedAudits⟩, rfl⟩
    · obtain ⟨x, hx, rfl, -⟩ := hrow r hr
      split
      · rename_i hp
        exact List.all_eq_true.mp hchecked _ (List.mem_map_of_mem (Table.mem_select.mpr ⟨hx, hp⟩))
      · exact h.checked x hx
    · obtain ⟨x, hx, -, -, huser, -⟩ := hrow r hr
      exact h.users x hx user (huser.symm.trans hof)
    · obtain ⟨x, hx, he, -, -, hx_retry⟩ := hrow r hr
      obtain ⟨x', hx', he', -, -, hx_retry'⟩ := hrow r' hr'
      cases h.once x hx x' hx' id (hx_retry.symm.trans hretry) (hx_retry'.symm.trans hretry')
      exact he.trans he'.symm
    · obtain ⟨x, hx, -, hid, -, hx_retry⟩ := hrow r hr
      obtain ⟨hlt, hmem⟩ := h.retried x hx id (hx_retry.symm.trans hretry)
      refine ⟨hid ▸ hlt, ?_⟩
      show id ∈ (db.submissions.update p f hf).rows.map (·.id)
      rw [hids]
      exact hmem
    · obtain ⟨x, hx, -, hid, -⟩ := hrow r hr
      rw [hid]
      exact h.drawn x hx
  · cases hupdate

/-- **A statement** keeps the submissions sound, and the users. -/
theorem SoundQueue.exec (h : SoundQueue db) {s : SqliteStatement} {rows : List s.Row}
    (hexec : s.exec now db = some (rows, db')) : SoundQueue db' ∧ db'.userIds = db.userIds := by
  cases s with
  | insertSubmission problemId language sourceCode userId maximum maximumPerUser =>
      simp only [SqliteStatement.exec] at hexec
      split at hexec
      · exact h.insertSubmission rfl (fun id hretry => by cases hretry) hexec
      · cases hexec
        exact ⟨h, rfl⟩
  -- the retry names a submission that was selected, and so is there
  | insertRetry id maximum maximumPerUser =>
      simp only [SqliteStatement.exec] at hexec
      split at hexec
      · rename_i original rest hrows
        split at hexec
        · refine h.insertSubmission rfl (fun id hretry => ?_) hexec
          cases hretry
          have horiginal := (Table.mem_select.mp (hrows ▸ List.mem_cons_self)).1
          exact List.mem_map_of_mem horiginal
        · cases hexec
          exact ⟨h, rfl⟩
      · cases hexec
        exact ⟨h, rfl⟩
  | completeSubmission verdict errorType id =>
      refine h.updateSubmissions (fun r hp => ?_) hexec
      exact ⟨rfl, rfl⟩
  | failSubmission errorType id =>
      refine h.updateSubmissions (fun r hp => ?_) hexec
      exact ⟨rfl, rfl⟩
  | claimSubmission limit =>
      simp only [SqliteStatement.exec] at hexec
      split at hexec
      · refine h.updateSubmissions (fun r hp => ?_) hexec
        exact ⟨rfl, rfl⟩
      · cases hexec
        exact ⟨h, rfl⟩
  | recoverRunning =>
      obtain ⟨⟨rows, db''⟩, hupdate, he⟩ := Option.map_eq_some_iff.mp hexec
      cases he
      refine h.updateSubmissions (fun r hp => ?_) hupdate
      exact ⟨rfl, rfl⟩
  | insertAudit admin action type id details =>
      simp only [SqliteStatement.exec] at hexec
      split at hexec
      · cases hexec
      · split at hexec
        · rename_i hadmin
          cases hexec
          refine ⟨⟨h.checked, h.users, h.once, h.retried, h.drawn, fun a ha => ?_, h.numbered,
            h.numberedAudits.insert rfl⟩, rfl⟩
          rcases Table.mem_insert.mp ha with ha | ⟨rfl, -⟩
          · exact h.admins a ha
          · exact List.contains_iff_mem.mp hadmin
        · cases hexec
  | countActive _ | selectSubmission _ | selectHistory _ _ =>
      cases hexec
      exact ⟨h, rfl⟩

/-- What the connection shows and what is committed. -/
def SoundConnection (userIds : List Int) (state : SqliteState) : Prop :=
  (SoundQueue state.session.committed ∧ state.session.committed.userIds = userIds) ∧
    SoundQueue state.session.current ∧ state.session.current.userIds = userIds

theorem serveSqlite_sound {userIds : List Int} (q : SqliteRequest) (c : SqliteChoice) (state : SqliteState)
    (h : SoundConnection userIds state) :
    SoundConnection userIds (serveSqlite strftime q c state).2 := by
  obtain ⟨⟨committed, working⟩, clock⟩ := state
  obtain ⟨hcommitted, hcurrent⟩ := h
  cases q with
  | execute s =>
      unfold serveSqlite
      dsimp only
      split
      · exact ⟨hcommitted, hcurrent⟩
      · exact ⟨hcommitted, hcurrent⟩
      · split
        · rename_i rows db hexec
          obtain ⟨hsound, hids⟩ := hcurrent.1.exec hexec
          have hwritten : SoundQueue db ∧ db.userIds = userIds := ⟨hsound, hids.trans hcurrent.2⟩
          -- outside of a transaction the statement commits by itself
          cases working with
          | none => exact ⟨hwritten, hwritten⟩
          | some _ => exact ⟨hcommitted, hwritten⟩
        · exact ⟨hcommitted, hcurrent⟩
  | begin =>
      unfold serveSqlite
      dsimp only
      split
      · rename_i session _ hbegin
        cases working with
        | none =>
            cases hbegin
            exact ⟨hcommitted, hcommitted⟩
        | some _ => cases hbegin
      · exact ⟨hcommitted, hcurrent⟩
  | commit =>
      unfold serveSqlite
      dsimp only
      split
      · exact ⟨hcurrent, hcurrent⟩
      · exact ⟨hcommitted, hcurrent⟩
  | rollback =>
      cases working with
      | none => exact ⟨hcommitted, hcurrent⟩
      | some _ => exact ⟨hcommitted, hcommitted⟩

end queue

/-! ### Every step -/

section legacy
variable {P : Platform} {strftime : Timestamp → String} {s s' : LegacyDatabase}

theorem SoundLegacy.initial : SoundLegacy P .initial where
  accounts := .initial
  sessions := .initial
  catalog := .initial
  queue := .initial []
  userIds := rfl

/-- Where users were only added, the queue is as sound as it was. -/
theorem SoundQueue.of_userIds {db : SqliteDatabase} (h : SoundQueue db) {userIds : List Int}
    (hids : ∀ id ∈ db.userIds, id ∈ userIds) : SoundQueue { db with userIds } :=
  { h with
    users := fun r hr user hof => hids user (h.users r hr user hof)
    admins := fun a ha => hids _ (h.admins a ha) }

/-- **A step keeps the database sound.** -/
theorem SoundLegacy.step (h : SoundLegacy P s) (hstep : LegacyStep P strftime s s') : SoundLegacy P s' := by
  cases hstep with
  | accounts hstep =>
      obtain ⟨haccounts, hsessions, husers⟩ := accounts_step hstep h.accounts h.sessions
      refine ⟨haccounts, hsessions, h.catalog, h.queue.of_userIds fun id hid => ?_, rfl⟩
      rw [h.userIds] at hid
      exact husers id hid
  | problems now q hexec => exact ⟨h.accounts, h.sessions, h.catalog.exec hexec, h.queue, h.userIds⟩
  | submissions p choices now =>
      have hidle : SoundConnection s.queue.userIds ⟨.idle s.queue, now⟩ := ⟨⟨h.queue, rfl⟩, h.queue, rfl⟩
      obtain ⟨⟨hqueue, hids⟩, -⟩ :=
        Program.run_keeps serveSqlite_sound p (w := ⟨choices, .idle s.queue, now⟩) hidle
      exact ⟨h.accounts, h.sessions, h.catalog, hqueue, hids.trans h.userIds⟩

/-- **The databases that the application leaves are sound.** -/
theorem LegacyReachable.sound (h : LegacyReachable P strftime s) : SoundLegacy P s := by
  induction h with
  | refl => exact .initial
  | tail _ hstep ih => exact ih.step hstep

end legacy
end AlgorithmTrainer
