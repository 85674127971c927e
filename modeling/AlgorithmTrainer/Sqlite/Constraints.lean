import AlgorithmTrainer.Database.Client
import AlgorithmTrainer.Lib.Correspondence
import AlgorithmTrainer.Sqlite.Reachability
import AlgorithmTrainer.Sqlite.Transferring

/-!
# `Sqlite.Constraints` — the constraints that the inserted rows are checked against

When a row is inserted, the target holds the rows that come before it in the tool's order: those of the tables
before its own, and those of its own table with smaller ids. `refuses_none` says that no constraint refuses
it, if the source is one that the application leaves.

## Contents
- **Equal values.** A row that has arrived has the values that the constraints look at (`user_same`,
  `submission_same` and so on).
- **The rows before a row.** The order of the tool, and what it has copied when it comes to a row: all of the
  tables before (`rows_earlier`), and of the row's own table rows with other keys (`next_row`).
- **Rows that have arrived**, and one lemma for each table. A unique key is free since the source has no two
  rows with one key; a foreign key is there since its table comes before. The exception is `retry_of`, which is
  in the same table: a retry has a larger id than what it retries (`retried_before`).
-/

namespace AlgorithmTrainer

open Relational

/-! ## Equal values -/

section values
variable {P : Platform} {readJsonb : ReadJsonb}

/-- Under the plain cast a text arrives as it is. -/
theorem SameValue.text_eq {s s' : String} (h : SameValue P readJsonb .plain (.text s) (.text s')) : s' = s := by
  cases h
  rfl

theorem SameValue.bigint_eq {n n' : Int} (h : SameValue P readJsonb .bigint (.integer n) (.bigint n')) :
    n' = n := by
  cases h
  rfl

/-- A `NULL` arrives as `NULL`. -/
theorem SameValue.nullable_text_eq {o o' : Option String}
    (h : SameValue P readJsonb .plain (.nullable .text o) (.nullable .text o')) : o' = o := by
  cases o with
  | none =>
      cases o' with
      | none => rfl
      | some _ => cases h
  | some s =>
      cases o' with
      | none => cases h
      | some _ => exact congrArg some (SameValue.text_eq h)

theorem SameValue.nullable_bigint_eq {o o' : Option Int}
    (h : SameValue P readJsonb .bigint (.nullable .integer o) (.nullable .bigint o')) : o' = o := by
  cases o with
  | none =>
      cases o' with
      | none => rfl
      | some _ => cases h
  | some n =>
      cases o' with
      | none => cases h
      | some _ => exact congrArg some (SameValue.bigint_eq h)

/-- An instant is there where its text is. -/
theorem SameValue.isSome_eq {o : Option String} {o' : Option Timestamp}
    (h : SameValue P readJsonb .timestamptz (.nullable .text o) (.nullable .timestamptz o')) :
    o'.isSome = o.isSome := by
  cases o with
  | none =>
      cases o' with
      | none => rfl
      | some _ => cases h
  | some s =>
      cases o' with
      | none => cases h
      | some _ => rfl

/-! ### The columns that are checked

`SameColumns` says that every column is equal; each lemma takes out the ones that the constraints of its table
look at.
-/

theorem user_same {u : SqliteUserRow} {r : UserRow}
    (h : LegacyTable.users.SameColumns P readJsonb u.column r.value) :
    r.id = u.id ∧ r.username = u.username :=
  ⟨(h ("id", .bigint) (by decide)).bigint_eq, (h ("username", .plain) (by decide)).text_eq⟩

theorem session_same {u : SqliteSessionRow} {r : SessionRow}
    (h : LegacyTable.sessions.SameColumns P readJsonb u.column r.value) :
    r.id = u.id ∧ r.userId = u.userId ∧ r.tokenHash = u.tokenHash :=
  ⟨(h ("id", .bigint) (by decide)).bigint_eq, (h ("user_id", .bigint) (by decide)).bigint_eq,
    (h ("token_hash", .plain) (by decide)).text_eq⟩

theorem problem_same {u : SqliteProblemRow} {r : ProblemRow}
    (h : LegacyTable.problems.SameColumns P readJsonb u.column r.value) :
    r.id = u.id ∧ r.difficulty = u.difficulty ∧ r.revision = u.revision :=
  ⟨(h ("id", .plain) (by decide)).text_eq, (h ("difficulty", .plain) (by decide)).text_eq,
    (h ("revision", .bigint) (by decide)).bigint_eq⟩

theorem problemTest_same {u : SqliteProblemTestRow} {r : ProblemTestRow}
    (h : LegacyTable.problemTests.SameColumns P readJsonb u.column r.value) :
    r.id = u.id ∧ r.problemId = u.problemId ∧ r.position = u.position ∧ r.revision = u.revision :=
  ⟨(h ("id", .bigint) (by decide)).bigint_eq, (h ("problem_id", .plain) (by decide)).text_eq,
    (h ("position", .bigint) (by decide)).bigint_eq, (h ("revision", .bigint) (by decide)).bigint_eq⟩

/-- The `CHECK` constraints look at the status, the verdict and whether there is a completion time. -/
theorem submission_same {u : SqliteSubmissionRow} {r : SubmissionRow}
    (h : LegacyTable.submissions.SameColumns P readJsonb u.column r.value) :
    r.id = u.id ∧ r.userId = u.userId ∧ r.retryOf = u.retryOf ∧ r.check = u.check := by
  have hstatus : r.status = u.status := (h ("status", .plain) (by decide)).text_eq
  have hverdict : r.verdict = u.verdict := (h ("verdict", .plain) (by decide)).nullable_text_eq
  have hcompleted : r.completedAt.isSome = u.completedAt.isSome :=
    (h ("completed_at", .timestamptz) (by decide)).isSome_eq
  have hnone : r.completedAt.isNone = u.completedAt.isNone := by
    rw [← Option.not_isSome, ← Option.not_isSome, hcompleted]
  refine ⟨(h ("id", .bigint) (by decide)).bigint_eq, (h ("user_id", .bigint) (by decide)).nullable_bigint_eq,
    (h ("retry_of", .bigint) (by decide)).nullable_bigint_eq, ?_⟩
  unfold SubmissionRow.check SqliteSubmissionRow.check
  cases hvalue : u.verdict with
  | none => simp only [hstatus, hverdict, hcompleted, hnone, hvalue]
  | some v => simp only [hstatus, hverdict, hcompleted, hnone, hvalue]

theorem audit_same {u : SqliteAuditRow} {r : AuditRow}
    (h : LegacyTable.adminAuditLog.SameColumns P readJsonb u.column r.value) :
    r.id = u.id ∧ r.adminUserId = u.adminUserId :=
  ⟨(h ("id", .bigint) (by decide)).bigint_eq, (h ("admin_user_id", .bigint) (by decide)).bigint_eq⟩

end values

/-! ## The rows before a row -/

/-- Where a table comes in the tool's order. -/
def LegacyTable.place (t : LegacyTable) : Nat := transferredTables.idxOf t

/-- The tool goes from table to table, and does not come back. -/
theorem schedule_sorted (s : LegacyDatabase) : s.schedule.Pairwise fun a b => a.1.place ≤ b.1.place := by
  unfold LegacyDatabase.schedule
  rw [List.pairwise_flatMap]
  refine ⟨fun t _ => List.pairwise_map.mpr (List.pairwise_of_forall fun _ _ => Nat.le_refl _), ?_⟩
  have hplaces : transferredTables.Pairwise fun a b => a.place ≤ b.place := by decide
  refine hplaces.imp fun {t t'} hle a ha b hb => ?_
  obtain ⟨_, -, rfl⟩ := List.mem_map.mp ha
  obtain ⟨_, -, rfl⟩ := List.mem_map.mp hb
  exact hle

section before
variable {s : LegacyDatabase} {t t' : LegacyTable} {r : String → Cell}
  {done rest : List (LegacyTable × (String → Cell))}

/-- The rows of a table up to here are the first ones of it. -/
theorem rows_split (h : done ++ (t, r) :: rest = s.schedule) (t' : LegacyTable) :
    s.rows t' = rowsOf t' done ++ rowsOf t' ((t, r) :: rest) := by
  rw [← rowsOf_schedule t', ← h, rowsOf_append]

/-- Of its own table, the row is the next one. -/
theorem rows_split_self (h : done ++ (t, r) :: rest = s.schedule) :
    s.rows t = rowsOf t done ++ r :: rowsOf t rest := by
  have hself : rowsOf t ((t, r) :: rest) = r :: rowsOf t rest := by simp [rowsOf]
  rw [rows_split h, hself]

/-- The rows of a table before its own are all there. -/
theorem rows_earlier (h : done ++ (t, r) :: rest = s.schedule) (ht' : t'.place < t.place) :
    rowsOf t' done = s.rows t' := by
  -- What comes from the row on is of its table or of a later one.
  have hsorted := h ▸ schedule_sorted s
  have hlater := (List.pairwise_cons.mp (List.pairwise_append.mp hsorted).2.1).1
  have hnone : rowsOf t' ((t, r) :: rest) = [] := by
    refine List.filterMap_eq_nil_iff.mpr fun x hx => if_neg fun he => ?_
    rcases List.mem_cons.mp hx with rfl | hx
    · exact absurd (he ▸ ht') (lt_irrefl _)
    · exact absurd (he ▸ hlater x hx) (not_le.mpr ht')
  rw [rows_split h, hnone, List.append_nil]

/-- A row of a table is the next one: before it come rows of the table with other keys. -/
theorem next_row {ρ κ : Type} [Keyed ρ κ] {T : Table ρ} {le : ρ → ρ → Bool} {col : ρ → String → Cell}
    (hrows : s.rows t = (orderBy le T.rows).map col) (h : done ++ (t, r) :: rest = s.schedule) :
    ∃ us u ws, orderBy le T.rows = us ++ u :: ws ∧ rowsOf t done = us.map col ∧ r = col u ∧ u ∈ T ∧
      ∀ x ∈ us, x ∈ T ∧ Keyed.key x ≠ Keyed.key u := by
  have hsplit := rows_split_self h
  rw [hrows] at hsplit
  obtain ⟨us, vs, horder, hus, hvs⟩ := List.map_eq_append_iff.mp hsplit
  obtain ⟨u, ws, rfl, hu, -⟩ := List.map_eq_cons_iff.mp hvs
  have hmem : ∀ x, x ∈ us ++ u :: ws → x ∈ T := fun x hx => mem_orderBy.mp (horder ▸ hx)
  -- Sorting keeps the keys distinct.
  have hnodup : ((us ++ u :: ws).map Keyed.key).Nodup := by
    rw [← horder]
    exact ((List.perm_insertionSort _ T.rows).map _).nodup_iff.mpr T.nodup
  rw [List.map_append, List.map_cons, List.nodup_append] at hnodup
  refine ⟨us, u, ws, horder, hus.symm, hu.symm, hmem u (by simp), fun x hx => ⟨hmem x (by simp [hx]), ?_⟩⟩
  exact hnodup.2.2 _ (List.mem_map_of_mem hx) _ List.mem_cons_self

end before

/-! ## Rows that have arrived -/

/-- The target holds these rows, every column equal. -/
def Arrived (P : Platform) (readJsonb : ReadJsonb) (done : List (LegacyTable × (String → Cell)))
    (db : Database) : Prop :=
  ∀ t, List.Forall₂ (t.SameColumns P readJsonb) (rowsOf t done) (db.values P t)

section arrived
variable {P : Platform} {readJsonb : ReadJsonb} {s : LegacyDatabase} {db : Database}
  {done rest : List (LegacyTable × (String → Cell))} {t : LegacyTable} {r : String → Cell}

/-- What was copied has arrived, if no text was cut. -/
theorem Copied.arrived (hcopied : Copied P readJsonb done db) (hfree : s.NulFree)
    (hdone : done ++ rest = s.schedule) : Arrived P readJsonb done db := by
  intro t
  refine (forall₂_mem (hcopied t)).imp fun c v h => ?_
  have hc : c ∈ s.rows t := by
    rw [← rowsOf_schedule t, ← hdone, rowsOf_append]
    exact List.mem_append_left _ h.2.1
  exact (sameColumns_iff (fits_rows s t c hc) h.1).mpr (hfree t c hc)

/-- A row of the target is one that was inserted. -/
theorem Arrived.of_mem (h : Arrived P readJsonb done db) {x : (t.target P).Row}
    (hx : x ∈ (t.target P).rows db) :
    ∃ c ∈ rowsOf t done, t.SameColumns P readJsonb c ((t.target P).value x) :=
  forall₂_exists_left (h t) (List.mem_map_of_mem hx)

/-- A row that was inserted is in the target. -/
theorem Arrived.mem (h : Arrived P readJsonb done db) {c : String → Cell} (hc : c ∈ rowsOf t done) :
    ∃ x ∈ (t.target P).rows db, t.SameColumns P readJsonb c ((t.target P).value x) := by
  obtain ⟨v, hv, hsame⟩ := forall₂_exists_right (h t) hc
  obtain ⟨x, hx, rfl⟩ := List.mem_map.mp hv
  exact ⟨x, hx, hsame⟩

/-- The users are there, once their table is. -/
theorem Arrived.hasUser (h : Arrived P readJsonb done db) (hall : rowsOf .users done = s.rows .users)
    {id : Int} (hid : id ∈ s.accounts.users.rows.map (·.id)) : db.hasUser id = true := by
  obtain ⟨u, hu, rfl⟩ := List.mem_map.mp hid
  have hrow : u.column ∈ rowsOf .users done := by
    rw [hall]
    exact List.mem_map_of_mem (mem_orderBy.mpr hu)
  obtain ⟨x, hx, hsame⟩ := h.mem hrow
  exact hasUser_iff.mpr ⟨x, hx, (user_same hsame).1⟩

/-- So are the problems. -/
theorem Arrived.hasProblem (h : Arrived P readJsonb done db) (hall : rowsOf .problems done = s.rows .problems)
    {p : SqliteProblemRow} (hp : p ∈ s.catalog.problems) : db.problems.count (·.id == p.id) ≠ 0 := by
  have hrow : p.column ∈ rowsOf .problems done := by
    rw [hall]
    exact List.mem_map_of_mem (mem_orderBy.mpr hp)
  obtain ⟨x, hx, hsame⟩ := h.mem hrow
  intro hnone
  have hfalse := Table.count_eq_zero.mp hnone x hx
  rw [(problem_same hsame).1] at hfalse
  simp at hfalse

/-! ### One table after the other

Each proof has one step for each constraint. For a unique key: a row of the target that had it would be one
that was inserted before, so a row of the source other than this one, which has another key.
-/

/-- SQLite compares names by `NOCASE`, which folds the letters A to Z, and PostgreSQL by `lower`. Names are in
    ASCII, where these are the same. -/
theorem user_admitted (hsound : SoundLegacy P s) (hP : P.Lawful) (harrived : Arrived P readJsonb done db)
    (hdone : done ++ (.users, r) :: rest = s.schedule) {row : UserRow}
    (hsame : LegacyTable.users.SameColumns P readJsonb r row.value) : db.refusesUser P row = none := by
  obtain ⟨us, u, ws, -, hus, rfl, hu, hbefore⟩ := next_row rfl hdone
  obtain ⟨hid, hname⟩ := user_same hsame
  refine if_neg (not_not.mpr (Table.count_eq_zero.mpr fun x hx => ?_))
  obtain ⟨c, hc, hx_same⟩ := harrived.of_mem (t := .users) hx
  rw [hus] at hc
  obtain ⟨y, hy, rfl⟩ := List.mem_map.mp hc
  obtain ⟨hy, hne⟩ := hbefore y hy
  obtain ⟨hx_id, hx_name⟩ := user_same hx_same
  have hlower : P.lower x.username ≠ P.lower row.username := by
    intro he
    -- on ASCII the index on `lower(username)` compares what `NOCASE` does
    rw [hx_name, hname, hP.lower_ascii _ (hsound.accounts.names y hy).ascii,
      hP.lower_ascii _ (hsound.accounts.names u hu).ascii] at he
    exact hne (congrArg SqliteUserRow.id (hsound.accounts.unique y hy u hu he))
  rw [Bool.or_eq_false_iff]
  exact ⟨beq_eq_false_iff_ne.mpr fun he => hne (hx_id.symm.trans (he.trans hid)),
    beq_eq_false_iff_ne.mpr hlower⟩

/-- The token is unique, and the user is there. -/
theorem session_admitted (hsound : SoundLegacy P s) (harrived : Arrived P readJsonb done db)
    (hdone : done ++ (.sessions, r) :: rest = s.schedule) {row : SessionRow}
    (hsame : LegacyTable.sessions.SameColumns P readJsonb r row.value) : db.refusesSession row = none := by
  obtain ⟨us, u, ws, -, hus, rfl, hu, hbefore⟩ := next_row rfl hdone
  obtain ⟨hid, huser, htoken⟩ := session_same hsame
  have hfree : db.sessions.count (fun x => x.id == row.id || x.tokenHash == row.tokenHash) = 0 := by
    refine Table.count_eq_zero.mpr fun x hx => ?_
    obtain ⟨c, hc, hx_same⟩ := harrived.of_mem (t := .sessions) hx
    rw [hus] at hc
    obtain ⟨y, hy, rfl⟩ := List.mem_map.mp hc
    obtain ⟨hy, hne⟩ := hbefore y hy
    obtain ⟨hx_id, -, hx_token⟩ := session_same hx_same
    rw [Bool.or_eq_false_iff]
    refine ⟨beq_eq_false_iff_ne.mpr fun he => hne (hx_id.symm.trans (he.trans hid)),
      beq_eq_false_iff_ne.mpr fun he => hne ?_⟩
    have htokens : y.tokenHash = u.tokenHash := by rw [← hx_token, he, htoken]
    exact congrArg SqliteSessionRow.id (hsound.sessions.tokens y hy u hu htokens)
  have hthere : db.hasUser row.userId = true := by
    rw [huser]
    exact harrived.hasUser (rows_earlier hdone (by decide)) (hsound.sessions.users u hu)
  unfold Database.refusesSession
  rw [hfree, hthere]
  rfl

/-- The difficulty is one of three, and the revision is positive. -/
theorem problem_admitted (hsound : SoundLegacy P s) (harrived : Arrived P readJsonb done db)
    (hdone : done ++ (.problems, r) :: rest = s.schedule) {row : ProblemRow}
    (hsame : LegacyTable.problems.SameColumns P readJsonb r row.value) : db.refusesProblem row = none := by
  obtain ⟨us, u, ws, -, hus, rfl, hu, hbefore⟩ := next_row rfl hdone
  obtain ⟨hid, hdifficulty, hrevision⟩ := problem_same hsame
  obtain ⟨hcheck, hpositive⟩ := hsound.catalog.problems u hu
  have hchecked : row.check = true := by
    unfold ProblemRow.check
    rw [hdifficulty, hrevision, Bool.and_eq_true]
    exact ⟨hcheck, decide_eq_true hpositive⟩
  have hfree : db.problems.count (·.id == row.id) = 0 := by
    refine Table.count_eq_zero.mpr fun x hx => ?_
    obtain ⟨c, hc, hx_same⟩ := harrived.of_mem (t := .problems) hx
    rw [hus] at hc
    obtain ⟨y, hy, rfl⟩ := List.mem_map.mp hc
    exact beq_eq_false_iff_ne.mpr fun he =>
      (hbefore y hy).2 ((problem_same hx_same).1.symm.trans (he.trans hid))
  unfold Database.refusesProblem
  rw [hchecked, hfree]
  rfl

/-- No other test of the problem is at the position, and the problem is there. -/
theorem problemTest_admitted (hsound : SoundLegacy P s) (harrived : Arrived P readJsonb done db)
    (hdone : done ++ (.problemTests, r) :: rest = s.schedule) {row : ProblemTestRow}
    (hsame : LegacyTable.problemTests.SameColumns P readJsonb r row.value) :
    db.refusesProblemTest row = none := by
  obtain ⟨us, u, ws, -, hus, rfl, hu, hbefore⟩ := next_row rfl hdone
  obtain ⟨hid, hproblem, hposition, hrevision⟩ := problemTest_same hsame
  have hchecked : row.check = true := by
    unfold ProblemTestRow.check
    rw [hrevision]
    exact decide_eq_true (hsound.catalog.revisions u hu)
  have hfree : db.problemTests.count
      (fun x => x.id == row.id || (x.problemId == row.problemId && x.position == row.position)) = 0 := by
    refine Table.count_eq_zero.mpr fun x hx => ?_
    obtain ⟨c, hc, hx_same⟩ := harrived.of_mem (t := .problemTests) hx
    rw [hus] at hc
    obtain ⟨y, hy, rfl⟩ := List.mem_map.mp hc
    obtain ⟨hy, hne⟩ := hbefore y hy
    obtain ⟨hx_id, hx_problem, hx_position, -⟩ := problemTest_same hx_same
    rw [Bool.or_eq_false_iff]
    refine ⟨beq_eq_false_iff_ne.mpr fun he => hne (hx_id.symm.trans (he.trans hid)), ?_⟩
    rw [Bool.eq_false_iff, ne_eq, Bool.and_eq_true, beq_iff_eq, beq_iff_eq, hx_problem, hx_position,
      hproblem, hposition]
    rintro ⟨hsame_problem, hsame_position⟩
    exact hne (congrArg SqliteProblemTestRow.id
      (hsound.catalog.positions y hy u hu hsame_problem hsame_position))
  have hthere : db.problems.count (·.id == row.problemId) ≠ 0 := by
    obtain ⟨p, hp, hp_id⟩ := s.catalog.references u hu
    rw [hproblem, ← hp_id]
    exact harrived.hasProblem (rows_earlier hdone (by decide)) hp
  unfold Database.refusesProblemTest
  rw [hchecked, hfree, if_neg hthere]
  rfl

/-- **A retry comes after what it retries.** -/
theorem retried_before (hqueue : SoundQueue s.queue) {us ws : List SqliteSubmissionRow}
    {u : SqliteSubmissionRow} (horder : s.submissions = us ++ u :: ws) {id : Int}
    (hretry : u.retryOf = some id) :
    ∃ y ∈ us, y.id = id := by
  have hmem : ∀ x, x ∈ us ++ u :: ws ↔ x ∈ s.queue.submissions := fun x => by
    rw [← horder]
    exact mem_orderBy
  obtain ⟨hlt, hid⟩ := hqueue.retried u ((hmem u).mp (by simp)) id hretry
  obtain ⟨y, hy, rfl⟩ := List.mem_map.mp hid
  rcases List.mem_append.mp ((hmem y).mpr hy) with hy | hy
  · exact ⟨y, hy, rfl⟩
  · -- What is after the retry has a larger id.
    have hsorted : (us ++ u :: ws).Pairwise fun a b => decide (a.id ≤ b.id) = true := by
      rw [← horder]
      refine pairwise_orderBy (fun a b => ?_) (fun a b c hab hbc => ?_) _
      · simpa only [decide_eq_true_eq] using Int.le_total a.id b.id
      · rw [decide_eq_true_eq] at hab hbc ⊢
        exact Int.le_trans hab hbc
    have hlater := (List.pairwise_cons.mp (List.pairwise_append.mp hsorted).2.1).1
    rcases List.mem_cons.mp hy with rfl | hy
    · exact absurd hlt (Int.lt_irrefl _)
    · have hle := of_decide_eq_true (hlater y hy)
      omega

/-- No other submission is a retry of the same one, and the user and the submission that is retried are there. -/
theorem submission_admitted (hsound : SoundLegacy P s) (harrived : Arrived P readJsonb done db)
    (hdone : done ++ (.submissions, r) :: rest = s.schedule) {row : SubmissionRow}
    (hsame : LegacyTable.submissions.SameColumns P readJsonb r row.value) :
    db.refusesSubmission row = none := by
  obtain ⟨us, u, ws, horder, hus, rfl, hu, hbefore⟩ := next_row rfl hdone
  obtain ⟨hid, huser, hretry, hcheck⟩ := submission_same hsame
  have hchecked : row.check = true := hcheck.trans (hsound.queue.checked u hu)
  have hfree : db.submissions.count
      (fun x => x.id == row.id || (row.retryOf.isSome && x.retryOf == row.retryOf)) = 0 := by
    refine Table.count_eq_zero.mpr fun x hx => ?_
    obtain ⟨c, hc, hx_same⟩ := harrived.of_mem (t := .submissions) hx
    rw [hus] at hc
    obtain ⟨y, hy, rfl⟩ := List.mem_map.mp hc
    obtain ⟨hy, hne⟩ := hbefore y hy
    obtain ⟨hx_id, -, hx_retry, -⟩ := submission_same hx_same
    rw [Bool.or_eq_false_iff]
    refine ⟨beq_eq_false_iff_ne.mpr fun he => hne (hx_id.symm.trans (he.trans hid)), ?_⟩
    rw [Bool.eq_false_iff, ne_eq, Bool.and_eq_true, beq_iff_eq, hx_retry, hretry]
    rintro ⟨hsome, hsame_retry⟩
    obtain ⟨id, hof⟩ := Option.isSome_iff_exists.mp hsome
    exact hne (congrArg SqliteSubmissionRow.id
      (hsound.queue.once y hy u hu id (hsame_retry.trans hof) hof))
  have hthere : row.userId.all db.hasUser = true := by
    rw [huser, Option.all_eq_true]
    intro user hof
    have hmem := hsound.queue.users u hu user hof
    rw [hsound.userIds] at hmem
    exact harrived.hasUser (rows_earlier hdone (by decide)) hmem
  have hretried : row.retryOf.all
      (fun id => id == row.id || decide (0 < db.submissions.count (·.id == id))) = true := by
    rw [hretry, Option.all_eq_true]
    intro id hof
    obtain ⟨y, hy, rfl⟩ := retried_before hsound.queue horder hof
    have hrow : y.column ∈ rowsOf .submissions done := by
      rw [hus]
      exact List.mem_map_of_mem hy
    obtain ⟨x, hx, hx_same⟩ := harrived.mem hrow
    rw [Bool.or_eq_true, decide_eq_true_eq, Nat.pos_iff_ne_zero]
    refine .inr fun hnone => ?_
    have hfalse := Table.count_eq_zero.mp hnone x hx
    rw [(submission_same hx_same).1] at hfalse
    simp at hfalse
  unfold Database.refusesSubmission
  rw [hchecked, hfree, hthere, hretried]
  rfl

/-- The administrator is there. -/
theorem audit_admitted (hsound : SoundLegacy P s) (harrived : Arrived P readJsonb done db)
    (hdone : done ++ (.adminAuditLog, r) :: rest = s.schedule) {row : AuditRow}
    (hsame : LegacyTable.adminAuditLog.SameColumns P readJsonb r row.value) : db.refusesAudit row = none := by
  obtain ⟨us, u, ws, -, hus, rfl, hu, hbefore⟩ := next_row rfl hdone
  obtain ⟨hid, hadmin⟩ := audit_same hsame
  have hfree : db.adminAuditLog.count (·.id == row.id) = 0 := by
    refine Table.count_eq_zero.mpr fun x hx => ?_
    obtain ⟨c, hc, hx_same⟩ := harrived.of_mem (t := .adminAuditLog) hx
    rw [hus] at hc
    obtain ⟨y, hy, rfl⟩ := List.mem_map.mp hc
    exact beq_eq_false_iff_ne.mpr fun he =>
      (hbefore y hy).2 ((audit_same hx_same).1.symm.trans (he.trans hid))
  have hthere : db.hasUser row.adminUserId = true := by
    rw [hadmin]
    exact harrived.hasUser (rows_earlier hdone (by decide)) (hsound.userIds ▸ hsound.queue.admins u hu)
  unfold Database.refusesAudit
  rw [hfree, hthere]
  rfl

/-- **No constraint refuses the next row**, if the source is sound and no text of it is cut. -/
theorem refuses_none (hsound : SoundLegacy P s) (hP : P.Lawful) (hfree : s.NulFree)
    (hdone : done ++ (t, r) :: rest = s.schedule) (hcopied : Copied P readJsonb done db)
    {row : (t.target P).Row} (hreads : t.Reads P readJsonb r ((t.target P).value row)) :
    (t.target P).refuses db row = none := by
  have harrived := hcopied.arrived hfree hdone
  have hr : r ∈ s.rows t := by
    rw [rows_split_self hdone]
    exact List.mem_append_right _ List.mem_cons_self
  have hsame := (sameColumns_iff (fits_rows s t r hr) hreads).mpr (hfree t r hr)
  cases t with
  | users => exact user_admitted hsound hP harrived hdone hsame
  | sessions => exact session_admitted hsound harrived hdone hsame
  | problems => exact problem_admitted hsound harrived hdone hsame
  | problemTests => exact problemTest_admitted hsound harrived hdone hsame
  | submissions => exact submission_admitted hsound harrived hdone hsame
  | adminAuditLog => exact audit_admitted hsound harrived hdone hsame

end arrived
end AlgorithmTrainer
