import Mathlib.Data.String.Basic
import AlgorithmTrainer.Sqlite.Repository
import AlgorithmTrainer.Submission.Filtering

/-!
# `Sqlite.Filtering` — the filtered list in SQLite

`SQLiteSubmissionRepository::list_filtered` counts its placeholders and binds a text or a number to each. A
time is stored as the text that `strftime` makes of it (`stored`), and compared with `from` and `to` as a
text. `sqlite_lists_iff` says when this lists what was asked for, and `both_list_iff` when both repositories do;
`both_list_spelled` says how times and texts are to be written so that they do.
-/

namespace AlgorithmTrainer

open Interaction Relational

/-! ## The statement -/

/-- `std::variant<std::string, std::int64_t>`. -/
inductive SqliteParameter where
  | text (value : String)
  | integer (value : Int)
deriving DecidableEq, Repr

/-- A clause with the parameter that is bound to it: a number to `user_id`, a text to every other column. -/
def FilterClause.sqliteMeaning : FilterClause → SqliteParameter → Option (SqliteSubmissionRow → Bool)
  | .status, .text value => some fun r => r.status == value
  | .errorType, .text value => some fun r => r.errorType == some value
  | .language, .text value => some fun r => r.language == value
  | .problemId, .text value => some fun r => r.problemId == value
  | .userId, .integer value => some fun r => r.userId == some value
  | .createdFrom, .text value => some fun r => !decide (r.createdAt < value)
  | .createdTo, .text value => some fun r => !decide (value < r.createdAt)
  | _, _ => none

@[reducible] def SqliteFilterQueries : Signature :=
  ⟨Built FilterClause SqliteParameter, fun _ => Stepped SqliteSubmissionRow⟩

/-- `SELECT … FROM submissions WHERE 1 = 1 … ORDER BY created_at DESC, id DESC LIMIT 500;`. -/
def serveSqliteFilterQueries : Service SqliteFilterQueries SqliteChoice SqliteDatabase := fun q c db =>
  match c.fault with
  | some .prepare => (.unprepared c.message, db)
  | some .step => (.error c.message, db)
  | none =>
      match q.condition FilterClause.sqliteMeaning with
      | some p =>
          (.rows ((orderBy SqliteSubmissionRow.newestFirst (db.submissions.select p)).take 500), db)
      | none => (.error c.message, db)

namespace SQLiteSubmissionRepository

/-- The statement with its parameters. -/
def filterQuery (filter : SubmissionAdminFilter) : Built FilterClause SqliteParameter :=
  let status := filter.status.map PostgreSQLSubmissionRepository.filterStatus
  (((((((Built.empty.addPositional .status (status.map .text)).addPositional
    .errorType (filter.errorType.map .text)).addPositional
    .language (filter.language.map .text)).addPositional
    .problemId (filter.problemId.map .text)).addPositional
    .userId (filter.userId.map .integer)).addPositional
    .createdFrom (filter.createdFrom.map .text)).addPositional
    .createdTo (filter.createdTo.map .text))

def listFiltered (filter : SubmissionAdminFilter) :
    Program SqliteFilterQueries Exception (Except RepositoryError (List SubmissionRecord)) := do
  let result ← .ask (S := SqliteFilterQueries) (filterQuery filter)
  match result with
  | .unprepared message => pure (.error { message })
  | .rows rows => pure (rows.mapM readRecord)
  | .error message => pure (.error (databaseError message "Could not filter submissions"))

end SQLiteSubmissionRepository

/-! ## The stored table -/

/-- A submission as SQLite holds it. -/
def stored (strftime : Timestamp → String) (r : SubmissionRow) : SqliteSubmissionRow where
  id := r.id
  problemId := r.problemId
  language := r.language
  sourceCode := r.sourceCode
  status := r.status
  verdict := r.verdict
  createdAt := strftime r.createdAt
  completedAt := r.completedAt.map strftime
  userId := r.userId
  errorType := r.errorType
  retryOf := r.retryOf

/-- Of two submissions, the text of the earlier time is the lesser one: the texts have one width, and the
    larger units come first. -/
def Dated (strftime : Timestamp → String) (rows : List SubmissionRow) : Prop :=
  ∀ r ∈ rows, ∀ r' ∈ rows, r.createdAt < r'.createdAt → strftime r.createdAt < strftime r'.createdAt

/-- The stored time is between the given ones, compared as texts. -/
def SubmissionAdminFilter.withinTexts (strftime : Timestamp → String) (filter : SubmissionAdminFilter)
    (r : SubmissionRow) : Bool :=
  filter.createdFrom.all (fun s => !decide (strftime r.createdAt < s))
    && filter.createdTo.all fun s => !decide (s < strftime r.createdAt)

/-- Of the first rows that satisfy the other conditions and are within the times as instants or as texts, each
    is within them as both. -/
def SubmissionAdminFilter.ComparedAlike (P : Platform) (strftime : Timestamp → String)
    (filter : SubmissionAdminFilter) (rows : List SubmissionRow) : Prop :=
  ∀ r ∈ listed rows fun r => filter.selects r && (filter.withinTexts strftime r || filter.within P r),
    filter.withinTexts strftime r = filter.within P r

section stored
variable {strftime : Timestamp → String} {filter : SubmissionAdminFilter} {rows : List SubmissionRow}

/-- A clause with the parameter that is bound to it. -/
theorem optional_bound {α : Type} {clause : FilterClause} {f : α → SqliteParameter}
    {c : α → SqliteSubmissionRow → Bool} (hclause : ∀ value, clause.sqliteMeaning (f value) = some (c value))
    (o : Option α) :
    Built.optional FilterClause.sqliteMeaning clause (o.map f) = some fun r => o.all (c · r) := by
  cases o with
  | none => rfl
  | some value => exact hclause value

/-- **The statement means what it is bound for**: the conditions that are given, the times as texts. -/
theorem condition_filterQuery (strftime : Timestamp → String) (filter : SubmissionAdminFilter) :
    ∃ p, (SQLiteSubmissionRepository.filterQuery filter).condition FilterClause.sqliteMeaning = some p ∧
      ∀ r, p (stored strftime r) = (filter.selects r && filter.withinTexts strftime r) := by
  have hstatus : ∀ r : SubmissionRow,
      (filter.status.map PostgreSQLSubmissionRepository.filterStatus).all (r.status == ·)
        = filter.status.all fun s => PostgreSQLSubmissionRepository.status r.status == some s := by
    intro r
    cases filter.status with
    | none => rfl
    | some s =>
        have htext : text (PostgreSQLSubmissionRepository.filterStatus s)
            = PostgreSQLSubmissionRepository.filterStatus s := by cases s <;> rfl
        exact (congrArg (r.status == ·) htext).symm.trans (stored_status r s)
  unfold SQLiteSubmissionRepository.filterQuery
  simp only [Built.addPositional_eq, Built.condition_add, Built.condition_empty]
  rw [optional_bound (c := fun value r => r.status == value) (fun _ => rfl),
    optional_bound (c := fun value r => r.errorType == some value) (fun _ => rfl),
    optional_bound (c := fun value r => r.language == value) (fun _ => rfl),
    optional_bound (c := fun value r => r.problemId == value) (fun _ => rfl),
    optional_bound (c := fun value r => r.userId == some value) (fun _ => rfl),
    optional_bound (c := fun value r => !decide (r.createdAt < value)) (fun _ => rfl),
    optional_bound (c := fun value r => !decide (value < r.createdAt)) (fun _ => rfl)]
  refine ⟨_, rfl, fun r => ?_⟩
  simp only [SubmissionAdminFilter.selects, SubmissionAdminFilter.withinTexts, ← hstatus, stored,
    Bool.true_and, Bool.and_assoc]
  rfl

/-- The stored rows are ordered as the rows are. -/
theorem newestFirst_stored (h : Dated strftime rows) {a b : SubmissionRow} (ha : a ∈ rows) (hb : b ∈ rows) :
    newestFirst a b = (stored strftime a).newestFirst (stored strftime b) := by
  have hlt : ∀ {r r' : SubmissionRow}, r ∈ rows → r' ∈ rows →
      (strftime r.createdAt < strftime r'.createdAt ↔ r.createdAt < r'.createdAt) := by
    intro r r' hr hr'
    refine ⟨fun htext => ?_, h r hr r' hr'⟩
    rcases lt_trichotomy (r.createdAt : Int) r'.createdAt with hlt | heq | hgt
    · exact hlt
    · exact absurd (heq ▸ htext) (lt_irrefl _)
    · exact absurd htext (h r' hr' r hr hgt).not_gt
  have heq : (strftime a.createdAt = strftime b.createdAt ↔ a.createdAt = b.createdAt) := by
    refine ⟨fun htext => ?_, congrArg strftime⟩
    rcases lt_trichotomy (a.createdAt : Int) b.createdAt with hlt' | heq | hgt
    · exact absurd (htext ▸ h a ha b hb hlt') (lt_irrefl _)
    · exact heq
    · exact absurd (htext ▸ h b hb a ha hgt) (lt_irrefl _)
  rw [Bool.eq_iff_iff]
  show _ ↔ (decide (strftime b.createdAt < strftime a.createdAt)
    || (strftime a.createdAt == strftime b.createdAt && decide (b.id ≤ a.id))) = true
  simp only [newestFirst, Bool.or_eq_true, Bool.and_eq_true, decide_eq_true_eq, beq_iff_eq, hlt hb ha, heq]

theorem SqliteSubmissionRow.newestFirst_descends :
    Descends newestFirst fun r : SqliteSubmissionRow => toLex (r.createdAt, r.id) := by
  intro a b
  rw [Prod.Lex.toLex_le_toLex]
  simp only [newestFirst, Bool.or_eq_true, Bool.and_eq_true, decide_eq_true_eq, beq_iff_eq,
    eq_comm (a := a.createdAt)]

end stored

/-! ## The lists -/

section lists
variable {P : Platform} {strftime : Timestamp → String} {filter : SubmissionAdminFilter}
  {t : Table SubmissionRow} {w : World SqliteChoice SqliteDatabase}

/-- SQLite lists the rows whose texts satisfy the filter. -/
theorem sqlite_run (hdated : Dated strftime t.rows)
    (hstored : w.state.submissions.rows.Perm (t.rows.map (stored strftime)))
    (hserved : (w.choices 0).fault = none) :
    ((SQLiteSubmissionRepository.listFiltered filter).run serveSqliteFilterQueries w).1
      = .ok ((listed t.rows fun r => filter.selects r && filter.withinTexts strftime r).mapM fun r =>
          SQLiteSubmissionRepository.readRecord (stored strftime r)) := by
  obtain ⟨p, hp, hmeaning⟩ := condition_filterQuery strftime filter
  have hrows : (orderBy SqliteSubmissionRow.newestFirst (w.state.submissions.select p)).take 500
      = (listed t.rows fun r => filter.selects r && filter.withinTexts strftime r).map
          (stored strftime) := by
    have hperm : (w.state.submissions.select p).Perm
        ((t.rows.filter fun r => filter.selects r && filter.withinTexts strftime r).map
          (stored strftime)) := by
      refine (hstored.filter p).trans (.of_eq ?_)
      rw [List.filter_map]
      exact congrArg _ (List.filter_congr fun r _ => hmeaning r)
    have hids : ∀ a ∈ w.state.submissions.select p, ∀ b ∈ w.state.submissions.select p,
        toLex (a.createdAt, a.id) = toLex (b.createdAt, b.id) → a = b := fun a ha b hb h =>
      Table.eq_of_key (Table.mem_select.mp ha).1 (Table.mem_select.mp hb).1
        (congrArg (fun x => (ofLex x).2) h)
    have horder : ∀ l, (∀ r ∈ l, r ∈ t.rows) → (orderBy newestFirst l).map (stored strftime)
        = orderBy SqliteSubmissionRow.newestFirst (l.map (stored strftime)) := fun l hl =>
      map_orderBy fun a ha b hb => newestFirst_stored hdated (hl a ha) (hl b hb)
    rw [orderBy_perm SqliteSubmissionRow.newestFirst_descends hids hperm, listed, List.map_take,
      horder _ fun r hr => (List.mem_filter.mp hr).1]
  unfold SQLiteSubmissionRepository.listFiltered
  rw [Program.ask_bind, Program.run_call]
  unfold serveSqliteFilterQueries
  rw [hserved, hp]
  show Except.ok (((orderBy SqliteSubmissionRow.newestFirst (w.state.submissions.select p)).take
    500).mapM SQLiteSubmissionRepository.readRecord) = _
  rw [hrows, List.mapM_map]
  rfl

/-- **When SQLite lists what was asked for.** -/
theorem sqlite_lists_iff (hchecked : ∀ r ∈ t, r.check = true) (hdated : Dated strftime t.rows)
    (hstored : w.state.submissions.rows.Perm (t.rows.map (stored strftime)))
    (hserved : (w.choices 0).fault = none) :
    Lists (fun r => SQLiteSubmissionRepository.readRecord (stored strftime r))
        (listed t.rows (filter.accepts P))
        ((SQLiteSubmissionRepository.listFiltered filter).run serveSqliteFilterQueries w).1 ↔
      filter.ComparedAlike P strftime t.rows := by
  have hread : ∀ r ∈ t, ∃ x,
      SQLiteSubmissionRepository.readRecord (stored strftime r) = .ok x ∧ x.id = r.id := by
    intro r hr
    obtain ⟨x, hx, -⟩ := PostgreSQLSubmissionRepository.record_checked
      (P := { P with printTimestamp := strftime }) (hchecked r hr)
    exact ⟨x, hx, (PostgreSQLSubmissionRepository.record_columns hx).1⟩
  rw [sqlite_run hdated hstored hserved, lists_iff hread (fun r hr => (of_mem_listed hr).1)
    fun r hr => (of_mem_listed hr).1, listed_eq_iff]
  have hunion : (fun r => filter.selects r && filter.withinTexts strftime r || filter.accepts P r)
      = fun r => filter.selects r && (filter.withinTexts strftime r || filter.within P r) := by
    funext r
    exact (Bool.and_or_distrib_left _ _ _).symm
  rw [hunion, SubmissionAdminFilter.ComparedAlike]
  refine forall₂_congr fun r hr => ?_
  have hselects : filter.selects r = true := (Bool.and_eq_true_iff.mp (of_mem_listed hr).2).1
  rw [SubmissionAdminFilter.accepts, hselects, Bool.true_and, Bool.true_and]

/-- **The guarantee.** Both repositories return the rows that satisfy the filter, newest first and 500 at
    most, so they return the same ones. -/
structure BothList (P : Platform) (strftime : Timestamp → String) (filter : SubmissionAdminFilter)
    (rows : List SubmissionRow)
    (outcome outcome' : Except Exception (Except RepositoryError (List SubmissionRecord))) : Prop where
  postgres : Lists (PostgreSQLSubmissionRepository.record P) (listed rows (filter.accepts P)) outcome
  sqlite : Lists (fun r => SQLiteSubmissionRepository.readRecord (stored strftime r))
    (listed rows (filter.accepts P)) outcome'
  same : ∃ records records', outcome = .ok (.ok records) ∧ outcome' = .ok (.ok records') ∧
    records.map (·.id) = records'.map (·.id)

/-- The ids of the records are those of the rows. -/
theorem map_id_of_reads {rows : List SubmissionRow} {records : List SubmissionRecord}
    (h : List.Forall₂ (fun r x => PostgreSQLSubmissionRepository.record P r = .ok x) rows records) :
    records.map (·.id) = rows.map (·.id) := by
  induction h with
  | nil => rfl
  | cons hr _ ih =>
      rw [List.map_cons, List.map_cons, ih, (PostgreSQLSubmissionRepository.record_columns hr).1]

/-- Both repositories list what was asked for exactly if the filter is sent and compared alike. -/
theorem bothList_iff_alike (htimed : filter.Timed P) {w : World Choice Database}
    {w' : World SqliteChoice SqliteDatabase} (hserved : (w.choices 0).failure = none)
    (hserved' : (w'.choices 0).fault = none) (hchecked : w.state.Checked)
    (hdated : Dated strftime w.state.submissions.rows)
    (hstored : w'.state.submissions.rows.Perm (w.state.submissions.rows.map (stored strftime))) :
    BothList P strftime filter w.state.submissions.rows
        ((PostgreSQLFiltering.listFiltered P filter).run (serveFilterQueries P) w).1
        ((SQLiteSubmissionRepository.listFiltered filter).run serveSqliteFilterQueries w').1 ↔
      filter.SentAlike P w.state.submissions.rows ∧
        filter.ComparedAlike P strftime w.state.submissions.rows := by
  have hpostgres := postgres_lists_iff htimed hserved hchecked
  have hsqlite : Lists (fun r => SQLiteSubmissionRepository.readRecord (stored strftime r))
      (listed w.state.submissions.rows (filter.accepts P))
      ((SQLiteSubmissionRepository.listFiltered filter).run serveSqliteFilterQueries w').1 ↔
        filter.ComparedAlike P strftime w.state.submissions.rows :=
    sqlite_lists_iff hchecked hdated hstored hserved'
  constructor
  · intro h
    exact ⟨hpostgres.mp h.postgres, hsqlite.mp h.sqlite⟩
  · rintro ⟨hsent, hcompared⟩
    have hlists := hpostgres.mpr hsent
    have hlists' := hsqlite.mpr hcompared
    refine ⟨hlists, hlists', ?_⟩
    -- Both read the same rows, and a record has the id of its row.
    obtain ⟨records, hrun, hread⟩ := hlists
    obtain ⟨records', hrun', hread'⟩ := hlists'
    refine ⟨records, records', hrun, hrun', ?_⟩
    rw [map_id_of_reads hread,
      map_id_of_reads (P := { P with printTimestamp := strftime }) hread']

/-- **When the repositories list what was asked for.** PostgreSQL does, on every table, if the filter is sent
    alike; both do, on a table that both can hold, if besides the times are compared alike. -/
theorem both_list_iff (P : Platform) (strftime : Timestamp → String) (filter : SubmissionAdminFilter)
    (htimed : filter.Timed P) {w : World Choice Database} (hserved : (w.choices 0).failure = none)
    (hchecked : w.state.Checked) :
    (Lists (PostgreSQLSubmissionRepository.record P)
        (listed w.state.submissions.rows (filter.accepts P))
        ((PostgreSQLFiltering.listFiltered P filter).run (serveFilterQueries P) w).1 ↔
      filter.SentAlike P w.state.submissions.rows) ∧
    ∀ w' : World SqliteChoice SqliteDatabase, (w'.choices 0).fault = none →
      Dated strftime w.state.submissions.rows →
      w'.state.submissions.rows.Perm (w.state.submissions.rows.map (stored strftime)) →
      (BothList P strftime filter w.state.submissions.rows
          ((PostgreSQLFiltering.listFiltered P filter).run (serveFilterQueries P) w).1
          ((SQLiteSubmissionRepository.listFiltered filter).run serveSqliteFilterQueries w').1 ↔
        filter.SentAlike P w.state.submissions.rows ∧
          filter.ComparedAlike P strftime w.state.submissions.rows) := by
  refine ⟨postgres_lists_iff htimed hserved hchecked, ?_⟩
  intro w' hserved' hdated hstored
  exact bothList_iff_alike htimed hserved hserved' hchecked hdated hstored

/-! ### How times and texts are to be written -/

/-- The text is a time as SQLite stores times, with milliseconds and a `Z`, and it comes before and after the
    stored ones as the time does. -/
def SpelledTime (P : Platform) (strftime : Timestamp → String) (rows : List SubmissionRow) (s : String) : Prop :=
  '\x00' ∉ s.toList ∧ ∃ t, P.readTimestamp s = some t ∧ s = strftime t ∧ ∀ r ∈ rows,
    (r.createdAt < t → strftime r.createdAt < s) ∧ (t < r.createdAt → s < strftime r.createdAt)

/-- The times that are given are spelled as the stored ones are. -/
structure SubmissionAdminFilter.Spelled (P : Platform) (strftime : Timestamp → String)
    (filter : SubmissionAdminFilter) (rows : List SubmissionRow) : Prop where
  createdFrom : ∀ s ∈ filter.createdFrom, SpelledTime P strftime rows s
  createdTo : ∀ s ∈ filter.createdTo, SpelledTime P strftime rows s

/-- The error type, the language and the problem that are given have no U+0000. -/
structure SubmissionAdminFilter.NulFree (filter : SubmissionAdminFilter) : Prop where
  errorType : ∀ s ∈ filter.errorType, '\x00' ∉ s.toList
  language : ∀ s ∈ filter.language, '\x00' ∉ s.toList
  problemId : ∀ s ∈ filter.problemId, '\x00' ∉ s.toList

theorem SubmissionAdminFilter.NulFree.sent_eq (h : filter.NulFree) : filter.sent = filter := by
  have hkept : ∀ o : Option String, (∀ s ∈ o, '\x00' ∉ s.toList) → o.map text = o := by
    intro o ho
    cases o with
    | none => rfl
    | some s => exact congrArg some (cStr_of_not_mem (ho s rfl))
  unfold SubmissionAdminFilter.sent
  rw [hkept _ h.errorType, hkept _ h.language, hkept _ h.problemId]

theorem SubmissionAdminFilter.NulFree.sentAlike (h : filter.NulFree) (rows : List SubmissionRow) :
    filter.SentAlike P rows := by
  intro r _
  rw [h.sent_eq]

/-- Its text compares with the stored ones as the time does. -/
theorem SpelledTime.lt_iff {rows : List SubmissionRow} {s : String} (h : SpelledTime P strftime rows s)
    {r : SubmissionRow} (hr : r ∈ rows) : ∃ t, P.readTimestamp s = some t ∧
      (strftime r.createdAt < s ↔ r.createdAt < t) ∧ (s < strftime r.createdAt ↔ t < r.createdAt) := by
  obtain ⟨-, t, hread, hspelled, hordered⟩ := h
  obtain ⟨hbefore, hafter⟩ := hordered r hr
  have hsame : r.createdAt = t → strftime r.createdAt = s := fun heq => by rw [hspelled, heq]
  refine ⟨t, hread, ⟨fun hlt => ?_, hbefore⟩, ⟨fun hlt => ?_, hafter⟩⟩
  · rcases lt_trichotomy (r.createdAt : Int) t with h | h | h
    · exact h
    · exact absurd (hsame h ▸ hlt) (lt_irrefl _)
    · exact absurd hlt (hafter h).not_gt
  · rcases lt_trichotomy (r.createdAt : Int) t with h | h | h
    · exact absurd hlt (hbefore h).not_gt
    · exact absurd (hsame h ▸ hlt) (lt_irrefl _)
    · exact h

theorem SubmissionAdminFilter.Spelled.timed {rows : List SubmissionRow}
    (h : filter.Spelled P strftime rows) : filter.Timed P := by
  constructor
  · intro s hs
    obtain ⟨hnul, t, hread, -⟩ := h.createdFrom s hs
    exact ⟨hnul, Option.isSome_of_mem hread⟩
  · intro s hs
    obtain ⟨hnul, t, hread, -⟩ := h.createdTo s hs
    exact ⟨hnul, Option.isSome_of_mem hread⟩

/-- Compared as texts, a row is within the times exactly if it is. -/
theorem SubmissionAdminFilter.Spelled.withinTexts_eq {rows : List SubmissionRow}
    (h : filter.Spelled P strftime rows) {r : SubmissionRow} (hr : r ∈ rows) :
    filter.withinTexts strftime r = filter.within P r := by
  unfold SubmissionAdminFilter.withinTexts SubmissionAdminFilter.within
  congr 1
  · cases hgiven : filter.createdFrom with
    | none => rfl
    | some s =>
        obtain ⟨t, hread, hbefore, -⟩ := (h.createdFrom s hgiven).lt_iff hr
        simp only [Option.all_some, hread, Option.any_some, hbefore, ← decide_not, Int.not_lt]
  · cases hgiven : filter.createdTo with
    | none => rfl
    | some s =>
        obtain ⟨t, hread, -, hafter⟩ := (h.createdTo s hgiven).lt_iff hr
        simp only [Option.all_some, hread, Option.any_some, hafter, ← decide_not, Int.not_lt]

/-- **With times as SQLite writes them, and without U+0000, both list what was asked for.** -/
theorem both_list_spelled {w : World Choice Database} {w' : World SqliteChoice SqliteDatabase}
    (hnul : filter.NulFree) (hspelled : filter.Spelled P strftime w.state.submissions.rows)
    (hserved : (w.choices 0).failure = none) (hserved' : (w'.choices 0).fault = none)
    (hchecked : w.state.Checked) (hdated : Dated strftime w.state.submissions.rows)
    (hstored : w'.state.submissions.rows.Perm (w.state.submissions.rows.map (stored strftime))) :
    BothList P strftime filter w.state.submissions.rows
      ((PostgreSQLFiltering.listFiltered P filter).run (serveFilterQueries P) w).1
      ((SQLiteSubmissionRepository.listFiltered filter).run serveSqliteFilterQueries w').1 := by
  refine (bothList_iff_alike hspelled.timed hserved hserved' hchecked hdated hstored).mpr ⟨?_, ?_⟩
  · exact hnul.sentAlike _
  · intro r hr
    exact hspelled.withinTexts_eq (of_mem_listed hr).1

end lists

/-! ### Times in UTC -/

/-- The number of a day of the Gregorian calendar, counted from 1 January 1970. -/
def dayNumber (year month day : Int) : Int :=
  let y := if month ≤ 2 then year - 1 else year
  let m := if month ≤ 2 then month + 9 else month - 3
  y * 365 + y / 4 - y / 100 + y / 400 + (153 * m + 2) / 5 + day - 719469

/-- Year, month and day of a day's number. -/
def dateOf (n : Int) : Int × Int × Int :=
  let days := (n + 719468) % 146097
  let year := (days - days / 1460 + days / 36524 - days / 146096) / 365
  let day := days - (365 * year + year / 4 - year / 100)
  let month := (5 * day + 2) / 153
  (year + (n + 719468) / 146097 * 400 + (if month < 10 then 0 else 1),
    if month < 10 then month + 3 else month - 9, day - (153 * month + 2) / 5 + 1)

def padded (width : Nat) (n : Int) : List Char :=
  List.replicate (width - (Decimal.digits n).length) '0' ++ Decimal.digits n

/-- Date and time to the second, with the character between them. -/
def dateTime (separator : Char) (t : Timestamp) : List Char :=
  let date := dateOf (t / (86400 * second))
  let seconds := t % (86400 * second) / second
  padded 4 date.1 ++ '-' :: padded 2 date.2.1 ++ '-' :: padded 2 date.2.2 ++ separator ::
    padded 2 (seconds / 3600) ++ ':' :: padded 2 (seconds / 60 % 60) ++ ':' :: padded 2 (seconds % 60)

/-- `strftime('%Y-%m-%dT%H:%M:%fZ', …)`. -/
def isoText (t : Timestamp) : String :=
  String.ofList (dateTime 'T' t ++ '.' :: padded 3 (t % second / 1000) ++ ['Z'])

/-- Read `YYYY-MM-DDTHH:MM:SSZ`, with milliseconds or without. -/
def readIso (s : String) : Option Timestamp := do
  let field (start width : Nat) : Option Nat := Decimal.readNat ((s.toList.drop start).take width)
  let millis ← match s.toList.drop 19 with
    | ['Z'] => some 0
    | ['.', a, b, c, 'Z'] => Decimal.readNat [a, b, c]
    | _ => none
  let day := dayNumber (← field 0 4) (← field 5 2) (← field 8 2)
  let seconds := day * 86400 + (← field 11 2) * 3600 + (← field 14 2) * 60 + (← field 17 2)
  pure (seconds * second + millis * 1000)

/-- A server whose session is in UTC. -/
def utc : Platform :=
  { Platform.plain with
    printTimestamp := fun t => String.ofList (dateTime ' ' t ++ "+00".toList)
    readTimestamp := readIso }

def submitted (id : Int) (createdAt : Timestamp) : SubmissionRow :=
  ⟨id, "a-plus-b", "python", "print(3)", "queued", none, createdAt, none, none, none, none⟩

/-- 2 January 2026, 10:00. -/
def ten : Timestamp := 1767348000 * second

example : isoText ten = "2026-01-02T10:00:00.000Z" ∧ readIso "2026-01-02T10:00:00Z" = some ten := by
  decide +kernel

/-- The same submissions in both databases, at a moment when nothing fails. -/
def postgresHolding (t : Table SubmissionRow) : World Choice Database :=
  ⟨fun _ => .calm, { Database.initial 0 with submissions := t }⟩

def sqliteHolding (t : Table SubmissionRow) : World SqliteChoice SqliteDatabase :=
  ⟨fun _ => .calm, { SqliteDatabase.initial [] with
    submissions := ⟨t.rows.map (stored isoText), by
      rw [List.map_map]
      exact t.nodup⟩ }⟩

/-- Created at the instant that the list is to begin with, the submission is not in SQLite's list: its text
    has milliseconds, and a full stop comes before `Z`. -/
theorem boundary_lost : ¬ ∀ (P : Platform) (strftime : Timestamp → String) (filter : SubmissionAdminFilter)
    (w : World Choice Database) (w' : World SqliteChoice SqliteDatabase), filter.Timed P →
    (w.choices 0).failure = none → (w'.choices 0).fault = none → w.state.Checked →
    Dated strftime w.state.submissions.rows →
    w'.state.submissions.rows.Perm (w.state.submissions.rows.map (stored strftime)) →
    BothList P strftime filter w.state.submissions.rows
      ((PostgreSQLFiltering.listFiltered P filter).run (serveFilterQueries P) w).1
      ((SQLiteSubmissionRepository.listFiltered filter).run serveSqliteFilterQueries w').1 := by
  intro h
  let t : Table SubmissionRow := ⟨[submitted 1 ten], by decide⟩
  let filter : SubmissionAdminFilter := { createdFrom := some "2026-01-02T10:00:00Z" }
  have htimed : filter.Timed utc := by
    refine ⟨fun s hs => ?_, fun s hs => by cases hs⟩
    cases hs
    decide +kernel
  have hdated : Dated isoText t.rows := by
    intro r hr r' hr' hlt
    rw [List.mem_singleton.mp hr, List.mem_singleton.mp hr'] at hlt
    exact absurd hlt (lt_irrefl _)
  have hchecked : (postgresHolding t).state.Checked := Database.checked_iff.mpr (by decide)
  have hboth := h utc isoText filter (postgresHolding t) (sqliteHolding t) htimed rfl rfl hchecked hdated
    (.refl _)
  have hcompared := (sqlite_lists_iff hchecked hdated (.refl _) rfl).mp hboth.sqlite
  exact absurd (hcompared (submitted 1 ten) (by decide +kernel)) (by decide +kernel)

def halfASecond : SubmissionAdminFilter where
  status := some .queued
  createdFrom := some "2026-01-02T10:00:00.000Z"
  createdTo := some "2026-01-02T10:00:00.500Z"

def twoSubmissions : Table SubmissionRow := ⟨[submitted 1 ten, submitted 2 (ten + second)], by decide⟩

/-- With milliseconds, the first half second is compared alike, and both list the first submission. -/
theorem boundary_kept :
    listed twoSubmissions.rows (halfASecond.accepts utc) = [submitted 1 ten] ∧
      BothList utc isoText halfASecond twoSubmissions.rows
        ((PostgreSQLFiltering.listFiltered utc halfASecond).run (serveFilterQueries utc)
          (postgresHolding twoSubmissions)).1
        ((SQLiteSubmissionRepository.listFiltered halfASecond).run serveSqliteFilterQueries
          (sqliteHolding twoSubmissions)).1 := by
  have htimed : halfASecond.Timed utc := by
    refine ⟨fun s hs => ?_, fun s hs => ?_⟩
    · cases hs
      decide +kernel
    · cases hs
      decide +kernel
  have hdated : Dated isoText twoSubmissions.rows := by
    intro r hr r' hr' hlt
    simp only [twoSubmissions, List.mem_cons, List.not_mem_nil, or_false] at hr hr'
    rcases hr with rfl | rfl
    · rcases hr' with rfl | rfl
      · exact absurd hlt (lt_irrefl _)
      · decide +kernel
    · rcases hr' with rfl | rfl
      · exact absurd hlt (by decide)
      · exact absurd hlt (lt_irrefl _)
  have hsent : halfASecond.SentAlike utc twoSubmissions.rows := fun _ _ => rfl
  have hcompared : halfASecond.ComparedAlike utc isoText twoSubmissions.rows :=
    List.forall_iff_forall_mem.mp (by decide +kernel)
  refine ⟨by decide +kernel, ?_⟩
  have hboth := (both_list_iff utc isoText halfASecond htimed (w := postgresHolding twoSubmissions) rfl
    (Database.checked_iff.mpr (by decide))).2
  exact (hboth (sqliteHolding twoSubmissions) rfl hdated (.refl _)).mpr ⟨hsent, hcompared⟩

end AlgorithmTrainer
