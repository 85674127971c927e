import AlgorithmTrainer.Database.Indexes
import AlgorithmTrainer.Sqlite.Atomicity

/-!
# `Sqlite.Completion` — a transfer in which nothing fails

If PostgreSQL accepts every value of a source that the application has left, and has room for the index rows,
then each insert succeeds, and so does the repair of the sequences: `transfer_completes`. What the target holds
afterwards is the source, and it is a database as the backend itself would have written it.

## Contents
- **Rows that can be read.** A row with every column equal under its cast is a row of its table in PostgreSQL
  (`row_readable`): each column's value is read off by inversion of its cast.
- **Index rows.** `serveTransferIndexed` refuses an insert whose index rows are too long. Such a refusal is one
  of the faults that `serveTransfer` allows for (`run_serveTransferIndexed`).
- **Inserts.** The constraints refuse no row of a sound source (`refuses_none`), so that what is left to fail
  is the reading of a value or the length of an index row (`insert_succeeds`, `insert_fits`).
- **The run.** `calmProtocol` is the discipline of a run in which every request is answered as hoped. That the
  two databases answer so is shown request by request (`serveTransfer_succeeds`), and what such a run leaves is
  taken from the invariant of any run (`main_run`).
-/

namespace AlgorithmTrainer

open Interaction Relational

/-! ## Rows that can be read -/

section readers
variable {P : Platform} {readJsonb : ReadJsonb}

theorem SameValue.bigint_inv {n : Int} {v : PgValue} (h : SameValue P readJsonb .bigint (.integer n) v) :
    v = .bigint n := by
  cases h
  rfl

theorem SameValue.text_inv {s : String} {v : PgValue} (h : SameValue P readJsonb .plain (.text s) v) :
    v = .text s := by
  cases h
  rfl

theorem SameValue.boolean_inv {c : Cell} {v : PgValue} (h : SameValue P readJsonb .integerBoolean c v)
    (hnull : c ≠ .null) : ∃ b, v = .boolean b := by
  cases h with
  | null => exact absurd rfl hnull
  | boolean => exact ⟨_, rfl⟩

theorem SameValue.timestamptz_inv {s : String} {v : PgValue}
    (h : SameValue P readJsonb .timestamptz (.text s) v) : ∃ t, v = .timestamptz t := by
  cases h with
  | timestamptz => exact ⟨_, rfl⟩

theorem SameValue.jsonb_inv {s : String} {v : PgValue} (h : SameValue P readJsonb .jsonb (.text s) v) :
    ∃ j, v = .jsonb j := by
  cases h with
  | jsonb => exact ⟨_, rfl⟩

/-- A column that may be `NULL`: whatever it is, it can be read. -/
theorem SameValue.nullable_text_inv {o : Option String} {v : PgValue}
    (h : SameValue P readJsonb .plain (.nullable .text o) v) : ∃ o, v.nullable? PgValue.text? = some o := by
  cases o with
  | none =>
      cases h
      exact ⟨none, rfl⟩
  | some s =>
      cases h
      exact ⟨some s, rfl⟩

theorem SameValue.nullable_bigint_inv {o : Option Int} {v : PgValue}
    (h : SameValue P readJsonb .bigint (.nullable .integer o) v) :
    ∃ o, v.nullable? PgValue.bigint? = some o := by
  cases o with
  | none =>
      cases h
      exact ⟨none, rfl⟩
  | some n =>
      cases h
      exact ⟨some n, rfl⟩

theorem SameValue.nullable_timestamptz_inv {o : Option String} {v : PgValue}
    (h : SameValue P readJsonb .timestamptz (.nullable .text o) v) :
    ∃ o, v.nullable? PgValue.timestamptz? = some o := by
  cases o with
  | none =>
      cases h
      exact ⟨none, rfl⟩
  | some s =>
      obtain ⟨t, rfl⟩ := SameValue.timestamptz_inv h
      exact ⟨some t, rfl⟩

theorem bool_ne_null (b : Bool) : Cell.bool b ≠ .null := fun h => by cases h

theorem user_readable {u : SqliteUserRow} {v : String → PgValue}
    (h : LegacyTable.users.SameColumns P readJsonb u.column v) : ∃ row, UserRow.ofValues v = some row := by
  have hid := (h ("id", .bigint) (by decide)).bigint_inv
  have hname := (h ("username", .plain) (by decide)).text_inv
  have hhash := (h ("password_hash", .plain) (by decide)).text_inv
  obtain ⟨created, hcreated⟩ := (h ("created_at", .timestamptz) (by decide)).timestamptz_inv
  obtain ⟨admin, hadmin⟩ := (h ("is_admin", .integerBoolean) (by decide)).boolean_inv (bool_ne_null u.isAdmin)
  dsimp only at hid hname hhash hcreated hadmin
  unfold UserRow.ofValues
  rw [hid, hname, hhash, hcreated, hadmin]
  exact ⟨_, rfl⟩

theorem session_readable {u : SqliteSessionRow} {v : String → PgValue}
    (h : LegacyTable.sessions.SameColumns P readJsonb u.column v) :
    ∃ row, SessionRow.ofValues v = some row := by
  have hid := (h ("id", .bigint) (by decide)).bigint_inv
  have huser := (h ("user_id", .bigint) (by decide)).bigint_inv
  have htoken := (h ("token_hash", .plain) (by decide)).text_inv
  obtain ⟨created, hcreated⟩ := (h ("created_at", .timestamptz) (by decide)).timestamptz_inv
  obtain ⟨expires, hexpires⟩ := (h ("expires_at", .timestamptz) (by decide)).timestamptz_inv
  dsimp only at hid huser htoken hcreated hexpires
  unfold SessionRow.ofValues
  rw [hid, huser, htoken, hcreated, hexpires]
  exact ⟨_, rfl⟩

theorem problem_readable {u : SqliteProblemRow} {v : String → PgValue}
    (h : LegacyTable.problems.SameColumns P readJsonb u.column v) :
    ∃ row, ProblemRow.ofValues v = some row := by
  have hid := (h ("id", .plain) (by decide)).text_inv
  have htitle := (h ("title", .plain) (by decide)).text_inv
  have hdescription := (h ("description", .plain) (by decide)).text_inv
  have hinput := (h ("input_format", .plain) (by decide)).text_inv
  have houtput := (h ("output_format", .plain) (by decide)).text_inv
  have hdifficulty := (h ("difficulty", .plain) (by decide)).text_inv
  obtain ⟨tags, htags⟩ := (h ("tags_json", .jsonb) (by decide)).jsonb_inv
  obtain ⟨languages, hlanguages⟩ := (h ("languages_json", .jsonb) (by decide)).jsonb_inv
  obtain ⟨examples, hexamples⟩ := (h ("examples_json", .jsonb) (by decide)).jsonb_inv
  obtain ⟨enabled, henabled⟩ :=
    (h ("enabled", .integerBoolean) (by decide)).boolean_inv (bool_ne_null u.enabled)
  obtain ⟨created, hcreated⟩ := (h ("created_at", .timestamptz) (by decide)).timestamptz_inv
  obtain ⟨updated, hupdated⟩ := (h ("updated_at", .timestamptz) (by decide)).timestamptz_inv
  have hrevision := (h ("revision", .bigint) (by decide)).bigint_inv
  dsimp only at *
  unfold ProblemRow.ofValues
  rw [hid, htitle, hdescription, hinput, houtput, hdifficulty, htags, hlanguages, hexamples, henabled,
    hcreated, hupdated, hrevision]
  exact ⟨_, rfl⟩

theorem problemTest_readable {u : SqliteProblemTestRow} {v : String → PgValue}
    (h : LegacyTable.problemTests.SameColumns P readJsonb u.column v) :
    ∃ row, ProblemTestRow.ofValues v = some row := by
  have hid := (h ("id", .bigint) (by decide)).bigint_inv
  have hproblem := (h ("problem_id", .plain) (by decide)).text_inv
  have hinput := (h ("input", .plain) (by decide)).text_inv
  have houtput := (h ("expected_output", .plain) (by decide)).text_inv
  have hposition := (h ("position", .bigint) (by decide)).bigint_inv
  obtain ⟨enabled, henabled⟩ :=
    (h ("enabled", .integerBoolean) (by decide)).boolean_inv (bool_ne_null u.enabled)
  have hrevision := (h ("revision", .bigint) (by decide)).bigint_inv
  dsimp only at hid hproblem hinput houtput hposition henabled hrevision
  unfold ProblemTestRow.ofValues
  rw [hid, hproblem, hinput, houtput, hposition, henabled, hrevision]
  exact ⟨_, rfl⟩

theorem submission_readable {u : SqliteSubmissionRow} {v : String → PgValue}
    (h : LegacyTable.submissions.SameColumns P readJsonb u.column v) :
    ∃ row, SubmissionRow.ofValues v = some row := by
  have hid := (h ("id", .bigint) (by decide)).bigint_inv
  have hproblem := (h ("problem_id", .plain) (by decide)).text_inv
  have hlanguage := (h ("language", .plain) (by decide)).text_inv
  have hsource := (h ("source_code", .plain) (by decide)).text_inv
  have hstatus := (h ("status", .plain) (by decide)).text_inv
  obtain ⟨verdict, hverdict⟩ := (h ("verdict", .plain) (by decide)).nullable_text_inv
  obtain ⟨created, hcreated⟩ := (h ("created_at", .timestamptz) (by decide)).timestamptz_inv
  obtain ⟨completed, hcompleted⟩ := (h ("completed_at", .timestamptz) (by decide)).nullable_timestamptz_inv
  obtain ⟨user, huser⟩ := (h ("user_id", .bigint) (by decide)).nullable_bigint_inv
  obtain ⟨error, herror⟩ := (h ("error_type", .plain) (by decide)).nullable_text_inv
  obtain ⟨retry, hretry⟩ := (h ("retry_of", .bigint) (by decide)).nullable_bigint_inv
  dsimp only at hid hproblem hlanguage hsource hstatus hverdict hcreated hcompleted huser herror hretry
  unfold SubmissionRow.ofValues
  rw [hid, hproblem, hlanguage, hsource, hstatus, hverdict, hcreated, hcompleted, huser, herror, hretry]
  exact ⟨_, rfl⟩

theorem audit_readable {u : SqliteAuditRow} {v : String → PgValue}
    (h : LegacyTable.adminAuditLog.SameColumns P readJsonb u.column v) :
    ∃ row, AuditRow.ofValues v = some row := by
  have hid := (h ("id", .bigint) (by decide)).bigint_inv
  have hadmin := (h ("admin_user_id", .bigint) (by decide)).bigint_inv
  have haction := (h ("action", .plain) (by decide)).text_inv
  have htype := (h ("entity_type", .plain) (by decide)).text_inv
  have hentity := (h ("entity_id", .plain) (by decide)).text_inv
  obtain ⟨details, hdetails⟩ := (h ("details_json", .jsonb) (by decide)).jsonb_inv
  obtain ⟨created, hcreated⟩ := (h ("created_at", .timestamptz) (by decide)).timestamptz_inv
  dsimp only at hid hadmin haction htype hentity hdetails hcreated
  unfold AuditRow.ofValues
  rw [hid, hadmin, haction, htype, hentity, hdetails, hcreated]
  exact ⟨_, rfl⟩

/-- **A row with every column equal** is a row of the table in PostgreSQL. -/
theorem row_readable {s : LegacyDatabase} {t : LegacyTable} {r : String → Cell} (hr : r ∈ s.rows t)
    {v : String → PgValue} (h : t.SameColumns P readJsonb r v) :
    ∃ row, (t.target P).ofValues v = some row := by
  cases t <;> obtain ⟨u, -, rfl⟩ := List.mem_map.mp hr
  case users => exact user_readable h
  case sessions => exact session_readable h
  case problems => exact problem_readable h
  case problemTests => exact problemTest_readable h
  case submissions => exact submission_readable h
  case adminAuditLog => exact audit_readable h

end readers

/-! ## Index rows -/

/-- The row that the server makes of a parameter list. -/
def LegacyTable.readRow (P : Platform) (readJsonb : ReadJsonb) (t : LegacyTable)
    (parameters : List (Option CString)) : Option (t.target P).Row :=
  match (t.columns.zip parameters).mapM fun x => x.1.2.read P readJsonb x.2 with
  | none => none
  | some values =>
      (t.target P).ofValues fun name => (((t.columns.map Prod.fst).zip values).lookup name).getD .null

/-- The index rows of a row. The log of the administrators has no index on texts. -/
def LegacyTable.indexRows (P : Platform) : (t : LegacyTable) → (t.target P).Row → List IndexRow
  | .users => UserRow.indexRows P
  | .sessions => SessionRow.indexRows
  | .problems => ProblemRow.indexRows
  | .problemTests => ProblemTestRow.indexRows
  | .submissions => SubmissionRow.indexRows
  | .adminAuditLog => fun _ => []

/-- What becomes of a choice where the indexes of the target have a say. -/
def TransferChoice.indexed (P : Platform) (btree : Btree) (readJsonb : ReadJsonb) (q : TransferRequest)
    (c : TransferChoice) (state : TransferState) : TransferChoice :=
  match q with
  | .insert _ _ =>
      if state.target.current.fits P btree (serveTransfer P readJsonb q c state).2.target.current then c
      else { c with fault := true }
  | _ => c

/-- Both databases, where the target refuses an insert with an index row that is too long. -/
def serveTransferIndexed (P : Platform) (btree : Btree) (readJsonb : ReadJsonb) :
    Service TransferTool TransferChoice TransferState := fun q c state =>
  serveTransfer P readJsonb q (c.indexed P btree readJsonb q state) state

section indexes
variable {P : Platform} {btree : Btree} {readJsonb : ReadJsonb} {t : LegacyTable} {db db' : Database}

theorem insert_readRow {parameters : List (Option CString)}
    (h : t.insert P readJsonb parameters db = .ok db') :
    ∃ row, t.readRow P readJsonb parameters = some row ∧ (t.target P).refuses db row = none ∧
      db' = (t.target P).add db row := by
  unfold LegacyTable.insert at h
  unfold LegacyTable.readRow
  cases hvalues : (t.columns.zip parameters).mapM fun x => x.1.2.read P readJsonb x.2 with
  | none =>
      rw [hvalues] at h
      cases h
  | some values =>
      rw [hvalues] at h
      dsimp only at h ⊢
      split at h
      · cases h
      · rename_i row hrow
        split at h
        · cases h
        · rename_i hrefuses
          cases h
          exact ⟨row, hrow, hrefuses, rfl⟩

theorem mem_indexRows_iff {entry : IndexRow} :
    entry ∈ db.indexRows P ↔ ∃ t : LegacyTable, ∃ row ∈ (t.target P).rows db, entry ∈ t.indexRows P row := by
  unfold Database.indexRows
  simp only [List.mem_append, List.mem_flatMap]
  constructor
  · rintro ((((⟨row, hrow, h⟩ | ⟨row, hrow, h⟩) | ⟨row, hrow, h⟩) | ⟨row, hrow, h⟩) | ⟨row, hrow, h⟩)
    · exact ⟨.users, row, hrow, h⟩
    · exact ⟨.sessions, row, hrow, h⟩
    · exact ⟨.problems, row, hrow, h⟩
    · exact ⟨.problemTests, row, hrow, h⟩
    · exact ⟨.submissions, row, hrow, h⟩
  · rintro ⟨t, row, hrow, h⟩
    cases t with
    | users => exact Or.inl (Or.inl (Or.inl (Or.inl ⟨row, hrow, h⟩)))
    | sessions => exact Or.inl (Or.inl (Or.inl (Or.inr ⟨row, hrow, h⟩)))
    | problems => exact Or.inl (Or.inl (Or.inr ⟨row, hrow, h⟩))
    | problemTests => exact Or.inl (Or.inr ⟨row, hrow, h⟩)
    | submissions => exact Or.inr ⟨row, hrow, h⟩
    | adminAuditLog => cases h

theorem rows_add_other {t t' : LegacyTable} (h : t' ≠ t) (row : (t.target P).Row) :
    (t'.target P).rows ((t.target P).add db row) = (t'.target P).rows db := by
  cases t <;> cases t' <;> first | rfl | exact absurd rfl h

/-- **A row adds its index rows**, and no others. -/
theorem fits_add {row : (t.target P).Row} (hrefuses : (t.target P).refuses db row = none)
    (hrow : ∀ entry ∈ t.indexRows P row, btree entry = true) :
    db.fits P btree ((t.target P).add db row) = true := by
  refine Database.fits_iff.mpr fun entry h => ?_
  obtain ⟨t', x, hx, hentry⟩ := mem_indexRows_iff.mp h
  by_cases ht : t' = t
  · subst ht
    rw [(t'.target P).rows_add db row hrefuses] at hx
    rcases List.mem_append.mp hx with hx | hx
    · exact Or.inr (mem_indexRows_iff.mpr ⟨t', x, hx, hentry⟩)
    · obtain rfl := List.mem_singleton.mp hx
      exact Or.inl (hrow entry hentry)
  · rw [rows_add_other ht] at hx
    exact Or.inr (mem_indexRows_iff.mpr ⟨t', x, hx, hentry⟩)

/-- An insert whose index rows are short enough is not refused for them. -/
theorem indexed_of_fits {parameters : List (Option CString)} {c : TransferChoice} {state : TransferState}
    (h : ∀ row, t.readRow P readJsonb parameters = some row → ∀ entry ∈ t.indexRows P row, btree entry = true) :
    serveTransferIndexed P btree readJsonb (.insert t parameters) c state
      = serveTransfer P readJsonb (.insert t parameters) c state := by
  have hfits : state.target.current.fits P btree
      (serveTransfer P readJsonb (.insert t parameters) c state).2.target.current = true := by
    cases hc : c.fault with
    | true =>
        have hfailed : serveTransfer P readJsonb (.insert t parameters) c state = (some .fault, state) := by
          unfold serveTransfer
          dsimp only
          rw [hc, if_pos rfl]
        rw [hfailed]
        exact Database.fits_self
    | false =>
        rcases serve_insert P readJsonb t parameters hc state with ⟨db', hinsert, hserve⟩ | ⟨e, -, hserve⟩
        · obtain ⟨row, hrow, hrefuses, rfl⟩ := insert_readRow hinsert
          rw [hserve, Session.current_write]
          exact fits_add hrefuses (h row hrow)
        · rw [hserve]
          exact Database.fits_self
  unfold serveTransferIndexed TransferChoice.indexed
  dsimp only
  rw [if_pos hfits]

/-- A refusal of the indexes is a fault. -/
theorem run_serveTransferIndexed {α : Type} (p : TransferCall α) (w : World TransferChoice TransferState) :
    ∃ choices : Nat → TransferChoice,
      (p.run (serveTransferIndexed P btree readJsonb) w).1
        = (p.run (serveTransfer P readJsonb) ⟨choices, w.state⟩).1 ∧
      (p.run (serveTransferIndexed P btree readJsonb) w).2.state
        = (p.run (serveTransfer P readJsonb) ⟨choices, w.state⟩).2.state := by
  obtain ⟨choices, -, hresult, hstate⟩ := Program.run_rechosen (V := serveTransfer P readJsonb)
    (R := fun _ _ => True) (g := fun q c state => c.indexed P btree readJsonb q state)
    (fun _ _ _ => trivial) (fun _ => trivial) p w
  exact ⟨choices, hresult, hstate⟩

end indexes

/-! ## Values that are accepted -/

/-- PostgreSQL accepts every value of the source under its cast: no text contains U+0000, and what a cast is
    applied to can be read. -/
def LegacyDatabase.Accepted (P : Platform) (readJsonb : ReadJsonb) (s : LegacyDatabase) : Prop :=
  ∀ t, ∀ r ∈ s.rows t, ∀ x ∈ t.columns,
    (r x.1).NulFree ∧ (x.2.read P readJsonb (r x.1).parameter).isSome = true

/-- PostgreSQL has room for the index rows of every row of the source. -/
def LegacyDatabase.Indexed (P : Platform) (btree : Btree) (readJsonb : ReadJsonb) (s : LegacyDatabase) : Prop :=
  ∀ t, ∀ r ∈ s.rows t, ∀ row ∈ t.readRow P readJsonb ((t.cells r).map Cell.parameter),
    ∀ entry ∈ t.indexRows P row, btree entry = true

section inserts
variable {P : Platform} {readJsonb : ReadJsonb} {s : LegacyDatabase} {d db : Database}

theorem LegacyDatabase.Accepted.nulFree (h : s.Accepted P readJsonb) : s.NulFree :=
  fun t r hr x hx => (h t r hr x hx).1

theorem mapM_isSome {α β : Type} {f : α → Option β} {l : List α} (h : ∀ a ∈ l, (f a).isSome = true) :
    ∃ m, l.mapM f = some m := by
  induction l with
  | nil => exact ⟨[], rfl⟩
  | cons a l ih =>
      obtain ⟨b, hb⟩ := Option.isSome_iff_exists.mp (h a List.mem_cons_self)
      obtain ⟨m, hm⟩ := ih fun a ha => h a (List.mem_cons_of_mem _ ha)
      exact ⟨b :: m, by rw [List.mapM_cons, hb, hm]; rfl⟩

/-- **The next insert succeeds.** -/
theorem insert_succeeds (hsound : SoundLegacy P s) (hP : P.Lawful) (haccepted : s.Accepted P readJsonb)
    {done rest : List (LegacyTable × (String → Cell))} {t : LegacyTable} {r : String → Cell}
    (hdone : done ++ (t, r) :: rest = s.schedule) (hcopied : Copied P readJsonb done db) :
    ∃ db', t.insert P readJsonb ((t.cells r).map Cell.parameter) db = .ok db' := by
  have hr : r ∈ s.rows t := by
    rw [rows_split_self hdone]
    exact List.mem_append_right _ List.mem_cons_self
  obtain ⟨values, hvalues⟩ := mapM_isSome fun x hx => (haccepted t r hr x hx).2
  have hlookup := lookup_mapM t.nodup_columns hvalues
  have hreads : t.Reads P readJsonb r fun name =>
      (((t.columns.map Prod.fst).zip values).lookup name).getD .null := by
    intro x hx
    obtain ⟨v, hread, hv⟩ := hlookup x hx
    dsimp only
    rw [hread, hv, Option.getD_some]
  have hsame := (sameColumns_iff (fits_rows s t r hr) hreads).mpr (haccepted.nulFree t r hr)
  obtain ⟨row, hrow⟩ := row_readable hr hsame
  have hrow_reads : t.Reads P readJsonb r ((t.target P).value row) := by
    intro x hx
    rw [hreads x hx]
    exact congrArg some ((t.target P).value_of_ofValues _ row hrow x hx)
  have hrefuses := refuses_none hsound hP haccepted.nulFree hdone hcopied hrow_reads
  refine ⟨(t.target P).add db row, ?_⟩
  unfold LegacyTable.insert LegacyTable.cells
  rw [zip_parameters, hvalues]
  dsimp only
  rw [hrow]
  dsimp only
  rw [hrefuses]

/-- The ids of the source were drawn from 1 on. -/
theorem one_le_ids (hsound : SoundLegacy P s) (t : LegacyTable) : ∀ id ∈ s.ids t, 1 ≤ id := by
  intro id hid
  obtain ⟨r, hr, hcell⟩ := List.mem_filterMap.mp hid
  cases t <;> obtain ⟨u, hu, rfl⟩ := List.mem_map.mp hr <;> have hu := mem_orderBy.mp hu
  case users => cases hcell; exact hsound.sessions.numberedUsers.2 u hu
  case sessions => cases hcell; exact hsound.sessions.numbered.2 u hu
  case problems => cases hcell
  case problemTests => cases hcell; exact hsound.catalog.numbered.2 u hu
  case submissions => cases hcell; exact hsound.queue.numbered.2 u hu
  case adminAuditLog => cases hcell; exact hsound.queue.numberedAudits.2 u hu

/-- A repair of sequences that rejects no value executes them all. -/
theorem setvals_all {ts : List LegacyTable} (hids : ∀ t ∈ ts, ∀ id ∈ db.ids P t, 1 ≤ id) :
    (Database.setvals P ts ts.length db).1 = ts.length := by
  induction ts generalizing db with
  | nil => rfl
  | cons t ts ih =>
      have hsome : ∃ db', db.setval P t = some db' := by
        unfold Database.setval
        cases hmax : (db.ids P t).max? with
        | none => exact ⟨_, rfl⟩
        | some id =>
            have hle := hids t List.mem_cons_self id (List.max?_eq_some_iff.mp hmax).1
            exact ⟨_, if_pos hle⟩
      obtain ⟨db', hsetval⟩ := hsome
      have hids' : ∀ t' ∈ ts, ∀ id ∈ db'.ids P t', 1 ≤ id := by
        intro t' ht' id hid
        rw [setval_some hsetval, ids_sequences] at hid
        exact hids t' (List.mem_cons_of_mem _ ht') id hid
      rw [List.length_cons, Database.setvals, hsetval]
      exact congrArg (· + 1) (ih hids')

end inserts

/-! ## The run -/

/-- What the requests of the tool are answered when nothing fails. -/
def Succeeds (s : LegacyDatabase) : (q : TransferRequest) → q.Reply → Prop
  | .countRows, count => count = some 0
  | .select t, selected => selected = .rows (s.select t) true
  | .insert _ _, result => result = none
  | .setvals, repair => repair.tuplesOk = true
  | .openSource, done | .connect, done | .beginSource, done | .begin, done | .advisoryLock, done
  | .lockTables, done | .commit, done | .rollback, done => done = true

/-- The discipline of a run in which nothing fails. -/
def calmProtocol (s : LegacyDatabase) : Protocol TransferTool TransferPhase :=
  { transferProtocol s with admits := fun _ => Succeeds s }

section follows
variable {s : LegacyDatabase}

theorem insertRows_succeeds (t : LegacyTable) (rows : List (String → Cell))
    (rest : List (LegacyTable × (String → Cell))) :
    (calmProtocol s).Follows (fun φ o => o = .ok true ∧ φ = ⟨.copying rest, 0⟩)
      ⟨.copying (rows.map (t, ·) ++ rest), 0⟩ (TransferTool.insertRows t (rows.map t.cells)) := by
  induction rows with
  | nil => exact ⟨rfl, rfl⟩
  | cons r rows ih =>
      refine ⟨⟨r, _, rfl, rfl⟩, fun result hresult => ?_⟩
      cases hresult
      exact ih

theorem transfer_succeeds (t : LegacyTable) (rest : List (LegacyTable × (String → Cell))) :
    (calmProtocol s).Follows (fun φ o => (∃ n, o = .ok (some n)) ∧ φ = ⟨.copying rest, 0⟩)
      ⟨.copying ((s.rows t).map (t, ·) ++ rest), 0⟩ (TransferTool.transfer t) := by
  refine ⟨trivial, fun selected hselected => ?_⟩
  cases hselected
  have hinserts := insertRows_succeeds (s := s) t (s.rows t) rest
  rw [← select_eq] at hinserts
  refine hinserts.bind ?_ fun φ e h => ?_
  · rintro φ b ⟨ho, rfl⟩
    cases ho
    exact ⟨⟨_, rfl⟩, rfl⟩
  · cases h.1

theorem transferTables_succeeds (ts : List LegacyTable) (total : Nat) :
    (calmProtocol s).Follows (fun φ o => (∃ n, o = .ok (some n)) ∧ φ = ⟨.copying [], 0⟩)
      ⟨.copying (ts.flatMap fun t => (s.rows t).map (t, ·)), 0⟩ (TransferTool.transferTables ts total) := by
  induction ts generalizing total with
  | nil => exact ⟨⟨total, rfl⟩, rfl⟩
  | cons t ts ih =>
      refine (transfer_succeeds t _).bind ?_ fun φ e h => ?_
      · rintro φ n ⟨⟨copied, ho⟩, rfl⟩
        cases ho
        exact ih _
      · obtain ⟨⟨_, ho⟩, -⟩ := h
        cases ho

/-- **A run in which nothing fails** reports success. -/
theorem main_succeeds :
    (calmProtocol s).Follows (fun _ o => o = .ok 0) ⟨.closed, 0⟩ TransferTool.main := by
  refine ⟨trivial, fun opened h => ?_⟩
  cases h
  refine ⟨trivial, fun connected h => ?_⟩
  cases h
  refine ⟨trivial, fun begunSource h => ?_⟩
  cases h
  refine ⟨trivial, fun begun h => ?_⟩
  cases h
  refine ⟨trivial, fun locked h => ?_⟩
  cases h
  refine ⟨trivial, fun tablesLocked h => ?_⟩
  cases h
  refine ⟨trivial, fun count h => ?_⟩
  cases h
  refine (transferTables_succeeds transferredTables 0).bind ?_ fun φ e h => ?_
  · rintro φ n ⟨⟨total, ho⟩, rfl⟩
    cases ho
    refine ⟨rfl, fun repair hrepair => ?_⟩
    obtain ⟨executed, tuplesOk⟩ := repair
    cases hrepair
    refine ⟨rfl, fun committed h => ?_⟩
    cases h
    rfl
  · obtain ⟨⟨_, ho⟩, -⟩ := h
    cases ho

end follows

section run
variable {P : Platform} {btree : Btree} {readJsonb : ReadJsonb} {s : LegacyDatabase} {d db : Database}

/-- **Each request succeeds**, if nothing fails from outside. -/
theorem serveTransfer_succeeds (hsound : SoundLegacy P s) (hP : P.Lawful) (haccepted : s.Accepted P readJsonb)
    (hempty : d.Empty) (φ : TransferPhase) (q : TransferRequest) (c : TransferChoice) (state : TransferState)
    (hc : c.fault = false) (hq : (calmProtocol s).allowed φ q) (h : InTransfer P readJsonb s d φ state) :
    (calmProtocol s).admits φ q (serveTransfer P readJsonb q c state).1 ∧
      InTransfer P readJsonb s d ((calmProtocol s).next φ q (serveTransfer P readJsonb q c state).1)
        (serveTransfer P readJsonb q c state).2 := by
  -- The invariant is that of any run; what is left is that the answer is the one hoped for.
  refine ⟨?_, (serveTransfer_inTransfer (fun _ => hempty) φ q c state hq h).2⟩
  obtain ⟨stage, executed⟩ := φ
  obtain ⟨source, target⟩ := state
  obtain ⟨fault, rows, limit⟩ := c
  obtain ⟨rfl, h⟩ := h
  cases hc
  cases q with
  | openSource | connect | beginSource | advisoryLock | lockTables | rollback => rfl
  | begin =>
      cases stage with
      | closed =>
          obtain ⟨-, rfl⟩ := h
          rfl
      | _ => exact hq.elim
  | countRows =>
      cases stage with
      | opened =>
          obtain ⟨-, rfl⟩ := h
          exact congrArg some hempty.counted
      | _ => exact hq.elim
  | select t => rfl
  | insert t parameters =>
      cases stage with
      | copying rest =>
          obtain ⟨r, rest', rfl, rfl⟩ := hq
          obtain ⟨-, -, done, db, hdone, rfl, -, hcopied⟩ := h
          obtain ⟨db', hinsert⟩ := insert_succeeds hsound hP haccepted hdone hcopied
          have hcases := serve_insert P readJsonb t ((t.cells r).map Cell.parameter)
            (c := ⟨false, rows, limit⟩) rfl ⟨source, ⟨d, some db⟩⟩
          rcases hcases with ⟨_, -, hserve⟩ | ⟨e, hfailed, -⟩
          · rw [hserve]
            rfl
          · cases hinsert.symm.trans hfailed
      | _ => exact hq.elim
  | setvals =>
      cases stage with
      | copying rest =>
          cases hq
          obtain ⟨-, -, done, db, hdone, rfl, -, hcopied⟩ := h
          rw [List.append_nil] at hdone
          subst hdone
          -- `setval` refuses only what is below 1
          have hids : ∀ t ∈ generatedTables, ∀ id ∈ db.ids P t, 1 ≤ id := by
            intro t ht id hid
            rw [ids_copied hcopied (id_column ht)] at hid
            exact one_le_ids hsound t id hid
          show (!false && (Database.setvals P generatedTables generatedTables.length db).1
            == generatedTables.length) = true
          rw [setvals_all hids]
          rfl
      | _ => exact hq.elim
  | commit =>
      cases stage with
      | repaired tuplesOk =>
          obtain ⟨-, -, db, rfl, -⟩ := h
          rfl
      | _ => exact hq.elim

/-- The indexes refuse none of the inserts. -/
theorem serveTransferIndexed_allowed (hindexed : s.Indexed P btree readJsonb) (φ : TransferPhase)
    (q : TransferRequest) (c : TransferChoice) (state : TransferState) (hq : (calmProtocol s).allowed φ q)
    (h : InTransfer P readJsonb s d φ state) :
    serveTransferIndexed P btree readJsonb q c state = serveTransfer P readJsonb q c state := by
  cases q with
  | insert t parameters =>
      obtain ⟨stage, executed⟩ := φ
      cases stage with
      | copying rest =>
          obtain ⟨r, rest', rfl, rfl⟩ := hq
          obtain ⟨-, -, -, done, db, hdone, -⟩ := h
          have hr : r ∈ s.rows t := by
            rw [rows_split_self hdone]
            exact List.mem_append_right _ List.mem_cons_self
          exact indexed_of_fits fun row hrow => hindexed t r hr row hrow
      | _ => exact hq.elim
  | _ => rfl

/-- The submissions that were copied satisfy their constraints. -/
theorem Copied.checked (hcopied : Copied P readJsonb s.schedule db) (hsound : SoundLegacy P s)
    (hfree : s.NulFree) : db.Checked := by
  intro x hx
  have harrived := hcopied.arrived hfree (List.append_nil s.schedule)
  obtain ⟨c, hc, hsame⟩ := harrived.of_mem (t := .submissions) hx
  rw [rowsOf_schedule] at hc
  obtain ⟨u, hu, rfl⟩ := List.mem_map.mp hc
  obtain ⟨-, -, -, hcheck⟩ := submission_same hsame
  exact hcheck.trans (hsound.queue.checked u (mem_orderBy.mp hu))

end run

/-- **A transfer in which nothing fails** succeeds, and transfers everything. -/
theorem transfer_completes {P : Platform} (hP : P.Lawful) (btree : Btree) (readJsonb : ReadJsonb)
    {strftime : Timestamp → String} {d : Database} {w : World TransferChoice TransferState}
    (hreachable : LegacyReachable P strftime w.state.source)
    (haccepted : w.state.source.Accepted P readJsonb) (hindexed : w.state.source.Indexed P btree readJsonb)
    (htarget : w.state.target = .idle d) (hempty : d.Empty) (hcalm : ∀ n, (w.choices n).fault = false) :
    (TransferTool.main.run (serveTransferIndexed P btree readJsonb) w).1 = .ok 0 ∧
      ∃ db, (TransferTool.main.run (serveTransferIndexed P btree readJsonb) w).2.state.target = .idle db ∧
        Transferred P readJsonb w.state.source db ∧ NextIdsAbove w.state.source db.sequences ∧
        db.Checked := by
  have hsound := hreachable.sound
  obtain ⟨-, hok, -⟩ := main_succeeds.run_where (V := serveTransferIndexed P btree readJsonb) (w := w)
    (I := InTransfer P readJsonb w.state.source d) (C := fun c => c.fault = false)
    (fun φ q c state hc hq h => by
      rw [serveTransferIndexed_allowed hindexed φ q c state hq h]
      exact serveTransfer_succeeds hsound hP haccepted hempty φ q c state hc hq h)
    hcalm ⟨rfl, rfl, htarget⟩
  refine ⟨hok, ?_⟩
  -- What it leaves, a run without the indexes leaves as well, where the refusals are faults.
  obtain ⟨choices, hresult, hstate⟩ := @run_serveTransferIndexed P btree readJsonb _ TransferTool.main w
  rw [hresult] at hok
  rw [hstate]
  obtain ⟨hends, -, hholds⟩ := main_run (P := P) (w := ⟨choices, w.state⟩) (fun _ => hempty) htarget
  rcases hends with ⟨-, hcommitted⟩ | ⟨hfailed, -⟩
  · rw [hcommitted] at hholds
    obtain ⟨-, -, db, hdb, hcopied, hsequences⟩ := hholds
    refine ⟨db, hdb, (copied_transferred_iff hcopied).mpr haccepted.nulFree, ?_,
      hcopied.checked hsound haccepted.nulFree⟩
    rw [hsequences]
    exact repaired_above _
  · rw [hok] at hfailed
    cases hfailed

/-- The transfer of the administrator's account, at a time when nothing fails. -/
def calmTransfer : World TransferChoice TransferState := ⟨fun _ => .calm, (transferFailing 0).state⟩

/-- The account arrives. -/
theorem administrator_transferred :
    (TransferTool.main.run (serveTransferIndexed utc uncompressed noJson) calmTransfer).1 = .ok 0 ∧
      ∃ db, (TransferTool.main.run (serveTransferIndexed utc uncompressed noJson) calmTransfer).2.state.target
          = .idle db ∧
        Transferred utc noJson calmTransfer.state.source db ∧
        NextIdsAbove calmTransfer.state.source db.sequences ∧ db.Checked := by
  refine transfer_completes utc_lawful uncompressed noJson (transferFailing_reachable 0) (fun t => ?_)
    (fun t => ?_) rfl (.initial 0) fun _ => rfl
  · cases t <;> decide +kernel
  · cases t <;> decide +kernel

end AlgorithmTrainer
