import Mathlib.Data.Prod.Lex
import AlgorithmTrainer.Lib.Decimal
import AlgorithmTrainer.Lib.Selection
import AlgorithmTrainer.Submission.Repository

/-!
# `Submission.Filtering` — the filtered list of submissions

`SubmissionAdminFilter.accepts` is what the filter of the administrators' list means: every condition that is
given holds, and the times are compared as instants. `list_filtered` puts its statement together clause by
clause; `PostgreSQLFiltering` models the clauses with their placeholders and parameters, and
`listFiltered_run` shows that the statement is the one that `PostgreSQLSubmissionRepository.listFiltered`
sends. `postgres_lists_iff` says when the list is the one that was asked for.
-/

namespace AlgorithmTrainer

open Interaction Relational PostgreSQLSubmissionRepository

/-! ## What is asked for -/

namespace SubmissionAdminFilter

variable (P : Platform) (filter : SubmissionAdminFilter)

/-- The conditions other than those on the time. -/
def selects (r : SubmissionRow) : Bool :=
  filter.status.all (fun s => PostgreSQLSubmissionRepository.status r.status == some s)
    && filter.errorType.all (r.errorType == some ·) && filter.language.all (r.language == ·)
    && filter.problemId.all (r.problemId == ·) && filter.userId.all (r.userId == some ·)

/-- The submission was created between the given instants, which are included. -/
def within (r : SubmissionRow) : Bool :=
  filter.createdFrom.all (fun s => (P.readTimestamp s).any fun t => decide (t ≤ r.createdAt))
    && filter.createdTo.all fun s => (P.readTimestamp s).any fun t => decide (r.createdAt ≤ t)

def accepts (r : SubmissionRow) : Bool := filter.selects r && filter.within P r

/-- The times that are given are timestamps. -/
structure Timed : Prop where
  createdFrom : ∀ s ∈ filter.createdFrom, '\x00' ∉ s.toList ∧ (P.readTimestamp s).isSome = true
  createdTo : ∀ s ∈ filter.createdTo, '\x00' ∉ s.toList ∧ (P.readTimestamp s).isSome = true

/-- The filter as it reaches PostgreSQL. -/
def sent : SubmissionAdminFilter :=
  { filter with
    errorType := filter.errorType.map text
    language := filter.language.map text
    problemId := filter.problemId.map text }

end SubmissionAdminFilter

/-- The rows that satisfy a condition, newest first, the first 500 of them. -/
def listed (rows : List SubmissionRow) (p : SubmissionRow → Bool) : List SubmissionRow :=
  (orderBy newestFirst (rows.filter p)).take 500

/-- Of the first rows that satisfy the filter as it was given or as it was sent, each satisfies both. -/
def SubmissionAdminFilter.SentAlike (P : Platform) (filter : SubmissionAdminFilter)
    (rows : List SubmissionRow) : Prop :=
  ∀ r ∈ listed rows fun r => (filter.sent.selects r || filter.selects r) && filter.within P r,
    filter.sent.selects r = filter.selects r

/-- The call returned the records of these rows. -/
def Lists (read : SubmissionRow → Except RepositoryError SubmissionRecord) (rows : List SubmissionRow)
    (outcome : Except Exception (Except RepositoryError (List SubmissionRecord))) : Prop :=
  ∃ records, outcome = .ok (.ok records) ∧ List.Forall₂ (fun r x => read r = .ok x) rows records

/-! ## The statement -/

/-- The clauses that `list_filtered` appends: `column = value`, and the two bounds of `created_at`. -/
inductive FilterClause where
  | status
  | errorType
  | language
  | problemId
  | userId
  | createdFrom
  | createdTo
deriving DecidableEq, Repr

/-- A clause with its parameter, which the server reads as a value of the column's type. -/
def FilterClause.meaning (P : Platform) : FilterClause → String → Option (SubmissionRow → Bool)
  | .status, value => some fun r => r.status == value
  | .errorType, value => some fun r => r.errorType == some value
  | .language, value => some fun r => r.language == value
  | .problemId, value => some fun r => r.problemId == value
  | .userId, value => (Decimal.readInt value.toList).map fun n r => r.userId == some n
  | .createdFrom, value => (P.readTimestamp value).map fun t r => decide (t ≤ r.createdAt)
  | .createdTo, value => (P.readTimestamp value).map fun t r => decide (r.createdAt ≤ t)

/-- `SELECT … FROM submissions WHERE true … ORDER BY created_at DESC,id DESC LIMIT 500`; a parameter reaches
    the server through `c_str()`. -/
def selectFiltered (P : Platform) (message : String) (q : Built FilterClause String) (db : Database) :
    Result SubmissionRow :=
  match q.condition fun clause value => clause.meaning P (text value) with
  | some p => .tuples (listed db.submissions.rows p)
  | none => .failed .invalidText message

@[reducible] def FilterQueries : Signature := ⟨Built FilterClause String, fun _ => Result SubmissionRow⟩

/-- PostgreSQL, one filtered list at a time. -/
def serveFilterQueries (P : Platform) : Service FilterQueries Choice Database := fun q c db =>
  match c.failure with
  | some _ => (.failed .fault c.message, db)
  | none => (selectFiltered P c.message q db, db)

namespace PostgreSQLFiltering

/-- The statement with its parameters. -/
def query (filter : SubmissionAdminFilter) : Built FilterClause String :=
  (((((((Built.empty.add .status (filter.status.map filterStatus)).add .errorType filter.errorType).add
    .language filter.language).add .problemId filter.problemId).add
    .userId (filter.userId.map toString)).add .createdFrom filter.createdFrom).add
    .createdTo filter.createdTo)

def listFiltered (P : Platform) (filter : SubmissionAdminFilter) :
    Program FilterQueries Exception (Except RepositoryError (List SubmissionRecord)) := do
  let result ← .ask (S := FilterQueries) (query filter)
  pure (records P result)

end PostgreSQLFiltering

/-! ### The parameters -/

section parameters
variable {P : Platform} {filter : SubmissionAdminFilter}

/-- The parameter of the user is read back as the user. -/
theorem optional_userId (o : Option Int) :
    Built.optional (fun clause value => FilterClause.meaning P clause (text value)) .userId
        (o.map toString) = some fun r => o.all (r.userId == some ·) := by
  cases o with
  | none => rfl
  | some n =>
      have htext : text (toString n) = toString n := cStr_of_not_mem (nul_not_mem_toString n)
      have hread : Decimal.readInt (toString n).toList = some n := Decimal.readInt_digits n
      show (Decimal.readInt (text (toString n)).toList).map _ = _
      rw [htext, hread]
      rfl

/-- A bound is read as a timestamp. -/
theorem optional_timestamp {clause : FilterClause} {c : Timestamp → SubmissionRow → Bool}
    (hclause : ∀ value, clause.meaning P value = (P.readTimestamp value).map c) (o : Option String) :
    Built.optional (fun clause value => FilterClause.meaning P clause (text value)) clause o
      = ((o.map text).mapM P.readTimestamp).map fun t r => t.all (c · r) := by
  cases o with
  | none => rfl
  | some s =>
      show clause.meaning P (text s) = _
      rw [hclause]
      cases hread : P.readTimestamp (text s) <;> simp [hread]

/-- The name that a status is compared with is the one it is stored under. -/
theorem stored_status (r : SubmissionRow) (s : SubmissionStatus) :
    (r.status == text (filterStatus s)) = (PostgreSQLSubmissionRepository.status r.status == some s) := by
  have hqueued : text (filterStatus .queued) = "queued" := rfl
  have hrunning : text (filterStatus .running) = "running" := rfl
  have hcompleted : text (filterStatus .completed) = "completed" := rfl
  have hfailed : text (filterStatus .failed) = "failed" := rfl
  unfold PostgreSQLSubmissionRepository.status
  split_ifs <;> cases s <;> simp_all

/-- A clause that compares a column with a text. -/
theorem optional_text {clause : FilterClause} {c : String → SubmissionRow → Bool}
    (hclause : ∀ value, clause.meaning P value = some (c value)) (o : Option String) :
    Built.optional (fun clause value => FilterClause.meaning P clause (text value)) clause o
      = some fun r => (o.map text).all (c · r) := by
  cases o with
  | none => rfl
  | some s => exact hclause (text s)

/-- **The statement means what it is sent for.** Its clauses, with the parameters that they number, are the
    conditions that are given. -/
theorem condition_query (filter : SubmissionAdminFilter) :
    (PostgreSQLFiltering.query filter).condition (fun clause value => clause.meaning P (text value))
      = Built.both (some filter.sent.selects)
          (Built.both (((filter.createdFrom.map text).mapM P.readTimestamp).map fun t r =>
              t.all fun t => decide (t ≤ r.createdAt))
            (((filter.createdTo.map text).mapM P.readTimestamp).map fun t r =>
              t.all fun t => decide (r.createdAt ≤ t))) := by
  have hstatus : (some fun r => ((filter.status.map filterStatus).map text).all (r.status == ·))
      = some fun r : SubmissionRow =>
        filter.status.all fun s => PostgreSQLSubmissionRepository.status r.status == some s := by
    cases filter.status with
    | none => rfl
    | some s => exact congrArg some (funext fun r => stored_status r s)
  unfold PostgreSQLFiltering.query
  simp only [Built.condition_add, Built.condition_empty]
  rw [optional_text (c := fun value r => r.status == value) (fun _ => rfl), hstatus,
    optional_text (c := fun value r => r.errorType == some value) (fun _ => rfl),
    optional_text (c := fun value r => r.language == value) (fun _ => rfl),
    optional_text (c := fun value r => r.problemId == value) (fun _ => rfl), optional_userId,
    optional_timestamp (c := fun t r => decide (t ≤ r.createdAt)) (fun _ => rfl),
    optional_timestamp (c := fun t r => decide (r.createdAt ≤ t)) (fun _ => rfl)]
  cases (filter.createdFrom.map text).mapM P.readTimestamp with
  | none => rfl
  | some createdFrom =>
      cases (filter.createdTo.map text).mapM P.readTimestamp with
      | none => rfl
      | some createdTo =>
          refine congrArg some (funext fun r => ?_)
          simp only [SubmissionAdminFilter.selects, SubmissionAdminFilter.sent, Bool.true_and,
            Bool.and_assoc]

/-- Put together clause by clause or sent with its optional parameters, the statement has the same result. -/
theorem selectFiltered_query (message : String) (db : Database) :
    Statement.exec P message (.selectFiltered {
        status := (filter.status.map filterStatus).map text
        errorType := filter.errorType.map text
        language := filter.language.map text
        problemId := filter.problemId.map text
        userId := filter.userId
        createdFrom := filter.createdFrom.map text
        createdTo := filter.createdTo.map text }) db
      = (db, selectFiltered P message (PostgreSQLFiltering.query filter) db) := by
  have hstatus : ∀ r : SubmissionRow, ((filter.status.map filterStatus).map text).all (r.status == ·)
      = filter.status.all fun s => PostgreSQLSubmissionRepository.status r.status == some s := by
    intro r
    cases filter.status with
    | none => rfl
    | some s => exact stored_status r s
  unfold selectFiltered
  rw [condition_query]
  simp only [Statement.exec]
  cases (filter.createdFrom.map text).mapM P.readTimestamp with
  | none => rfl
  | some createdFrom =>
      cases (filter.createdTo.map text).mapM P.readTimestamp with
      | none => rfl
      | some createdTo =>
          simp only [Option.map_some, Built.both, listed, SubmissionAdminFilter.selects,
            SubmissionAdminFilter.sent, hstatus, Table.select, Bool.and_assoc]

/-- **The two models of the call agree**, whatever the surroundings do. -/
theorem listFiltered_run (w : World Choice Database) :
    (PostgreSQLFiltering.listFiltered P filter).run (serveFilterQueries P) w
      = (PostgreSQLSubmissionRepository.listFiltered P filter).run (serve P) w := by
  unfold PostgreSQLFiltering.listFiltered PostgreSQLSubmissionRepository.listFiltered
  rw [run_execute, Program.ask_bind, Program.run_call]
  unfold serveFilterQueries serveStatement
  cases (w.choices 0).failure with
  | some _ => rfl
  | none =>
      dsimp only
      rw [selectFiltered_query]
      rfl

end parameters

/-! ## The list -/

section lists
variable {P : Platform} {filter : SubmissionAdminFilter} {t : Table SubmissionRow}

/-- `created_at` decides, and then the id. -/
theorem newestFirst_descends :
    Descends newestFirst fun r : SubmissionRow => toLex ((r.createdAt : Int), r.id) := by
  intro a b
  rw [Prod.Lex.toLex_le_toLex]
  simp only [newestFirst, Bool.or_eq_true, Bool.and_eq_true, decide_eq_true_eq, beq_iff_eq,
    eq_comm (a := a.createdAt)]

/-- A submission has an id of its own. -/
theorem eq_of_created {a b : SubmissionRow} (ha : a ∈ t) (hb : b ∈ t)
    (h : toLex ((a.createdAt : Int), a.id) = toLex ((b.createdAt : Int), b.id)) : a = b :=
  Table.eq_of_key ha hb (congrArg (fun x => (ofLex x).2) h)

/-- Two conditions list the same rows exactly if they agree on the first rows that either selects. -/
theorem listed_eq_iff (p q : SubmissionRow → Bool) :
    listed t.rows p = listed t.rows q ↔ ∀ r ∈ listed t.rows fun r => p r || q r, p r = q r :=
  take_orderBy_filter_iff newestFirst_descends (List.Nodup.of_map _ t.nodup)
    (fun _ ha _ hb => eq_of_created ha hb) p q 500

theorem of_mem_listed {rows : List SubmissionRow} {p : SubmissionRow → Bool} {r : SubmissionRow}
    (h : r ∈ listed rows p) : r ∈ rows ∧ p r = true :=
  List.mem_filter.mp (mem_orderBy.mp (List.mem_of_mem_take h))

/-! ### Records -/

theorem mapM_ok_iff {α β ε : Type} {f : α → Except ε β} {l : List α} {m : List β} :
    l.mapM f = .ok m ↔ List.Forall₂ (fun a b => f a = .ok b) l m := by
  induction l generalizing m with
  | nil =>
      rw [List.mapM_nil, List.forall₂_nil_left_iff]
      exact ⟨fun h => (Except.ok.inj h).symm, fun h => congrArg Except.ok h.symm⟩
  | cons a l ih =>
      rw [List.mapM_cons, List.forall₂_cons_left_iff]
      constructor
      · intro h
        obtain ⟨b, hb, h⟩ := except_bind_ok h
        obtain ⟨bs, hbs, h⟩ := except_bind_ok h
        exact ⟨b, bs, hb, ih.mp hbs, (Except.ok.inj h).symm⟩
      · rintro ⟨b, bs, hb, hbs, rfl⟩
        rw [hb, ih.mpr hbs]
        rfl

theorem eq_of_reads {ρ α ε : Type} {read : ρ → Except ε α} {l l' : List ρ} {records : List α}
    (h : List.Forall₂ (fun r x => read r = .ok x) l records)
    (h' : List.Forall₂ (fun r x => read r = .ok x) l' records)
    (hread : ∀ r ∈ l, ∀ r' ∈ l', read r = read r' → r = r') : l = l' := by
  induction h generalizing l' with
  | nil =>
      cases h'
      rfl
  | cons hr _ ih =>
      cases h' with
      | cons hr' hrest =>
          rw [hread _ List.mem_cons_self _ List.mem_cons_self (hr.trans hr'.symm),
            ih hrest fun r hr r' hr' => hread r (List.mem_cons_of_mem _ hr) r'
              (List.mem_cons_of_mem _ hr')]

/-- A call that reads its rows, each of which reads back as itself, lists exactly these. -/
theorem lists_iff {read : SubmissionRow → Except RepositoryError SubmissionRecord}
    {rows expected : List SubmissionRow}
    (hread : ∀ r ∈ t, ∃ x, read r = .ok x ∧ x.id = r.id) (hrows : ∀ r ∈ rows, r ∈ t)
    (hexpected : ∀ r ∈ expected, r ∈ t) :
    Lists read expected (.ok (rows.mapM read)) ↔ rows = expected := by
  have hall : ∃ records, List.Forall₂ (fun r x => read r = .ok x) rows records := by
    induction rows with
    | nil => exact ⟨[], .nil⟩
    | cons r rows ih =>
        obtain ⟨records, h⟩ := ih fun r hr => hrows r (List.mem_cons_of_mem _ hr)
        obtain ⟨x, hx, -⟩ := hread r (hrows r List.mem_cons_self)
        exact ⟨x :: records, .cons hx h⟩
  constructor
  · rintro ⟨records, hrun, h⟩
    refine eq_of_reads (mapM_ok_iff.mp (Except.ok.inj hrun)) h fun r hr r' hr' heq => ?_
    -- the record shows the id, and the id is the key of the table
    obtain ⟨x, hx, hid⟩ := hread r (hrows r hr)
    obtain ⟨x', hx', hid'⟩ := hread r' (hexpected r' hr')
    have hsame : x = x' := Except.ok.inj (hx.symm.trans (heq.trans hx'))
    exact Table.eq_of_key (hrows r hr) (hexpected r' hr') (hid.symm.trans (hsame ▸ hid'))
  · rintro rfl
    obtain ⟨records, h⟩ := hall
    exact ⟨records, congrArg Except.ok (mapM_ok_iff.mpr h), h⟩

/-! ### What PostgreSQL lists -/

/-- A timestamp that is given is read as it is meant. -/
theorem readTimestamps {o : Option String}
    (h : ∀ s ∈ o, '\x00' ∉ s.toList ∧ (P.readTimestamp s).isSome = true) :
    ∃ t, (o.map text).mapM P.readTimestamp = some t ∧
      ∀ p : Timestamp → Bool, t.all p = o.all fun s => (P.readTimestamp s).any p := by
  cases o with
  | none => exact ⟨none, rfl, fun _ => rfl⟩
  | some s =>
      obtain ⟨hnul, hread⟩ := h s rfl
      obtain ⟨t, ht⟩ := Option.isSome_iff_exists.mp hread
      have htext : text s = s := cStr_of_not_mem hnul
      refine ⟨some t, by simp [htext, ht], fun p => ?_⟩
      simp [ht]

/-- PostgreSQL selects the rows that satisfy the filter as it was sent. -/
theorem selectFiltered_timed (h : filter.Timed P) (message : String) (db : Database) :
    selectFiltered P message (PostgreSQLFiltering.query filter) db
      = .tuples (listed db.submissions.rows fun r => filter.sent.selects r && filter.within P r) := by
  obtain ⟨createdFrom, hfrom, hfrom'⟩ := readTimestamps h.createdFrom
  obtain ⟨createdTo, hto, hto'⟩ := readTimestamps h.createdTo
  unfold selectFiltered
  rw [condition_query, hfrom, hto]
  simp only [Option.map_some, Built.both, hfrom', hto', SubmissionAdminFilter.within]

theorem postgres_run (h : filter.Timed P) {w : World Choice Database}
    (hserved : (w.choices 0).failure = none) :
    ((PostgreSQLFiltering.listFiltered P filter).run (serveFilterQueries P) w).1
      = .ok ((listed w.state.submissions.rows fun r => filter.sent.selects r && filter.within P r).mapM
          (record P)) := by
  unfold PostgreSQLFiltering.listFiltered
  rw [Program.ask_bind, Program.run_call]
  unfold serveFilterQueries
  rw [hserved]
  dsimp only
  rw [selectFiltered_timed h]
  rfl

/-- **When PostgreSQL lists what was asked for.** -/
theorem postgres_lists_iff (h : filter.Timed P) {w : World Choice Database}
    (hserved : (w.choices 0).failure = none) (hchecked : w.state.Checked) :
    Lists (record P) (listed w.state.submissions.rows (filter.accepts P))
        ((PostgreSQLFiltering.listFiltered P filter).run (serveFilterQueries P) w).1 ↔
      filter.SentAlike P w.state.submissions.rows := by
  have hread : ∀ r ∈ w.state.submissions, ∃ x, record P r = .ok x ∧ x.id = r.id := by
    intro r hr
    obtain ⟨x, hx, -⟩ := record_checked (P := P) (hchecked r hr)
    exact ⟨x, hx, (record_columns hx).1⟩
  rw [postgres_run h hserved, lists_iff hread (fun r hr => (of_mem_listed hr).1)
    fun r hr => (of_mem_listed hr).1, listed_eq_iff]
  have hunion : (fun r => filter.sent.selects r && filter.within P r || filter.accepts P r)
      = fun r => (filter.sent.selects r || filter.selects r) && filter.within P r := by
    funext r
    exact (Bool.and_or_distrib_right _ _ _).symm
  rw [hunion, SubmissionAdminFilter.SentAlike]
  refine forall₂_congr fun r hr => ?_
  have hwithin : filter.within P r = true := (Bool.and_eq_true_iff.mp (of_mem_listed hr).2).2
  rw [SubmissionAdminFilter.accepts, hwithin, Bool.and_true, Bool.and_true]

end lists
end AlgorithmTrainer
