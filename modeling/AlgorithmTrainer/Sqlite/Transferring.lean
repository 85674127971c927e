import AlgorithmTrainer.Sqlite.Copying
import AlgorithmTrainer.Sqlite.Filtering

/-!
# `Sqlite.Transferring` — `sqlite-to-postgresql.cpp`

The tool reads the tables of the source one after the other and inserts their rows into the target, all in one
transaction. `transferProtocol` is the discipline of its run: what it asks for in which phase, and which rows
are still to be inserted. `transferred_iff` says when a run that succeeds has transferred the database.
-/

namespace AlgorithmTrainer

open Interaction Relational

/-! ## The sequences -/

/-- The tables that generate ids, in the order in which their sequences are repaired. -/
def generatedTables : List LegacyTable := [.users, .sessions, .problemTests, .submissions, .adminAuditLog]

/-- `setval` on the sequence of a table, so that `next` comes next. -/
def Sequences.set (q : Sequences) (t : LegacyTable) (next : Int) : Sequences :=
  match t with
  | .users => { q with users := next }
  | .sessions => { q with sessions := next }
  | .problems => q
  | .problemTests => { q with problemTests := next }
  | .submissions => { q with submissions := next }
  | .adminAuditLog => { q with adminAuditLog := next }

/-- The next id that a sequence generates. -/
def Sequences.next (q : Sequences) : LegacyTable → Int
  | .users => q.users
  | .sessions => q.sessions
  | .problems => 0
  | .problemTests => q.problemTests
  | .submissions => q.submissions
  | .adminAuditLog => q.adminAuditLog

/-- The ids of a table. -/
def Database.ids (P : Platform) (db : Database) (t : LegacyTable) : List Int :=
  (db.values P t).filterMap fun v => (v "id").bigint?

/-- `setval(…, coalesce(max(id),1), max(id) IS NOT NULL)`, which rejects values below 1. -/
def Database.setval (P : Platform) (db : Database) (t : LegacyTable) : Option Database :=
  match (db.ids P t).max? with
  | none => some { db with sequences := db.sequences.set t 1 }
  | some id => if 1 ≤ id then some { db with sequences := db.sequences.set t (id + 1) } else none

/-- One `setval` after the other, until one is rejected or the execution fails: how many were executed, and
    what they leave. -/
def Database.setvals (P : Platform) : List LegacyTable → Nat → Database → Nat × Database
  | t :: ts, n + 1, db =>
      match db.setval P t with
      | some db => ((Database.setvals P ts n db).1 + 1, (Database.setvals P ts n db).2)
      | none => (0, db)
  | _, _, db => (0, db)

/-! ## The two connections -/

inductive TransferRequest where
  /-- `sqlite3_open_v2`. -/
  | openSource
  | connect
  /-- `BEGIN` on the source. -/
  | beginSource
  | begin
  | advisoryLock
  | lockTables
  | countRows
  /-- Step through `SELECT … ORDER BY id`. -/
  | select (t : LegacyTable)
  | insert (t : LegacyTable) (parameters : List (Option CString))
  | setvals
  | commit
  | rollback

/-- What stepping through a query gives: the rows before the step that is not `SQLITE_ROW`, and whether that
    one is `SQLITE_DONE`. -/
inductive Selected where
  | unprepared
  | rows (rows : List (List Cell)) (finished : Bool)

/-- The result of the five statements that repair the sequences. The tool does not see how many of them were
    executed. -/
structure Repair where
  executed : Nat
  tuplesOk : Bool

/-- Whether a command was executed; of an insert, why not. -/
@[reducible] def TransferRequest.Reply : TransferRequest → Type
  | .countRows => Option Nat
  | .select _ => Selected
  | .insert .. => Option SqlState
  | .setvals => Repair
  | _ => Bool

@[reducible] def TransferTool : Signature := ⟨TransferRequest, TransferRequest.Reply⟩

/-- What fails; of a query, after how many rows, and of the repair, after how many statements. -/
structure TransferChoice where
  fault : Bool := false
  rows : Option Nat := none
  executed : Nat := 0

/-- The choice where nothing goes wrong. -/
def TransferChoice.calm : TransferChoice := {}

structure TransferState where
  source : LegacyDatabase
  target : Session Database

/-- `SELECT (SELECT count(*) FROM users)+…`. -/
def Database.countRows (db : Database) : Nat :=
  db.users.rows.length + db.problems.rows.length + db.submissions.rows.length + db.sessions.rows.length
    + db.adminAuditLog.rows.length

/-- Both databases, one request at a time. A rollback does not take `setval` back, and a commit that fails is
    assumed to have had no effect. How long the index rows of an inserted row are is left out here
    (`serveTransferIndexed`). -/
def serveTransfer (P : Platform) (readJsonb : ReadJsonb) : Service TransferTool TransferChoice TransferState
  | .openSource, c, state | .connect, c, state | .beginSource, c, state | .advisoryLock, c, state
  | .lockTables, c, state => (!c.fault, state)
  | .begin, c, state =>
      match c.fault, state.target.begin with
      | false, some target => (true, { state with target })
      | _, _ => (false, state)
  | .countRows, c, state => (if c.fault then none else some state.target.current.countRows, state)
  | .select t, c, state =>
      match c.fault, c.rows with
      | true, none => (.unprepared, state)
      | true, some n => (.rows ((state.source.select t).take n) false, state)
      | false, _ => (.rows (state.source.select t) true, state)
  | .insert t parameters, c, state =>
      if c.fault then (some .fault, state)
      else
        match t.insert P readJsonb parameters state.target.current with
        | .ok db => (none, { state with target := state.target.write db })
        | .error e => (some e, state)
  | .setvals, c, state =>
      let limit := if c.fault then c.executed else generatedTables.length
      let repair := Database.setvals P generatedTables limit state.target.current
      (⟨repair.1, !c.fault && repair.1 == generatedTables.length⟩,
        { state with target := state.target.write repair.2 })
  | .commit, c, state =>
      match c.fault, state.target.working with
      | false, some _ => (true, { state with target := state.target.commit })
      | _, _ => (false, state)
  | .rollback, c, state =>
      (!c.fault, { state with target := state.target.rollback fun working committed =>
        { committed with sequences := working.sequences } })

/-! ## The tool -/

abbrev TransferCall := Program TransferTool Exception

namespace TransferTool

def send (q : TransferRequest) : TransferCall q.Reply := .ask (S := TransferTool) q

/-- The inserts of these rows, up to the first that fails. -/
def insertRows (t : LegacyTable) : List (List Cell) → TransferCall Bool
  | [] => pure true
  | cells :: rows => do
      let result ← send (.insert t (cells.map Cell.parameter))
      match result with
      | none => insertRows t rows
      | some _ => pure false

/-- `transfer`: the number of rows that were copied, if all were. -/
def transfer (t : LegacyTable) : TransferCall (Option Nat) := do
  let selected ← send (.select t)
  match selected with
  | .unprepared => pure none
  | .rows rows finished => do
      let inserted ← insertRows t rows
      if inserted && finished then pure (some rows.length) else pure none

/-- The loop over the tables. -/
def transferTables : List LegacyTable → Nat → TransferCall (Option Nat)
  | [], total => pure (some total)
  | t :: ts, total => do
      let copied ← transfer t
      match copied with
      | none => pure none
      | some copied => transferTables ts (total + copied)

/-- The transactions, the advisory lock and the locks of the tables. -/
def establish : TransferCall Bool := do
  if !(← send .beginSource) then pure false
  else if !(← send .begin) then pure false
  else if !(← send .advisoryLock) then pure false
  else send .lockTables

/-- The repair of the sequences, and the commit. -/
def finalize : TransferCall Bool := do
  let repair ← send .setvals
  if !repair.tuplesOk then pure false else send .commit

/-- `ROLLBACK`, and the exit status. -/
def abandon : TransferCall Nat := do
  let _ ← send .rollback
  pure 1

/-- The exit status. -/
def main : TransferCall Nat := do
  if !(← send .openSource) then pure 1
  else if !(← send .connect) then pure 1
  else if !(← establish) then abandon
  else
    let count ← send .countRows
    if count ≠ some 0 then abandon
    else
      match ← transferTables transferredTables 0 with
      | none => abandon
      | some _ => if !(← finalize) then abandon else pure 0

end TransferTool

/-! ## The discipline of a run -/

/-- Where the transaction on the target stands; while rows are copied, with those that are still to come. -/
inductive TransferStage where
  | closed
  | opened
  | copying (rest : List (LegacyTable × (String → Cell)))
  | repaired (tuplesOk : Bool)
  | aborted
  | committed

/-- The stage, and how many `setval` were executed. -/
structure TransferPhase where
  stage : TransferStage
  executed : Nat

/-- The values that are selected from a row. -/
def LegacyTable.cells (t : LegacyTable) (r : String → Cell) : List Cell := t.columns.map fun x => r x.1

/-- All rows, table after table in the order of the tool. -/
def LegacyDatabase.schedule (s : LegacyDatabase) : List (LegacyTable × (String → Cell)) :=
  transferredTables.flatMap fun t => (s.rows t).map (t, ·)

/-- The request may be made at this stage; the row that is inserted is the next one. -/
def TransferStage.Allows : TransferStage → TransferRequest → Prop
  | .closed, .openSource | .closed, .connect | .closed, .beginSource | .closed, .begin
  | .closed, .rollback => True
  | .opened, .advisoryLock | .opened, .lockTables | .opened, .countRows | .opened, .rollback => True
  | .copying _, .select _ | .copying _, .rollback => True
  | .copying rest, .insert t parameters =>
      ∃ r rest', rest = (t, r) :: rest' ∧ parameters = (t.cells r).map Cell.parameter
  | .copying rest, .setvals => rest = []
  | .repaired tuplesOk, .commit => tuplesOk = true
  | .repaired _, .rollback => True
  | _, _ => False

/-- The stage after a request. -/
def TransferStage.next (s : LegacyDatabase) (stage : TransferStage) :
    (q : TransferRequest) → q.Reply → TransferStage
  | .begin, true => .opened
  | .countRows, some 0 => .copying s.schedule
  | .insert _ _, none => match stage with
      | .copying rest => .copying rest.tail
      | stage => stage
  | .setvals, repair => .repaired repair.tuplesOk
  | .commit, true => .committed
  | .rollback, _ => .aborted
  | _, _ => stage

/-- How many `setval` a request executed. -/
def executedBy : (q : TransferRequest) → q.Reply → Nat
  | .setvals, repair => repair.executed
  | _, _ => 0

/-- What a query returns is the first rows of the table, and all of them if it finished. -/
def Answers (s : LegacyDatabase) : (q : TransferRequest) → q.Reply → Prop
  | .select t, .rows rows finished =>
      ∃ n, rows = (s.select t).take n ∧ (finished = true → rows = s.select t)
  | _, _ => True

def transferProtocol (s : LegacyDatabase) : Protocol TransferTool TransferPhase where
  allowed φ q := φ.stage.Allows q
  admits _ := Answers s
  next φ q r := ⟨φ.stage.next s q r, φ.executed + executedBy q r⟩

/-- The number of `setval` that the calls of a run executed. -/
def executedSetvals (l : List (Exchange TransferTool)) : Nat :=
  (l.map fun x => executedBy x.request x.reply).sum

section follows
variable {s : LegacyDatabase}

theorem executed_after (φ : TransferPhase) (l : List (Exchange TransferTool)) :
    ((transferProtocol s).after φ l).executed = φ.executed + executedSetvals l := by
  induction l generalizing φ with
  | nil => rfl
  | cons x l ih =>
      show ((transferProtocol s).after _ l).executed = _
      rw [ih]
      simp only [executedSetvals, List.map_cons, List.sum_cons, transferProtocol, Nat.add_assoc]

theorem select_eq (s : LegacyDatabase) (t : LegacyTable) : s.select t = (s.rows t).map t.cells := rfl

/-- The inserts of the next rows: if they succeed, these rows are copied. -/
theorem insertRows_follows (t : LegacyTable) (rows : List (String → Cell))
    (rest : List (LegacyTable × (String → Cell))) :
    (transferProtocol s).Follows
      (fun φ o => ∃ b rest', o = .ok b ∧ φ = ⟨.copying rest', 0⟩ ∧ (b = true → rest' = rest))
      ⟨.copying (rows.map (t, ·) ++ rest), 0⟩ (TransferTool.insertRows t (rows.map t.cells)) := by
  induction rows with
  | nil => exact ⟨true, rest, rfl, rfl, fun _ => rfl⟩
  | cons r rows ih =>
      refine ⟨⟨r, _, rfl, rfl⟩, fun result _ => ?_⟩
      cases result with
      | none => exact ih
      | some _ => exact ⟨false, _, rfl, rfl, fun h => by cases h⟩

/-- A table: if it is transferred, its rows are copied. -/
theorem transfer_follows (t : LegacyTable) (rest : List (LegacyTable × (String → Cell))) :
    (transferProtocol s).Follows
      (fun φ o => ∃ n rest', o = .ok n ∧ φ = ⟨.copying rest', 0⟩ ∧ (n.isSome = true → rest' = rest))
      ⟨.copying ((s.rows t).map (t, ·) ++ rest), 0⟩ (TransferTool.transfer t) := by
  refine ⟨trivial, fun selected hselected => ?_⟩
  cases selected with
  | unprepared => exact ⟨none, _, rfl, rfl, fun h => by cases h⟩
  | rows rows finished =>
      obtain ⟨n, rfl, hfinished⟩ := hselected
      have hsplit : (s.rows t).map (t, ·) ++ rest
          = ((s.rows t).take n).map (t, ·) ++ (((s.rows t).drop n).map (t, ·) ++ rest) := by
        rw [← List.append_assoc, ← List.map_append, List.take_append_drop]
      have hcells : (s.select t).take n = ((s.rows t).take n).map t.cells := by
        rw [select_eq, List.map_take]
      have hinserts := insertRows_follows (s := s) t ((s.rows t).take n)
        (((s.rows t).drop n).map (t, ·) ++ rest)
      rw [← hsplit, ← hcells] at hinserts
      refine hinserts.bind ?_ fun φ e h => ?_
      · rintro φ b ⟨_, rest', ho, rfl, hrest⟩
        cases ho
        by_cases hall : (b && finished) = true
        · rw [Bool.and_eq_true] at hall
          rw [hall.1, hall.2]
          refine ⟨_, rest', rfl, rfl, fun _ => ?_⟩
          -- all rows were read, so none is left
          have hlength := congrArg List.length (hfinished hall.2)
          have hdrop : (s.rows t).drop n = [] := by
            rw [select_eq, List.length_take, List.length_map] at hlength
            exact List.drop_eq_nil_of_le (by omega)
          rw [hrest hall.1, hdrop]
          rfl
        · show (transferProtocol s).Follows _ _ (if (b && finished) = true then _ else _)
          rw [if_neg hall]
          exact ⟨none, rest', rfl, rfl, fun h => by cases h⟩
      · obtain ⟨_, _, ho, -, -⟩ := h
        cases ho

/-- The loop over the tables. -/
theorem transferTables_follows (ts : List LegacyTable) (total : Nat) :
    (transferProtocol s).Follows
      (fun φ o => ∃ n rest, o = .ok n ∧ φ = ⟨.copying rest, 0⟩ ∧ (n.isSome = true → rest = []))
      ⟨.copying (ts.flatMap fun t => (s.rows t).map (t, ·)), 0⟩ (TransferTool.transferTables ts total) := by
  induction ts generalizing total with
  | nil => exact ⟨some total, [], rfl, rfl, fun _ => rfl⟩
  | cons t ts ih =>
      refine (transfer_follows t _).bind ?_ fun φ e h => ?_
      · rintro φ n ⟨_, rest, ho, rfl, hrest⟩
        cases ho
        cases n with
        | none => exact ⟨none, rest, rfl, rfl, fun h => by cases h⟩
        | some copied =>
            rw [hrest rfl]
            exact ih _
      · obtain ⟨_, _, ho, -, -⟩ := h
        cases ho

/-- How a run ends. -/
def TransferEnds (φ : TransferPhase) (o : Except Exception Nat) : Prop :=
  (o = .ok 0 ∧ φ.stage = .committed) ∨ (o = .ok 1 ∧ (φ.stage = .closed ∨ φ.stage = .aborted))

theorem abandon_follows {φ : TransferPhase} (h : φ.stage.Allows .rollback) :
    (transferProtocol s).Follows TransferEnds φ TransferTool.abandon :=
  ⟨h, fun _ _ => .inr ⟨rfl, .inr rfl⟩⟩

theorem finalize_follows :
    (transferProtocol s).Follows
      (fun φ o => ∃ b, o = .ok b ∧ (b = true → φ.stage = .committed) ∧
        (b = false → φ.stage.Allows .rollback))
      ⟨.copying [], 0⟩ TransferTool.finalize := by
  refine ⟨rfl, fun repair _ => ?_⟩
  cases hok : repair.tuplesOk with
  | false =>
      show (transferProtocol s).Follows _ _ (if (!repair.tuplesOk) = true then _ else _)
      rw [hok]
      exact ⟨false, rfl, fun h => (by cases h), fun _ => trivial⟩
  | true =>
      show (transferProtocol s).Follows _ _ (if (!repair.tuplesOk) = true then _ else _)
      rw [hok]
      refine ⟨hok, fun b _ => ⟨b, rfl, fun hb => ?_, fun hb => ?_⟩⟩
      · subst hb
        rfl
      · subst hb
        trivial

theorem establish_follows :
    (transferProtocol s).Follows
      (fun φ o => ∃ b, o = .ok b ∧ (b = true → φ = ⟨.opened, 0⟩) ∧
        (b = false → φ.stage.Allows .rollback))
      ⟨.closed, 0⟩ TransferTool.establish := by
  refine ⟨trivial, fun begunSource _ => ?_⟩
  cases begunSource with
  | false => exact ⟨false, rfl, fun h => (by cases h), fun _ => trivial⟩
  | true =>
      refine ⟨trivial, fun begun _ => ?_⟩
      cases begun with
      | false => exact ⟨false, rfl, fun h => (by cases h), fun _ => trivial⟩
      | true =>
          refine ⟨trivial, fun locked _ => ?_⟩
          cases locked with
          | false => exact ⟨false, rfl, fun h => (by cases h), fun _ => trivial⟩
          | true => exact ⟨trivial, fun b _ => ⟨b, rfl, fun _ => rfl, fun _ => trivial⟩⟩

/-- **The tool keeps to the protocol.** -/
theorem main_follows : (transferProtocol s).Follows TransferEnds ⟨.closed, 0⟩ TransferTool.main := by
  refine ⟨trivial, fun opened _ => ?_⟩
  -- the legacy file, then the target server: what cannot be opened needs no rollback
  cases opened with
  | false => exact .inr ⟨rfl, .inl rfl⟩
  | true =>
      refine ⟨trivial, fun connected _ => ?_⟩
      cases connected with
      | false => exact .inr ⟨rfl, .inl rfl⟩
      | true =>
          refine establish_follows.bind ?_ fun φ e h => ?_
          · rintro φ b ⟨_, ho, hopened, hfailed⟩
            cases ho
            cases b with
            | false => exact abandon_follows (hfailed rfl)
            | true =>
                rw [hopened rfl]
                refine ⟨trivial, fun count _ => ?_⟩
                -- a target with rows in it is left alone
                match count with
                | none => exact abandon_follows trivial
                | some (n + 1) => exact abandon_follows trivial
                | some 0 =>
                    refine (transferTables_follows transferredTables 0).bind ?_ fun φ e h => ?_
                    · rintro φ n ⟨_, rest, ho, rfl, hrest⟩
                      cases ho
                      cases n with
                      | none => exact abandon_follows trivial
                      -- Only here is there something to commit: every table has been copied.
                      | some total =>
                          rw [hrest rfl]
                          refine finalize_follows.bind ?_ fun φ e h => ?_
                          · rintro φ b ⟨_, ho, hcommitted, hfailed⟩
                            cases ho
                            cases b with
                            | false => exact abandon_follows (hfailed rfl)
                            | true => exact .inl ⟨rfl, hcommitted rfl⟩
                          · obtain ⟨_, ho, -⟩ := h
                            cases ho
                    · obtain ⟨_, _, ho, -⟩ := h
                      cases ho
          · obtain ⟨_, ho, -⟩ := h
            cases ho

end follows

/-! ## What has been copied -/

/-- The rows of one table among these. -/
def rowsOf (t : LegacyTable) (l : List (LegacyTable × (String → Cell))) : List (String → Cell) :=
  l.filterMap fun x => if x.1 = t then some x.2 else none

/-- The tables hold what was read from these rows. -/
def Copied (P : Platform) (readJsonb : ReadJsonb) (done : List (LegacyTable × (String → Cell)))
    (db : Database) : Prop :=
  ∀ t, List.Forall₂ (t.Reads P readJsonb) (rowsOf t done) (db.values P t)

/-- The integer of a cell. -/
def Cell.integer? : Cell → Option Int
  | .integer n => some n
  | _ => none

/-- The ids of a table that generates them. -/
def LegacyDatabase.ids (s : LegacyDatabase) (t : LegacyTable) : List Int :=
  (s.rows t).filterMap fun r => (r "id").integer?

/-- The id after the largest one. -/
def nextId (ids : List Int) : Int := ids.max?.elim 1 (· + 1)

/-- The sequences of these tables, repaired for the source. -/
def LegacyDatabase.repaired (s : LegacyDatabase) (ts : List LegacyTable) (q : Sequences) : Sequences :=
  ts.foldl (fun q t => q.set t (nextId (s.ids t))) q

/-- The sequences of these tables, repaired for the rows that are there. -/
def Database.repaired (P : Platform) (db : Database) (ts : List LegacyTable) (q : Sequences) : Sequences :=
  ts.foldl (fun q t => q.set t (nextId (db.ids P t))) q

/-- No row is in any table. -/
structure Database.Empty (db : Database) : Prop where
  counted : db.countRows = 0
  problemTests : db.problemTests.rows = []

section copied
variable {P : Platform} {readJsonb : ReadJsonb} {s : LegacyDatabase} {db db' : Database} {t : LegacyTable}
  {done : List (LegacyTable × (String → Cell))}

theorem rowsOf_append (t : LegacyTable) (l l' : List (LegacyTable × (String → Cell))) :
    rowsOf t (l ++ l') = rowsOf t l ++ rowsOf t l' := List.filterMap_append

theorem rowsOf_map (t t' : LegacyTable) (rows : List (String → Cell)) :
    rowsOf t (rows.map (t', ·)) = if t' = t then rows else [] := by
  unfold rowsOf
  rw [List.filterMap_map]
  by_cases h : t' = t
  · simp [h]
  · simp [h]

/-- Every table is in the schedule once. -/
theorem rowsOf_schedule (t : LegacyTable) : rowsOf t s.schedule = s.rows t := by
  unfold LegacyDatabase.schedule transferredTables
  simp only [List.flatMap_cons, List.flatMap_nil, rowsOf_append, rowsOf_map]
  cases t <;> simp [rowsOf]

theorem Database.Empty.values (h : db.Empty) (t : LegacyTable) : db.values P t = [] := by
  have hcounted : db.users.rows.length + db.problems.rows.length + db.submissions.rows.length
    + db.sessions.rows.length + db.adminAuditLog.rows.length = 0 := h.counted
  have hnil : ∀ {ρ : Type} (rows : List ρ), rows.length = 0 → ∀ f : ρ → String → PgValue,
      rows.map f = [] := by
    intro ρ rows hrows f
    rw [List.length_eq_zero_iff.mp hrows]
    rfl
  cases t with
  | users => exact hnil db.users.rows (by omega) _
  | sessions => exact hnil db.sessions.rows (by omega) _
  | problems => exact hnil db.problems.rows (by omega) _
  | problemTests => exact hnil db.problemTests.rows (List.length_eq_zero_iff.mpr h.problemTests) _
  | submissions => exact hnil db.submissions.rows (by omega) _
  | adminAuditLog => exact hnil db.adminAuditLog.rows (by omega) _

theorem Copied.empty (h : db.Empty) : Copied P readJsonb [] db := by
  intro t
  rw [h.values]
  exact .nil

/-- One more row. -/
theorem Copied.insert {r : String → Cell} (h : Copied P readJsonb done db)
    (hinsert : t.insert P readJsonb ((t.cells r).map Cell.parameter) db = .ok db') :
    Copied P readJsonb (done ++ [(t, r)]) db' ∧ db'.sequences = db.sequences := by
  obtain ⟨⟨v, hreads, hvalues⟩, hother, hsequences⟩ := insert_values hinsert
  refine ⟨fun t' => ?_, hsequences⟩
  have hrows : rowsOf t' [(t, r)] = if t = t' then [r] else [] := rowsOf_map t' t [r]
  rw [rowsOf_append, hrows]
  by_cases ht : t = t'
  · subst ht
    rw [if_pos rfl, hvalues]
    exact List.rel_append (h t) (.cons hreads .nil)
  · rw [if_neg ht, List.append_nil, hother t' (Ne.symm ht)]
    exact h t'

/-! ### The ids -/

theorem bigint_of_reads {r : String → Cell} {v : String → PgValue}
    (hid : ("id", Cast.bigint) ∈ t.columns) (hfits : ∀ x ∈ t.columns, (r x.1).Fits x.2)
    (hreads : t.Reads P readJsonb r v) : (v "id").bigint? = (r "id").integer? := by
  have hread := hreads _ hid
  have hfit := hfits _ hid
  generalize r "id" = cell at hread hfit
  generalize v "id" = value at hread
  cases cell with
  | null =>
      cases hread
      rfl
  | integer n =>
      have hsame := (sameValue_iff hfit hread).mpr trivial
      cases hsame
      rfl
  | text s => exact hfit.elim

/-- Once everything is copied, the generated ids are those of the source. -/
theorem ids_copied (h : Copied P readJsonb s.schedule db) (hid : ("id", Cast.bigint) ∈ t.columns) :
    db.ids P t = s.ids t := by
  have hrows := h t
  rw [rowsOf_schedule] at hrows
  have hfits := fits_rows s t
  unfold Database.ids LegacyDatabase.ids
  generalize s.rows t = rows, db.values P t = values at hrows hfits
  induction hrows with
  | nil => rfl
  | @cons r v rows values hr _ ih =>
      have hhead := bigint_of_reads hid (hfits r List.mem_cons_self) hr
      have htail := ih fun r hr => hfits r (List.mem_cons_of_mem _ hr)
      rw [List.filterMap_cons, List.filterMap_cons, hhead, htail]

/-! ### The repair of the sequences -/

theorem values_sequences (q : Sequences) (t : LegacyTable) :
    Database.values P { db with sequences := q } t = db.values P t := by
  cases t <;> rfl

theorem ids_sequences (q : Sequences) (t : LegacyTable) :
    Database.ids P { db with sequences := q } t = db.ids P t := by
  unfold Database.ids
  rw [values_sequences]

theorem setval_some (h : db.setval P t = some db') :
    db' = { db with sequences := db.sequences.set t (nextId (db.ids P t)) } := by
  unfold Database.setval at h
  unfold nextId
  split at h
  · rename_i hnone
    rw [hnone]
    exact (Option.some.inj h).symm
  · rename_i id hsome
    rw [hsome]
    split at h
    · exact (Option.some.inj h).symm
    · cases h

/-- **What the repair does**: it sets the sequences of the first tables. -/
theorem setvals_eq (ts : List LegacyTable) (limit : Nat) (db : Database) :
    (Database.setvals P ts limit db).1 ≤ ts.length ∧
      (Database.setvals P ts limit db).2 = { db with
        sequences := db.repaired P (ts.take (Database.setvals P ts limit db).1) db.sequences } := by
  induction ts generalizing limit db with
  | nil => cases limit <;> exact ⟨Nat.le_refl _, rfl⟩
  | cons t ts ih =>
      cases limit with
      | zero => exact ⟨Nat.zero_le _, rfl⟩
      | succ n =>
          unfold Database.setvals
          split
          · rename_i db' hsetval
            obtain ⟨hle, hdb⟩ := ih n db'
            refine ⟨Nat.succ_le_succ hle, ?_⟩
            show (Database.setvals P ts n db').2 = _
            rw [hdb]
            show _ = { db with
              sequences := db.repaired P ((t :: ts).take ((Database.setvals P ts n db').1 + 1)) db.sequences }
            cases setval_some hsetval
            simp only [Database.repaired, ids_sequences, List.take_succ_cons, List.foldl_cons]
          · exact ⟨Nat.zero_le _, rfl⟩

/-- A table that generates ids has them in a column `id`. -/
theorem id_column {t : LegacyTable} (ht : t ∈ generatedTables) : ("id", Cast.bigint) ∈ t.columns := by
  simp only [generatedTables, List.mem_cons, List.not_mem_nil, or_false] at ht
  rcases ht with rfl | rfl | rfl | rfl | rfl <;> exact List.mem_cons_self

/-- Once everything is copied, they are repaired for the source. -/
theorem repaired_copied (h : Copied P readJsonb s.schedule db) (n : Nat) (q : Sequences) :
    db.repaired P (generatedTables.take n) q = s.repaired (generatedTables.take n) q := by
  have hids : ∀ t ∈ generatedTables.take n, db.ids P t = s.ids t :=
    fun t ht => ids_copied h (id_column (List.mem_of_mem_take ht))
  unfold Database.repaired LegacyDatabase.repaired
  generalize generatedTables.take n = ts at hids ⊢
  induction ts generalizing q with
  | nil => rfl
  | cons t ts ih =>
      rw [List.foldl_cons, List.foldl_cons, hids t List.mem_cons_self]
      exact ih _ fun t ht => hids t (List.mem_cons_of_mem _ ht)

end copied

/-! ## The invariant of a run -/

/-- The target at a stage, when the tool was started on the database `d` and has executed some `setval`. -/
def TransferStage.Holds (P : Platform) (readJsonb : ReadJsonb) (s : LegacyDatabase) (d : Database)
    (executed : Nat) (target : Session Database) : TransferStage → Prop
  | .closed => executed = 0 ∧ target = .idle d
  | .opened => executed = 0 ∧ target = ⟨d, some d⟩
  | .copying rest => executed = 0 ∧ d.Empty ∧ ∃ done db, done ++ rest = s.schedule ∧
      target = ⟨d, some db⟩ ∧ db.sequences = d.sequences ∧ Copied P readJsonb done db
  | .repaired tuplesOk => d.Empty ∧ (tuplesOk = true → executed = generatedTables.length) ∧
      ∃ db, target = ⟨d, some db⟩ ∧ Copied P readJsonb s.schedule db ∧
        db.sequences = s.repaired (generatedTables.take executed) d.sequences
  | .aborted => (executed ≠ 0 → d.Empty) ∧
      target = .idle { d with sequences := s.repaired (generatedTables.take executed) d.sequences }
  | .committed => d.Empty ∧ executed = generatedTables.length ∧
      ∃ db, target = .idle db ∧ Copied P readJsonb s.schedule db ∧
        db.sequences = s.repaired generatedTables d.sequences

/-- Both databases in a phase. -/
def InTransfer (P : Platform) (readJsonb : ReadJsonb) (s : LegacyDatabase) (d : Database)
    (φ : TransferPhase) (state : TransferState) : Prop :=
  state.source = s ∧ φ.stage.Holds P readJsonb s d φ.executed state.target

section run
variable {P : Platform} {readJsonb : ReadJsonb} {s : LegacyDatabase} {d : Database}

/-- An insert that does not fail from outside. -/
theorem serve_insert (P : Platform) (readJsonb : ReadJsonb) (t : LegacyTable)
    (parameters : List (Option CString)) {c : TransferChoice} (hc : c.fault = false) (state : TransferState) :
    (∃ db', t.insert P readJsonb parameters state.target.current = .ok db' ∧
      serveTransfer P readJsonb (.insert t parameters) c state
        = (none, { state with target := state.target.write db' })) ∨
    ∃ e, t.insert P readJsonb parameters state.target.current = .error e ∧
      serveTransfer P readJsonb (.insert t parameters) c state = (some e, state) := by
  unfold serveTransfer
  dsimp only
  rw [hc, if_neg Bool.false_ne_true]
  cases t.insert P readJsonb parameters state.target.current with
  | error e => exact .inr ⟨e, rfl, rfl⟩
  | ok db' => exact .inl ⟨db', rfl, rfl⟩

/-- The request keeps the invariant: its answer is one that the discipline knows, and the databases are in the
    phase that it leads to. -/
def KeepsInTransfer (P : Platform) (readJsonb : ReadJsonb) (s : LegacyDatabase) (d : Database)
    (φ : TransferPhase) (q : TransferRequest) (c : TransferChoice) (state : TransferState) : Prop :=
  (transferProtocol s).admits φ q (serveTransfer P readJsonb q c state).1 ∧
    InTransfer P readJsonb s d ((transferProtocol s).next φ q (serveTransfer P readJsonb q c state).1)
      (serveTransfer P readJsonb q c state).2

section requests
variable {φ : TransferPhase} {c : TransferChoice} {state : TransferState}

theorem begin_inTransfer (hq : (transferProtocol s).allowed φ .begin) (h : InTransfer P readJsonb s d φ state) :
    KeepsInTransfer P readJsonb s d φ .begin c state := by
  obtain ⟨stage, executed⟩ := φ
  obtain ⟨source, target⟩ := state
  obtain ⟨fault, rows, limit⟩ := c
  obtain ⟨rfl, h⟩ := h
  cases stage with
  | closed =>
      obtain ⟨hexecuted, rfl⟩ := h
      cases fault with
      | true => exact ⟨trivial, rfl, hexecuted, rfl⟩
      | false => exact ⟨trivial, rfl, hexecuted, rfl⟩
  | _ => exact hq.elim

/-- An empty target is one that counts no rows. -/
theorem countRows_inTransfer (hd : d.countRows = 0 → d.Empty)
    (hq : (transferProtocol s).allowed φ .countRows) (h : InTransfer P readJsonb s d φ state) :
    KeepsInTransfer P readJsonb s d φ .countRows c state := by
  obtain ⟨stage, executed⟩ := φ
  obtain ⟨source, target⟩ := state
  obtain ⟨fault, rows, limit⟩ := c
  obtain ⟨rfl, h⟩ := h
  cases stage with
  | opened =>
      obtain ⟨hexecuted, rfl⟩ := h
      cases fault with
      | true => exact ⟨trivial, rfl, hexecuted, rfl⟩
      | false =>
          refine ⟨trivial, rfl, ?_⟩
          show (TransferStage.opened.next source .countRows (some d.countRows)).Holds P readJsonb source
            d executed _
          cases hcount : d.countRows with
          | zero =>
              have hempty := hd hcount
              exact ⟨hexecuted, hempty, [], d, rfl, rfl, rfl, .empty hempty⟩
          | succ n => exact ⟨hexecuted, rfl⟩
  | _ => exact hq.elim

theorem select_inTransfer {t : LegacyTable} (hq : (transferProtocol s).allowed φ (.select t))
    (h : InTransfer P readJsonb s d φ state) : KeepsInTransfer P readJsonb s d φ (.select t) c state := by
  obtain ⟨stage, executed⟩ := φ
  obtain ⟨source, target⟩ := state
  obtain ⟨fault, rows, limit⟩ := c
  obtain ⟨rfl, h⟩ := h
  cases stage with
  | copying rest =>
      cases fault with
      | true =>
          cases rows with
          | none => exact ⟨trivial, rfl, h⟩
          | some n => exact ⟨⟨n, rfl, fun h => by cases h⟩, rfl, h⟩
      | false => exact ⟨⟨(source.select t).length, List.take_length.symm, fun _ => rfl⟩, rfl, h⟩
  | _ => exact hq.elim

/-- One more row has been copied, unless the insert fails. -/
theorem insert_inTransfer {t : LegacyTable} {parameters : List (Option CString)}
    (hq : (transferProtocol s).allowed φ (.insert t parameters)) (h : InTransfer P readJsonb s d φ state) :
    KeepsInTransfer P readJsonb s d φ (.insert t parameters) c state := by
  obtain ⟨stage, executed⟩ := φ
  obtain ⟨source, target⟩ := state
  obtain ⟨fault, rows, limit⟩ := c
  obtain ⟨rfl, h⟩ := h
  cases stage with
  | copying rest =>
      obtain ⟨r, rest', rfl, rfl⟩ := hq
      obtain ⟨hexecuted, hempty, done, db, hdone, rfl, hsequences, hcopied⟩ := h
      cases fault with
      | true => exact ⟨trivial, rfl, hexecuted, hempty, done, db, hdone, rfl, hsequences, hcopied⟩
      | false =>
          have hcases := serve_insert P readJsonb t
            ((t.cells r).map Cell.parameter) (c := ⟨false, rows, limit⟩) rfl ⟨source, ⟨d, some db⟩⟩
          unfold KeepsInTransfer
          rcases hcases with ⟨db', hinsert, hserve⟩ | ⟨e, -, hserve⟩
          · rw [hserve]
            obtain ⟨hcopied', hsequences'⟩ := hcopied.insert hinsert
            refine ⟨trivial, rfl, hexecuted, hempty, done ++ [(t, r)], db', ?_, rfl,
              hsequences'.trans hsequences, hcopied'⟩
            rw [List.append_assoc]
            exact hdone
          · rw [hserve]
            exact ⟨trivial, rfl, hexecuted, hempty, done, db, hdone, rfl, hsequences, hcopied⟩
  | _ => exact hq.elim

/-- Once everything is copied, the sequences that were reached are repaired. -/
theorem setvals_inTransfer (hq : (transferProtocol s).allowed φ .setvals)
    (h : InTransfer P readJsonb s d φ state) : KeepsInTransfer P readJsonb s d φ .setvals c state := by
  obtain ⟨stage, executed⟩ := φ
  obtain ⟨source, target⟩ := state
  obtain ⟨fault, rows, limit⟩ := c
  obtain ⟨rfl, h⟩ := h
  cases stage with
  | copying rest =>
      cases hq
      obtain ⟨hexecuted, hempty, done, db, hdone, rfl, hsequences, hcopied⟩ := h
      rw [List.append_nil] at hdone
      subst hdone hexecuted
      obtain ⟨hle, hdb⟩ := setvals_eq (P := P) generatedTables
        (if fault then limit else generatedTables.length) db
      refine ⟨trivial, rfl, hempty, fun hok => ?_, (Database.setvals P generatedTables
        (if fault then limit else generatedTables.length) db).2, rfl, fun t => ?_, ?_⟩
      · have hall := (Bool.and_eq_true_iff.mp hok).2
        exact (Nat.zero_add _).trans (beq_iff_eq.mp hall)
      · rw [hdb, values_sequences]
        exact hcopied t
      · rw [hdb]
        show db.repaired P _ db.sequences = _
        rw [hsequences, repaired_copied hcopied]
        exact congrArg (fun n => source.repaired (generatedTables.take n) d.sequences)
          (Nat.zero_add _).symm
  | _ => exact hq.elim

theorem commit_inTransfer (hq : (transferProtocol s).allowed φ .commit)
    (h : InTransfer P readJsonb s d φ state) : KeepsInTransfer P readJsonb s d φ .commit c state := by
  obtain ⟨stage, executed⟩ := φ
  obtain ⟨source, target⟩ := state
  obtain ⟨fault, rows, limit⟩ := c
  obtain ⟨rfl, h⟩ := h
  cases stage with
  | repaired tuplesOk =>
      obtain ⟨hempty, hexecuted, db, rfl, hcopied, hsequences⟩ := h
      cases fault with
      | true => exact ⟨trivial, rfl, hempty, hexecuted, db, rfl, hcopied, hsequences⟩
      | false =>
          refine ⟨trivial, rfl, hempty, hexecuted hq, db, rfl, hcopied, ?_⟩
          rw [hsequences, hexecuted hq, List.take_length]
  | _ => exact hq.elim

/-- A rollback leaves the rows of the beginning, with the sequences as they were repaired. -/
theorem rollback_inTransfer (hq : (transferProtocol s).allowed φ .rollback)
    (h : InTransfer P readJsonb s d φ state) : KeepsInTransfer P readJsonb s d φ .rollback c state := by
  obtain ⟨stage, executed⟩ := φ
  obtain ⟨source, target⟩ := state
  obtain ⟨fault, rows, limit⟩ := c
  obtain ⟨rfl, h⟩ := h
  cases stage with
  | closed | opened =>
      obtain ⟨rfl, rfl⟩ := h
      exact ⟨trivial, rfl, fun hne => absurd rfl hne, rfl⟩
  | copying rest =>
      obtain ⟨rfl, hempty, done, db, -, rfl, hsequences, -⟩ := h
      refine ⟨trivial, rfl, fun _ => hempty, ?_⟩
      show Session.idle { d with sequences := db.sequences } = Session.idle d
      rw [hsequences]
  | repaired tuplesOk =>
      obtain ⟨hempty, -, db, rfl, -, hsequences⟩ := h
      refine ⟨trivial, rfl, fun _ => hempty, ?_⟩
      show Session.idle { d with sequences := db.sequences } = _
      rw [hsequences]
      rfl
  | _ => exact hq.elim

end requests

/-- **Each request keeps the invariant.** -/
theorem serveTransfer_inTransfer (hd : d.countRows = 0 → d.Empty) (φ : TransferPhase)
    (q : TransferRequest) (c : TransferChoice) (state : TransferState)
    (hq : (transferProtocol s).allowed φ q) (h : InTransfer P readJsonb s d φ state) :
    (transferProtocol s).admits φ q (serveTransfer P readJsonb q c state).1 ∧
      InTransfer P readJsonb s d ((transferProtocol s).next φ q (serveTransfer P readJsonb q c state).1)
        (serveTransfer P readJsonb q c state).2 := by
  cases q with
  | openSource | connect | beginSource | advisoryLock | lockTables => exact ⟨trivial, h⟩
  | begin => exact begin_inTransfer hq h
  | countRows => exact countRows_inTransfer hd hq h
  | select t => exact select_inTransfer hq h
  | insert t parameters => exact insert_inTransfer hq h
  | setvals => exact setvals_inTransfer hq h
  | commit => exact commit_inTransfer hq h
  | rollback => exact rollback_inTransfer hq h

/-- **How a run ends**, and what it leaves. -/
theorem main_run {w : World TransferChoice TransferState} (hd : d.countRows = 0 → d.Empty)
    (htarget : w.state.target = .idle d) :
    let V := serveTransfer P readJsonb
    let φ := (transferProtocol w.state.source).after ⟨.closed, 0⟩ (TransferTool.main.log V w)
    TransferEnds φ (TransferTool.main.run V w).1 ∧
      InTransfer P readJsonb w.state.source d φ (TransferTool.main.run V w).2.state :=
  main_follows.run_after (fun φ q c state hq h => serveTransfer_inTransfer hd φ q c state hq h)
    ⟨rfl, rfl, htarget⟩

/-! ## What is transferred -/

/-- **The guarantee.** Every table of the target holds exactly the rows of the source, in the order of their
    ids and with every column equal under its cast. -/
def Transferred (P : Platform) (readJsonb : ReadJsonb) (s : LegacyDatabase) (db : Database) : Prop :=
  ∀ t, List.Forall₂ (t.SameColumns P readJsonb) (s.rows t) (db.values P t)

/-- The next id of each table is larger than every id that was transferred. -/
def NextIdsAbove (s : LegacyDatabase) (q : Sequences) : Prop :=
  ∀ t ∈ generatedTables, ∀ id ∈ s.ids t, id < q.next t

theorem lt_nextId {ids : List Int} {id : Int} (h : id ∈ ids) : id < nextId ids := by
  unfold nextId
  cases hmax : ids.max? with
  | none =>
      rw [List.max?_eq_none_iff.mp hmax] at h
      exact absurd h List.not_mem_nil
  | some m => exact Int.lt_add_one_of_le ((List.max?_eq_some_iff.mp hmax).2 id h)

/-- The repaired sequences are above the ids. -/
theorem repaired_above (q : Sequences) : NextIdsAbove s (s.repaired generatedTables q) := by
  intro t ht id hid
  have hnext : (s.repaired generatedTables q).next t = nextId (s.ids t) := by
    simp only [generatedTables, List.mem_cons, List.not_mem_nil, or_false] at ht
    rcases ht with rfl | rfl | rfl | rfl | rfl <;> rfl
  rw [hnext]
  exact lt_nextId hid

/-- What was copied is equal to the source exactly if none of its texts is cut. -/
theorem copied_transferred_iff {db : Database} (h : Copied P readJsonb s.schedule db) :
    Transferred P readJsonb s db ↔ s.NulFree := by
  refine forall_congr' fun t => ?_
  have hrows := h t
  have hfits := fits_rows s t
  rw [rowsOf_schedule] at hrows
  generalize s.rows t = rows, db.values P t = values at hrows hfits
  induction hrows with
  | nil => exact ⟨fun _ r hr => absurd hr List.not_mem_nil, fun _ => .nil⟩
  | @cons r v rows values hr _ ih =>
      have hhead := sameColumns_iff (hfits r List.mem_cons_self) hr
      have htail := ih fun r hr => hfits r (List.mem_cons_of_mem _ hr)
      rw [List.forall₂_cons, List.forall_mem_cons]
      exact and_congr hhead htail

/-- **When a transfer that succeeds has transferred the database.** -/
theorem transferred_iff (P : Platform) (readJsonb : ReadJsonb) {w : World TransferChoice TransferState}
    {target : Database} (htarget : w.state.target = .idle target) (hempty : target.Empty)
    (hrun : (TransferTool.main.run (serveTransfer P readJsonb) w).1 = .ok 0) :
    ∃ db, (TransferTool.main.run (serveTransfer P readJsonb) w).2.state.target = .idle db ∧
      (Transferred P readJsonb w.state.source db ∧ NextIdsAbove w.state.source db.sequences ↔
        w.state.source.NulFree) := by
  obtain ⟨hends, -, hholds⟩ := main_run (P := P) (fun _ => hempty) htarget
  rcases hends with ⟨-, hcommitted⟩ | ⟨hfailed, -⟩
  · rw [hcommitted] at hholds
    obtain ⟨-, -, db, hdb, hcopied, hsequences⟩ := hholds
    refine ⟨db, hdb, ?_⟩
    rw [copied_transferred_iff hcopied]
    have habove : NextIdsAbove w.state.source db.sequences := hsequences ▸ repaired_above _
    exact and_iff_left habove
  · rw [hrun] at hfailed
    cases hfailed

end run

/-! ### A submission whose code contains U+0000 -/

/-- The queue after `create` has stored a submission with this code. -/
def queueWith (code : String) : SqliteDatabase :=
  ((SQLiteSubmissionRepository.create .unconfigured ⟨"a-plus-b", "python", code, none⟩).run
    (serveSqlite isoText) ⟨fun _ => .calm, ⟨.idle (.initial []), ten⟩⟩).2.state.session.committed

/-- The transfer of that queue to an empty target, at a time when nothing fails. -/
def transferOf (code : String) : World TransferChoice TransferState :=
  ⟨fun _ => .calm, ⟨⟨.initial, .initial, queueWith code⟩, .idle (.initial 0)⟩⟩

/-- No JSON is read. -/
def noJson : ReadJsonb := fun _ => none

theorem Database.Empty.initial (now : Timestamp) : (Database.initial now).Empty := ⟨rfl, rfl⟩

/-- What is behind U+0000 is not transferred, and the tool reports success. -/
theorem transfer_cuts : ¬ ∀ (P : Platform) (readJsonb : ReadJsonb) (code : String) (target : Database),
    (transferOf code).state.target = .idle target → target.Empty →
    (TransferTool.main.run (serveTransfer P readJsonb) (transferOf code)).1 = .ok 0 →
    ∃ db, (TransferTool.main.run (serveTransfer P readJsonb) (transferOf code)).2.state.target = .idle db ∧
      Transferred P readJsonb (transferOf code).state.source db ∧
      NextIdsAbove (transferOf code).state.source db.sequences := by
  intro h
  let w := transferOf "print(3)\x00# done"
  have hrun : (TransferTool.main.run (serveTransfer utc noJson) w).1 = .ok 0 := by decide +kernel
  obtain ⟨db, hdb, htransferred, -⟩ := h utc noJson _ (.initial 0) rfl (.initial 0) hrun
  obtain ⟨hends, -, hholds⟩ := main_run (P := utc) (w := w) (fun _ => .initial 0) rfl
  rcases hends with ⟨-, hcommitted⟩ | ⟨hfailed, -⟩
  · rw [hcommitted] at hholds
    obtain ⟨-, -, db', hdb', hcopied, -⟩ := hholds
    cases (congrArg Session.committed hdb).symm.trans (congrArg Session.committed hdb')
    have hfree := (copied_transferred_iff hcopied).mp htransferred
    obtain ⟨r, hr, hcode⟩ : ∃ r ∈ w.state.source.rows .submissions,
        r "source_code" = .text "print(3)\x00# done" := ⟨_, List.mem_cons_self, rfl⟩
    have hcell := hfree .submissions r hr ("source_code", .plain) (by decide)
    rw [hcode] at hcell
    exact absurd hcell (by decide : ¬ '\x00' ∉ "print(3)\x00# done".toList)
  · rw [hrun] at hfailed
    cases hfailed

/-- Without it, the submission arrives as it is. -/
theorem transfer_keeps :
    ∃ db, (TransferTool.main.run (serveTransfer utc noJson) (transferOf "print(3)")).2.state.target
        = .idle db ∧
      (Transferred utc noJson (transferOf "print(3)").state.source db ∧
          NextIdsAbove (transferOf "print(3)").state.source db.sequences ↔
        (transferOf "print(3)").state.source.NulFree) :=
  transferred_iff utc noJson rfl (Database.Empty.initial 0) (by decide +kernel)

end AlgorithmTrainer
