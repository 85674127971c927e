import Mathlib.Logic.Relation
import AlgorithmTrainer.Lib.Pool
import AlgorithmTrainer.Sqlite.Repository

/-!
# `Sqlite.Sharing` — one connection for all threads

The web threads and the workers call one `SQLiteSubmissionRepository`, and the statements of all their calls
go over its one connection, in any order. While a `retry` has a transaction open, the statements of the others
belong to that transaction, and its `ROLLBACK` takes them back although their callers were told of success.

`nothing_undone` says when that does not happen: if every `ROLLBACK` is sent at a moment when only the `retry`
itself has written since its `BEGIN`.
-/

namespace AlgorithmTrainer

open Interaction Interaction.Pool Transition Relational

/-! ## Calls -/

/-- The calls that threads make in any order. -/
inductive SharedCall where
  | create (request : SubmissionRequest)
  | complete (id : Int) (value : Verdict) (errorType : Option String)
  | fail (id : Int) (errorType : Option String)
  | claimNext
  | retry (id admin : Int)
  | audit (admin : Int) (action type id details : String)

inductive SharedAnswer where
  | record (result : Except RepositoryError SubmissionRecord)
  | claimed (result : Except RepositoryError (Option SubmissionRecord))
  | audited (result : Except RepositoryError Unit)

/-- The call returned no error. -/
def SharedAnswer.success : SharedAnswer → Bool
  | .record result => result.isOk
  | .claimed result => result.isOk
  | .audited result => result.isOk

namespace SharedCall

def program (limits : PostgreSQLRepositoryLimits) : SharedCall → SqliteCall SharedAnswer
  | .create request => do
      let result ← SQLiteSubmissionRepository.create limits request
      pure (.record result)
  | .complete id value errorType => do
      let result ← SQLiteSubmissionRepository.complete id value errorType
      pure (.record result)
  | .fail id errorType => do
      let result ← SQLiteSubmissionRepository.fail id errorType
      pure (.record result)
  | .claimNext => do
      let result ← SQLiteSubmissionRepository.claimNext limits
      pure (.claimed result)
  | .retry id admin => do
      let result ← SQLiteSubmissionRepository.retry limits id admin
      pure (.record result)
  | .audit admin action type id details => do
      let result ← SQLiteSubmissionRepository.audit admin action type id details
      pure (.audited result)

def isRetry : SharedCall → Bool
  | .retry .. => true
  | _ => false

end SharedCall

/-! ## What a statement writes -/

/-- Rows of the two tables that the calls write. -/
structure WrittenRows where
  submissions : List SqliteSubmissionRow
  audits : List SqliteAuditRow
deriving DecidableEq

def WrittenRows.none : WrittenRows := ⟨[], []⟩

/-- All rows of the two tables. -/
def SqliteDatabase.rows (db : SqliteDatabase) : WrittenRows :=
  ⟨db.submissions.rows, db.adminAuditLog.rows⟩

/-- The rows that a statement wrote which returned `rows`, as it left them. -/
def SqliteStatement.wrote (now : String) (db : SqliteDatabase) :
    (t : SqliteStatement) → List t.Row → WrittenRows
  | .insertSubmission .., rows => ⟨rows, []⟩
  | .completeSubmission .., rows => ⟨rows, []⟩
  | .failSubmission .., rows => ⟨rows, []⟩
  | .claimSubmission _, rows => ⟨rows, []⟩
  | .insertRetry .., rows => ⟨rows, []⟩
  | .insertAudit admin action type id details, _ =>
      ⟨[], [⟨db.nextAudit, admin, action, type, id, details, now⟩]⟩
  | _, _ => .none

/-- The rows that a request wrote in this state. -/
def SqliteState.wrote (strftime : Timestamp → String) (s : SqliteState) :
    Exchange SqliteConnection → WrittenRows
  | ⟨.execute t, .rows rows⟩ => t.wrote (strftime s.clock) s.session.current rows
  | _ => .none

/-- What a later call makes of a row: it is claimed, or it was running and is completed or failed. -/
inductive SqliteSubmissionRow.Advance : SqliteSubmissionRow → SqliteSubmissionRow → Prop where
  | claimed {r : SqliteSubmissionRow} (h : r.status = "queued") :
      Advance r { r with status := "running" }
  | completed {r : SqliteSubmissionRow} (h : r.status = "running") (verdict : String)
      (errorType : Option String) (now : String) :
      Advance r { r with
        status := "completed", verdict := some verdict, errorType := errorType, completedAt := some now }
  | failed {r : SqliteSubmissionRow} (h : r.status = "running") (errorType : Option String)
      (now : String) :
      Advance r { r with status := "failed", errorType := errorType, completedAt := some now }

/-- The rows are in the database, but for what later calls have made of them. -/
structure WrittenRows.Stand (w : WrittenRows) (db : SqliteDatabase) : Prop where
  submissions : ∀ r ∈ w.submissions, ∃ r' ∈ db.submissions,
    Relation.ReflTransGen SqliteSubmissionRow.Advance r r'
  audits : ∀ a ∈ w.audits, a ∈ db.adminAuditLog

/-! ## Threads on one connection -/

section pool
variable {ι : Type} [DecidableEq ι] (strftime : Timestamp → String)

abbrev SharedPool (ι : Type) := Pool ι SqliteConnection Exception SharedAnswer SqliteState

/-- A statement of a call, or time that passes. -/
abbrev SharedEvent (ι : Type) := Event ι SqliteConnection SqliteChoice Nat

/-- The steps of a run, latest first, each with the state before it. -/
abbrev SharedHistory (ι : Type) := List (SqliteState × SharedEvent ι)

def timePasses (elapsed : Nat) (p : SharedPool ι) : Option (SharedPool ι) :=
  some ⟨{ p.shared with clock := p.shared.clock + elapsed }, p.thread⟩

/-- One connection and the calls that are made on it. The calls that one thread makes one after another are
    calls of their own here, so their statements may come in any order too. -/
def sharing (limits : PostgreSQLRepositoryLimits) (calls : ι → SharedCall) (db : SqliteDatabase)
    (now : Timestamp) : SharedPool ι :=
  ⟨⟨.idle db, now⟩, fun i => (calls i).program limits⟩

/-- Since call `i` sent `BEGIN`, another call has written a row. -/
def othersWrote (i : ι) : SharedHistory ι → Bool
  | [] => false
  | (_, .control _) :: h => othersWrote i h
  | (s, .call j _ x) :: h =>
      if j = i then
        match x.request with
        | .begin => false
        | _ => othersWrote i h
      else s.wrote strftime x != .none || othersWrote i h

/-- The call that sends `ROLLBACK`. -/
def rollingBack : SharedEvent ι → Option ι
  | .call i _ ⟨.rollback, _⟩ => some i
  | _ => none

/-- A call that sends `ROLLBACK` has been the only one to write since its `BEGIN`. -/
def RollsBackAlone (h : SharedHistory ι) (_ : SharedPool ι) (l : SqliteState × SharedEvent ι) : Prop :=
  ∀ i ∈ rollingBack l.2, othersWrote strftime i h = false

/-- The tables after a request. -/
def tablesAfter (s : SqliteState) (c : SqliteChoice) (q : SqliteRequest) : SqliteDatabase :=
  (serveSqlite strftime q c s).2.session.current

/-- The rows that call `i` wrote in this step. -/
def wroteBy (i : ι) : SqliteState × SharedEvent ι → WrittenRows
  | (s, .call j _ x) => if j = i then s.wrote strftime x else .none
  | (_, .control _) => .none

/-- The two databases have the same rows, but for rows that call `i` has written. -/
structure Spares (i : ι) (h : SharedHistory ι) (db db' : SqliteDatabase) : Prop where
  submissions : ∀ r, (∀ l ∈ h, r ∉ (wroteBy strftime i l).submissions) →
    (r ∈ db.submissions ↔ r ∈ db'.submissions)
  audits : ∀ a, (∀ l ∈ h, a ∉ (wroteBy strftime i l).audits) →
    (a ∈ db.adminAuditLog ↔ a ∈ db'.adminAuditLog)

/-- What a call that has returned success wrote is in the database. -/
def SuccessStands (h : SharedHistory ι) (p : SharedPool ι) : Prop :=
  ∀ i answer, p.thread i = .ret answer → answer.success = true →
    ∀ l ∈ h, (wroteBy strftime i l).Stand p.shared.session.current

/-- No step of a `retry` that has returned an error changed a row that this `retry` had not written. -/
def RetriesSpare (calls : ι → SharedCall) (h : SharedHistory ι) (p : SharedPool ι) : Prop :=
  ∀ i answer, (calls i).isRetry = true → p.thread i = .ret answer → answer.success = false →
    ∀ s c x, (s, .call i c x) ∈ h →
      Spares strftime i h s.session.current (tablesAfter strftime s c x.request)

end pool

/-! ## One statement -/

section statements
variable {now : String} {db db' : SqliteDatabase} {w : WrittenRows}

theorem WrittenRows.none_stand : WrittenRows.none.Stand db where
  submissions _ hr := absurd hr List.not_mem_nil
  audits _ ha := absurd ha List.not_mem_nil

theorem WrittenRows.rows_stand : db.rows.Stand db where
  submissions r hr := ⟨r, hr, .refl⟩
  audits _ ha := ha

/-- What stands goes on standing as long as the rows of the database do. -/
theorem WrittenRows.Stand.trans (h : w.Stand db) (hdb : db.rows.Stand db') : w.Stand db' where
  submissions r hr := by
    obtain ⟨r', hr', hadvance⟩ := h.submissions r hr
    obtain ⟨r'', hr'', hadvance'⟩ := hdb.submissions r' hr'
    exact ⟨r'', hr'', hadvance.trans hadvance'⟩
  audits a ha := hdb.audits a (h.audits a ha)

/-- What a statement does to the tables: it keeps the rows that were there, it wrote these, and without them
    it did nothing. -/
structure Executed (w : WrittenRows) (db db' : SqliteDatabase) : Prop where
  keeps : db.rows.Stand db'
  stands : w.Stand db'
  silent : w = .none → db' = db

/-- The rows were added to the tables, and nothing else changed. -/
structure Added (w : WrittenRows) (db db' : SqliteDatabase) : Prop where
  submissions : ∀ r, r ∈ db'.submissions ↔ r ∈ db.submissions ∨ r ∈ w.submissions
  audits : ∀ a, a ∈ db'.adminAuditLog ↔ a ∈ db.adminAuditLog ∨ a ∈ w.audits
  silent : w = .none → db' = db

theorem Executed.nothing : Executed .none db db := ⟨WrittenRows.rows_stand, WrittenRows.none_stand, fun _ => rfl⟩

theorem Added.nothing : Added .none db db where
  submissions r := by simp [WrittenRows.none]
  audits a := by simp [WrittenRows.none]
  silent _ := rfl

theorem Added.executed (h : Added w db db') : Executed w db db' where
  keeps := ⟨fun r hr => ⟨r, (h.submissions r).mpr (.inl hr), .refl⟩, fun a ha => (h.audits a).mpr (.inl ha)⟩
  stands := ⟨fun r hr => ⟨r, (h.submissions r).mpr (.inr hr), .refl⟩, fun a ha => (h.audits a).mpr (.inr ha)⟩
  silent := h.silent

/-- A submission that is inserted. -/
theorem Added.insertSubmission {row : SqliteSubmissionRow} {rows : List SqliteSubmissionRow}
    (h : db.insertSubmission row = some (rows, db')) : Added ⟨rows, []⟩ db db' := by
  unfold SqliteDatabase.insertSubmission at h
  by_cases hcheck : (!row.check) = true
  · rw [if_pos hcheck] at h
    cases h
  rw [if_neg hcheck] at h
  by_cases hunique : db.submissions.count (fun r => r.id == row.id
      || (row.retryOf.isSome && r.retryOf == row.retryOf)) ≠ 0
  · rw [if_pos hunique] at h
    cases h
  rw [if_neg hunique] at h
  by_cases huser : (!(row.userId.all fun user => db.userIds.contains user)) = true
  · rw [if_pos huser] at h
    cases h
  rw [if_neg huser] at h
  cases h
  have hfresh : row.id ∉ db.submissions.rows.map (·.id) := by
    intro hid
    obtain ⟨r, hr, hrow⟩ := List.mem_map.mp hid
    have hnone := Table.count_eq_zero.mp (not_not.mp hunique) r hr
    rw [hrow] at hnone
    simp at hnone
  constructor
  · intro r
    show r ∈ db.submissions.insert row ↔ r ∈ db.submissions ∨ r ∈ [row]
    rw [Table.mem_insert, List.mem_singleton]
    exact or_congr_right ⟨fun hr => hr.1, fun hr => ⟨hr, hfresh⟩⟩
  · intro a
    simp
  · intro hnone
    cases hnone

/-- Rows that are updated, each as a later call may update it. -/
theorem Executed.updateSubmissions {p : SqliteSubmissionRow → Bool}
    {f : SqliteSubmissionRow → SqliteSubmissionRow} {hf : ∀ r, p r = true → (f r).id = r.id}
    {rows : List SqliteSubmissionRow} (hadvance : ∀ r, p r = true → r.Advance (f r))
    (h : db.updateSubmissions p f hf = some (rows, db')) : Executed ⟨rows, []⟩ db db' := by
  unfold SqliteDatabase.updateSubmissions at h
  dsimp only at h
  by_cases hcheck : ((db.submissions.select p).map f).all SqliteSubmissionRow.check = true
  · rw [if_pos hcheck] at h
    cases h
    constructor
    · refine ⟨fun r hr => ⟨if p r then f r else r, Table.mem_update_of_mem hf hr, ?_⟩, fun a ha => ha⟩
      split
      · rename_i hp
        exact .single (hadvance r hp)
      · exact .refl
    · refine ⟨fun r hr => ?_, fun a ha => absurd ha List.not_mem_nil⟩
      obtain ⟨r', hr', rfl⟩ := List.mem_map.mp hr
      obtain ⟨hr', hp⟩ := Table.mem_select.mp hr'
      exact ⟨f r', Table.mem_update_of_pos hr' hp hf, .refl⟩
    · intro hnone
      have hempty : (db.submissions.select p).map f = [] := congrArg WrittenRows.submissions hnone
      have hself : db.submissions.update p f hf = db.submissions :=
        Table.update_eq_self (Table.select_eq_nil.mp (List.map_eq_nil_iff.mp hempty))
      simp only [hself]
  · rw [if_neg hcheck] at h
    cases h

/-- The statements of a `retry`. -/
def SqliteStatement.ofRetry : SqliteStatement → Bool
  | .insertRetry .. | .insertAudit .. => true
  | _ => false

/-- The statements of the other calls. -/
def SqliteStatement.ofCall : SqliteStatement → Bool
  | .recoverRunning | .selectSubmission _ | .selectHistory .. => false
  | _ => true

/-- A `retry` only adds rows. -/
theorem Added.exec {t : SqliteStatement} {rows : List t.Row} (ht : t.ofRetry = true)
    (h : t.exec now db = some (rows, db')) : Added (t.wrote now db rows) db db' := by
  cases t with
  | insertRetry id maximum maximumPerUser =>
      show Added ⟨rows, []⟩ db db'
      unfold SqliteStatement.exec at h
      dsimp only at h
      split at h
      · rename_i original _ _
        by_cases hadmitted : db.submissions.count (·.retryOf == some id) = 0
            ∧ db.admits original.userId maximum maximumPerUser = true
        · rw [if_pos hadmitted] at h
          exact .insertSubmission h
        · rw [if_neg hadmitted] at h
          cases h
          exact .nothing
      · cases h
        exact .nothing
  | insertAudit admin action type id details =>
      unfold SqliteStatement.exec at h
      dsimp only at h
      split at h
      · cases h
      · rename_i hid
        split at h
        · cases h
          have hfresh : db.nextAudit ∉ db.adminAuditLog.rows.map (·.id) := by
            intro hmem
            obtain ⟨a, ha, hnext⟩ := List.mem_map.mp hmem
            have hnone := Table.count_eq_zero.mp (not_not.mp hid) a ha
            rw [hnext] at hnone
            simp at hnone
          constructor
          · intro r
            simp [SqliteStatement.wrote]
          · intro a
            simp only [SqliteStatement.wrote]
            rw [Table.mem_insert, List.mem_singleton]
            exact or_congr_right ⟨fun ha => ha.1, fun ha => ⟨ha, hfresh⟩⟩
          · intro hnone
            cases hnone
        · cases h
  | _ => cases ht

/-- **What a statement of a call does to the tables.** -/
theorem Executed.exec {t : SqliteStatement} {rows : List t.Row} (ht : t.ofCall = true)
    (h : t.exec now db = some (rows, db')) : Executed (t.wrote now db rows) db db' := by
  cases t with
  | insertSubmission problemId language sourceCode userId maximum maximumPerUser =>
      show Executed ⟨rows, []⟩ db db'
      unfold SqliteStatement.exec at h
      dsimp only at h
      by_cases hadmitted : db.admits userId maximum maximumPerUser = true
      · rw [if_pos hadmitted] at h
        exact (Added.insertSubmission h).executed
      · rw [if_neg hadmitted] at h
        cases h
        exact .nothing
  | countActive userId =>
      cases h
      exact .nothing
  | completeSubmission verdict errorType id =>
      refine Executed.updateSubmissions (fun r hp => ?_) h
      exact .completed (by simpa using (Bool.and_eq_true_iff.mp hp).2) verdict errorType now
  | failSubmission errorType id =>
      refine Executed.updateSubmissions (fun r hp => ?_) h
      exact .failed (by simpa using (Bool.and_eq_true_iff.mp hp).2) errorType now
  | claimSubmission limit =>
      show Executed ⟨rows, []⟩ db db'
      unfold SqliteStatement.exec at h
      dsimp only at h
      split at h
      · refine Executed.updateSubmissions (fun r hp => ?_) h
        exact .claimed (by simpa using (Bool.and_eq_true_iff.mp hp).2)
      · cases h
        exact .nothing
  | insertRetry id maximum maximumPerUser => exact (Added.exec rfl h).executed
  | insertAudit admin action type id details => exact (Added.exec rfl h).executed
  | recoverRunning => cases ht
  | selectSubmission id => cases ht
  | selectHistory userId problemId => cases ht

end statements

/-! ## The transaction of a call -/

/-- How far a call is with its transaction: it needs none, has not begun it, is inside of it, has nothing more
    to do with it, or has rolled it back. -/
inductive SharingPhase where
  | single
  | ready
  | inside
  | done
  | undone

def SharedCall.start (call : SharedCall) : SharingPhase := if call.isRetry then .ready else .single

/-- A `retry` sends its statements inside of its transaction, the other calls send single ones. -/
def sharingProtocol : Protocol SqliteConnection SharingPhase where
  allowed
    | .single, .execute t => t.ofCall = true
    | .ready, .begin => True
    | .inside, .execute t => t.ofRetry = true
    | .inside, .commit => True
    | .inside, .rollback => True
    | _, _ => False
  admits _ _ _ := True
  next
    | .ready, .begin, none => .inside
    | .ready, .begin, some _ => .done
    | .inside, .commit, none => .done
    | .inside, .rollback, _ => .undone
    | φ, _, _ => φ

/-- A call that has rolled back returns an error. -/
def UndoneFails (φ : SharingPhase) (o : Except Exception SharedAnswer) : Prop :=
  φ = .undone → ∀ answer, o = .ok answer → answer.success = false

section programs
variable {limits : PostgreSQLRepositoryLimits}

/-- A call without a transaction stays outside. -/
theorem undoneFails_single {α : Type} {p : SqliteCall α} {f : α → SharedAnswer}
    (h : sharingProtocol.Follows (fun φ _ => φ = .single) .single p) :
    sharingProtocol.Follows UndoneFails .single (p >>= fun a => pure (f a)) := by
  refine h.bind (fun φ a hφ => ?_) (fun φ e hφ => ?_)
  · subst hφ
    intro hundone
    cases hundone
  · subst hφ
    intro hundone
    cases hundone

/-- A call that sends one statement. -/
theorem sharedStep_follows {α : Type} {t : SqliteStatement} {f : Stepped t.Row → α} (ht : t.ofCall = true) :
    sharingProtocol.Follows (fun φ (_ : Except Exception α) => φ = .single) .single
      (SQLiteSubmissionRepository.step t >>= fun r => pure (f r)) := ⟨ht, fun _ _ => rfl⟩

theorem sharedCreate_follows (request : SubmissionRequest) :
    sharingProtocol.Follows (fun φ _ => φ = .single) .single
      (SQLiteSubmissionRepository.create limits request) := by
  refine ⟨rfl, fun r _ => ?_⟩
  match r with
  | .unprepared _ => exact rfl
  | .rows [] => exact ⟨rfl, fun _ _ => rfl⟩
  | .rows (_ :: _) => exact rfl
  | .error _ => exact rfl

theorem sharedClaim_follows :
    sharingProtocol.Follows (fun φ _ => φ = .single) .single
      (SQLiteSubmissionRepository.claimNext limits) := by
  refine ⟨rfl, fun r _ => ?_⟩
  cases r <;> exact rfl

theorem sharedAudit_follows (admin : Int) (action type id details : String) :
    sharingProtocol.Follows (fun φ _ => φ = .single) .single
      (SQLiteSubmissionRepository.audit admin action type id details) := by
  refine ⟨rfl, fun r _ => ?_⟩
  cases r <;> exact rfl

/-- What a `retry` ends with, once its transaction is rolled back. -/
theorem sharedAbandon_follows (error : RepositoryError) :
    sharingProtocol.Follows (fun φ o => φ = .undone → ∀ r, o = .ok r → r.isOk = false) .inside
      (SQLiteSubmissionRepository.abandon error) := by
  refine ⟨trivial, fun _ _ _ r hr => ?_⟩
  cases hr
  rfl

theorem sharedRetry_follows (id admin : Int) :
    sharingProtocol.Follows (fun φ o => φ = .undone → ∀ r, o = .ok r → r.isOk = false) .ready
      (SQLiteSubmissionRepository.retry limits id admin) := by
  refine ⟨trivial, fun begun _ => ?_⟩
  cases begun with
  | some detail =>
      intro hundone
      cases hundone
  | none =>
      -- Inside of the transaction: every way out is a `ROLLBACK`, but for the `COMMIT` that succeeds.
      refine ⟨rfl, fun inserted _ => ?_⟩
      match inserted with
      | .unprepared message => exact sharedAbandon_follows _
      | .error message => exact sharedAbandon_follows _
      | .rows [] => exact sharedAbandon_follows _
      | .rows (row :: _) =>
          unfold Program.bind
          dsimp only
          cases SQLiteSubmissionRepository.readRecord row with
          | error error => exact sharedAbandon_follows error
          | ok record =>
              refine ⟨rfl, fun audited _ => ?_⟩
              match audited with
              | .unprepared message => exact sharedAbandon_follows _
              | .error message => exact sharedAbandon_follows _
              | .rows _ =>
                  refine ⟨trivial, fun committed _ => ?_⟩
                  cases committed with
                  | some detail => exact sharedAbandon_follows _
                  | none =>
                      intro hundone
                      cases hundone

/-- Every call keeps to the protocol. -/
theorem SharedCall.follows (call : SharedCall) :
    sharingProtocol.Follows UndoneFails call.start (call.program limits) := by
  cases call with
  | create request => exact undoneFails_single (sharedCreate_follows request)
  | complete id value errorType => exact undoneFails_single (sharedStep_follows rfl)
  | fail id errorType => exact undoneFails_single (sharedStep_follows rfl)
  | claimNext => exact undoneFails_single sharedClaim_follows
  | audit admin action type id details => exact undoneFails_single (sharedAudit_follows ..)
  | retry id admin =>
      refine (sharedRetry_follows id admin).bind (fun φ r hr hundone answer hanswer => ?_)
        (fun φ e _ _ answer h => ?_)
      · cases hanswer
        exact hr hundone r rfl
      · cases h

end programs

end AlgorithmTrainer
