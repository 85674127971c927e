import AlgorithmTrainer.Database.Queue
import AlgorithmTrainer.Server.AuditTrail

/-!
# `Server.AuditRuns` — every change has its audit row

The invariant that ties the history of changes, the history of audit rows and the phase of every thread
together, its step lemma, and from it the theorem about runs.
-/

namespace AlgorithmTrainer

open Interaction Interaction.Pool Transition Relational PostgreSQLAuthService

/-! ## What a call does to users and to the audit log -/

section frame
variable {P : Platform} {q : BackendRequest} {c : Choice} {db : Database}

/-- The ids of the audit rows are below the sequence they are drawn from. -/
def Database.AuditIds (db : Database) : Prop :=
  ∀ a ∈ db.adminAuditLog, a.id < db.sequences.adminAuditLog

/-- Whether a statement writes the users. -/
def Statement.setsUser : Statement → Bool
  | .insertUser .. | .upsertAdmin .. => true
  | _ => false

/-- Only its own statement writes the audit log or draws from its sequence, and only an account's writes
    the users. -/
theorem exec_kept (m : String) (s : Statement) :
    ((BackendRequest.execute s).audits = false →
      (s.exec P m db).1.adminAuditLog = db.adminAuditLog ∧
        (s.exec P m db).1.sequences.adminAuditLog = db.sequences.adminAuditLog) ∧
    (s.setsUser = false → (s.exec P m db).1.users = db.users) := by
  -- An update of submissions changes that table only.
  have hupdate : ∀ p f (hf : ∀ r, p r = true → (f r).id = r.id) (b b' : Prop),
      (b → (db.updateSubmissions m p f hf).1.adminAuditLog = db.adminAuditLog ∧
        (db.updateSubmissions m p f hf).1.sequences.adminAuditLog
          = db.sequences.adminAuditLog) ∧
      (b' → (db.updateSubmissions m p f hf).1.users = db.users) := by
    intro p f hf b b'
    obtain ⟨t, ht⟩ := db.updateSubmissions_frame m p f hf
    rw [ht]
    exact ⟨fun _ => ⟨rfl, rfl⟩, fun _ => rfl⟩
  cases s with
  | insertAudit _ _ _ _ _ =>
      refine ⟨fun h => (by cases h), fun _ => ?_⟩
      simp only [Statement.exec]
      split
      · rfl
      · split
        · rfl
        · split <;> rfl
  | completeSubmission _ _ _ => exact hupdate _ _ _ _ _
  | failSubmission _ _ => exact hupdate _ _ _ _ _
  | recoverRunning => exact hupdate _ _ _ _ _
  | insertUser _ _ =>
      refine ⟨fun _ => ?_, fun h => (by cases h)⟩
      simp only [Statement.exec]
      split <;> exact ⟨rfl, rfl⟩
  | upsertAdmin _ _ =>
      refine ⟨fun _ => ?_, fun h => (by cases h)⟩
      simp only [Statement.exec]
      split
      · exact ⟨rfl, rfl⟩
      · split <;> exact ⟨rfl, rfl⟩
  | insertSession _ _ _ | insertProblem _ | updateProblem _ _ | insertTest _ _ _ _ _
  | updateTest _ _ _ _ _ _ _ =>
      simp only [Statement.exec]
      split
      · exact ⟨fun _ => ⟨rfl, rfl⟩, fun _ => rfl⟩
      · split
        · exact ⟨fun _ => ⟨rfl, rfl⟩, fun _ => rfl⟩
        · first
            | exact ⟨fun _ => ⟨rfl, rfl⟩, fun _ => rfl⟩
            | (split <;> exact ⟨fun _ => ⟨rfl, rfl⟩, fun _ => rfl⟩)
  | selectFiltered _ =>
      simp only [Statement.exec]
      split <;> exact ⟨fun _ => ⟨rfl, rfl⟩, fun _ => rfl⟩
  | _ => exact ⟨fun _ => ⟨rfl, rfl⟩, fun _ => rfl⟩

/-- A user is there after every statement if it was there before. -/
theorem exec_hasUser {id : Int} (m : String) (s : Statement) (h : db.hasUser id = true) :
    (s.exec P m db).1.hasUser id = true := by
  obtain ⟨u, hu, hid⟩ := hasUser_iff.mp h
  by_cases hs : s.setsUser = false
  · refine hasUser_iff.mpr ⟨u, ?_, hid⟩
    rw [(exec_kept m s).2 hs]
    exact hu
  · cases s with
    | insertUser username hash =>
        simp only [Statement.exec]
        split
        · exact hasUser_iff.mpr ⟨u, Table.mem_insert_of_mem hu, hid⟩
        · exact h
    | upsertAdmin username hash =>
        simp only [Statement.exec]
        split
        · rename_i user rest _
          by_cases hkey : u.id = user.id
          · exact hasUser_iff.mpr ⟨{ user with passwordHash := hash, isAdmin := true },
              Table.mem_put_self hu hkey, hkey.symm.trans hid⟩
          · exact hasUser_iff.mpr ⟨u, Table.mem_put.mpr (Or.inl ⟨hu, hkey⟩), hid⟩
        · split
          · exact hasUser_iff.mpr ⟨u, Table.mem_insert_of_mem hu, hid⟩
          · exact h
    | _ => exact absurd rfl hs

/-- The users after a call. -/
theorem serve_hasUser {id : Int} (h : db.hasUser id = true) :
    (serve P q c db).2.hasUser id = true := by
  match q with
  | .randomToken | .passwordHash _ | .judge _ => exact h
  | .execute s =>
      rw [serve_execute]
      rcases serveStatement_cases (P := P) s c db with ⟨-, hr⟩ | ⟨-, hr⟩
      · rw [hr]
        exact h
      · rw [hr]
        exact exec_hasUser _ s h
  | .executeLocked lock s =>
      obtain ⟨hu, -, -⟩ := serveLocked_frame s c db
      obtain ⟨u, hmem, hid⟩ := hasUser_iff.mp h
      exact hasUser_iff.mpr ⟨u, hu ▸ hmem, hid⟩

/-- What a locked statement adds to the audit log is the row of a retry. -/
theorem plan_audited {l : Int → Bool} {s : LockedStatement} {changes : Changes}
    {rows : List SubmissionRow} (h : (s.plan l db).2 = .ok (changes, rows)) :
    changes.audited = none ∨ ∃ a, changes.audited = some a ∧ a.action = "submission.retry" ∧
      a.id = db.sequences.adminAuditLog ∧
      (s.plan l db).1.sequences.adminAuditLog = db.sequences.adminAuditLog + 1 := by
  cases s with
  | insertSubmission problemId language code userId maximum maximumPerUser =>
      rw [plan_insertSubmission] at h
      split at h
      · dsimp only at h
        obtain ⟨rfl, -⟩ := planInsert_ok h
        exact Or.inl rfl
      · cases Except.ok.inj h
        exact Or.inl rfl
  | claimSubmission limit =>
      simp only [LockedStatement.plan] at h
      split at h
      · split at h
        · cases h
          exact Or.inl rfl
        · cases h
      · cases h
        exact Or.inl rfl
  | retrySubmission id maximum maximumPerUser admin =>
      rcases @plan_retry l db id maximum maximumPerUser admin with
        hnone | ⟨original, -, -, -, -, -, hplan⟩
      · rw [hnone] at h
        cases Except.ok.inj h
        exact Or.inl rfl
      · rw [hplan] at h ⊢
        dsimp only at h
        obtain ⟨rfl, -⟩ := planInsert_ok h
        exact Or.inr ⟨_, rfl, rfl, rfl, rfl⟩

/-- The sequence of the audit log never goes back. -/
theorem plan_auditSequence (l : Int → Bool) (s : LockedStatement) :
    db.sequences.adminAuditLog ≤ (s.plan l db).1.sequences.adminAuditLog := by
  cases s with
  | insertSubmission problemId language code userId maximum maximumPerUser =>
      rw [plan_insertSubmission]
      split <;> exact Int.le_refl _
  | claimSubmission limit =>
      simp only [LockedStatement.plan]
      split
      · split <;> exact Int.le_refl _
      · exact Int.le_refl _
  | retrySubmission id maximum maximumPerUser admin =>
      rcases @plan_retry l db id maximum maximumPerUser admin with
        hnone | ⟨original, -, -, -, -, -, hplan⟩
      · rw [hnone]
      · rw [hplan]
        show db.sequences.adminAuditLog ≤ db.sequences.adminAuditLog + 1
        omega

/-- A call that is no audit of its own leaves the trail as it is. -/
theorem serve_trail (hq : q.audits = false) (hids : db.AuditIds) :
    (serve P q c db).2.trail = db.trail ∧ (serve P q c db).2.AuditIds := by
  -- The trail is read off the log, and ids are only drawn.
  have hsame : ∀ db' : Database, db'.adminAuditLog = db.adminAuditLog →
      db.sequences.adminAuditLog ≤ db'.sequences.adminAuditLog →
      db'.trail = db.trail ∧ db'.AuditIds := by
    intro db' hlog hseq
    refine ⟨by unfold Database.trail; rw [hlog], fun a ha => ?_⟩
    rw [hlog] at ha
    exact Int.lt_of_lt_of_le (hids a ha) hseq
  match q with
  | .randomToken | .passwordHash _ | .judge _ => exact ⟨rfl, hids⟩
  | .execute s =>
      rw [serve_execute]
      rcases serveStatement_cases (P := P) s c db with ⟨-, hr⟩ | ⟨-, hr⟩
      · rw [hr]
        exact ⟨rfl, hids⟩
      · rw [hr]
        obtain ⟨hlog, hseq⟩ := (@exec_kept P db c.message s).1 hq
        exact hsame _ hlog (Int.le_of_eq hseq.symm)
  | .executeLocked lock s =>
      have hplan := @plan_auditSequence db c.lockedRows s
      have hlog : (s.plan c.lockedRows db).1.adminAuditLog = db.adminAuditLog := by
        rw [plan_frame]
      rw [serve_executeLocked]
      rcases serveLocked_cases s c db with ⟨h, -⟩ | ⟨h, -⟩ | ⟨_, -, h, -⟩ | ⟨changes, rows, hok, -, h⟩
      · rw [h]
        exact ⟨rfl, hids⟩
      · rw [h]
        exact hsame _ hlog hplan
      · rw [h]
        exact hsame _ hlog hplan
      · rw [h]
        rcases plan_audited hok with hnone | ⟨a, hsome, haction, hid, hseq⟩
        · refine hsame _ ?_ hplan
          show changes.audited.elim _ _ = _
          rw [hnone]
          exact hlog
        · -- the row of a retry is not part of the trail
          have hlog' : (changes.apply (s.plan c.lockedRows db).1).adminAuditLog
              = db.adminAuditLog.insert a := by
            show changes.audited.elim _ _ = _
            rw [hsome, hlog]
            rfl
          constructor
          · unfold Database.trail
            rw [hlog']
            unfold Table.insert
            split
            · rfl
            · rw [List.filter_append]
              simp [haction]
          · intro b hb
            rw [hlog'] at hb
            show b.id < (s.plan c.lockedRows db).1.sequences.adminAuditLog
            rw [hseq]
            rcases Table.mem_insert.mp hb with hb | ⟨rfl, -⟩
            · exact Int.lt_trans (hids b hb) (Int.lt_succ _)
            · rw [hid]
              exact Int.lt_succ _

/-- An audit row of a user who is there is written, where the call does not fail. -/
theorem serve_insertAudit {admin : Int} {change : Change} (hcalm : c.failure = none)
    (hids : db.AuditIds) (huser : db.hasUser admin = true) :
    (serve P (.execute (.insertAudit admin change.action.name change.action.entityType
        change.entityId (.object []))) c db).1 = .command ∧
      (serve P (.execute (.insertAudit admin change.action.name change.action.entityType
        change.entityId (.object []))) c db).2.trail = db.trail ++ [change.entry (some admin)] ∧
      (serve P (.execute (.insertAudit admin change.action.name change.action.entityType
        change.entityId (.object []))) c db).2.AuditIds := by
  have hfresh : ∀ a ∈ db.adminAuditLog, a.id ≠ db.sequences.adminAuditLog :=
    fun a ha => Int.ne_of_lt (hids a ha)
  have hcount : db.adminAuditLog.count (·.id == db.sequences.adminAuditLog) = 0 :=
    Table.count_eq_zero.mpr fun a ha => by simpa using hfresh a ha
  let row : AuditRow := ⟨db.sequences.adminAuditLog, admin, change.action.name,
    change.action.entityType, change.entityId, .object [], db.clock⟩
  have hserve : serve P (.execute (.insertAudit admin change.action.name change.action.entityType
      change.entityId (.object []))) c db
      = (.command, { db.nextAuditId with adminAuditLog := db.adminAuditLog.insert row }) := by
    rw [serve_execute]
    unfold serveStatement
    rw [hcalm]
    simp only [Statement.exec]
    rw [if_neg (by decide), if_neg (not_not.mpr hcount), if_pos huser]
  rw [hserve]
  refine ⟨rfl, ?_, fun b hb => ?_⟩
  · have hrows : (db.adminAuditLog.insert row).rows = db.adminAuditLog.rows ++ [row] :=
      Table.rows_insert hfresh
    have haction : (row.action != "submission.retry") = true := by
      show (change.action.name != "submission.retry") = true
      cases change.action <;> decide
    show ((db.adminAuditLog.insert row).rows.filter _).map AuditRow.entry = _
    rw [hrows, List.filter_append, List.map_append, List.filter_singleton, haction]
    rfl
  · show b.id < db.sequences.adminAuditLog + 1
    rcases Table.mem_insert.mp hb with hb | ⟨rfl, -⟩
    · exact Int.lt_trans (hids b hb) (Int.lt_succ _)
    · exact Int.lt_succ _

/-- A reply to the session lookup that names a user is the one row it found. -/
theorem lookedUp_reply {hash : String} {result : Result UserRow} {row : UserRow}
    (h : lookedUp (.execute (.selectSessionUser hash)) result = some row) :
    result = .tuples [row] := by
  match result with
  | .tuples [r] =>
      cases h
      rfl
  | .tuples [] | .tuples (_ :: _ :: _) | .none | .failed _ _ | .command => cases h

/-- A user whose session is found is there. -/
theorem lookedUp_hasUser {row : UserRow} (h : lookedUp q (serve P q c db).1 = some row) :
    db.hasUser row.id = true := by
  match q with
  | .randomToken | .passwordHash _ | .judge _ | .executeLocked _ _ => cases h
  | .execute s =>
      cases s with
      | selectSessionUser hash =>
          rw [serve_execute] at h
          have hreply := lookedUp_reply h
          rcases serveStatement_cases (P := P) (.selectSessionUser hash) c db with
            ⟨-, hr⟩ | ⟨-, hr⟩
          · rw [hr] at hreply
            cases hreply
          · rw [hr] at hreply
            have hrows : db.sessionUsers hash = [row] := Result.tuples.inj hreply
            have hmem : row ∈ db.sessionUsers hash := hrows ▸ List.mem_singleton_self row
            obtain ⟨session, -, huser⟩ := List.mem_flatMap.mp hmem
            exact hasUser_iff.mpr ⟨row, (Table.mem_select.mp huser).1, rfl⟩
      | _ => cases h

end frame

/-! ## One thread -/

section thread
variable {P : Platform} {q : BackendRequest} {c : Choice} {db : Database} {φ : AuditPhase}

/-- What holds of a thread in a phase: whom its last lookup found, what it changed, what it audited, and
    whether the request it serves has changed anything. -/
structure ThreadAudited (db : Database) (φ : AuditPhase) (who : Option UserRow)
    (made written : List AuditEntry) (changed : Bool) : Prop where
  who : ∀ hash admin, φ = .authorised hash admin → who.map UserRow.id = some admin
  known : ∀ admin, φ.admin = some admin → db.hasUser admin = true
  owed : made = φ.pending.toList ++ written
  quiet : φ.Quiet → changed = false

/-- The condition on a call between a change and its audit row: the session is still there, and the call
    does not fail. -/
def AuditPhase.Kept (db : Database) (c : Choice) : AuditPhase → Prop
  | changed hash admin _ => c.failure = none ∧ (db.sessionUsers hash).map UserRow.id = [admin]
  | identified .. => c.failure = none
  | _ => True

instance : Decidable (φ.Kept db c) :=
  match φ with
  | .changed .. => inferInstanceAs (Decidable (_ ∧ _))
  | .identified .. => inferInstanceAs (Decidable (_ = _))
  | .idle | .authorised .. | .audited => inferInstanceAs (Decidable True)

variable {who : Option UserRow} {made written : List AuditEntry} {changed' : Bool}

/-- What a call does to a thread that has changed nothing yet: it finds a user, or changes something, or
    neither. -/
inductive Works (φ : AuditPhase) (q : BackendRequest) (r : q.Reply) : AuditPhase → Prop where
  | lookup {hash : String} {row : UserRow} (hl : lookedUp q r = some row)
      (hc : AlgorithmTrainer.changed q r = none) :
      Works φ q r (if row.isAdmin then .authorised hash row.id else .idle)
  | nothing (hl : lookedUp q r = none) (hc : AlgorithmTrainer.changed q r = none) : Works φ q r φ
  | change {hash : String} {admin : Int} {change : Change} (hφ : φ = .authorised hash admin)
      (hl : lookedUp q r = none) (hc : AlgorithmTrainer.changed q r = some change) :
      Works φ q r (.changed hash admin change)

theorem AuditPhase.Quiet.not_audits (hφ : φ.Quiet) (hq : φ.Allows q) : q.audits = false := by
  cases φ with
  | idle => exact hq.2
  | authorised _ _ => exact hq
  | changed _ _ _ => cases hφ
  | identified _ _ => cases hφ
  | audited => cases hφ

theorem AuditPhase.Quiet.works (hφ : φ.Quiet) (hq : φ.Allows q) (r : q.Reply) :
    Works φ q r (φ.next q r) := by
  have haudits := hφ.not_audits hq
  unfold AuditPhase.next
  split
  · split
    · cases hφ
    · exact .lookup rfl rfl
  · cases haudits
  · rename_i hlookup _
    have hl : lookedUp q r = none := by
      unfold lookedUp
      split
      · exact (hlookup _ _ rfl HEq.rfl).elim
      · rfl
    cases hc : AlgorithmTrainer.changed q r with
    | none => cases φ <;> exact .nothing hl hc
    | some change =>
        cases φ with
        | authorised hash admin => exact .change rfl hl hc
        | idle =>
            rw [changed_eq_none hq.1] at hc
            cases hc
        | changed _ _ _ => cases hφ
        | identified _ _ => cases hφ
        | audited => cases hφ

/-- A call of a thread that has changed nothing yet. -/
theorem ThreadAudited.work (h : ThreadAudited db φ who made written changed') (hφ : φ.Quiet)
    (hq : φ.Allows q) :
    ThreadAudited (serve P q c db).2 (φ.next q (serve P q c db).1)
      ((lookedUp q (serve P q c db).1).or who)
      (((changed q (serve P q c db).1).map (·.entry (who.map UserRow.id))).toList ++ made)
      written
      ((changed q (serve P q c db).1).isSome || changed') := by
  -- A thread that has changed nothing owes nothing.
  have howed : made = written := by
    have howed := h.owed
    cases φ with
    | idle => exact howed
    | authorised _ _ => exact howed
    | changed _ _ _ => cases hφ
    | identified _ _ => cases hφ
    | audited => cases hφ
  have hquiet := h.quiet hφ
  rcases hr : serve P q c db with ⟨r, db'⟩
  have hreply : r = (serve P q c db).1 := by rw [hr]
  have hdb : db' = (serve P q c db).2 := by rw [hr]
  dsimp only
  generalize hnext : φ.next q r = φ'
  -- The call looks up a session, changes something, or does neither.
  cases hnext ▸ hφ.works hq r with
  | @lookup hash row hl hc =>
      rw [hl, hc, hquiet, howed]
      have hrow : db'.hasUser row.id = true := by
        rw [hdb]
        exact serve_hasUser (lookedUp_hasUser (hreply ▸ hl))
      split
      · refine ⟨fun _ _ he => ?_, fun _ he => ?_, rfl, fun _ => rfl⟩
        · cases he
          rfl
        · cases he
          exact hrow
      · exact ⟨fun _ _ he => (by cases he), fun _ he => (by cases he), rfl, fun _ => rfl⟩
  | nothing hl hc =>
      rw [hl, hc, hquiet]
      refine ⟨h.who, fun admin ha => ?_, h.owed, fun _ => rfl⟩
      rw [hdb]
      exact serve_hasUser (h.known admin ha)
  | @change hash admin change hφ' hl hc =>
      rw [hl, hc, howed]
      refine ⟨fun _ _ he => (by cases he), fun a ha => ?_, ?_, fun hq => hq.elim⟩
      · cases ha
        rw [hdb]
        exact serve_hasUser (h.known admin (by rw [hφ']; rfl))
      · show (change.entry (who.map UserRow.id)) :: written = change.entry (some admin) :: written
        rw [h.who hash admin hφ']

/-- A thread that looks its session up again finds its administrator. -/
theorem serve_lookup {hash : String} {row : UserRow} (hcalm : c.failure = none)
    (hrow : db.sessionUsers hash = [row]) :
    serve P (.execute (.selectSessionUser hash)) c db = (.tuples [row], db) := by
  rw [serve_execute]
  unfold serveStatement
  rw [hcalm]
  simp only [Statement.exec]
  rw [hrow]

/-- What a call that is answered as the protocol expects leaves: the thread that made it in its next
    phase, and the row it wrote at the end of the trail. -/
structure CallAudited (P : Platform) (q : BackendRequest) (c : Choice) (db : Database)
    (φ : AuditPhase) (who : Option UserRow) (made written : List AuditEntry)
    (changed' : Bool) : Prop where
  admits : φ.Admits q (serve P q c db).1
  thread : ThreadAudited (serve P q c db).2 (φ.next q (serve P q c db).1)
    ((lookedUp q (serve P q c db).1).or who)
    (((changed q (serve P q c db).1).map (·.entry (who.map UserRow.id))).toList ++ made)
    ((auditWritten q (serve P q c db).1).toList ++ written)
    ((changed q (serve P q c db).1).isSome || changed')
  trail : (serve P q c db).2.trail = db.trail ++ (auditWritten q (serve P q c db).1).toList
  ids : (serve P q c db).2.AuditIds

theorem ThreadAudited.call_quiet (h : ThreadAudited db φ who made written changed')
    (hids : db.AuditIds) (hq : φ.Allows q) (hφ : φ.Quiet) (hadmits : ∀ r, φ.Admits q r) :
    CallAudited P q c db φ who made written changed' := by
  have haudits := hφ.not_audits hq
  have hnone := auditWritten_eq_none haudits (serve P q c db).1
  obtain ⟨htrail, hids'⟩ := @serve_trail P q c db haudits hids
  refine ⟨hadmits _, ?_, ?_, hids'⟩
  · rw [hnone]
    exact h.work hφ hq
  · rw [hnone, htrail]
    exact (List.append_nil _).symm

/-- **What a call does to the thread that makes it**, if the call is kept. -/
theorem ThreadAudited.call (h : ThreadAudited db φ who made written changed') (hids : db.AuditIds)
    (hq : φ.Allows q) (hkept : φ.Kept db c) :
    CallAudited P q c db φ who made written changed' := by
  cases φ with
  | idle => exact h.call_quiet hids hq trivial fun _ => trivial
  | authorised _ _ => exact h.call_quiet hids hq trivial fun _ => trivial
  | changed hash admin change =>
      obtain ⟨hcalm, hkept⟩ := hkept
      obtain ⟨row, hrow, hadmin⟩ := List.map_eq_singleton_iff.mp hkept
      obtain rfl : q = .execute (.selectSessionUser hash) := hq
      have hserve := serve_lookup (P := P) hcalm hrow
      have hnext : ThreadAudited db (.identified row.id change) (some row) made written
          changed' := by
        refine ⟨fun _ _ he => (by cases he), fun a ha => ?_, ?_, fun hq => hq.elim⟩
        · have hrow' : row.id = a := Option.some.inj ha
          exact h.known a (congrArg some (hadmin.symm.trans hrow'))
        · rw [h.owed, hadmin]
          rfl
      constructor <;> rw [hserve]
      · exact hadmin
      · exact hnext
      · exact (List.append_nil _).symm
      · exact hids
  | identified admin change =>
      obtain rfl : q = .execute (.insertAudit admin change.action.name change.action.entityType
        change.entityId (.object [])) := hq
      obtain ⟨hreply, htrail, hids'⟩ :=
        @serve_insertAudit P c db admin change hkept hids (h.known admin rfl)
      constructor
      · rw [hreply]
        trivial
      · rw [hreply]
        exact ⟨fun _ _ he => (by cases he), fun a ha => (by cases ha), h.owed, fun hq => hq.elim⟩
      · rw [hreply]
        exact htrail
      · exact hids'
  | audited => exact hq.elim

/-- A call of another thread leaves it as it is. -/
theorem ThreadAudited.other (h : ThreadAudited db φ who made written changed') :
    ThreadAudited (serve P q c db).2 φ who made written changed' :=
  ⟨h.who, fun admin ha => serve_hasUser (h.known admin ha), h.owed, h.quiet⟩

end thread

/-! ## Runs -/

section runs
variable {ι : Type} [DecidableEq ι] {P : Platform} {db₀ : Database}
  {h : List (RequestEvent ι)} {p : RequestPool ι}

/-- How far a thread has got with the request it serves. -/
abbrev auditPhase (h : List (RequestEvent ι)) (i : ι) : AuditPhase :=
  phase auditProtocol .idle RequestControl.resets h i

/-- Between a change and its audit row, a request finds the administrator's session and no call of it
    fails; and the path of a hidden test contains no U+0000. -/
def SessionKept (h : List (RequestEvent ι)) (p : RequestPool ι) : RequestEvent ι → Prop
  | .call i c _ => (auditPhase h i).Kept p.shared c
  | .control (.arrive _ route _) => route.NulFree
  | .control (.elapse _) => True

instance (route : Route) : Decidable route.NulFree :=
  match route with
  | .adminCreateTest problemId | .adminUpdateTest problemId _ | .adminDeleteTest problemId _ =>
      inferInstanceAs (Decidable ('\x00' ∉ problemId.toList))
  | .register | .login | .logout | .me | .profile | .listProblems | .getProblem _
  | .submissionHistory _ | .getSubmission _ | .submit | .adminListProblems | .adminCreateProblem
  | .adminGetProblem _ | .adminUpdateProblem _ | .adminDeleteProblem _ | .adminListSubmissions
  | .adminGetSubmission _ | .adminRetrySubmission _ => inferInstanceAs (Decidable True)

instance (h : List (RequestEvent ι)) (p : RequestPool ι) (e : RequestEvent ι) :
    Decidable (SessionKept h p e) :=
  match e with
  | .call i c _ => inferInstanceAs (Decidable ((auditPhase h i).Kept p.shared c))
  | .control (.arrive _ route _) => inferInstanceAs (Decidable route.NulFree)
  | .control (.elapse _) => inferInstanceAs (Decidable True)

/-- What is kept in runs where every session is. -/
structure TrailKept (db₀ : Database) (h : List (RequestEvent ι)) (db : Database) : Prop where
  ids : db.AuditIds
  rows : db.trail = db₀.trail ++ (audits h).reverse
  threads : ∀ i, ThreadAudited db (auditPhase h i) (actor h i) (changesBy h i) (auditsBy h i)
    (changedInRequest h i)

theorem TrailKept.call {i : ι} {c : Choice} {q : BackendRequest} {db : Database}
    (hJ : TrailKept db₀ h db) (hkept : (auditPhase h i).Kept db c)
    (hq : (auditPhase h i).Allows q) :
    (auditPhase h i).Admits q (serve P q c db).1 ∧
      TrailKept db₀ (.call i c ⟨q, (serve P q c db).1⟩ :: h) (serve P q c db).2 := by
  obtain ⟨hadmits, hthread, htrail, hids⟩ := (hJ.threads i).call (P := P) hJ.ids hq hkept
  refine ⟨hadmits, hids, ?_, fun j => ?_⟩
  · show _ = db₀.trail ++ ((auditWritten q (serve P q c db).1).toList ++ audits h).reverse
    rw [htrail, hJ.rows, List.reverse_append, List.append_assoc]
    cases auditWritten q (serve P q c db).1 <;> rfl
  · unfold auditPhase phase actor changesBy auditsBy changedInRequest
    by_cases hj : j = i
    · subst hj
      simp only [if_true]
      exact hthread
    · simp only [if_neg hj]
      exact (hJ.threads j).other

/-- A request that ended in an exception has changed nothing. -/
theorem quiet_of_raised {α : Type} {φ : AuditPhase} {e : Exception}
    (hdone : φ.Done (.error e : Except Exception α)) : φ.Quiet := by
  cases φ with
  | idle => trivial
  | authorised _ _ => trivial
  | changed _ _ _ => exact hdone.elim
  | identified _ _ => exact hdone.elim
  | audited => cases hdone

/-- A request that has been answered owes nothing. -/
theorem settled {α : Type} {φ : AuditPhase} {o : Except Exception α} (hdone : φ.Done o) :
    φ.pending = none := by
  cases φ with
  | idle => rfl
  | authorised _ _ => rfl
  | changed _ _ _ => exact hdone.elim
  | identified _ _ => exact hdone.elim
  | audited => rfl

/-- A thread that has answered is done. -/
theorem done_of_answered {φ : AuditPhase} {t : Call HttpResponse}
    (ht : auditProtocol.Follows AuditPhase.Done φ t) (h : answered t = true) : φ.pending = none := by
  cases t with
  | ret _ => exact settled ht
  | raise _ => exact settled ht
  | call _ _ => cases h

theorem TrailKept.arrive {i : ι} {route : Route} {request : HttpRequest} {db : Database}
    (hJ : TrailKept db₀ h db) (hpending : (auditPhase h i).pending = none) :
    TrailKept db₀ (.control (.arrive i route request) :: h) db := by
  refine ⟨hJ.ids, hJ.rows, fun j => ?_⟩
  have hj := hJ.threads j
  unfold auditPhase phase actor changesBy auditsBy changedInRequest
  by_cases hji : j = i
  · subst hji
    have howed := hj.owed
    rw [hpending] at howed
    simp only [RequestControl.resets, decide_true, if_true]
    exact ⟨fun _ _ he => (by cases he), fun _ he => (by cases he), howed, fun _ => rfl⟩
  · simp only [RequestControl.resets, decide_eq_true_eq, if_neg hji]
    exact hj

theorem TrailKept.elapse {time : Nat} {db : Database} (hJ : TrailKept db₀ h db) :
    TrailKept db₀ (.control (.elapse time) :: h) { db with clock := db.clock + time } := by
  refine ⟨hJ.ids, hJ.rows, fun j => ?_⟩
  have hj := hJ.threads j
  exact ⟨hj.who, hj.known, hj.owed, hj.quiet⟩

/-- **Every change is audited where sessions are kept.** In every run of concurrent requests in which no
    administrator's session is gone, and no call fails, between a change and its audit row, the changes
    and the audit rows are the same, one for one, and no request that changed something ends in an
    exception. -/
theorem admin_changes_audited {server : Server} (hids : db₀.AuditIds)
    (hrun : Guarded SessionKept (Step (serve server.P) (requestControl server))
      (idleServer ι db₀) h p) : ChangesAudited db₀ h p := by
  have hstart : TrailKept db₀ ([] : List (RequestEvent ι)) db₀ :=
    ⟨hids, (List.append_nil _).symm, fun _ =>
      ⟨fun _ _ he => (by cases he), fun _ he => (by cases he), rfl, fun _ => rfl⟩⟩
  obtain ⟨hJ, hthreads⟩ := threads_follow auditProtocol .idle RequestControl.resets AuditPhase.Done
    (TrailKept db₀) hrun hstart (fun _ => trivial)
    (fun h p i c q hguard hJ hq => hJ.call hguard hq)
    (fun h p b p' hguard hJ hfollows hb => by
      cases b with
      | arrive i route request =>
          simp only [requestControl, Option.ite_none_right_eq_some, Option.some.injEq] at hb
          obtain ⟨hanswered, rfl⟩ := hb
          refine ⟨hJ.arrive (done_of_answered (hfollows i) hanswered), fun j => ⟨fun hj => ?_,
            fun hj => ?_⟩⟩
          · obtain rfl : j = i := of_decide_eq_true hj
            dsimp only
            rw [Function.update_self]
            exact dispatch_follows server request hguard
          · exact Function.update_of_ne (of_decide_eq_false hj) ..
      | elapse time =>
          cases hb
          exact ⟨hJ.elapse, fun j => ⟨fun hj => (by cases hj), fun _ => rfl⟩⟩)
  refine ⟨fun i hi => ?_, fun i => ?_, hJ.rows, fun i e he => ?_⟩
  · have howed := (hJ.threads i).owed
    rw [done_of_answered (hthreads i) hi] at howed
    exact howed
  · rw [(hJ.threads i).owed]
    exact List.suffix_append _ _
  · have hdone := hthreads i
    rw [he] at hdone
    exact (hJ.threads i).quiet (quiet_of_raised hdone)

end runs

/-! ## A session that is gone too early -/

/-- An administrator with a session, and one problem. -/
def oneAdmin : Database :=
  { Database.initial 0 with
      users := Table.empty.insert ⟨1, "admin", "hash", 0, true⟩
      sessions := Table.empty.insert ⟨1, 1, "token", 0, 3600 * second⟩
      problems := Table.empty.insert ⟨"sum", "Sum", "Add the numbers.", "", "", "Easy", .array [],
        .array [.string "python"], .array [], true, 0, 0, 1⟩ }

theorem oneAdmin_auditIds : oneAdmin.AuditIds := fun a ha => absurd ha (Table.not_mem_empty a)

/-- A request that carries the administrator's session. -/
def fromAdmin : HttpRequest := { cookie := "token" }

/-- A call of a thread where nothing goes wrong. -/
def answeredCalmly (i : Bool) : Bool × Choice ⊕ RequestControl Bool := .inl (i, .calm)

/-- A request deletes the problem, the session is logged out by another, and the first looks it up. -/
def deleteAndLogout : List (Bool × Choice ⊕ RequestControl Bool) :=
  [.inr (.arrive true (.adminDeleteProblem "sum") fromAdmin), answeredCalmly true,
    answeredCalmly true, .inr (.arrive false .logout fromAdmin), answeredCalmly false,
    answeredCalmly true]

/-- The same without the logout, up to the audit row. -/
def deleteAlone : List (Bool × Choice ⊕ RequestControl Bool) :=
  [.inr (.arrive true (.adminDeleteProblem "sum") fromAdmin), answeredCalmly true,
    answeredCalmly true, answeredCalmly true, answeredCalmly true]

def playedDelete (moves : List (Bool × Choice ⊕ RequestControl Bool)) :
    Option (List (RequestEvent Bool) × RequestPool Bool) :=
  script (serve .plain) (requestControl .plain) moves [] (idleServer Bool oneAdmin)

/-- **A change without an audit row.** The problem is deleted, and the request ends in an exception before
    its audit row. -/
theorem unaudited_change : ¬ ∀ (server : Server) (db₀ : Database) (h : List (RequestEvent Bool))
    (p : RequestPool Bool), db₀.AuditIds →
    Run (Step (serve server.P) (requestControl server)) (idleServer Bool db₀) h p →
    ChangesAudited db₀ h p := by
  intro hclaim
  have hplayed : (playedDelete deleteAndLogout).isSome = true := by decide
  have haudited := hclaim .plain oneAdmin _ _ oneAdmin_auditIds
    (run_of_script .start (Option.some_get hplayed).symm)
  exact absurd (haudited.returned true .badVariantAccess rfl) (by decide)

/-- The deletion where the session stays. -/
theorem admin_changes_audited_delete : ∃ (h : List (RequestEvent Bool)) (p : RequestPool Bool),
    changesBy h true = [⟨some 1, "problem.delete", "problem", "sum"⟩] ∧
      ChangesAudited oneAdmin h p := by
  have hplayed : (playedDelete deleteAlone).isSome = true := by decide
  have hkept : scriptMeets (serve .plain) (requestControl .plain) SessionKept deleteAlone []
      (idleServer Bool oneAdmin) = true := by decide
  have hrun := guarded_of_script .start (Option.some_get hplayed).symm hkept
  exact ⟨_, _, rfl, @admin_changes_audited Bool _ oneAdmin _ _ .plain oneAdmin_auditIds hrun⟩

end AlgorithmTrainer
