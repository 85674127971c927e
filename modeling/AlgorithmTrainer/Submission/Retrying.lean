import Mathlib
import AlgorithmTrainer.Submission.Admission

/-!
# `Submission.Retrying` — retries under concurrent transactions

A retry copies a submission that is over into a new row, and writes its audit row in the same statement. What
ties the two to each other and to the original holds in every interleaving: `Linked` is the invariant, and
`Retrying` what a pending retry may rely on until its commit. Nothing else inserts under the admission lock
meanwhile, and nothing at all touches a row that is over.
-/

namespace AlgorithmTrainer

open Interaction Transition Relational Locking PostgreSQLSubmissionRepository

/-! ## Retries and their audit rows -/

/-- The submission failed, or ended with a runtime error. -/
def SubmissionRow.Over (r : SubmissionRow) : Prop :=
  r.status = "failed" ∨ (r.status = "completed" ∧ r.verdict = some "Runtime Error")

/-- `r` is a retry of `original`. -/
structure RetryOf (original r : SubmissionRow) : Prop where
  link : r.retryOf = some original.id
  later : original.id < r.id
  problemId : r.problemId = original.problemId
  language : r.language = original.language
  sourceCode : r.sourceCode = original.sourceCode
  userId : r.userId = original.userId
  ended : original.Over

/-- An audit row of a retry of this submission. -/
def retryAudited (id : Int) (a : AuditRow) : Bool :=
  a.action == "submission.retry" && a.entityType == "submission" && a.entityId == toString id

namespace Database

/-- The retries of a submission. -/
def retries (db : Database) (id : Int) : Nat := db.submissions.count (·.retryOf == some id)

/-- The audit rows of retries of a submission. -/
def retryAudits (db : Database) (id : Int) : Nat := db.adminAuditLog.count (retryAudited id)

end Database

/-- The invariant: retries are later copies of submissions that are over, there is at most one of each
    submission, and each has its audit row. -/
structure Linked (db : Database) : Prop where
  checked : db.Checked
  ids : ∀ r ∈ db.submissions, r.id < db.sequences.submissions
  auditIds : ∀ a ∈ db.adminAuditLog, a.id < db.sequences.adminAuditLog
  originals : ∀ r ∈ db.submissions, ∀ id, r.retryOf = some id →
    ∃ original ∈ db.submissions, original.id = id ∧ RetryOf original r
  once : ∀ id, db.retries id ≤ 1
  audited : ∀ id, db.retryAudits id = db.retries id

theorem SubmissionRow.Retryable.over {r : SubmissionRow} (h : r.Retryable) (hcheck : r.check = true) :
    r.Over := by
  rw [check_iff] at hcheck
  rcases h with hfailed | hverdict
  · exact Or.inl hfailed
  · refine Or.inr ⟨?_, hverdict⟩
    rcases hcheck.2 with ⟨-, hnone, -⟩ | ⟨hcompleted, -⟩ | ⟨-, hnone, -⟩
    · rw [hverdict] at hnone
      cases hnone
    · exact hcompleted
    · rw [hverdict] at hnone
      cases hnone

theorem SubmissionRow.Over.not_running {r : SubmissionRow} (h : r.Over) : r.status ≠ "running" := by
  rcases h with h | ⟨h, -⟩
  all_goals
    rw [h]
    decide

theorem SubmissionRow.Over.not_queued {r : SubmissionRow} (h : r.Over) : r.status ≠ "queued" := by
  rcases h with h | ⟨h, -⟩
  all_goals
    rw [h]
    decide

/-! ## Steps that only move submissions along -/

/-- The submissions of `db` are those of `db'`, at most further in their lives, and those that are over are as
    they were; the audit log is as it was. -/
structure Carried (db db' : Database) : Prop where
  forward : ∀ r ∈ db.submissions, ∃ r' ∈ db'.submissions, SameSubmission r r' ∧ (r.Over → r' = r)
  backward : ∀ r' ∈ db'.submissions, ∃ r ∈ db.submissions, SameSubmission r r'
  retries : ∀ id, db'.retries id = db.retries id
  adminAuditLog : db'.adminAuditLog = db.adminAuditLog
  nextSubmission : db.sequences.submissions ≤ db'.sequences.submissions
  nextAudit : db.sequences.adminAuditLog ≤ db'.sequences.adminAuditLog

section carried
variable {db db' : Database}

theorem Carried.of_eq (hsubmissions : db'.submissions = db.submissions)
    (hlog : db'.adminAuditLog = db.adminAuditLog)
    (hnext : db.sequences.submissions ≤ db'.sequences.submissions)
    (haudit : db.sequences.adminAuditLog ≤ db'.sequences.adminAuditLog) : Carried db db' where
  forward r hr := ⟨r, hsubmissions ▸ hr, .refl r, fun _ => rfl⟩
  backward r hr := ⟨r, hsubmissions ▸ hr, .refl r⟩
  retries id := by
    unfold Database.retries
    rw [hsubmissions]
  adminAuditLog := hlog
  nextSubmission := hnext
  nextAudit := haudit

/-- An update of running rows that keeps what was fixed at their insertion. -/
theorem Carried.update {p : SubmissionRow → Bool} {f : SubmissionRow → SubmissionRow}
    {hf : ∀ r, p r = true → (f r).id = r.id} (hrunning : ∀ r, p r = true → r.status = "running")
    (hsame : ∀ r, SameSubmission r (f r)) :
    Carried db { db with submissions := db.submissions.update p f hf } where
  forward r hr := by
    refine ⟨_, Table.mem_update_of_mem hf hr, ?_⟩
    split
    · rename_i hp
      exact ⟨hsame r, fun hover => absurd (hrunning r hp) hover.not_running⟩
    · exact ⟨.refl r, fun _ => rfl⟩
  backward r' hr' := by
    obtain ⟨r, hr, rfl⟩ := (Table.mem_update hf).mp hr'
    refine ⟨r, hr, ?_⟩
    split
    · exact hsame r
    · exact .refl r
  retries id := by
    have hretry : ∀ r, ((f r).retryOf == some id) = (r.retryOf == some id) := fun r => by
      rw [(hsame r).retryOf]
    exact @Table.count_update_eq SubmissionRow Int _ db.submissions p _ f hf hretry
  adminAuditLog := rfl
  nextSubmission := Int.le_refl _
  nextAudit := Int.le_refl _

/-- A claim of a queued row. -/
theorem Carried.claim {x : SubmissionRow} (hx : x ∈ db.submissions) (hqueued : x.status = "queued") :
    Carried db { db with submissions := db.submissions.put (claimedRow x) } where
  forward r hr := by
    by_cases hid : r.id = x.id
    · obtain rfl : r = x := Table.eq_of_key hr hx hid
      exact ⟨claimedRow r, Table.mem_put_self hr rfl, ⟨rfl, rfl, rfl, rfl, rfl, rfl, rfl⟩,
        fun hover => absurd hqueued hover.not_queued⟩
    · exact ⟨r, Table.mem_put.mpr (Or.inl ⟨hr, hid⟩), .refl r, fun _ => rfl⟩
  backward r' hr' := by
    rcases Table.mem_put.mp hr' with ⟨hr, -⟩ | ⟨rfl, -⟩
    · exact ⟨r', hr, .refl r'⟩
    · exact ⟨x, hx, rfl, rfl, rfl, rfl, rfl, rfl, rfl⟩
  retries id := by
    refine Table.count_put_eq fun r hr hid => ?_
    obtain rfl : r = x := Table.eq_of_key hr hx hid
    rfl
  adminAuditLog := rfl
  nextSubmission := Int.le_refl _
  nextAudit := Int.le_refl _

/-- The invariant is kept by steps that only move submissions along. -/
theorem Linked.carry (h : Linked db) (hcarried : Carried db db') (hchecked : db'.Checked) :
    Linked db' where
  checked := hchecked
  ids r' hr' := by
    obtain ⟨r, hr, hsame⟩ := hcarried.backward r' hr'
    rw [hsame.id]
    exact Int.lt_of_lt_of_le (h.ids r hr) hcarried.nextSubmission
  auditIds a ha := by
    rw [hcarried.adminAuditLog] at ha
    exact Int.lt_of_lt_of_le (h.auditIds a ha) hcarried.nextAudit
  originals r' hr' id hid := by
    obtain ⟨r, hr, hsame⟩ := hcarried.backward r' hr'
    obtain ⟨original, horiginal, hoid, hretry⟩ := h.originals r hr id (hsame.retryOf ▸ hid)
    obtain ⟨original', horiginal', -, hover⟩ := hcarried.forward original horiginal
    obtain rfl := hover hretry.ended
    refine ⟨original', horiginal', hoid, ?_⟩
    exact {
      link := hsame.retryOf.trans hretry.link
      later := hsame.id ▸ hretry.later
      problemId := hsame.problemId.trans hretry.problemId
      language := hsame.language.trans hretry.language
      sourceCode := hsame.sourceCode.trans hretry.sourceCode
      userId := hsame.userId.trans hretry.userId
      ended := hretry.ended }
  once id := by
    rw [hcarried.retries]
    exact h.once id
  audited id := by
    rw [hcarried.retries, ← h.audited id]
    unfold Database.retryAudits
    rw [hcarried.adminAuditLog]

end carried

/-! ## Pending writes -/

/-- What a pending write may rely on until its commit: the row it inserts has the latest id, a retry's
    original is over and has not been retried, and a retry comes with its audit row. -/
structure Retrying (e : Changes) (db : Database) : Prop extends Pending e db where
  latest : ∀ row, e.inserted = some row →
    (∀ r ∈ db.submissions, r.id < row.id) ∧ row.id < db.sequences.submissions
  retried : ∀ row id, e.inserted = some row → row.retryOf = some id →
    db.retries id = 0 ∧ (∃ original ∈ db.submissions, RetryOf original row) ∧
    ∃ a, e.audited = some a ∧ (∀ id', retryAudited id' a = (some id == some id')) ∧
      (∀ b ∈ db.adminAuditLog, b.id < a.id) ∧ a.id < db.sequences.adminAuditLog
  unaudited : (∀ row, e.inserted = some row → row.retryOf = none) → e.audited = none

section pending
variable {P : Platform} {L : Set PostgreSQLRepositoryLimits} {db db' : Database} {e : Changes}

/-- Pending writes stay meaningful while submissions only move along. -/
theorem Retrying.carry (h : Retrying e db) (hcarried : Carried db db') (hpending : Pending e db') :
    Retrying e db' where
  toPending := hpending
  latest row hrow := by
    obtain ⟨hlatest, hdrawn⟩ := h.latest row hrow
    refine ⟨fun r' hr' => ?_, Int.lt_of_lt_of_le hdrawn hcarried.nextSubmission⟩
    obtain ⟨r, hr, hsame⟩ := hcarried.backward r' hr'
    rw [hsame.id]
    exact hlatest r hr
  retried row id hrow hid := by
    obtain ⟨hnone, ⟨original, horiginal, hretry⟩, a, ha, haudit, hnew, hdrawn⟩ :=
      h.retried row id hrow hid
    obtain ⟨original', horiginal', -, hover⟩ := hcarried.forward original horiginal
    obtain rfl := hover hretry.ended
    refine ⟨(hcarried.retries id).trans hnone, ⟨original', horiginal', hretry⟩, a, ha, haudit, ?_,
      Int.lt_of_lt_of_le hdrawn hcarried.nextAudit⟩
    rw [hcarried.adminAuditLog]
    exact hnew
  unaudited := h.unaudited

/-- Planning draws ids, and writes no table. -/
theorem carried_plan (l : Int → Bool) (s : LockedStatement) : Carried db (s.plan l db).1 := by
  refine .of_eq plan_submissions (by rw [plan_frame]) ?_ ?_
  all_goals
    cases s with
    | insertSubmission _ _ _ _ _ _ =>
        simp only [LockedStatement.plan]
        split
        · simp only [Database.nextSubmissionId]
          omega
        · exact Int.le_refl _
    | claimSubmission _ =>
        simp only [LockedStatement.plan]
        split
        · split <;> exact Int.le_refl _
        · exact Int.le_refl _
    | retrySubmission _ _ _ _ =>
        simp only [LockedStatement.plan]
        split
        · split
          · simp only [Database.nextSubmissionId, Database.nextAuditId]
            omega
          · exact Int.le_refl _
        · exact Int.le_refl _

/-- What an act outside a transaction does to the submissions: it moves running ones along. -/
theorem PlainCall.carried {u : QueueAct} {c : Choice} (h : PlainCall P L u) (hdb : db.Checked) :
    Carried db ((queueEngine P).execute u c db) := by
  cases u with
  | pass => exact .of_eq rfl rfl (Int.le_refl _) (Int.le_refl _)
  | execute s =>
      obtain ⟨limits, -, call, hc⟩ := h
      have hissued := (call.program_follows P limits).asks hc
      simp only [queueEngine]
      cases hissued with
      | count => exact .of_eq rfl rfl (Int.le_refl _) (Int.le_refl _)
      | complete id v e =>
          rw [exec_complete]
          exact .update (fun r hr => (runningRow_iff.mp hr).2)
            fun r => ⟨rfl, rfl, rfl, rfl, rfl, rfl, rfl⟩
      | fail id e =>
          rw [exec_fail hdb]
          exact .update (fun r hr => (runningRow_iff.mp hr).2)
            fun r => ⟨rfl, rfl, rfl, rfl, rfl, rfl, rfl⟩
      | recoverRunning =>
          rw [exec_recover hdb]
          exact .update (fun r hr => anyRunning_iff.mp hr)
            fun r => ⟨rfl, rfl, rfl, rfl, rfl, rfl, rfl⟩

/-- An inserted row with its audit row, if any. -/
theorem Retrying.of_inserted {row : SubmissionRow} {audited : Option AuditRow}
    (hqueued : row.status = "queued") (hcheck : row.check = true)
    (hlatest : (∀ r ∈ db.submissions, r.id < row.id) ∧ row.id < db.sequences.submissions)
    (hretried : ∀ id, row.retryOf = some id →
      db.retries id = 0 ∧ (∃ original ∈ db.submissions, RetryOf original row) ∧
      ∃ a, audited = some a ∧ (∀ id', retryAudited id' a = (some id == some id')) ∧
        (∀ b ∈ db.adminAuditLog, b.id < a.id) ∧ a.id < db.sequences.adminAuditLog)
    (hunaudited : row.retryOf = none → audited = none) :
    Retrying ⟨some row, none, audited⟩ db where
  claimed _ h := by cases h
  inserted r hr := by
    obtain rfl := Option.some.inj hr
    exact ⟨hqueued, hcheck⟩
  latest r hr := by
    obtain rfl := Option.some.inj hr
    exact hlatest
  retried r id hr := by
    obtain rfl := Option.some.inj hr
    exact hretried id
  unaudited h := hunaudited (h row rfl)

/-- Writes that insert nothing. -/
theorem Retrying.of_uninserted {u : Option SubmissionRow} (hpending : Pending ⟨none, u, none⟩ db) :
    Retrying ⟨none, u, none⟩ db where
  toPending := hpending
  latest _ h := by cases h
  retried _ _ h := by cases h
  unaudited _ := rfl

/-- The audit row of a retry names the submission that was retried, and no other. -/
theorem retryAudited_retryAudit (id admin id' : Int) :
    retryAudited id' (retryAudit db id admin) = (some id == some id') := by
  unfold retryAudited retryAudit
  simp only [beq_self_eq_true, Bool.true_and]
  rw [Bool.eq_iff_iff, beq_iff_eq, beq_iff_eq, Option.some.injEq]
  exact ⟨fun h => Int.repr_injective h, fun h => by rw [h]⟩

/-- **What a statement plans** on linked submissions. -/
theorem Retrying.of_plan {l : Int → Bool} {s : LockedStatement} {rows : List SubmissionRow}
    (hdb : Linked db) (h : (s.plan l db).2 = .ok (e, rows)) : Retrying e (s.plan l db).1 := by
  have hpending : Pending e (s.plan l db).1 := .of_planned (plan_ok h) plan_submissions
  cases s with
  | insertSubmission problem language source user maximum maximumPerUser =>
      -- a fresh submission is nobody's retry
      by_cases hroom : db.admits user maximum maximumPerUser = true
      · simp only [LockedStatement.plan, hroom, if_true] at h ⊢
        obtain ⟨rfl, -, hcheck, -⟩ := planInsert_ok h
        exact .of_inserted rfl hcheck ⟨hdb.ids, Int.lt_succ _⟩ (fun _ hid => by cases hid) fun _ => rfl
      · simp only [LockedStatement.plan, hroom] at h
        cases h
        exact .of_uninserted hpending
  | claimSubmission limit =>
      cases plan_ok h with
      | nothing => exact .of_uninserted hpending
      | admitted hadmitted =>
          obtain ⟨_, _, hnone, -⟩ := hadmitted.room
          cases hnone
      | claimed _ => exact .of_uninserted hpending
  | retrySubmission id maximum maximumPerUser admin =>
      rcases @plan_retry l db id maximum maximumPerUser admin with
        hplan | ⟨original, horiginal, rfl, hretryable, hnone, -, hplan⟩
      · rw [hplan] at h
        cases h
        exact .of_uninserted hpending
      · rw [hplan] at h ⊢
        dsimp only at h
        obtain ⟨rfl, -, hcheck, -⟩ := planInsert_ok h
        refine .of_inserted rfl hcheck ⟨hdb.ids, Int.lt_succ _⟩ (fun id hid => ?_)
          fun hid => by cases hid
        obtain rfl := Option.some.inj hid
        -- NOT EXISTS has seen that no row retries this one yet.
        refine ⟨?_, ⟨original, horiginal, ?_⟩, _, rfl, retryAudited_retryAudit _ admin, hdb.auditIds,
          Int.lt_succ _⟩
        · refine Table.count_eq_zero.mpr fun r hr => ?_
          rw [beq_eq_false_iff_ne]
          exact hnone r hr
        · exact ⟨rfl, hdb.ids original horiginal, rfl, rfl, rfl, rfl,
            hretryable.over (hdb.checked original horiginal)⟩

/-! ## Commits -/

/-- The commit of a submission that is no retry. -/
theorem Linked.insert_created {row : SubmissionRow} (h : Linked db)
    (he : Retrying ⟨some row, none, none⟩ db) (hcreated : row.retryOf = none) :
    Linked (Changes.apply ⟨some row, none, none⟩ db) := by
  obtain ⟨hlatest, hdrawn⟩ := he.latest row rfl
  have hretries : ∀ id, (Changes.apply ⟨some row, none, none⟩ db).retries id = db.retries id := by
    intro id
    refine (Table.count_insert (fun x hx => Int.ne_of_lt (hlatest x hx)) _).trans ?_
    rw [hcreated]
    rfl
  constructor
  · exact he.checked h.checked
  · intro r hr
    rcases Table.mem_insert.mp hr with hr | ⟨rfl, -⟩
    · exact h.ids r hr
    · exact hdrawn
  · exact h.auditIds
  · intro r hr id hid
    rcases Table.mem_insert.mp hr with hr | ⟨rfl, -⟩
    · obtain ⟨original, horiginal, hoid, hretry⟩ := h.originals r hr id hid
      exact ⟨original, Table.mem_insert_of_mem horiginal, hoid, hretry⟩
    · rw [hcreated] at hid
      cases hid
  · intro id
    rw [hretries]
    exact h.once id
  · intro id
    rw [hretries, ← h.audited id]
    rfl

/-- The commit of a retry and its audit row. -/
theorem Linked.insert_retried {row : SubmissionRow} {a : AuditRow} {id : Int} (h : Linked db)
    (he : Retrying ⟨some row, none, some a⟩ db) (hid : row.retryOf = some id) :
    Linked (Changes.apply ⟨some row, none, some a⟩ db) := by
  obtain ⟨hlatest, hdrawn⟩ := he.latest row rfl
  obtain ⟨hnone, ⟨original, horiginal, hretry⟩, _, ⟨⟩, haudit, hnew, hdrawnAudit⟩ :=
    he.retried row id rfl hid
  have hretries : ∀ id', (Changes.apply ⟨some row, none, some a⟩ db).retries id' =
      db.retries id' + if (some id == some id') = true then 1 else 0 := by
    intro id'
    refine (Table.count_insert (fun x hx => Int.ne_of_lt (hlatest x hx)) _).trans ?_
    rw [hid]
    rfl
  have haudits : ∀ id', (Changes.apply ⟨some row, none, some a⟩ db).retryAudits id' =
      db.retryAudits id' + if (some id == some id') = true then 1 else 0 := by
    intro id'
    refine (Table.count_insert (fun x hx => Int.ne_of_lt (hnew x hx)) _).trans ?_
    rw [haudit]
    rfl
  constructor
  · exact he.checked h.checked
  · intro r hr
    rcases Table.mem_insert.mp hr with hr | ⟨rfl, -⟩
    · exact h.ids r hr
    · exact hdrawn
  · intro b hb
    rcases Table.mem_insert.mp hb with hb | ⟨rfl, -⟩
    · exact h.auditIds b hb
    · exact hdrawnAudit
  · intro r hr id' hid'
    rcases Table.mem_insert.mp hr with hr | ⟨rfl, -⟩
    · obtain ⟨original', horiginal', hoid, hretry'⟩ := h.originals r hr id' hid'
      exact ⟨original', Table.mem_insert_of_mem horiginal', hoid, hretry'⟩
    · exact ⟨original, Table.mem_insert_of_mem horiginal,
        Option.some.inj (hretry.link.symm.trans hid'), hretry⟩
  · intro id'
    rw [hretries]
    split
    · rename_i heq
      obtain rfl := Option.some.inj (beq_iff_eq.mp heq)
      rw [hnone]
    · exact h.once id'
  · intro id'
    rw [haudits, hretries, h.audited]

/-- **A commit keeps the invariant.** -/
theorem Linked.commit {lock : Int} (h : Linked db) (he : Retrying e db)
    (hproduced : Produced (queueEngine P) (LockedCall P L) lock e) : Linked (e.apply db) := by
  rcases Produced.cases hproduced with ⟨-, hupdated⟩ | ⟨-, hinserted⟩
  · obtain ⟨i, u, audited⟩ := e
    obtain rfl : u = none := hupdated
    cases i with
    | none =>
        obtain rfl : audited = none := he.unaudited fun _ h => by cases h
        exact h
    | some row =>
        cases hrow : row.retryOf with
        | none =>
            obtain rfl : audited = none := he.unaudited fun r hr => Option.some.inj hr ▸ hrow
            exact h.insert_created he hrow
        | some id =>
            obtain ⟨-, -, a, ha, -⟩ := he.retried row id rfl hrow
            obtain rfl : audited = some a := ha
            exact h.insert_retried he hrow
  · obtain ⟨i, u, audited⟩ := e
    obtain rfl : i = none := hinserted
    obtain rfl : audited = none := he.unaudited fun _ h => by cases h
    cases u with
    | none => exact h
    | some r =>
        obtain ⟨x, hx, hqueued, rfl⟩ := he.claimed r rfl
        exact h.carry (.claim hx hqueued) (he.checked h.checked)

/-- Linked submissions stay linked, and pending writes meaningful. -/
theorem retries_maintained :
    Maintained (queueEngine P) (LockedCall P L) (PlainCall P L) Retrying Linked where
  evaluated hx _ hev := by
    obtain ⟨rfl, ho⟩ := Prod.mk.inj hev
    split at ho
    · rename_i hplan
      cases ho
      exact .of_plan hx hplan
    · cases ho
  evaluate hx hcall hev he := by
    have hpending := pending_stable.evaluate hcall hev he.toPending
    obtain ⟨rfl, -⟩ := Prod.mk.inj hev
    exact he.carry (carried_plan _ _) hpending
  execute hx hu he := he.carry (hu.carried hx.checked) (pending_stable.execute hu he.toPending)
  commit {k k' e e' x} hx hne hproduced hproduced' he he' := by
    have hpending := pending_stable.commit hne hproduced hproduced' he.toPending he'.toPending
    rcases Produced.cases hproduced with ⟨hlock, hnone⟩ | ⟨hlock, hnone⟩
    · -- the other write is a claim, which moves one row along
      rcases Produced.cases hproduced' with ⟨hlock', -⟩ | ⟨-, hnone'⟩
      · exact absurd (hlock.trans hlock'.symm) hne
      · obtain ⟨i, u, audited⟩ := e'
        obtain rfl : i = none := hnone'
        obtain rfl : audited = none := he'.unaudited fun _ h => by cases h
        cases u with
        | none => exact he
        | some r =>
            obtain ⟨y, hy, hqueued, rfl⟩ := he'.claimed r rfl
            exact he.carry (.claim hy hqueued) hpending
    · -- this write is a claim, which relies on its queued row only
      obtain ⟨i, u, audited⟩ := e
      obtain rfl : i = none := hnone
      obtain rfl : audited = none := he.unaudited fun _ h => by cases h
      exact .of_uninserted hpending
  keeps_evaluate _ hev hx := by
    obtain ⟨rfl, -⟩ := Prod.mk.inj hev
    exact hx.carry (carried_plan _ _) (hx.checked.of_eq plan_submissions)
  keeps_execute hu hx := hx.carry (hu.carried hx.checked) (hu.settledFrom.checked hx.checked)
  keeps_commit hproduced he hx := hx.commit he hproduced

/-! ## Retries that return an error -/

/-- What `retry` returns for a result of its transaction. -/
def retryAnswer (P : Platform) : Result SubmissionRow → Except RepositoryError SubmissionRecord
  | .tuples [row] => record P row
  | .tuples _ => .error { message := "Submission is not retryable or was already retried" }
  | result => .error (failure "Could not retry submission" result)

theorem run_retry (limits : PostgreSQLRepositoryLimits) (id admin : Int) (w : World Choice Database) :
    (retry P limits id admin).run (serve P) w =
      (.ok (retryAnswer P (serveLocked (.retrySubmission id limits.maximumActiveSubmissions
          limits.maximumActiveSubmissionsPerUser admin) (w.choices 0) w.state).1),
        w.advance (serveLocked (.retrySubmission id limits.maximumActiveSubmissions
          limits.maximumActiveSubmissionsPerUser admin) (w.choices 0) w.state).2) := by
  unfold retry
  rw [run_executeLocked]
  match (serveLocked _ (w.choices 0) w.state).1 with
  | .tuples [] | .tuples [_] | .tuples (_ :: _ :: _) | .none | .failed _ _ | .command => rfl

/-- A queued row reads back, so a retry that inserted one returns no error. -/
theorem retryAnswer_queued {r : SubmissionRow} (hcheck : r.check = true)
    (hqueued : r.status = "queued") (error : RepositoryError) :
    retryAnswer P (.tuples [r]) ≠ .error error := by
  have hverdict : r.verdict = none := by
    rw [SubmissionRow.check_iff] at hcheck
    simp_all
  simp [retryAnswer, record, hqueued, status, hverdict]

/-- The submissions and the audit log are as they were. -/
def SameQueue (db db' : Database) : Prop :=
  db'.submissions = db.submissions ∧ db'.adminAuditLog = db.adminAuditLog

theorem sameQueue_plan (l : Int → Bool) (s : LockedStatement) : SameQueue db (s.plan l db).1 :=
  ⟨plan_submissions, by rw [plan_frame]⟩

/-- The rows that a retry returns are those it inserts. -/
theorem retry_rows {l : Int → Bool} {id maximum maximumPerUser admin : Int}
    {rows : List SubmissionRow}
    (h : ((LockedStatement.retrySubmission id maximum maximumPerUser admin).plan l db).2 =
      .ok (e, rows)) : rows = e.inserted.toList := by
  cases plan_ok h with
  | nothing => rfl
  | admitted _ => rfl

/-- Writes that make a retry return an error are no writes. -/
theorem apply_of_error {lock : Int} {error : RepositoryError} (he : Retrying e db)
    (hproduced : Produced (queueEngine P) (LockedCall P L) lock e) (hlock : lock = admissionLock)
    (herror : retryAnswer P (.tuples e.inserted.toList) = .error error) : e.apply db = db := by
  rcases Produced.cases hproduced with ⟨-, hupdated⟩ | ⟨hclaim, -⟩
  · obtain ⟨i, u, audited⟩ := e
    obtain rfl : u = none := hupdated
    cases i with
    | none =>
        obtain rfl : audited = none := he.unaudited fun _ h => by cases h
        rfl
    | some row =>
        obtain ⟨hqueued, hcheck⟩ := he.inserted row rfl
        exact absurd herror (retryAnswer_queued hcheck hqueued error)
  · exact absurd (hlock.symm.trans hclaim) admissionLock_ne_claimLock

/-- A retry by itself that returns an error leaves the submissions and the audit log as they were. -/
theorem run_retry_error {limits : PostgreSQLRepositoryLimits} {id admin : Int}
    {w w' : World Choice Database} {error : RepositoryError}
    (h : (retry P limits id admin).run (serve P) w = (.ok (.error error), w')) :
    SameQueue w.state w'.state := by
  rw [run_retry] at h
  obtain ⟨hanswer, rfl⟩ := Prod.mk.inj h
  have hanswer := Except.ok.inj hanswer
  simp only [World.advance_state]
  rcases serveLocked_cases (.retrySubmission id limits.maximumActiveSubmissions
      limits.maximumActiveSubmissionsPerUser admin) (w.choices 0) w.state with
    ⟨hdb', -⟩ | ⟨hdb', -⟩ | ⟨state, -, hdb', -⟩ | ⟨e, rows, hplan, -, heq⟩
  · rw [hdb']
    exact ⟨rfl, rfl⟩
  · rw [hdb']
    exact sameQueue_plan _ _
  · rw [hdb']
    exact sameQueue_plan _ _
  · rw [heq] at hanswer ⊢
    cases plan_ok hplan with
    | nothing => exact sameQueue_plan _ _
    | admitted hadmitted =>
        exact absurd hanswer (retryAnswer_queued hadmitted.check hadmitted.queued error)

end pending

/-! ## Every interleaving -/

section runs
variable {ι : Type} [DecidableEq ι] {P : Platform} {L : Set PostgreSQLRepositoryLimits}
  {d₀ d d' : QueueSystem ι} {h : List (Label ι Int LockedStatement QueueAct)}

/-- A step of the session's transaction; where it is the commit of a retry, one that then returns an error. -/
inductive Fruitless (P : Platform) (d : QueueSystem ι) (i : ι) :
    Label ι Int LockedStatement QueueAct → Prop where
  | begin {lock : Int} {s : LockedStatement} : Fruitless P d i (.begin i lock s)
  | lock : Fruitless P d i (.lock i)
  | statement : Fruitless P d i (.statement i)
  | rollback : Fruitless P d i (.rollback i)
  | commit {l : Int → Bool} {db : Database} {id maximum maximumPerUser admin : Int} {e : Changes}
      {rows : List SubmissionRow} {error : RepositoryError}
      (h : d.session i = .executed admissionLock e)
      (hplan : ((LockedStatement.retrySubmission id maximum maximumPerUser admin).plan l db).2 =
        .ok (e, rows)) (herror : retryAnswer P (.tuples rows) = .error error) :
      Fruitless P d i (.commit i)

theorem Fruitless.sameQueue {i : ι} {a : Label ι Int LockedStatement QueueAct}
    (ha : Fruitless P d i a)
    (hd : Coherent (queueEngine P) (LockedCall P L) Retrying d) (hstep : TransactionStep P L d a d') :
    SameQueue d.committed d'.committed := by
  have hevaluated : ∀ {s : LockedStatement} {c : Choice} {db : Database} {o : Option Changes},
      (queueEngine P).evaluate s c d.committed = (db, o) → SameQueue d.committed db := by
    intro s c db o hev
    obtain ⟨rfl, -⟩ := Prod.mk.inj hev
    exact sameQueue_plan _ _
  cases ha with
  | begin => cases hstep; exact ⟨rfl, rfl⟩
  | lock => cases hstep; exact ⟨rfl, rfl⟩
  | statement =>
      cases hstep with
      | statement _ hev => exact hevaluated hev
  | rollback =>
      cases hstep with
      | failed _ hev => exact hevaluated hev
      | rollback => exact ⟨rfl, rfl⟩
  | @commit _ _ _ _ _ _ e rows error hi hplan herror =>
      obtain rfl := retry_rows hplan
      cases hstep with
      | @commit _ k e' hi' =>
          obtain ⟨rfl, rfl⟩ : k = admissionLock ∧ e' = e := by
            rw [hi] at hi'
            cases hi'
            exact ⟨rfl, rfl⟩
          have hphase := hd.phases i
          rw [hi] at hphase
          obtain ⟨hproduced, hretrying⟩ := hphase
          have hsame : (queueEngine P).commit e' d.committed = d.committed :=
            apply_of_error hretrying hproduced rfl herror
          simp only [System.set_committed, hsame]
          exact ⟨rfl, rfl⟩

/-- **Retries in every interleaving.** However the transactions and statements of any number of repository
    instances interleave, from a database without submissions and audit rows: every row that retries
    another is a later copy of it, and that one has failed or ended with a runtime error; no row is
    retried twice; a row that is retried has exactly one audit row of it, and any other row none. And a
    retry that returns an error leaves the submissions and the audit log as they are, in each step of its
    transaction, and also as a whole call by itself. -/
theorem retries_linked (hidle : ∀ i, d₀.session i = .idle) (h₀ : d₀.committed.submissions = .empty)
    (haudit : d₀.committed.adminAuditLog = .empty) (hrun : Run (TransactionStep P L) d₀ h d) :
    (∀ r ∈ d.committed.submissions, ∀ id, r.retryOf = some id →
      ∃ original ∈ d.committed.submissions, original.id = id ∧ RetryOf original r) ∧
    (∀ id, d.committed.retries id ≤ 1) ∧
    (∀ id, d.committed.retryAudits id = d.committed.retries id) ∧
    (∀ i a d', TransactionStep P L d a d' → Fruitless P d i a →
      SameQueue d.committed d'.committed) ∧
    ∀ limits id admin choices error w,
      (retry P limits id admin).run (serve P) ⟨choices, d.committed⟩ = (.ok (.error error), w) →
      SameQueue d.committed w.state := by
  have hempty : Linked d₀.committed :=
    { checked := fun r hr => absurd (h₀ ▸ hr) (Table.not_mem_empty r)
      ids := fun r hr => absurd (h₀ ▸ hr) (Table.not_mem_empty r)
      auditIds := fun a ha => absurd (haudit ▸ ha) (Table.not_mem_empty a)
      originals := fun r hr => absurd (h₀ ▸ hr) (Table.not_mem_empty r)
      once := fun id => by
        unfold Database.retries
        rw [h₀]
        exact Nat.zero_le _
      audited := fun id => by
        unfold Database.retries Database.retryAudits
        rw [h₀, haudit]
        rfl }
  obtain ⟨hcoherent, hlinked⟩ := retries_maintained.invariant hidle hempty hrun
  exact ⟨hlinked.originals, hlinked.once, hlinked.audited,
    fun i a d' hstep ha => ha.sameQueue hcoherent hstep,
    fun limits id admin choices error w hretry => run_retry_error hretry⟩

/-- The migrated tables with one administrator. -/
def migratedWithAdmin : Database :=
  { Database.initial 0 with users := Table.empty.insert ⟨1, "admin", "", 0, true⟩ }

/-- A session by itself runs a transaction, with the effect that the whole call has. -/
theorem run_alone {lock : Int} {s : LockedStatement} (hcall : LockedCall P L lock s)
    (hok : (serveLocked s .calm d.committed).1.tuplesOk = true)
    (hidle : ∀ j, d.session j = .idle) (i : ι) :
    ∃ h' d', Run (TransactionStep P L) d h' d' ∧
      d'.committed = (serveLocked s .calm d.committed).2 ∧ ∀ j, d'.session j = .idle := by
  have hfree : ∀ j, ¬ (d.session j).Holds lock := fun j => by rw [hidle j]; exact id
  rcases serveLocked_cases s .calm d.committed with
    ⟨-, hno, -⟩ | ⟨-, hno⟩ | ⟨_, -, -, hno⟩ | ⟨e, rows, hplan, -, hserve⟩
  · rw [hok] at hno
    cases hno
  · rw [hno] at hok
    cases hok
  · rw [hno] at hok
    cases hok
  · have hev : (queueEngine P).evaluate s .calm d.committed =
        ((s.plan Choice.calm.lockedRows d.committed).1, some e) := by
      simp only [queueEngine, hplan]
    obtain ⟨d', hrun, hd', hsame⟩ := @run_transaction ι Database Choice Int LockedStatement QueueAct
      Changes _ (queueEngine P) (LockedCall P L) (PlainCall P L) d i lock s .calm _ e (hidle i) hcall
      hfree hev
    refine ⟨_, d', hrun, ?_, fun j => (hsame j).trans (hidle j)⟩
    rw [hd', hserve]
    rfl

/-- A session can create a submission, claim it, let it fail, and retry it. -/
theorem run_retried : ∃ h d, Run (TransactionStep .plain Set.univ)
    (⟨migratedWithAdmin, fun _ => .idle⟩ : QueueSystem Unit) h d ∧ d.committed.retries 1 = 1 := by
  have hcreate : LockedCall .plain Set.univ admissionLock
      (.insertSubmission "a-plus-b" "python" "pass" none 100 5) :=
    ⟨{}, trivial, .create ⟨"a-plus-b", "python", "pass", none⟩, .here⟩
  have hclaim : LockedCall .plain Set.univ claimLock (.claimSubmission 1) :=
    ⟨{}, trivial, .claimNext, .here⟩
  have hfail : PlainCall .plain Set.univ (.execute (.failSubmission none 1)) :=
    ⟨{}, trivial, .fail 1 none, .here⟩
  have hretry : LockedCall .plain Set.univ admissionLock (.retrySubmission 1 100 5 1) :=
    ⟨{}, trivial, .retry 1 1, .here⟩
  obtain ⟨h₁, d₁, hrun₁, hd₁, hidle₁⟩ := run_alone hcreate (d := ⟨migratedWithAdmin, fun _ => .idle⟩)
    (by decide) (fun _ => rfl) ()
  obtain ⟨h₂, d₂, hrun₂, hd₂, hidle₂⟩ := run_alone hclaim (d := d₁) (by rw [hd₁]; decide) hidle₁ ()
  have hrun₃ := Run.next (hrun₁.append hrun₂) (.execute (c := .calm) (hidle₂ ()) hfail)
  obtain ⟨h₄, d₄, hrun₄, hd₄, -⟩ := run_alone hretry
    (d := ⟨(queueEngine .plain).execute (.execute (.failSubmission none 1)) .calm d₂.committed,
      d₂.session⟩) (by rw [hd₂, hd₁]; dsimp only; decide) hidle₂ ()
  refine ⟨_, d₄, hrun₃.append hrun₄, ?_⟩
  rw [hd₄, hd₂, hd₁]
  dsimp only
  decide

theorem retries_linked_retried : ∃ h d, Run (TransactionStep .plain Set.univ)
    (⟨migratedWithAdmin, fun _ => .idle⟩ : QueueSystem Unit) h d ∧ d.committed.retries 1 = 1 ∧
    d.committed.retryAudits 1 = 1 := by
  obtain ⟨h, d, hrun, hd⟩ := run_retried
  have hlinked := retries_linked (fun _ => rfl) rfl rfl hrun
  exact ⟨h, d, hrun, hd, (hlinked.2.2.1 1).trans hd⟩

end runs

end AlgorithmTrainer
