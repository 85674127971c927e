import AlgorithmTrainer.Database.Client

/-!
# `Database.Queue` — what the queue's statements do to `submissions`

One lemma for each statement that writes `submissions`, so that no later proof unfolds `exec` or `plan`.
They hold on a database whose rows pass their `CHECK` constraints (`Checked`), which every statement
keeps: there, no statement of the queue is ever rejected by a `CHECK` constraint.
-/

namespace AlgorithmTrainer

open Relational

/-! ## Rows that pass their constraints -/

/-- The `CHECK` constraints of `submissions`, read out. -/
theorem SubmissionRow.check_iff (r : SubmissionRow) : r.check = true ↔
    (∀ v, r.verdict = some v → v = "Accepted" ∨ v = "Wrong Answer" ∨ v = "Runtime Error"
      ∨ v = "Time Limit Exceeded") ∧
    (((r.status = "queued" ∨ r.status = "running") ∧ r.verdict = none ∧ r.completedAt = none) ∨
     (r.status = "completed" ∧ r.verdict.isSome ∧ r.completedAt.isSome) ∨
     (r.status = "failed" ∧ r.verdict = none ∧ r.completedAt.isSome)) := by
  unfold check
  cases hv : r.verdict with
  | none => simp; grind
  | some v => simp; grind

theorem SubmissionRow.check_claimed {r : SubmissionRow} (h : r.check = true)
    (hs : r.status = "queued") : { r with status := "running" : SubmissionRow }.check = true := by
  rw [check_iff] at h ⊢
  simp_all

theorem SubmissionRow.check_recovered {r : SubmissionRow} (h : r.check = true)
    (hs : r.status = "running") : { r with status := "queued" : SubmissionRow }.check = true := by
  rw [check_iff] at h ⊢
  simp_all

theorem SubmissionRow.check_completed (r : SubmissionRow) (v : Verdict) (e : Option String)
    (t : Timestamp) : { r with
      status := "completed", verdict := some (verdictName v), errorType := e,
      completedAt := some t : SubmissionRow }.check = true := by
  rw [check_iff]
  cases v <;> simp [verdictName]

theorem SubmissionRow.check_failed {r : SubmissionRow} (h : r.check = true)
    (hs : r.status = "running") (e : Option String) (t : Timestamp) : { r with
      status := "failed", errorType := e, completedAt := some t : SubmissionRow }.check = true := by
  rw [check_iff] at h ⊢
  simp_all

/-- Every submission passes its constraints. -/
def Database.Checked (db : Database) : Prop := ∀ r ∈ db.submissions, r.check = true

theorem Database.checked_iff {db : Database} :
    db.Checked ↔ db.submissions.rows.all SubmissionRow.check = true := List.all_eq_true.symm

theorem text_verdictName (v : Verdict) : text (verdictName v) = verdictName v := by
  cases v <;> decide

/-! ## Guarded updates -/

namespace Database

variable {db : Database} {m : String} {p : SubmissionRow → Bool} {f : SubmissionRow → SubmissionRow}
  {hf : ∀ r, p r = true → (f r).id = r.id}

/-- An update whose new rows pass their constraints goes through. -/
theorem updateSubmissions_eq (h : ∀ r ∈ db.submissions, p r = true → (f r).check = true) :
    db.updateSubmissions m p f hf = ({ db with submissions := db.submissions.update p f hf },
      .tuples ((db.submissions.select p).map f)) := by
  unfold updateSubmissions
  rw [if_pos]
  rw [List.all_map, List.all_eq_true]
  intro r hr
  obtain ⟨hr, hp⟩ := Table.mem_select.mp hr
  exact h r hr hp

/-- An update of submissions writes nothing else. -/
theorem updateSubmissions_frame (db : Database) (m : String) (p : SubmissionRow → Bool)
    (f : SubmissionRow → SubmissionRow) (hf : ∀ r, p r = true → (f r).id = r.id) :
    ∃ t, (db.updateSubmissions m p f hf).1 = { db with submissions := t } := by
  unfold updateSubmissions
  dsimp only
  split
  · exact ⟨_, rfl⟩
  · exact ⟨db.submissions, rfl⟩

theorem Checked.update (hdb : db.Checked)
    (h : ∀ r ∈ db.submissions, p r = true → (f r).check = true) :
    Checked { db with submissions := db.submissions.update p f hf } := by
  intro x hx
  obtain ⟨r, hr, rfl⟩ := (Table.mem_update hf).mp hx
  split
  · rename_i hp; exact h r hr hp
  · exact hdb r hr

end Database

/-- The row with this id, if it is running. -/
def runningRow (id : Int) (r : SubmissionRow) : Bool := r.id == id && r.status == "running"

theorem runningRow_iff {id : Int} {r : SubmissionRow} :
    runningRow id r = true ↔ r.id = id ∧ r.status = "running" := by
  simp [runningRow]

/-- The row is running. -/
def anyRunning (r : SubmissionRow) : Bool := r.status == "running"

theorem anyRunning_iff {r : SubmissionRow} : anyRunning r = true ↔ r.status = "running" := by
  simp [anyRunning]

def recoveredRow (r : SubmissionRow) : SubmissionRow := { r with status := "queued" }

def completedRow (verdict : String) (errorType : Option String) (now : Timestamp)
    (r : SubmissionRow) : SubmissionRow :=
  { r with status := "completed", verdict := some verdict, errorType, completedAt := some now }

def failedRow (errorType : Option String) (now : Timestamp) (r : SubmissionRow) : SubmissionRow :=
  { r with status := "failed", errorType, completedAt := some now }

section updates
variable {P : Platform} {m : String} {db : Database}

theorem exec_complete (v : Verdict) (e : Option String) (id : Int) :
    (Statement.completeSubmission (text (verdictName v)) e id).exec P m db =
      ({ db with submissions :=
          db.submissions.update (runningRow id) (completedRow (verdictName v) e db.clock) },
        .tuples ((db.submissions.select (runningRow id)).map
          (completedRow (verdictName v) e db.clock))) := by
  rw [text_verdictName]
  exact Database.updateSubmissions_eq fun r _ _ => r.check_completed v e db.clock

theorem exec_fail (hdb : db.Checked) (e : Option String) (id : Int) :
    (Statement.failSubmission e id).exec P m db =
      ({ db with submissions := db.submissions.update (runningRow id) (failedRow e db.clock) },
        .tuples ((db.submissions.select (runningRow id)).map (failedRow e db.clock))) :=
  Database.updateSubmissions_eq fun r hr hp =>
    r.check_failed (hdb r hr) (runningRow_iff.mp hp).2 e db.clock

theorem exec_recover (hdb : db.Checked) :
    Statement.recoverRunning.exec P m db =
      ({ db with submissions := db.submissions.update anyRunning recoveredRow },
        .tuples ((db.submissions.select anyRunning).map (·.id))) := by
  have h := @Database.updateSubmissions_eq db m anyRunning recoveredRow (fun _ _ => rfl)
    fun r hr hp => r.check_recovered (hdb r hr) (anyRunning_iff.mp hp)
  change ((db.updateSubmissions m anyRunning recoveredRow fun _ _ => rfl).1,
    (db.updateSubmissions m anyRunning recoveredRow fun _ _ => rfl).2.map SubmissionRow.id) = _
  rw [h]
  simp only [Result.map, List.map_map]
  rfl

end updates

/-! ## Locked statements -/

/-- The limits a statement admits a submission under. -/
def LockedStatement.admission : LockedStatement → Option (Int × Int)
  | .insertSubmission _ _ _ _ maximum maximumPerUser => some (maximum, maximumPerUser)
  | .retrySubmission _ maximum maximumPerUser _ => some (maximum, maximumPerUser)
  | .claimSubmission _ => none

/-- The statement may insert this row: it is a new queued submission, and there is room for it. -/
structure Admitted (s : LockedStatement) (db : Database) (row : SubmissionRow) : Prop where
  queued : row.status = "queued"
  check : row.check = true
  fresh : ∀ r ∈ db.submissions, r.id ≠ row.id
  room : ∃ maximum maximumPerUser, s.admission = some (maximum, maximumPerUser) ∧
    db.admits row.userId maximum maximumPerUser = true

def claimedRow (r : SubmissionRow) : SubmissionRow := { r with status := "running" }

/-- What a locked statement that does not fail writes and returns. -/
inductive Planned (l : Int → Bool) (db : Database) :
    LockedStatement → Changes → List SubmissionRow → Prop where
  | nothing {s : LockedStatement} : Planned l db s .empty []
  | admitted {s : LockedStatement} {row : SubmissionRow} {audited : Option AuditRow}
      (h : Admitted s db row) : Planned l db s ⟨some row, none, audited⟩ [row]
  | claimed {limit : Int} {r : SubmissionRow} (h : db.candidate limit l = some r) :
      Planned l db (.claimSubmission limit) ⟨none, some (claimedRow r), none⟩ [claimedRow r]

section plans
variable {l : Int → Bool} {db : Database} {s : LockedStatement}

theorem planInsert_ok {row : SubmissionRow} {audited : Option AuditRow} {e : Changes}
    {rows : List SubmissionRow} (h : db.planInsert row audited = .ok (e, rows)) :
    e = ⟨some row, none, audited⟩ ∧ rows = [row] ∧ row.check = true ∧
      ∀ r ∈ db.submissions, r.id ≠ row.id := by
  unfold Database.planInsert at h
  split at h
  · cases h
  · rename_i hcheck
    split at h
    · cases h
    · rename_i hunique
      split at h
      · cases h
      · cases h
        have hnone : db.submissions.count (fun r => r.id == row.id
            || (row.retryOf.isSome && r.retryOf == row.retryOf)) = 0 := by
          by_contra hne
          exact hunique (by simp [hne])
        refine ⟨rfl, rfl, by simpa using hcheck, fun r hr he => ?_⟩
        simpa [he] using Table.count_eq_zero.mp hnone r hr

theorem planInsert_not_check {row : SubmissionRow} {audited : Option AuditRow}
    (hrow : row.check = true) : db.planInsert row audited ≠ .error .checkViolation := by
  unfold Database.planInsert
  rw [if_neg (by simp [hrow])]
  split
  · simp
  · split <;> simp

theorem check_queued {r : SubmissionRow} (hs : r.status = "queued") (hv : r.verdict = none)
    (hc : r.completedAt = none) : r.check = true := by
  rw [SubmissionRow.check_iff]
  simp [hs, hv, hc]

/-- The row a claim takes is queued, unlocked, and its owner is below the limit. -/
theorem candidate_some {limit : Int} {r : SubmissionRow} (h : db.candidate limit l = some r) :
    r ∈ db.submissions ∧ r.status = "queued" ∧ (db.runningOf r.userId : Int) < limit
      ∧ l r.id = false := by
  have hl := List.find?_some h
  have hmem := Table.mem_select.mp (mem_orderBy.mp (List.mem_of_find?_eq_some h))
  simp only [Bool.and_eq_true, beq_iff_eq, decide_eq_true_eq] at hmem
  exact ⟨hmem.1, hmem.2.1, hmem.2.2, by simpa using hl⟩

/-- Planning writes no table: only the sequences move. -/
theorem plan_frame : (s.plan l db).1 = { db with sequences := (s.plan l db).1.sequences } := by
  cases s with
  | insertSubmission => simp only [LockedStatement.plan]; split <;> rfl
  | claimSubmission =>
      simp only [LockedStatement.plan]
      split
      · split <;> rfl
      · rfl
  | retrySubmission =>
      simp only [LockedStatement.plan]
      split
      · split <;> rfl
      · rfl

@[simp] theorem plan_submissions : (s.plan l db).1.submissions = db.submissions := by
  rw [plan_frame]

@[simp] theorem apply_plan_submissions (e : Changes) :
    (e.apply (s.plan l db).1).submissions = (e.apply db).submissions := by
  rw [plan_frame]; rfl

/-- **What a locked statement does**, where it does not fail. -/
theorem plan_ok {e : Changes} {rows : List SubmissionRow}
    (h : (s.plan l db).2 = .ok (e, rows)) : Planned l db s e rows := by
  cases s with
  | insertSubmission problem language source user maximum maximumPerUser =>
      simp only [LockedStatement.plan] at h
      split at h
      · rename_i hroom
        dsimp only at h
        obtain ⟨rfl, rfl, hcheck, hfresh⟩ := planInsert_ok h
        exact .admitted ⟨rfl, hcheck, hfresh, maximum, maximumPerUser, rfl, hroom⟩
      · cases h; exact .nothing
  | claimSubmission limit =>
      simp only [LockedStatement.plan] at h
      split at h
      · rename_i r hr
        split at h
        · cases h; exact .claimed hr
        · cases h
      · cases h; exact .nothing
  | retrySubmission id maximum maximumPerUser admin =>
      simp only [LockedStatement.plan] at h
      split at h
      · split at h
        · rename_i hroom
          dsimp only at h
          obtain ⟨rfl, rfl, hcheck, hfresh⟩ := planInsert_ok h
          exact .admitted ⟨rfl, hcheck, hfresh, maximum, maximumPerUser, rfl, hroom.2⟩
        · cases h; exact .nothing
      · cases h; exact .nothing

/-- The submission that a retry inserts. -/
def retriedRow (db : Database) (original : SubmissionRow) : SubmissionRow :=
  ⟨db.sequences.submissions, original.problemId, original.language, original.sourceCode, "queued",
    none, db.clock, none, original.userId, none, some original.id⟩

/-- The audit row that a retry inserts. -/
def retryAudit (db : Database) (id admin : Int) : AuditRow :=
  ⟨db.sequences.adminAuditLog, admin, "submission.retry", "submission", toString id,
    .object [("retrySubmissionId", .int db.sequences.submissions)], db.clock⟩

/-- A submission that failed, or ended with a runtime error. -/
def SubmissionRow.Retryable (r : SubmissionRow) : Prop :=
  r.status = "failed" ∨ r.verdict = some "Runtime Error"

/-- **What a retry plans**: nothing, or a copy of a retryable submission that has not been retried, with
    its audit row. -/
theorem plan_retry (id maximum maximumPerUser admin : Int) :
    (LockedStatement.retrySubmission id maximum maximumPerUser admin).plan l db
        = (db, .ok (.empty, [])) ∨
      ∃ original ∈ db.submissions, original.id = id ∧ original.Retryable ∧
        (∀ r ∈ db.submissions, r.retryOf ≠ some id) ∧
        db.admits original.userId maximum maximumPerUser = true ∧
        (LockedStatement.retrySubmission id maximum maximumPerUser admin).plan l db
          = (db.nextSubmissionId.nextAuditId,
            db.planInsert (retriedRow db original) (some (retryAudit db id admin))) := by
  simp only [LockedStatement.plan]
  split
  · rename_i original rest hselect
    have hmem : original ∈ db.submissions.select (fun r => r.id == id
        && (r.status == "failed" || r.verdict == some "Runtime Error")) :=
      hselect ▸ List.mem_cons_self
    obtain ⟨hmem, hretryable⟩ := Table.mem_select.mp hmem
    simp only [Bool.and_eq_true, beq_iff_eq, Bool.or_eq_true] at hretryable
    split
    · rename_i hroom
      refine Or.inr ⟨original, hmem, hretryable.1, hretryable.2, ?_, hroom.2, rfl⟩
      intro r hr hof
      simpa [hof] using Table.count_eq_zero.mp hroom.1 r hr
    · exact Or.inl rfl
  · exact Or.inl rfl

/-- On checked rows, a locked statement breaks no `CHECK` constraint. -/
theorem plan_not_check (hdb : db.Checked) : (s.plan l db).2 ≠ .error .checkViolation := by
  cases s with
  | insertSubmission =>
      simp only [LockedStatement.plan]
      split
      · dsimp only
        exact planInsert_not_check (check_queued rfl rfl rfl)
      · simp
  | claimSubmission =>
      simp only [LockedStatement.plan]
      split
      · rename_i r hr
        obtain ⟨hr, hqueued, -⟩ := candidate_some hr
        rw [if_pos (SubmissionRow.check_claimed (hdb r hr) hqueued)]
        simp
      · simp
  | retrySubmission =>
      simp only [LockedStatement.plan]
      split
      · split
        · dsimp only
          exact planInsert_not_check (check_queued rfl rfl rfl)
        · simp
      · simp

/-- A claim, in full: it takes the candidate if there is one. -/
theorem plan_claim (hdb : db.Checked) (limit : Int) :
    (LockedStatement.claimSubmission limit).plan l db = (db, .ok (match db.candidate limit l with
      | some r => (⟨none, some (claimedRow r), none⟩, [claimedRow r])
      | none => (.empty, []))) := by
  simp only [LockedStatement.plan]
  cases hr : db.candidate limit l with
  | none => rfl
  | some r =>
      obtain ⟨hmem, hqueued, -⟩ := candidate_some hr
      exact if_pos (SubmissionRow.check_claimed (hdb r hmem) hqueued)

end plans

/-! ## Commits -/

section commits
variable {db : Database} {e : Changes}

/-- A row after a commit was there, or was inserted, or replaces a row with its id. -/
theorem mem_apply {x : SubmissionRow} (h : x ∈ (e.apply db).submissions) :
    x ∈ db.submissions ∨ e.inserted = some x ∨ e.updated = some x := by
  obtain ⟨i, u, a⟩ := e
  simp only [Changes.apply] at h
  have hins : ∀ y, y ∈ i.elim db.submissions db.submissions.insert →
      y ∈ db.submissions ∨ i = some y := by
    intro y hy
    cases i with
    | none => exact Or.inl hy
    | some r =>
        rcases Table.mem_insert.mp hy with hy | ⟨rfl, -⟩
        · exact Or.inl hy
        · exact Or.inr rfl
  cases u with
  | none => exact (hins x h).imp_right Or.inl
  | some r =>
      rcases Table.mem_put.mp h with ⟨hx, -⟩ | ⟨rfl, -⟩
      · exact (hins x hx).imp_right Or.inl
      · exact Or.inr (Or.inr rfl)

/-- A row survives a commit, as it is or as its replacement. -/
theorem apply_mem {r : SubmissionRow} (h : r ∈ db.submissions) :
    ∃ r' ∈ (e.apply db).submissions, r' = r ∨ (e.updated = some r' ∧ r'.id = r.id) := by
  obtain ⟨i, u, a⟩ := e
  have hins : r ∈ i.elim db.submissions db.submissions.insert := by
    cases i with
    | none => exact h
    | some x => exact Table.mem_insert_of_mem h
  cases u with
  | none => exact ⟨r, hins, Or.inl rfl⟩
  | some x =>
      by_cases hk : r.id = x.id
      · exact ⟨x, Table.mem_put.mpr (Or.inr ⟨rfl, r, hins, hk⟩), Or.inr ⟨rfl, hk.symm⟩⟩
      · exact ⟨r, Table.mem_put.mpr (Or.inl ⟨hins, hk⟩), Or.inl rfl⟩

end commits

theorem Database.Checked.of_eq {db db' : Database} (hdb : db.Checked)
    (h : db'.submissions = db.submissions) : db'.Checked := fun r hr => hdb r (h ▸ hr)

theorem Database.Checked.commit {l : Int → Bool} {db : Database} {s : LockedStatement}
    {e : Changes} {rows : List SubmissionRow} (hdb : db.Checked) (h : Planned l db s e rows) :
    (e.apply db).Checked := by
  intro r hr
  rcases mem_apply hr with hr | hins | hupd
  · exact hdb r hr
  · cases h with
    | nothing => cases hins
    | admitted hadm => cases hins; exact hadm.check
    | claimed => cases hins
  · cases h with
    | nothing => cases hupd
    | admitted => cases hupd
    | claimed hx =>
        cases hupd
        obtain ⟨hmem, hqueued, -⟩ := candidate_some hx
        exact SubmissionRow.check_claimed (hdb _ hmem) hqueued

end AlgorithmTrainer
