import Mathlib.Data.String.Basic
import AlgorithmTrainer.Database.Queue
import AlgorithmTrainer.Lib.Correspondence
import AlgorithmTrainer.Sqlite.Repository

/-!
# `Sqlite.Correspondence` — the queue in PostgreSQL and in SQLite

Both tables of submissions hold their rows in the order of their ids, so the ids correspond by position:
`idPairs`. Corresponding rows agree up to their timestamps and up to `idPairs`. `Same` is the relation
of the simulation: corresponding rows, and what makes new ids and new timestamps the latest ones.
-/

namespace AlgorithmTrainer

open Relational

/-! ## Corresponding ids -/

/-- The ids of the submissions, paired by position. -/
def idPairs (pg : Database) (sq : SqliteDatabase) : List (Int × Int) :=
  (pg.submissions.rows.map (·.id)).zip (sq.submissions.rows.map (·.id))

/-- The pairs ascend on both sides: they are an order-preserving bijection. -/
def OrderPreserving (pairs : List (Int × Int)) : Prop :=
  pairs.Pairwise fun a b => a.1 < b.1 ∧ a.2 < b.2

/-- The ids name corresponding submissions, or neither of them names one. -/
def SameId (pairs : List (Int × Int)) (i j : Int) : Prop :=
  (i, j) ∈ pairs ∨ (∀ x ∈ pairs, x.1 ≠ i) ∧ ∀ x ∈ pairs, x.2 ≠ j

section ids
variable {pairs : List (Int × Int)} {i j i' j' : Int}

theorem OrderPreserving.fst_eq_iff (h : OrderPreserving pairs) (hp : (i, j) ∈ pairs)
    (hp' : (i', j') ∈ pairs) : i = i' ↔ j = j' := by
  rcases List.pairwise_iff_getElem.mp h with hlt
  obtain ⟨n, hn, hpn⟩ := List.getElem_of_mem hp
  obtain ⟨m, hm, hpm⟩ := List.getElem_of_mem hp'
  rcases Nat.lt_trichotomy n m with hnm | rfl | hnm
  · have := hlt n m hn hm hnm
    rw [hpn, hpm] at this
    exact ⟨fun he => absurd he (Int.ne_of_lt this.1), fun he => absurd he (Int.ne_of_lt this.2)⟩
  · rw [hpn] at hpm
    cases hpm
    exact ⟨fun _ => rfl, fun _ => rfl⟩
  · have := hlt m n hm hn hnm
    rw [hpn, hpm] at this
    exact ⟨fun he => absurd he.symm (Int.ne_of_lt this.1),
      fun he => absurd he.symm (Int.ne_of_lt this.2)⟩

/-- Corresponding submissions have corresponding ids, or neither has. -/
theorem SameId.beq_eq (h : SameId pairs i j) (hpairs : OrderPreserving pairs)
    (hp : (i', j') ∈ pairs) : (i' == i) = (j' == j) := by
  rw [Bool.eq_iff_iff, beq_iff_eq, beq_iff_eq]
  rcases h with h | ⟨hi, hj⟩
  · exact hpairs.fst_eq_iff hp h
  · exact ⟨fun he => absurd he (hi _ hp), fun he => absurd he (hj _ hp)⟩

end ids

/-! ## Corresponding rows -/

/-- Both are absent, or both are there and correspond. -/
def SameRetry (pairs : List (Int × Int)) : Option Int → Option Int → Prop
  | none, none => True
  | some i, some j => (i, j) ∈ pairs
  | _, _ => False

/-- The submissions agree, up to ids and timestamps. -/
structure SameRow (pairs : List (Int × Int)) (r : SubmissionRow) (s : SqliteSubmissionRow) : Prop where
  id : (r.id, s.id) ∈ pairs
  problemId : s.problemId = r.problemId
  language : s.language = r.language
  sourceCode : s.sourceCode = r.sourceCode
  status : s.status = r.status
  verdict : s.verdict = r.verdict
  completedAt : s.completedAt.isSome = r.completedAt.isSome
  userId : s.userId = r.userId
  errorType : s.errorType = r.errorType
  retryOf : SameRetry pairs r.retryOf s.retryOf

/-- The audit rows of retries agree, up to ids and timestamps. -/
structure SameAudit (pairs : List (Int × Int)) (a : AuditRow) (b : SqliteAuditRow) : Prop where
  adminUserId : b.adminUserId = a.adminUserId
  action : b.action = a.action
  entityType : b.entityType = a.entityType
  entityId : ∃ x ∈ pairs, a.entityId = toString x.1 ∧ b.entityId = toString x.2
  details : ∃ x ∈ pairs, a.detailsJson = .object [("retrySubmissionId", .int x.1)] ∧
    b.detailsJson = SQLiteSubmissionRepository.retryDetails x.2

/-- The records agree, up to ids and timestamps. -/
structure SameRecord (pairs : List (Int × Int)) (x y : SubmissionRecord) : Prop where
  id : (x.id, y.id) ∈ pairs
  problemId : y.problemId = x.problemId
  language : y.language = x.language
  sourceCode : y.sourceCode = x.sourceCode
  status : y.status = x.status
  verdict : y.verdict = x.verdict
  completedAt : y.completedAt.isSome = x.completedAt.isSome
  userId : y.userId = x.userId
  errorType : y.errorType = x.errorType
  retryOf : SameRetry pairs x.retryOf y.retryOf

/-- Both calls succeed with related results, or both fail with the same code. -/
inductive SameResult {α β : Type} (R : α → β → Prop) :
    Except RepositoryError α → Except RepositoryError β → Prop where
  | ok {a : α} {b : β} (h : R a b) : SameResult R (.ok a) (.ok b)
  | error {e e' : RepositoryError} (h : e'.code = e.code) : SameResult R (.error e) (.error e')

/-- Both are absent, or both are there and related. -/
inductive SameOption {α β : Type} (R : α → β → Prop) : Option α → Option β → Prop where
  | none : SameOption R none none
  | some {a : α} {b : β} (h : R a b) : SameOption R (some a) (some b)

section rows
variable {pairs pairs' : List (Int × Int)} {r : SubmissionRow} {s : SqliteSubmissionRow}

theorem SameRetry.mono {i j : Option Int} (h : SameRetry pairs i j)
    (hpairs : ∀ x ∈ pairs, x ∈ pairs') : SameRetry pairs' i j := by
  cases i <;> cases j <;> first | exact h | exact hpairs _ h

theorem SameRow.mono (h : SameRow pairs r s) (hpairs : ∀ x ∈ pairs, x ∈ pairs') :
    SameRow pairs' r s :=
  { h with id := hpairs _ h.id, retryOf := h.retryOf.mono hpairs }

theorem SameRecord.mono {x y : SubmissionRecord} (h : SameRecord pairs x y)
    (hpairs : ∀ x ∈ pairs, x ∈ pairs') : SameRecord pairs' x y :=
  { h with id := hpairs _ h.id, retryOf := h.retryOf.mono hpairs }

theorem SameAudit.mono {a : AuditRow} {b : SqliteAuditRow} (h : SameAudit pairs a b)
    (hpairs : ∀ x ∈ pairs, x ∈ pairs') : SameAudit pairs' a b :=
  { h with
    entityId := h.entityId.imp fun _ hx => ⟨hpairs _ hx.1, hx.2⟩
    details := h.details.imp fun _ hx => ⟨hpairs _ hx.1, hx.2⟩ }

theorem SameRow.check_eq (h : SameRow pairs r s) : s.check = r.check := by
  unfold SqliteSubmissionRow.check SubmissionRow.check
  have hnone : s.completedAt.isNone = r.completedAt.isNone := by
    rw [← Option.not_isSome, ← Option.not_isSome, h.completedAt]
  cases hverdict : r.verdict with
  | none => simp only [h.status, h.verdict, h.completedAt, hnone, hverdict]
  | some v => simp only [h.status, h.verdict, h.completedAt, hnone, hverdict]

theorem SameRow.active_eq (h : SameRow pairs r s) : s.active = r.active := by
  unfold SqliteSubmissionRow.active SubmissionRow.active
  rw [h.status]

/-- Corresponding rows read back as corresponding records. -/
theorem SameRow.record (h : SameRow pairs r s) (P : Platform) :
    SameResult (SameRecord pairs) (PostgreSQLSubmissionRepository.record P r)
      (SQLiteSubmissionRepository.readRecord s) := by
  unfold PostgreSQLSubmissionRepository.record SQLiteSubmissionRepository.readRecord
    SQLiteSubmissionRepository.parseStatus SQLiteSubmissionRepository.parseVerdict
  rw [h.status, h.verdict]
  have hcompleted : s.completedAt.isSome = (r.completedAt.map P.printTimestamp).isSome := by
    rw [Option.isSome_map, h.completedAt]
  cases PostgreSQLSubmissionRepository.status r.status with
  | none => exact .error rfl
  | some parsedStatus =>
      cases r.verdict with
      | none =>
          exact .ok ⟨h.id, h.problemId, h.language, h.sourceCode, rfl, rfl, hcompleted, h.userId,
            h.errorType, h.retryOf⟩
      | some value =>
          dsimp only
          cases PostgreSQLSubmissionRepository.verdict value with
          | none => exact .error rfl
          | some parsedVerdict =>
              exact .ok ⟨h.id, h.problemId, h.language, h.sourceCode, rfl, rfl, hcompleted, h.userId,
                h.errorType, h.retryOf⟩

end rows

/-! ## Corresponding databases -/

/-- A later time is not printed as an earlier text. -/
def Chronological (strftime : Timestamp → String) : Prop :=
  ∀ t t', t ≤ t' → ¬ strftime t' < strftime t

/-- **The relation of the simulation.** The rows of both tables correspond, the users are the same, and the
    submissions stand in the order in which they were created. -/
structure Same (strftime : Timestamp → String) (pairs : List (Int × Int)) (pg : Database)
    (sq : SqliteDatabase) (clock : Timestamp) : Prop where
  ids : idPairs pg sq = pairs
  submissions : Table.Corresponds (SameRow pairs) pg.submissions sq.submissions
  audits : Table.Corresponds (SameAudit pairs) pg.adminAuditLog sq.adminAuditLog
  users : ∀ id, pg.hasUser id = sq.userIds.contains id
  checked : pg.Checked
  pgOrder : pg.submissions.rows.Pairwise fun a b => a.id < b.id ∧ a.createdAt ≤ b.createdAt
  sqOrder : sq.submissions.rows.Pairwise fun a b => a.id < b.id ∧ ¬ b.createdAt < a.createdAt
  pgNext : ∀ r ∈ pg.submissions, r.id < pg.sequences.submissions ∧ r.createdAt ≤ pg.clock
  sqNext : ∀ s ∈ sq.submissions, s.id < sq.nextSubmission ∧ ¬ strftime clock < s.createdAt
  pgAudit : ∀ a ∈ pg.adminAuditLog, a.id < pg.sequences.adminAuditLog
  sqAudit : ∀ b ∈ sq.adminAuditLog, b.id < sq.nextAudit

section same
variable {strftime : Timestamp → String} {pairs : List (Int × Int)} {pg : Database}
  {sq : SqliteDatabase} {clock : Timestamp}

theorem Same.orderPreserving (h : Same strftime pairs pg sq clock) : OrderPreserving pairs := by
  have hlength := h.submissions.length_eq
  rw [← h.ids]
  refine List.pairwise_iff_getElem.mpr fun n m hn hm hlt => ?_
  simp only [idPairs, List.getElem_zip, List.getElem_map]
  exact ⟨(List.pairwise_iff_getElem.mp h.pgOrder n m _ _ hlt).1,
    (List.pairwise_iff_getElem.mp h.sqOrder n m _ _ hlt).1⟩

/-! ### Counts -/

theorem Same.active_eq (h : Same strftime pairs pg sq clock) : sq.active = pg.active :=
  (h.submissions.count fun _ _ hrow => hrow.active_eq.symm).symm

theorem Same.activeOf_eq (h : Same strftime pairs pg sq clock) (user : Option Int) :
    sq.activeOf user = pg.activeOf user := by
  refine (h.submissions.count fun _ _ hrow => ?_).symm
  rw [hrow.active_eq, hrow.userId]

theorem Same.runningOf_eq (h : Same strftime pairs pg sq clock) (user : Option Int) :
    sq.runningOf user = pg.runningOf user := by
  refine (h.submissions.count fun _ _ hrow => ?_).symm
  rw [hrow.status, hrow.userId]

theorem Same.admits_eq (h : Same strftime pairs pg sq clock) (user : Option Int)
    (maximum maximumPerUser : Int) :
    sq.admits user maximum maximumPerUser = pg.admits user maximum maximumPerUser := by
  unfold SqliteDatabase.admits Database.admits
  rw [h.active_eq, h.activeOf_eq]

/-! ### Time and drawn ids -/

/-- Ids that are drawn in vain, and time that passes, change nothing. -/
theorem Same.draw (h : Same strftime pairs pg sq clock) {sequences : Sequences}
    (hsubmissions : pg.sequences.submissions ≤ sequences.submissions)
    (haudit : pg.sequences.adminAuditLog ≤ sequences.adminAuditLog) :
    Same strftime pairs { pg with sequences } sq clock :=
  { h with
    pgNext := fun r hr => ⟨Int.lt_of_lt_of_le (h.pgNext r hr).1 hsubmissions, (h.pgNext r hr).2⟩
    pgAudit := fun a ha => Int.lt_of_lt_of_le (h.pgAudit a ha) haudit }

theorem Same.pass (h : Same strftime pairs pg sq clock) (hstrftime : Chronological strftime)
    (elapsed elapsed' : Nat) :
    Same strftime pairs { pg with clock := pg.clock + elapsed } sq (clock + elapsed') :=
  { h with
    pgNext := fun r hr => ⟨(h.pgNext r hr).1, Int.le_trans (h.pgNext r hr).2 (by simp)⟩
    sqNext := fun s hs => by
      refine ⟨(h.sqNext s hs).1, fun hlt => ?_⟩
      have hlater : ¬ strftime (clock + elapsed') < strftime clock := hstrftime _ _ (by simp)
      exact (h.sqNext s hs).2 (lt_of_le_of_lt (not_lt.mp hlater) hlt) }

/-! ### Updates -/

section update
variable {p : SubmissionRow → Bool} {f : SubmissionRow → SubmissionRow}
  {hf : ∀ r, p r = true → (f r).id = r.id} {q : SqliteSubmissionRow → Bool}
  {g : SqliteSubmissionRow → SqliteSubmissionRow} {hg : ∀ s, q s = true → (g s).id = s.id}

/-- Updates of corresponding rows to corresponding rows. -/
theorem Same.update (h : Same strftime pairs pg sq clock)
    (hpq : ∀ r s, SameRow pairs r s → r ∈ pg.submissions → s ∈ sq.submissions → p r = q s)
    (hfg : ∀ r s, SameRow pairs r s → p r = true → SameRow pairs (f r) (g s))
    (hf' : ∀ r, p r = true → (f r).createdAt = r.createdAt)
    (hg' : ∀ s, q s = true → (g s).createdAt = s.createdAt)
    (hcheck : ∀ r ∈ pg.submissions, p r = true → (f r).check = true) :
    Same strftime pairs { pg with submissions := pg.submissions.update p f hf }
      { sq with submissions := sq.submissions.update q g hg } clock where
  ids := by
    have hpg : (pg.submissions.update p f hf).rows.map SubmissionRow.id =
        pg.submissions.rows.map SubmissionRow.id := Table.map_key_update
    have hsq : (sq.submissions.update q g hg).rows.map SqliteSubmissionRow.id =
        sq.submissions.rows.map SqliteSubmissionRow.id := Table.map_key_update
    rw [← h.ids]
    unfold idPairs
    rw [hpg, hsq]
  submissions := @Table.Corresponds.update SubmissionRow SqliteSubmissionRow Int Int _ _ _
    (SameRow pairs) pg.submissions sq.submissions p q f g hf hg h.submissions.mem
    (fun r s hrow => hpq r s hrow.1 hrow.2.1 hrow.2.2) (fun r s hrow hp => hfg r s hrow.1 hp)
    fun r s hrow _ => hrow.1
  audits := h.audits
  users := h.users
  checked := h.checked.update hcheck
  pgOrder := by
    refine List.pairwise_map.mpr (h.pgOrder.imp fun {a b} hab => ?_)
    have hkeep : ∀ r : SubmissionRow, (if p r = true then f r else r).id = r.id ∧
        (if p r = true then f r else r).createdAt = r.createdAt := fun r => by
      split
      · rename_i hp
        exact ⟨hf r hp, hf' r hp⟩
      · exact ⟨rfl, rfl⟩
    rw [(hkeep a).1, (hkeep a).2, (hkeep b).1, (hkeep b).2]
    exact hab
  sqOrder := by
    refine List.pairwise_map.mpr (h.sqOrder.imp fun {a b} hab => ?_)
    have hkeep : ∀ s : SqliteSubmissionRow, (if q s = true then g s else s).id = s.id ∧
        (if q s = true then g s else s).createdAt = s.createdAt := fun s => by
      split
      · rename_i hq
        exact ⟨hg s hq, hg' s hq⟩
      · exact ⟨rfl, rfl⟩
    rw [(hkeep a).1, (hkeep a).2, (hkeep b).1, (hkeep b).2]
    exact hab
  pgNext r hr := by
    obtain ⟨x, hx, rfl⟩ := (Table.mem_update hf).mp hr
    split
    · rename_i hp
      rw [hf x hp, hf' x hp]
      exact h.pgNext x hx
    · exact h.pgNext x hx
  sqNext s hs := by
    obtain ⟨x, hx, rfl⟩ := (Table.mem_update hg).mp hs
    split
    · rename_i hq
      rw [hg x hq, hg' x hq]
      exact h.sqNext x hx
    · exact h.sqNext x hx
  pgAudit := h.pgAudit
  sqAudit := h.sqAudit

/-- The rows that such updates return correspond. -/
theorem Same.updated (h : Same strftime pairs pg sq clock)
    (hpq : ∀ r s, SameRow pairs r s → r ∈ pg.submissions → s ∈ sq.submissions → p r = q s)
    (hfg : ∀ r s, SameRow pairs r s → p r = true → SameRow pairs (f r) (g s)) :
    List.Forall₂ (SameRow pairs) ((pg.submissions.select p).map f)
      ((sq.submissions.select q).map g) := by
  have hselect := h.submissions.mem.select fun r s hrow => hpq r s hrow.1 hrow.2.1 hrow.2.2
  rw [List.forall₂_map_left_iff, List.forall₂_map_right_iff]
  refine (forall₂_mem hselect).imp fun r s hrow => ?_
  exact hfg r s hrow.1.1 (Table.mem_select.mp hrow.2.1).2

/-- SQLite checks the new rows as PostgreSQL does. -/
theorem Same.updateSubmissions_eq (h : Same strftime pairs pg sq clock)
    (hpq : ∀ r s, SameRow pairs r s → r ∈ pg.submissions → s ∈ sq.submissions → p r = q s)
    (hfg : ∀ r s, SameRow pairs r s → p r = true → SameRow pairs (f r) (g s))
    (hcheck : ∀ r ∈ pg.submissions, p r = true → (f r).check = true) :
    sq.updateSubmissions q g hg = some ((sq.submissions.select q).map g,
      { sq with submissions := sq.submissions.update q g hg }) := by
  unfold SqliteDatabase.updateSubmissions
  rw [if_pos]
  rw [List.all_map, List.all_eq_true]
  intro s hs
  obtain ⟨hs, hq⟩ := Table.mem_select.mp hs
  obtain ⟨r, hr, hrow, -⟩ := h.submissions.mem.exists_left hs
  have hp : p r = true := (hpq r s hrow hr hs).trans hq
  exact (hfg r s hrow hp).check_eq.trans (hcheck r hr hp)

end update

/-! ### Insertions -/

/-- The next submission is inserted on both sides. -/
theorem Same.insert (h : Same strftime pairs pg sq clock) {r : SubmissionRow} {s : SqliteSubmissionRow}
    (hid : r.id = pg.sequences.submissions) (hid' : s.id = sq.nextSubmission)
    (hcreated : r.createdAt = pg.clock) (hcreated' : s.createdAt = strftime clock)
    (hstrftime : Chronological strftime) (hcheck : r.check = true)
    (hrow : SameRow (pairs ++ [(r.id, s.id)]) r s) :
    Same strftime (pairs ++ [(r.id, s.id)])
      { pg.nextSubmissionId with submissions := pg.submissions.insert r }
      { sq with submissions := sq.submissions.insert s, nextSubmission := sq.nextSubmission + 1 }
      clock := by
  have hnew : ∀ x ∈ pg.submissions, x.id ≠ r.id := fun x hx =>
    hid ▸ Int.ne_of_lt (h.pgNext x hx).1
  have hnew' : ∀ y ∈ sq.submissions, y.id ≠ s.id := fun y hy =>
    hid' ▸ Int.ne_of_lt (h.sqNext y hy).1
  have hmono : ∀ x ∈ pairs, x ∈ pairs ++ [(r.id, s.id)] := fun x hx => List.mem_append_left _ hx
  have hpg : (pg.submissions.insert r).rows = pg.submissions.rows ++ [r] := Table.rows_insert hnew
  have hsq : (sq.submissions.insert s).rows = sq.submissions.rows ++ [s] := Table.rows_insert hnew'
  constructor
  · rw [← h.ids]
    unfold idPairs
    rw [hpg, hsq, List.map_append, List.map_append, List.zip_append]
    · rfl
    · rw [List.length_map, List.length_map, h.submissions.length_eq]
  · exact h.submissions.insert hnew hnew' (fun x y hxy => hxy.mono hmono) hrow
  · exact h.audits.mono fun a b hab => hab.mono hmono
  · exact h.users
  · intro x hx
    rcases Table.mem_insert.mp hx with hx | ⟨rfl, -⟩
    · exact h.checked x hx
    · exact hcheck
  · simp only [hpg]
    refine List.pairwise_append.mpr ⟨h.pgOrder, List.pairwise_singleton _ _, fun x hx y hy => ?_⟩
    obtain rfl := List.mem_singleton.mp hy
    rw [hid, hcreated]
    exact h.pgNext x hx
  · simp only [hsq]
    refine List.pairwise_append.mpr ⟨h.sqOrder, List.pairwise_singleton _ _, fun x hx y hy => ?_⟩
    obtain rfl := List.mem_singleton.mp hy
    rw [hid', hcreated']
    exact h.sqNext x hx
  · intro x hx
    rcases Table.mem_insert.mp hx with hx | ⟨rfl, -⟩
    · exact ⟨Int.lt_trans (h.pgNext x hx).1 (Int.lt_succ _), (h.pgNext x hx).2⟩
    · rw [hid, hcreated]
      exact ⟨Int.lt_succ _, Int.le_refl _⟩
  · intro y hy
    rcases Table.mem_insert.mp hy with hy | ⟨rfl, -⟩
    · exact ⟨Int.lt_trans (h.sqNext y hy).1 (Int.lt_succ _), (h.sqNext y hy).2⟩
    · rw [hid', hcreated']
      exact ⟨Int.lt_succ _, hstrftime _ _ (Int.le_refl _)⟩
  · exact h.pgAudit
  · exact h.sqAudit

/-- The next audit row is inserted on both sides. -/
theorem Same.audit (h : Same strftime pairs pg sq clock) {a : AuditRow} {b : SqliteAuditRow}
    (hid : a.id = pg.sequences.adminAuditLog) (hid' : b.id = sq.nextAudit)
    (hrow : SameAudit pairs a b) :
    Same strftime pairs { pg.nextAuditId with adminAuditLog := pg.adminAuditLog.insert a }
      { sq with adminAuditLog := sq.adminAuditLog.insert b, nextAudit := sq.nextAudit + 1 }
      clock :=
  have hnew : ∀ x ∈ pg.adminAuditLog, x.id ≠ a.id := fun x hx => hid ▸ Int.ne_of_lt (h.pgAudit x hx)
  have hnew' : ∀ y ∈ sq.adminAuditLog, y.id ≠ b.id := fun y hy => hid' ▸ Int.ne_of_lt (h.sqAudit y hy)
  { h with
    audits := h.audits.insert hnew hnew' (fun _ _ hxy => hxy) hrow
    pgAudit := fun x hx => by
      rcases Table.mem_insert.mp hx with hx | ⟨rfl, -⟩
      · exact Int.lt_trans (h.pgAudit x hx) (Int.lt_succ _)
      · exact hid ▸ Int.lt_succ _
    sqAudit := fun y hy => by
      rcases Table.mem_insert.mp hy with hy | ⟨rfl, -⟩
      · exact Int.lt_trans (h.sqAudit y hy) (Int.lt_succ _)
      · exact hid' ▸ Int.lt_succ _ }

end same

end AlgorithmTrainer
