import AlgorithmTrainer.Lib.Locking
import AlgorithmTrainer.Submission.Lifecycle

/-!
# `Submission.Admission` — the queue limits under concurrent transactions

`execute_locked` in separate steps: any number of sessions, each the connection of a repository
instance, issue what the queue operations send (`LockedCall`, `PlainCall`), and the steps of their
transactions interleave as `Locking.Step` permits. A session here issues the statements of its calls in
any order, so every order in which the operations can send them is among the runs.

What makes the limits hold is that `create` and `retry` count and insert under one advisory lock, and
that nothing else makes a row active.
-/

namespace AlgorithmTrainer

open Interaction Transition Relational Locking PostgreSQLSubmissionRepository

/-- An act of a session outside a transaction: a statement by itself, or the passing of time. -/
inductive QueueAct where
  | execute (s : Statement)
  | pass (elapsed : Nat)

/-- How the server evaluates, commits and executes the statements of the queue. -/
def queueEngine (P : Platform) : Engine Database Choice LockedStatement QueueAct Changes where
  evaluate s c db := ((s.plan c.lockedRows db).1, match (s.plan c.lockedRows db).2 with
    | .ok (e, _) => some e
    | .error _ => none)
  commit := Changes.apply
  execute
    | .execute s, c, db => (s.exec P c.message db).1
    | .pass elapsed, _, db => { db with clock := db.clock + elapsed }

section calls
variable (P : Platform) (L : Set PostgreSQLRepositoryLimits)

/-- A queue operation of a repository with limits in `L` sends this statement under this lock. -/
def LockedCall (lock : Int) (s : LockedStatement) : Prop :=
  ∃ limits ∈ L, ∃ c : QueueCall,
    Program.Asks (S := Backend) (.executeLocked lock s) (c.program P limits)

/-- A queue operation sends this statement by itself; time passes in any case. -/
def PlainCall : QueueAct → Prop
  | .execute s => ∃ limits ∈ L, ∃ c : QueueCall,
      Program.Asks (S := Backend) (.execute s) (c.program P limits)
  | .pass _ => True

/-- The database and the transactions of any number of sessions. -/
abbrev QueueSystem (ι : Type) := System ι Database Int LockedStatement Changes

abbrev TransactionStep {ι : Type} [DecidableEq ι] :=
  Locking.Step (ι := ι) (queueEngine P) (LockedCall P L) (PlainCall P L)

end calls

section facts
variable {P : Platform} {L : Set PostgreSQLRepositoryLimits}

/-- What is sent under a lock: an admission under the one, a claim under the other. -/
theorem LockedCall.cases {lock : Int} {s : LockedStatement} (h : LockedCall P L lock s) :
    ∃ limits ∈ L,
      (lock = admissionLock ∧ s.admission = some ((limits.maximumActiveSubmissions : Int),
          (limits.maximumActiveSubmissionsPerUser : Int))) ∨
      (lock = claimLock ∧ s = .claimSubmission limits.maximumRunningSubmissionsPerUser) := by
  obtain ⟨limits, hL, c, hc⟩ := h
  refine ⟨limits, hL, ?_⟩
  have hissued := (c.program_follows P limits).asks hc
  cases hissued with
  | create => exact Or.inl ⟨rfl, rfl⟩
  | claimNext => exact Or.inr ⟨rfl, rfl⟩
  | retry => exact Or.inl ⟨rfl, rfl⟩

/-- The update takes running rows only, and takes them out of `running`. -/
structure Settles (p : SubmissionRow → Bool) (f : SubmissionRow → SubmissionRow) : Prop where
  running : ∀ r, p r = true → r.status = "running"
  settled : ∀ r, p r = true → (f r).status ≠ "running"
  userId : ∀ r, p r = true → (f r).userId = r.userId

theorem settles_completed (id : Int) (v : String) (e : Option String) (t : Timestamp) :
    Settles (runningRow id) (completedRow v e t) :=
  ⟨fun _ h => (runningRow_iff.mp h).2, fun _ _ => by simp [completedRow], fun _ _ => rfl⟩

theorem settles_failed (id : Int) (e : Option String) (t : Timestamp) :
    Settles (runningRow id) (failedRow e t) :=
  ⟨fun _ h => (runningRow_iff.mp h).2, fun _ _ => by simp [failedRow], fun _ _ => rfl⟩

theorem settles_recovered : Settles anyRunning recoveredRow :=
  ⟨fun _ h => anyRunning_iff.mp h, fun _ _ => by simp [recoveredRow], fun _ _ => rfl⟩

/-- The submissions of `db'` are those of `db`, or running rows of it were settled, and the settled rows
    pass their constraints. -/
def SettledFrom (db db' : Database) : Prop :=
  db'.submissions = db.submissions ∨ ∃ (p : SubmissionRow → Bool) (f : SubmissionRow → SubmissionRow)
    (hf : ∀ r, p r = true → (f r).id = r.id),
    Settles p f ∧ (∀ r ∈ db.submissions, p r = true → (f r).check = true) ∧
      db'.submissions = db.submissions.update p f hf

theorem Settles.settledFrom {db : Database} {m : String} {p : SubmissionRow → Bool}
    {f : SubmissionRow → SubmissionRow} (hs : Settles p f)
    (hf : ∀ r, p r = true → (f r).id = r.id) :
    SettledFrom db (db.updateSubmissions m p f hf).1 := by
  unfold Database.updateSubmissions
  dsimp only
  split
  · rename_i hcheck
    rw [List.all_map, List.all_eq_true] at hcheck
    exact Or.inr ⟨p, f, hf, hs, fun r hr hp => hcheck r (Table.mem_select.mpr ⟨hr, hp⟩), rfl⟩
  · exact Or.inl rfl

theorem SettledFrom.checked {db db' : Database} (h : SettledFrom db db') (hdb : db.Checked) :
    db'.Checked := by
  rcases h with h | ⟨p, f, hf, -, hcheck, h⟩
  · exact hdb.of_eq h
  · exact (@Database.Checked.update db p f hf hdb hcheck).of_eq h

/-- **What an act outside a transaction does to the submissions**: nothing, or it settles running rows. -/
theorem PlainCall.settledFrom {u : QueueAct} {c : Choice} {db : Database}
    (h : PlainCall P L u) : SettledFrom db ((queueEngine P).execute u c db) := by
  cases u with
  | pass => exact Or.inl rfl
  | execute s =>
      obtain ⟨limits, -, call, hc⟩ := h
      have hissued := (call.program_follows P limits).asks hc
      cases hissued with
      | count => exact Or.inl rfl
      | complete id v e =>
          exact (settles_completed id (text (verdictName v)) (e.map text) db.clock).settledFrom
            fun _ _ => rfl
      | fail id e => exact (settles_failed id (e.map text) db.clock).settledFrom fun _ _ => rfl
      | recoverRunning => exact settles_recovered.settledFrom fun _ _ => rfl

/-! ## Pending writes -/

/-- What a pending write may rely on until its commit: the row it claims is still queued, and a row it
    inserts is a new submission. -/
structure Pending (e : Changes) (db : Database) : Prop where
  claimed : ∀ r, e.updated = some r →
    ∃ x ∈ db.submissions, x.status = "queued" ∧ r = claimedRow x
  inserted : ∀ r, e.inserted = some r → r.status = "queued" ∧ r.check = true

theorem evaluate_planned {s : LockedStatement} {c : Choice} {db db' : Database} {e : Changes}
    (h : (queueEngine P).evaluate s c db = (db', some e)) :
    db'.submissions = db.submissions ∧ ∃ rows, Planned c.lockedRows db s e rows := by
  obtain ⟨rfl, ho⟩ := Prod.mk.inj h
  refine ⟨plan_submissions, ?_⟩
  split at ho
  · rename_i e' rows hplan
    cases ho
    exact ⟨rows, plan_ok hplan⟩
  · cases ho

theorem Pending.of_planned {l : Int → Bool} {db db' : Database} {s : LockedStatement} {e : Changes}
    {rows : List SubmissionRow} (h : Planned l db s e rows)
    (hdb : db'.submissions = db.submissions) : Pending e db' := by
  have habsurd : ∀ {p : Prop} {r : SubmissionRow}, none = some r → p :=
    fun hr => (Option.some_ne_none _ hr.symm).elim
  cases h with
  | nothing => exact ⟨fun _ => habsurd, fun _ => habsurd⟩
  | admitted hadm =>
      refine ⟨fun _ => habsurd, fun r hr => ?_⟩
      cases hr
      exact ⟨hadm.queued, hadm.check⟩
  | @claimed limit x hx =>
      refine ⟨fun r hr => ?_, fun _ => habsurd⟩
      cases hr
      obtain ⟨hmem, hqueued, -⟩ := candidate_some hx
      exact ⟨x, hdb ▸ hmem, hqueued, rfl⟩

/-- Pending writes stay meaningful while the queued rows stay. -/
theorem Pending.mono {e : Changes} {db db' : Database} (h : Pending e db)
    (hqueued : ∀ x ∈ db.submissions, x.status = "queued" → x ∈ db'.submissions) : Pending e db' :=
  ⟨fun r hr => (h.claimed r hr).imp fun x hx => ⟨hqueued x hx.1 hx.2.1, hx.2⟩, h.inserted⟩

/-- What was evaluated under a lock: an admission inserts under its lock, a claim updates under the
    other. -/
theorem Produced.cases {lock : Int} {e : Changes}
    (h : Produced (queueEngine P) (LockedCall P L) lock e) :
    (lock = admissionLock ∧ e.updated = none) ∨ (lock = claimLock ∧ e.inserted = none) := by
  obtain ⟨s, c, db, db', hcall, hev⟩ := h
  obtain ⟨-, rows, hplanned⟩ := evaluate_planned hev
  obtain ⟨limits, -, ⟨rfl, hs⟩ | ⟨rfl, rfl⟩⟩ := hcall.cases
  · refine Or.inl ⟨rfl, ?_⟩
    cases hplanned with
    | nothing => rfl
    | admitted => rfl
    | claimed => cases hs
  · refine Or.inr ⟨rfl, ?_⟩
    cases hplanned with
    | nothing => rfl
    | admitted hadm => obtain ⟨_, _, hnone, -⟩ := hadm.room; cases hnone
    | claimed => rfl

/-- Committing pending writes keeps the constraints. -/
theorem Pending.checked {e : Changes} {db : Database} (h : Pending e db) (hdb : db.Checked) :
    (e.apply db).Checked := by
  intro r hr
  rcases mem_apply hr with hr | hins | hupd
  · exact hdb r hr
  · exact (h.inserted r hins).2
  · obtain ⟨x, hx, hqueued, rfl⟩ := h.claimed r hupd
    exact SubmissionRow.check_claimed (hdb x hx) hqueued

theorem admissionLock_ne_claimLock : admissionLock ≠ claimLock := by decide

/-- Pending writes survive what other sessions do meanwhile: nothing but a claim touches a queued row,
    and claims exclude each other. -/
theorem pending_stable : Stable (queueEngine P) (LockedCall P L) (PlainCall P L) Pending where
  evaluated _ hev := by
    obtain ⟨hdb, rows, hplanned⟩ := evaluate_planned hev
    exact .of_planned hplanned hdb
  evaluate _ hev h := by
    obtain ⟨rfl, -⟩ := Prod.mk.inj hev
    exact h.mono fun x hx _ => by rw [plan_submissions]; exact hx
  execute {u c db e} hu h := by
    refine h.mono fun x hx hqueued => ?_
    rcases (hu.settledFrom : SettledFrom db ((queueEngine P).execute u c db)) with
      hsame | ⟨p, f, hf, hs, -, hupd⟩
    · exact hsame ▸ hx
    · rw [hupd]
      refine Table.mem_update_of_neg hx ?_ hf
      by_contra hp
      have hrunning := hs.running x (by simpa using hp)
      rw [hqueued] at hrunning
      exact absurd hrunning (by decide)
  commit {k k' e e' db} hne hp hp' h h' := by
    rcases Produced.cases hp with ⟨rfl, hnone⟩ | ⟨rfl, hnone⟩
    · exact ⟨fun r hr => (by rw [hnone] at hr; cases hr), h.inserted⟩
    · rcases Produced.cases hp' with ⟨rfl, hnone'⟩ | ⟨rfl, -⟩
      · refine h.mono fun x hx _ => ?_
        obtain ⟨x', hx', hsame | ⟨hupd, -⟩⟩ := apply_mem (e := e') hx
        · exact hsame ▸ hx'
        · rw [hnone'] at hupd; cases hupd
      · exact absurd rfl hne

/-! ## The limits -/

/-- Settling running rows raises no count of a condition that does not need them settled. -/
theorem SettledFrom.count_le {db db' : Database} (h : SettledFrom db db') {q : SubmissionRow → Bool}
    (hq : ∀ r r' : SubmissionRow, r.status = "running" → r'.status ≠ "running" →
      r'.userId = r.userId → q r' = true → q r = true) :
    db'.submissions.count q ≤ db.submissions.count q := by
  rcases h with h | ⟨p, f, hf, hs, -, h⟩
  · rw [h]
  · rw [h]
    exact Table.count_update_le fun r _ hp =>
      hq r (f r) (hs.running r hp) (hs.settled r hp) (hs.userId r hp)

/-- The active rows whose owner is in `b`. -/
def activeIn (b : Option Int → Bool) (r : SubmissionRow) : Bool := r.active && b r.userId

theorem admits_iff {db : Database} {user : Option Int} {maximum maximumPerUser : Nat} :
    db.admits user maximum maximumPerUser = true ↔
      db.active < maximum ∧ db.activeOf user < maximumPerUser := by
  simp [Database.admits]

theorem activeIn_all : activeIn (fun _ => true) = SubmissionRow.active := by
  funext r
  exact Bool.and_true _

/-- What a pending insertion adds to the active rows whose owner is in `b`. -/
def insertedIn (b : Option Int → Bool) (e : Changes) : Nat :=
  if e.inserted.any fun r => b r.userId then 1 else 0

theorem Pending.count_active_le {e : Changes} {db : Database} (h : Pending e db)
    (b : Option Int → Bool) :
    (e.apply db).submissions.count (activeIn b)
      ≤ db.submissions.count (activeIn b) + insertedIn b e := by
  obtain ⟨i, u, a⟩ := e
  have hins : (i.elim db.submissions db.submissions.insert).count (activeIn b)
      ≤ db.submissions.count (activeIn b) + insertedIn b ⟨i, u, a⟩ := by
    cases i with
    | none => exact Nat.le_add_right _ _
    | some r =>
        have hle := Table.count_insert_le db.submissions r (activeIn b)
        simpa [insertedIn, activeIn, SubmissionRow.active, (h.inserted r rfl).1] using hle
  cases u with
  | none => exact hins
  | some r =>
      obtain ⟨x, hx, hqueued, rfl⟩ := h.claimed r rfl
      refine Nat.le_trans (Nat.le_of_eq (Table.count_put_eq fun y hy hk => ?_)) hins
      have hmem : x ∈ i.elim db.submissions db.submissions.insert := by
        cases i with
        | none => exact hx
        | some r' => exact Table.mem_insert_of_mem hx
      obtain rfl := Table.eq_of_key hy hmem hk
      simp [activeIn, SubmissionRow.active, claimedRow, hqueued]

/-- **Admission keeps a bound** on the active rows whose owner is in `b`, if what it checks implies that
    there is room. -/
theorem active_admission {b : Option Int → Bool} {N : Nat}
    (hroom : ∀ limits ∈ L, ∀ (db : Database) user, b user = true →
      db.admits user limits.maximumActiveSubmissions limits.maximumActiveSubmissionsPerUser = true →
      db.submissions.count (activeIn b) < N) :
    Admission (queueEngine P) (LockedCall P L) (PlainCall P L) Pending admissionLock
      (fun db => db.submissions.count (activeIn b)) N (insertedIn b) where
  evaluate_le _ hev := by
    obtain ⟨rfl, -⟩ := Prod.mk.inj hev
    exact Nat.le_of_eq (by rw [plan_submissions])
  execute_le hu := hu.settledFrom.count_le fun r r' hr hr' huser hq => by
    simp_all [activeIn, SubmissionRow.active]
  commit_le h := h.count_active_le b
  checked {s c db db' e} hcall hev hle := by
    obtain ⟨-, rows, hplanned⟩ := evaluate_planned hev
    cases hplanned with
    | nothing => exact hle
    | claimed => exact hle
    | @admitted _ row audited hadm =>
        obtain ⟨maximum, maximumPerUser, hs, hadmits⟩ := hadm.room
        obtain ⟨limits, hL, ⟨-, hs'⟩ | ⟨hlock, -⟩⟩ := hcall.cases
        · rw [hs] at hs'
          cases hs'
          by_cases hb : b row.userId = true
          · have hrise : insertedIn b ⟨some row, none, audited⟩ = 1 := if_pos hb
            rw [hrise]
            exact hroom limits hL db row.userId hb hadmits
          · simpa [insertedIn, hb] using hle
        · exact absurd hlock admissionLock_ne_claimLock
  guarded hne hp := by
    rcases Produced.cases hp with ⟨hlock, -⟩ | ⟨-, hnone⟩
    · exact absurd hlock hne
    · simp [insertedIn, hnone]

end facts

section runs
variable {ι : Type} [DecidableEq ι] {P : Platform} {G U : Nat} {d₀ d : QueueSystem ι}
  {h : List (Label ι Int LockedStatement QueueAct)}

/-- **The queue limits hold in every interleaving.** However the transactions and statements of any number
    of repository instances with the same admission limits interleave, from a database without
    submissions: no more rows are active than the one limit permits, and no more rows of a user, or of
    the anonymous bucket, than the other. -/
theorem queue_limits (hidle : ∀ i, d₀.session i = .idle) (h₀ : d₀.committed.submissions = .empty)
    (hrun : Run (TransactionStep P {l | l.maximumActiveSubmissions = G
      ∧ l.maximumActiveSubmissionsPerUser = U}) d₀ h d) :
    d.committed.active ≤ G ∧ ∀ user, d.committed.activeOf user ≤ U := by
  have hempty : ∀ b, d₀.committed.submissions.count (activeIn b) = 0 := fun b => by
    rw [h₀]; rfl
  refine ⟨?_, fun user => ?_⟩
  · show d.committed.submissions.count SubmissionRow.active ≤ G
    rw [← activeIn_all]
    exact (active_admission (b := fun _ => true) (N := G)
      (by
        rintro limits ⟨rfl, -⟩ db user - hadmits
        rw [activeIn_all]
        exact (admits_iff.mp hadmits).1)).bound pending_stable hidle
          (Nat.le_of_eq (hempty _) |>.trans (Nat.zero_le _)) hrun
  · exact (active_admission (b := (· == user)) (N := U)
      (by
        rintro limits ⟨-, rfl⟩ db user' huser hadmits
        obtain rfl := beq_iff_eq.mp huser
        exact (admits_iff.mp hadmits).2)).bound pending_stable hidle
          (Nat.le_of_eq (hempty _) |>.trans (Nat.zero_le _)) hrun

/-- Sessions that have not begun a transaction, on the migrated tables. -/
def idleSystem (ι : Type) (now : Timestamp) : QueueSystem ι := ⟨.initial now, fun _ => .idle⟩

/-- The migrated tables with one submission. -/
def oneCreated : Database :=
  (QueueLabel.call .unconfigured (.create ⟨"a-plus-b", "python", "pass", none⟩)
    fun _ => .calm).next .plain (.initial 0)

/-- One session can create a submission in a transaction of its own. -/
theorem run_created {L : Set PostgreSQLRepositoryLimits}
    (hL : ({} : PostgreSQLRepositoryLimits) ∈ L) :
    ∃ h d, Run (TransactionStep .plain L) (idleSystem Unit 0) h d ∧ d.committed = oneCreated := by
  have hcall : LockedCall .plain L admissionLock
      (.insertSubmission "a-plus-b" "python" "pass" none 100 5) :=
    ⟨{}, hL, .create ⟨"a-plus-b", "python", "pass", none⟩, .here⟩
  have hfree : ∀ j, ¬ ((idleSystem Unit 0).session j).Holds admissionLock := fun _ => id
  obtain ⟨d, hrun, hd, -⟩ := run_transaction (E := queueEngine .plain) (i := ())
    (c := Choice.calm) rfl hcall hfree rfl
  exact ⟨_, d, hrun, hd⟩

theorem queue_limits_created : ∃ h d, Run (TransactionStep .plain
      {l | l.maximumActiveSubmissions = 100 ∧ l.maximumActiveSubmissionsPerUser = 5})
      (idleSystem Unit 0) h d ∧ d.committed.active = 1 ∧ d.committed.active ≤ 100 := by
  obtain ⟨h, d, hrun, hd⟩ := run_created (L := {l | l.maximumActiveSubmissions = 100
    ∧ l.maximumActiveSubmissionsPerUser = 5}) ⟨rfl, rfl⟩
  exact ⟨h, d, hrun, by rw [hd]; decide, (queue_limits (fun _ => rfl) rfl hrun).1⟩

end runs

end AlgorithmTrainer
