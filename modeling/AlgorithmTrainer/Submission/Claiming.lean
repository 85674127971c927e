import AlgorithmTrainer.Submission.Admission

/-!
# `Submission.Claiming` — fair claims under concurrent transactions

The other half of the queue's concurrency: `claim_next` counts the running rows of an owner and marks one
more under its own advisory lock, so no owner gets more running rows than the limit. A claim that no
other writer disturbs takes the first of the eligible rows, which are those of the owners below the
limit only.
-/

namespace AlgorithmTrainer

open Interaction Transition Relational Locking PostgreSQLSubmissionRepository

/-! ## The running limit -/

/-- The running rows of one owner. -/
def runningOwned (user : Option Int) (r : SubmissionRow) : Bool :=
  r.status == "running" && r.userId == user

/-- What a pending claim adds to the running rows of one owner. -/
def claimedOf (user : Option Int) (e : Changes) : Nat :=
  if e.updated.any fun r => r.userId == user then 1 else 0

section facts
variable {P : Platform} {L : Set PostgreSQLRepositoryLimits}

theorem Pending.count_running_le {e : Changes} {db : Database} (h : Pending e db)
    (user : Option Int) :
    (e.apply db).runningOf user ≤ db.runningOf user + claimedOf user e := by
  obtain ⟨i, u, a⟩ := e
  have hins : (i.elim db.submissions db.submissions.insert).count (runningOwned user)
      ≤ db.runningOf user := by
    cases i with
    | none => exact Nat.le_refl _
    | some r =>
        have hle := Table.count_insert_le db.submissions r (runningOwned user)
        have hr : runningOwned user r = false := by
          simp [runningOwned, (h.inserted r rfl).1]
        rw [hr] at hle
        exact hle
  cases u with
  | none => exact Nat.le_trans hins (Nat.le_add_right _ _)
  | some r =>
      obtain ⟨x, -, -, rfl⟩ := h.claimed r rfl
      have hle := Table.count_put_le (i.elim db.submissions db.submissions.insert) (claimedRow x)
        (runningOwned user)
      have hrise : (if runningOwned user (claimedRow x) = true then 1 else 0)
          = claimedOf user ⟨i, some (claimedRow x), a⟩ := by
        simp [runningOwned, claimedOf, claimedRow]
      rw [hrise] at hle
      exact Nat.le_trans hle (Nat.add_le_add_right hins _)

/-- **Claims keep the running limit** of every owner. -/
theorem running_admission {R : Nat} (hL : ∀ limits ∈ L, limits.maximumRunningSubmissionsPerUser = R)
    (user : Option Int) : Admission (queueEngine P) (LockedCall P L) (PlainCall P L) Pending claimLock
      (fun db => db.runningOf user) R (claimedOf user) where
  evaluate_le _ hev := by
    obtain ⟨rfl, -⟩ := Prod.mk.inj hev
    exact Nat.le_of_eq (by unfold Database.runningOf; rw [plan_submissions])
  execute_le hu := hu.settledFrom.count_le fun r r' _ hr' _ hq => by
    simp only [Bool.and_eq_true, beq_iff_eq] at hq
    exact absurd hq.1 hr'
  commit_le h := h.count_running_le user
  checked {s c db db' e} hcall hev hle := by
    obtain ⟨-, rows, hplanned⟩ := evaluate_planned hev
    cases hplanned with
    | nothing => exact hle
    | admitted => exact hle
    | @claimed limit r hr =>
        obtain ⟨limits, hmem, ⟨hlock, -⟩ | ⟨-, hs⟩⟩ := hcall.cases
        · exact absurd hlock.symm admissionLock_ne_claimLock
        · cases hs
          obtain ⟨-, -, hbelow, -⟩ := candidate_some hr
          rw [hL limits hmem] at hbelow
          by_cases huser : r.userId = user
          · have hrise : claimedOf user ⟨none, some (claimedRow r), none⟩ = 1 := by
              simp [claimedOf, claimedRow, huser]
            rw [hrise, ← huser]
            exact Int.ofNat_lt.mp hbelow
          · simpa [claimedOf, claimedRow, huser] using hle
  guarded hne hp := by
    rcases Produced.cases hp with ⟨-, hnone⟩ | ⟨hlock, -⟩
    · simp [claimedOf, hnone]
    · exact absurd hlock hne

/-- In every interleaving the rows pass their `CHECK` constraints. -/
theorem checked_of_transactions {ι : Type} [DecidableEq ι] {d₀ d : QueueSystem ι}
    {h : List (Label ι Int LockedStatement QueueAct)} (hidle : ∀ i, d₀.session i = .idle)
    (h₀ : d₀.committed.Checked) (hrun : Run (TransactionStep P L) d₀ h d) :
    d.committed.Checked := by
  refine pending_stable.invariant (I := Database.Checked) ?_ ?_ ?_ hidle h₀ hrun
  · intro k s c x x' o _ hev hx
    obtain ⟨rfl, -⟩ := Prod.mk.inj hev
    exact hx.of_eq plan_submissions
  · exact fun hu hx => hu.settledFrom.checked hx
  · exact fun _ he hx => he.checked hx

end facts

/-! ## A claim that no other writer disturbs -/

/-- The row is queued, and its owner has fewer running rows than the limit. -/
structure Eligible (db : Database) (limit : Nat) (r : SubmissionRow) : Prop where
  mem : r ∈ db.submissions
  queued : r.status = "queued"
  below : db.runningOf r.userId < limit

/-- The row is eligible, and no eligible row has a smaller id. -/
structure FirstEligible (db : Database) (limit : Nat) (r : SubmissionRow) : Prop where
  eligible : Eligible db limit r
  least : ∀ r', Eligible db limit r' → r.id ≤ r'.id

section claim
variable {P : Platform} {db : Database} {limit : Nat}

theorem mem_eligible {r : SubmissionRow} : r ∈ (db.submissions.select fun r =>
    r.status == "queued" && decide ((db.runningOf r.userId : Int) < (limit : Int))) ↔
      Eligible db limit r := by
  rw [Table.mem_select]
  simp only [Bool.and_eq_true, beq_iff_eq, decide_eq_true_eq, Int.ofNat_lt]
  exact ⟨fun h => ⟨h.1, h.2.1, h.2.2⟩, fun h => ⟨h.mem, h.queued, h.below⟩⟩

/-- Where no row is locked, a claim's candidate is the first row in the order of the ids. -/
theorem candidate_unlocked : db.candidate limit (fun _ => false) =
    (orderBy (fun a b => decide (a.id ≤ b.id)) (db.submissions.select fun r =>
      r.status == "queued" && decide ((db.runningOf r.userId : Int) < (limit : Int)))).head? := by
  unfold Database.candidate
  cases orderBy (fun a b : SubmissionRow => decide (a.id ≤ b.id)) _ with
  | nil => rfl
  | cons r rest => rfl

theorem candidate_first {r : SubmissionRow} (h : db.candidate limit (fun _ => false) = some r) :
    FirstEligible db limit r := by
  rw [candidate_unlocked] at h
  obtain ⟨hmem, hleast⟩ := head?_orderBy (by simp; omega) (by simp; omega) h
  exact ⟨mem_eligible.mp hmem, fun r' hr' => of_decide_eq_true (hleast r' (mem_eligible.mpr hr'))⟩

theorem candidate_eq_none :
    db.candidate limit (fun _ => false) = none ↔ ¬ ∃ r, Eligible db limit r := by
  rw [candidate_unlocked, head?_orderBy_eq_none, List.eq_nil_iff_forall_not_mem]
  simp only [mem_eligible, not_exists]

/-- A claimed row reads back. -/
theorem record_claimed {r : SubmissionRow} (hcheck : r.check = true) (hs : r.status = "queued") :
    ∃ x, record P (claimedRow r) = .ok x := by
  have hverdict : r.verdict = none := by
    rw [SubmissionRow.check_iff] at hcheck
    simp_all
  simp [record, claimedRow, status, hverdict]

/-- **A claim that no other writer disturbs**, where no statement fails. -/
theorem run_claimNext {limits : PostgreSQLRepositoryLimits} {w : World Choice Database}
    (hdb : w.state.Checked) (hcalm : (w.choices 0).failure = none)
    (halone : (w.choices 0).lockedRows = fun _ => false) :
    ∃ answer db', (claimNext P limits).run (serve P) w = (.ok (.ok answer), w.advance db') ∧
      match w.state.candidate limits.maximumRunningSubmissionsPerUser (fun _ => false) with
      | some r => (∃ x, answer = some x ∧ record P (claimedRow r) = .ok x) ∧
          db' = { w.state with submissions := w.state.submissions.put (claimedRow r) }
      | none => answer = none ∧ db' = w.state := by
  simp only [claimNext, run_executeLocked, serveLocked, hcalm, halone, plan_claim hdb]
  cases hr : w.state.candidate limits.maximumRunningSubmissionsPerUser (fun _ => false) with
  | none => exact ⟨none, w.state, rfl, rfl, rfl⟩
  | some r =>
      obtain ⟨hmem, hqueued, -⟩ := candidate_some hr
      obtain ⟨x, hx⟩ := record_claimed (P := P) (hdb r hmem) hqueued
      refine ⟨some x, _, ?_, ⟨x, rfl, hx⟩, rfl⟩
      simp only [optionalRecord, hx]
      rfl

end claim

/-- **Claims are fair in every interleaving.** However the transactions and statements of any number of
    repository instances with the same running limit interleave, from a database without submissions,
    no user and not the anonymous bucket has more running rows than the limit. A claim in such a state
    that no other writer disturbs returns nothing exactly if no queued row's owner is below the limit;
    otherwise it returns the first such row, and marking it as running is all it changes. -/
theorem claim_next_fair {ι : Type} [DecidableEq ι] {P : Platform} {R : Nat} {d₀ d : QueueSystem ι}
    {h : List (Label ι Int LockedStatement QueueAct)} (hidle : ∀ i, d₀.session i = .idle)
    (h₀ : d₀.committed.submissions = .empty)
    (hrun : Run (TransactionStep P {l | l.maximumRunningSubmissionsPerUser = R}) d₀ h d) :
    (∀ user, d.committed.runningOf user ≤ R) ∧
    ∀ (limits : PostgreSQLRepositoryLimits) (choices : Nat → Choice),
      limits.maximumRunningSubmissionsPerUser = R → (choices 0).failure = none →
      ((choices 0).lockedRows = fun _ => false) →
      ∃ answer db', ((claimNext P limits).run (serve P) ⟨choices, d.committed⟩).1 = .ok (.ok answer) ∧
        ((claimNext P limits).run (serve P) ⟨choices, d.committed⟩).2.state = db' ∧
        (answer = none ↔ ¬ ∃ r, Eligible d.committed R r) ∧
        (answer = none → db' = d.committed) ∧
        ∀ x, answer = some x → ∃ r, FirstEligible d.committed R r ∧
          record P (claimedRow r) = .ok x ∧
          db' = { d.committed with submissions := d.committed.submissions.put (claimedRow r) } := by
  have hempty : ∀ q, d₀.committed.submissions.count q = 0 := fun q => by rw [h₀]; rfl
  refine ⟨fun user => ?_, ?_⟩
  · exact (running_admission (fun _ hl => hl) user).bound pending_stable hidle
      (Nat.le_of_eq (hempty _) |>.trans (Nat.zero_le _)) hrun
  · rintro limits choices rfl hcalm halone
    -- the rows of every reachable state meet their CHECKs, so a claimed row can be read back
    have hdb := checked_of_transactions hidle
      (fun r hr => absurd (h₀ ▸ hr) (Table.not_mem_empty r)) hrun
    obtain ⟨answer, db', hanswer, hspec⟩ := run_claimNext (P := P)
      (w := ⟨choices, d.committed⟩) hdb hcalm halone
    rw [hanswer]
    refine ⟨answer, db', rfl, rfl, ?_⟩
    -- the answer is empty exactly when the statement finds no candidate
    rw [← candidate_eq_none]
    cases hr : d.committed.candidate limits.maximumRunningSubmissionsPerUser (fun _ => false) with
    | none =>
        simp only [hr] at hspec
        obtain ⟨rfl, rfl⟩ := hspec
        exact ⟨by simp, fun _ => rfl, by simp⟩
    | some r =>
        simp only [hr] at hspec
        obtain ⟨⟨x, rfl, hx⟩, rfl⟩ := hspec
        refine ⟨by simp, by simp, ?_⟩
        rintro y ⟨⟩
        exact ⟨r, candidate_first hr, hx, rfl⟩

/-- The one submission that was created is claimed. -/
theorem claim_next_fair_created :
    ∃ x, ((claimNext .plain {}).run (serve .plain) ⟨fun _ => .calm, oneCreated⟩).1
      = .ok (.ok (some x)) := by
  obtain ⟨h, d, hrun, hd⟩ := run_created (L := {l | l.maximumRunningSubmissionsPerUser = 1}) rfl
  obtain ⟨answer, db', hanswer, -, hnone, -⟩ :=
    (claim_next_fair (fun _ => rfl) rfl hrun).2 {} (fun _ => .calm) rfl rfl rfl
  rw [hd] at hanswer hnone
  cases answer with
  | some x => exact ⟨x, hanswer⟩
  | none =>
      have hone : ∃ r ∈ oneCreated.submissions.rows, r.status = "queued"
          ∧ oneCreated.runningOf r.userId < 1 := by decide
      obtain ⟨r, hmem, hqueued, hbelow⟩ := hone
      exact absurd ⟨r, hmem, hqueued, hbelow⟩ (hnone.mp rfl)

end AlgorithmTrainer
