import AlgorithmTrainer.Lib.Pool
import AlgorithmTrainer.Submission.Lifecycle
import AlgorithmTrainer.Submission.Worker

/-!
# `Submission.WorkerPool` — backend instances that share one queue

Every instance calls `SubmissionWorkerPool::start`, which recovers the running rows, and then runs its
workers, each one `process_one` after another; clients create and retry submissions meanwhile. The pool
interleaves all of them, one call at a time.

A worker holds a submission from the claim that returned it until a `complete` or `fail` of the worker
changes it. `holding_exclusive` says that the claims stay exclusive as long as nothing is recovered
while it is held; `two_instances_hold_one` is the run where a second instance starts too early.
-/

namespace AlgorithmTrainer

open Interaction Interaction.Pool Transition Relational PostgreSQLSubmissionRepository

/-- What a thread of the pool ended with. -/
inductive PoolResult where
  | stopped
  | started (error : Option String)
  | worked (result : WorkResult)
  | answered
deriving DecidableEq

/-- The first part of `SubmissionWorkerPool::start`; the workers are threads of their own. -/
def startPool : Call PoolResult := do
  let recovered ← recoverRunning
  match recovered with
  | .error error => pure (.started (some error.message))
  | .ok _ => pure (.started none)

/-- The threads of the instances `κ`, and the clients of the queue. -/
inductive PoolThread (κ : Type) where
  | starter (k : κ)
  | worker (k : κ) (n : Nat)
  | client (n : Nat)
deriving DecidableEq

/-- The instances: how many workers each starts, and its limits. -/
structure Instances (κ : Type) where
  workerCount : κ → Nat
  limits : κ → PostgreSQLRepositoryLimits

/-- What happens besides the calls: an instance starts, a worker goes on, an instance's process ends, a
    client creates or retries a submission. -/
inductive PoolControl (κ : Type) where
  | start (k : κ)
  | work (k : κ) (n : Nat)
  | exit (k : κ)
  | create (n : Nat) (k : κ) (request : SubmissionRequest)
  | retry (n : Nat) (k : κ) (id admin : Int)

section pool
variable {κ : Type} [DecidableEq κ]

abbrev WorkerPool (κ : Type) := Pool (PoolThread κ) Backend Exception PoolResult Database

abbrev PoolEvent (κ : Type) := Event (PoolThread κ) Backend Choice (PoolControl κ)

/-- The thread has nothing more to do. -/
def ended : Call PoolResult → Bool
  | .call _ _ => false
  | _ => true

/-- The instance was started and its rows were recovered. -/
def isStarted : Call PoolResult → Bool
  | .ret (.started none) => true
  | _ => false

/-- Give a thread a new program. -/
def respawn (p : WorkerPool κ) (i : PoolThread κ) (program : Call PoolResult) : WorkerPool κ :=
  { p with thread := Function.update p.thread i program }

def worker (P : Platform) (limits : PostgreSQLRepositoryLimits) : Call PoolResult := do
  let result ← processOne P limits
  pure (.worked result)

def client (P : Platform) (limits : PostgreSQLRepositoryLimits) (c : QueueCall) :
    Call PoolResult := do
  c.program P limits
  pure .answered

/-- The thread belongs to the instance. -/
def PoolThread.ofInstance (k : κ) : PoolThread κ → Bool
  | .starter k' => k' = k
  | .worker k' _ => k' = k
  | .client _ => false

/-- The threads whose program a control step replaces. -/
def PoolControl.resets : PoolControl κ → PoolThread κ → Bool
  | .start k, i => i = .starter k
  | .work k n, i => i = .worker k n
  | .exit k, i => i.ofInstance k
  | .create n _ _, i => i = .client n
  | .retry n _ _ _, i => i = .client n

/-- The control steps. A worker goes on only in an instance that has been started. -/
def control (P : Platform) (I : Instances κ) : PoolControl κ → WorkerPool κ → Option (WorkerPool κ)
  | .start k, p =>
      if ended (p.thread (.starter k)) && !isStarted (p.thread (.starter k)) then
        some (respawn p (.starter k) startPool)
      else none
  | .work k n, p =>
      if n < I.workerCount k ∧ isStarted (p.thread (.starter k)) = true
          ∧ ended (p.thread (.worker k n)) = true then
        some (respawn p (.worker k n) (worker P (I.limits k)))
      else none
  | .exit k, p =>
      some { p with thread := fun i => if i.ofInstance k then .ret .stopped else p.thread i }
  | .create n k request, p =>
      if ended (p.thread (.client n)) then
        some (respawn p (.client n) (client P (I.limits k) (.create request)))
      else none
  | .retry n k id admin, p =>
      if ended (p.thread (.client n)) then
        some (respawn p (.client n) (client P (I.limits k) (.retry id admin)))
      else none

/-- Nothing has been started yet. -/
def idlePool (κ : Type) (db : Database) : WorkerPool κ := ⟨db, fun _ => .ret .stopped⟩

/-! ## Who holds what -/

/-- Whether a thread holds a submission. -/
inductive WorkerPhase where
  | free
  | holding (id : Int)
deriving DecidableEq

/-- What a call does to the caller's phase: a claim that returns a row takes it, and a `complete` or
    `fail` that changes a row gives it up. -/
def WorkerPhase.next (φ : WorkerPhase) : (q : BackendRequest) → q.Reply → WorkerPhase
  | .executeLocked _ (.claimSubmission _), .tuples (row :: _) => .holding row.id
  | .execute (.completeSubmission ..), .tuples (_ :: _) => .free
  | .execute (.failSubmission ..), .tuples (_ :: _) => .free
  | _, _ => φ

/-- The discipline of the pool's threads: rows are claimed, created and recovered while nothing is held,
    and only the held submission is reported. -/
def workerProtocol (P : Platform) : Protocol Backend WorkerPhase where
  allowed φ
    | .executeLocked _ _ => φ = .free
    | .execute (.completeSubmission verdict _ id) =>
        (∃ v, verdict = text (verdictName v)) ∧ φ = .holding id
    | .execute (.failSubmission _ id) => φ = .holding id
    | .execute .recoverRunning => φ = .free
    | .execute (.countActive _) => φ = .free
    | .judge _ => True
    | _ => False
  admits _
    | .execute (.completeSubmission ..), .tuples rows =>
        rows = [] ∨ ∃ row x, rows = [row] ∧ record P row = .ok x
    | _, _ => True
  next φ q r := φ.next q r

variable {P : Platform}

/-- The phase of a thread after a history. -/
def workerPhase (P : Platform) (h : List (PoolEvent κ)) (i : PoolThread κ) : WorkerPhase :=
  phase (workerProtocol P) .free PoolControl.resets h i

/-- The thread holds the submission: a claim returned it, and it is not yet reported. -/
def Holds (P : Platform) (h : List (PoolEvent κ)) (i : PoolThread κ) (id : Int) : Prop :=
  workerPhase P h i = .holding id

/-- The thread whose claim most recently returned the submission. -/
def lastClaimer : List (PoolEvent κ) → Int → Option (PoolThread κ)
  | [], _ => none
  | .call i _ ⟨.executeLocked _ (.claimSubmission _), .tuples rows⟩ :: h, id =>
      if rows.any (·.id == id) then some i else lastClaimer h id
  | _ :: h, id => lastClaimer h id

/-- The submission that a `complete` or `fail` has changed, and the thread that made the call. -/
def reported : PoolEvent κ → Option (PoolThread κ × Int)
  | .call i _ ⟨.execute (.completeSubmission _ _ id), .tuples (_ :: _)⟩ => some (i, id)
  | .call i _ ⟨.execute (.failSubmission _ id), .tuples (_ :: _)⟩ => some (i, id)
  | _ => none

/-- Every `complete` and `fail` that changed a row was made by the last thread to claim it. -/
def OwnReports : List (PoolEvent κ) → Prop
  | [] => True
  | e :: h => (∀ i id, reported e = some (i, id) → lastClaimer h id = some i) ∧ OwnReports h

/-! ## The threads keep the discipline -/

section follows
variable {limits : PostgreSQLRepositoryLimits} {φ : WorkerPhase} {id : Int}

/-- The outcome leaves nothing to be handled. -/
def NoRaise {α : Type} (_ : WorkerPhase) (o : Except Exception α) : Prop := o.isOk = true

theorem fail_follows (hφ : φ = .holding id) (e : Option String) :
    (workerProtocol P).Follows NoRaise φ (PostgreSQLSubmissionRepository.fail P id e) :=
  ⟨hφ, fun _ _ => rfl⟩

/-- The fallback to `fail` comes only where `complete` changed nothing, so the submission is still held. -/
theorem report_follows (v : Verdict) (e : Option String) :
    (workerProtocol P).Follows NoRaise (.holding id) (report P id v e) := by
  refine ⟨⟨⟨v, rfl⟩, rfl⟩, fun result hadm => ?_⟩
  have hfallback : (workerProtocol P).Follows NoRaise (.holding id)
      (do let _ ← PostgreSQLSubmissionRepository.fail P id (some "Result Persistence Error") :
        Call Unit) :=
    (fail_follows rfl _).bind (fun _ _ _ => rfl) fun _ _ h => h
  match result with
  | .tuples rows =>
      rcases hadm with rfl | ⟨row, x, rfl, hx⟩
      · exact hfallback
      · have hdone : transition P "Could not complete submission" (.tuples [row]) = .ok x := hx
        simp only [Program.bind, Program.pure_eq, hdone]
        exact rfl
  | .none => exact hfallback
  | .failed _ _ => exact hfallback
  | .command => exact hfallback

theorem reportJudged_follows (answer : JudgeResult) :
    (workerProtocol P).Follows NoRaise (.holding id) (reportJudged P id answer) := by
  cases answer with
  | judgeError message => exact (fail_follows rfl _).bind (fun _ _ _ => rfl) fun _ _ h => h
  | runtimeError type => exact (report_follows _ _).bind (fun _ _ _ => rfl) fun _ _ h => h
  | verdict v => exact (report_follows _ _).bind (fun _ _ _ => rfl) fun _ _ h => h

theorem judgeClaimed_follows (x : SubmissionRecord) :
    (workerProtocol P).Follows NoRaise (.holding x.id) (judgeClaimed P x) := by
  refine Protocol.Follows.tryCatch
    (R := fun φ o => φ = .holding x.id ∨ o.isOk = true) ?_ (fun _ _ _ => rfl) fun φ e h => ?_
  · have hjudge : (workerProtocol P).Follows (fun φ _ => φ = .holding x.id) (.holding x.id)
        (runJudge ⟨x.problemId, x.language, x.sourceCode⟩) := by
      refine ⟨trivial, fun judged _ => ?_⟩
      cases judged <;> rfl
    refine hjudge.bind (fun φ answer hφ => ?_) fun φ e hφ => Or.inl hφ
    rw [hφ]
    exact (reportJudged_follows answer).mono fun _ _ h => Or.inr h
  · have hφ : φ = .holding x.id := h.resolve_right (by simp [Except.isOk, Except.toBool])
    exact (fail_follows hφ _).bind (fun _ _ _ => rfl) fun _ _ h => h

/-- A claim that returns a submission leaves its caller holding it. -/
theorem claimNext_follows : (workerProtocol P).Follows
    (fun φ o => o.isOk = true ∧ ∀ x, o = .ok (.ok (some x)) → φ = .holding x.id) .free
    (claimNext P limits) := by
  refine ⟨rfl, fun result _ => ?_⟩
  match result with
  | .tuples [] => exact ⟨rfl, fun x hx => by cases hx⟩
  | .tuples (row :: rows) =>
      refine ⟨rfl, fun x hx => ?_⟩
      have hrecord : record P row = .ok x := by
        simp only [optionalRecord] at hx
        cases hr : record P row with
        | error e => rw [hr] at hx; cases hx
        | ok y => rw [hr] at hx; cases hx; rfl
      rw [(record_columns hrecord).1]
      rfl
  | .none => exact ⟨rfl, fun x hx => by cases hx⟩
  | .failed _ _ => exact ⟨rfl, fun x hx => by cases hx⟩
  | .command => exact ⟨rfl, fun x hx => by cases hx⟩

theorem worker_follows :
    (workerProtocol P).Follows (fun _ _ => True) .free (worker P limits) := by
  refine Protocol.Follows.bind (Q := NoRaise) ?_ (fun _ _ _ => trivial) fun _ _ _ => trivial
  refine claimNext_follows.bind (fun φ claimed h => ?_) fun _ _ h => h.1
  match claimed with
  | .error _ => rfl
  | .ok none => rfl
  | .ok (some x) =>
      rw [h.2 x rfl]
      exact judgeClaimed_follows x

theorem startPool_follows :
    (workerProtocol P).Follows (fun _ _ => True) .free startPool := by
  refine ⟨rfl, fun result _ => ?_⟩
  cases result <;> trivial

/-- Creating and retrying submissions needs no claim. -/
theorem client_follows {c : QueueCall} (hc : c.edge = none) :
    (workerProtocol P).Follows (fun _ _ => True) .free (client P limits c) := by
  have hcall : (workerProtocol P).Follows (fun φ _ => φ = .free ∧ True) .free
      (c.program P limits) := by
    refine (c.program_follows P limits).of_only fun q hq => ?_
    cases hq with
    | create r => exact ⟨rfl, fun reply => by cases reply <;> rfl⟩
    | count r => exact ⟨rfl, fun reply => by cases reply <;> rfl⟩
    | retry id admin => exact ⟨rfl, fun reply => by cases reply <;> rfl⟩
    | claimNext => cases hc
    | complete => cases hc
    | fail => cases hc
    | recoverRunning => cases hc
  exact hcall.bind (fun _ _ _ => trivial) fun _ _ _ => trivial

end follows

/-! ## Claims stay exclusive -/

/-- The invariant: what is held is running, is held by one thread, and was last claimed by it; and every
    report was made by the last thread to claim. -/
structure SoundClaims (P : Platform) (h : List (PoolEvent κ)) (db : Database) : Prop where
  checked : db.Checked
  running : ∀ i id, Holds P h i id → ∃ r ∈ db.submissions, r.id = id ∧ r.status = "running"
  exclusive : ∀ i j id, Holds P h i id → Holds P h j id → i = j
  claimer : ∀ i id, Holds P h i id → lastClaimer h id = some i
  reports : OwnReports h

section claims
variable {h : List (PoolEvent κ)} {db db' : Database} {i j : PoolThread κ} {c : Choice} {id : Int}

theorem holds_self {x : Exchange Backend} :
    Holds P (.call i c x :: h) i id
      ↔ (workerPhase P h i).next x.request x.reply = .holding id := by
  unfold Holds workerPhase
  rw [phase_call_self]
  rfl

theorem holds_other {x : Exchange Backend} (hji : j ≠ i) :
    Holds P (.call i c x :: h) j id ↔ Holds P h j id := by
  unfold Holds workerPhase
  rw [phase_call_other hji]

/-- A step after which nobody holds more, and what is still held is still running. -/
theorem SoundClaims.step (hJ : SoundClaims P h db) {e : PoolEvent κ}
    (hholds : ∀ j id, Holds P (e :: h) j id → Holds P h j id)
    (hlast : ∀ id, lastClaimer (e :: h) id = lastClaimer h id)
    (hrep : ∀ j id, reported e = some (j, id) → lastClaimer h id = some j)
    (hchecked : db'.Checked)
    (hrows : ∀ j r, Holds P (e :: h) j r.id → r ∈ db.submissions → r.status = "running" →
      ∃ r' ∈ db'.submissions, r'.id = r.id ∧ r'.status = "running") :
    SoundClaims P (e :: h) db' where
  checked := hchecked
  running j id hj := by
    obtain ⟨r, hr, rfl, hs⟩ := hJ.running j id (hholds j id hj)
    exact hrows j r hj hr hs
  exclusive a b id ha hb := hJ.exclusive a b id (hholds a id ha) (hholds b id hb)
  claimer j id hj := by rw [hlast]; exact hJ.claimer j id (hholds j id hj)
  reports := ⟨hrep, hJ.reports⟩

/-- A call that moves its caller nowhere, claims nothing, reports nothing and keeps the rows. -/
theorem SoundClaims.quiet (hJ : SoundClaims P h db) {x : Exchange Backend}
    (hnext : (workerPhase P h i).next x.request x.reply = workerPhase P h i)
    (hlast : ∀ id, lastClaimer (.call i c x :: h) id = lastClaimer h id)
    (hrep : reported (.call i c x : PoolEvent κ) = none) (hchecked : db'.Checked)
    (hrows : ∀ r ∈ db.submissions, r.status = "running" →
      ∃ r' ∈ db'.submissions, r'.id = r.id ∧ r'.status = "running") :
    SoundClaims P (.call i c x :: h) db' := by
  refine hJ.step (fun j id hj => ?_) hlast (fun j id hr => ?_) hchecked
    fun _ r _ hr hs => hrows r hr hs
  · by_cases hji : j = i
    · subst hji
      rw [holds_self, hnext] at hj
      exact hj
    · exact (holds_other hji).mp hj
  · rw [hrep] at hr; cases hr

omit [DecidableEq κ] in
/-- A locked statement that returns no claim is quiet. -/
theorem locked_quiet (lock : Int) {s : LockedStatement} {reply : Result SubmissionRow}
    (hs : s.admission = none → reply.rows = []) (φ : WorkerPhase) :
    φ.next (.executeLocked lock s) reply = φ ∧
      (∀ id, lastClaimer (.call i c ⟨.executeLocked lock s, reply⟩ :: h) id = lastClaimer h id) ∧
      reported (.call i c ⟨.executeLocked lock s, reply⟩ : PoolEvent κ) = none := by
  cases s with
  | insertSubmission => cases reply <;> exact ⟨rfl, fun _ => rfl, rfl⟩
  | retrySubmission => cases reply <;> exact ⟨rfl, fun _ => rfl, rfl⟩
  | claimSubmission limit =>
      cases reply with
      | tuples rows =>
          obtain rfl : rows = [] := hs rfl
          exact ⟨rfl, fun _ => rfl, rfl⟩
      | none => exact ⟨rfl, fun _ => rfl, rfl⟩
      | failed _ _ => exact ⟨rfl, fun _ => rfl, rfl⟩
      | command => exact ⟨rfl, fun _ => rfl, rfl⟩

/-- A commit keeps the running rows. -/
theorem running_apply {l : Int → Bool} {s : LockedStatement} {e : Changes}
    {rows : List SubmissionRow} (hp : Planned l db s e rows) {r : SubmissionRow}
    (hr : r ∈ db.submissions) (hs : r.status = "running") :
    r ∈ (e.apply db).submissions := by
  obtain ⟨r', hr', hstep⟩ := apply_mem (e := e) hr
  rcases hstep with rfl | ⟨hupd, hid⟩
  · exact hr'
  · cases hp with
    | nothing => cases hupd
    | admitted => cases hupd
    | claimed hx =>
        cases hupd
        obtain ⟨hmem, hqueued, -⟩ := candidate_some hx
        obtain rfl := Table.eq_of_key hmem hr hid
        rw [hs] at hqueued
        exact absurd hqueued (by decide)

/-- **A claim.** The claimed row was queued, so nobody held it. -/
theorem SoundClaims.claim (hJ : SoundClaims P h db) {lock limit : Int} {l : Int → Bool}
    {r : SubmissionRow} (hr : db.candidate limit l = some r) (hchecked : db'.Checked)
    (hrows : db'.submissions = ((⟨none, some (claimedRow r), none⟩ : Changes).apply db).submissions) :
    SoundClaims P (.call i c ⟨.executeLocked lock (.claimSubmission limit),
      .tuples [claimedRow r]⟩ :: h) db' := by
  obtain ⟨hmem, hqueued, -⟩ := candidate_some hr
  have hlast : ∀ id, lastClaimer (.call i c ⟨.executeLocked lock (.claimSubmission limit),
      .tuples [claimedRow r]⟩ :: h) id = if r.id = id then some i else lastClaimer h id := by
    intro id
    simp [lastClaimer, claimedRow]
  have hnew : ∀ id, Holds P (.call i c ⟨.executeLocked lock (.claimSubmission limit),
      .tuples [claimedRow r]⟩ :: h) i id → id = r.id := by
    intro id hi
    rw [holds_self] at hi
    cases hi
    rfl
  -- the row was queued, so it is none of the rows held before
  have hold : ∀ j id, Holds P h j id → id ≠ r.id := by
    rintro j id hj rfl
    obtain ⟨r', hr', hid, hs⟩ := hJ.running j _ hj
    obtain rfl := Table.eq_of_key hr' hmem hid
    rw [hqueued] at hs
    exact absurd hs (by decide)
  constructor
  · exact hchecked
  · intro j id hj
    rw [hrows]
    by_cases hji : j = i
    · subst hji
      rw [hnew id hj]
      exact ⟨claimedRow r, Table.mem_put.mpr (Or.inr ⟨rfl, r, hmem, rfl⟩), rfl, rfl⟩
    · obtain ⟨r', hr', hid, hs⟩ := hJ.running j id ((holds_other hji).mp hj)
      exact ⟨r', running_apply (.claimed hr) hr' hs, hid, hs⟩
  · intro a b id ha hb
    by_cases hai : a = i
    · by_cases hbi : b = i
      · rw [hai, hbi]
      · subst hai
        exact absurd (hnew id ha) (hold b id ((holds_other hbi).mp hb))
    · by_cases hbi : b = i
      · subst hbi
        exact absurd (hnew id hb) (hold a id ((holds_other hai).mp ha))
      · exact hJ.exclusive a b id ((holds_other hai).mp ha) ((holds_other hbi).mp hb)
  · intro j id hj
    rw [hlast]
    by_cases hji : j = i
    · subst hji
      rw [if_pos (hnew id hj).symm]
    · have hj' := (holds_other hji).mp hj
      rw [if_neg (hold j id hj').symm]
      exact hJ.claimer j id hj'
  · exact ⟨fun j id hrep => (nomatch hrep), hJ.reports⟩

/-- **A locked call.** It is quiet, or it is a claim. -/
theorem SoundClaims.locked (hJ : SoundClaims P h db) (lock : Int) (s : LockedStatement) :
    SoundClaims P (.call i c ⟨.executeLocked lock s, (serveLocked s c db).1⟩ :: h)
      (serveLocked s c db).2 := by
  have hquiet : (s.admission = none → (serveLocked s c db).1.rows = []) →
      (serveLocked s c db).2.Checked →
      (∀ r ∈ db.submissions, r.status = "running" → r ∈ (serveLocked s c db).2.submissions) →
      SoundClaims P (.call i c ⟨.executeLocked lock s, (serveLocked s c db).1⟩ :: h)
        (serveLocked s c db).2 := by
    intro hrows hchecked hkeep
    obtain ⟨hnext, hlast, hrep⟩ :=
      locked_quiet (i := i) (c := c) (h := h) lock hrows (workerPhase P h i)
    exact hJ.quiet hnext hlast hrep hchecked fun r hr hs => ⟨r, hkeep r hr hs, rfl, hs⟩
  rcases serveLocked_cases s c db with
    ⟨hdb', hno, -⟩ | ⟨hdb', hreply⟩ | ⟨state, -, hdb', hreply⟩ | ⟨e, rows, hplan, -, heq⟩
  · refine hquiet (fun _ => ?_) (by rw [hdb']; exact hJ.checked) fun r hr _ => by rw [hdb']; exact hr
    cases hr : (serveLocked s c db).1 with
    | tuples rows => rw [hr] at hno; cases hno
    | _ => rfl
  · refine hquiet (fun _ => by rw [hreply]; rfl) (hJ.checked.of_eq ?_) fun r hr _ => ?_
    · rw [hdb', plan_submissions]
    · rw [hdb', plan_submissions]; exact hr
  · refine hquiet (fun _ => by rw [hreply]; rfl) (hJ.checked.of_eq ?_) fun r hr _ => ?_
    · rw [hdb', plan_submissions]
    · rw [hdb', plan_submissions]; exact hr
  · have hp := plan_ok hplan
    have hchecked : (e.apply (s.plan c.lockedRows db).1).Checked :=
      (hJ.checked.commit hp).of_eq (apply_plan_submissions e)
    have hkeep : ∀ r ∈ db.submissions, r.status = "running" →
        r ∈ (e.apply (s.plan c.lockedRows db).1).submissions := fun r hr hs => by
      rw [apply_plan_submissions]
      exact running_apply hp hr hs
    rw [heq] at hquiet ⊢
    cases hp with
    | nothing => exact hquiet (fun _ => rfl) hchecked hkeep
    | admitted hadm =>
        obtain ⟨_, _, hsome, -⟩ := hadm.room
        exact hquiet (fun hnone => by rw [hsome] at hnone; cases hnone) hchecked hkeep
    | claimed hr => exact hJ.claim hr hchecked (apply_plan_submissions _)

/-- **A report of a held submission.** The caller gives it up; the other held rows stay running. -/
theorem SoundClaims.report (hJ : SoundClaims P h db) {x : Exchange Backend}
    (hi : Holds P h i id) (hnext : (workerPhase P h i).next x.request x.reply = .free)
    (hlast : ∀ id', lastClaimer (.call i c x :: h) id' = lastClaimer h id')
    (hrep : reported (.call i c x : PoolEvent κ) = some (i, id))
    (hchecked : db'.Checked)
    (hrows : ∀ r ∈ db.submissions, r.id ≠ id → r ∈ db'.submissions) :
    SoundClaims P (.call i c x :: h) db' := by
  have hfree : ∀ id', ¬ Holds P (.call i c x :: h) i id' := fun id' hid => by
    rw [holds_self, hnext] at hid
    cases hid
  refine hJ.step (fun j id' hj => ?_) hlast (fun j id' hr => ?_) hchecked fun j r hj hr hs => ?_
  · by_cases hji : j = i
    · subst hji; exact absurd hj (hfree id')
    · exact (holds_other hji).mp hj
  · rw [hrep] at hr
    cases hr
    exact hJ.claimer i id hi
  · by_cases hji : j = i
    · subst hji; exact absurd hj (hfree _)
    · refine ⟨r, hrows r hr ?_, rfl, hs⟩
      rintro rfl
      exact hji (hJ.exclusive j i _ ((holds_other hji).mp hj) hi)

theorem SoundClaims.complete (hJ : SoundClaims P h db) (v : Verdict) (e : Option String)
    (hi : Holds P h i id) :
    (workerProtocol P).admits (workerPhase P h i)
        (.execute (.completeSubmission (text (verdictName v)) e id))
        (serveStatement P (.completeSubmission (text (verdictName v)) e id) c db).1 ∧
      SoundClaims P (.call i c ⟨.execute (.completeSubmission (text (verdictName v)) e id),
          (serveStatement P (.completeSubmission (text (verdictName v)) e id) c db).1⟩ :: h)
        (serveStatement P (.completeSubmission (text (verdictName v)) e id) c db).2 := by
  rcases serveStatement_cases (P := P) (.completeSubmission (text (verdictName v)) e id) c db with
    ⟨-, hs⟩ | ⟨-, hs⟩
  · rw [hs]
    exact ⟨trivial, hJ.quiet rfl (fun _ => rfl) rfl hJ.checked fun r hr hs => ⟨r, hr, rfl, hs⟩⟩
  · obtain ⟨r, hr, rfl, hrunning⟩ := hJ.running i id hi
    rw [hs, exec_complete, select_running hr hrunning]
    refine ⟨Or.inr ⟨_, _, rfl, (record_completed r v e db.clock).choose_spec⟩, ?_⟩
    refine hJ.report hi rfl (fun _ => rfl) rfl
      (hJ.checked.update fun r _ _ => r.check_completed v e db.clock) fun x hx hne => ?_
    exact Table.mem_update_of_neg hx (by simp [runningRow, hne])

theorem SoundClaims.fail (hJ : SoundClaims P h db) (e : Option String) (hi : Holds P h i id) :
    SoundClaims P (.call i c ⟨.execute (.failSubmission e id),
        (serveStatement P (.failSubmission e id) c db).1⟩ :: h)
      (serveStatement P (.failSubmission e id) c db).2 := by
  rcases serveStatement_cases (P := P) (.failSubmission e id) c db with ⟨-, hs⟩ | ⟨-, hs⟩
  · rw [hs]
    exact hJ.quiet rfl (fun _ => rfl) rfl hJ.checked fun r hr hs => ⟨r, hr, rfl, hs⟩
  · obtain ⟨r, hr, rfl, hrunning⟩ := hJ.running i id hi
    rw [hs, exec_fail hJ.checked, select_running hr hrunning]
    refine hJ.report hi rfl (fun _ => rfl) rfl (hJ.checked.update fun r hr hp =>
      r.check_failed (hJ.checked r hr) (runningRow_iff.mp hp).2 e db.clock) fun x hx hne => ?_
    exact Table.mem_update_of_neg hx (by simp [runningRow, hne])

/-- **A recovery** that fails, or finds nothing held. -/
theorem SoundClaims.recover (hJ : SoundClaims P h db)
    (hguard : c.failure = none → ∀ j id, ¬ Holds P h j id) :
    SoundClaims P (.call i c ⟨.execute .recoverRunning,
      (serveStatement P .recoverRunning c db).1⟩ :: h) (serveStatement P .recoverRunning c db).2 := by
  have hquiet : ∀ (reply : Result Int) (d : Database), d.Checked →
      (∀ r ∈ db.submissions, r.status = "running" → (∃ j, Holds P h j r.id) →
        ∃ r' ∈ d.submissions, r'.id = r.id ∧ r'.status = "running") →
      SoundClaims P (.call i c ⟨.execute .recoverRunning, reply⟩ :: h) d := by
    intro reply d hchecked hrows
    have hholds : ∀ j id, Holds P (.call i c ⟨.execute .recoverRunning, reply⟩ :: h) j id →
        Holds P h j id := by
      intro j id hj
      by_cases hji : j = i
      · subst hji
        rw [holds_self] at hj
        cases reply <;> exact hj
      · exact (holds_other hji).mp hj
    refine hJ.step hholds (fun _ => by cases reply <;> rfl) (fun j id hr => ?_) hchecked
      fun j r hj hr hs => hrows r hr hs ⟨j, hholds j _ hj⟩
    cases reply <;> cases hr
  rcases serveStatement_cases (P := P) .recoverRunning c db with ⟨-, hs⟩ | ⟨hc, hs⟩
  · rw [hs]
    exact hquiet _ _ hJ.checked fun r hr hs _ => ⟨r, hr, rfl, hs⟩
  · rw [hs, exec_recover hJ.checked]
    refine hquiet _ _ (hJ.checked.update fun r hr hp =>
      r.check_recovered (hJ.checked r hr) (anyRunning_iff.mp hp)) fun r _ _ ⟨j, hj⟩ => ?_
    exact absurd hj (hguard hc j r.id)

/-- **One call of any thread** keeps the invariant, and is answered as the discipline assumes. -/
theorem SoundClaims.call (hJ : SoundClaims P h db) {q : BackendRequest}
    (hq : (workerProtocol P).allowed (workerPhase P h i) q)
    (hguard : q = .execute .recoverRunning → c.failure = none → ∀ j id, ¬ Holds P h j id) :
    (workerProtocol P).admits (workerPhase P h i) q (serve P q c db).1 ∧
      SoundClaims P (.call i c ⟨q, (serve P q c db).1⟩ :: h) (serve P q c db).2 := by
  have hsame : ∀ r ∈ db.submissions, r.status = "running" →
      ∃ r' ∈ db.submissions, r'.id = r.id ∧ r'.status = "running" :=
    fun r hr hs => ⟨r, hr, rfl, hs⟩
  cases q with
  | executeLocked lock s => exact ⟨trivial, hJ.locked lock s⟩
  | judge request => exact ⟨trivial, hJ.quiet rfl (fun _ => rfl) rfl hJ.checked hsame⟩
  | randomToken => exact hq.elim
  | passwordHash p => exact hq.elim
  | execute s =>
      cases s with
      | completeSubmission verdict e id =>
          obtain ⟨⟨v, rfl⟩, hi⟩ := hq
          exact hJ.complete v e hi
      | failSubmission e id => exact ⟨trivial, hJ.fail e hq⟩
      | recoverRunning => exact ⟨trivial, hJ.recover (hguard rfl)⟩
      | countActive user =>
          refine ⟨trivial, ?_⟩
          rcases serveStatement_cases (P := P) (.countActive user) c db with ⟨-, hs⟩ | ⟨-, hs⟩ <;>
            rw [serve_execute, hs] <;>
            exact hJ.quiet rfl (fun _ => rfl) rfl hJ.checked hsame
      | _ => exact hq.elim

end claims

/-! ## Runs -/

section runs
variable {I : Instances κ} {h : List (PoolEvent κ)} {p p' : WorkerPool κ} {b : PoolControl κ}

/-- A thread whose program a control step replaces starts one that keeps the discipline. -/
theorem control_spec (hb : control P I b p = some p') :
    p'.shared = p.shared ∧ ∀ i,
      (b.resets i = true →
        (workerProtocol P).Follows (fun _ _ => True) .free (p'.thread i)) ∧
      (b.resets i = false → p'.thread i = p.thread i) := by
  -- starting a thread changes that thread only
  have hrespawn : ∀ (j : PoolThread κ) (program : Call PoolResult),
      (workerProtocol P).Follows (fun _ _ => True) .free program → ∀ i,
      ((decide (i = j)) = true →
        (workerProtocol P).Follows (fun _ _ => True) .free ((respawn p j program).thread i)) ∧
      ((decide (i = j)) = false → (respawn p j program).thread i = p.thread i) := by
    intro j program hprogram i
    constructor
    · intro hi
      obtain rfl := of_decide_eq_true hi
      simp only [respawn, Function.update_self]
      exact hprogram
    · intro hi
      exact Function.update_of_ne (of_decide_eq_false hi) ..
  cases b with
  | start k =>
      simp only [control, Option.ite_none_right_eq_some, Option.some.injEq] at hb
      obtain ⟨-, rfl⟩ := hb
      exact ⟨rfl, hrespawn _ _ startPool_follows⟩
  | work k n =>
      simp only [control, Option.ite_none_right_eq_some, Option.some.injEq] at hb
      obtain ⟨-, rfl⟩ := hb
      exact ⟨rfl, hrespawn _ _ worker_follows⟩
  | exit k =>
      cases hb
      refine ⟨rfl, fun i => ⟨fun hi => ?_, fun hi => ?_⟩⟩
      · simp only [PoolControl.resets] at hi
        simp only [hi, if_true]
        trivial
      · simp only [PoolControl.resets] at hi
        simp [hi]
  | create n k request =>
      simp only [control, Option.ite_none_right_eq_some, Option.some.injEq] at hb
      obtain ⟨-, rfl⟩ := hb
      exact ⟨rfl, hrespawn _ _ (client_follows rfl)⟩
  | retry n k id admin =>
      simp only [control, Option.ite_none_right_eq_some, Option.some.injEq] at hb
      obtain ⟨-, rfl⟩ := hb
      exact ⟨rfl, hrespawn _ _ (client_follows rfl)⟩

/-- A control step only makes threads give up what they hold. -/
theorem SoundClaims.control {db : Database} (hJ : SoundClaims P h db) (b : PoolControl κ) :
    SoundClaims P (.control b :: h) db := by
  refine hJ.step (fun j id hj => ?_) (fun _ => rfl) (fun _ _ hr => nomatch hr) hJ.checked
    fun _ r _ hr hs => ⟨r, hr, rfl, hs⟩
  unfold Holds workerPhase phase at hj
  split at hj
  · cases hj
  · exact hj

/-- The step is no recovery that takes effect while a submission is held. -/
def RecoversUnheld (P : Platform) (h : List (PoolEvent κ)) (_ : WorkerPool κ) :
    PoolEvent κ → Prop
  | .call _ c ⟨.execute .recoverRunning, _⟩ => c.failure = none → ∀ i id, ¬ Holds P h i id
  | _ => True

/-- **Claims are exclusive where nothing held is recovered.** In every run of any number of instances in
    which `recover_running` never takes effect while a submission is held, no two threads ever hold the
    same submission, and every `complete` or `fail` that changed a row was made by the thread whose claim
    most recently returned it. -/
theorem holding_exclusive {db₀ : Database} (h₀ : db₀.Checked)
    (hrun : Guarded (RecoversUnheld P) (Step (serve P) (control P I)) (idlePool κ db₀) h p) :
    (∀ i j id, Holds P h i id → Holds P h j id → i = j) ∧ OwnReports h := by
  have hinit : SoundClaims P ([] : List (PoolEvent κ)) db₀ :=
    ⟨h₀, nofun, nofun, nofun, trivial⟩
  obtain ⟨hJ, -⟩ := threads_follow (workerProtocol P) .free PoolControl.resets (fun _ _ => True)
    (SoundClaims P) hrun hinit (fun _ => trivial)
    (fun h p i c q hguard hJ hq => hJ.call hq (by rintro rfl; exact hguard))
    (fun h p b p' _ hJ _ hb => by
      obtain ⟨hshared, hthreads⟩ := control_spec hb
      rw [hshared]
      exact ⟨hJ.control b, hthreads⟩)
  exact ⟨hJ.exclusive, hJ.reports⟩

end runs

end pool

/-! ## A second instance that starts too early -/

/-- Two instances of one worker each, with the default limits. -/
def twoInstances : Instances Bool := ⟨fun _ => 1, fun _ => .unconfigured⟩

/-- A call of a thread where nothing goes wrong. -/
def calmly (i : PoolThread Bool) : PoolThread Bool × Choice ⊕ PoolControl Bool := .inl (i, .calm)

/-- The first instance starts and its worker claims the submission; the second starts, which recovers
    it, and its worker claims it too. -/
def earlyStart : List (PoolThread Bool × Choice ⊕ PoolControl Bool) :=
  [.inr (.start false), calmly (.starter false), .inr (.work false 0), calmly (.worker false 0),
    .inr (.start true), calmly (.starter true), .inr (.work true 0), calmly (.worker true 0)]

def playedTwo (moves : List (PoolThread Bool × Choice ⊕ PoolControl Bool)) :
    Option (List (PoolEvent Bool) × WorkerPool Bool) :=
  script (serve .plain) (control .plain twoInstances) moves [] (idlePool Bool oneQueued)

/-- **Two workers hold one submission**, and the first one's result is stored although the second claimed
    the submission last. -/
theorem two_instances_hold_one :
    (∃ h p, Run (Step (serve .plain) (control .plain twoInstances)) (idlePool Bool oneQueued) h p ∧
      Holds .plain h (.worker false 0) 1 ∧ Holds .plain h (.worker true 0) 1) ∧
    (∃ h p, Run (Step (serve .plain) (control .plain twoInstances)) (idlePool Bool oneQueued) h p ∧
      ¬ OwnReports h) := by
  have hplayed : (playedTwo earlyStart).isSome = true := by decide
  have hreported : (playedTwo (earlyStart ++
      [calmly (.worker false 0), calmly (.worker false 0)])).isSome = true := by decide
  refine ⟨⟨_, _, run_of_script .start (Option.some_get hplayed).symm, rfl, rfl⟩,
    ⟨_, _, run_of_script .start (Option.some_get hreported).symm, fun hown => ?_⟩⟩
  exact absurd (hown.1 (.worker false 0) 1 rfl) (by decide)

/-- One instance starts, and its worker holds the submission alone. -/
theorem holding_exclusive_alone : ∃ h : List (PoolEvent Bool),
    Holds .plain h (.worker false 0) 1 ∧
      ∀ i j id, Holds .plain h i id → Holds .plain h j id → i = j := by
  have hnobody : ∀ (i : PoolThread Bool) id, ¬ Holds .plain [.control (.start false)] i id := by
    intro i id hi
    unfold Holds workerPhase phase at hi
    split at hi <;> cases hi
  have hnext : ∀ {h p e p'}, Guarded (RecoversUnheld .plain) (Step (serve .plain)
      (control .plain twoInstances)) (idlePool Bool oneQueued) h p →
      Step (serve .plain) (control .plain twoInstances) p e p' → RecoversUnheld .plain h p e →
      Guarded (RecoversUnheld .plain) (Step (serve .plain) (control .plain twoInstances))
        (idlePool Bool oneQueued) (e :: h) p' := fun hrun hs hg => hrun.next hg hs
  have hstart := hnext .start (.control (b := .start false) rfl) trivial
  have hrecover := hnext hstart (.call (i := .starter false) (c := .calm) rfl)
    (by exact fun _ => hnobody)
  have hwork := hnext hrecover (.control (b := .work false 0) rfl) trivial
  have hclaim := hnext hwork (.call (i := .worker false 0) (c := .calm) rfl) (by exact trivial)
  refine ⟨_, ?_, (holding_exclusive (Database.checked_iff.mpr (by decide)) hclaim).1⟩
  rfl

end AlgorithmTrainer
