import Mathlib.Algebra.Order.BigOperators.Group.Finset
import AlgorithmTrainer.Submission.PoolPrograms

/-!
# `Submission.PoolLifecycle` — what `start` and `stop` guarantee

Every run of the threads is a run of `Submission.WorkerPool` in which nothing held is recovered, so within one
instance the claims are exclusive over any number of starts and stops. `pool_lifecycle` is what a pool is in
every state, and `stop_returns` says when `stop` is done, although its notification may be lost: a worker that
has not begun to wait sleeps out its interval.
-/

namespace AlgorithmTrainer

open Interaction Interaction.Pool Transition PostgreSQLSubmissionRepository

section pool
variable {P : Platform} {limits : PostgreSQLRepositoryLimits} {count : Nat} {s s' : PoolThreads}
  {h : List ThreadLabel} {l : ThreadLabel} {n : Nat} {db : Database}

/-- The invariant of a run: the two above, and the pool is a run of `Submission.WorkerPool` in which nothing
    that is held is recovered. -/
structure SoundPool (P : Platform) (limits : PostgreSQLRepositoryLimits) (count : Nat) (db : Database)
    (h : List ThreadLabel) (s : PoolThreads) : Prop where
  threads : SoundThreads count s
  programs : SoundPrograms P h s
  run : Guarded (RecoversUnheld P) (Step (serve P) (control P (oneInstance count limits)))
    (idlePool Unit db) (events h) s.pool

/-- A step of the pool keeps it such a run. -/
theorem SoundPool.event (hs : SoundPool P limits count db h s) {e : PoolEvent Unit}
    (hstep : ThreadStep P limits count s (.pool e) s') :
    RecoversUnheld P (events h) s.pool e ∧
      Step (serve P) (control P (oneInstance count limits)) s.pool e s'.pool := by
  obtain ⟨ht, hp, -⟩ := hs
  cases hstep with
  | start ho hstarted =>
      obtain ⟨hended, hiff⟩ := hp.recovered (by simp [ho])
      have hnot : isStarted (s.pool.thread (.starter ())) = false := by
        rw [Bool.eq_false_iff]
        intro hs
        rcases hiff.mp hs with hs | hs
        · simp [ho] at hs
        · simp [hstarted] at hs
      refine ⟨trivial, .control ?_⟩
      simp [control, hended, hnot]
  | @turn n hpoint hstopping =>
      have hcreated : s.point n ≠ .ended := by simp [hpoint]
      have hstarted := ht.started_of_created hcreated
      obtain ⟨-, hiff⟩ := hp.recovered (ht.owner_of_started hstarted).1
      refine ⟨trivial, .control ?_⟩
      simp [control, oneInstance, ht.bounded hcreated,
        hiff.mpr (Or.inr hstarted), hp.idle n (by simp [hpoint])]
  | clear ho hi => exact ⟨trivial, .control rfl⟩
  | client hb hp => exact ⟨trivial, .control hp⟩
  | @call i q k c hq =>
      refine ⟨?_, .call hq⟩
      by_cases hrecover : q = .execute .recoverRunning
      · subst hrecover
        intro _ j id
        -- only `start` recovers, and the pool is not started then
        have ho : s.owner = .recovering := by
          cases i with
          | client n =>
              have hfollows := hp.clients n
              rw [hq] at hfollows
              exact absurd rfl hfollows.1.2
          | worker _ n =>
              have hpoint : s.point n = .processing := by
                by_contra hne
                have := hp.idle n hne
                rw [hq] at this
                cases this
              have hfollows := hp.turns n hpoint
              rw [hq] at hfollows
              exact absurd rfl hfollows.1.2.2
          | starter _ =>
              by_contra ho
              have := (hp.recovered ho).1
              rw [hq] at this
              cases this
        have hfits := ht.fits
        rw [ho] at hfits
        exact hp.unheld hfits.1 j id
      · unfold RecoversUnheld
        split
        · rename_i heq
          cases heq
          exact absurd rfl hrecover
        · trivial

theorem SoundPool.step (hs : SoundPool P limits count db h s) (hstep : ThreadStep P limits count s l s') :
    SoundPool P limits count db (l :: h) s' where
  threads := hs.threads.step hstep
  programs := hs.programs.step hs.threads hstep
  run := by
    match l with
    | .pool e =>
        obtain ⟨hguard, hnext⟩ := hs.event hstep
        exact hs.run.next hguard hnext
    | .owner o =>
        have hsame : s'.pool = s.pool := by cases hstep <;> rfl
        rw [hsame]
        exact hs.run
    | .worker n at_ =>
        have hsame : s'.pool = s.pool := by cases hstep <;> rfl
        rw [hsame]
        exact hs.run

/-- **Every run** of the threads keeps the invariant. -/
theorem soundPool_of_run (hrun : Run (ThreadStep P limits count) (.new db) h s) :
    SoundPool P limits count db h s :=
  hrun.invariant ⟨.new db, .new, .start⟩ fun _ _ _ _ hs _ hstep => hs.step hstep

/-! ## Progress -/

/-- The step is one of the pool's own threads. -/
def ThreadLabel.ofPool : ThreadLabel → Bool
  | .owner _ | .worker _ _ => true
  | .pool (.call (.client _) _ _) => false
  | .pool (.call _ _ _) => true
  | .pool (.control (.work _ _)) | .pool (.control (.exit _)) => true
  | .pool (.control _) => false

/-- A thread of the pool can go on. -/
def Proceeds (P : Platform) (limits : PostgreSQLRepositoryLimits) (count : Nat) (s : PoolThreads) : Prop :=
  ∃ l s', l.ofPool = true ∧ (∀ o, l = .owner o → s.owner ≠ .outside) ∧ ThreadStep P limits count s l s'

/-- The worker takes the mutex, where it is known what it waits for. -/
theorem ThreadStep.lock_at {at_ after : WorkerPoint} (hp : s.point n = at_) (ha : at_.locking = some after)
    (hm : s.mutex = none) : ThreadStep P limits count s (.worker n after)
      { s with mutex := some (.worker n), point := Function.update s.point n after } := by
  subst hp
  exact .lock ha hm

theorem ThreadStep.unlock_at {at_ after : WorkerPoint} {stopping : Bool} (hp : s.point n = at_)
    (hs : s.stopping = stopping) (ha : at_.unlocking stopping = some after) :
    ThreadStep P limits count s (.worker n after)
      { s with mutex := none, point := Function.update s.point n after } := by
  subst hp hs
  exact .unlock ha

/-- A worker in a turn can go on. -/
theorem SoundPool.turn_proceeds (hs : SoundPool P limits count db h s) (hp : s.point n = .processing) :
    Proceeds P limits count s := by
  have hturn := hs.programs.turns n hp
  cases hthread : s.pool.thread (.worker () n) with
  | call q k => exact ⟨_, _, rfl, by simp, .call (c := .calm) hthread⟩
  | raise e =>
      rw [hthread] at hturn
      obtain ⟨_, hraise⟩ := hturn
      cases hraise
  | ret a =>
      rw [hthread] at hturn
      obtain ⟨result, hret⟩ := hturn
      cases hret
      exact ⟨_, _, rfl, by simp, .turned hp hthread⟩

/-- The worker that has the mutex can go on. -/
theorem SoundPool.holder_proceeds (hs : SoundPool P limits count db h s)
    (hm : s.mutex = some (.worker n)) : Proceeds P limits count s := by
  have hlocked := (hs.threads.workerLocked n).mp hm
  cases hp : s.point n with
  | checkingLocked =>
      cases hstopping : s.stopping with
      | true => exact ⟨_, _, rfl, by simp, .unlock_at hp hstopping rfl⟩
      | false => exact ⟨_, _, rfl, by simp, .turn hp hstopping⟩
  | idlingLocked => exact ⟨_, _, rfl, by simp, .unlock_at hp rfl rfl⟩
  | wokenLocked => exact ⟨_, _, rfl, by simp, .unlock_at hp rfl rfl⟩
  | _ =>
      rw [hp] at hlocked
      cases hlocked

/-- While the mutex is free, every worker that has not ended can go on. -/
theorem SoundPool.worker_proceeds (hs : SoundPool P limits count db h s) (hm : s.mutex = none)
    (hn : s.point n ≠ .ended) : Proceeds P limits count s := by
  have hunlocked : (s.point n).locked = false := by
    rw [Bool.eq_false_iff, Ne, ← hs.threads.workerLocked n, hm]
    simp
  cases hp : s.point n with
  | checking => exact ⟨_, _, rfl, by simp, .lock_at hp rfl hm⟩
  | idling => exact ⟨_, _, rfl, by simp, .lock_at hp rfl hm⟩
  | woken => exact ⟨_, _, rfl, by simp, .lock_at hp rfl hm⟩
  | processing => exact hs.turn_proceeds hp
  | asleep => exact ⟨_, _, rfl, by simp, .wake hp⟩
  | ended => exact absurd hp hn
  | _ =>
      rw [hp] at hunlocked
      cases hunlocked

/-- Where no worker is left, the owner can go on. -/
theorem SoundPool.owner_proceeds (hs : SoundPool P limits count db h s) (ho : s.owner ≠ .outside)
    (hm : s.mutex = none ∨ s.owner = .stoppingLocked) (hended : ∀ n, s.point n = .ended) :
    Proceeds P limits count s := by
  have hown : ∀ {o s'}, ThreadStep P limits count s (.owner o) s' → Proceeds P limits count s :=
    fun hstep => ⟨_, _, rfl, fun _ _ => ho, hstep⟩
  cases howner : s.owner with
  | outside => exact absurd howner ho
  | recovering =>
      have hstart := hs.programs.recovering howner
      cases hthread : s.pool.thread (.starter ()) with
      | call q k => exact ⟨_, _, rfl, by simp, .call (c := .calm) hthread⟩
      | raise e =>
          rw [hthread] at hstart
          obtain ⟨_, hraise⟩ := hstart
          cases hraise
      | ret a =>
          rw [hthread] at hstart
          obtain ⟨error, hret⟩ := hstart
          cases hret
          cases error with
          | none => exact hown (.recovered howner hthread)
          | some e => exact hown (.notRecovered howner hthread)
  | starting => exact hown (.setStarted howner)
  | spawning i =>
      by_cases hi : i < count
      · exact hown (.spawn howner hi)
      · exact hown (.spawned howner hi)
  | stopping =>
      rcases hm with hm | hm
      · exact hown (.lockToStop howner hm)
      · rw [howner] at hm
        cases hm
  | stoppingLocked =>
      cases hstarted : s.started with
      | true => exact hown (.setStopping howner hstarted)
      | false => exact hown (.notStarted howner hstarted)
  | notifying => exact hown (.notifyAll howner)
  | joining i =>
      by_cases hi : i < s.workers
      · exact hown (.join howner hi (hended i))
      · exact ⟨_, _, rfl, by simp, .clear howner hi⟩

/-- **No deadlock.** While `start` or `stop` is under way or a worker is left, a thread of the pool can go on. -/
theorem SoundPool.proceeds (hs : SoundPool P limits count db h s)
    (hbusy : s.owner ≠ .outside ∨ ∃ n, s.point n ≠ .ended) : Proceeds P limits count s := by
  cases hm : s.mutex with
  | some holder =>
      match holder with
      | .worker n => exact hs.holder_proceeds hm
      | .owner =>
          have ho := hs.threads.ownerLocked.mp hm
          cases hstarted : s.started with
          | true => exact ⟨_, _, rfl, by simp [ho], .setStopping ho hstarted⟩
          | false => exact ⟨_, _, rfl, by simp [ho], .notStarted ho hstarted⟩
  | none =>
      by_cases hleft : ∃ n, s.point n ≠ .ended
      · obtain ⟨n, hn⟩ := hleft
        exact hs.worker_proceeds hm hn
      · have hended : ∀ n, s.point n = .ended := fun n => by
          by_contra hn
          exact hleft ⟨n, hn⟩
        exact hs.owner_proceeds (hbusy.resolve_right hleft) (Or.inl hm) hended

/-- What a pool is in every state: one thread at most between the locking and the release of the mutex, no
    more workers than it has been given, none left where it is not started (so that `start` alone uses the
    flags when it writes them without the mutex), and never stuck. -/
structure PoolSafe (P : Platform) (limits : PostgreSQLRepositoryLimits) (count : Nat) (s : PoolThreads) :
    Prop where
  exclusive : ∀ n, (s.point n).locked = true →
    s.owner ≠ .stoppingLocked ∧ ∀ m, (s.point m).locked = true → m = n
  bounded : ∀ n, s.point n ≠ .ended → n < count
  stopped : s.started = false → ∀ n, s.point n = .ended
  working : s.owner = .outside → s.started = true → s.stopping = false ∧ s.workers = count
  proceeds : s.owner ≠ .outside ∨ (∃ n, s.point n ≠ .ended) → Proceeds P limits count s

/-- **The lifecycle of the pool**, whatever its owner, its clients, the judge and the database do. -/
theorem pool_lifecycle (hrun : Run (ThreadStep P limits count) (.new db) h s) :
    PoolSafe P limits count s := by
  have hs := soundPool_of_run hrun
  constructor
  · intro n hn
    have hmutex := (hs.threads.workerLocked n).mpr hn
    refine ⟨fun ho => ?_, fun m hm => ?_⟩
    · rw [hs.threads.ownerLocked.mpr ho] at hmutex
      cases hmutex
    · rw [(hs.threads.workerLocked m).mpr hm] at hmutex
      cases hmutex
      rfl
  · exact fun n hn => hs.threads.bounded hn
  · intro hstarted n
    by_contra hn
    rw [hs.threads.started_of_created hn] at hstarted
    cases hstarted
  · intro ho hstarted
    have hfits := hs.threads.fits
    rw [ho] at hfits
    exact hfits.1 hstarted
  · exact hs.proceeds

/-! ## Claims within one instance -/

/-- A run in which nothing held is recovered keeps the invariant of the claims. -/
theorem soundClaims_of_unheld {I : Instances Unit} {es : List (PoolEvent Unit)} {p : WorkerPool Unit}
    (hdb : db.Checked)
    (hrun : Guarded (RecoversUnheld P) (Step (serve P) (control P I)) (idlePool Unit db) es p) :
    SoundClaims P es p.shared := by
  have hinit : SoundClaims P ([] : List (PoolEvent Unit)) db :=
    ⟨hdb, fun _ _ hi => (by cases hi), fun _ _ _ hi => (by cases hi), fun _ _ hi => (by cases hi), trivial⟩
  refine (threads_follow (workerProtocol P) .free PoolControl.resets (fun _ _ => True) (SoundClaims P) hrun
    hinit (fun _ => trivial) (fun h p i c q hguard hJ hq => hJ.call hq (by rintro rfl; exact hguard)) ?_).1
  intro h p b p' _ hJ _ hb
  obtain ⟨hshared, hthreads⟩ := control_spec hb
  rw [hshared]
  exact ⟨hJ.control b, hthreads⟩

/-- **Claims within one instance** are exclusive, over any number of starts and stops: its `start` recovers
    only what nobody holds. -/
theorem instance_claims_exclusive (hdb : db.Checked)
    (hrun : Run (ThreadStep P limits count) (.new db) h s) :
    Guarded (RecoversUnheld P) (Step (serve P) (control P (oneInstance count limits)))
        (idlePool Unit db) (events h) s.pool ∧
      (∀ i j id, Holds P (events h) i id → Holds P (events h) j id → i = j) ∧ OwnReports (events h) ∧
      (s.started = false → ∀ i id, ¬ Holds P (events h) i id) := by
  have hs := soundPool_of_run hrun
  have hclaims := soundClaims_of_unheld hdb hs.run
  exact ⟨hs.run, hclaims.exclusive, hclaims.reports, hs.programs.unheld⟩

/-! ## How `stop` returns -/

/-- How many steps a worker takes at most until it has ended, once `stopping_` is set. -/
def WorkerPoint.remaining (turn : Nat) : WorkerPoint → Nat
  | ended => 0
  | checkingLocked | wokenLocked => 1
  | checking | woken => 2
  | asleep => 3
  | idlingLocked => 4
  | idling => 5
  | processing => turn + 6

/-- How many steps the owner still takes in `stop`. -/
def OwnerPoint.remaining (count : Nat) : OwnerPoint → Nat
  | notifying => count + 2
  | joining i => count - i + 1
  | _ => 0

/-- How many steps the pool's threads take at most until `stop` returns. -/
def remaining (count : Nat) (h : List ThreadLabel) (s : PoolThreads) : Nat :=
  ∑ n ∈ Finset.range count, (s.point n).remaining (turnPhase h n) + s.owner.remaining count

/-- The step is a claim of the worker. -/
def ThreadLabel.claimedBy (n : Nat) : ThreadLabel → Bool
  | .pool (.call (.worker () m) _ x) => m == n && x.request.claims
  | _ => false

/-- The worker is in a turn and has not claimed in it. -/
def MayClaim (h : List ThreadLabel) (s : PoolThreads) (n : Nat) : Prop :=
  s.point n = .processing ∧ turnPhase h n = 4

/-- What `h` has done since `stop` set the flag, after the history `h₀`: the steps so far and those remaining
    are within the budget, and no worker has claimed twice. -/
structure Stopping (P : Platform) (limits : PostgreSQLRepositoryLimits) (count : Nat) (db : Database)
    (h₀ h : List ThreadLabel) (s : PoolThreads) : Prop where
  sound : SoundPool P limits count db (h ++ h₀) s
  inStop : s.owner = .notifying ∨ (∃ i, s.owner = .joining i) ∨ (s.owner = .outside ∧ s.started = false)
  budget : h.countP ThreadLabel.ofPool + remaining count (h ++ h₀) s ≤ 11 * count + 2
  claims : ∀ n, h.countP (·.claimedBy n) ≤ 1 ∧ (MayClaim (h ++ h₀) s n → h.countP (·.claimedBy n) = 0)

theorem WorkerPoint.remaining_le {turn : Nat} (hturn : turn ≤ 4) (at_ : WorkerPoint) :
    at_.remaining turn ≤ 10 := by
  cases at_ <;> simp only [WorkerPoint.remaining] <;> omega

/-- Where the workers' points and turns are left alone or brought nearer to the end, the sum does not grow;
    and where one of them goes on, it shrinks. -/
theorem remaining_workers {h' : List ThreadLabel} (hn : n < count)
    (hother : ∀ m, m ≠ n →
      (s'.point m).remaining (turnPhase h' m) ≤ (s.point m).remaining (turnPhase h m))
    (hself : (s'.point n).remaining (turnPhase h' n) + 1 ≤ (s.point n).remaining (turnPhase h n)) :
    ∑ m ∈ Finset.range count, (s'.point m).remaining (turnPhase h' m) + 1 ≤
      ∑ m ∈ Finset.range count, (s.point m).remaining (turnPhase h m) := by
  apply Nat.succ_le_of_lt
  apply Finset.sum_lt_sum
  · intro m _
    by_cases hmn : m = n
    · subst hmn
      omega
    · exact hother m hmn
  · exact ⟨n, Finset.mem_range.mpr hn, hself⟩

/-- A worker goes on: the owner is where it was. -/
theorem remaining_of_worker {h' : List ThreadLabel} (hn : n < count) (howner : s'.owner = s.owner)
    (hother : ∀ m, m ≠ n → s'.point m = s.point m ∧ turnPhase h' m = turnPhase h m)
    (hself : (s'.point n).remaining (turnPhase h' n) + 1 ≤ (s.point n).remaining (turnPhase h n)) :
    remaining count h' s' + 1 ≤ remaining count h s := by
  have hworkers : ∀ m, m ≠ n →
      (s'.point m).remaining (turnPhase h' m) ≤ (s.point m).remaining (turnPhase h m) := fun m hm => by
    rw [(hother m hm).1, (hother m hm).2]
  have hsum := remaining_workers hn hworkers hself
  unfold remaining
  rw [howner]
  omega

theorem turnPhase_le (h : List ThreadLabel) (n : Nat) : turnPhase h n ≤ 4 := by
  induction h with
  | nil => exact Nat.le_refl 4
  | cons l h ih =>
      match l with
      | .owner _ => exact ih
      | .worker _ _ => exact ih
      | .pool (.control b) =>
          show (if b.resets (.worker () n) = true then 4 else turnPhase h n) ≤ 4
          split
          · exact Nat.le_refl 4
          · exact ih
      | .pool (.call i c x) =>
          by_cases hi : PoolThread.worker () n = i
          · subst hi
            rw [turnPhase_self]
            omega
          · rw [turnPhase_other hi]
            exact ih

/-- In `stop` the flag is set. -/
theorem Stopping.stopping {h₀ : List ThreadLabel} (hs : Stopping P limits count db h₀ h s)
    (ho : s.owner ≠ .outside) : s.stopping = true ∧ s.owner ≠ .recovering := by
  have hfits := hs.sound.threads.fits
  rcases hs.inStop with hi | ⟨i, hi⟩ | hi
  · rw [hi] at hfits
    exact ⟨hfits.2.1, by simp [hi]⟩
  · rw [hi] at hfits
    exact ⟨hfits.2.1, by simp [hi]⟩
  · exact absurd hi.1 ho

/-- A worker goes on between its turns. -/
theorem Stopping.move {h₀ : List ThreadLabel} (hs : Stopping P limits count db h₀ h s)
    {after at_ : WorkerPoint} {mutex : Option MutexHolder}
    (hsound : SoundPool P limits count db (.worker n at_ :: h ++ h₀)
      { s with mutex := mutex, point := Function.update s.point n after })
    (hended : s.point n ≠ .ended) (hafter : after ≠ .processing)
    (hless : after.remaining (turnPhase (h ++ h₀) n) + 1 ≤ (s.point n).remaining (turnPhase (h ++ h₀) n)) :
    Stopping P limits count db h₀ (.worker n at_ :: h)
      { s with mutex := mutex, point := Function.update s.point n after } where
  sound := hsound
  inStop := hs.inStop
  budget := by
    have hstep : remaining count (.worker n at_ :: (h ++ h₀))
        { s with mutex := mutex, point := Function.update s.point n after } + 1 ≤
          remaining count (h ++ h₀) s := by
      refine remaining_of_worker (hs.sound.threads.bounded hended) rfl (fun m hm => ⟨?_, rfl⟩) ?_
      · exact Function.update_of_ne hm ..
      · show (Function.update s.point n after n).remaining _ + 1 ≤ _
        rw [Function.update_self]
        exact hless
    have hbudget := hs.budget
    rw [List.countP_cons_of_pos rfl, List.cons_append]
    omega
  claims m := by
    rw [List.countP_cons_of_neg (by simp [ThreadLabel.claimedBy])]
    refine ⟨(hs.claims m).1, fun hmay => (hs.claims m).2 ?_⟩
    obtain ⟨hpoint, hphase⟩ := hmay
    by_cases hmn : m = n
    · subst hmn
      exact absurd (by simpa using hpoint) hafter
    · exact ⟨by simpa [Function.update_of_ne hmn] using hpoint, hphase⟩

/-- A worker makes a call of its turn. -/
theorem Stopping.call {h₀ : List ThreadLabel} (hs : Stopping P limits count db h₀ h s)
    {c : Choice} {q : BackendRequest} {r : q.Reply} {p : WorkerPool Unit}
    (hsound : SoundPool P limits count db (.pool (.call (.worker () n) c ⟨q, r⟩) :: h ++ h₀)
      { s with pool := p })
    (hp : s.point n = .processing) (hallowed : turnProtocol.allowed (turnPhase (h ++ h₀) n) q) :
    Stopping P limits count db h₀ (.pool (.call (.worker () n) c ⟨q, r⟩) :: h) { s with pool := p } where
  sound := hsound
  inStop := hs.inStop
  budget := by
    have hstep : remaining count (.pool (.call (.worker () n) c ⟨q, r⟩) :: (h ++ h₀))
        { s with pool := p } + 1 ≤ remaining count (h ++ h₀) s := by
      refine remaining_of_worker (hs.sound.threads.bounded (n := n) (by simp [hp])) rfl
        (fun m hm => ⟨rfl, turnPhase_other (by simpa using hm)⟩) ?_
      show (s.point n).remaining _ + 1 ≤ _
      rw [hp, turnPhase_self]
      have := hallowed.1
      simp only [WorkerPoint.remaining]
      omega
    have hbudget := hs.budget
    rw [List.countP_cons_of_pos rfl, List.cons_append]
    omega
  claims m := by
    obtain ⟨hone, hmay⟩ := hs.claims m
    have hle := turnPhase_le (h ++ h₀) n
    rw [List.countP_cons]
    by_cases hmn : m = n
    · subst hmn
      have hphase : turnPhase (.pool (.call (.worker () m) c ⟨q, r⟩) :: h ++ h₀) m
          = turnPhase (h ++ h₀) m - 1 := turnPhase_self
      cases hq : q.claims with
      | true =>
          have hnone := hmay ⟨hp, hallowed.2.1 hq⟩
          refine ⟨?_, fun hlater => ?_⟩
          · rw [hnone]
            simp [ThreadLabel.claimedBy, hq]
          · have := hlater.2
            omega
      | false =>
          refine ⟨by simpa [ThreadLabel.claimedBy, hq] using hone, fun hlater => ?_⟩
          have := hlater.2
          have := hallowed.1
          omega
    · have hnot : ThreadLabel.claimedBy m (.pool (.call (.worker () n) c ⟨q, r⟩)) = false := by
        simp [ThreadLabel.claimedBy, Ne.symm hmn]
      have hphase : turnPhase (.pool (.call (.worker () n) c ⟨q, r⟩) :: h ++ h₀) m
          = turnPhase (h ++ h₀) m := turnPhase_other (by simpa using hmn)
      rw [hnot]
      refine ⟨hone, fun hlater => hmay ⟨hlater.1, ?_⟩⟩
      rw [← hphase]
      exact hlater.2

/-- A step of another thread, or one that only lets the workers' points come nearer to the end. -/
theorem Stopping.other {h₀ : List ThreadLabel} (hs : Stopping P limits count db h₀ h s)
    (hsound : SoundPool P limits count db (l :: h ++ h₀) s')
    (hstop : s'.owner = .notifying ∨ (∃ i, s'.owner = .joining i) ∨ (s'.owner = .outside ∧ s'.started = false))
    (hclaims : ∀ n, l.claimedBy n = false)
    (hworkers : ∀ n, (s'.point n).remaining (turnPhase (l :: h ++ h₀) n) ≤
      (s.point n).remaining (turnPhase (h ++ h₀) n))
    (howner : s'.owner.remaining count + (if l.ofPool = true then 1 else 0) ≤ s.owner.remaining count)
    (hmay : ∀ n, MayClaim (l :: h ++ h₀) s' n → MayClaim (h ++ h₀) s n) :
    Stopping P limits count db h₀ (l :: h) s' where
  sound := hsound
  inStop := hstop
  budget := by
    have hbudget := hs.budget
    have hsum : ∑ n ∈ Finset.range count, (s'.point n).remaining (turnPhase (l :: h ++ h₀) n) ≤
        ∑ n ∈ Finset.range count, (s.point n).remaining (turnPhase (h ++ h₀) n) :=
      Finset.sum_le_sum fun n _ => hworkers n
    unfold remaining at hbudget ⊢
    rw [List.countP_cons]
    omega
  claims n := by
    rw [List.countP_cons_of_neg (by simp [hclaims n])]
    exact ⟨(hs.claims n).1, fun h => (hs.claims n).2 (hmay n h)⟩

/-! One lemma for each kind of step that there can be in `stop`. -/

section steps
variable {h₀ : List ThreadLabel}

/-- A step of the backend's other threads. -/
theorem Stopping.aside (hs : Stopping P limits count db h₀ h s) {p : WorkerPool Unit}
    (hsound : SoundPool P limits count db (l :: h ++ h₀) { s with pool := p }) (hof : l.ofPool = false)
    (hclaims : ∀ n, l.claimedBy n = false)
    (hphase : ∀ n, turnPhase (l :: h ++ h₀) n = turnPhase (h ++ h₀) n) :
    Stopping P limits count db h₀ (l :: h) { s with pool := p } := by
  refine hs.other hsound hs.inStop hclaims (fun n => ?_) ?_ fun n hmay => ⟨hmay.1, ?_⟩
  · rw [hphase n]
  · simp [hof]
  · rw [← hphase n]
    exact hmay.2

theorem Stopping.notifyAll (hs : Stopping P limits count db h₀ h s) (ho : s.owner = .notifying)
    (hsound : SoundPool P limits count db (.owner (.joining 0) :: h ++ h₀)
      { s with point := fun n => (s.point n).notified, owner := .joining 0 }) :
    Stopping P limits count db h₀ (.owner (.joining 0) :: h)
      { s with point := fun n => (s.point n).notified, owner := .joining 0 } := by
  refine hs.other hsound (Or.inr (Or.inl ⟨0, rfl⟩)) (fun _ => rfl) (fun n => ?_) ?_ fun n hmay => ?_
  · show (s.point n).notified.remaining (turnPhase (h ++ h₀) n) ≤ _
    cases s.point n <;> simp [WorkerPoint.notified, WorkerPoint.remaining]
  · simp [ho, OwnerPoint.remaining, ThreadLabel.ofPool]
  · -- who is in a turn was in it before, since only sleepers are woken
    refine ⟨?_, hmay.2⟩
    have hpoint : (s.point n).notified = .processing := hmay.1
    cases hp : s.point n <;> rw [hp] at hpoint <;> cases hpoint

theorem Stopping.join (hs : Stopping P limits count db h₀ h s) {i : Nat} (ho : s.owner = .joining i)
    (hi : i < s.workers)
    (hsound : SoundPool P limits count db (.owner (.joining (i + 1)) :: h ++ h₀)
      { s with owner := .joining (i + 1) }) :
    Stopping P limits count db h₀ (.owner (.joining (i + 1)) :: h) { s with owner := .joining (i + 1) } := by
  refine hs.other hsound (Or.inr (Or.inl ⟨i + 1, rfl⟩)) (fun _ => rfl) (fun n => Nat.le_refl _) ?_
    fun n hmay => hmay
  have hfits := hs.sound.threads.fits
  rw [ho] at hfits
  have hworkers : s.workers = count := hfits.2.2.1
  simp only [ho, OwnerPoint.remaining, ThreadLabel.ofPool, if_true]
  omega

/-- The last step: every worker was joined, so none is in a turn any more. -/
theorem Stopping.clear (hs : Stopping P limits count db h₀ h s) {i : Nat} (ho : s.owner = .joining i)
    (hi : ¬ i < s.workers)
    (hsound : SoundPool P limits count db (.pool (.control (.exit ())) :: h ++ h₀)
      { s with pool := joined s.pool, workers := 0, started := false, owner := .outside }) :
    Stopping P limits count db h₀ (.pool (.control (.exit ())) :: h)
      { s with pool := joined s.pool, workers := 0, started := false, owner := .outside } := by
  have hfits := hs.sound.threads.fits
  rw [ho] at hfits
  obtain ⟨-, -, hworkers, hle, hjoined⟩ := hfits
  have hended : ∀ n, s.point n = .ended := by
    intro n
    by_contra hn
    have hcreated := hs.sound.threads.created n hn
    exact hn (hjoined n (by omega))
  refine hs.other hsound (Or.inr (Or.inr ⟨rfl, rfl⟩)) (fun _ => rfl) (fun n => ?_) ?_ fun n hmay => ?_
  · rw [hended n]
    exact Nat.le_refl 0
  · simp [ho, OwnerPoint.remaining, ThreadLabel.ofPool]
  · exact absurd (hmay.1.symm.trans (hended n)) (by simp)

theorem Stopping.lock (hs : Stopping P limits count db h₀ h s) (hp : (s.point n).locking = some after)
    (hsound : SoundPool P limits count db (.worker n after :: h ++ h₀)
      { s with mutex := some (.worker n), point := Function.update s.point n after }) :
    Stopping P limits count db h₀ (.worker n after :: h)
      { s with mutex := some (.worker n), point := Function.update s.point n after } := by
  refine hs.move hsound (WorkerPoint.locked_locking hp).2.2 ?_ ?_
  · rintro rfl
    exact absurd (WorkerPoint.locked_locking hp).2.1 (by decide)
  · cases hpoint : s.point n <;> rw [hpoint] at hp <;> cases hp <;> simp [WorkerPoint.remaining]

/-- A worker that gives the mutex up has seen the flag, and leaves its loop. -/
theorem Stopping.unlock (hs : Stopping P limits count db h₀ h s) (hstopping : s.stopping = true)
    (hp : (s.point n).unlocking s.stopping = some after)
    (hsound : SoundPool P limits count db (.worker n after :: h ++ h₀)
      { s with mutex := none, point := Function.update s.point n after }) :
    Stopping P limits count db h₀ (.worker n after :: h)
      { s with mutex := none, point := Function.update s.point n after } := by
  rw [hstopping] at hp
  refine hs.move hsound (WorkerPoint.locked_unlocking hp).2.2 ?_ ?_
  · rintro rfl
    cases hpoint : s.point n <;> rw [hpoint] at hp <;> cases hp
  · cases hpoint : s.point n <;> rw [hpoint] at hp <;> cases hp <;> simp [WorkerPoint.remaining]

theorem Stopping.turned (hs : Stopping P limits count db h₀ h s) {result : WorkResult}
    (hp : s.point n = .processing)
    (hsound : SoundPool P limits count db (.worker n (.afterTurn result) :: h ++ h₀)
      { s with point := Function.update s.point n (.afterTurn result) }) :
    Stopping P limits count db h₀ (.worker n (.afterTurn result) :: h)
      { s with point := Function.update s.point n (.afterTurn result) } := by
  refine hs.move hsound (by simp [hp]) (by cases result <;> decide) ?_
  rw [hp]
  cases result <;> simp only [WorkerPoint.afterTurn, WorkerPoint.remaining] <;> omega

/-- A call: of a worker in its turn, or of a client. The recovery is over. -/
theorem Stopping.answered (hs : Stopping P limits count db h₀ h s) (hrecovering : s.owner ≠ .recovering)
    {i : PoolThread Unit} {q : BackendRequest} {k : q.Reply → Call PoolResult} {c : Choice} {r : q.Reply}
    {p : WorkerPool Unit} (hq : s.pool.thread i = .call q k)
    (hsound : SoundPool P limits count db (.pool (.call i c ⟨q, r⟩) :: h ++ h₀) { s with pool := p }) :
    Stopping P limits count db h₀ (.pool (.call i c ⟨q, r⟩) :: h) { s with pool := p } := by
  match i with
  | .worker () n =>
      have hp : s.point n = .processing := by
        by_contra hp
        have hidle := hs.sound.programs.idle n hp
        rw [hq] at hidle
        cases hidle
      have hfollows := hs.sound.programs.turns n hp
      rw [hq] at hfollows
      exact hs.call hsound hp hfollows.1
  | .starter () =>
      have hstarted := (hs.sound.programs.recovered hrecovering).1
      rw [hq] at hstarted
      cases hstarted
  | .client m => exact hs.aside hsound rfl (fun _ => rfl) fun n => turnPhase_other (by simp)

/-- What a client controls concerns no worker. -/
theorem PoolControl.of_ofClient {b : PoolControl Unit} (hb : b.ofClient = true) :
    (ThreadLabel.pool (.control b)).ofPool = false ∧ ∀ n, b.resets (.worker () n) = false := by
  cases b with
  | create => exact ⟨rfl, fun _ => rfl⟩
  | retry => exact ⟨rfl, fun _ => rfl⟩
  | start => cases hb
  | work => cases hb
  | exit => cases hb

end steps

/-- **One step during `stop`.** -/
theorem Stopping.step {h₀ : List ThreadLabel} (hs : Stopping P limits count db h₀ h s)
    (ho : s.owner ≠ .outside) (hstep : ThreadStep P limits count s l s') :
    Stopping P limits count db h₀ (l :: h) s' := by
  have hsound := hs.sound.step hstep
  obtain ⟨hstopping, hrecovering⟩ := hs.stopping ho
  have howner : ∀ o, s.owner = o → o = .notifying ∨ ∃ i, o = .joining i := by
    rintro o rfl
    rcases hs.inStop with hi | hi | hi
    · exact Or.inl hi
    · exact Or.inr hi
    · exact absurd hi.1 ho
  cases hstep with
  -- the owner is in `stop`, past the flag, so these are not its steps
  | startAgain ho' => exact absurd ho' ho
  | start ho' => exact absurd ho' ho
  | stop ho' => exact absurd ho' ho
  | recovered ho' => exact absurd ho' hrecovering
  | notRecovered ho' => exact absurd ho' hrecovering
  | setStarted ho' => exact absurd (howner _ ho') (by simp)
  | spawn ho' => exact absurd (howner _ ho') (by simp)
  | spawned ho' => exact absurd (howner _ ho') (by simp)
  | lockToStop ho' => exact absurd (howner _ ho') (by simp)
  | notStarted ho' => exact absurd (howner _ ho') (by simp)
  | setStopping ho' => exact absurd (howner _ ho') (by simp)
  -- the flag is set, so no turn begins
  | turn hp hs' => exact absurd (hs'.symm.trans hstopping) (by simp)
  | notifyAll ho' => exact hs.notifyAll ho' hsound
  | join ho' hi he => exact hs.join ho' hi hsound
  | clear ho' hi => exact hs.clear ho' hi hsound
  | lock hp hm => exact hs.lock hp hsound
  | unlock hp => exact hs.unlock hstopping hp hsound
  | turned hp hr => exact hs.turned hp hsound
  | @wake n hp =>
      refine hs.move hsound (by simp [hp]) (by decide) ?_
      rw [hp]
      exact Nat.le_refl 3
  | @client b p hb hp =>
      obtain ⟨hof, hresets⟩ := PoolControl.of_ofClient hb
      exact hs.aside hsound hof (fun _ => rfl) fun n => turnPhase_control (hresets n)
  | call hq => exact hs.answered hrecovering hq hsound

/-- **`stop` returns.** From the moment it has set `stopping_` (at the end of the run `h₀`), whatever else
    happens: a thread of the pool can always go on, after `11 * count + 2` steps of theirs at most `stop` has
    returned, no worker claims more than once, and when it has returned no worker is left. -/
theorem stop_returns {h₀ : List ThreadLabel} {s₀ : PoolThreads}
    (hrun₀ : Run (ThreadStep P limits count) (.new db) h₀ s₀) (hset : s₀.owner = .notifying)
    (hrun : Guarded (fun _ s _ => s.owner ≠ .outside) (ThreadStep P limits count) s₀ h s) :
    h.countP ThreadLabel.ofPool ≤ 11 * count + 2 ∧
      (s.owner ≠ .outside → Proceeds P limits count s) ∧
      (∀ n, h.countP (·.claimedBy n) ≤ 1) ∧
      (s.owner = .outside → s.started = false ∧ ∀ n, s.point n = .ended) := by
  have hs₀ := soundPool_of_run hrun₀
  have hstart : Stopping P limits count db h₀ [] s₀ := by
    refine ⟨hs₀, Or.inl hset, ?_, fun n => ⟨Nat.zero_le 1, fun _ => rfl⟩⟩
    have hsum : ∑ n ∈ Finset.range count, (s₀.point n).remaining (turnPhase h₀ n) ≤ count * 10 := by
      have hle := Finset.sum_le_card_nsmul (Finset.range count)
        (fun n => (s₀.point n).remaining (turnPhase h₀ n)) 10
        fun n _ => WorkerPoint.remaining_le (turnPhase_le h₀ n) _
      simpa using hle
    show List.countP _ [] + remaining count ([] ++ h₀) s₀ ≤ _
    simp only [remaining, hset, OwnerPoint.remaining, List.countP_nil, List.nil_append]
    omega
  have hstop : Stopping P limits count db h₀ h s :=
    hrun.invariant hstart fun _ _ _ _ hs ho hstep => hs.step ho hstep
  refine ⟨?_, fun ho => hstop.sound.proceeds (Or.inl ho), fun n => (hstop.claims n).1, fun ho => ?_⟩
  · have := hstop.budget
    omega
  · have hstarted : s.started = false := by
      rcases hstop.inStop with hi | ⟨i, hi⟩ | hi
      · simp [hi] at ho
      · simp [hi] at ho
      · exact hi.2
    refine ⟨hstarted, fun n => ?_⟩
    by_contra hn
    rw [hstop.sound.threads.started_of_created hn] at hstarted
    cases hstarted

end pool

/-! ### A pool of one worker -/

/-- The pool is started, and its worker is created. -/
theorem oneWorkerStarted :
    ∃ h s, Run (ThreadStep .plain .unconfigured 1) (.new oneQueued) h s ∧ s.owner = .outside ∧
      s.mutex = none ∧ s.started = true ∧ s.stopping = false ∧ s.workers = 1 ∧ s.point 0 = .checking ∧
      s.pool.shared = (serve .plain (.execute .recoverRunning) .calm oneQueued).2 := by
  have h₁ : Run (ThreadStep .plain .unconfigured 1) (.new oneQueued) _ _ := .next .start (.start rfl rfl)
  have h₂ := Run.next h₁ (.call (i := .starter ()) (c := .calm) rfl)
  have h₃ := Run.next h₂ (.recovered rfl rfl)
  have h₄ := Run.next h₃ (.setStarted rfl)
  have h₅ := Run.next h₄ (.spawn rfl (by decide))
  have h₆ := Run.next h₅ (.spawned rfl (by decide))
  exact ⟨_, _, h₆, rfl, rfl, rfl, rfl, rfl, rfl, rfl⟩

/-- `stop` is called at once, and sets the flag before the worker has looked at it. -/
theorem oneWorkerStopping :
    ∃ h s, Run (ThreadStep .plain .unconfigured 1) (.new oneQueued) h s ∧ s.owner = .notifying ∧
      s.mutex = none ∧ s.stopping = true ∧ s.workers = 1 ∧ s.point 0 = .checking := by
  obtain ⟨h, s, hrun, ho, hm, hstarted, -, hworkers, hp, -⟩ := oneWorkerStarted
  have h₁ := Run.next hrun (.stop ho)
  have h₂ := Run.next h₁ (.lockToStop rfl hm)
  have h₃ := Run.next h₂ (.setStopping rfl hstarted)
  exact ⟨_, _, h₃, rfl, rfl, rfl, hworkers, hp⟩

theorem pool_lifecycle_stopping :
    ∃ s, s.owner = .notifying ∧ s.point 0 = .checking ∧ PoolSafe .plain .unconfigured 1 s := by
  obtain ⟨h, s, hrun, ho, -, -, -, hp⟩ := oneWorkerStopping
  exact ⟨s, ho, hp, pool_lifecycle hrun⟩

/-- The worker claims the submission. -/
theorem instance_claims_exclusive_claimed :
    ∃ h, Holds .plain (events h) (.worker () 0) 1 ∧
      ∀ i j id, Holds .plain (events h) i id → Holds .plain (events h) j id → i = j := by
  obtain ⟨h, s, hrun, -, hm, -, hstopping, -, hp, hdb⟩ := oneWorkerStarted
  have h₁ := Run.next hrun (.lock_at hp rfl hm)
  have h₂ := Run.next h₁ (.turn (n := 0) rfl hstopping)
  have h₃ := Run.next h₂ (.call (i := .worker () 0) (c := .calm) rfl)
  refine ⟨_, ?_, (instance_claims_exclusive (Database.checked_iff.mpr (by decide)) h₃).2.1⟩
  show Holds .plain (.call (.worker () 0) .calm ⟨_, (serve .plain _ .calm s.pool.shared).1⟩ :: _) _ 1
  rw [holds_self, hdb]
  rfl

/-- The worker sees the flag, and `stop` returns. -/
theorem stop_returns_one :
    ∃ (h : List ThreadLabel) (s : PoolThreads), h.countP ThreadLabel.ofPool ≤ 13 ∧ s.owner = .outside ∧
      s.started = false ∧ ∀ n, s.point n = .ended := by
  obtain ⟨h₀, s₀, hrun₀, ho, hm, hstopping, hworkers, hp⟩ := oneWorkerStopping
  have h₁ : Guarded (fun _ s _ => s.owner ≠ .outside) (ThreadStep .plain .unconfigured 1) s₀ _ _ :=
    .next .start (by simp [ho]) (.notifyAll ho)
  have hnotified : (s₀.point 0).notified = .checking := by rw [hp]; rfl
  have h₂ := h₁.next (by simp) (.lock_at hnotified rfl hm)
  have h₃ := h₂.next (by simp) (.unlock_at (Function.update_self ..) hstopping rfl)
  have h₄ := h₃.next (by simp) (.join rfl (by simp [hworkers]) rfl)
  have h₅ := h₄.next (by simp) (.clear rfl (by simp [hworkers]))
  obtain ⟨hcount, -, -, hended⟩ := stop_returns hrun₀ ho h₅
  exact ⟨_, _, hcount, rfl, hended rfl⟩

end AlgorithmTrainer
