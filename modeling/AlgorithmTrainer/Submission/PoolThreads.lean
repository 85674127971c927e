import AlgorithmTrainer.Submission.WorkerPool

/-!
# `Submission.PoolThreads` — the threads of one `SubmissionWorkerPool`

`Submission.WorkerPool` lets an instance start, a worker go on and an instance end whenever they may. Here is
what decides it in the code: `start` and `stop`, the loop of the workers, the mutex, the condition variable,
and the flags `stopping_` and `started_`. One thread, the owner, calls `start` and `stop`, as `main` and the
destructor do; a step is one access to the mutex, the flags or the threads, or one call of the backend.

`SoundThreads` is the invariant of the flags, the mutex and the points.
-/

namespace AlgorithmTrainer

open Interaction Interaction.Pool Transition PostgreSQLSubmissionRepository

/-- Where a worker is in `worker_loop`. Before it is created and after it returned it has `ended`. -/
inductive WorkerPoint where
  | checking
  | checkingLocked
  | processing
  | idling
  | idlingLocked
  | asleep
  | woken
  | wokenLocked
  | ended
deriving DecidableEq, Repr

namespace WorkerPoint

/-- The worker has the mutex. -/
def locked : WorkerPoint → Bool
  | checkingLocked | idlingLocked | wokenLocked => true
  | _ => false

/-- Where a worker that waits for the mutex is once it has it. -/
def locking : WorkerPoint → Option WorkerPoint
  | checking => some checkingLocked
  | idling => some idlingLocked
  | woken => some wokenLocked
  | _ => none

/-- Where a worker goes as it releases the mutex, unless it begins a turn. -/
def unlocking (stopping : Bool) : WorkerPoint → Option WorkerPoint
  | checkingLocked => if stopping then some ended else none
  -- `wait_for` releases the mutex and sleeps in one step
  | idlingLocked => some asleep
  | wokenLocked => some (if stopping then ended else checking)
  | _ => none

/-- After `process_one`. -/
def afterTurn : WorkResult → WorkerPoint
  | .processed => checking
  | .idle | .repositoryError => idling

/-- After `notify_all`. -/
def notified : WorkerPoint → WorkerPoint
  | asleep => woken
  | at_ => at_

end WorkerPoint

/-- Where the owner is in `start` or `stop`. -/
inductive OwnerPoint where
  | outside
  | recovering
  | starting
  | spawning (index : Nat)
  | stopping
  | stoppingLocked
  | notifying
  | joining (index : Nat)
deriving DecidableEq, Repr

inductive MutexHolder where
  | owner
  | worker (n : Nat)
deriving DecidableEq, Repr

/-- A pool object: the calls its threads still have to make, `mutex_`, the flags, the size of `workers_`, and
    where every thread is. -/
structure PoolThreads where
  pool : WorkerPool Unit
  mutex : Option MutexHolder
  stopping : Bool
  started : Bool
  workers : Nat
  owner : OwnerPoint
  point : Nat → WorkerPoint

/-- A new pool object. -/
def PoolThreads.new (db : Database) : PoolThreads :=
  ⟨idlePool Unit db, none, false, false, 0, .outside, fun _ => .ended⟩

/-- What a step was: a thread moved on, or a step of `Submission.WorkerPool`. -/
inductive ThreadLabel where
  | owner (after : OwnerPoint)
  | worker (n : Nat) (after : WorkerPoint)
  | pool (e : PoolEvent Unit)

/-- The instance that runs these threads. -/
def oneInstance (count : Nat) (limits : PostgreSQLRepositoryLimits) : Instances Unit :=
  ⟨fun _ => count, fun _ => limits⟩

/-- The joined threads are gone. -/
def joined (p : WorkerPool Unit) : WorkerPool Unit :=
  { p with thread := fun i => if i.ofInstance () then .ret .stopped else p.thread i }

/-- A request of a client. -/
def PoolControl.ofClient : PoolControl Unit → Bool
  | .create .. | .retry .. => true
  | _ => false

section threads
variable (P : Platform) (limits : PostgreSQLRepositoryLimits) (count : Nat)

/-- The steps of the threads. -/
inductive ThreadStep : PoolThreads → ThreadLabel → PoolThreads → Prop where
  -- `start`
  | startAgain {s : PoolThreads} (ho : s.owner = .outside) (hs : s.started = true) :
      ThreadStep s (.owner .outside) s
  | start {s : PoolThreads} (ho : s.owner = .outside) (hs : s.started = false) :
      ThreadStep s (.pool (.control (.start ())))
        { s with pool := respawn s.pool (.starter ()) startPool, owner := .recovering }
  | recovered {s : PoolThreads} (ho : s.owner = .recovering)
      (hr : s.pool.thread (.starter ()) = .ret (.started none)) :
      ThreadStep s (.owner .starting) { s with owner := .starting }
  | notRecovered {s : PoolThreads} {error : String} (ho : s.owner = .recovering)
      (hr : s.pool.thread (.starter ()) = .ret (.started (some error))) :
      ThreadStep s (.owner .outside) { s with owner := .outside }
  | setStarted {s : PoolThreads} (ho : s.owner = .starting) :
      ThreadStep s (.owner (.spawning 0))
        { s with stopping := false, started := true, owner := .spawning 0 }
  | spawn {s : PoolThreads} {i : Nat} (ho : s.owner = .spawning i) (hi : i < count) :
      ThreadStep s (.owner (.spawning (i + 1)))
        { s with
          point := Function.update s.point i .checking, workers := i + 1, owner := .spawning (i + 1) }
  | spawned {s : PoolThreads} {i : Nat} (ho : s.owner = .spawning i) (hi : ¬ i < count) :
      ThreadStep s (.owner .outside) { s with owner := .outside }
  -- `stop`
  | stop {s : PoolThreads} (ho : s.owner = .outside) :
      ThreadStep s (.owner .stopping) { s with owner := .stopping }
  | lockToStop {s : PoolThreads} (ho : s.owner = .stopping) (hm : s.mutex = none) :
      ThreadStep s (.owner .stoppingLocked)
        { s with mutex := some .owner, owner := .stoppingLocked }
  | notStarted {s : PoolThreads} (ho : s.owner = .stoppingLocked) (hs : s.started = false) :
      ThreadStep s (.owner .outside) { s with mutex := none, owner := .outside }
  | setStopping {s : PoolThreads} (ho : s.owner = .stoppingLocked) (hs : s.started = true) :
      ThreadStep s (.owner .notifying) { s with stopping := true, mutex := none, owner := .notifying }
  | notifyAll {s : PoolThreads} (ho : s.owner = .notifying) :
      ThreadStep s (.owner (.joining 0))
        { s with point := fun n => (s.point n).notified, owner := .joining 0 }
  | join {s : PoolThreads} {i : Nat} (ho : s.owner = .joining i) (hi : i < s.workers)
      (he : s.point i = .ended) :
      ThreadStep s (.owner (.joining (i + 1))) { s with owner := .joining (i + 1) }
  | clear {s : PoolThreads} {i : Nat} (ho : s.owner = .joining i) (hi : ¬ i < s.workers) :
      ThreadStep s (.pool (.control (.exit ())))
        { s with pool := joined s.pool, workers := 0, started := false, owner := .outside }
  -- `worker_loop`
  | lock {s : PoolThreads} {n : Nat} {after : WorkerPoint} (hp : (s.point n).locking = some after)
      (hm : s.mutex = none) :
      ThreadStep s (.worker n after)
        { s with mutex := some (.worker n), point := Function.update s.point n after }
  | unlock {s : PoolThreads} {n : Nat} {after : WorkerPoint}
      (hp : (s.point n).unlocking s.stopping = some after) :
      ThreadStep s (.worker n after) { s with mutex := none, point := Function.update s.point n after }
  | turn {s : PoolThreads} {n : Nat} (hp : s.point n = .checkingLocked) (hs : s.stopping = false) :
      ThreadStep s (.pool (.control (.work () n)))
        { s with
          pool := respawn s.pool (.worker () n) (worker P limits)
          mutex := none
          point := Function.update s.point n .processing }
  | turned {s : PoolThreads} {n : Nat} {result : WorkResult} (hp : s.point n = .processing)
      (hr : s.pool.thread (.worker () n) = .ret (.worked result)) :
      ThreadStep s (.worker n (.afterTurn result))
        { s with point := Function.update s.point n (.afterTurn result) }
  -- the time is out, or `notify` has woken it, or nothing has
  | wake {s : PoolThreads} {n : Nat} (hp : s.point n = .asleep) :
      ThreadStep s (.worker n .woken) { s with point := Function.update s.point n .woken }
  -- the backend
  | client {s : PoolThreads} {b : PoolControl Unit} {p : WorkerPool Unit} (hb : b.ofClient = true)
      (hp : control P (oneInstance count limits) b s.pool = some p) :
      ThreadStep s (.pool (.control b)) { s with pool := p }
  | call {s : PoolThreads} {i : PoolThread Unit} {q : BackendRequest} {k : q.Reply → Call PoolResult}
      {c : Choice} (hq : s.pool.thread i = .call q k) :
      ThreadStep s (.pool (.call i c ⟨q, (serve P q c s.pool.shared).1⟩))
        { s with
          pool := ⟨(serve P q c s.pool.shared).2,
            Function.update s.pool.thread i (k (serve P q c s.pool.shared).1)⟩ }

end threads

/-! ## The flags, the mutex and the workers -/

/-- What holds of the flags and the workers where the owner is. -/
def OwnerPoint.Fits (count : Nat) (s : PoolThreads) : OwnerPoint → Prop
  | .outside | .stopping | .stoppingLocked =>
      (s.started = true → s.stopping = false ∧ s.workers = count) ∧ (s.started = false → s.workers = 0)
  | .recovering | .starting => s.started = false ∧ s.workers = 0
  | .spawning i => s.started = true ∧ s.stopping = false ∧ s.workers = i ∧ i ≤ count
  | .notifying => s.started = true ∧ s.stopping = true ∧ s.workers = count
  | .joining i => s.started = true ∧ s.stopping = true ∧ s.workers = count ∧ i ≤ count ∧
      ∀ n < i, s.point n = .ended

/-- The invariant of the flags, the mutex and the workers. -/
structure SoundThreads (count : Nat) (s : PoolThreads) : Prop where
  ownerLocked : s.mutex = some .owner ↔ s.owner = .stoppingLocked
  workerLocked : ∀ n, s.mutex = some (.worker n) ↔ (s.point n).locked = true
  created : ∀ n, s.point n ≠ .ended → n < s.workers
  fits : s.owner.Fits count s

section sound
variable {P : Platform} {limits : PostgreSQLRepositoryLimits} {count : Nat} {s s' : PoolThreads}
  {l : ThreadLabel} {n : Nat} {after : WorkerPoint}

theorem WorkerPoint.locked_locking {at_ : WorkerPoint} (h : at_.locking = some after) :
    at_.locked = false ∧ after.locked = true ∧ at_ ≠ .ended := by
  cases at_ <;> cases h <;> decide

theorem WorkerPoint.locked_unlocking {at_ : WorkerPoint} {stopping : Bool}
    (h : at_.unlocking stopping = some after) :
    at_.locked = true ∧ after.locked = false ∧ at_ ≠ .ended := by
  cases at_ <;> cases stopping <;> cases h <;> decide

@[simp] theorem WorkerPoint.locked_afterTurn (r : WorkResult) : (WorkerPoint.afterTurn r).locked = false := by
  cases r <;> rfl

@[simp] theorem WorkerPoint.locked_notified (at_ : WorkerPoint) : at_.notified.locked = at_.locked := by
  cases at_ <;> rfl

theorem WorkerPoint.notified_eq_ended {at_ : WorkerPoint} : at_.notified = .ended ↔ at_ = .ended := by
  cases at_ <;> decide

theorem WorkerPoint.ne_ended {at_ : WorkerPoint} (h : at_.locked = true) : at_ ≠ .ended := by
  rintro rfl
  cases h

/-- Only the flags, the number of workers and their points matter to `Fits`. -/
theorem OwnerPoint.Fits.frame {o : OwnerPoint} (h : o.Fits count s) (hstarted : s'.started = s.started)
    (hstopping : s'.stopping = s.stopping) (hworkers : s'.workers = s.workers)
    (hpoint : ∀ n, s.point n = .ended → s'.point n = .ended) : o.Fits count s' := by
  cases o with
  | joining i =>
      obtain ⟨h₁, h₂, h₃, h₄, h₅⟩ := h
      exact ⟨hstarted.trans h₁, hstopping.trans h₂, hworkers.trans h₃, h₄,
        fun n hn => hpoint n (h₅ n hn)⟩
  | _ =>
      simp only [OwnerPoint.Fits, hstarted, hstopping, hworkers] at h ⊢
      exact h

/-- Where the worker is that moved. -/
theorem update_ended (hended : s.point n ≠ .ended) (m : Nat) (hm : s.point m = .ended) :
    Function.update s.point n after m = .ended := by
  have hne : m ≠ n := by
    rintro rfl
    exact hended hm
  rw [Function.update_of_ne hne, hm]

theorem SoundThreads.created_update (h : SoundThreads count s) (hended : s.point n ≠ .ended) (k : Nat)
    (hk : Function.update s.point n after k ≠ .ended) : k < s.workers := by
  by_cases hkn : k = n
  · subst hkn
    exact h.created k hended
  · apply h.created k
    rwa [Function.update_of_ne hkn] at hk

/-- A worker goes on without taking or releasing the mutex. -/
theorem SoundThreads.move (h : SoundThreads count s) (hended : s.point n ≠ .ended)
    (hlocked : after.locked = (s.point n).locked) (pool : WorkerPool Unit) :
    SoundThreads count { s with pool := pool, point := Function.update s.point n after } where
  ownerLocked := h.ownerLocked
  workerLocked k := by
    by_cases hk : k = n
    · subst hk
      show _ ↔ (Function.update s.point k after k).locked = true
      rw [Function.update_self, hlocked]
      exact h.workerLocked k
    · show _ ↔ (Function.update s.point n after k).locked = true
      rw [Function.update_of_ne hk]
      exact h.workerLocked k
  created := h.created_update hended
  fits := h.fits.frame rfl rfl rfl (update_ended hended)

/-- A worker takes the mutex, which is free. -/
theorem SoundThreads.lock (h : SoundThreads count s) (hm : s.mutex = none)
    (hp : (s.point n).locking = some after) :
    SoundThreads count { s with mutex := some (.worker n), point := Function.update s.point n after } where
  ownerLocked := by
    have hnot : s.owner ≠ .stoppingLocked := fun ho => by
      rw [h.ownerLocked.mpr ho] at hm
      cases hm
    exact ⟨fun hmutex => (by cases hmutex), fun ho => absurd ho hnot⟩
  workerLocked k := by
    show some (MutexHolder.worker n) = _ ↔ (Function.update s.point n after k).locked = true
    by_cases hk : k = n
    · subst hk
      rw [Function.update_self]
      exact ⟨fun _ => (WorkerPoint.locked_locking hp).2.1, fun _ => rfl⟩
    · rw [Function.update_of_ne hk, ← h.workerLocked k, hm]
      constructor
      · intro hmutex
        cases hmutex
        exact absurd rfl hk
      · intro hmutex
        cases hmutex
  created := h.created_update (WorkerPoint.locked_locking hp).2.2
  fits := h.fits.frame rfl rfl rfl (update_ended (WorkerPoint.locked_locking hp).2.2)

/-- A worker releases the mutex. -/
theorem SoundThreads.unlock (h : SoundThreads count s) (hlocked : (s.point n).locked = true)
    (hafter : after.locked = false) (pool : WorkerPool Unit) :
    SoundThreads count
      { s with mutex := none, pool := pool, point := Function.update s.point n after } where
  ownerLocked := by
    have hmutex := (h.workerLocked n).mpr hlocked
    have hnot : s.owner ≠ .stoppingLocked := fun ho => by
      rw [h.ownerLocked.mpr ho] at hmutex
      cases hmutex
    exact ⟨fun hnone => (by cases hnone), fun ho => absurd ho hnot⟩
  workerLocked k := by
    show none = some (MutexHolder.worker k) ↔ (Function.update s.point n after k).locked = true
    by_cases hk : k = n
    · subst hk
      rw [Function.update_self, hafter]
      simp
    · rw [Function.update_of_ne hk, ← h.workerLocked k, (h.workerLocked n).mpr hlocked]
      simp [Ne.symm hk]
  created := h.created_update (WorkerPoint.ne_ended hlocked)
  fits := h.fits.frame rfl rfl rfl (update_ended (WorkerPoint.ne_ended hlocked))

theorem SoundThreads.new (db : Database) : SoundThreads count (.new db) where
  ownerLocked := ⟨fun h => (by cases h), fun h => (by cases h)⟩
  workerLocked _ := ⟨fun h => (by cases h), fun h => (by cases h)⟩
  created _ h := absurd rfl h
  fits := ⟨fun h => (by cases h), fun _ => rfl⟩

/-- The owner goes on without the mutex. -/
theorem SoundThreads.own (h : SoundThreads count s) {o : OwnerPoint} {stopping started : Bool}
    (pool : WorkerPool Unit) (hs : s.owner ≠ .stoppingLocked) (ho : o ≠ .stoppingLocked)
    (hfits : o.Fits count { s with stopping := stopping, started := started }) :
    SoundThreads count
      { s with pool := pool, stopping := stopping, started := started, owner := o } where
  ownerLocked := ⟨fun hm => absurd (h.ownerLocked.mp hm) hs, fun h => absurd h ho⟩
  workerLocked := h.workerLocked
  created := h.created
  fits := by cases o <;> exact hfits

/-- The owner releases the mutex. -/
theorem SoundThreads.ownerUnlocks (h : SoundThreads count s) {o : OwnerPoint} {stopping : Bool}
    (hs : s.owner = .stoppingLocked) (ho : o ≠ .stoppingLocked)
    (hfits : o.Fits count { s with stopping := stopping }) :
    SoundThreads count { s with stopping := stopping, mutex := none, owner := o } where
  ownerLocked := ⟨fun hm => (by cases hm), fun h => absurd h ho⟩
  workerLocked n := by
    rw [← h.workerLocked n, h.ownerLocked.mpr hs]
    simp
  created := h.created
  fits := hfits.frame rfl rfl rfl fun _ hn => hn

/-- A thread is created: it has not run before. -/
theorem SoundThreads.spawn (h : SoundThreads count s) {i : Nat} (ho : s.owner = .spawning i)
    (hi : i < count) (hfits : (OwnerPoint.spawning i).Fits count s) :
    SoundThreads count { s with
      point := Function.update s.point i .checking, workers := i + 1, owner := .spawning (i + 1) } where
  ownerLocked := ⟨fun hm => absurd (h.ownerLocked.mp hm) (by simp [ho]), fun h => (by cases h)⟩
  workerLocked n := by
    rw [h.workerLocked n]
    by_cases hn : n = i
    · subst hn
      have hended : s.point n = .ended := by
        by_contra hne
        have := h.created n hne
        have := hfits.2.2.1
        omega
      simp [hended, WorkerPoint.locked]
    · show _ ↔ (Function.update s.point i .checking n).locked = true
      rw [Function.update_of_ne hn]
  created n hn := by
    show n < i + 1
    by_cases hni : n = i
    · omega
    · have hlt : n < s.workers := by
        apply h.created n
        intro he
        apply hn
        show Function.update s.point i .checking n = .ended
        rw [Function.update_of_ne hni, he]
      have := hfits.2.2.1
      omega
  fits := ⟨hfits.1, hfits.2.1, rfl, hi⟩

/-- **One step** keeps the invariant. -/
theorem SoundThreads.step (h : SoundThreads count s) (hstep : ThreadStep P limits count s l s') :
    SoundThreads count s' := by
  have hfits := h.fits
  cases hstep with
  | startAgain ho hs => exact h
  | start ho hs =>
      rw [ho] at hfits
      exact h.own (o := .recovering) _ (by simp [ho]) (by simp) ⟨hs, hfits.2 hs⟩
  | recovered ho hr =>
      rw [ho] at hfits
      exact h.own (o := .starting) _ (by simp [ho]) (by simp) hfits
  | notRecovered ho hr =>
      rw [ho] at hfits
      refine h.own (o := .outside) _ (by simp [ho]) (by simp) ⟨fun hs => ?_, fun _ => hfits.2⟩
      exact absurd hs (by simp [hfits.1])
  | setStarted ho =>
      rw [ho] at hfits
      exact h.own (o := .spawning 0) _ (by simp [ho]) (by simp) ⟨rfl, rfl, hfits.2, Nat.zero_le _⟩
  | @spawn i ho hi =>
      rw [ho] at hfits
      exact h.spawn ho hi hfits
  | @spawned i ho hi =>
      rw [ho] at hfits
      obtain ⟨hstarted, hstopping, hworkers, hle⟩ := hfits
      refine h.own (o := .outside) _ (by simp [ho]) (by simp) ⟨fun _ => ⟨hstopping, ?_⟩, fun hs => ?_⟩
      · show s.workers = count
        omega
      · exact absurd hs (by simp [hstarted])
  | stop ho =>
      rw [ho] at hfits
      exact h.own (o := .stopping) _ (by simp [ho]) (by simp) hfits
  | lockToStop ho hm =>
      rw [ho] at hfits
      refine ⟨⟨fun _ => rfl, fun _ => rfl⟩, fun n => ?_, h.created, hfits⟩
      show some MutexHolder.owner = _ ↔ _
      rw [← h.workerLocked n, hm]
      simp
  | notStarted ho hs =>
      rw [ho] at hfits
      exact h.ownerUnlocks (o := .outside) ho (by simp) hfits
  | setStopping ho hs =>
      rw [ho] at hfits
      exact h.ownerUnlocks (o := .notifying) ho (by simp) ⟨hs, rfl, (hfits.1 hs).2⟩
  | notifyAll ho =>
      rw [ho] at hfits
      refine ⟨⟨fun hm => ?_, fun h => (by cases h)⟩, fun n => ?_, fun n hn => ?_, ?_⟩
      · exact absurd (h.ownerLocked.mp hm) (by simp [ho])
      · rw [h.workerLocked n, WorkerPoint.locked_notified]
      · exact h.created n fun he => hn (WorkerPoint.notified_eq_ended.mpr he)
      · exact ⟨hfits.1, hfits.2.1, hfits.2.2, Nat.zero_le _, fun n hn => absurd hn (Nat.not_lt_zero n)⟩
  | @join i ho hi he =>
      rw [ho] at hfits
      obtain ⟨hstarted, hstopping, hworkers, hle, hjoined⟩ := hfits
      refine h.own (o := .joining (i + 1)) _ (by simp [ho]) (by simp)
        ⟨hstarted, hstopping, hworkers, by omega, fun n hn => ?_⟩
      rcases Nat.lt_succ_iff_lt_or_eq.mp hn with hlt | rfl
      · exact hjoined n hlt
      · exact he
  | @clear i ho hi =>
      rw [ho] at hfits
      obtain ⟨-, -, hworkers, hle, hjoined⟩ := hfits
      refine ⟨⟨fun hm => ?_, fun h => (by cases h)⟩, h.workerLocked, fun n hn => ?_,
        fun hs => (by cases hs), fun _ => rfl⟩
      · exact absurd (h.ownerLocked.mp hm) (by simp [ho])
      · -- all were joined
        exact absurd (hjoined n (by have := h.created n hn; omega)) hn
  | lock hp hm => exact h.lock hm hp
  | unlock hp =>
      exact h.unlock (WorkerPoint.locked_unlocking hp).1 (WorkerPoint.locked_unlocking hp).2.1 s.pool
  | turn hp hs => exact h.unlock (by rw [hp]; rfl) rfl _
  | turned hp hr => exact h.move (by simp [hp]) (by rw [hp, WorkerPoint.locked_afterTurn]; rfl) s.pool
  | wake hp => exact h.move (by simp [hp]) (by rw [hp]; rfl) s.pool
  | client hb hp => exact ⟨h.ownerLocked, h.workerLocked, h.created,
      h.fits.frame rfl rfl rfl fun _ hn => hn⟩
  | call hq => exact ⟨h.ownerLocked, h.workerLocked, h.created,
      h.fits.frame rfl rfl rfl fun _ hn => hn⟩

/-- A worker that has not ended belongs to a pool that has been started. -/
theorem SoundThreads.started_of_created (h : SoundThreads count s) (hn : s.point n ≠ .ended) :
    s.started = true := by
  have hlt := h.created n hn
  have hfits := h.fits
  by_contra hne
  have hstarted : s.started = false := by simpa using hne
  cases ho : s.owner <;> rw [ho] at hfits <;> simp_all [OwnerPoint.Fits]

theorem SoundThreads.bounded (h : SoundThreads count s) (hn : s.point n ≠ .ended) : n < count := by
  refine lt_of_lt_of_le (h.created n hn) ?_
  have hstarted := h.started_of_created hn
  have hfits := h.fits
  cases ho : s.owner <;> rw [ho] at hfits <;> simp only [OwnerPoint.Fits, hstarted] at hfits <;>
    simp at hfits <;> omega

theorem SoundThreads.owner_of_started (h : SoundThreads count s) (hs : s.started = true) :
    s.owner ≠ .recovering ∧ s.owner ≠ .starting := by
  have hfits := h.fits
  constructor <;> intro ho <;> rw [ho] at hfits <;> simp [hfits.1] at hs

end sound

end AlgorithmTrainer
