import AlgorithmTrainer.Submission.PoolThreads

/-!
# `Submission.PoolPrograms` — what the threads of a pool still have to call

A turn of a worker makes at most four calls, claims with the first of them only, and throws nothing
(`worker_turn`). `SoundPrograms` says of every thread that what it still calls fits where it is, and that
nothing is held while the pool is not started.
-/

namespace AlgorithmTrainer

open Interaction Interaction.Pool Transition PostgreSQLSubmissionRepository

/-! ## What the threads still have to call -/

/-- The request claims a submission. -/
def BackendRequest.claims : BackendRequest → Bool
  | .executeLocked _ (.claimSubmission _) => true
  | _ => false

/-- The request changes nothing in who holds a submission. -/
def Unclaiming (q : BackendRequest) : Prop := ∀ (φ : WorkerPhase) r, φ.next q r = φ

/-- What a client may ask. -/
def ClientRequest (q : BackendRequest) : Prop := Unclaiming q ∧ q ≠ .execute .recoverRunning

/-- The calls that a turn may still make: four at most, and the first of them may claim. -/
def turnProtocol : Protocol Backend Nat where
  allowed φ q := 0 < φ ∧ (q.claims = true → φ = 4) ∧ q ≠ .execute .recoverRunning
  admits _ _ _ := True
  next φ _ _ := φ - 1

/-- The thread ends with the result of a turn. -/
def Worked (o : Except Exception PoolResult) : Prop := ∃ result, o = .ok (.worked result)

/-- The thread ends with the result of `start`. -/
def Started (o : Except Exception PoolResult) : Prop := ∃ error, o = .ok (.started error)

section programs
variable {P : Platform} {limits : PostgreSQLRepositoryLimits} {φ : Nat} {id : Int}

/-- The outcome of a part of a turn that may make `k` calls. -/
def Within (k : Nat) {α : Type} (φ : Nat) (o : Except Exception α) : Prop := k ≤ φ ∧ o.isOk = true

theorem fail_turn (hφ : 0 < φ) (e : Option String) :
    turnProtocol.Follows (Within (φ - 1)) φ (PostgreSQLSubmissionRepository.fail P id e) :=
  ⟨⟨hφ, fun h => (by cases h), by simp⟩, fun _ _ => ⟨Nat.le_refl _, rfl⟩⟩

theorem report_turn (hφ : 2 ≤ φ) (v : Verdict) (e : Option String) :
    turnProtocol.Follows (Within 0) φ (report P id v e) := by
  refine ⟨⟨by omega, fun h => (by cases h), by simp⟩, fun result _ => ?_⟩
  simp only [Program.bind, Program.pure_eq]
  split
  · refine (fail_turn (φ := φ - 1) (by omega) _).bind (fun _ _ _ => ⟨Nat.zero_le _, rfl⟩) fun _ _ h => ?_
    exact ⟨Nat.zero_le _, h.2⟩
  · exact ⟨Nat.zero_le _, rfl⟩

theorem reportJudged_turn (hφ : 2 ≤ φ) (answer : JudgeResult) :
    turnProtocol.Follows (Within 0) φ (reportJudged P id answer) := by
  have hdone : ∀ (ψ : Nat) (e : Exception), Within 0 ψ (.error e : Except Exception Unit) →
      Within 0 ψ (.error e : Except Exception WorkResult) := fun _ _ h => ⟨h.1, h.2⟩
  cases answer with
  | judgeError message =>
      refine (fail_turn (by omega) _).bind (fun _ _ _ => ⟨Nat.zero_le _, rfl⟩) fun _ _ h => ?_
      exact ⟨Nat.zero_le _, h.2⟩
  | runtimeError type => exact (report_turn hφ _ _).bind (fun _ _ _ => ⟨Nat.zero_le _, rfl⟩) hdone
  | verdict v => exact (report_turn hφ _ _).bind (fun _ _ _ => ⟨Nat.zero_le _, rfl⟩) hdone

theorem judgeClaimed_turn (x : SubmissionRecord) :
    turnProtocol.Follows (Within 0) 3 (judgeClaimed P x) := by
  refine Protocol.Follows.tryCatch (R := fun φ o => o.isOk = false → 1 ≤ φ) ?_
    (fun _ _ _ => ⟨Nat.zero_le _, rfl⟩) fun φ e h => ?_
  · refine Protocol.Follows.bind (Q := fun φ _ => φ = 2) ?_ (fun φ answer hφ => ?_) fun φ e hφ _ => ?_
    · refine ⟨⟨by decide, fun h => (by cases h), by simp⟩, fun judged _ => ?_⟩
      cases judged <;> rfl
    · -- nothing is thrown after the judge has answered
      rw [hφ]
      exact (reportJudged_turn (Nat.le_refl 2) answer).mono fun _ o ho hfail => by
        rw [ho.2] at hfail
        cases hfail
    · rw [hφ]
      decide
  · have hφ : 1 ≤ φ := h rfl
    exact (fail_turn hφ _).bind (fun _ _ _ => ⟨Nat.zero_le _, rfl⟩) fun _ _ h => ⟨Nat.zero_le _, h.2⟩

theorem claimNext_turn :
    turnProtocol.Follows (fun φ o => φ = 3 ∧ o.isOk = true) 4 (claimNext P limits) := by
  refine ⟨⟨by decide, fun _ => rfl, by simp⟩, fun result _ => ?_⟩
  match result with
  | .tuples [] => exact ⟨rfl, rfl⟩
  | .tuples (row :: rows) => exact ⟨rfl, rfl⟩
  | .none => exact ⟨rfl, rfl⟩
  | .failed _ _ => exact ⟨rfl, rfl⟩
  | .command => exact ⟨rfl, rfl⟩

/-- **A turn** makes at most four calls, claims with the first one only, and throws nothing. -/
theorem worker_turn : turnProtocol.Follows (fun _ => Worked) 4 (worker P limits) := by
  have hturn : turnProtocol.Follows (Within 0) 4 (processOne P limits) := by
    refine claimNext_turn.bind (fun φ claimed h => ?_) fun _ _ h => ⟨Nat.zero_le _, h.2⟩
    match claimed with
    | .error _ => exact ⟨Nat.zero_le _, rfl⟩
    | .ok none => exact ⟨Nat.zero_le _, rfl⟩
    | .ok (some x) =>
        rw [h.1]
        exact judgeClaimed_turn x
  exact hturn.bind (fun _ result _ => ⟨result, rfl⟩) fun _ _ h => by cases h.2

theorem startPool_unclaiming : (Protocol.only Unclaiming).Follows (fun _ => Started) () startPool := by
  refine ⟨fun φ r => by cases r <;> rfl, fun result _ => ?_⟩
  cases result <;> exact ⟨_, rfl⟩

theorem client_requests {c : QueueCall} (hc : c.edge = none) :
    (Protocol.only ClientRequest).Follows (fun _ _ => True) () (client P limits c) := by
  have hcall : (Protocol.only ClientRequest).Follows (fun φ _ => φ = () ∧ True) () (c.program P limits) := by
    refine (c.program_follows P limits).of_only fun q hq => ⟨?_, fun _ => rfl⟩
    cases hq with
    | create r' => exact ⟨fun φ r => by cases r <;> rfl, by simp⟩
    | count r' => exact ⟨fun φ r => by cases r <;> rfl, by simp⟩
    | retry id admin => exact ⟨fun φ r => by cases r <;> rfl, by simp⟩
    | claimNext => cases hc
    | complete => cases hc
    | fail => cases hc
    | recoverRunning => cases hc
  exact hcall.bind (fun _ _ _ => trivial) fun _ _ _ => trivial

end programs

/-! ## The pool -/

/-- The step of `Submission.WorkerPool` that a step of the threads makes. -/
def ThreadLabel.event : ThreadLabel → Option (PoolEvent Unit)
  | .pool e => some e
  | _ => none

def events (h : List ThreadLabel) : List (PoolEvent Unit) := h.filterMap ThreadLabel.event

@[simp] theorem events_owner (o : OwnerPoint) (h : List ThreadLabel) :
    events (.owner o :: h) = events h := rfl
@[simp] theorem events_worker (n : Nat) (at_ : WorkerPoint) (h : List ThreadLabel) :
    events (.worker n at_ :: h) = events h := rfl
@[simp] theorem events_pool (e : PoolEvent Unit) (h : List ThreadLabel) :
    events (.pool e :: h) = e :: events h := rfl

/-- The calls that the turn of a worker may still make. -/
def turnPhase (h : List ThreadLabel) (n : Nat) : Nat :=
  phase turnProtocol 4 PoolControl.resets (events h) (.worker () n)

/-- The invariant of the programs: what every thread still calls fits where it is, and nothing is held while
    the pool is not started. -/
structure SoundPrograms (P : Platform) (h : List ThreadLabel) (s : PoolThreads) : Prop where
  idle : ∀ n, s.point n ≠ .processing → ended (s.pool.thread (.worker () n)) = true
  turns : ∀ n, s.point n = .processing →
    turnProtocol.Follows (fun _ => Worked) (turnPhase h n) (s.pool.thread (.worker () n))
  clients : ∀ n, (Protocol.only ClientRequest).Follows (fun _ _ => True) () (s.pool.thread (.client n))
  recovering : s.owner = .recovering →
    (Protocol.only Unclaiming).Follows (fun _ => Started) () (s.pool.thread (.starter ()))
  recovered : s.owner ≠ .recovering → ended (s.pool.thread (.starter ())) = true ∧
    (isStarted (s.pool.thread (.starter ())) = true ↔ s.owner = .starting ∨ s.started = true)
  clientsFree : ∀ n id, ¬ Holds P (events h) (.client n) id
  unheld : s.started = false → ∀ i id, ¬ Holds P (events h) i id

section pool
variable {P : Platform} {limits : PostgreSQLRepositoryLimits} {count : Nat} {s s' : PoolThreads}
  {h : List ThreadLabel} {l : ThreadLabel} {n : Nat} {after : WorkerPoint} {db : Database}

theorem SoundPrograms.new : SoundPrograms P [] (.new db) where
  idle _ _ := rfl
  turns _ hp := by cases hp
  clients _ := trivial
  recovering ho := by cases ho
  recovered _ := ⟨rfl, ⟨fun hs => (by cases hs), fun hs => (by rcases hs with hs | hs <;> cases hs)⟩⟩
  clientsFree _ _ hi := by cases hi
  unheld _ _ _ hi := by cases hi

/-- A worker that moves and neither begins nor is in a turn. -/
theorem SoundPrograms.move (hs : SoundPrograms P h s) (hp : ended (s.pool.thread (.worker () n)) = true)
    (hafter : after ≠ .processing) (at_ : WorkerPoint) (mutex : Option MutexHolder) :
    SoundPrograms P (.worker n at_ :: h)
      { s with mutex := mutex, point := Function.update s.point n after } where
  idle m hm := by
    by_cases hmn : m = n
    · rw [hmn]
      exact hp
    · apply hs.idle m
      simpa [Function.update_of_ne hmn] using hm
  turns m hm := by
    by_cases hmn : m = n
    · subst hmn
      exact absurd (by simpa using hm) hafter
    · apply hs.turns m
      simpa [Function.update_of_ne hmn] using hm
  clients := hs.clients
  recovering := hs.recovering
  recovered := hs.recovered
  clientsFree := hs.clientsFree
  unheld := hs.unheld

/-- The owner goes on, and no turn begins or ends. -/
theorem SoundPrograms.own (hs : SoundPrograms P h s) {o moved : OwnerPoint} {t : PoolThreads}
    (hpool : t.pool = s.pool) (howner : t.owner = o) (ho : o ≠ .recovering)
    (hpoint : ∀ n, t.point n = .processing ↔ s.point n = .processing)
    (hstarter : ended (s.pool.thread (.starter ())) = true ∧
      (isStarted (s.pool.thread (.starter ())) = true ↔ o = .starting ∨ t.started = true))
    (hstarted : t.started = false → s.started = false) : SoundPrograms P (.owner moved :: h) t where
  idle n hn := by
    rw [hpool]
    exact hs.idle n fun hp => hn ((hpoint n).mpr hp)
  turns n hn := by
    rw [hpool]
    exact hs.turns n ((hpoint n).mp hn)
  clients n := by
    rw [hpool]
    exact hs.clients n
  recovering hr := absurd (howner.symm.trans hr) ho
  recovered _ := by
    rw [hpool, howner]
    exact hstarter
  clientsFree := hs.clientsFree
  unheld ht := hs.unheld (hstarted ht)

/-- What a control step does to who holds what: the threads it resets hold nothing. -/
theorem holds_control {e : PoolControl Unit} {i : PoolThread Unit} {id : Int} {es : List (PoolEvent Unit)}
    (hi : Holds P (.control e :: es) i id) : e.resets i = false ∧ Holds P es i id := by
  unfold Holds workerPhase phase at hi
  split at hi
  · cases hi
  · rename_i hr
    exact ⟨Bool.eq_false_iff.mpr hr, hi⟩

theorem turnPhase_control {e : PoolControl Unit} (hr : e.resets (.worker () n) = false) :
    turnPhase (.pool (.control e) :: h) n = turnPhase h n := by
  show (if e.resets (.worker () n) = true then 4 else turnPhase h n) = _
  rw [hr]
  rfl

@[simp] theorem respawn_self (p : WorkerPool Unit) (i : PoolThread Unit) (program : Call PoolResult) :
    (respawn p i program).thread i = program := Function.update_self ..

theorem respawn_other {p : WorkerPool Unit} {i j : PoolThread Unit} (hji : j ≠ i)
    (program : Call PoolResult) : (respawn p i program).thread j = p.thread j :=
  Function.update_of_ne hji ..

/-- A call moves its thread on. -/
@[simp] theorem called_self {d : Database} {t : PoolThread Unit → Call PoolResult} {i : PoolThread Unit}
    {rest : Call PoolResult} : (⟨d, Function.update t i rest⟩ : WorkerPool Unit).thread i = rest :=
  Function.update_self ..

theorem called_other {d : Database} {t : PoolThread Unit → Call PoolResult} {i j : PoolThread Unit}
    {rest : Call PoolResult} (hji : j ≠ i) :
    (⟨d, Function.update t i rest⟩ : WorkerPool Unit).thread j = t j :=
  Function.update_of_ne hji ..

/-- `start` begins to recover. -/
theorem SoundPrograms.start (hs : SoundPrograms P h s) (hstarted : s.started = false) :
    SoundPrograms P (.pool (.control (.start ())) :: h)
      { s with pool := respawn s.pool (.starter ()) startPool, owner := .recovering } where
  idle n hn := by
    rw [respawn_other (by simp)]
    exact hs.idle n hn
  turns n hn := by
    rw [turnPhase_control rfl, respawn_other (by simp)]
    exact hs.turns n hn
  clients n := by
    rw [respawn_other (by simp)]
    exact hs.clients n
  recovering _ := by
    rw [respawn_self]
    exact startPool_unclaiming
  recovered ho := absurd rfl ho
  clientsFree n id hi := hs.clientsFree n id (holds_control hi).2
  unheld _ i id hi := hs.unheld hstarted i id (holds_control hi).2

/-- A turn begins. -/
theorem SoundPrograms.turn (hs : SoundPrograms P h s) (hstarted : s.started = true)
    (ho : s.owner ≠ .recovering) :
    SoundPrograms P (.pool (.control (.work () n)) :: h)
      { s with
        pool := respawn s.pool (.worker () n) (worker P limits)
        mutex := none
        point := Function.update s.point n .processing } where
  idle m hm := by
    have hmn : m ≠ n := by
      rintro rfl
      simp at hm
    rw [respawn_other (by simpa using hmn)]
    apply hs.idle m
    simpa [Function.update_of_ne hmn] using hm
  turns m hm := by
    by_cases hmn : m = n
    · subst hmn
      rw [respawn_self]
      have hphase : turnPhase (.pool (.control (.work () m)) :: h) m = 4 :=
        if_pos (by simp [PoolControl.resets])
      rw [hphase]
      exact worker_turn
    · rw [turnPhase_control (by simpa [PoolControl.resets] using hmn), respawn_other (by simpa using hmn)]
      apply hs.turns m
      simpa [Function.update_of_ne hmn] using hm
  clients m := by
    rw [respawn_other (by simp)]
    exact hs.clients m
  recovering hr := absurd hr ho
  recovered _ := by
    rw [respawn_other (by simp)]
    exact hs.recovered ho
  clientsFree m id hi := hs.clientsFree m id (holds_control hi).2
  unheld hfalse := absurd (hfalse.symm.trans hstarted) (by simp)

/-- All threads are joined. -/
theorem SoundPrograms.clear (hs : SoundPrograms P h s) (hended : ∀ n, s.point n = .ended) :
    SoundPrograms P (.pool (.control (.exit ())) :: h)
      { s with pool := joined s.pool, workers := 0, started := false, owner := .outside } where
  idle _ _ := rfl
  turns n hn := absurd (hn.symm.trans (hended n)) (by simp)
  clients := hs.clients
  recovering ho := by cases ho
  recovered _ := ⟨rfl, ⟨fun hr => (by cases hr), fun hr => (by rcases hr with hr | hr <;> cases hr)⟩⟩
  clientsFree n id hi := hs.clientsFree n id (holds_control hi).2
  unheld _ i id hi := by
    obtain ⟨hreset, hheld⟩ := holds_control hi
    match i with
    | .client n => exact hs.clientsFree n id hheld
    | .starter () => cases hreset
    | .worker () n => cases hreset

/-- A client begins a call. -/
theorem SoundPrograms.request (hs : SoundPrograms P h s) {b : PoolControl Unit} {p : WorkerPool Unit}
    (hb : b.ofClient = true) (hp : control P (oneInstance count limits) b s.pool = some p) :
    SoundPrograms P (.pool (.control b) :: h) { s with pool := p } := by
  -- both kinds of request give one client a program
  have hgiven : ∃ n c, c.edge = none ∧ p = respawn s.pool (.client n) (client P limits c) ∧
      ∀ m, b.resets (.worker () m) = false := by
    cases b with
    | create n k request =>
        simp only [control, Option.ite_none_right_eq_some, Option.some.injEq] at hp
        exact ⟨n, .create request, rfl, hp.2.symm, fun _ => rfl⟩
    | retry n k id admin =>
        simp only [control, Option.ite_none_right_eq_some, Option.some.injEq] at hp
        exact ⟨n, .retry id admin, rfl, hp.2.symm, fun _ => rfl⟩
    | start => cases hb
    | work => cases hb
    | exit => cases hb
  obtain ⟨n, c, hc, rfl, hresets⟩ := hgiven
  constructor
  · intro m hm
    rw [respawn_other (by simp)]
    exact hs.idle m hm
  · intro m hm
    rw [turnPhase_control (hresets m), respawn_other (by simp)]
    exact hs.turns m hm
  · intro m
    by_cases hmn : m = n
    · subst hmn
      rw [respawn_self]
      exact client_requests hc
    · rw [respawn_other (by simpa using hmn)]
      exact hs.clients m
  · intro ho
    rw [respawn_other (by simp)]
    exact hs.recovering ho
  · intro ho
    rw [respawn_other (by simp)]
    exact hs.recovered ho
  · exact fun m id hi => hs.clientsFree m id (holds_control hi).2
  · exact fun hstarted i id hi => hs.unheld hstarted i id (holds_control hi).2

/-- What a call does to the phase of its turn. -/
theorem turnPhase_self {c : Choice} {x : Exchange Backend} :
    turnPhase (.pool (.call (.worker () n) c x) :: h) n = turnPhase h n - 1 := by
  show phase turnProtocol 4 PoolControl.resets (.call (.worker () n) c x :: events h) (.worker () n) = _
  rw [phase_call_self]
  rfl

theorem turnPhase_other {i : PoolThread Unit} {c : Choice} {x : Exchange Backend}
    (hi : PoolThread.worker () n ≠ i) :
    turnPhase (.pool (.call i c x) :: h) n = turnPhase h n := by
  show phase turnProtocol 4 PoolControl.resets (.call i c x :: events h) (.worker () n) = _
  rw [phase_call_other hi]
  rfl

/-- The caller of a request that claims and reports nothing holds what it held. -/
theorem holds_unclaiming {i j : PoolThread Unit} {c : Choice} {q : BackendRequest} {r : q.Reply} {id : Int}
    {es : List (PoolEvent Unit)} (hq : Unclaiming q) (hj : Holds P (.call i c ⟨q, r⟩ :: es) j id) :
    Holds P es j id := by
  by_cases hji : j = i
  · subst hji
    rw [holds_self, hq] at hj
    exact hj
  · exact (holds_other hji).mp hj

/-- A call that no worker makes. -/
theorem SoundPrograms.otherCall (hs : SoundPrograms P h s) {i : PoolThread Unit} {c : Choice}
    {q : BackendRequest} {r : q.Reply} {rest : Call PoolResult} {d : Database} (hq : Unclaiming q)
    (hi : ∀ n, PoolThread.worker () n ≠ i)
    (hclients : ∀ n, i = .client n →
      (Protocol.only ClientRequest).Follows (fun _ _ => True) () rest)
    (hstarter : i = .starter () → s.owner = .recovering ∧
      (Protocol.only Unclaiming).Follows (fun _ => Started) () rest) :
    SoundPrograms P (.pool (.call i c ⟨q, r⟩) :: h)
      { s with pool := ⟨d, Function.update s.pool.thread i rest⟩ } where
  idle n hn := by
    rw [called_other (hi n)]
    exact hs.idle n hn
  turns n hn := by
    rw [turnPhase_other (hi n), called_other (hi n)]
    exact hs.turns n hn
  clients n := by
    by_cases hn : PoolThread.client n = i
    · subst hn
      rw [called_self]
      exact hclients n rfl
    · rw [called_other hn]
      exact hs.clients n
  recovering ho := by
    by_cases hn : PoolThread.starter () = i
    · subst hn
      rw [called_self]
      exact (hstarter rfl).2
    · rw [called_other hn]
      exact hs.recovering ho
  recovered ho := by
    have hn : PoolThread.starter () ≠ i := fun hn => ho (hstarter hn.symm).1
    rw [called_other hn]
    exact hs.recovered ho
  clientsFree n id hj := hs.clientsFree n id (holds_unclaiming hq hj)
  unheld hstarted j id hj := hs.unheld hstarted j id (holds_unclaiming hq hj)

/-- A call of a worker in its turn. -/
theorem SoundPrograms.workerCall (hs : SoundPrograms P h s) {c : Choice} {q : BackendRequest} {r : q.Reply}
    {rest : Call PoolResult} {d : Database} (hp : s.point n = .processing) (hstarted : s.started = true)
    (hrest : turnProtocol.Follows (fun _ => Worked) (turnPhase h n - 1) rest) :
    SoundPrograms P (.pool (.call (.worker () n) c ⟨q, r⟩) :: h)
      { s with pool := ⟨d, Function.update s.pool.thread (.worker () n) rest⟩ } where
  idle m hm := by
    have hmn : m ≠ n := by
      rintro rfl
      exact hm hp
    rw [called_other (by simpa using hmn)]
    exact hs.idle m hm
  turns m hm := by
    by_cases hmn : m = n
    · subst hmn
      rw [called_self, turnPhase_self]
      exact hrest
    · rw [turnPhase_other (by simpa using hmn), called_other (by simpa using hmn)]
      exact hs.turns m hm
  clients m := by
    rw [called_other (by simp)]
    exact hs.clients m
  recovering ho := by
    rw [called_other (by simp)]
    exact hs.recovering ho
  recovered ho := by
    rw [called_other (by simp)]
    exact hs.recovered ho
  clientsFree m id hj := hs.clientsFree m id ((holds_other (by simp)).mp hj)
  unheld hfalse := absurd (hfalse.symm.trans hstarted) (by simp)

/-- The owner goes on after the recovery. -/
theorem SoundPrograms.goOn (hs : SoundPrograms P h s) {o moved : OwnerPoint} {t : PoolThreads}
    (hpool : t.pool = s.pool) (howner : t.owner = o) (hbefore : s.owner ≠ .recovering) (ho : o ≠ .recovering)
    (hpoint : ∀ n, t.point n = .processing ↔ s.point n = .processing)
    (hsame : (o = .starting ∨ t.started = true) ↔ (s.owner = .starting ∨ s.started = true))
    (hstarted : t.started = false → s.started = false) : SoundPrograms P (.owner moved :: h) t := by
  obtain ⟨hended, hstarter⟩ := hs.recovered hbefore
  exact hs.own hpool howner ho hpoint ⟨hended, hstarter.trans hsame.symm⟩ hstarted

/-- The worker that is created has ended before, if it was there. -/
theorem SoundPrograms.spawn (ht : SoundThreads count s) (hs : SoundPrograms P h s) {i : Nat}
    (ho : s.owner = .spawning i) : SoundPrograms P (.owner (.spawning (i + 1)) :: h)
      { s with
        point := Function.update s.point i .checking, workers := i + 1, owner := .spawning (i + 1) } := by
  have hfits := ht.fits
  rw [ho] at hfits
  have hended : s.point i = .ended := by
    by_contra hne
    have hcreated := ht.created i hne
    have hworkers : s.workers = i := hfits.2.2.1
    omega
  refine hs.goOn (o := .spawning (i + 1)) rfl rfl (by simp [ho]) (by simp) (fun n => ?_) (by simp [ho]) id
  by_cases hn : n = i
  · subst hn
    simp [hended]
  · simp [Function.update_of_ne hn]

/-- Sleepers are woken, and who was in a turn is still in it. -/
theorem SoundPrograms.notifyAll (hs : SoundPrograms P h s) (ho : s.owner = .notifying) :
    SoundPrograms P (.owner (.joining 0) :: h)
      { s with point := fun n => (s.point n).notified, owner := .joining 0 } := by
  refine hs.goOn (o := .joining 0) rfl rfl (by simp [ho]) (by simp) (fun n => ?_) (by simp [ho]) id
  show (s.point n).notified = .processing ↔ _
  cases s.point n <;> decide

theorem SoundPrograms.lock (hs : SoundPrograms P h s) (hp : (s.point n).locking = some after) :
    SoundPrograms P (.worker n after :: h)
      { s with mutex := some (.worker n), point := Function.update s.point n after } := by
  refine hs.move (hs.idle n fun hn => ?_) (fun ha => ?_) _ _
  · rw [hn] at hp
    cases hp
  · have hlocked := (WorkerPoint.locked_locking hp).2.1
    rw [ha] at hlocked
    cases hlocked

theorem SoundPrograms.unlock (hs : SoundPrograms P h s) (hp : (s.point n).unlocking s.stopping = some after) :
    SoundPrograms P (.worker n after :: h)
      { s with mutex := none, point := Function.update s.point n after } := by
  refine hs.move (hs.idle n fun hn => ?_) (fun ha => ?_) _ _
  · rw [hn] at hp
    cases hp
  · rw [ha] at hp
    cases hpoint : s.point n <;> cases hstopping : s.stopping <;> rw [hpoint, hstopping] at hp <;> cases hp

/-- A call, by whoever has one left: a client, the starter during the recovery, or a worker in its turn. -/
theorem SoundPrograms.answered (ht : SoundThreads count s) (hs : SoundPrograms P h s) {i : PoolThread Unit}
    {q : BackendRequest} {k : q.Reply → Call PoolResult} {c : Choice} {r : q.Reply} {d : Database}
    (hq : s.pool.thread i = .call q k) : SoundPrograms P (.pool (.call i c ⟨q, r⟩) :: h)
      { s with pool := ⟨d, Function.update s.pool.thread i (k r)⟩ } := by
  match i with
  | .client n =>
      have hfollows := hs.clients n
      rw [hq] at hfollows
      refine hs.otherCall hfollows.1.1 (by simp) (fun m hm => ?_) fun hi => by cases hi
      exact hfollows.2 _ trivial
  | .starter () =>
      have ho : s.owner = .recovering := by
        by_contra ho
        have hended := (hs.recovered ho).1
        rw [hq] at hended
        cases hended
      have hfollows := hs.recovering ho
      rw [hq] at hfollows
      exact hs.otherCall hfollows.1 (by simp) (fun m hm => by cases hm) fun _ => ⟨ho, hfollows.2 _ trivial⟩
  | .worker () n =>
      have hp : s.point n = .processing := by
        by_contra hp
        have hidle := hs.idle n hp
        rw [hq] at hidle
        cases hidle
      have hfollows := hs.turns n hp
      rw [hq] at hfollows
      exact hs.workerCall hp (ht.started_of_created (n := n) (by simp [hp])) (hfollows.2 _ trivial)

/-- **One step** keeps the invariant of the programs. -/
theorem SoundPrograms.step (ht : SoundThreads count s) (hs : SoundPrograms P h s)
    (hstep : ThreadStep P limits count s l s') : SoundPrograms P (l :: h) s' := by
  have hfits := ht.fits
  have hsame : ∀ n, s.point n = .processing ↔ s.point n = .processing := fun _ => Iff.rfl
  cases hstep with
  -- `start`
  | startAgain ho hstarted =>
      exact hs.goOn (o := .outside) rfl ho (by simp [ho]) (by simp) hsame (by simp [ho]) id
  | start ho hstarted => exact hs.start hstarted
  | recovered ho hr =>
      rw [ho] at hfits
      exact hs.own (o := .starting) rfl rfl (by simp) hsame (by simp [hr, ended, isStarted]) id
  | notRecovered ho hr =>
      rw [ho] at hfits
      exact hs.own (o := .outside) rfl rfl (by simp) hsame (by simp [hr, ended, isStarted, hfits.1]) id
  | setStarted ho =>
      exact hs.goOn (o := .spawning 0) rfl rfl (by simp [ho]) (by simp) hsame (by simp [ho])
        fun hfalse => by cases hfalse
  | spawn ho hi => exact hs.spawn ht ho
  | spawned ho hi => exact hs.goOn (o := .outside) rfl rfl (by simp [ho]) (by simp) hsame (by simp [ho]) id
  -- `stop`
  | stop ho => exact hs.goOn (o := .stopping) rfl rfl (by simp [ho]) (by simp) hsame (by simp [ho]) id
  | lockToStop ho hm =>
      exact hs.goOn (o := .stoppingLocked) rfl rfl (by simp [ho]) (by simp) hsame (by simp [ho]) id
  | notStarted ho hstarted =>
      exact hs.goOn (o := .outside) rfl rfl (by simp [ho]) (by simp) hsame (by simp [ho]) id
  | setStopping ho hstarted =>
      exact hs.goOn (o := .notifying) rfl rfl (by simp [ho]) (by simp) hsame (by simp [ho]) id
  | notifyAll ho => exact hs.notifyAll ho
  | @join i ho hi he =>
      exact hs.goOn (o := .joining (i + 1)) rfl rfl (by simp [ho]) (by simp) hsame (by simp [ho]) id
  | @clear i ho hi =>
      rw [ho] at hfits
      obtain ⟨-, -, hworkers, hle, hjoined⟩ := hfits
      refine hs.clear fun n => ?_
      by_contra hne
      have hcreated := ht.created n hne
      exact hne (hjoined n (by omega))
  -- the workers
  | lock hp hm => exact hs.lock hp
  | unlock hp => exact hs.unlock hp
  | @turn n hp hstopping =>
      have hstarted := ht.started_of_created (n := n) (by simp [hp])
      exact hs.turn hstarted (ht.owner_of_started hstarted).1
  | @turned n result hp hr =>
      refine hs.move (by rw [hr]; rfl) ?_ _ s.mutex
      cases result <;> decide
  | @wake n hp => exact hs.move (hs.idle n (by simp [hp])) (by decide) _ s.mutex
  -- the backend
  | client hb hp => exact hs.request hb hp
  | call hq => exact hs.answered ht hq

end pool

end AlgorithmTrainer
