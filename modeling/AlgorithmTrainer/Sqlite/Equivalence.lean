import AlgorithmTrainer.Lib.Trace
import AlgorithmTrainer.Sqlite.Matching
import AlgorithmTrainer.Submission.StoredCategory

/-!
# `Sqlite.Equivalence` — both repositories, call by call

The two repositories are started on empty tables with the same users and given the same calls, one at a
time; in between, time passes on either side. A submission is named by its id on each side. PostgreSQL has its
indexes, so that it refuses a call that SQLite serves where an index row would be too long
(`long_type_differs`); where none is, the two stay equivalent.

## Contents
- **Calls and answers**, on either side, and when two of them are the same (`SameCall`, `SameAnswer`).
- **One call.** Where its submissions fit into the indexes (`RepositoryCall.Fits`), PostgreSQL serves it as it
  does without them (`run_postgres_indexed`), and so as SQLite does (`SameCall.matched`).
- **Runs.** The run rule carries `Same` along: the pairs of ids only grow, so an answer that was related stays
  related.
-/

namespace AlgorithmTrainer

open Interaction Relational Transition

/-! ## Calls and answers -/

inductive RepositoryCall where
  | create (request : SubmissionRequest)
  | claimNext
  | complete (id : Int) (value : Verdict) (errorType : Option String)
  | fail (id : Int) (errorType : Option String)
  | recoverRunning
  | retry (id admin : Int)
  | find (id : Int)
  | history (userId : Int) (problemId : String)

inductive RepositoryAnswer where
  | record (result : Except RepositoryError SubmissionRecord)
  | found (result : Except RepositoryError (Option SubmissionRecord))
  | count (result : Except RepositoryError Nat)
  | records (result : Except RepositoryError (List SubmissionRecord))

namespace RepositoryCall

/-- The call on `PostgreSQLSubmissionRepository`. -/
def postgres (P : Platform) (limits : PostgreSQLRepositoryLimits) :
    RepositoryCall → Call RepositoryAnswer
  | .create request => do pure (.record (← PostgreSQLSubmissionRepository.create P limits request))
  | .claimNext => do pure (.found (← PostgreSQLSubmissionRepository.claimNext P limits))
  | .complete id value errorType => do
      pure (.record (← PostgreSQLSubmissionRepository.complete P id value errorType))
  | .fail id errorType => do pure (.record (← PostgreSQLSubmissionRepository.fail P id errorType))
  | .recoverRunning => do pure (.count (← PostgreSQLSubmissionRepository.recoverRunning))
  | .retry id admin => do pure (.record (← PostgreSQLSubmissionRepository.retry P limits id admin))
  | .find id => do pure (.found (← PostgreSQLSubmissionRepository.find P id))
  | .history userId problemId => do
      pure (.records (← PostgreSQLSubmissionRepository.history P userId problemId))

/-- The call on `SQLiteSubmissionRepository`. -/
def sqlite (limits : PostgreSQLRepositoryLimits) : RepositoryCall → SqliteCall RepositoryAnswer
  | .create request => do pure (.record (← SQLiteSubmissionRepository.create limits request))
  | .claimNext => do pure (.found (← SQLiteSubmissionRepository.claimNext limits))
  | .complete id value errorType => do
      pure (.record (← SQLiteSubmissionRepository.complete id value errorType))
  | .fail id errorType => do pure (.record (← SQLiteSubmissionRepository.fail id errorType))
  | .recoverRunning => do pure (.count (← SQLiteSubmissionRepository.recoverRunning))
  | .retry id admin => do pure (.record (← SQLiteSubmissionRepository.retry limits id admin))
  | .find id => do pure (.found (← SQLiteSubmissionRepository.find id))
  | .history userId problemId => do
      pure (.records (← SQLiteSubmissionRepository.history userId problemId))

/-- No text of the call contains U+0000. -/
def NulFree : RepositoryCall → Prop
  | .create request => '\x00' ∉ request.problemId.toList ∧ '\x00' ∉ request.language.toList
      ∧ '\x00' ∉ request.code.toList
  | .complete _ _ errorType | .fail _ errorType => ∀ e ∈ errorType, '\x00' ∉ e.toList
  | .history _ problemId => '\x00' ∉ problemId.toList
  | _ => True

/-- PostgreSQL has room for the index rows of the submission that the call inserts, or of those that it
    changes. -/
def Fits (btree : Btree) (limits : PostgreSQLRepositoryLimits) (db : Database) : RepositoryCall → Prop
  | .create request =>
      db.admits request.userId limits.maximumActiveSubmissions limits.maximumActiveSubmissionsPerUser = true →
        (SubmissionRow.mk db.sequences.submissions request.problemId request.language request.code "queued"
          none db.clock none request.userId none none).Fits btree
  | .claimNext => ∀ r, db.candidate limits.maximumRunningSubmissionsPerUser (fun _ => false) = some r →
      (claimedRow r).Fits btree
  | .complete id value errorType => ∀ r ∈ db.submissions, runningRow id r = true →
      (completedRow (verdictName value) errorType db.clock r).Fits btree
  | .fail id errorType => ∀ r ∈ db.submissions, runningRow id r = true →
      (failedRow errorType db.clock r).Fits btree
  | .recoverRunning => ∀ r ∈ db.submissions, anyRunning r = true → (recoveredRow r).Fits btree
  | .retry id _ => ∀ original ∈ db.submissions, original.id = id → original.Retryable →
      (∀ r ∈ db.submissions, r.retryOf ≠ some id) →
      db.admits original.userId limits.maximumActiveSubmissions limits.maximumActiveSubmissionsPerUser = true →
      (retriedRow db original).Fits btree
  | .find _ | .history .. => True

end RepositoryCall

/-- The same call, where a submission is named by its id on each side. -/
inductive SameCall (pairs : List (Int × Int)) : RepositoryCall → RepositoryCall → Prop where
  | create (request : SubmissionRequest) : SameCall pairs (.create request) (.create request)
  | claimNext : SameCall pairs .claimNext .claimNext
  | complete {i j : Int} (h : SameId pairs i j) (value : Verdict) (errorType : Option String) :
      SameCall pairs (.complete i value errorType) (.complete j value errorType)
  | fail {i j : Int} (h : SameId pairs i j) (errorType : Option String) :
      SameCall pairs (.fail i errorType) (.fail j errorType)
  | recoverRunning : SameCall pairs .recoverRunning .recoverRunning
  | retry {i j : Int} (h : SameId pairs i j) (admin : Int) :
      SameCall pairs (.retry i admin) (.retry j admin)
  | find {i j : Int} (h : SameId pairs i j) : SameCall pairs (.find i) (.find j)
  | history (userId : Int) (problemId : String) :
      SameCall pairs (.history userId problemId) (.history userId problemId)

/-- The same answer, up to ids and timestamps. -/
inductive SameAnswer (pairs : List (Int × Int)) : RepositoryAnswer → RepositoryAnswer → Prop where
  | record {x y : Except RepositoryError SubmissionRecord} (h : SameResult (SameRecord pairs) x y) :
      SameAnswer pairs (.record x) (.record y)
  | found {x y : Except RepositoryError (Option SubmissionRecord)}
      (h : SameResult (SameOption (SameRecord pairs)) x y) : SameAnswer pairs (.found x) (.found y)
  | count {x y : Except RepositoryError Nat} (h : SameResult Eq x y) :
      SameAnswer pairs (.count x) (.count y)
  | records {x y : Except RepositoryError (List SubmissionRecord)}
      (h : SameResult (List.Forall₂ (SameRecord pairs)) x y) : SameAnswer pairs (.records x) (.records y)

theorem SameOption.mono {α β : Type} {R R' : α → β → Prop} {x : Option α} {y : Option β}
    (h : SameOption R x y) (hR : ∀ a b, R a b → R' a b) : SameOption R' x y := by
  cases h with
  | none => exact .none
  | some h => exact .some (hR _ _ h)

theorem SameAnswer.mono {pairs pairs' : List (Int × Int)} {x y : RepositoryAnswer}
    (h : SameAnswer pairs x y) (hpairs : ∀ p ∈ pairs, p ∈ pairs') : SameAnswer pairs' x y := by
  have hrecord : ∀ a b, SameRecord pairs a b → SameRecord pairs' a b := fun _ _ hab => hab.mono hpairs
  cases h with
  | record h => exact .record (h.mono hrecord)
  | found h => exact .found (h.mono fun _ _ hab => hab.mono hrecord)
  | count h => exact .count h
  | records h => exact .records (h.mono fun _ _ hab => hab.imp hrecord)

/-! ## One call -/

section calls
variable {P : Platform} {strftime : Timestamp → String} {limits : PostgreSQLRepositoryLimits}
  {pairs : List (Int × Int)} {pg : Database} {sq : SqliteDatabase} {clock : Timestamp}
  {choices : Nat → Choice} {choices' : Nat → SqliteChoice}

/-- Matched calls whose results are wrapped stay matched. -/
theorem Matched.map {α β γ δ : Type} {R : List (Int × Int) → α → β → Prop}
    {R' : List (Int × Int) → γ → δ → Prop} {p : Call α} {q : SqliteCall β} {f : α → γ} {g : β → δ}
    {w : World Choice Database} {w' : World SqliteChoice SqliteState}
    (h : Matched strftime pairs clock R (p.run (serve P) w) (q.run (serveSqlite strftime) w'))
    (hfg : ∀ pairs a b, R pairs a b → R' pairs (f a) (g b)) :
    Matched strftime pairs clock R' ((p >>= fun a => pure (f a)).run (serve P) w)
      ((q >>= fun b => pure (g b)).run (serveSqlite strftime) w') := by
  obtain ⟨pairs', a, b, sq', hpairs, hx, hy, hR, hstate, hsame⟩ := h
  rw [Program.run_bind, Program.run_bind]
  generalize p.run (serve P) w = x at hx hsame
  generalize q.run (serveSqlite strftime) w' = y at hy hstate
  obtain ⟨o, v⟩ := x
  obtain ⟨o', v'⟩ := y
  cases hx
  cases hy
  exact ⟨pairs', _, _, sq', hpairs, rfl, rfl, hfg _ _ _ hR, hstate, hsame⟩

/-! ### PostgreSQL with its indexes -/

/-- A wrapped call is served as it is without the indexes, if the call is. -/
theorem run_map_indexed {btree : Btree} {α β : Type} {p : Call α} {f : α → β} {w : World Choice Database}
    (h : p.run (serveIndexed P btree) w = p.run (serve P) w) :
    (p >>= fun a => pure (f a)).run (serveIndexed P btree) w = (p >>= fun a => pure (f a)).run (serve P) w := by
  rw [Program.run_bind, Program.run_bind, h]
  rcases p.run (serve P) w with ⟨_ | a, v⟩ <;> rfl

/-- A call of one statement that fits. -/
theorem run_execute_indexed {btree : Btree} {α : Type} {s : Statement} {f : Result s.Row → α}
    {w : World Choice Database} (hc : (w.choices 0).Served)
    (h : w.state.fits P btree (s.exec P (w.choices 0).message w.state).1 = true) :
    (execute s >>= fun r => pure (f r) : Call α).run (serveIndexed P btree) w
      = (execute s >>= fun r => pure (f r) : Call α).run (serve P) w := by
  refine run_indexed_of_fits ?_ fun _ _ => rfl
  rw [serve_execute, serveStatement_served hc]
  exact h

theorem run_execute_counted {btree : Btree} {α : Type} (userId : Option Int) (f : Result Nat → α)
    (w : World Choice Database) :
    (execute (.countActive userId) >>= fun r => pure (f r) : Call α).run (serveIndexed P btree) w
      = (execute (.countActive userId) >>= fun r => pure (f r) : Call α).run (serve P) w := by
  refine run_indexed_of_fits ?_ fun _ _ => rfl
  rcases serveStatement_cases (P := P) (.countActive userId) (w.choices 0) w.state with ⟨-, h⟩ | ⟨-, h⟩
  · rw [serve_execute, h]
    exact Database.fits_self
  · rw [serve_execute, h]
    exact Database.fits_self

/-- **A call whose submissions fit** is served as it is without the indexes. -/
theorem run_postgres_indexed {btree : Btree} {c : RepositoryCall} (hnul : c.NulFree)
    (hfits : c.Fits btree limits pg) (hdb : pg.Checked) (hc : ∀ n, (choices n).Served) :
    (c.postgres P limits).run (serveIndexed P btree) ⟨choices, pg⟩
      = (c.postgres P limits).run (serve P) ⟨choices, pg⟩ := by
  have hlocked : (choices 0).lockedRows = fun _ => false := funext (hc 0).2
  cases c with
  | create request =>
      obtain ⟨hproblem, hlanguage, hcode⟩ := hnul
      refine run_map_indexed (run_indexed_of_fits (Database.fits_locked fun e rows hplan r hr => ?_)
        fun r v => ?_)
      · simp only [LockedStatement.plan, text, cStr_of_not_mem hproblem, cStr_of_not_mem hlanguage,
          cStr_of_not_mem hcode] at hplan
        split at hplan
        · rename_i hadmits
          dsimp only at hplan
          obtain ⟨rfl, -⟩ := planInsert_ok hplan
          rcases hr with hr | hr
          · cases hr
            exact hfits hadmits
          · cases hr
        · cases hplan
          rcases hr with hr | hr <;> cases hr
      · -- The count that follows a refusal writes nothing.
        rcases r with _ | _ | _ | (_ | ⟨_, _ | _⟩)
        all_goals first | rfl | exact run_execute_counted _ _ _
  | claimNext =>
      refine run_map_indexed (run_indexed_of_fits (Database.fits_locked fun e rows hplan r hr => ?_)
        fun r v => by cases r <;> rfl)
      -- a claim writes the candidate it has found
      rw [hlocked] at hplan
      cases plan_ok hplan with
      | nothing => rcases hr with hr | hr <;> cases hr
      | admitted hadm =>
          obtain ⟨_, _, hnone, -⟩ := hadm.room
          cases hnone
      | claimed hcandidate =>
          rcases hr with hr | hr
          · cases hr
          · cases hr
            exact hfits _ hcandidate
  | complete id value errorType =>
      refine run_map_indexed (run_execute_indexed (hc 0) ?_)
      rw [map_text hnul, exec_complete]
      exact Database.fits_update hfits
  | fail id errorType =>
      refine run_map_indexed (run_execute_indexed (hc 0) ?_)
      rw [map_text hnul, exec_fail hdb]
      exact Database.fits_update hfits
  | recoverRunning =>
      refine run_map_indexed (run_indexed_of_fits ?_ fun r v => by cases r <;> rfl)
      rw [serve_execute, serveStatement_served (hc 0), exec_recover hdb]
      exact Database.fits_update hfits
  | retry id admin =>
      refine run_map_indexed (run_indexed_of_fits (Database.fits_locked fun e rows hplan r hr => ?_)
        fun r v => ?_)
      · rcases @plan_retry (choices 0).lockedRows pg id limits.maximumActiveSubmissions
          limits.maximumActiveSubmissionsPerUser admin with
          h | ⟨original, hmem, hid, hretryable, hof, hadmits, h⟩
        · rw [h] at hplan
          cases hplan
          rcases hr with hr | hr <;> cases hr
        · rw [h] at hplan
          dsimp only at hplan
          obtain ⟨rfl, -⟩ := planInsert_ok hplan
          rcases hr with hr | hr
          · cases hr
            exact hfits original hmem hid hretryable hof hadmits
          · cases hr
      · rcases r with _ | _ | _ | (_ | ⟨_, _ | _⟩) <;> rfl
  | find id =>
      refine run_map_indexed (run_indexed_of_fits ?_ fun r v => by cases r <;> rfl)
      rw [serve_execute, serveStatement_served (hc 0)]
      exact Database.fits_self
  | history userId problemId => exact run_map_indexed (run_execute_indexed (hc 0) Database.fits_self)

/-- **Every call is matched.** -/
theorem SameCall.matched {c c' : RepositoryCall} (hcall : SameCall pairs c c') (hnul : c.NulFree)
    (h : Same strftime pairs pg sq clock) (hstrftime : Chronological strftime)
    (hc : ∀ n, (choices n).Served) (hc' : ∀ n, (choices' n).Served) :
    Matched strftime pairs clock SameAnswer ((c.postgres P limits).run (serve P) ⟨choices, pg⟩)
      ((c'.sqlite limits).run (serveSqlite strftime) ⟨choices', .idle sq, clock⟩) := by
  cases hcall with
  | create request =>
      obtain ⟨hproblem, hlanguage, hcode⟩ := hnul
      exact (create_matched h hstrftime limits hproblem hlanguage hcode hc hc').map
        fun _ _ _ hab => .record hab
  | claimNext => exact (claimNext_matched h limits hc hc').map fun _ _ _ hab => .found hab
  | complete hid value errorType =>
      exact (complete_matched h hid value hnul hc hc').map fun _ _ _ hab => .record hab
  | fail hid errorType => exact (fail_matched h hid hnul hc hc').map fun _ _ _ hab => .record hab
  | recoverRunning => exact (recoverRunning_matched h hc hc').map fun _ _ _ hab => .count hab
  | retry hid admin =>
      exact (retry_matched h hstrftime hid limits admin hc hc').map fun _ _ _ hab => .record hab
  | find hid => exact (find_matched h hid hc hc').map fun _ _ _ hab => .found hab
  | history userId problemId =>
      exact (history_matched h userId hnul hc hc').map fun _ _ _ hab => .records hab

end calls

/-! ## Runs -/

/-- Both databases. -/
structure Backends where
  pg : Database
  sq : SqliteState

/-- Empty tables, with the same users. -/
def Backends.fresh (users : Table UserRow) (now now' : Timestamp) : Backends :=
  ⟨{ Database.initial now with users }, .idle (.initial (users.rows.map (·.id))), now'⟩

/-- The ids of the submissions that are there now. -/
def Backends.pairs (s : Backends) : List (Int × Int) := idPairs s.pg s.sq.session.current

inductive LockstepEvent where
  | call (c c' : RepositoryCall) (answer answer' : Except Exception RepositoryAnswer)
  | pass (elapsed elapsed' : Nat)

/-- A call on both sides, or time that passes. -/
inductive Lockstep (P : Platform) (btree : Btree) (limits : PostgreSQLRepositoryLimits)
    (strftime : Timestamp → String) : Backends → LockstepEvent → Backends → Prop where
  | call {s : Backends} {c c' : RepositoryCall} {choices : Nat → Choice}
      {choices' : Nat → SqliteChoice} (hcall : SameCall s.pairs c c') (hnul : c.NulFree)
      (hc : ∀ n, (choices n).Served) (hc' : ∀ n, (choices' n).Served) :
      Lockstep P btree limits strftime s
        (.call c c' ((c.postgres P limits).run (serveIndexed P btree) ⟨choices, s.pg⟩).1
          ((c'.sqlite limits).run (serveSqlite strftime) ⟨choices', s.sq⟩).1)
        ⟨((c.postgres P limits).run (serveIndexed P btree) ⟨choices, s.pg⟩).2.state,
          ((c'.sqlite limits).run (serveSqlite strftime) ⟨choices', s.sq⟩).2.state⟩
  | pass {s : Backends} (elapsed elapsed' : Nat) :
      Lockstep P btree limits strftime s (.pass elapsed elapsed')
        ⟨{ s.pg with clock := s.pg.clock + elapsed }, s.sq.session, s.sq.clock + elapsed'⟩

/-- The condition on a step: the call's submissions fit into PostgreSQL's indexes. -/
def LockstepEvent.Fits (btree : Btree) (limits : PostgreSQLRepositoryLimits) (s : Backends) :
    LockstepEvent → Prop
  | .call c .. => c.Fits btree limits s.pg
  | .pass .. => True

/-- Both calls return, with the same answer. -/
def LockstepEvent.Agrees (pairs : List (Int × Int)) : LockstepEvent → Prop
  | .call _ _ answer answer' => ∃ a a', answer = .ok a ∧ answer' = .ok a' ∧ SameAnswer pairs a a'
  | .pass .. => True

theorem LockstepEvent.Agrees.mono {pairs pairs' : List (Int × Int)} {e : LockstepEvent}
    (h : e.Agrees pairs) (hpairs : ∀ p ∈ pairs, p ∈ pairs') : e.Agrees pairs' := by
  cases e with
  | call c c' answer answer' =>
      obtain ⟨a, a', ha, ha', hsame⟩ := h
      exact ⟨a, a', ha, ha', hsame.mono hpairs⟩
  | pass => exact trivial

/-- The tables correspond: their ids by an order-preserving bijection, their rows up to ids and timestamps. -/
structure Backends.Corresponding (s : Backends) : Prop where
  idle : s.sq.session = .idle s.sq.session.current
  ordered : OrderPreserving s.pairs
  submissions : Table.Corresponds (SameRow s.pairs) s.pg.submissions s.sq.session.current.submissions
  audits : Table.Corresponds (SameAudit s.pairs) s.pg.adminAuditLog s.sq.session.current.adminAuditLog

section runs
variable {P : Platform} {btree : Btree} {limits : PostgreSQLRepositoryLimits} {strftime : Timestamp → String}
  {users : Table UserRow} {now now' : Timestamp} {h : List LockstepEvent} {s : Backends}

/-- **The invariant of the lockstep.** -/
structure Backends.Agreed (strftime : Timestamp → String) (h : List LockstepEvent) (s : Backends) :
    Prop where
  idle : s.sq.session = .idle s.sq.session.current
  same : Same strftime s.pairs s.pg s.sq.session.current s.sq.clock
  answers : ∀ e ∈ h, e.Agrees s.pairs

theorem fresh_agreed : (Backends.fresh users now now').Agreed strftime [] where
  idle := rfl
  same :=
    { ids := rfl
      submissions := .nil
      audits := .nil
      users := fun id => by
        rw [Bool.eq_iff_iff, hasUser_iff, List.contains_iff_mem]
        exact List.mem_map.symm
      checked := fun r hr => by cases hr
      pgOrder := .nil
      sqOrder := .nil
      pgNext := fun r hr => by cases hr
      sqNext := fun s hs => by cases hs
      pgAudit := fun a ha => by cases ha
      sqAudit := fun b hb => by cases hb }
  answers := fun e he => by cases he

theorem lockstep_agreed (hstrftime : Chronological strftime)
    (hrun : Guarded (fun _ s e => e.Fits btree limits s) (Lockstep P btree limits strftime)
      (Backends.fresh users now now') h s) : s.Agreed strftime h := by
  refine hrun.invariant fresh_agreed fun h s e s' hs hfits hstep => ?_
  cases hstep with
  | @call c c' choices choices' hcall hnul hc hc' =>
      obtain ⟨pg, session, clock⟩ := s
      obtain ⟨sq, rfl⟩ : ∃ sq, session = .idle sq := ⟨_, hs.idle⟩
      have hmatched := @SameCall.matched P strftime limits _ pg sq clock choices choices' c c' hcall
        hnul hs.same hstrftime hc hc'
      rw [run_postgres_indexed hnul hfits hs.same.checked hc]
      obtain ⟨pairs', a, a', sq', hpairs, hanswer, hanswer', hsame, hstate, hsame'⟩ := hmatched
      generalize (c.postgres P limits).run (serve P) ⟨choices, pg⟩ = x at hanswer hsame' ⊢
      generalize (c'.sqlite limits).run (serveSqlite strftime) ⟨choices', .idle sq, clock⟩ = y
        at hanswer' hstate ⊢
      have hids : idPairs x.2.state sq' = pairs' := hsame'.ids
      constructor
      · show y.2.state.session = .idle y.2.state.session.current
        rw [hstate]
        rfl
      · show Same strftime (idPairs x.2.state y.2.state.session.current) x.2.state
          y.2.state.session.current y.2.state.clock
        rw [hstate]
        exact hids.symm ▸ hsame'
      · -- The earlier answers stay related, since no pair is lost.
        show ∀ e ∈ _ :: h, e.Agrees (idPairs x.2.state y.2.state.session.current)
        rw [hstate]
        show ∀ e ∈ _ :: h, e.Agrees (idPairs x.2.state sq')
        rw [hids]
        intro e he
        rcases List.mem_cons.mp he with rfl | he
        · exact ⟨a, a', hanswer, hanswer', hsame⟩
        · exact (hs.answers e he).mono hpairs
  | pass elapsed elapsed' =>
      refine ⟨hs.idle, hs.same.pass hstrftime elapsed elapsed', fun e he => ?_⟩
      rcases List.mem_cons.mp he with rfl | he
      · exact trivial
      · exact hs.answers e he

/-- **The two repositories are equivalent** as long as the submissions fit into PostgreSQL's indexes. Started
    on empty tables with the same users and given the same calls one at a time, they reach corresponding
    tables, and every call has had the same answer on both. -/
theorem repositories_equivalent (P : Platform) (btree : Btree) (limits : PostgreSQLRepositoryLimits)
    (hstrftime : Chronological strftime)
    (hrun : Guarded (fun _ s e => e.Fits btree limits s) (Lockstep P btree limits strftime)
      (Backends.fresh users now now') h s) :
    s.Corresponding ∧ ∀ e ∈ h, e.Agrees s.pairs := by
  have hagreed := lockstep_agreed hstrftime hrun
  exact ⟨⟨hagreed.idle, hagreed.same.orderPreserving, hagreed.same.submissions, hagreed.same.audits⟩,
    hagreed.answers⟩

end runs

section created

/-- A clock that always tells the same time. -/
def stopped (_ : Timestamp) : String := "1970-01-01T00:00:00.000Z"

theorem stopped_chronological : Chronological stopped := fun _ _ _ h => absurd h (lt_irrefl _)

/-- The submission that is created on both sides. -/
def createdCall : RepositoryCall := .create ⟨"sum", "python", "print(3)", none⟩

/-- What a call leaves on both sides, where nothing fails from outside. -/
def Backends.called (c : RepositoryCall) (s : Backends) : Backends :=
  ⟨((c.postgres .plain .unconfigured).run (serveIndexed .plain uncompressed) ⟨fun _ => .calm, s.pg⟩).2.state,
    ((c.sqlite .unconfigured).run (serveSqlite stopped) ⟨fun _ => .calm, s.sq⟩).2.state⟩

/-- The event of the same call on both sides. -/
def Backends.calling (c : RepositoryCall) (s : Backends) : LockstepEvent :=
  .call c c ((c.postgres .plain .unconfigured).run (serveIndexed .plain uncompressed) ⟨fun _ => .calm, s.pg⟩).1
    ((c.sqlite .unconfigured).run (serveSqlite stopped) ⟨fun _ => .calm, s.sq⟩).1

theorem Backends.call_step (c : RepositoryCall) (s : Backends) (h : SameCall s.pairs c c) (hnul : c.NulFree) :
    Lockstep .plain uncompressed .unconfigured stopped s (s.calling c) (s.called c) :=
  .call h hnul (fun _ => ⟨rfl, fun _ => rfl⟩) fun _ => rfl

/-- One submission on both sides, queued and then running. -/
def queuedBackends : Backends := (Backends.fresh .empty 0 0).called createdCall

def claimedBackends : Backends := queuedBackends.called .claimNext

theorem claimed_run : Guarded (fun _ s e => e.Fits uncompressed .unconfigured s)
    (Lockstep .plain uncompressed .unconfigured stopped) (Backends.fresh .empty 0 0)
    [queuedBackends.calling .claimNext, (Backends.fresh .empty 0 0).calling createdCall] claimedBackends := by
  have hfits : ∀ status, (status = "queued" ∨ status = "running") →
      (SubmissionRow.mk 1 "sum" "python" "print(3)" status none 0 none none none none).Fits uncompressed := by
    rintro status (rfl | rfl) <;> unfold SubmissionRow.Fits <;> decide
  refine .next (.next .start ?_ (Backends.call_step _ _ (.create _) ?_)) ?_ (Backends.call_step _ _ .claimNext
    trivial)
  · exact fun _ => hfits _ (Or.inl rfl)
  · exact ⟨by decide, by decide, by decide⟩
  · intro r hr
    cases hr
    exact hfits _ (Or.inr rfl)

/-- A submission is created on both sides, and claimed. -/
theorem repositories_equivalent_claimed : claimedBackends.pairs = [(1, 1)] ∧ claimedBackends.Corresponding ∧
    ∀ e ∈ [queuedBackends.calling .claimNext, (Backends.fresh .empty 0 0).calling createdCall],
      e.Agrees claimedBackends.pairs :=
  ⟨rfl, repositories_equivalent .plain uncompressed .unconfigured stopped_chronological claimed_run⟩

/-- **An error type that no index row has room for.** The submission is claimed on both sides; SQLite
    completes it with the error type, and PostgreSQL refuses to. -/
theorem long_type_differs : ∃ h s,
    Run (Lockstep .plain uncompressed .unconfigured stopped) (Backends.fresh .empty 0 0) h s ∧
      ¬ ∀ e ∈ h, e.Agrees s.pairs := by
  let completed : RepositoryCall := .complete 1 .runtimeError (some longCategory)
  have hnul : completed.NulFree := by
    rintro e ⟨⟩
    exact longCategory_noNul
  refine ⟨_, _, claimed_run.run.next (Backends.call_step completed _ (.complete (Or.inl List.mem_cons_self) _ _)
    hnul), fun hagrees => ?_⟩
  obtain ⟨a, a', ha, ha', hsame⟩ := hagrees _ List.mem_cons_self
  have hindexed : claimedBackends.pg.Indexed .plain uncompressed := by
    unfold Database.Indexed
    decide
  have hpg := @run_complete_indexed .plain uncompressed ⟨fun _ => .calm, claimedBackends.pg⟩
    ⟨1, "sum", "python", "print(3)", "running", none, 0, none, none, none, none⟩ hindexed
    (Table.mem_def.mpr List.mem_cons_self) rfl longCategory rfl
  rw [longCategory_refused] at hpg
  obtain ⟨hfits, -⟩ | ⟨-, error, hpg⟩ := hpg
  · cases hfits
  have hpostgres : ((completed.postgres .plain .unconfigured).run (serveIndexed .plain uncompressed)
      ⟨fun _ => .calm, claimedBackends.pg⟩).1 = .ok (.record (.error error)) := by
    show (Program.run _ (PostgreSQLSubmissionRepository.complete _ _ _ _ >>= fun x => pure _) _).1 = _
    rw [Program.run_bind, hpg]
    rfl
  have hsqlite : ∃ x, ((completed.sqlite .unconfigured).run (serveSqlite stopped)
      ⟨fun _ => .calm, claimedBackends.sq⟩).1 = .ok (.record (.ok x)) := ⟨_, rfl⟩
  obtain ⟨x, hsqlite⟩ := hsqlite
  cases ha.symm.trans hpostgres
  cases ha'.symm.trans hsqlite
  cases hsame with
  | record h => cases h

end created

end AlgorithmTrainer
