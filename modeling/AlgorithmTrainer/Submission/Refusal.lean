import AlgorithmTrainer.Database.Connection
import AlgorithmTrainer.Submission.Lifecycle

/-!
# `Submission.Refusal` — why `create` says no

Any number of clients, each with a connection of its own, call `create`, `retry`, `complete` and `fail`
command by command, and their commands interleave on one database (`Clients`). A `create` whose `INSERT`
inserts nothing counts the active rows of the bucket once more, in a statement of its own, and blames the
limit that this second count points to.

What it says about the moment of the `INSERT` is therefore right only as long as the second count, taken on
other rows, happens to agree with the first (`Undisturbed`).
-/

namespace AlgorithmTrainer

open Interaction Interaction.Pool Transition Relational PostgreSQLSubmissionRepository

/-! ## Clients, command by command -/

/-- The statements of the program: those of `execute_locked`, and those of `execute`. -/
abbrev Sql := LockedStatement ⊕ Statement

@[reducible] def Sql.Row : Sql → Type := Sum.elim (fun _ => SubmissionRow) Statement.Row

/-- A client's connection, and whatever else the program asks of its surroundings. -/
abbrev ClientWire (ι : Type) := (Wire ι Sql.Row).sum Backend

/-- The calls of a client, on its connection. -/
def onConnection {ι : Type} (i : ι) :
    (q : BackendRequest) → Program (ClientWire ι) Exception q.Reply
  | .execute s => (Connection.execute i (Sum.inr s) : Program (Wire ι Sql.Row) _ _).inl
  | .executeLocked k s =>
      (Connection.executeLocked i k (Sum.inl s) : Program (Wire ι Sql.Row) _ _).inl
  | .randomToken => .ask (S := ClientWire ι) (.inr .randomToken)
  | .passwordHash p => .ask (S := ClientWire ι) (.inr (.passwordHash p))
  | .judge r => .ask (S := ClientWire ι) (.inr (.judge r))

/-- The transaction block of a client: the advisory lock it holds and what waits for its `COMMIT`, or an
    aborted one. -/
inductive ClientBlock where
  | open (lock : Option Int) (writes : Changes)
  | aborted

/-- The committed rows, and the blocks of the clients. -/
structure Clients (ι : Type) where
  committed : Database
  block : ι → Option ClientBlock

namespace Clients

variable {ι : Type} [DecidableEq ι]

def set (s : Clients ι) (i : ι) (b : Option ClientBlock) (db : Database) : Clients ι :=
  ⟨db, Function.update s.block i b⟩

/-- The client holds the advisory lock. -/
def holds (s : Clients ι) (i : ι) (k : Int) : Bool :=
  match s.block i with
  | some (.open (some k') _) => k' == k
  | _ => false

/-- A command of client `i`. A statement sees the committed rows; where it fails in a block, the block is
    aborted, and an id that it drew stays drawn. -/
def answer (P : Platform) (c : Choice) (i : ι) (s : Clients ι) :
    (command : Command Sql) → Result (command.Row Sql.Row) × Clients ι
  | .begin =>
      if c.failure.isSome then (.failed .fault c.message, s)
      else (.command, s.set i (some (.open none .empty)) s.committed)
  | .advisoryLock k =>
      if c.failure.isSome then (.failed .fault c.message, s.set i (some .aborted) s.committed)
      else (.tuples [()], s.set i (some (.open (some k) .empty)) s.committed)
  | .statement (.inl t) =>
      if c.failure.isSome then (.failed .fault c.message, s.set i (some .aborted) s.committed)
      else match t.plan c.lockedRows s.committed with
        | (db, .error state) => (.failed state c.message, s.set i (some .aborted) db)
        | (db, .ok (writes, rows)) => (.tuples rows, s.set i
            (match s.block i with
              | some (.open lock _) => some (.open lock writes)
              | b => b) db)
  | .statement (.inr t) =>
      ((serveStatement P t c s.committed).1,
        s.set i (s.block i) (serveStatement P t c s.committed).2)
  | .commit =>
      if c.failure.isSome then (.failed .fault c.message, s.set i none s.committed)
      else (.command, s.set i none (match s.block i with
        | some (.open _ writes) => writes.apply s.committed
        | _ => s.committed))
  | .rollback => (.command, s.set i none s.committed)

end Clients

/-- The surroundings of the clients. The mutex of a connection that one thread uses is always free. -/
def serveClients {ι : Type} [DecidableEq ι] (P : Platform) :
    Service (ClientWire ι) Choice (Clients ι)
  | .inl (.acquire _), _, s => ((), s)
  | .inl (.release _), _, s => ((), s)
  | .inl (.send i command), c, s => s.answer P c i command
  | .inr q, c, s => ((serve P q c s.committed).1, s)

/-- What a client calls, with the limits of its repository. -/
inductive ClientCall where
  | create (limits : PostgreSQLRepositoryLimits) (request : SubmissionRequest)
  | retry (limits : PostgreSQLRepositoryLimits) (id admin : Int)
  | complete (id : Int) (value : Verdict) (errorType : Option String)
  | fail (id : Int) (errorType : Option String)

def ClientCall.program (P : Platform) : ClientCall → Call (Except RepositoryError SubmissionRecord)
  | .create limits request => PostgreSQLSubmissionRepository.create P limits request
  | .retry limits id admin => PostgreSQLSubmissionRepository.retry P limits id admin
  | .complete id value errorType => PostgreSQLSubmissionRepository.complete P id value errorType
  | .fail id errorType => PostgreSQLSubmissionRepository.fail P id errorType

/-- A client begins a call, or time passes. -/
inductive ClientControl (ι : Type) where
  | begin (i : ι) (call : ClientCall)
  | pass (elapsed : Nat)

section pool
variable {ι : Type} [DecidableEq ι] (P : Platform)

abbrev ClientPool (ι : Type) :=
  Pool ι (ClientWire ι) Exception (Except RepositoryError SubmissionRecord) (Clients ι)

abbrev ClientEvent (ι : Type) := Event ι (ClientWire ι) Choice (ClientControl ι)

/-- The program of a call, on the connection of client `i`. -/
def ClientCall.onConnection (i : ι) (call : ClientCall) :
    Program (ClientWire ι) Exception (Except RepositoryError SubmissionRecord) :=
  (call.program P).handle (AlgorithmTrainer.onConnection i)

/-- The program that a control step gives a client. -/
def begunCall : ClientControl ι → ι →
    Option (Program (ClientWire ι) Exception (Except RepositoryError SubmissionRecord))
  | .begin j call, i => if j = i then some (call.onConnection P i) else none
  | .pass _, _ => none

/-- A client that is in no call begins one. -/
def clientControl : ClientControl ι → ClientPool ι → Option (ClientPool ι)
  | .begin i call, p =>
      match p.thread i with
      | .call _ _ => none
      | .ret _ | .raise _ =>
          some ⟨p.shared, Function.update p.thread i (call.onConnection P i)⟩
  | .pass elapsed, p => some ⟨{ p.shared with committed :=
      { p.shared.committed with clock := p.shared.committed.clock + elapsed } }, p.thread⟩

/-- The client that is granted an advisory lock, and the lock. -/
def grantedLock : ClientEvent ι → Option (ι × Int)
  | .call i _ ⟨.inl (.send _ (.advisoryLock k)), r⟩ => if r.tuplesOk then some (i, k) else none
  | _ => none

/-- The server grants an advisory lock that no other client holds. -/
def LocksFree (_ : List (Clients ι × ClientEvent ι)) (p : ClientPool ι)
    (l : Clients ι × ClientEvent ι) : Prop :=
  match grantedLock l.2 with
  | some (i, k) => ∀ j, j ≠ i → p.shared.holds j k = false
  | none => True

/-- Clients that have called nothing. -/
def idleClients (ι : Type) (db : Database) : ClientPool ι :=
  ⟨⟨db, fun _ => none⟩, fun _ => .raise .badVariantAccess⟩

end pool

/-! ## What a call saw -/

/-- The calls of a client on the wire, in the states they were made in. -/
abbrev ClientLog (ι : Type) := List (Program.Asked (ClientWire ι) Choice (Clients ι))

/-- The committed rows, if this is a statement of `execute_locked`. -/
def lockedRows? {ι : Type} (x : Program.Asked (ClientWire ι) Choice (Clients ι)) : Option Database :=
  match x.request with
  | .inl (.send _ (.statement (.inl _))) => some x.state.committed
  | _ => none

/-- What decides its answer and the committed rows, if this is a statement of `execute`. -/
def plainRows? {ι : Type} (x : Program.Asked (ClientWire ι) Choice (Clients ι)) :
    Option (Choice × Database) :=
  match x.request with
  | .inl (.send _ (.statement (.inr _))) => some (x.choice, x.state.committed)
  | _ => none

/-- The rows that the `INSERT` of a `create` was evaluated on. -/
def insertedOn {ι : Type} (log : ClientLog ι) : Option Database := log.findSome? lockedRows?

/-- What decided the answer to the count of a `create`, and the rows that were counted. -/
def countedOn {ι : Type} (log : ClientLog ι) : Option (Choice × Database) := log.findSome? plainRows?

theorem insertedOn_append {ι : Type} (l l' : ClientLog ι) :
    insertedOn (l ++ l') = (insertedOn l).or (insertedOn l') := List.findSome?_append

theorem countedOn_append {ι : Type} (l l' : ClientLog ι) :
    countedOn (l ++ l') = (countedOn l).or (countedOn l') := List.findSome?_append

section plays
variable {ι : Type} [DecidableEq ι] {P : Platform} {i : ι} {log : ClientLog ι}

/-- A command, and what follows it. -/
theorem plays_send {ρ : Type} {command : Command Sql} {r : ρ}
    {f : Result (command.Row Sql.Row) → Program (Wire ι Sql.Row) Exception ρ}
    (h : Program.Plays (serveClients P) (Connection.send i command >>= f).inl log (.ret r)) :
    ∃ c s l, log = ⟨.inl (.send i command), c, s⟩ :: l ∧
      Program.Plays (serveClients P) (f (s.answer P c i command).1).inl l (.ret r) :=
  Program.plays_call h

/-- What is done under the mutex. -/
theorem plays_withLock {ρ : Type} {body : Program (Wire ι Sql.Row) Exception ρ} {r : ρ}
    (h : Program.Plays (serveClients P) (Connection.withLock i body).inl log (.ret r)) :
    ∃ l, insertedOn log = insertedOn l ∧ countedOn log = countedOn l ∧
      Program.Plays (serveClients P) body.inl l (.ret r) := by
  obtain ⟨c₀, s₀, l, rfl, hbody⟩ := Program.plays_call h
  have hbody' : Program.Plays (serveClients P) (body >>= fun result =>
      Program.ask (S := Wire ι Sql.Row) (.release i) >>= fun _ => pure result).inl l (.ret r) := hbody
  rw [Program.inl_bind] at hbody'
  obtain ⟨l₁, l₂, a, rfl, h₁, h₂⟩ := Program.plays_bind hbody'
  obtain ⟨c₁, s₁, l₃, rfl, h₃⟩ := Program.plays_call h₂
  obtain ⟨rfl, hr⟩ := Program.plays_ret h₃
  cases hr
  refine ⟨l₁, ?_, ?_, h₁⟩
  · show insertedOn (l₁ ++ _) = insertedOn l₁
    rw [insertedOn_append]
    exact Option.or_none
  · show countedOn (l₁ ++ _) = countedOn l₁
    rw [countedOn_append]
    exact Option.or_none

/-- A way out that needs no more statements. -/
theorem plays_rollback {ρ : Type} {a r : ρ}
    (h : Program.Plays (serveClients P)
      (Connection.send i .rollback >>= fun _ => pure a : Program (Wire ι Sql.Row) Exception ρ).inl
      log (.ret r)) : insertedOn log = none ∧ countedOn log = none ∧ r = a := by
  obtain ⟨c, s, l, rfl, hret⟩ := plays_send h
  obtain ⟨rfl, hr⟩ := Program.plays_ret hret
  cases hr
  exact ⟨rfl, rfl, rfl⟩

/-- The rows that a statement of `execute_locked` returns are planned on the committed rows. -/
theorem tuplesOk_statement {s : Clients ι} {c : Choice} {t : LockedStatement}
    (h : (s.answer P c i (.statement (.inl t))).1.tuplesOk = true) :
    ∃ writes rows, (t.plan c.lockedRows s.committed).2 = .ok (writes, rows) ∧
      (s.answer P c i (.statement (.inl t))).1 = .tuples rows := by
  unfold Clients.answer at h ⊢
  cases hf : c.failure.isSome with
  | true =>
      simp only [hf, if_true] at h
      cases h
  | false =>
      simp only [hf, Bool.false_eq_true, if_false] at h ⊢
      rcases hplan : t.plan c.lockedRows s.committed with ⟨db, state | ⟨writes, rows⟩⟩
      · rw [hplan] at h
        cases h
      · exact ⟨writes, rows, rfl, rfl⟩

/-- **What `execute_locked` returns** rows from: the rows its statement was evaluated on. -/
theorem plays_executeLocked {k : Int} {t : LockedStatement} {r : Result SubmissionRow}
    (h : Program.Plays (serveClients P)
      (Connection.executeLocked i k (Sum.inl t) : Program (Wire ι Sql.Row) Exception _).inl log
      (.ret r)) :
    countedOn log = none ∧ (r.tuplesOk = true → ∃ (c : Choice) (db : Database) (writes : Changes)
      (rows : List SubmissionRow), insertedOn log = some db ∧
        (t.plan c.lockedRows db).2 = .ok (writes, rows) ∧ r = .tuples rows) := by
  obtain ⟨l, hinserted, hcounted, hbody⟩ := plays_withLock h
  rw [hinserted, hcounted]
  obtain ⟨c₁, s₁, l₁, rfl, h₁⟩ := plays_send hbody
  -- BEGIN, the lock, the statement and COMMIT: each that fails ends in a rollback and in no rows.
  by_cases hbegun : (s₁.answer P c₁ i .begin).1.commandOk = true
  · rw [if_neg (by simpa using hbegun)] at h₁
    obtain ⟨c₂, s₂, l₂, rfl, h₂⟩ := plays_send h₁
    by_cases hlock : (s₂.answer P c₂ i (.advisoryLock k)).1.tuplesOk = true
    · rw [if_neg (by simpa using hlock)] at h₂
      obtain ⟨c₃, s₃, l₃, rfl, h₃⟩ := plays_send h₂
      by_cases hfailed : (!(s₃.answer P c₃ i (.statement (.inl t))).1.commandOk
          && !(s₃.answer P c₃ i (.statement (.inl t))).1.tuplesOk) = true
      · rw [if_pos hfailed] at h₃
        obtain ⟨-, hnone, rfl⟩ := plays_rollback h₃
        refine ⟨hnone, fun hr => ?_⟩
        have hno := (Bool.not_eq_true' _).mp (Bool.and_eq_true_iff.mp hfailed).2
        exact absurd (hno.symm.trans hr) Bool.false_ne_true
      · rw [if_neg hfailed] at h₃
        obtain ⟨c₄, s₄, l₄, rfl, h₄⟩ := plays_send h₃
        by_cases hcommitted : (s₄.answer P c₄ i .commit).1.commandOk = true
        · rw [if_neg (by simpa using hcommitted)] at h₄
          obtain ⟨rfl, hr⟩ := Program.plays_ret h₄
          cases hr
          refine ⟨rfl, fun hr => ?_⟩
          obtain ⟨writes, rows, hplan, hrows⟩ := tuplesOk_statement hr
          exact ⟨c₃, s₃.committed, writes, rows, rfl, hplan, hrows⟩
        · rw [if_pos (by simpa using hcommitted)] at h₄
          obtain ⟨-, hnone, rfl⟩ := plays_rollback h₄
          exact ⟨hnone, nofun⟩
    · rw [if_pos (by simpa using hlock)] at h₂
      obtain ⟨-, hnone, rfl⟩ := plays_rollback h₂
      exact ⟨hnone, nofun⟩
  · rw [if_pos (by simpa using hbegun)] at h₁
    obtain ⟨rfl, hr⟩ := Program.plays_ret h₁
    cases hr
    exact ⟨rfl, nofun⟩

/-- **What `execute` returns**: the server's answer on the rows of that moment. -/
theorem plays_execute {t : Statement} {r : Result t.Row}
    (h : Program.Plays (serveClients P)
      (Connection.execute i (Sum.inr t) : Program (Wire ι Sql.Row) Exception _).inl log (.ret r)) :
    insertedOn log = none ∧ ∃ c db, countedOn log = some (c, db) ∧ r = (serveStatement P t c db).1 := by
  obtain ⟨l, hinserted, hcounted, hbody⟩ := plays_withLock h
  rw [hinserted, hcounted]
  obtain ⟨c, s, l', rfl, hret⟩ := Program.plays_call hbody
  obtain ⟨rfl, hr⟩ := Program.plays_ret hret
  cases hr
  exact ⟨rfl, c, s.committed, rfl, rfl⟩

/-- A row that cannot be read is no refusal. -/
theorem record_internal {row : SubmissionRow} {e : RepositoryError}
    (h : record P row = .error e) : e.code = .internal := by
  unfold record at h
  split at h
  · cases h; rfl
  · dsimp only at h
    split at h
    · cases h
    · split at h <;> cases h
      rfl

/-- The `INSERT` returns the row it inserts, or nothing where a limit is reached. -/
theorem plan_insert_rows {problem language source : String} {user : Option Int} {maximum perUser : Int}
    {l : Int → Bool} {db : Database} {writes : Changes} {rows : List SubmissionRow}
    (h : ((LockedStatement.insertSubmission problem language source user maximum perUser).plan l
      db).2 = .ok (writes, rows)) :
    (∃ row, rows = [row]) ∨ (rows = [] ∧ db.admits user maximum perUser = false) := by
  simp only [LockedStatement.plan] at h
  split at h
  · dsimp only at h
    obtain ⟨-, hrows, -⟩ := planInsert_ok h
    exact Or.inl ⟨_, hrows⟩
  · rename_i hfull
    cases h
    exact Or.inr ⟨rfl, by simpa using hfull⟩

/-- **How a `create` ends**: without a second look at the rows, and then with no refusal; or, where its
    `INSERT` found a limit reached, with the limit that the count of the active rows points to. -/
theorem plays_create {limits : PostgreSQLRepositoryLimits} {request : SubmissionRequest}
    {result : Except RepositoryError SubmissionRecord}
    (h : Program.Plays (serveClients P) ((ClientCall.create limits request).onConnection P i) log
      (.ret result)) :
    (countedOn log = none ∧ ∀ e, result = .error e → e.code = .internal) ∨
    ∃ db c db', insertedOn log = some db ∧ countedOn log = some (c, db') ∧
      db.admits request.userId limits.maximumActiveSubmissions
        limits.maximumActiveSubmissionsPerUser = false ∧
      result = .error (admissionError limits
        (serveStatement P (.countActive request.userId) c db').1) := by
  obtain ⟨l₁, l₂, r, rfl, h₁, h₂⟩ := Program.plays_bind (show Program.Plays _ (_ >>= _) _ _ from h)
  obtain ⟨hcounted, hrows⟩ := plays_executeLocked h₁
  rw [countedOn_append, hcounted, Option.none_or]
  have hended : ∀ {answer}, Program.Plays (serveClients P)
      (.ret answer : Program (ClientWire ι) Exception _) l₂ (.ret result) →
      (∀ e, answer = .error e → e.code = .internal) →
      countedOn l₂ = none ∧ ∀ e, result = .error e → e.code = .internal := by
    intro answer hret hcode
    obtain ⟨rfl, hr⟩ := Program.plays_ret hret
    cases hr
    exact ⟨rfl, hcode⟩
  match r with
  | .none => exact Or.inl (hended h₂ fun e he => by cases he; rfl)
  | .failed state message => exact Or.inl (hended h₂ fun e he => by cases he; rfl)
  | .command => exact Or.inl (hended h₂ fun e he => by cases he; rfl)
  | .tuples [row] => exact Or.inl (hended h₂ fun _ => record_internal)
  | .tuples (_ :: _ :: _) =>
      obtain ⟨c, db, writes, rows, -, hplan, hr⟩ := hrows rfl
      cases hr
      rcases plan_insert_rows hplan with ⟨row, hone⟩ | ⟨hnone, -⟩
      · cases hone
      · cases hnone
  | .tuples [] =>
      obtain ⟨c, db, writes, rows, hinserted, hplan, hr⟩ := hrows rfl
      cases hr
      rcases plan_insert_rows hplan with ⟨row, hone⟩ | ⟨-, hfull⟩
      · cases hone
      -- the second look
      · obtain ⟨l₃, l₄, count, rfl, h₃, h₄⟩ :=
          Program.plays_bind (show Program.Plays _ (_ >>= _) _ _ from h₂)
        obtain ⟨-, c', db', hcount, hanswer⟩ := plays_execute h₃
        obtain ⟨rfl, hr⟩ := Program.plays_ret h₄
        cases hr
        subst hanswer
        refine Or.inr ⟨db, c', db', ?_, ?_, hfull, rfl⟩
        · rw [insertedOn_append, hinserted]
          rfl
        · rw [countedOn_append, hcount]
          rfl

end plays

/-! ## When the blame is right -/

/-- What a `create` says is true of the moment of its `INSERT`: it blames the limit of the user only if the
    user had that many active submissions then, and the limit of the queue only if the queue had that
    many; and a second look that fails is no reason to blame either. -/
structure Faithful {ι : Type} (limits : PostgreSQLRepositoryLimits) (user : Option Int)
    (log : ClientLog ι) (result : Except RepositoryError SubmissionRecord) : Prop where
  userLimit : ∀ e, result = .error e → e.code = .userSubmissionLimit → ∃ db,
    insertedOn log = some db ∧ limits.maximumActiveSubmissionsPerUser ≤ db.activeOf user
  queueFull : ∀ e, result = .error e → e.code = .queueFull → ∃ db,
    insertedOn log = some db ∧ limits.maximumActiveSubmissions ≤ db.active
  failedCount : ∀ e c db, result = .error e → countedOn log = some (c, db) →
    c.failure.isSome = true → e.code ≠ .userSubmissionLimit ∧ e.code ≠ .queueFull

/-- The second look does not fail, and where it finds the limit of the user reached, the `INSERT` did,
    and otherwise the `INSERT` found the limit of the queue reached. -/
def Undisturbed {ι : Type} (limits : PostgreSQLRepositoryLimits) (user : Option Int)
    (log : ClientLog ι) : Prop :=
  ∀ db c db', insertedOn log = some db → countedOn log = some (c, db') → c.failure = none ∧
    if limits.maximumActiveSubmissionsPerUser ≤ db'.activeOf user then
      limits.maximumActiveSubmissionsPerUser ≤ db.activeOf user
    else limits.maximumActiveSubmissions ≤ db.active

section refusal
variable {ι : Type} [DecidableEq ι] {P : Platform} {i : ι} {log : ClientLog ι}
  {limits : PostgreSQLRepositoryLimits} {request : SubmissionRequest}

/-- The limit that is blamed after a count of the active rows. -/
theorem admissionError_count (P : Platform) (limits : PostgreSQLRepositoryLimits) (c : Choice)
    (db : Database) (user : Option Int) :
    (admissionError limits (serveStatement P (.countActive user) c db).1).code =
      if c.failure = none ∧ limits.maximumActiveSubmissionsPerUser ≤ db.activeOf user then
        .userSubmissionLimit
      else .queueFull := by
  rcases serveStatement_cases (P := P) (.countActive user) c db with ⟨hf, heq⟩ | ⟨hf, heq⟩
  · have hne : c.failure ≠ none := by
      intro hnone
      rw [hnone] at hf
      cases hf
    rw [heq, if_neg fun h => hne h.1]
    rfl
  · rw [heq]
    show (admissionError limits (.tuples [db.activeOf user])).code = _
    by_cases hle : limits.maximumActiveSubmissionsPerUser ≤ db.activeOf user
    · simp [admissionError, hf, hle]
    · simp [admissionError, hle]

/-- A `create` that has returned blames faithfully exactly if it was not disturbed. -/
theorem faithful_iff {result : Except RepositoryError SubmissionRecord}
    (h : Program.Plays (serveClients P) ((ClientCall.create limits request).onConnection P i) log
      (.ret result)) :
    Faithful limits request.userId log result ↔ Undisturbed limits request.userId log := by
  rcases plays_create h with ⟨hnone, hinternal⟩ | ⟨db, c, db', hinserted, hcounted, -, rfl⟩
  · -- no second look, and no blame
    constructor
    · intro _ db c db' _ hcount
      rw [hnone] at hcount
      cases hcount
    · intro _
      refine ⟨fun e he hcode => ?_, fun e he hcode => ?_, fun e c db _ hcount => ?_⟩
      · rw [hinternal e he] at hcode
        cases hcode
      · rw [hinternal e he] at hcode
        cases hcode
      · rw [hnone] at hcount
        cases hcount
  -- from here on there was a second look, and the code follows its count
  · have hcode := admissionError_count P limits c db' request.userId
    constructor
    · intro hfaithful db₀ c₀ db₁ h₀ h₁
      rw [hinserted] at h₀
      rw [hcounted] at h₁
      cases h₀
      cases h₁
      have hcounts : c.failure = none := by
        by_contra hfailed
        have hsome : c.failure.isSome = true := Option.isSome_iff_ne_none.mpr hfailed
        have hneither := hfaithful.failedCount _ c db' rfl hcounted hsome
        rw [if_neg fun h => hfailed h.1] at hcode
        exact hneither.2 hcode
      refine ⟨hcounts, ?_⟩
      by_cases hle : limits.maximumActiveSubmissionsPerUser ≤ db'.activeOf request.userId
      · rw [if_pos ⟨hcounts, hle⟩] at hcode
        obtain ⟨db₀, h₀, hreached⟩ := hfaithful.userLimit _ rfl hcode
        rw [hinserted] at h₀
        cases h₀
        rw [if_pos hle]
        exact hreached
      · rw [if_neg fun h => hle h.2] at hcode
        obtain ⟨db₀, h₀, hreached⟩ := hfaithful.queueFull _ rfl hcode
        rw [hinserted] at h₀
        cases h₀
        rw [if_neg hle]
        exact hreached
    · intro hcalm
      obtain ⟨hcounts, hagree⟩ := hcalm db c db' hinserted hcounted
      refine ⟨fun e he huser => ⟨db, hinserted, ?_⟩, fun e he hfull => ⟨db, hinserted, ?_⟩,
        fun e c₀ db₁ _ h₁ hfailed => ?_⟩
      · cases he
        by_cases hle : limits.maximumActiveSubmissionsPerUser ≤ db'.activeOf request.userId
        · rw [if_pos hle] at hagree
          exact hagree
        · rw [if_neg fun h => hle h.2, huser] at hcode
          cases hcode
      · cases he
        by_cases hle : limits.maximumActiveSubmissionsPerUser ≤ db'.activeOf request.userId
        · rw [if_pos ⟨hcounts, hle⟩, hfull] at hcode
          cases hcode
        · rw [if_neg hle] at hagree
          exact hagree
      · rw [hcounted] at h₁
        cases h₁
        rw [hcounts] at hfailed
        cases hfailed

/-- A client's thread is given what its last call is. -/
theorem clientControl_gives (P : Platform) (b : ClientControl ι) (p p' : ClientPool ι) (i : ι)
    (h : clientControl P b p = some p') : p'.thread i = (begunCall P b i).getD (p.thread i) := by
  cases b with
  | pass elapsed =>
      cases h
      rfl
  | begin j call =>
      have hp' : p' = ⟨p.shared, Function.update p.thread j (call.onConnection P j)⟩ := by
        unfold clientControl at h
        dsimp only at h
        split at h <;> cases h <;> rfl
      subst hp'
      by_cases hji : j = i
      · subst hji
        simp [begunCall]
      · simp [begunCall, hji, Function.update_of_ne (Ne.symm hji)]

/-- **Whom `create` blames.** In every run of clients that call `create`, `retry`, `complete` and `fail`, in
    any interleaving of their commands and with any failures: a `create` that has returned tells the truth
    about the moment of its `INSERT` exactly if its second look did not fail, and the limit that this look
    found, the one of the user or else the one of the queue, was reached when the `INSERT` was
    evaluated. -/
theorem refusal_faithful_iff {db₀ : Database} {h : List (Clients ι × ClientEvent ι)} {p : ClientPool ι}
    {result : Except RepositoryError SubmissionRecord}
    (hrun : Guarded LocksFree (Watched (serveClients P) (clientControl P)) (idleClients ι db₀) h p)
    (hgiven : given (begunCall P) (idleClients ι db₀) i h
      = (ClientCall.create limits request).onConnection P i)
    (hret : p.thread i = .ret result) :
    Faithful limits request.userId (asked (begunCall P) i h) result ↔
      Undisturbed limits request.userId (asked (begunCall P) i h) := by
  have hplays := plays_of_run (clientControl_gives P) hrun i
  rw [hgiven, hret] at hplays
  exact faithful_iff hplays

end refusal

/-! ### A completion in between -/

/-- One active submission per user. -/
def onePerUser : PostgreSQLRepositoryLimits := { maximumActiveSubmissionsPerUser := 1 }

instance (h : List (Clients Bool × ClientEvent Bool)) (p : ClientPool Bool)
    (l : Clients Bool × ClientEvent Bool) : Decidable (LocksFree h p l) :=
  match hl : grantedLock l.2 with
  | some (i, k) => decidable_of_iff (∀ j, j ≠ i → p.shared.holds j k = false) (by
      unfold LocksFree
      rw [hl])
  | none => .isTrue (by
      unfold LocksFree
      rw [hl]
      trivial)

/-- Client `false` creates a second submission of the anonymous bucket, whose first one is running. Between
    its `INSERT` and its count, client `true` completes the first if `disturbed`. -/
def secondCreate (disturbed : Bool) : List (Bool × Choice ⊕ ClientControl Bool) :=
  let calls : Bool → Nat → List (Bool × Choice ⊕ ClientControl Bool) :=
    fun i n => List.replicate n (.inl (i, .calm))
  [.inr (.begin false (.create onePerUser ⟨"a-plus-b", "python", "pass", none⟩)),
    .inr (.begin true (.complete 1 .accepted none))]
    ++ calls false 6 ++ (if disturbed then calls true 3 else []) ++ calls false 3

def playedSecond (disturbed : Bool) : Option (List (Clients Bool × ClientEvent Bool) × ClientPool Bool) :=
  watch (serveClients .plain) (clientControl .plain) LocksFree (secondCreate disturbed) []
    (idleClients Bool createdAndClaimed)

/-- **The wrong limit is blamed.** The user's only submission is completed before the count, and `create`
    answers that the queue is full, with one of a hundred places taken. -/
theorem refusal_unfaithful : ¬ ∀ (P : Platform) (db₀ : Database)
    (h : List (Clients Bool × ClientEvent Bool)) (p : ClientPool Bool) (i : Bool)
    (limits : PostgreSQLRepositoryLimits) (request : SubmissionRequest)
    (result : Except RepositoryError SubmissionRecord),
    Guarded LocksFree (Watched (serveClients P) (clientControl P)) (idleClients Bool db₀) h p →
    given (begunCall P) (idleClients Bool db₀) i h
      = (ClientCall.create limits request).onConnection P i →
    p.thread i = .ret result →
    Faithful limits request.userId (asked (begunCall P) i h) result := by
  intro hclaim
  have hplayed : (playedSecond true).isSome = true := by decide
  have hrun := guarded_of_watch .start (Option.some_get hplayed).symm
  have hfaithful := hclaim .plain createdAndClaimed ((playedSecond true).get hplayed).1
    ((playedSecond true).get hplayed).2 false onePerUser ⟨"a-plus-b", "python", "pass", none⟩ _
    hrun rfl rfl
  obtain ⟨db, hdb, hfull⟩ := hfaithful.queueFull _ rfl rfl
  have hone : (insertedOn (asked (begunCall .plain) false
      ((playedSecond true).get hplayed).1)).map Database.active = some 1 := rfl
  rw [hdb] at hone
  have hactive : db.active = 1 := Option.some.inj hone
  rw [hactive] at hfull
  exact absurd hfull (by decide)

/-- Where nobody completes the first submission, the answer is right. -/
theorem refusal_faithful_undisturbed : ∃ (h : List (Clients Bool × ClientEvent Bool))
    (p : ClientPool Bool) (result : Except RepositoryError SubmissionRecord),
    p.thread false = .ret result ∧
      result = .error ⟨"Too many active submissions for this user", .userSubmissionLimit⟩ ∧
      Faithful onePerUser none (asked (begunCall .plain) false h) result := by
  have hplayed : (playedSecond false).isSome = true := by decide
  have hrun := guarded_of_watch .start (Option.some_get hplayed).symm
  refine ⟨((playedSecond false).get hplayed).1, ((playedSecond false).get hplayed).2, _, rfl, rfl, ?_⟩
  refine (@refusal_faithful_iff Bool _ .plain false onePerUser
    ⟨"a-plus-b", "python", "pass", none⟩ createdAndClaimed ((playedSecond false).get hplayed).1
    ((playedSecond false).get hplayed).2 _ hrun rfl rfl).mpr ?_
  intro db c db' hinserted hcounted
  have hone : (insertedOn (asked (begunCall .plain) false
      ((playedSecond false).get hplayed).1)).map (·.activeOf none) = some 1 := rfl
  have hcount : (countedOn (asked (begunCall .plain) false
      ((playedSecond false).get hplayed).1)).map (fun x => (x.1.failure, x.2.activeOf none))
        = some (none, 1) := rfl
  rw [hinserted] at hone
  rw [hcounted] at hcount
  have hboth := Prod.mk.inj (Option.some.inj hcount)
  have hdb : db.activeOf none = 1 := Option.some.inj hone
  have hdb' : db'.activeOf none = 1 := hboth.2
  refine ⟨hboth.1, ?_⟩
  rw [hdb, hdb', if_pos (by decide)]
  decide

end AlgorithmTrainer
