import AlgorithmTrainer.Judge.ProblemJudge
import AlgorithmTrainer.Lib.Handling
import AlgorithmTrainer.Lib.Pool
import AlgorithmTrainer.Problem.Seeding
import AlgorithmTrainer.Server.Authority
import AlgorithmTrainer.Submission.WorkerPool

/-!
# `System.Processes` — the backends as they run

Any number of backend processes share one database. Each does what `main` does after the migrations: it opens
the problem repository, which inserts the built-in problems that are missing, starts its worker pool, sets up
the administrator's account, and then serves requests; its workers take submissions from the queue meanwhile,
with the problem judge that `main` gives them and the executor it is given. All of them are threads of one
`Pool`, interleaved call by call: a judging worker reads the problem while administrators edit it. An opening
is one transaction, and a step of its own.

A process may end at any moment, and with it its workers and requests. What it leaves running in the
database is recovered by the next start.
-/

namespace AlgorithmTrainer

open Interaction Interaction.Pool Transition Relational

/-! ## The problem judge in the place of the judge -/

/-- The calls that answering a request takes: the judge is the problem judge, the rest are calls
    themselves. -/
def judging : (q : BackendRequest) → Judging q.Reply
  | .judge request => (ProblemJudge.run request).attempt
  | .execute s => .ask (S := Backend.sum Executor) (.inl (.execute s))
  | .executeLocked lock s => .ask (S := Backend.sum Executor) (.inl (.executeLocked lock s))
  | .randomToken => .ask (S := Backend.sum Executor) (.inl .randomToken)
  | .passwordHash password => .ask (S := Backend.sum Executor) (.inl (.passwordHash password))

/-- The work on the queue that nobody but a worker does. -/
def BackendRequest.works : BackendRequest → Bool
  | .executeLocked _ (.claimSubmission _) | .execute (.completeSubmission ..)
  | .execute (.failSubmission ..) | .judge _ => true
  | _ => false

/-- A request that is answered by one call. -/
theorem judging_passes {Φ Ψ : Type} {A : Protocol Backend Φ} {B : Protocol (Backend.sum Executor) Ψ}
    {R : Φ → Ψ → Prop} {φ : Φ} {ψ : Ψ} {q : BackendRequest} (hq : q.works = false)
    (hallowed : B.allowed ψ (.inl q))
    (hreplies : ∀ r, B.admits ψ (.inl q) r → A.admits φ q r ∧ R (A.next φ q r) (B.next ψ (.inl q) r)) :
    B.Follows (fun ψ' (o : Except Exception q.Reply) => ∃ r, o = .ok r ∧ A.admits φ q r ∧
      R (A.next φ q r) ψ') ψ (judging q) := by
  cases q with
  | judge request => cases hq
  | execute | executeLocked | randomToken | passwordHash =>
      exact ⟨hallowed, fun r hr => ⟨r, rfl, hreplies r hr⟩⟩

/-! ## The threads -/

/-- The threads of the backend processes `κ`, each with up to `ι` requests at a time. -/
inductive Process (κ ι : Type) where
  | starter (k : κ)
  | registrar (k : κ)
  | worker (k : κ) (n : Nat)
  | request (k : κ) (i : ι)
deriving DecidableEq

def Process.backend {κ ι : Type} : Process κ ι → κ
  | .starter k | .registrar k | .worker k _ | .request k _ => k

/-- What a thread ended with. -/
inductive ProcessResult where
  | pool (result : PoolResult)
  | ensured (result : Except AuthError AuthUser)
  | responded (response : HttpResponse)

/-- What the backend processes are configured with. -/
structure Deployment (κ : Type) where
  server : Server
  defaultProblems : List Problem
  workerCount : κ → Nat
  adminUsername : κ → String
  adminPassword : κ → String

section system
variable {κ ι τ : Type}

/-- `SubmissionWorkerPool::start`. -/
def starterProgram : Judging ProcessResult :=
  (ProcessResult.pool <$> startPool).handle judging

/-- `ensure_admin` with the configured account. -/
def registrarProgram (D : Deployment κ) (k : κ) : Judging ProcessResult :=
  (ProcessResult.ensured <$> PostgreSQLAuthService.ensureAdmin D.server.P (D.adminUsername k)
    (D.adminPassword k)).handle judging

/-- One `process_one`. -/
def workerProgram (D : Deployment κ) : Judging ProcessResult :=
  (ProcessResult.pool <$> worker D.server.P D.server.limits).handle judging

def requestProgram (D : Deployment κ) (route : Route) (request : HttpRequest) : Judging ProcessResult :=
  (ProcessResult.responded <$> dispatch D.server route request).handle judging

/-- The thread has nothing to do. -/
def isDone : Judging ProcessResult → Bool
  | .call _ _ => false
  | _ => true

def isFresh : Judging ProcessResult → Bool
  | .ret (.pool .stopped) => true
  | _ => false

/-- The worker pool was started. -/
def hasStarted : Judging ProcessResult → Bool
  | .ret (.pool (.started none)) => true
  | _ => false

/-- The administrator's account was set up. -/
def hasEnsured : Judging ProcessResult → Bool
  | .ret (.ensured (.ok _)) => true
  | _ => false

/-! ## The steps -/

/-- What happens besides the calls. -/
inductive SystemControl (κ ι : Type) where
  /-- The problem repository is opened, with what decides the answers to the calls of the opening. -/
  | openProblems (k : κ) (choices : Nat → Choice)
  | start (k : κ)
  | ensure (k : κ)
  | work (k : κ) (n : Nat)
  | arrive (k : κ) (i : ι) (route : Route) (request : HttpRequest)
  | exit (k : κ)
  | elapse (time : Nat)

variable [DecidableEq κ] [DecidableEq ι]

/-- The database and the executor, and what every thread still has to do. -/
abbrev System (κ ι τ : Type) := Pool (Process κ ι) (Backend.sum Executor) Exception ProcessResult
  (Database × τ)

abbrev SystemEvent (κ ι : Type) := Event (Process κ ι) (Backend.sum Executor) Choice (SystemControl κ ι)

/-- Give a thread a program. -/
def assign (p : System κ ι τ) (i : Process κ ι) (program : Judging ProcessResult) : System κ ι τ :=
  { p with thread := Function.update p.thread i program }

/-- The control steps: `main`'s order, a turn of a worker, a request, the end of a process, and time. Where an
    opening has failed, `main` would end; that a start follows it is not excluded here. -/
def systemControl (D : Deployment κ) : SystemControl κ ι → System κ ι τ → Option (System κ ι τ)
  | .openProblems k choices, p =>
      if isFresh (p.thread (.starter k)) then
        some { p with shared := (openedCatalog D.defaultProblems choices p.shared.1, p.shared.2) }
      else none
  | .start k, p =>
      if isFresh (p.thread (.starter k)) then some (assign p (.starter k) starterProgram) else none
  | .ensure k, p =>
      if hasStarted (p.thread (.starter k)) ∧ isFresh (p.thread (.registrar k)) then
        some (assign p (.registrar k) (registrarProgram D k))
      else none
  | .work k n, p =>
      if n < D.workerCount k ∧ hasStarted (p.thread (.starter k)) ∧ isDone (p.thread (.worker k n)) then
        some (assign p (.worker k n) (workerProgram D))
      else none
  | .arrive k i route request, p =>
      if hasEnsured (p.thread (.registrar k)) ∧ isDone (p.thread (.request k i)) then
        some (assign p (.request k i) (requestProgram D route request))
      else none
  | .exit k, p =>
      some { p with thread := fun i => if i.backend = k then .ret (.pool .stopped) else p.thread i }
  | .elapse time, p =>
      some { p with shared := ({ p.shared.1 with clock := p.shared.1.clock + time }, p.shared.2) }

/-- What a control step writes: nothing, or the problems that an opening finds missing. -/
structure ControlWrites (D : Deployment κ) (b : SystemControl κ ι) (db db' : Database) : Prop where
  adminAuditLog : db'.adminAuditLog = db.adminAuditLog
  submissions : db'.submissions = db.submissions
  sessions : db'.sessions = db.sessions
  users : db'.users = db.users
  catalog : (db'.problems = db.problems ∧ db'.problemTests = db.problemTests) ∨
    (∃ k choices, b = .openProblems k choices) ∧ Seeded D.defaultProblems db db'

theorem systemControl_shared {D : Deployment κ} {b : SystemControl κ ι} {p p' : System κ ι τ}
    (hb : systemControl D b p = some p') : ControlWrites D b p.shared.1 p'.shared.1 := by
  cases b with
  | openProblems k choices =>
      simp only [systemControl, Option.ite_none_right_eq_some, Option.some.injEq] at hb
      obtain ⟨-, rfl⟩ := hb
      have hothers := openedCatalog_others D.defaultProblems choices p.shared.1
      refine ⟨?_, ?_, ?_, ?_, ?_⟩
      · exact (congrArg Database.adminAuditLog hothers).trans rfl
      · exact (congrArg Database.submissions hothers).trans rfl
      · exact (congrArg Database.sessions hothers).trans rfl
      · exact (congrArg Database.users hothers).trans rfl
      · rcases openedCatalog_seeded D.defaultProblems choices p.shared.1 with h | h
        · exact Or.inl ⟨(congrArg Database.problems h).trans rfl, (congrArg Database.problemTests h).trans rfl⟩
        · exact Or.inr ⟨⟨k, choices, rfl⟩, h⟩
  | exit | elapse =>
      cases hb
      exact ⟨rfl, rfl, rfl, rfl, Or.inl ⟨rfl, rfl⟩⟩
  | start | ensure | work | arrive =>
      simp only [systemControl, Option.ite_none_right_eq_some, Option.some.injEq] at hb
      obtain ⟨-, rfl⟩ := hb
      exact ⟨rfl, rfl, rfl, rfl, Or.inl ⟨rfl, rfl⟩⟩

/-- No process has been started. -/
def deployed (κ ι : Type) (db : Database) (executor : τ) : System κ ι τ :=
  ⟨(db, executor), fun _ => .ret (.pool .stopped)⟩

/-- A step of the system, with the state it was made in. -/
abbrev SystemStep (D : Deployment κ) (V : Service Executor Choice τ) :
    System κ ι τ → (Database × τ) × SystemEvent κ ι → System κ ι τ → Prop :=
  Watched ((serve D.server.P).sum V) (systemControl D)

/-- What has happened, latest first, each with the state it happened in. -/
abbrev SystemHistory (κ ι τ : Type) := List ((Database × τ) × SystemEvent κ ι)

end system

end AlgorithmTrainer
