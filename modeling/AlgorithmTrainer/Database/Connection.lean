import AlgorithmTrainer.Database.Statement
import AlgorithmTrainer.Lib.Pool

/-!
# `Database.Connection` — `postgresql::Connection` among threads

`execute` and `execute_locked` command by command: each is a program over `Wire`, which takes the mutex of
the connection, sends commands and lets the mutex go. Any number of threads make such calls on one
connection, and the session at the other end (`Session`) is idle, inside a transaction block, or closed.
What becomes of a command is the surroundings' choice (`Fate`): the server executes it, rejects it, or the
connection is lost, before or after the command was executed.

A call leaves the session as it found it because every way out of `execute_locked` after `BEGIN` passes a
`COMMIT` or a `ROLLBACK` while the mutex is still held; `Progress` names the points in between.
-/

namespace AlgorithmTrainer

open Interaction Interaction.Pool Transition

/-- What is sent on a connection, for statements `τ`. -/
inductive Command (τ : Type) where
  | begin
  | advisoryLock (key : Int)
  | statement (s : τ)
  | commit
  | rollback
deriving DecidableEq

/-- The rows a command returns, where the statement `s` returns rows in `row s`. -/
@[reducible] def Command.Row {τ : Type} (row : τ → Type) : Command τ → Type
  | .statement s => row s
  | .begin | .advisoryLock _ | .commit | .rollback => Unit

/-- A use of the connection, on behalf of a caller: its mutex, or a command. -/
inductive WireRequest (κ τ : Type) where
  | acquire (caller : κ)
  | release (caller : κ)
  | send (caller : κ) (command : Command τ)

@[reducible] def WireRequest.Reply {κ τ : Type} (row : τ → Type) : WireRequest κ τ → Type
  | .acquire _ | .release _ => Unit
  | .send _ command => Result (command.Row row)

@[reducible] def Wire (κ : Type) {τ : Type} (row : τ → Type) : Signature :=
  ⟨WireRequest κ τ, WireRequest.Reply row⟩

/-- The result is `command_ok` or `tuples_ok`. -/
def Result.ok {ρ : Type} (r : Result ρ) : Bool := r.commandOk || r.tuplesOk

/-- The test that `execute_locked` makes on the result of a command. -/
def Command.accepted {τ : Type} {row : τ → Type} : (command : Command τ) → Result (command.Row row) → Bool
  | .begin, r | .commit, r | .rollback, r => r.commandOk
  | .advisoryLock _, r => r.tuplesOk
  | .statement _, r => r.ok

namespace Connection

section calls
variable {κ τ ε α : Type} {row : τ → Type}

/-- `PQexec`, `PQexecParams`. -/
def send (caller : κ) (c : Command τ) : Program (Wire κ row) ε (Result (c.Row row)) :=
  .ask (S := Wire κ row) (.send caller c)

/-- The scope of a `std::lock_guard` on the mutex of the connection. -/
def withLock (caller : κ) (body : Program (Wire κ row) ε α) : Program (Wire κ row) ε α := do
  let _ ← .ask (S := Wire κ row) (.acquire caller)
  let result ← body
  let _ ← .ask (S := Wire κ row) (.release caller)
  pure result

def execute (caller : κ) (s : τ) : Program (Wire κ row) ε (Result (row s)) :=
  withLock caller (send caller (.statement s))

def executeLocked (caller : κ) (advisoryLock : Int) (s : τ) :
    Program (Wire κ row) ε (Result (row s)) :=
  withLock caller do
    let begun ← send caller .begin
    if !begun.commandOk then pure .none
    else do
      let lock ← send caller (.advisoryLock advisoryLock)
      if !lock.tuplesOk then do
        let _ ← send caller .rollback
        pure .none
      else do
        let result ← send caller (.statement s)
        if !result.commandOk && !result.tuplesOk then do
          let _ ← send caller .rollback
          pure result
        else do
          let committed ← send caller .commit
          if !committed.commandOk then do
            let _ ← send caller .rollback
            pure .none
          else pure result

end calls

/-! ## Calls and the session -/

/-- What a thread may call. -/
inductive ConnectionCall (τ : Type) where
  | execute (s : τ)
  | executeLocked (advisoryLock : Int) (s : τ)
deriving DecidableEq

@[reducible] def ConnectionCall.statement {τ : Type} : ConnectionCall τ → τ
  | .execute s => s
  | .executeLocked _ s => s

/-- One call of a run: what is called, and the call's number in the run. -/
structure Caller (τ : Type) where
  number : Nat
  call : ConnectionCall τ
deriving DecidableEq

/-- What a thread that has ended a call returns: the call, and its result. -/
abbrev Returned {τ : Type} (row : τ → Type) := (caller : Caller τ) × Result (row caller.call.statement)

/-- A transaction block: the call that began it, what the session has executed in it so far and for which
    calls, the calls whose effects wait for the `COMMIT`, and whether it only waits for its end. -/
structure Block (τ : Type) where
  opener : Caller τ
  executed : List (Caller τ × Command τ)
  writes : List (Caller τ)
  aborted : Bool

inductive Session (τ : Type) where
  | idle
  | inside (block : Block τ)
  | closed

/-- A connection: the call that holds its mutex, the session of the server, the calls whose effects are
    committed and the calls of which the server rejected the statement or the `COMMIT`, each latest first,
    and the number of calls begun. -/
structure Server (τ : Type) where
  owner : Option (Caller τ)
  session : Session τ
  committed : List (Caller τ)
  refused : List (Caller τ)
  calls : Nat

/-- What becomes of a command. -/
inductive Fate where
  | served
  | rejected
  | lost (processed : Bool)
deriving DecidableEq

/-- What the surroundings decide for a command: its fate, the result of a statement that is executed, the
    text of an error, and whether a rejected `COMMIT` leaves the block open. -/
structure Answer {τ : Type} (row : τ → Type) where
  fate : Fate
  result : (s : τ) → Result (row s)
  message : String
  stays : Bool

section session
variable {τ : Type} {row : τ → Type}

namespace Session

/-- The session is inside a transaction block. -/
def inTransaction : Session τ → Bool
  | inside _ => true
  | idle | closed => false

/-- The session with one more command of its block. -/
def record (caller : Caller τ) (command : Command τ) : Session τ → Session τ
  | inside b => inside { b with executed := b.executed ++ [(caller, command)] }
  | other => other

/-- An error aborts the block. -/
def abort : Session τ → Session τ
  | inside b => inside { b with aborted := true }
  | other => other

/-- The block is aborted, so that the server refuses everything but its end. -/
def isAborted : Session τ → Bool
  | inside b => b.aborted
  | idle | closed => false

/-- The calls whose effects a `COMMIT` makes permanent. -/
def pending : Session τ → List (Caller τ)
  | inside b => if b.aborted then [] else b.writes
  | idle | closed => []

end Session

namespace Server

/-- The server reports an error. A rejected `COMMIT` ends the block or leaves it aborted, and a `ROLLBACK`
    ends it in any case. -/
def reject (c : Answer row) (caller : Caller τ) (s : Server τ) : Command τ → Server τ
  | .statement q => { s with
      session := (s.session.record caller (.statement q)).abort, refused := caller :: s.refused }
  | .commit => { s with
      session := if c.stays then s.session.abort else .idle, refused := caller :: s.refused }
  | .rollback => { s with session := .idle }
  | .begin => { s with session := (s.session.record caller .begin).abort }
  | .advisoryLock k => { s with session := (s.session.record caller (.advisoryLock k)).abort }

/-- What the server makes permanent when it executes a command. -/
def effects (caller : Caller τ) (s : Server τ) : Command τ → List (Caller τ)
  | .statement _ => if s.session.inTransaction then [] else [caller]
  | .commit => s.session.pending
  | .begin | .advisoryLock _ | .rollback => []

/-- The server executes a command. A second `BEGIN`, and an end without a block, are warnings only. -/
def serve (c : Answer row) (caller : Caller τ) (s : Server τ) :
    (command : Command τ) → Result (command.Row row) × Server τ
  | .begin => (.command, { s with session := match s.session with
      | .idle => .inside ⟨caller, [], [], false⟩
      | session => session.record caller .begin })
  | .advisoryLock k => (.tuples [()], { s with session := s.session.record caller (.advisoryLock k) })
  | .statement q =>
      if (c.result q).ok then (c.result q, { s with
        session := match s.session.record caller (.statement q) with
          | .inside b => .inside { b with writes := caller :: b.writes }
          | session => session
        committed := s.effects caller (.statement q) ++ s.committed })
      else (c.result q, s.reject c caller (.statement q))
  | .commit => (.command, { s with
      session := .idle, committed := s.effects caller .commit ++ s.committed })
  | .rollback => (.command, { s with session := .idle })

/-- A command on the connection, whatever its fate. -/
def answer (c : Answer row) (caller : Caller τ) (command : Command τ) (s : Server τ) :
    Result (command.Row row) × Server τ :=
  match s.session, c.fate with
  | .closed, _ => (.failed .fault c.message, s)
  | _, .lost processed => (.failed .fault c.message, { s with
      session := .closed
      committed := (if processed then s.effects caller command else []) ++ s.committed })
  | _, .rejected => (.failed .fault c.message, s.reject c caller command)
  | session, .served =>
      if session.isAborted && command matches .begin | .advisoryLock _ | .statement _ then
        (.failed .fault c.message, s.reject c caller command)
      else s.serve c caller command

end Server

/-- The connection: its mutex, and the server behind it. -/
def wire : Service (Wire (Caller τ) row) (Answer row) (Server τ)
  | .acquire caller, _, s => ((), { s with owner := some caller })
  | .release _, _, s => ((), { s with owner := none })
  | .send caller command, c, s => s.answer c caller command

/-- The program of a call. -/
def Caller.program (caller : Caller τ) : Program (Wire (Caller τ) row) Unit (Returned row) :=
  match caller with
  | ⟨n, .execute s⟩ => do
      let result : Result (row s) ← execute ⟨n, .execute s⟩ s
      pure ⟨⟨n, .execute s⟩, result⟩
  | ⟨n, .executeLocked k s⟩ => do
      let result : Result (row s) ← executeLocked ⟨n, .executeLocked k s⟩ k s
      pure ⟨⟨n, .executeLocked k s⟩, result⟩

/-! ## Threads -/

/-- The threads of the program on one connection. -/
abbrev Threads (ι : Type) (row : τ → Type) := Pool ι (Wire (Caller τ) row) Unit (Returned row) (Server τ)

/-- A thread that is in no call begins one. -/
def begins {ι : Type} [DecidableEq ι] (b : ι × Caller τ) (p : Threads ι row) :
    Option (Threads ι row) :=
  if b.2.number = p.shared.calls then
    match p.thread b.1 with
    | .call _ _ => none
    | .ret _ | .raise _ => some ⟨{ p.shared with calls := p.shared.calls + 1 },
        Function.update p.thread b.1 b.2.program⟩
  else none

/-- A `std::mutex` is acquired when nobody holds it. -/
def MutexFree {ι : Type} (_ : List (Event ι (Wire (Caller τ) row) (Answer row) (ι × Caller τ)))
    (p : Threads ι row) : Event ι (Wire (Caller τ) row) (Answer row) (ι × Caller τ) → Prop
  | .call _ _ ⟨.acquire _, _⟩ => p.shared.owner.isNone = true
  | _ => True

/-- A connection that was just made, or could not be made, and threads that have called nothing. -/
def opened (ι : Type) (row : τ → Type) (alive : Bool) : Threads ι row :=
  ⟨⟨none, if alive then .idle else .closed, [], [], 0⟩, fun _ => .raise ()⟩

/-! ## Where a call is -/

/-- The point a thread's call has reached; `ok` is what its result will be. -/
inductive Progress (τ : Type) where
  | resting
  | waiting (caller : Caller τ)
  | holding (caller : Caller τ)
  | begun (caller : Caller τ)
  | granted (caller : Caller τ)
  | executed (caller : Caller τ)
  | failing (caller : Caller τ)
  | finished (caller : Caller τ) (ok : Bool)
  | returned (caller : Caller τ) (ok : Bool)

namespace Progress

/-- The call the thread is in, or was in last. -/
def caller : Progress τ → Option (Caller τ)
  | resting => none
  | waiting c | holding c | begun c | granted c | executed c | failing c | finished c _
  | returned c _ => some c

/-- The call, while it holds the mutex. -/
def holder : Progress τ → Option (Caller τ)
  | resting | waiting _ | returned _ _ => none
  | holding c | begun c | granted c | executed c | failing c | finished c _ => some c

theorem caller_of_holder {φ : Progress τ} {c : Caller τ} (h : φ.holder = some c) :
    φ.caller = some c := by
  cases φ <;> first | exact h | cases h

end Progress

/-- The next command of a call that has reached this point. -/
def Expects (φ : Progress τ) (caller : Caller τ) (command : Command τ) : Prop :=
  φ.holder = some caller ∧ match φ, caller.call, command with
    | .holding _, .execute s, .statement s' => s' = s
    | .holding _, .executeLocked _ _, .begin => True
    | .begun _, .executeLocked k _, .advisoryLock k' => k' = k
    | .granted _, .executeLocked _ s, .statement s' => s' = s
    | .executed _, .executeLocked _ _, .commit => True
    | .failing _, .executeLocked _ _, .rollback => True
    | _, _, _ => False

/-- The point after a command. -/
def Progress.after (φ : Progress τ) (command : Command τ) (ok : Bool) : Progress τ :=
  match φ, command with
  | .holding c, .statement _ => .finished c ok
  | .holding c, .begin => if ok then .begun c else .finished c false
  | .begun c, _ => if ok then .granted c else .failing c
  | .granted c, _ => if ok then .executed c else .failing c
  | .executed c, _ => if ok then .finished c true else .failing c
  | .failing c, _ => .finished c false
  | φ, _ => φ

/-- The protocol of a call: it takes the mutex, sends what `Expects` says, and lets the mutex go once it has
    finished. -/
def discipline (row : τ → Type) : Protocol (Wire (Caller τ) row) (Progress τ) where
  allowed φ
    | .acquire caller => φ = .waiting caller
    | .release caller => ∃ ok, φ = .finished caller ok
    | .send caller command => Expects φ caller command
  admits _ _ _ := True
  next φ
    | .acquire caller, _ => .holding caller
    | .release _, _ => match φ with
        | .finished c ok => .returned c ok
        | φ => φ
    | .send _ command, r => φ.after command (command.accepted r)

/-- A thread that has called nothing rests; one that has ended a call returned what the call promised. -/
def Ends (φ : Progress τ) : Except Unit (Returned row) → Prop
  | .ok ⟨caller, r⟩ => φ = .returned caller r.ok
  | .error _ => φ = .resting

section follows
variable {caller : Caller τ} {ρ : Type}

/-- The call has its result, and still the mutex. -/
def Finishes (caller : Caller τ) (φ : Progress τ) (o : Except Unit (Result ρ)) : Prop :=
  ∃ r, o = .ok r ∧ φ = .finished caller r.ok

/-- The call has its result. -/
def Returns (caller : Caller τ) (φ : Progress τ) (o : Except Unit (Result ρ)) : Prop :=
  ∃ r, o = .ok r ∧ φ = .returned caller r.ok

theorem withLock_follows {body : Program (Wire (Caller τ) row) Unit (Result ρ)}
    (hbody : (discipline row).Follows (Finishes caller) (.holding caller) body) :
    (discipline row).Follows (Returns caller) (.waiting caller) (withLock caller body) := by
  refine ⟨rfl, fun _ _ => hbody.bind ?_ ?_⟩
  · rintro φ a ⟨r, ha, rfl⟩
    cases ha
    exact ⟨⟨_, rfl⟩, fun _ _ => ⟨a, rfl, rfl⟩⟩
  · rintro φ e ⟨r, he, -⟩
    cases he

theorem execute_follows (n : Nat) (s : τ) :
    (discipline row).Follows (Returns ⟨n, .execute s⟩) (.waiting ⟨n, .execute s⟩)
      (execute ⟨n, .execute s⟩ s) :=
  withLock_follows ⟨⟨rfl, rfl⟩, fun r _ => ⟨r, rfl, rfl⟩⟩

/-- The way out of a transaction that cannot be committed. -/
theorem rollback_follows {n : Nat} {k : Int} {s : τ} {r : Result (row s)} (hr : r.ok = false) :
    (discipline row).Follows (Finishes ⟨n, .executeLocked k s⟩)
      (.failing ⟨n, .executeLocked k s⟩)
      (send ⟨n, .executeLocked k s⟩ .rollback >>= fun _ => pure r) :=
  ⟨⟨rfl, trivial⟩, fun _ _ => ⟨r, rfl, by rw [hr]; rfl⟩⟩

/-- A command whose success decides how the call goes on. -/
theorem send_follows {φ yes no : Progress τ} {Q : Progress τ → Except Unit (Result ρ) → Prop}
    {command : Command τ} (hφ : Expects φ caller command)
    (hafter : ∀ ok, φ.after command ok = if ok then yes else no)
    {f : Result (command.Row row) → Program (Wire (Caller τ) row) Unit (Result ρ)}
    (hyes : ∀ r, command.accepted r = true → (discipline row).Follows Q yes (f r))
    (hno : ∀ r, command.accepted r = false → (discipline row).Follows Q no (f r)) :
    (discipline row).Follows Q φ (send caller command >>= f) := by
  refine ⟨hφ, fun r _ => ?_⟩
  show (discipline row).Follows Q (φ.after command (command.accepted r)) (f r)
  rw [hafter]
  cases hr : command.accepted r with
  | false => exact hno r hr
  | true => exact hyes r hr

theorem executeLocked_follows (n : Nat) (k : Int) (s : τ) :
    (discipline row).Follows (Returns ⟨n, .executeLocked k s⟩)
      (.waiting ⟨n, .executeLocked k s⟩) (executeLocked ⟨n, .executeLocked k s⟩ k s) := by
  refine withLock_follows (send_follows ⟨rfl, trivial⟩ (fun _ => rfl) (fun begun hbegun => ?_)
    fun begun hbegun => ?_)
  · rw [if_neg (by simpa [Command.accepted] using hbegun)]
    refine send_follows ⟨rfl, rfl⟩ (fun _ => rfl) (fun lock hlock => ?_) fun lock hlock => ?_
    · rw [if_neg (by simpa [Command.accepted] using hlock)]
      refine send_follows ⟨rfl, rfl⟩ (fun _ => rfl) (fun result hresult => ?_)
        fun result hresult => ?_
      · have hok : result.ok = true := hresult
        rw [if_neg (by simpa [Result.ok, or_iff_not_imp_left] using hok)]
        refine send_follows ⟨rfl, trivial⟩ (fun _ => rfl) (fun committed hcommitted => ?_)
          fun committed hcommitted => ?_
        · rw [if_neg (by simpa [Command.accepted] using hcommitted)]
          exact ⟨result, rfl, by rw [hok]⟩
        · rw [if_pos (by simpa [Command.accepted] using hcommitted)]
          exact rollback_follows rfl
      · rw [if_pos (by simpa [Command.accepted, Result.ok] using hresult)]
        exact rollback_follows hresult
    · rw [if_pos (by simpa [Command.accepted] using hlock)]
      exact rollback_follows rfl
  · rw [if_pos (by simpa [Command.accepted] using hbegun)]
    exact ⟨.none, rfl, rfl⟩

/-- Every call keeps the discipline, and returns what its progress says. -/
theorem program_follows (caller : Caller τ) :
    (discipline row).Follows Ends (.waiting caller) caller.program := by
  match caller with
  | ⟨n, .execute s⟩ =>
      refine (execute_follows n s).bind ?_ ?_
      · rintro φ a ⟨r, ha, rfl⟩
        cases ha
        rfl
      · rintro φ e ⟨r, he, -⟩
        cases he
  | ⟨n, .executeLocked k s⟩ =>
      refine (executeLocked_follows n k s).bind ?_ ?_
      · rintro φ a ⟨r, ha, rfl⟩
        cases ha
        rfl
      · rintro φ e ⟨r, he, -⟩
        cases he

end follows

/-! ## The invariant -/

/-- Nothing has come of the call yet. -/
def Untouched (c : Caller τ) (s : Server τ) : Prop := c ∉ s.refused ∧ c ∉ s.committed

/-- What a thread may rely on at the point its call has reached. -/
def Fits (s : Server τ) : Progress τ → Prop
  | .resting => True
  | .waiting c => Untouched c s
  | .holding c => s.owner = some c ∧ s.session.inTransaction = false ∧ Untouched c s
  | .begun c => s.owner = some c ∧ s.session = .inside ⟨c, [], [], false⟩ ∧ Untouched c s
  | .granted c => s.owner = some c ∧ (∃ k q, c.call = .executeLocked k q ∧
      s.session = .inside ⟨c, [(c, .advisoryLock k)], [], false⟩) ∧ Untouched c s
  | .executed c => s.owner = some c ∧ (∃ k q, c.call = .executeLocked k q ∧
      s.session = .inside ⟨c, [(c, .advisoryLock k), (c, .statement q)], [c], false⟩) ∧
        Untouched c s
  | .failing c => s.owner = some c
  | .finished c ok => s.owner = some c ∧ s.session.inTransaction = false ∧
      (c ∈ s.refused → ok = false)
  | .returned c ok => c ∈ s.refused → ok = false

/-- The block was begun by a locked call, and holds at most its lock request and its statement, in this
    order. -/
def Block.Orderly (b : Block τ) : Prop :=
  ∃ k q, b.opener.call = .executeLocked k q ∧
    b.executed <+: [(b.opener, .advisoryLock k), (b.opener, .statement q)]

def Session.Orderly (s : Session τ) : Prop := ∀ b, s = .inside b → b.Orderly

/-- The invariant of the threads and the server. -/
structure Sound {ι : Type} (φ : ι → Progress τ) (s : Server τ) : Prop where
  distinct : ∀ i j c, (φ i).caller = some c → (φ j).caller = some c → i = j
  begun : ∀ i c, (φ i).caller = some c → c.number < s.calls
  recorded : ∀ c, c ∈ s.refused ∨ c ∈ s.committed → c.number < s.calls
  fits : ∀ i, Fits s (φ i)
  free : s.owner = none → s.session.inTransaction = false
  orderly : s.session.Orderly
  consistent : ∀ c ∈ s.refused, c ∉ s.committed

theorem Fits.owner {s : Server τ} {φ : Progress τ} {c : Caller τ} (h : Fits s φ)
    (hc : φ.holder = some c) : s.owner = some c := by
  cases φ with
  | resting | waiting | returned => cases hc
  | failing c' => cases hc; exact h
  | holding c' => cases hc; exact h.1
  | begun c' => cases hc; exact h.1
  | granted c' => cases hc; exact h.1
  | executed c' => cases hc; exact h.1
  | finished c' ok => cases hc; exact h.1

/-- What is known of the outcome of other calls is as it was. -/
def SameBut (c : Caller τ) (s s' : Server τ) : Prop :=
  ∀ c', c' ≠ c → (c' ∈ s'.refused ↔ c' ∈ s.refused) ∧ (c' ∈ s'.committed ↔ c' ∈ s.committed)

theorem SameBut.refl (c : Caller τ) (s : Server τ) : SameBut c s s := fun _ _ => ⟨.rfl, .rfl⟩

/-- A thread without the mutex relies only on the outcome of its own call. -/
theorem Fits.frame {s s' : Server τ} {φ : Progress τ} {c : Caller τ} (h : Fits s φ)
    (hout : φ.holder = none) (hne : φ.caller ≠ some c) (hsame : SameBut c s s') : Fits s' φ := by
  cases φ with
  | resting => trivial
  | waiting c' =>
      have hne' : c' ≠ c := fun he => hne (by rw [he]; rfl)
      obtain ⟨hrefused, hcommitted⟩ := hsame c' hne'
      exact ⟨fun hc => h.1 (hrefused.mp hc), fun hc => h.2 (hcommitted.mp hc)⟩
  | returned c' ok =>
      have hne' : c' ≠ c := fun he => hne (by rw [he]; rfl)
      exact fun hc => h ((hsame c' hne').1.mp hc)
  | holding | begun | granted | executed | failing | finished => cases hout

/-- What a command of the call `c` does to the server, where it takes the call to the point `ψ`. -/
structure Advances (c : Caller τ) (s s' : Server τ) (ψ : Progress τ) : Prop where
  owner : s'.owner = s.owner
  calls : s'.calls = s.calls
  same : SameBut c s s'
  fits : Fits s' ψ
  orderly : s'.session.Orderly
  consistent : c ∈ s'.refused → c ∉ s'.committed

section commands
variable {a : Answer row} {c : Caller τ} {s : Server τ} {ψ : Progress τ} {σ : Session τ}

theorem orderly_outside (h : σ.inTransaction = false) : σ.Orderly := by
  rintro b rfl
  cases h

/-- The session changed, and nothing came of the call. -/
theorem Advances.stay (hcons : c ∈ s.refused → c ∉ s.committed) (hσ : σ.Orderly)
    (hfits : Fits { s with session := σ } ψ) : Advances c s { s with session := σ } ψ :=
  ⟨rfl, rfl, fun _ _ => ⟨.rfl, .rfl⟩, hfits, hσ, hcons⟩

/-- The server rejected the statement or the `COMMIT` of the call. -/
theorem Advances.refuse (hnew : Untouched c s) (hσ : σ.Orderly)
    (hfits : Fits { s with session := σ, refused := c :: s.refused } ψ) :
    Advances c s { s with session := σ, refused := c :: s.refused } ψ := by
  refine ⟨rfl, rfl, fun c' hne => ⟨?_, .rfl⟩, hfits, hσ, fun _ => hnew.2⟩
  simp [hne]

/-- The effects of the call became permanent. -/
theorem Advances.commit (hnew : Untouched c s) (hσ : σ.Orderly)
    (hfits : Fits { s with session := σ, committed := c :: s.committed } ψ) :
    Advances c s { s with session := σ, committed := c :: s.committed } ψ := by
  refine ⟨rfl, rfl, fun c' hne => ⟨.rfl, ?_⟩, hfits, hσ, fun hc => absurd hc hnew.1⟩
  simp [hne]

/-- The connection was lost, after the command was executed or before. -/
theorem Advances.lose {processed : Bool} (hnew : Untouched c s)
    (hfits : ∀ C, Fits { s with session := .closed, committed := C } ψ) :
    Advances c s { s with
      session := .closed, committed := (if processed then [c] else []) ++ s.committed } ψ := by
  cases processed with
  | true => exact .commit hnew (orderly_outside rfl) (hfits _)
  | false => exact .stay (fun _ => hnew.2) (orderly_outside rfl) (hfits _)

/-- The session outside of a transaction block. -/
theorem outside_cases (h : s.session.inTransaction = false) :
    s.session = .idle ∨ s.session = .closed := by
  cases hs : s.session with
  | idle => exact Or.inl rfl
  | closed => exact Or.inr rfl
  | inside b => rw [hs] at h; cases h

/-- On a closed session every command fails. -/
theorem answer_closed (hs : s.session = .closed) (command : Command τ) :
    s.answer a c command = (.failed .fault a.message, s) := by
  simp [Server.answer, hs]

theorem answer_lost {processed : Bool} (hs : s.session ≠ .closed) (hf : a.fate = .lost processed)
    (command : Command τ) : s.answer a c command = (.failed .fault a.message, { s with
      session := .closed
      committed := (if processed then s.effects c command else []) ++ s.committed }) := by
  cases hs' : s.session with
  | closed => exact absurd hs' hs
  | idle | inside => simp [Server.answer, hs', hf]

theorem answer_rejected (hs : s.session ≠ .closed) (hf : a.fate = .rejected)
    (command : Command τ) :
    s.answer a c command = (.failed .fault a.message, s.reject a c command) := by
  cases hs' : s.session with
  | closed => exact absurd hs' hs
  | idle | inside => simp [Server.answer, hs', hf]

/-- Outside of an aborted block, a command that is served is executed. -/
theorem answer_served (hs : s.session ≠ .closed) (hab : s.session.isAborted = false)
    (hf : a.fate = .served) (command : Command τ) :
    s.answer a c command = s.serve a c command := by
  cases hs' : s.session with
  | closed => exact absurd hs' hs
  | idle => simp [Server.answer, hs', hf, Session.isAborted]
  | inside b =>
      rw [hs'] at hab
      simp [Server.answer, hs', hf, hab]

/-- The statement of `execute`, by itself. -/
theorem answer_execute {q : τ} (howner : s.owner = some c)
    (hout : s.session.inTransaction = false) (hnew : Untouched c s) :
    Advances c s (s.answer a c (.statement q)).2
      (.finished c (s.answer a c (.statement q)).1.ok) := by
  rcases outside_cases hout with hs | hs
  · have hopen : s.session ≠ .closed := by simp [hs]
    have heffects : s.effects c (.statement q) = [c] := by simp [Server.effects, hout]
    have hreject : s.reject a c (.statement q)
        = { s with session := s.session, refused := c :: s.refused } := by
      simp [Server.reject, hs, Session.record, Session.abort]
    cases hf : a.fate with
    | served =>
        rw [answer_served hopen (by rw [hs]; rfl) hf]
        by_cases hok : (a.result q).ok = true
        · have hserve : s.serve a c (.statement q) = (a.result q, { s with
              session := s.session, committed := c :: s.committed }) := by
            simp [Server.serve, hok, heffects, hs, Session.record]
          rw [hserve]
          exact .commit hnew (orderly_outside hout) ⟨howner, hout, fun hc => absurd hc hnew.1⟩
        · have hserve : s.serve a c (.statement q) = (a.result q, { s with
              session := s.session, refused := c :: s.refused }) := by
            simp [Server.serve, hok, hreject]
          rw [hserve]
          exact .refuse hnew (orderly_outside hout) ⟨howner, hout, fun _ => by simpa using hok⟩
    | rejected =>
        rw [answer_rejected hopen hf, hreject]
        exact .refuse hnew (orderly_outside hout) ⟨howner, hout, fun _ => rfl⟩
    | lost processed =>
        rw [answer_lost hopen hf, heffects]
        exact .lose hnew fun _ => ⟨howner, rfl, fun _ => rfl⟩
  · rw [answer_closed hs]
    exact .stay (fun _ => hnew.2) (orderly_outside hout) ⟨howner, hout, fun _ => rfl⟩

theorem orderly_inside {b : Block τ} (h : b.Orderly) : (Session.inside b).Orderly := by
  intro b' hb
  cases hb
  exact h

/-- A lost command without effects of its own. -/
theorem Advances.lose_nothing {processed : Bool} (hnew : Untouched c s)
    (hfits : Fits { s with session := .closed } ψ) :
    Advances c s { s with
      session := .closed, committed := (if processed then [] else []) ++ s.committed } ψ := by
  rw [ite_self]
  exact .stay (fun _ => hnew.2) (orderly_outside rfl) hfits

theorem answer_begin {k : Int} {q : τ} (hcall : c.call = .executeLocked k q)
    (howner : s.owner = some c) (hout : s.session.inTransaction = false) (hnew : Untouched c s) :
    Advances c s (s.answer a c .begin).2
      (if (s.answer a c .begin).1.commandOk then .begun c else .finished c false) := by
  rcases outside_cases hout with hs | hs
  · have hopen : s.session ≠ .closed := by simp [hs]
    cases hf : a.fate with
    | served =>
        have hserve : s.serve a c .begin = (.command, { s with
            session := .inside ⟨c, [], [], false⟩ }) := by
          simp [Server.serve, hs]
        rw [answer_served hopen (by rw [hs]; rfl) hf, hserve]
        exact .stay (fun _ => hnew.2) (orderly_inside ⟨k, q, hcall, List.nil_prefix⟩)
          ⟨howner, rfl, hnew⟩
    | rejected =>
        have hreject : s.reject a c .begin = { s with session := .idle } := by
          simp [Server.reject, hs, Session.record, Session.abort]
        rw [answer_rejected hopen hf, hreject]
        exact .stay (fun _ => hnew.2) (orderly_outside rfl)
          ⟨howner, rfl, fun hc => absurd hc hnew.1⟩
    | lost processed =>
        rw [answer_lost hopen hf]
        exact .lose_nothing hnew ⟨howner, rfl, fun hc => absurd hc hnew.1⟩
  · rw [answer_closed hs]
    exact .stay (fun _ => hnew.2) (orderly_outside hout)
      ⟨howner, hout, fun hc => absurd hc hnew.1⟩

theorem answer_advisoryLock {k : Int} {q : τ} (hcall : c.call = .executeLocked k q)
    (howner : s.owner = some c) (hs : s.session = .inside ⟨c, [], [], false⟩)
    (hnew : Untouched c s) :
    Advances c s (s.answer a c (.advisoryLock k)).2
      (if (s.answer a c (.advisoryLock k)).1.tuplesOk then .granted c else .failing c) := by
  have hopen : s.session ≠ .closed := by simp [hs]
  have horderly : ∀ writes aborted,
      Block.Orderly ⟨c, [(c, .advisoryLock k)], writes, aborted⟩ := fun _ _ =>
    ⟨k, q, hcall, by simp⟩
  cases hf : a.fate with
  | served =>
      have hserve : s.serve a c (.advisoryLock k) = (.tuples [()], { s with
          session := .inside ⟨c, [(c, .advisoryLock k)], [], false⟩ }) := by
        simp [Server.serve, hs, Session.record]
      rw [answer_served hopen (by rw [hs]; rfl) hf, hserve]
      exact .stay (fun _ => hnew.2) (orderly_inside (horderly _ _))
        ⟨howner, ⟨k, q, hcall, rfl⟩, hnew⟩
  | rejected =>
      have hreject : s.reject a c (.advisoryLock k) = { s with
          session := .inside ⟨c, [(c, .advisoryLock k)], [], true⟩ } := by
        simp [Server.reject, hs, Session.record, Session.abort]
      rw [answer_rejected hopen hf, hreject]
      exact .stay (fun _ => hnew.2) (orderly_inside (horderly _ _)) howner
  | lost processed =>
      rw [answer_lost hopen hf]
      exact .lose_nothing hnew howner

/-- The statement of `execute_locked`, inside its block. -/
theorem answer_statement {k : Int} {q : τ} (hcall : c.call = .executeLocked k q)
    (howner : s.owner = some c)
    (hs : s.session = .inside ⟨c, [(c, .advisoryLock k)], [], false⟩) (hnew : Untouched c s) :
    Advances c s (s.answer a c (.statement q)).2
      (if (s.answer a c (.statement q)).1.ok then .executed c else .failing c) := by
  have hopen : s.session ≠ .closed := by simp [hs]
  have horderly : ∀ writes aborted,
      Block.Orderly ⟨c, [(c, .advisoryLock k), (c, .statement q)], writes, aborted⟩ :=
    fun _ _ => ⟨k, q, hcall, List.prefix_rfl⟩
  have hreject : s.reject a c (.statement q) = { s with
      session := .inside ⟨c, [(c, .advisoryLock k), (c, .statement q)], [], true⟩
      refused := c :: s.refused } := by
    simp [Server.reject, hs, Session.record, Session.abort]
  cases hf : a.fate with
  | served =>
      rw [answer_served hopen (by rw [hs]; rfl) hf]
      by_cases hok : (a.result q).ok = true
      · have hserve : s.serve a c (.statement q) = (a.result q, { s with
            session := .inside ⟨c, [(c, .advisoryLock k), (c, .statement q)], [c], false⟩ }) := by
          simp [Server.serve, hok, hs, Session.record, Server.effects, Session.inTransaction]
        rw [hserve, if_pos hok]
        exact .stay (fun _ => hnew.2) (orderly_inside (horderly _ _))
          ⟨howner, ⟨k, q, hcall, rfl⟩, hnew⟩
      · have hserve : s.serve a c (.statement q)
            = (a.result q, s.reject a c (.statement q)) := by
          simp [Server.serve, hok]
        rw [hserve, hreject, if_neg hok]
        exact .refuse hnew (orderly_inside (horderly _ _)) howner
  | rejected =>
      rw [answer_rejected hopen hf, hreject]
      exact .refuse hnew (orderly_inside (horderly _ _)) howner
  | lost processed =>
      have heffects : s.effects c (.statement q) = [] := by
        simp [Server.effects, hs, Session.inTransaction]
      rw [answer_lost hopen hf, heffects]
      exact .lose_nothing hnew howner

theorem answer_commit {k : Int} {q : τ} (hcall : c.call = .executeLocked k q)
    (howner : s.owner = some c)
    (hs : s.session = .inside ⟨c, [(c, .advisoryLock k), (c, .statement q)], [c], false⟩)
    (hnew : Untouched c s) :
    Advances c s (s.answer a c .commit).2
      (if (s.answer a c .commit).1.commandOk then .finished c true else .failing c) := by
  have hopen : s.session ≠ .closed := by simp [hs]
  have heffects : s.effects c .commit = [c] := by simp [Server.effects, hs, Session.pending]
  cases hf : a.fate with
  | served =>
      have hserve : s.serve a c .commit = (.command, { s with
          session := .idle, committed := c :: s.committed }) := by
        simp [Server.serve, heffects]
      rw [answer_served hopen (by rw [hs]; rfl) hf, hserve]
      exact .commit hnew (orderly_outside rfl) ⟨howner, rfl, fun hc => absurd hc hnew.1⟩
  | rejected =>
      have hreject : s.reject a c .commit = { s with
          session := if a.stays then s.session.abort else .idle, refused := c :: s.refused } := rfl
      rw [answer_rejected hopen hf, hreject]
      refine .refuse hnew ?_ howner
      cases a.stays with
      | false => exact orderly_outside rfl
      | true =>
          rw [hs]
          exact orderly_inside ⟨k, q, hcall, List.prefix_rfl⟩
  | lost processed =>
      rw [answer_lost hopen hf, heffects]
      exact .lose hnew fun _ => howner

/-- `ROLLBACK` ends the block, unless the connection is lost, and with it the block. -/
theorem answer_rollback (howner : s.owner = some c) (hcons : c ∈ s.refused → c ∉ s.committed) :
    Advances c s (s.answer a c .rollback).2 (.finished c false) := by
  have hfits : ∀ σ : Session τ, σ.inTransaction = false →
      Fits { s with session := σ } (.finished c false) := fun σ hσ => ⟨howner, hσ, fun _ => rfl⟩
  by_cases hs : s.session = .closed
  · rw [answer_closed hs]
    have hout : s.session.inTransaction = false := by rw [hs]; rfl
    exact .stay hcons (orderly_outside hout) (hfits _ hout)
  · have hidle : ∀ r, (s.answer a c .rollback) = (r, { s with session := .idle }) →
        Advances c s (s.answer a c .rollback).2 (.finished c false) := by
      intro r hr
      rw [hr]
      exact .stay hcons (orderly_outside rfl) (hfits _ rfl)
    cases hf : a.fate with
    | served =>
        refine hidle .command ?_
        cases hs' : s.session with
        | closed => exact absurd hs' hs
        | idle | inside => simp [Server.answer, hs', hf, Server.serve]
    | rejected => exact hidle _ (answer_rejected hs hf _)
    | lost processed =>
        rw [answer_lost hs hf]
        have hnone : (if processed = true then s.effects c .rollback else []) = [] := by
          cases processed <;> rfl
        rw [hnone]
        exact .stay hcons (orderly_outside rfl) (hfits _ rfl)

end commands

/-- **A command of a call**, at the point the call has reached. -/
theorem answer_advances {a : Answer row} {c : Caller τ} {command : Command τ} {s : Server τ}
    {φ : Progress τ} (hexpects : Expects φ c command) (hfits : Fits s φ)
    (hcons : c ∈ s.refused → c ∉ s.committed) :
    Advances c s (s.answer a c command).2
      (φ.after command (command.accepted (s.answer a c command).1)) := by
  obtain ⟨hholder, hcommand⟩ := hexpects
  obtain ⟨n, call⟩ := c
  -- By what the caller has sent last: the protocol leaves one command at each point, and its lemma answers it.
  cases φ with
  | resting | waiting | returned => cases hholder
  | holding c' =>
      cases hholder
      obtain ⟨howner, hout, hnew⟩ := hfits
      cases call with
      | execute q =>
          cases command with
          | statement q' =>
              cases hcommand
              exact answer_execute howner hout hnew
          | begin | advisoryLock | commit | rollback => exact hcommand.elim
      | executeLocked k q =>
          cases command with
          | begin => exact answer_begin rfl howner hout hnew
          | statement | advisoryLock | commit | rollback => exact hcommand.elim
  | begun c' =>
      cases hholder
      obtain ⟨howner, hsession, hnew⟩ := hfits
      cases call with
      | execute q => exact hcommand.elim
      | executeLocked k q =>
          cases command with
          | advisoryLock k' =>
              cases hcommand
              exact answer_advisoryLock rfl howner hsession hnew
          | begin | statement | commit | rollback => exact hcommand.elim
  | granted c' =>
      cases hholder
      obtain ⟨howner, ⟨k, q, hcall, hsession⟩, hnew⟩ := hfits
      cases hcall
      cases command with
      | statement q' =>
          cases hcommand
          exact answer_statement rfl howner hsession hnew
      | begin | advisoryLock | commit | rollback => exact hcommand.elim
  | executed c' =>
      cases hholder
      obtain ⟨howner, ⟨k, q, hcall, hsession⟩, hnew⟩ := hfits
      cases hcall
      cases command with
      | commit => exact answer_commit rfl howner hsession hnew
      | begin | statement | advisoryLock | rollback => exact hcommand.elim
  | failing c' =>
      cases hholder
      cases call with
      | execute q => exact hcommand.elim
      | executeLocked k q =>
          cases command with
          | rollback => exact answer_rollback hfits hcons
          | begin | statement | advisoryLock | commit => exact hcommand.elim
  | finished c' ok => exact hcommand.elim

theorem caller_after {φ : Progress τ} {c : Caller τ} (h : φ.caller = some c)
    (command : Command τ) (ok : Bool) : (φ.after command ok).caller = some c := by
  cases φ <;> cases command <;> cases ok <;> exact h

section threads
variable {ι : Type} [DecidableEq ι] {φ : ι → Progress τ} {s s' : Server τ} {i : ι} {c : Caller τ}
  {ψ : Progress τ}

omit [DecidableEq ι] in
/-- No other thread holds the mutex. -/
theorem Sound.alone (hs : Sound φ s) (hi : (φ i).holder = some c) {j : ι} (hj : j ≠ i) :
    (φ j).holder = none := by
  cases hjc : (φ j).holder with
  | none => rfl
  | some c' =>
      have howner := (hs.fits i).owner hi
      rw [(hs.fits j).owner hjc] at howner
      cases howner
      exact absurd (hs.distinct j i c (Progress.caller_of_holder hjc)
        (Progress.caller_of_holder hi)) hj

/-- A thread moves on, and the server with it. -/
theorem Sound.move (hs : Sound φ s) (hi : (φ i).caller = some c)
    (hother : ∀ j, j ≠ i → (φ j).holder = none) (hcalls : s'.calls = s.calls)
    (hsame : SameBut c s s') (hψ : ψ.caller = some c) (hfits : Fits s' ψ)
    (hfree : s'.owner = none → s'.session.inTransaction = false) (horderly : s'.session.Orderly)
    (hcons : c ∈ s'.refused → c ∉ s'.committed) : Sound (Function.update φ i ψ) s' := by
  have hcaller : ∀ j, (Function.update φ i ψ j).caller = (φ j).caller := by
    intro j
    by_cases hj : j = i
    · subst hj
      rw [Function.update_self, hψ, hi]
    · rw [Function.update_of_ne hj]
  refine ⟨fun j k c' hj hk => ?_, fun j c' hj => ?_, fun c' hc => ?_, fun j => ?_, hfree, horderly,
    fun c' hr => ?_⟩
  · rw [hcaller] at hj hk
    exact hs.distinct j k c' hj hk
  · rw [hcaller] at hj
    exact hcalls ▸ hs.begun j c' hj
  · rw [hcalls]
    by_cases hne : c' = c
    · subst hne
      exact hs.begun i c' hi
    · obtain ⟨hrefused, hcommitted⟩ := hsame c' hne
      rw [hrefused, hcommitted] at hc
      exact hs.recorded c' hc
  · by_cases hj : j = i
    · subst hj
      rw [Function.update_self]
      exact hfits
    · rw [Function.update_of_ne hj]
      -- the numbers of the calls tell the threads apart
      have hne : (φ j).caller ≠ some c := fun hjc => hj (hs.distinct j i c hjc hi)
      exact (hs.fits j).frame (hother j hj) hne hsame
  · by_cases hne : c' = c
    · subst hne
      exact hcons hr
    · obtain ⟨hrefused, hcommitted⟩ := hsame c' hne
      rw [hcommitted]
      exact hs.consistent c' (hrefused.mp hr)

/-- A thread begins a new call. -/
theorem Sound.begins (hs : Sound φ s) (hnumber : c.number = s.calls) :
    Sound (Function.update φ i (.waiting c)) { s with calls := s.calls + 1 } := by
  have hnew : ∀ j, (φ j).caller ≠ some c := fun j hj => by
    have hlt := hs.begun j c hj
    omega
  have hcaller : ∀ j c', (Function.update φ i (.waiting c) j).caller = some c' →
      (j = i ∧ c' = c) ∨ (j ≠ i ∧ (φ j).caller = some c') := by
    intro j c' hj
    by_cases hji : j = i
    · subst hji
      rw [Function.update_self] at hj
      cases hj
      exact Or.inl ⟨rfl, rfl⟩
    · rw [Function.update_of_ne hji] at hj
      exact Or.inr ⟨hji, hj⟩
  refine ⟨fun j k c' hj hk => ?_, fun j c' hj => ?_, fun c' hc => ?_, fun j => ?_, hs.free,
    hs.orderly, hs.consistent⟩
  · rcases hcaller j c' hj with ⟨rfl, rfl⟩ | ⟨-, hj'⟩
    · rcases hcaller k c' hk with ⟨rfl, -⟩ | ⟨-, hk'⟩
      · rfl
      · exact absurd hk' (hnew k)
    · rcases hcaller k c' hk with ⟨rfl, rfl⟩ | ⟨-, hk'⟩
      · exact absurd hj' (hnew j)
      · exact hs.distinct j k c' hj' hk'
  · show c'.number < s.calls + 1
    rcases hcaller j c' hj with ⟨-, rfl⟩ | ⟨-, hj'⟩
    · omega
    · have hlt := hs.begun j c' hj'
      omega
  · exact Nat.lt_succ_of_lt (hs.recorded c' hc)
  · by_cases hji : j = i
    · subst hji
      rw [Function.update_self]
      -- a call with a new number is in no record
      exact ⟨fun hc => by have := hs.recorded c (Or.inl hc); omega,
        fun hc => by have := hs.recorded c (Or.inr hc); omega⟩
    · rw [Function.update_of_ne hji]
      have hj := hs.fits j
      cases hφ : φ j <;> rw [hφ] at hj <;> exact hj

end threads

/-! ## Every run -/

/-- In every run each thread is at some point of its call, and the invariant holds. -/
theorem sound_of_run {ι : Type} [DecidableEq ι] {alive : Bool}
    {h : List (Event ι (Wire (Caller τ) row) (Answer row) (ι × Caller τ))} {p : Threads ι row}
    (hrun : Guarded MutexFree (Pool.Step wire begins) (opened ι row alive) h p) :
    ∃ φ, Sound φ p.shared ∧ ∀ i, (discipline row).Follows Ends (φ i) (p.thread i) := by
  refine phases_of_run (discipline row) Ends (fun _ φ s => Sound φ s) hrun ?_ ?_ ?_
  · refine ⟨fun _ => .resting, ⟨fun _ _ _ hi => ?_, fun _ _ hi => ?_, fun _ hc => ?_,
      fun _ => trivial, fun _ => ?_, ?_, fun _ hc => ?_⟩, fun _ => rfl⟩
    · cases hi
    · cases hi
    · simp [opened] at hc
    · cases alive <;> rfl
    · cases alive <;> exact orderly_outside rfl
    · simp [opened] at hc
  · intro h p φ i a q hfree hs hallowed
    refine ⟨trivial, ?_⟩
    have hi := hs.fits i
    cases q with
    | acquire caller =>
        have hφ : φ i = .waiting caller := hallowed
        have howner : p.shared.owner = none := Option.isNone_iff_eq_none.mp hfree
        rw [hφ] at hi
        -- nobody holds a mutex that is free
        have hother : ∀ j, j ≠ i → (φ j).holder = none := by
          intro j _
          cases hj : (φ j).holder with
          | none => rfl
          | some c =>
              have hj' := (hs.fits j).owner hj
              rw [howner] at hj'
              cases hj'
        exact hs.move (by rw [hφ]; rfl) hother rfl (.refl _ _) rfl
          ⟨rfl, hs.free howner, hi⟩ nofun hs.orderly (hs.consistent caller)
    | release caller =>
        obtain ⟨ok, hφ⟩ := hallowed
        rw [hφ] at hi
        obtain ⟨-, hout, hresult⟩ := hi
        have hnext : (discipline row).next (φ i) (.release caller) () = .returned caller ok := by
          rw [hφ]
          rfl
        rw [hnext]
        exact hs.move (by rw [hφ]; rfl)
          (fun j hj => hs.alone (c := caller) (by rw [hφ]; rfl) hj) rfl (.refl _ _) rfl hresult
          (fun _ => hout) hs.orderly (hs.consistent caller)
    | send caller command =>
        have hexpects : Expects (φ i) caller command := hallowed
        have hadv := answer_advances (a := a) hexpects hi (hs.consistent caller)
        have hcaller := Progress.caller_of_holder hexpects.1
        refine hs.move hcaller (fun j hj => hs.alone hexpects.1 hj) hadv.calls hadv.same
          (caller_after hcaller _ _) hadv.fits (fun hnone => ?_) hadv.orderly hadv.consistent
        have howner := hadv.owner
        rw [hi.owner hexpects.1] at howner
        exact absurd (hnone.symm.trans howner) nofun
  · intro h p φ b p' _ hs hF hb
    obtain ⟨i, caller⟩ := b
    unfold begins at hb
    split at hb
    · rename_i hnumber
      have hp' : p' = ⟨{ p.shared with calls := p.shared.calls + 1 },
          Function.update p.thread i caller.program⟩ := by
        split at hb <;> cases hb <;> rfl
      subst hp'
      refine ⟨Function.update φ i (.waiting caller), hs.begins hnumber, fun j => ?_⟩
      by_cases hj : j = i
      · subst hj
        simp only [Function.update_self]
        exact program_follows caller
      · simp only [Function.update_of_ne hj]
        exact hF j
    · cases hb

/-- **One connection among threads.** In every run of calls of `execute` and `execute_locked` by any threads
    on one connection, whatever becomes of their commands: while the mutex is free, the session is in no
    transaction block; a block was begun by a locked call, and the session has executed in it at most that
    call's lock request and then its statement; and of a call of which the server rejected the statement
    or the `COMMIT`, no effect is permanent, and what it returns is neither `command_ok` nor
    `tuples_ok`. -/
theorem connection_orderly {ι : Type} [DecidableEq ι] {alive : Bool}
    {h : List (Event ι (Wire (Caller τ) row) (Answer row) (ι × Caller τ))} {p : Threads ι row}
    (hrun : Guarded MutexFree (Pool.Step wire begins) (opened ι row alive) h p) :
    (p.shared.owner = none → p.shared.session.inTransaction = false) ∧
    (∀ b, p.shared.session = .inside b → ∃ k q, b.opener.call = .executeLocked k q ∧
      b.executed <+: [(b.opener, .advisoryLock k), (b.opener, .statement q)]) ∧
    ∀ caller ∈ p.shared.refused, caller ∉ p.shared.committed ∧
      ∀ i r, p.thread i = .ret ⟨caller, r⟩ → r.commandOk = false ∧ r.tuplesOk = false := by
  obtain ⟨φ, hs, hF⟩ := sound_of_run hrun
  refine ⟨hs.free, hs.orderly, fun caller hrefused => ⟨hs.consistent caller hrefused, ?_⟩⟩
  intro i r hr
  have hend := hF i
  rw [hr] at hend
  have hφ : φ i = .returned caller r.ok := hend
  have hresult := hs.fits i
  rw [hφ] at hresult
  have hok : (r.commandOk || r.tuplesOk) = false := hresult hrefused
  exact Bool.or_eq_false_iff.mp hok

/-! ### A commit that is rejected -/

/-- An answer to a command, where a statement `n` returns the row `n`. -/
def answering (fate : Fate) : Answer fun _ : Nat => Nat := ⟨fate, fun n => .tuples [n], "", true⟩

/-- One thread makes a locked call whose `COMMIT` is rejected, and then another executes a statement. -/
def rejectedCommit : List (Bool × Answer (fun _ : Nat => Nat) ⊕ Bool × Caller Nat) :=
  let command := fun i fate => .inl (i, answering fate)
  [.inr (false, ⟨0, .executeLocked 7 1⟩), .inr (true, ⟨1, .execute 2⟩), command false .served,
    command false .served, command false .served, command false .served, command false .rejected,
    command false .served, command false .served, command true .served, command true .served]

def playedCalls : Option (List (Event Bool (Wire (Caller Nat) fun _ : Nat => Nat)
    (Answer fun _ : Nat => Nat) (Bool × Caller Nat)) × Threads Bool fun _ : Nat => Nat) :=
  script wire begins rejectedCommit [] (opened Bool (fun _ => Nat) true)

instance {ι : Type} (h : List (Event ι (Wire (Caller τ) row) (Answer row) (ι × Caller τ)))
    (p : Threads ι row) (e : Event ι (Wire (Caller τ) row) (Answer row) (ι × Caller τ)) :
    Decidable (MutexFree h p e) :=
  match e with
  | .call _ _ ⟨.acquire _, _⟩ => inferInstanceAs (Decidable (_ = true))
  | .call _ _ ⟨.release _, _⟩ | .call _ _ ⟨.send _ _, _⟩ | .control _ => .isTrue trivial

/-- Of the two calls, only the second has come to anything. -/
theorem connection_orderly_rejected : ∃ (h : _) (p : Threads Bool fun _ : Nat => Nat),
    Guarded MutexFree (Pool.Step wire begins) (opened Bool (fun _ => Nat) true) h p ∧
      p.shared.committed = [⟨1, .execute 2⟩] ∧ p.thread false = .ret ⟨⟨0, .executeLocked 7 1⟩, .none⟩ ∧
      (⟨0, .executeLocked 7 1⟩ : Caller Nat) ∉ p.shared.committed := by
  have hplayed : playedCalls.isSome = true := by decide
  have hfree : scriptMeets wire begins MutexFree rejectedCommit []
      (opened Bool (fun _ : Nat => Nat) true) = true := by decide
  have hrun := guarded_of_script .start (Option.some_get hplayed).symm hfree
  exact ⟨_, _, hrun, rfl, rfl, ((connection_orderly hrun).2.2 _ List.mem_cons_self).1⟩

end session
end Connection
end AlgorithmTrainer
