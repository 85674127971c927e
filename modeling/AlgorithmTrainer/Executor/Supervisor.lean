import Mathlib.Data.List.Infix
import AlgorithmTrainer.Executor.Record
import AlgorithmTrainer.Lib.Trace

/-!
# `Executor.Supervisor` — the supervision loop of `run_isolated`

The loop drains the pipes of the sandboxed program, asks the supervisor process to stop once the output
limit or the deadline is passed, and waits for it. An iteration is a function of what the kernel answers in
it: the results of `read` on both pipes, the time that passes, and the result of `waitpid`. So a run is a list
of iterations, in any order and with any timing.

`quiet_after_reap_iff` says when the loop leaves a process id alone that it has reaped.
-/

namespace AlgorithmTrainer

open Transition

/-- Milliseconds of `steady_clock`. -/
abbrev Milliseconds := Nat

def outputLimitExitCode : Int := 120
def signalExitCodeOffset : Int := 128
def supervisorGracePeriod : Milliseconds := 250
def pipeReadBufferSize : Nat := 4096

/-! ## Draining a pipe -/

/-- What one `read` returned that returned something. -/
structure Chunk where
  bytes : Bytes
  positive : bytes ≠ []
  fits : bytes.length ≤ pipeReadBufferSize

/-- The result of `read` on a pipe. -/
inductive ReadResult where
  | data (chunk : Chunk)
  | endOfFile
  /-- `EINTR`. -/
  | interrupted
  /-- `EAGAIN` or `EWOULDBLOCK`. -/
  | wouldBlock
  | failed

/-- The read end of a pipe, and what was kept of its bytes. -/
structure Pipe where
  isOpen : Bool
  text : Bytes

/-- `total_output` and `output_limit_exceeded`, which both pipes share. -/
structure Output where
  total : Nat
  limitExceeded : Bool

/-- `drain`, on the results of the reads it makes; `none` if it needs more of them. -/
def drain (outputLimit : Nat) : List ReadResult → Pipe → Output → Option (Pipe × Output)
  | [], _, _ => none
  | .data chunk :: reads, pipe, output =>
      let size := chunk.bytes.length
      let remaining := if output.total < outputLimit then outputLimit - output.total else 0
      let total := output.total + size
      drain outputLimit reads
        { pipe with text := pipe.text ++ chunk.bytes.take (min size remaining) }
        ⟨total, output.limitExceeded || decide (outputLimit < total)⟩
  | .endOfFile :: _, pipe, output => some ({ pipe with isOpen := false }, output)
  | .interrupted :: reads, pipe, output => drain outputLimit reads pipe output
  | .wouldBlock :: _, pipe, output => some (pipe, output)
  | .failed :: _, pipe, output => some ({ pipe with isOpen := false }, output)

/-- The number of bytes that `drain` reads. -/
def drained : List ReadResult → Nat
  | .data chunk :: reads => chunk.bytes.length + drained reads
  | .interrupted :: reads => drained reads
  | _ => 0

/-- The flag says whether the limit is exceeded. -/
def Output.Exact (outputLimit : Nat) (output : Output) : Prop :=
  output.limitExceeded = decide (outputLimit < output.total)

theorem drain_output {outputLimit : Nat} {reads : List ReadResult} {pipe pipe' : Pipe}
    {output output' : Output} (h : drain outputLimit reads pipe output = some (pipe', output')) :
    output'.total = output.total + drained reads ∧
      (output.Exact outputLimit → output'.Exact outputLimit) := by
  induction reads generalizing pipe output with
  | nil => cases h
  | cons read reads ih =>
      cases read with
      | data chunk =>
          obtain ⟨htotal, hexact⟩ := ih h
          refine ⟨?_, fun he => hexact ?_⟩
          · rw [htotal, drained, Nat.add_assoc]
          · simp only [Output.Exact] at he ⊢
            rw [he]
            grind
      | interrupted => exact ih h
      | endOfFile =>
          cases h
          exact ⟨rfl, id⟩
      | wouldBlock =>
          cases h
          exact ⟨rfl, id⟩
      | failed =>
          cases h
          exact ⟨rfl, id⟩

/-! ## An iteration -/

/-- The status that `waitpid` reports. -/
inductive WaitStatus where
  | exited (code : Nat)
  | signaled (signal : Nat)
  | other
deriving DecidableEq

/-- The signals that are sent to the process id of the supervisor. -/
inductive Signal where
  /-- `SIGTERM`. -/
  | terminate
  /-- `SIGKILL`. -/
  | kill
deriving DecidableEq

/-- The limits that a program runs under. -/
structure SupervisionLimits where
  outputLimit : Nat
  wallTimeLimit : Milliseconds

/-- The local variables of the loop, and the time. -/
structure Supervision where
  stdout : Pipe
  stderr : Pipe
  output : Output
  timedOut : Bool
  supervisorExited : Bool
  terminationRequested : Bool
  status : WaitStatus
  deadline : Milliseconds
  forceKillDeadline : Milliseconds
  clock : Milliseconds

/-- What the kernel answers in one iteration: the reads of each pipe, the time that passes until the clock is
    read, and the status if `waitpid` returns the supervisor. -/
structure Turn where
  stdout : List ReadResult
  stderr : List ReadResult
  elapsed : Milliseconds
  waited : Option WaitStatus

namespace Supervision

/-- The variables before the loop, which is entered at the time `now`. -/
def start (limits : SupervisionLimits) (now : Milliseconds) : Supervision where
  stdout := ⟨true, []⟩
  stderr := ⟨true, []⟩
  output := ⟨0, false⟩
  timedOut := false
  supervisorExited := false
  terminationRequested := false
  status := .exited 0
  deadline := now + limits.wallTimeLimit
  forceKillDeadline := now + limits.wallTimeLimit + supervisorGracePeriod
  clock := now

/-- The condition of the loop. -/
def running (s : Supervision) : Bool :=
  !s.supervisorExited || s.stdout.isOpen || s.stderr.isOpen

/-- A pipe is drained if it is open. -/
def drainOpen (limits : SupervisionLimits) (reads : List ReadResult) (pipe : Pipe)
    (output : Output) : Option (Pipe × Output) :=
  if pipe.isOpen then drain limits.outputLimit reads pipe output else some (pipe, output)

/-- Both pipes are drained, and the clock is read. -/
def receive (limits : SupervisionLimits) (turn : Turn) (s : Supervision) : Option Supervision := do
  let (stdout, output) ← drainOpen limits turn.stdout s.stdout s.output
  let (stderr, output) ← drainOpen limits turn.stderr s.stderr output
  some { s with
    stdout := stdout, stderr := stderr, output := output, clock := s.clock + turn.elapsed }

/-- `!termination_requested && (output_limit_exceeded || now >= deadline)`. -/
def mustTerminate (s : Supervision) : Bool :=
  !s.terminationRequested && (s.output.limitExceeded || decide (s.deadline ≤ s.clock))

def requestTermination (s : Supervision) : Supervision :=
  if s.mustTerminate then
    { s with
      timedOut := !s.output.limitExceeded
      terminationRequested := true
      forceKillDeadline := s.clock + supervisorGracePeriod }
  else s

/-- `termination_requested && !supervisor_exited && now >= force_kill_deadline`. -/
def mustKill (s : Supervision) : Bool :=
  s.terminationRequested && !s.supervisorExited && decide (s.forceKillDeadline ≤ s.clock)

/-- `waitpid`, if the supervisor has not exited. -/
def reap (waited : Option WaitStatus) (s : Supervision) : Supervision :=
  if s.supervisorExited then s
  else match waited with
    | some status => { s with supervisorExited := true, status := status }
    | none => s

/-- One iteration of the loop: the signals it sends, and the variables after it. -/
def iterate (limits : SupervisionLimits) (turn : Turn) (s : Supervision) :
    Option (List Signal × Supervision) := do
  let received ← s.receive limits turn
  let requested := received.requestTermination
  some
    ((if received.mustTerminate then [.terminate] else [])
        ++ (if requested.mustKill then [.kill] else []),
      requested.reap turn.waited)

end Supervision

/-- An iteration as it took place. -/
structure Iteration where
  before : Supervision
  turn : Turn
  signals : List Signal
  after : Supervision

/-- The loop goes through an iteration. -/
inductive SupervisionStep (limits : SupervisionLimits) :
    Supervision → Iteration → Supervision → Prop where
  | iterate {s s' : Supervision} {turn : Turn} {signals : List Signal} (hrunning : s.running = true)
      (h : s.iterate limits turn = some (signals, s')) :
      SupervisionStep limits s ⟨s, turn, signals, s'⟩ s'

/-! ## What an iteration does -/

section iterations
variable {limits : SupervisionLimits} {turn : Turn} {s s' : Supervision} {signals : List Signal}

/-- The number of bytes that an iteration reads. -/
def Supervision.receives (s : Supervision) (turn : Turn) : Nat :=
  (if s.stdout.isOpen then drained turn.stdout else 0)
    + (if s.stderr.isOpen then drained turn.stderr else 0)

theorem drainOpen_output {reads : List ReadResult} {pipe pipe' : Pipe} {output output' : Output}
    (h : Supervision.drainOpen limits reads pipe output = some (pipe', output')) :
    output'.total = output.total + (if pipe.isOpen then drained reads else 0) ∧
      (output.Exact limits.outputLimit → output'.Exact limits.outputLimit) := by
  unfold Supervision.drainOpen at h
  split at h
  · rename_i hopen
    rw [if_pos hopen]
    exact drain_output h
  · rename_i hclosed
    cases h
    rw [if_neg hclosed]
    exact ⟨rfl, id⟩

/-- Receiving changes the pipes, the amount of output and the time. -/
theorem receive_spec (h : s.receive limits turn = some s') :
    (∃ stdout stderr output, s' = { s with
        stdout := stdout, stderr := stderr, output := output, clock := s.clock + turn.elapsed }) ∧
      s'.output.total = s.output.total + s.receives turn ∧
      (s.output.Exact limits.outputLimit → s'.output.Exact limits.outputLimit) := by
  simp only [Supervision.receive, Option.bind_eq_bind, Option.bind_eq_some_iff,
    Option.some.injEq] at h
  obtain ⟨⟨stdout, output₁⟩, hout, ⟨stderr, output₂⟩, herr, rfl⟩ := h
  obtain ⟨htotal₁, hexact₁⟩ := drainOpen_output hout
  obtain ⟨htotal₂, hexact₂⟩ := drainOpen_output herr
  refine ⟨⟨stdout, stderr, output₂, rfl⟩, ?_, fun h => hexact₂ (hexact₁ h)⟩
  show output₂.total = _
  rw [htotal₂, htotal₁, Supervision.receives, Nat.add_assoc]

/-- The supervisor is asked to stop in this iteration: it was not asked before, and the output limit is
    exceeded or the deadline has come. -/
def Supervision.provoked (limits : SupervisionLimits) (s : Supervision) (turn : Turn) : Bool :=
  !s.terminationRequested &&
    (decide (limits.outputLimit < s.output.total + s.receives turn) ||
      decide (s.deadline ≤ s.clock + turn.elapsed))

theorem mustTerminate_receive (hexact : s.output.Exact limits.outputLimit)
    (h : s.receive limits turn = some s') :
    s'.mustTerminate = s.provoked limits turn := by
  obtain ⟨⟨stdout, stderr, output, rfl⟩, htotal, hflag⟩ := receive_spec h
  have hlimit : output.limitExceeded = decide (limits.outputLimit < output.total) := hflag hexact
  have htotal : output.total = s.output.total + s.receives turn := htotal
  simp only [Supervision.mustTerminate, Supervision.provoked, hlimit, htotal]

theorem reap_output (s : Supervision) (waited : Option WaitStatus) :
    (s.reap waited).output = s.output := by
  unfold Supervision.reap
  split
  · rfl
  · split <;> rfl

theorem reap_timedOut (s : Supervision) (waited : Option WaitStatus) :
    (s.reap waited).timedOut = s.timedOut := by
  unfold Supervision.reap
  split
  · rfl
  · split <;> rfl

theorem requestTermination_output (s : Supervision) :
    (s.requestTermination).output = s.output := by
  unfold Supervision.requestTermination
  split <;> rfl

theorem requestTermination_exited (s : Supervision) :
    (s.requestTermination).supervisorExited = s.supervisorExited := by
  unfold Supervision.requestTermination
  split <;> rfl

theorem reap_exited {waited : Option WaitStatus} (h : s.supervisorExited = true) :
    (s.reap waited).supervisorExited = true := by
  simp only [Supervision.reap, h, if_true]

/-- **One iteration.** It sends `SIGTERM` if it is provoked; otherwise `timed_out` stays as it is, and a
    supervisor that has exited is sent no signal. -/
theorem iterate_spec (hexact : s.output.Exact limits.outputLimit)
    (h : s.iterate limits turn = some (signals, s')) :
    s'.output.Exact limits.outputLimit ∧
      (s.supervisorExited = true → s'.supervisorExited = true) ∧
      (s.provoked limits turn = true → Signal.terminate ∈ signals) ∧
      (s.provoked limits turn = false → s'.timedOut = s.timedOut ∧
        (s.supervisorExited = true → signals = [])) := by
  simp only [Supervision.iterate, Option.bind_eq_bind, Option.bind_eq_some_iff, Option.some.injEq,
    Prod.mk.injEq] at h
  obtain ⟨received, hreceived, rfl, rfl⟩ := h
  have hmust := mustTerminate_receive hexact hreceived
  obtain ⟨⟨stdout, stderr, output, hr⟩, -, hflag⟩ := receive_spec hreceived
  have hexited : received.requestTermination.supervisorExited = s.supervisorExited := by
    rw [requestTermination_exited, hr]
  rw [reap_output, requestTermination_output, reap_timedOut, hmust]
  refine ⟨hflag hexact, fun hgone => ?_, fun hp => ?_, fun hp => ⟨?_, fun hgone => ?_⟩⟩
  · exact reap_exited (hexited.trans hgone)
  · rw [if_pos hp]
    exact List.mem_cons_self
  · rw [Supervision.requestTermination, hmust, hp, hr]
    rfl
  · rw [hp, Supervision.mustKill, hexited, hgone]
    simp

end iterations

/-! ## Runs of the loop -/

/-- The iteration in which `waitpid` returns the supervisor. -/
def Iteration.reaps (r : Iteration) : Prop :=
  r.before.supervisorExited = false ∧ r.after.supervisorExited = true

/-- Once the supervisor is reaped, no iteration sends it a signal, and none turns the result into a
    timeout. -/
def QuietAfterReap (h : List Iteration) : Prop :=
  ∀ later reap earlier, h = later ++ reap :: earlier → reap.reaps → ∀ r ∈ later,
    r.signals = [] ∧ (reap.after.timedOut = false → r.after.timedOut = false)

section runs
variable {limits : SupervisionLimits} {now : Milliseconds} {s s₁ : Supervision}
  {h : List Iteration}

/-- What holds of the variables after a run, and of its iterations. -/
structure Supervised (limits : SupervisionLimits) (h : List Iteration) (s : Supervision) :
    Prop where
  exact : s.output.Exact limits.outputLimit
  iterations : ∀ r ∈ h, r.before.output.Exact limits.outputLimit ∧
    r.before.iterate limits r.turn = some (r.signals, r.after)
  reaped : s.supervisorExited = true → ∃ reap ∈ h, reap.reaps
  /-- An iteration that finds the supervisor gone comes after the one that reaped it. -/
  preceded : ∀ r ∈ h, r.before.supervisorExited = true →
    ∃ later reap earlier, h = later ++ reap :: earlier ∧ reap.reaps ∧ r ∈ later

theorem supervised (hrun : Run (SupervisionStep limits) (.start limits now) h s) :
    Supervised limits h s := by
  refine Guarded.invariant (I := Supervised limits) ⟨?_, ?_, ?_, ?_⟩ ?_ hrun
  · simp [Supervision.start, Output.Exact]
  · exact fun r hr => absurd hr List.not_mem_nil
  · exact fun hgone => (by cases hgone)
  · exact fun r hr => absurd hr List.not_mem_nil
  · intro h s r s' hinv _ hstep
    cases hstep with
    | @iterate _ turn signals hrunning hiterate =>
        refine ⟨(iterate_spec hinv.exact hiterate).1, ?_, fun hgone => ?_, ?_⟩
        · intro r hr
          rcases List.mem_cons.mp hr with rfl | hr
          · exact ⟨hinv.exact, hiterate⟩
          · exact hinv.iterations r hr
        · by_cases hbefore : s.supervisorExited = true
          · obtain ⟨reap, hreap, hreaps⟩ := hinv.reaped hbefore
            exact ⟨reap, List.mem_cons_of_mem _ hreap, hreaps⟩
          · exact ⟨_, List.mem_cons_self, Bool.eq_false_iff.mpr hbefore, hgone⟩
        · intro r hr hbefore
          rcases List.mem_cons.mp hr with rfl | hr
          · obtain ⟨reap, hreap, hreaps⟩ := hinv.reaped hbefore
            obtain ⟨later, earlier, rfl⟩ := List.append_of_mem hreap
            exact ⟨_ :: later, reap, earlier, rfl, hreaps, List.mem_cons_self⟩
          · obtain ⟨later, reap, earlier, rfl, hreaps, hr⟩ := hinv.preceded r hr hbefore
            exact ⟨_ :: later, reap, earlier, rfl, hreaps, List.mem_cons_of_mem _ hr⟩

/-- From a state in which the supervisor has exited, iterations that are not provoked send no signal and
    keep `timed_out`. -/
theorem quiet_of_unprovoked (hexact : s₁.output.Exact limits.outputLimit)
    (hgone : s₁.supervisorExited = true) (hrun : Run (SupervisionStep limits) s₁ h s)
    (hquiet : ∀ r ∈ h, r.before.supervisorExited = true →
      r.before.provoked limits r.turn = false) :
    s.output.Exact limits.outputLimit ∧ s.supervisorExited = true ∧ s.timedOut = s₁.timedOut ∧
      ∀ r ∈ h, r.signals = [] ∧ r.after.timedOut = s₁.timedOut := by
  induction hrun with
  | start => exact ⟨hexact, hgone, rfl, fun r hr => absurd hr List.not_mem_nil⟩
  | next _ _ hstep ih =>
      obtain ⟨hexact', hgone', htimed, hall⟩ := ih fun r hr => hquiet r (List.mem_cons_of_mem _ hr)
      cases hstep with
      | iterate _ hiterate =>
          obtain ⟨hexact'', hexited, -, hun⟩ := iterate_spec hexact' hiterate
          obtain ⟨hkept, hsilent⟩ := hun (hquiet _ List.mem_cons_self hgone')
          refine ⟨hexact'', hexited hgone', hkept.trans htimed, fun r hr => ?_⟩
          rcases List.mem_cons.mp hr with rfl | hr
          · exact ⟨hsilent hgone', hkept.trans htimed⟩
          · exact hall r hr

/-- **When the loop leaves a reaped supervisor alone.** In every run, no iteration after the reap sends a
    signal or turns the result into a timeout, exactly if every iteration that finds the
    supervisor gone finds that it was asked to stop before, or receives output within the limit before the
    deadline. -/
theorem quiet_after_reap_iff (hrun : Run (SupervisionStep limits) (.start limits now) h s) :
    QuietAfterReap h ↔ ∀ r ∈ h, r.before.supervisorExited = true →
      r.before.terminationRequested = true ∨
        (r.before.output.total + r.before.receives r.turn ≤ limits.outputLimit ∧
          r.before.clock + r.turn.elapsed < r.before.deadline) := by
  have hprovoked : ∀ r : Iteration, r.before.provoked limits r.turn = false ↔
      r.before.terminationRequested = true ∨
        (r.before.output.total + r.before.receives r.turn ≤ limits.outputLimit ∧
          r.before.clock + r.turn.elapsed < r.before.deadline) := by
    intro r
    simp only [Supervision.provoked]
    grind
  simp only [← hprovoked]
  have hinv := supervised hrun
  constructor
  · intro hquiet r hr hgone
    obtain ⟨later, reap, earlier, rfl, hreaps, hlater⟩ := hinv.preceded r hr hgone
    have hsilent := (hquiet later reap earlier rfl hreaps r hlater).1
    obtain ⟨hexact, hiterate⟩ := hinv.iterations r hr
    refine Bool.eq_false_iff.mpr fun hp => ?_
    have hsignal := (iterate_spec hexact hiterate).2.2.1 hp
    rw [hsilent] at hsignal
    exact absurd hsignal List.not_mem_nil
  · rintro hquiet later reap earlier rfl hreaps r hr
    obtain ⟨s₁, hbefore, hafter⟩ := Run.split hrun
    cases hbefore with
    | next hbefore _ hstep =>
        have hexact := (supervised (Run.next hbefore hstep)).exact
        cases hstep with
        | iterate _ _ =>
            obtain ⟨-, -, -, hall⟩ := quiet_of_unprovoked hexact hreaps.2 hafter
              fun r hr => hquiet r (List.mem_append_left _ hr)
            obtain ⟨hsilent, hkept⟩ := hall r hr
            exact ⟨hsilent, fun htimed => hkept.trans htimed⟩

end runs

/-! ### A supervisor that exits shortly before the deadline -/

/-- A chunk of zeros. -/
def zeros (n : Nat) (h : 0 < n) (h' : n ≤ pipeReadBufferSize) : Chunk where
  bytes := List.replicate n 0
  positive := fun he => by rw [List.replicate_eq_nil_iff] at he; omega
  fits := by rw [List.length_replicate]; exact h'

/-- The limits that a submitted program runs under by default. -/
def defaultLimits : SupervisionLimits := ⟨65536, 2000⟩

/-- The supervisor is reaped while both pipes are still open. -/
def reapedEarly : Turn := ⟨[.wouldBlock], [.wouldBlock], 1990, some (.exited 0)⟩

/-- The pipes are closed. -/
def pipesClosed (elapsed : Milliseconds) : Turn := ⟨[.endOfFile], [.endOfFile], elapsed, none⟩

/-- **A reaped supervisor is sent `SIGTERM`.** It exits before the deadline, and the pipes are closed after
    it. -/
theorem reaped_supervisor_signaled : ¬ ∀ (limits : SupervisionLimits) (now : Milliseconds)
    (h : List Iteration) (s : Supervision),
    Run (SupervisionStep limits) (.start limits now) h s → QuietAfterReap h := by
  intro hclaim
  have hreap : SupervisionStep defaultLimits (.start defaultLimits 0) ⟨_, reapedEarly, _, _⟩ _ :=
    .iterate rfl rfl
  have hrun := Run.next (Run.next .start hreap)
    (.iterate rfl rfl : SupervisionStep defaultLimits _ ⟨_, pipesClosed 20, _, _⟩ _)
  have hquiet := (hclaim defaultLimits 0 _ _ hrun [_] _ [] rfl ⟨rfl, rfl⟩ _ List.mem_cons_self).1
  exact absurd hquiet (List.cons_ne_nil _ _)

/-- A program that ends in time, and whose output is read after the supervisor is reaped. -/
theorem quiet_after_reap_iff_in_time : ∃ (h : List Iteration) (s : Supervision),
    Run (SupervisionStep defaultLimits) (.start defaultLimits 0) h s ∧ s.running = false ∧
      QuietAfterReap h := by
  have hreap : SupervisionStep defaultLimits (.start defaultLimits 0)
      ⟨_, { reapedEarly with elapsed := 100 }, _, _⟩ _ := .iterate rfl rfl
  have hrun := Run.next (Run.next .start hreap) (.iterate rfl rfl :
    SupervisionStep defaultLimits _ ⟨_, { pipesClosed 20 with
      stdout := [.data (zeros 3 (by decide) (by decide)), .endOfFile] }, _, _⟩ _)
  refine ⟨_, _, hrun, rfl, (quiet_after_reap_iff hrun).mpr fun r hr _ => Or.inr ?_⟩
  rcases List.mem_cons.mp hr with rfl | hr
  · exact ⟨by decide, by decide⟩
  · obtain rfl := List.mem_singleton.mp hr
    exact ⟨by decide, by decide⟩

/-! ## The result -/

def executionExitCode : WaitStatus → Int
  | .exited code => code
  | .signaled signal => signalExitCodeOffset + signal
  | .other => 1

def nsjailFailedToInitialize (status : WaitStatus) (log : Bytes) : Bool :=
  status != .exited 0 && (decide (utf8 "[F]" <:+: log) || decide (utf8 "Couldn't" <:+: log))

/-- What `run_isolated` returns after the loop, given the error that the child reported before it became
    the supervisor, and the log of the supervisor. -/
def finish (execError : Option String) (log : Bytes) (s : Supervision) : ExecutorResult Bytes :=
  match execError with
  | some description => .error ⟨"NsJail could not be executed: " ++ description⟩
  | none =>
      if !s.timedOut && !s.output.limitExceeded && nsjailFailedToInitialize s.status log then
        .error ⟨"NsJail could not establish the sandbox"⟩
      else if s.output.limitExceeded then
        .ok
          { exitCode := outputLimitExitCode
            standardOutput := s.stdout.text
            standardError :=
              (if s.stderr.text.isEmpty then [] else s.stderr.text ++ utf8 "\n")
                ++ utf8 "Output limit exceeded"
            timedOut := s.timedOut
            errorType := some "Output Limit Exceeded" }
      else
        .ok
          { exitCode := executionExitCode s.status
            standardOutput := s.stdout.text
            standardError := s.stderr.text
            timedOut := s.timedOut
            errorType := none }

end AlgorithmTrainer
