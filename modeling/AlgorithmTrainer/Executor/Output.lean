import Mathlib.Logic.Relation
import AlgorithmTrainer.Executor.Supervisor

/-!
# `Executor.Output` — what the loop keeps of the output

Both pipes are drained into strings that share one limit. `ReadStep` is a single read of either pipe, in any
order and of any size; `Collected` is what holds of the two strings and the counter after any number of
them. The supervision loop only ever makes such reads: every moment of it, also in the middle of a `drain`,
is reached by them.

`output_collected` says what is kept at every moment, and how long the returned output is.
-/

namespace AlgorithmTrainer

open Relation Transition

/-! ## A single read -/

/-- The bytes that a read returns. -/
def ReadResult.bytes : ReadResult → Bytes
  | .data chunk => chunk.bytes
  | _ => []

/-- The read is the last one of a `drain`. -/
def ReadResult.ends : ReadResult → Bool
  | .data _ | .interrupted => false
  | _ => true

/-- What one turn of the loop in `drain` does to the pipe and the counter. -/
def readOnce (outputLimit : Nat) (read : ReadResult) (pipe : Pipe) (output : Output) :
    Pipe × Output :=
  match read with
  | .data chunk =>
      let size := chunk.bytes.length
      let remaining := if output.total < outputLimit then outputLimit - output.total else 0
      let total := output.total + size
      ({ pipe with text := pipe.text ++ chunk.bytes.take (min size remaining) },
        ⟨total, output.limitExceeded || decide (outputLimit < total)⟩)
  | .endOfFile | .failed => ({ pipe with isOpen := false }, output)
  | .interrupted | .wouldBlock => (pipe, output)

/-- `drain` makes one read, and goes on unless that was the last. -/
theorem drain_cons (outputLimit : Nat) (read : ReadResult) (reads : List ReadResult) (pipe : Pipe)
    (output : Output) :
    drain outputLimit (read :: reads) pipe output =
      if read.ends then some (readOnce outputLimit read pipe output)
      else drain outputLimit reads (readOnce outputLimit read pipe output).1
        (readOnce outputLimit read pipe output).2 := by
  cases read <;> rfl

/-- The state after some reads of a `drain`. -/
def readMany (outputLimit : Nat) : List ReadResult → Pipe → Output → Pipe × Output
  | [], pipe, output => (pipe, output)
  | read :: reads, pipe, output =>
      let next := readOnce outputLimit read pipe output
      readMany outputLimit reads next.1 next.2

/-- The bytes that these reads return. -/
def bytesOf (reads : List ReadResult) : Bytes := reads.flatMap ReadResult.bytes

/-- The reads that a `drain` makes: up to the first that ends it. -/
def made : List ReadResult → List ReadResult
  | [] => []
  | read :: reads => if read.ends then [read] else read :: made reads

/-- A `drain` that ends has made its reads, one after another. -/
theorem drain_eq_readMany {outputLimit : Nat} {reads : List ReadResult} {pipe pipe' : Pipe}
    {output output' : Output} (h : drain outputLimit reads pipe output = some (pipe', output')) :
    readMany outputLimit (made reads) pipe output = (pipe', output') := by
  induction reads generalizing pipe output with
  | nil => cases h
  | cons read reads ih =>
      rw [drain_cons] at h
      unfold made
      by_cases hends : read.ends = true
      · rw [if_pos hends] at h
        rw [if_pos hends]
        exact Option.some.inj h
      · rw [if_neg hends] at h
        rw [if_neg hends]
        exact ih h

/-- No read of a list ends the `drain`, except for the last one. -/
def Unended (reads : List ReadResult) : Prop := ∀ read ∈ reads.dropLast, read.ends = false

theorem unended_made (reads : List ReadResult) : Unended (made reads) := by
  induction reads with
  | nil => exact fun _ h => absurd h List.not_mem_nil
  | cons read reads ih =>
      unfold made
      by_cases hends : read.ends = true
      · rw [if_pos hends]
        exact fun _ h => absurd h List.not_mem_nil
      · rw [if_neg hends]
        intro x hx
        cases hmade : made reads with
        | nil =>
            rw [hmade] at hx
            exact absurd hx List.not_mem_nil
        | cons y ys =>
            rw [hmade, List.dropLast_cons_cons] at hx
            rcases List.mem_cons.mp hx with rfl | hx
            · exact Bool.eq_false_iff.mpr hends
            · exact ih x (hmade ▸ hx)

/-! ## Reads of both pipes -/

/-- The bytes read from each pipe so far, and what was made of them. -/
structure Reading where
  stdoutRead : Bytes
  stderrRead : Bytes
  stdout : Pipe
  stderr : Pipe
  output : Output

def Reading.start : Reading := ⟨[], [], ⟨true, []⟩, ⟨true, []⟩, ⟨0, false⟩⟩

/-- A read of a pipe that is open. -/
inductive ReadStep (outputLimit : Nat) : Reading → Reading → Prop where
  | stdout {r : Reading} (read : ReadResult) (hopen : r.stdout.isOpen = true) :
      ReadStep outputLimit r { r with
        stdoutRead := r.stdoutRead ++ read.bytes
        stdout := (readOnce outputLimit read r.stdout r.output).1
        output := (readOnce outputLimit read r.stdout r.output).2 }
  | stderr {r : Reading} (read : ReadResult) (hopen : r.stderr.isOpen = true) :
      ReadStep outputLimit r { r with
        stderrRead := r.stderrRead ++ read.bytes
        stderr := (readOnce outputLimit read r.stderr r.output).1
        output := (readOnce outputLimit read r.stderr r.output).2 }

/-- The two streams exchanged. -/
def Reading.swap (r : Reading) : Reading :=
  ⟨r.stderrRead, r.stdoutRead, r.stderr, r.stdout, r.output⟩

theorem ReadStep.swap {outputLimit : Nat} {r r' : Reading} (h : ReadStep outputLimit r r') :
    ReadStep outputLimit r.swap r'.swap := by
  cases h with
  | stdout read hopen => exact @ReadStep.stderr outputLimit r.swap read hopen
  | stderr read hopen => exact @ReadStep.stdout outputLimit r.swap read hopen

/-- What was kept of the bytes that were read. -/
structure Collected (outputLimit : Nat) (r : Reading) : Prop where
  /-- What is kept of each stream is its beginning. -/
  stdout : r.stdout.text <+: r.stdoutRead
  stderr : r.stderr.text <+: r.stderrRead
  /-- Together they are as long as the limit allows. -/
  kept : r.stdout.text.length + r.stderr.text.length
    = min outputLimit (r.stdoutRead.length + r.stderrRead.length)
  total : r.output.total = r.stdoutRead.length + r.stderrRead.length
  /-- The flag is set exactly if more was read than the limit allows. -/
  exceeded : r.output.limitExceeded = true ↔ outputLimit < r.stdoutRead.length + r.stderrRead.length

section reads
variable {outputLimit : Nat} {r r' : Reading}

/-- `Collected` does not tell the streams apart. -/
theorem Collected.swap (h : Collected outputLimit r) : Collected outputLimit r.swap where
  stdout := h.stderr
  stderr := h.stdout
  kept := by
    show r.stderr.text.length + r.stdout.text.length
      = min outputLimit (r.stderrRead.length + r.stdoutRead.length)
    rw [Nat.add_comm r.stderr.text.length, Nat.add_comm r.stderrRead.length]
    exact h.kept
  total := by
    show r.output.total = r.stderrRead.length + r.stdoutRead.length
    rw [Nat.add_comm r.stderrRead.length]
    exact h.total
  exceeded := by
    show r.output.limitExceeded = true ↔ outputLimit < r.stderrRead.length + r.stdoutRead.length
    rw [Nat.add_comm r.stderrRead.length]
    exact h.exceeded

/-- Where the flag is not set, nothing is dropped. -/
theorem Collected.undropped (h : Collected outputLimit r) (hflag : r.output.limitExceeded = false) :
    r.stdout.text = r.stdoutRead ∧ r.stderr.text = r.stderrRead := by
  have hwithin : ¬ outputLimit < r.stdoutRead.length + r.stderrRead.length := fun hlt => by
    rw [h.exceeded.mpr hlt] at hflag
    cases hflag
  have hkept := h.kept
  have hstdout := h.stdout.length_le
  have hstderr := h.stderr.length_le
  rw [Nat.min_eq_right (Nat.not_lt.mp hwithin)] at hkept
  exact ⟨h.stdout.eq_of_length (by omega), h.stderr.eq_of_length (by omega)⟩

/-- What one read does, whichever pipe it reads: the text grows by as much of the chunk as there is room
    for, and the counter by all of it. -/
theorem readOnce_spec (outputLimit : Nat) (read : ReadResult) (pipe : Pipe) (output : Output) :
    (readOnce outputLimit read pipe output).1.text
        = pipe.text ++ read.bytes.take (outputLimit - output.total) ∧
      (readOnce outputLimit read pipe output).2.total = output.total + read.bytes.length ∧
      (readOnce outputLimit read pipe output).2.limitExceeded
        = (output.limitExceeded || decide (read.bytes ≠ [] ∧ outputLimit < output.total + read.bytes.length))
      := by
  cases read with
  | data chunk =>
      -- The guarded subtraction is the truncated one, and `take` never takes more than there is.
      have hremaining : (if output.total < outputLimit then outputLimit - output.total else 0)
          = outputLimit - output.total := by
        split <;> omega
      refine ⟨?_, rfl, ?_⟩
      · show pipe.text ++ chunk.bytes.take (min chunk.bytes.length _) = _
        rw [hremaining, Nat.min_comm, ← List.take_eq_take_min]
        rfl
      · show (output.limitExceeded || _) = _
        simp [ReadResult.bytes, chunk.positive]
  | interrupted => simp [readOnce, ReadResult.bytes]
  | wouldBlock => simp [readOnce, ReadResult.bytes]
  | endOfFile => simp [readOnce, ReadResult.bytes]
  | failed => simp [readOnce, ReadResult.bytes]

/-- A stream that is kept in full, or that there is no room left for, stays a beginning. -/
theorem prefix_append_take {text stream chunk : Bytes} {n : Nat} (h : text <+: stream)
    (hroom : n = 0 ∨ text = stream) : text ++ chunk.take n <+: stream ++ chunk := by
  rcases hroom with rfl | rfl
  · rw [List.take_zero, List.append_nil]
    exact h.trans (List.prefix_append stream chunk)
  · exact (List.prefix_append_right_inj text).mpr (List.take_prefix n chunk)

/-- Where there is room, both streams are kept in full so far. -/
theorem Collected.room (h : Collected outputLimit r) :
    outputLimit - r.output.total = 0 ∨
      r.stdout.text = r.stdoutRead ∧ r.stderr.text = r.stderrRead := by
  by_cases hfull : outputLimit ≤ r.output.total
  · exact Or.inl (Nat.sub_eq_zero_of_le hfull)
  · refine Or.inr (h.undropped (Bool.eq_false_iff.mpr fun hflag => ?_))
    have hover := h.exceeded.mp hflag
    rw [← h.total] at hover
    omega

/-- The counter and the flag after a read. -/
theorem Collected.counted (h : Collected outputLimit r) (read : ReadResult) (pipe : Pipe) :
    (readOnce outputLimit read pipe r.output).2.total
        = r.stdoutRead.length + r.stderrRead.length + read.bytes.length ∧
      ((readOnce outputLimit read pipe r.output).2.limitExceeded = true ↔
        outputLimit < r.stdoutRead.length + r.stderrRead.length + read.bytes.length) := by
  obtain ⟨-, htotal, hflag⟩ := readOnce_spec outputLimit read pipe r.output
  refine ⟨by rw [htotal, h.total], ?_⟩
  rw [hflag, Bool.or_eq_true, decide_eq_true_eq, h.exceeded, h.total]
  constructor
  · rintro (hbefore | ⟨-, hnow⟩)
    · omega
    · exact hnow
  · intro hnow
    by_cases hnil : read.bytes = []
    · rw [hnil, List.length_nil] at hnow
      exact Or.inl hnow
    · exact Or.inr ⟨hnil, hnow⟩

/-- A read of stdout keeps `Collected`. -/
theorem Collected.stdout_step (h : Collected outputLimit r) (read : ReadResult) :
    Collected outputLimit { r with
      stdoutRead := r.stdoutRead ++ read.bytes
      stdout := (readOnce outputLimit read r.stdout r.output).1
      output := (readOnce outputLimit read r.stdout r.output).2 } := by
  obtain ⟨htext, -, -⟩ := readOnce_spec outputLimit read r.stdout r.output
  obtain ⟨hcount, hflag⟩ := h.counted read r.stdout
  constructor
  · show (readOnce outputLimit read r.stdout r.output).1.text <+: _
    rw [htext]
    exact prefix_append_take h.stdout (h.room.imp id And.left)
  · exact h.stderr
  · -- The chunk is cut where the two strings together reach the limit.
    show (readOnce outputLimit read r.stdout r.output).1.text.length + r.stderr.text.length
      = min outputLimit ((r.stdoutRead ++ read.bytes).length + r.stderrRead.length)
    have hstdout := h.stdout.length_le
    have hstderr := h.stderr.length_le
    have hkept := h.kept
    have htotal := h.total
    rw [htext, List.length_append, List.length_append, List.length_take]
    omega
  · show (readOnce outputLimit read r.stdout r.output).2.total
      = (r.stdoutRead ++ read.bytes).length + r.stderrRead.length
    rw [hcount, List.length_append]
    omega
  · show (readOnce outputLimit read r.stdout r.output).2.limitExceeded = true ↔
      outputLimit < (r.stdoutRead ++ read.bytes).length + r.stderrRead.length
    rw [hflag, List.length_append]
    omega

/-- **One read keeps `Collected`**, whichever pipe it is from and however much it returns. -/
theorem Collected.step (h : Collected outputLimit r) (hstep : ReadStep outputLimit r r') :
    Collected outputLimit r' := by
  cases hstep with
  | stdout read hopen => exact h.stdout_step read
  | stderr read hopen => exact (h.swap.stdout_step read).swap

theorem collected_start (outputLimit : Nat) : Collected outputLimit .start where
  stdout := List.prefix_rfl
  stderr := List.prefix_rfl
  kept := (Nat.min_zero outputLimit).symm
  total := rfl
  exceeded := by simp [Reading.start]

/-- Reads in any order and of any size. -/
theorem collected_of_reads (h : ReflTransGen (ReadStep outputLimit) .start r) :
    Collected outputLimit r := by
  induction h with
  | refl => exact collected_start outputLimit
  | tail _ hstep ih => exact ih.step hstep

/-! ### A `drain` as reads of its pipe -/

theorem unended_tail {read next : ReadResult} {reads : List ReadResult}
    (h : Unended (read :: next :: reads)) : read.ends = false ∧ Unended (next :: reads) := by
  unfold Unended at h
  rw [List.dropLast_cons_cons] at h
  exact ⟨h read List.mem_cons_self, fun x hx => h x (List.mem_cons_of_mem _ hx)⟩

/-- A read that does not end the `drain` leaves the pipe open. -/
theorem readOnce_open {read : ReadResult} {pipe : Pipe} {output : Output} (hends : read.ends = false)
    (hopen : pipe.isOpen = true) : (readOnce outputLimit read pipe output).1.isOpen = true := by
  cases read with
  | data chunk => exact hopen
  | interrupted => exact hopen
  | endOfFile => cases hends
  | wouldBlock => cases hends
  | failed => cases hends

theorem reads_stdout {reads : List ReadResult} (hreads : Unended reads)
    (hopen : r.stdout.isOpen = true) :
    ReflTransGen (ReadStep outputLimit) r { r with
      stdoutRead := r.stdoutRead ++ bytesOf reads
      stdout := (readMany outputLimit reads r.stdout r.output).1
      output := (readMany outputLimit reads r.stdout r.output).2 } := by
  induction reads generalizing r with
  | nil =>
      have hsame : { r with stdoutRead := r.stdoutRead ++ bytesOf [] } = r := by
        simp [bytesOf]
      show ReflTransGen _ r { r with stdoutRead := r.stdoutRead ++ bytesOf [] }
      rw [hsame]
  | cons read reads ih =>
      refine .head (.stdout read hopen) ?_
      have hbytes : r.stdoutRead ++ bytesOf (read :: reads)
          = r.stdoutRead ++ read.bytes ++ bytesOf reads := by
        simp [bytesOf]
      rw [hbytes]
      cases reads with
      | nil =>
          simp only [bytesOf, List.flatMap_nil, List.append_nil]
          exact .refl
      | cons next reads =>
          obtain ⟨hends, htail⟩ := unended_tail hreads
          exact @ih ⟨_, _, _, _, _⟩ htail (readOnce_open hends hopen)

theorem reads_stderr {reads : List ReadResult} (hreads : Unended reads)
    (hopen : r.stderr.isOpen = true) :
    ReflTransGen (ReadStep outputLimit) r { r with
      stderrRead := r.stderrRead ++ bytesOf reads
      stderr := (readMany outputLimit reads r.stderr r.output).1
      output := (readMany outputLimit reads r.stderr r.output).2 } :=
  (@reads_stdout outputLimit r.swap reads hreads hopen).lift Reading.swap fun _ _ hstep => hstep.swap

end reads

/-! ## The moments of the loop -/

/-- The bytes that an iteration reads from a pipe, which it drains only if it is open. -/
def drainedBytes (pipe : Pipe) (reads : List ReadResult) : Bytes :=
  if pipe.isOpen then bytesOf (made reads) else []

/-- The bytes that the iterations of a run have read from the pipe of stdout. -/
def stdoutRead : List Iteration → Bytes
  | [] => []
  | r :: h => stdoutRead h ++ drainedBytes r.before.stdout r.turn.stdout

/-- The bytes that the iterations of a run have read from the pipe of stderr. -/
def stderrRead : List Iteration → Bytes
  | [] => []
  | r :: h => stderrRead h ++ drainedBytes r.before.stderr r.turn.stderr

/-- What was read in a run, and the variables after it. -/
def reading (h : List Iteration) (s : Supervision) : Reading :=
  ⟨stdoutRead h, stderrRead h, s.stdout, s.stderr, s.output⟩

/-- A moment of the loop: between two iterations, or after some of the reads of a `drain`. -/
inductive Moment (limits : SupervisionLimits) (now : Milliseconds) : Reading → Prop where
  | between {h : List Iteration} {s : Supervision}
      (hrun : Run (SupervisionStep limits) (.start limits now) h s) : Moment limits now (reading h s)
  | stdout {h : List Iteration} {s : Supervision} {reads : List ReadResult}
      (hrun : Run (SupervisionStep limits) (.start limits now) h s) (hopen : s.stdout.isOpen = true)
      (hreads : Unended reads) :
      Moment limits now
        ⟨stdoutRead h ++ bytesOf reads, stderrRead h,
          (readMany limits.outputLimit reads s.stdout s.output).1, s.stderr,
          (readMany limits.outputLimit reads s.stdout s.output).2⟩
  | stderr {h : List Iteration} {s : Supervision} {before reads : List ReadResult} {stdout : Pipe}
      {output : Output} (hrun : Run (SupervisionStep limits) (.start limits now) h s)
      (hstdout : Supervision.drainOpen limits before s.stdout s.output = some (stdout, output))
      (hopen : s.stderr.isOpen = true) (hreads : Unended reads) :
      Moment limits now
        ⟨stdoutRead h ++ drainedBytes s.stdout before, stderrRead h ++ bytesOf reads, stdout,
          (readMany limits.outputLimit reads s.stderr output).1,
          (readMany limits.outputLimit reads s.stderr output).2⟩

section moments
variable {limits : SupervisionLimits} {now : Milliseconds} {h : List Iteration} {s : Supervision}
  {r : Reading}

theorem drainOpen_stdout {reads : List ReadResult} {stdout : Pipe} {output : Output}
    (hdrain : Supervision.drainOpen limits reads r.stdout r.output = some (stdout, output)) :
    ReflTransGen (ReadStep limits.outputLimit) r { r with
      stdoutRead := r.stdoutRead ++ drainedBytes r.stdout reads, stdout, output } := by
  unfold Supervision.drainOpen at hdrain
  unfold drainedBytes
  by_cases hopen : r.stdout.isOpen = true
  · rw [if_pos hopen] at hdrain
    have hmade := drain_eq_readMany hdrain
    have hreads := @reads_stdout limits.outputLimit r _ (unended_made reads) hopen
    rw [hmade] at hreads
    rw [if_pos hopen]
    exact hreads
  · rw [if_neg hopen] at hdrain
    cases hdrain
    rw [if_neg hopen, List.append_nil]

theorem drainOpen_stderr {reads : List ReadResult} {stderr : Pipe} {output : Output}
    (hdrain : Supervision.drainOpen limits reads r.stderr r.output = some (stderr, output)) :
    ReflTransGen (ReadStep limits.outputLimit) r { r with
      stderrRead := r.stderrRead ++ drainedBytes r.stderr reads, stderr, output } :=
  (@drainOpen_stdout limits r.swap _ _ _ hdrain).lift Reading.swap fun _ _ hstep => hstep.swap

/-- What comes after the reads leaves the pipes and the counter alone. -/
theorem requestTermination_streams (s : Supervision) :
    s.requestTermination.stdout = s.stdout ∧ s.requestTermination.stderr = s.stderr := by
  unfold Supervision.requestTermination
  split
  · exact ⟨rfl, rfl⟩
  · exact ⟨rfl, rfl⟩

theorem reap_streams (s : Supervision) (waited : Option WaitStatus) :
    (s.reap waited).stdout = s.stdout ∧ (s.reap waited).stderr = s.stderr := by
  unfold Supervision.reap
  split
  · exact ⟨rfl, rfl⟩
  · split
    · exact ⟨rfl, rfl⟩
    · exact ⟨rfl, rfl⟩

/-- An iteration reads from stdout and then from stderr. -/
theorem iterate_reads {s' : Supervision} {turn : Turn} {signals : List Signal}
    (hiterate : s.iterate limits turn = some (signals, s')) :
    ReflTransGen (ReadStep limits.outputLimit) (reading h s)
      (reading (⟨s, turn, signals, s'⟩ :: h) s') := by
  simp only [Supervision.iterate, Supervision.receive, Option.bind_eq_bind, Option.bind_eq_some_iff,
    Option.some.injEq, Prod.mk.injEq] at hiterate
  obtain ⟨received, ⟨⟨stdout, output⟩, hstdout, ⟨stderr, output'⟩, hstderr, hreceived⟩, -, rfl⟩ :=
    hiterate
  have hfirst := @drainOpen_stdout limits (reading h s) _ _ _ hstdout
  have hsecond := @drainOpen_stderr limits
    ⟨stdoutRead h ++ drainedBytes s.stdout turn.stdout, stderrRead h, stdout, s.stderr, output⟩ _ _ _
    hstderr
  obtain ⟨hout, herr⟩ := reap_streams received.requestTermination turn.waited
  obtain ⟨hout', herr'⟩ := requestTermination_streams received
  have houtput := (reap_output received.requestTermination turn.waited).trans
    (requestTermination_output received)
  subst hreceived
  show ReflTransGen (ReadStep limits.outputLimit) (reading h s) (Reading.mk _ _ _ _ _)
  rw [hout, hout', herr, herr', houtput]
  exact hfirst.trans hsecond

/-- The loop makes reads only. -/
theorem run_reads (hrun : Run (SupervisionStep limits) (.start limits now) h s) :
    ReflTransGen (ReadStep limits.outputLimit) .start (reading h s) := by
  induction hrun with
  | start => exact .refl
  | next _ _ hstep ih =>
      cases hstep with
      | iterate _ hiterate => exact ih.trans (iterate_reads hiterate)

/-- **Every moment of the loop is reached by reads.** -/
theorem Moment.reads (hr : Moment limits now r) :
    ReflTransGen (ReadStep limits.outputLimit) .start r := by
  cases hr with
  | between hrun => exact run_reads hrun
  | @stdout h s reads hrun hopen hreads =>
      exact (run_reads hrun).trans (@reads_stdout _ (reading h s) _ hreads hopen)
  | @stderr h s before reads stdout output hrun hstdout hopen hreads =>
      have hdrained := @drainOpen_stdout limits (reading h s) _ _ _ hstdout
      have hread := @reads_stderr limits.outputLimit ⟨stdoutRead h ++ drainedBytes s.stdout before,
        stderrRead h, stdout, s.stderr, output⟩ _ hreads hopen
      exact ((run_reads hrun).trans hdrained).trans hread

/-! ## The returned output -/

/-- What is appended to stderr where the limit is exceeded. -/
def limitNotice (s : Supervision) : Bytes :=
  if s.output.limitExceeded then
    (if s.stderr.text.isEmpty then [] else utf8 "\n") ++ utf8 "Output limit exceeded"
  else []

theorem finish_output {execError : Option String} {log : Bytes} {result : ExecutionResult Bytes}
    (hfinish : finish execError log s = .ok result) :
    result.standardOutput = s.stdout.text ∧
      result.standardError = s.stderr.text ++ limitNotice s := by
  unfold finish at hfinish
  unfold limitNotice
  cases execError with
  | some description => cases hfinish
  | none =>
      dsimp only at hfinish
      split at hfinish
      · cases hfinish
      · by_cases hlimit : s.output.limitExceeded = true
        · rw [if_pos hlimit] at hfinish
          cases hfinish
          rw [if_pos hlimit]
          refine ⟨rfl, ?_⟩
          by_cases hempty : s.stderr.text.isEmpty = true
          · simp [List.isEmpty_iff.mp hempty]
          · show (if s.stderr.text.isEmpty then [] else s.stderr.text ++ utf8 "\n")
              ++ utf8 "Output limit exceeded" = _
            rw [if_neg hempty, if_neg hempty, List.append_assoc]
        · rw [if_neg hlimit] at hfinish
          cases hfinish
          rw [if_neg hlimit, List.append_nil]
          exact ⟨rfl, rfl⟩

/-- **What is kept of the output.** At every moment of the loop, the strings are the beginnings of what was
    read from the two pipes, together as long as the limit allows, and the flag is set exactly if more
    was read; where it is not set, nothing is dropped. The returned strings exceed the limit by the notice
    at most. -/
theorem output_collected (limits : SupervisionLimits) (now : Milliseconds) :
    (∀ r, Moment limits now r → Collected limits.outputLimit r ∧
      (r.output.limitExceeded = false → r.stdout.text = r.stdoutRead ∧ r.stderr.text = r.stderrRead)) ∧
    ∀ h s execError log result, Run (SupervisionStep limits) (.start limits now) h s →
      finish execError log s = .ok result →
      result.standardOutput.length + result.standardError.length
        ≤ limits.outputLimit + (limitNotice s).length := by
  constructor
  · intro r hr
    have hcollected := collected_of_reads hr.reads
    exact ⟨hcollected, hcollected.undropped⟩
  · intro h s execError log result hrun hfinish
    have hcollected := collected_of_reads (run_reads hrun)
    have hkept : s.stdout.text.length + s.stderr.text.length
        = min limits.outputLimit ((stdoutRead h).length + (stderrRead h).length) := hcollected.kept
    obtain ⟨hstdout, hstderr⟩ := finish_output hfinish
    rw [hstdout, hstderr, List.length_append]
    omega

end moments

end AlgorithmTrainer
