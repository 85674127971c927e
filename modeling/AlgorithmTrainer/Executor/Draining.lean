import AlgorithmTrainer.Executor.Output

/-!
# `Executor.Draining` — when a call of `drain` returns

The loop of `drain` leaves on `EAGAIN`, end of file or an error only, and these are up to the program at the
other end of the pipe. A program is an endless sequence of read results here, whatever it writes and
however fast; `drain` takes as many of them as it asks for.

`returnsInTime_iff` says for which programs the call returns before it has read on past the limit, and
`checks_iff` for which the supervision loop gets to its own checks.
-/

namespace AlgorithmTrainer

/-- The result of each `read` on a pipe, as long as anyone goes on reading. -/
abbrev ReadStream := Nat → ReadResult

/-- The results of the first `n` reads. -/
def ReadStream.first (stream : ReadStream) (n : Nat) : List ReadResult := (List.range n).map stream

/-- The call of `drain` makes `n` reads and returns: with fewer it still wants another. -/
structure DrainsAfter (outputLimit : Nat) (stream : ReadStream) (pipe : Pipe) (output : Output)
    (n : Nat) : Prop where
  returns : (drain outputLimit (stream.first n) pipe output).isSome = true
  waits : ∀ m < n, drain outputLimit (stream.first m) pipe output = none

/-- The call returns, and it makes no further read after one that leaves `total_output` above the limit. -/
def ReturnsInTime (outputLimit : Nat) (stream : ReadStream) (pipe : Pipe) (output : Output) : Prop :=
  ∃ n, DrainsAfter outputLimit stream pipe output n ∧
    ∀ m, 0 < m → m < n → (readMany outputLimit (stream.first m) pipe output).2.total ≤ outputLimit

/-- The number of bytes that the first `n` reads return. -/
def ReadStream.size (stream : ReadStream) (n : Nat) : Nat := (bytesOf (stream.first n)).length

/-- The read at `k` is the first that reports `EAGAIN`, end of file or an error. -/
structure FirstEnd (stream : ReadStream) (k : Nat) : Prop where
  ends : (stream k).ends = true
  earlier : ∀ j < k, (stream j).ends = false

/-! ## The reads of a call -/

section calls
variable {outputLimit : Nat} {stream : ReadStream} {pipe : Pipe} {output : Output}

theorem ReadStream.first_succ (stream : ReadStream) (n : Nat) :
    stream.first (n + 1) = stream.first n ++ [stream n] := by
  simp [ReadStream.first, List.range_succ]

theorem ReadStream.size_succ (stream : ReadStream) (n : Nat) :
    stream.size (n + 1) = stream.size n + (stream n).bytes.length := by
  simp [ReadStream.size, ReadStream.first_succ, bytesOf]

theorem ReadStream.size_mono (stream : ReadStream) {m n : Nat} (h : m ≤ n) :
    stream.size m ≤ stream.size n := by
  induction h with
  | refl => exact Nat.le_refl _
  | step _ ih =>
      rw [ReadStream.size_succ]
      omega

/-- `drain` returns exactly if one of the results ends it. -/
theorem drain_isSome (reads : List ReadResult) :
    (drain outputLimit reads pipe output).isSome = reads.any ReadResult.ends := by
  induction reads generalizing pipe output with
  | nil => rfl
  | cons read reads ih =>
      rw [drain_cons, List.any_cons]
      by_cases hends : read.ends = true
      · rw [if_pos hends, hends]
        rfl
      · rw [if_neg hends, ih, Bool.eq_false_iff.mpr hends, Bool.false_or]

theorem drain_first_isSome (n : Nat) :
    (drain outputLimit (stream.first n) pipe output).isSome = true ↔
      ∃ k < n, (stream k).ends = true := by
  rw [drain_isSome]
  simp [ReadStream.first]

/-- `total_output` after some reads. -/
theorem readMany_total (reads : List ReadResult) :
    (readMany outputLimit reads pipe output).2.total = output.total + (bytesOf reads).length := by
  induction reads generalizing pipe output with
  | nil => rfl
  | cons read reads ih =>
      obtain ⟨-, htotal, -⟩ := readOnce_spec outputLimit read pipe output
      show (readMany outputLimit reads _ _).2.total = _
      rw [ih, htotal]
      simp [bytesOf]
      omega

/-- **The number of reads.** The call returns after the first result that ends it. -/
theorem drainsAfter_iff {n : Nat} :
    DrainsAfter outputLimit stream pipe output n ↔ ∃ k, n = k + 1 ∧ FirstEnd stream k := by
  constructor
  · rintro ⟨hreturns, hwaits⟩
    obtain ⟨k, hk, hends⟩ := (drain_first_isSome n).mp hreturns
    -- Had an earlier result ended it, fewer reads would do.
    have hmissing : ∀ m < n, ∀ j < m, (stream j).ends = false := by
      intro m hm j hj
      cases hj' : (stream j).ends with
      | false => rfl
      | true =>
          have hsome : (drain outputLimit (stream.first m) pipe output).isSome = true :=
            (drain_first_isSome m).mpr ⟨j, hj, hj'⟩
          rw [hwaits m hm] at hsome
          cases hsome
    have hlast : n = k + 1 := by
      by_contra hne
      have hfalse := hmissing (k + 1) (by omega) k (Nat.lt_succ_self k)
      rw [hends] at hfalse
      cases hfalse
    exact ⟨k, hlast, hends, hmissing k (by omega)⟩
  · rintro ⟨k, rfl, hends, hearlier⟩
    refine ⟨(drain_first_isSome (k + 1)).mpr ⟨k, Nat.lt_succ_self k, hends⟩, fun m hm => ?_⟩
    rw [← Option.not_isSome_iff_eq_none, drain_first_isSome]
    rintro ⟨j, hj, hend⟩
    rw [hearlier j (by omega)] at hend
    cases hend

/-- **When a call of `drain` returns in time.** It does exactly if the program has the first `EAGAIN`, end of
    file or error reported to the first read, or while no more than the limit has been read in total. -/
theorem returnsInTime_iff (outputLimit : Nat) (stream : ReadStream) (pipe : Pipe) (output : Output) :
    ReturnsInTime outputLimit stream pipe output ↔
      ∃ k, FirstEnd stream k ∧ (k = 0 ∨ output.total + stream.size k ≤ outputLimit) := by
  constructor
  · rintro ⟨n, hdrains, hlimit⟩
    obtain ⟨k, rfl, hfirst⟩ := drainsAfter_iff.mp hdrains
    refine ⟨k, hfirst, ?_⟩
    by_cases hk : k = 0
    · exact Or.inl hk
    · have hwithin := hlimit k (by omega) (Nat.lt_succ_self k)
      rw [readMany_total] at hwithin
      exact Or.inr hwithin
  · rintro ⟨k, hfirst, hlimit⟩
    refine ⟨k + 1, drainsAfter_iff.mpr ⟨k, rfl, hfirst⟩, fun m hpos hm => ?_⟩
    rw [readMany_total]
    show output.total + stream.size m ≤ outputLimit
    have hsize := stream.size_mono (show m ≤ k by omega)
    omega

end calls

/-! ### A program that writes as fast as it is read -/

/-- Every read returns a full buffer. -/
def flood : ReadStream := fun _ => .data (zeros pipeReadBufferSize (by decide) (by decide))

/-- **A call of `drain` need not return**: a program that always has more to read keeps the loop inside it,
    whatever the limit. -/
theorem drain_of_flood : ¬ ∀ (outputLimit : Nat) (stream : ReadStream) (pipe : Pipe) (output : Output),
    ReturnsInTime outputLimit stream pipe output := by
  intro hclaim
  obtain ⟨n, hdrains, -⟩ := hclaim 65536 flood ⟨true, []⟩ ⟨0, false⟩
  obtain ⟨k, -, hends⟩ := (drain_first_isSome n).mp hdrains.returns
  cases hends

/-! ## The loop around it -/

section loop
variable {limits : SupervisionLimits} {s : Supervision} {turn : Turn}

theorem drainOpen_isSome {reads : List ReadResult} {pipe : Pipe} {output : Output} :
    (Supervision.drainOpen limits reads pipe output).isSome = true ↔
      (pipe.isOpen = true → reads.any ReadResult.ends = true) := by
  unfold Supervision.drainOpen
  by_cases hopen : pipe.isOpen = true
  · rw [if_pos hopen, drain_isSome]
    exact ⟨fun h _ => h, fun h => h hopen⟩
  · rw [if_neg hopen]
    exact ⟨fun _ h => absurd h hopen, fun _ => rfl⟩

theorem iterate_isSome :
    (s.iterate limits turn).isSome = true ↔
      (s.stdout.isOpen = true → turn.stdout.any ReadResult.ends = true) ∧
        (s.stderr.isOpen = true → turn.stderr.any ReadResult.ends = true) := by
  -- The second pipe is drained with the counter that the first has left; whether it returns is not
  -- affected by it.
  unfold Supervision.iterate Supervision.receive
  rw [← @drainOpen_isSome limits turn.stdout s.stdout s.output]
  cases hstdout : Supervision.drainOpen limits turn.stdout s.stdout s.output with
  | none => simp
  | some drained =>
      rw [← @drainOpen_isSome limits turn.stderr s.stderr drained.2]
      cases hstderr : Supervision.drainOpen limits turn.stderr s.stderr drained.2 with
      | none => simp [hstderr]
      | some drained' => simp [hstderr]

/-- **When the loop gets to its checks.** An iteration gets to the output limit and to the deadline exactly
    if the program has each open pipe report `EAGAIN`, end of file or an error at some time. -/
theorem checks_iff (limits : SupervisionLimits) (s : Supervision) (stdout stderr : ReadStream)
    (elapsed : Milliseconds) (waited : Option WaitStatus) :
    (∃ n m, (s.iterate limits ⟨stdout.first n, stderr.first m, elapsed, waited⟩).isSome = true) ↔
      (s.stdout.isOpen = true → ∃ k, (stdout k).ends = true) ∧
        (s.stderr.isOpen = true → ∃ k, (stderr k).ends = true) := by
  have hany : ∀ (stream : ReadStream) (n : Nat),
      (stream.first n).any ReadResult.ends = true ↔ ∃ k < n, (stream k).ends = true := by
    intro stream n
    simp [ReadStream.first]
  simp only [iterate_isSome, hany]
  constructor
  · rintro ⟨n, m, hout, herr⟩
    refine ⟨fun hopen => ?_, fun hopen => ?_⟩
    · obtain ⟨k, -, hends⟩ := hout hopen
      exact ⟨k, hends⟩
    · obtain ⟨k, -, hends⟩ := herr hopen
      exact ⟨k, hends⟩
  · rintro ⟨hout, herr⟩
    have hreads : ∀ (stream : ReadStream) (open' : Bool), (open' = true → ∃ k, (stream k).ends = true) →
        ∃ n, open' = true → ∃ k < n, (stream k).ends = true := by
      intro stream open' h
      by_cases hopen : open' = true
      · obtain ⟨k, hends⟩ := h hopen
        exact ⟨k + 1, fun _ => ⟨k, Nat.lt_succ_self k, hends⟩⟩
      · exact ⟨0, fun h => absurd h hopen⟩
    obtain ⟨n, hn⟩ := hreads stdout _ hout
    obtain ⟨m, hm⟩ := hreads stderr _ herr
    exact ⟨n, m, hn, hm⟩

end loop

end AlgorithmTrainer
