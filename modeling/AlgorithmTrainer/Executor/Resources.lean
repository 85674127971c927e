import AlgorithmTrainer.Executor.Kernel

/-!
# `Executor.Resources` — what the executors take they give back

Descriptors, children and the workspace are handles (`kernelHandles`). One triple for each function of the
executors says what it holds when it returns, and `run_releases` is what that means for a run: whatever the
kernel answers, on every path, nothing is used after it was given back. What may be left is the workspace, if
its removal has failed; and, of the outer executor, a worker that was killed before the request was sent, if
the wait for it was interrupted, or a worker at whose response the parser has thrown.

Each triple is proved from those of the calls: a call that grants, uses or gives back is one rule of
`Lib.Ownership`, and `Owns.bind` and `Keeps.bind` put the parts together, in the order of the code. Only the
supervision loop needs an invariant, `superviseHandles`: the read ends that are open, and the child until it
is reaped.
-/

namespace AlgorithmTrainer

open Interaction Interaction.Handles

section handles
variable {held : Set KernelHandle} {β : Type} {post : β → Set KernelHandle → Prop}

/-- The read end of a pipe, while it is open. -/
def pipeHandle (pipe : Pipe) (file : Descriptor) : Set KernelHandle :=
  {h | pipe.isOpen = true ∧ h = .descriptor file}

/-- The supervisor, while it is not reaped. -/
def childHandle (exited : Bool) (child : ProcessId) : Set KernelHandle :=
  {h | exited = false ∧ h = .child child}

/-- The handles of the supervision loop. -/
def superviseHandles (stdout stderr : Descriptor) (child : ProcessId) (s : Supervision) : Set KernelHandle :=
  pipeHandle s.stdout stdout ∪ (pipeHandle s.stderr stderr ∪ childHandle s.supervisorExited child)

theorem pipeHandle_disjoint {file file' : Descriptor} (hne : file ≠ file') (pipe pipe' : Pipe) :
    Disjoint (pipeHandle pipe file) (pipeHandle pipe' file') := by
  refine Set.disjoint_left.mpr fun h hh hh' => hne ?_
  obtain ⟨-, rfl⟩ := hh
  exact KernelHandle.descriptor.inj hh'.2

theorem pipeHandle_disjoint_child (pipe : Pipe) (file : Descriptor) (exited : Bool) (child : ProcessId) :
    Disjoint (pipeHandle pipe file) (childHandle exited child) := by
  refine Set.disjoint_left.mpr fun h hh hh' => ?_
  obtain ⟨-, rfl⟩ := hh
  cases hh'.2

namespace NsJail

theorem close_owns {file : Descriptor} {f : Unit → KernelCall β} (hfile : .descriptor file ∈ held)
    (hf : kernelHandles.Owns (held \ {.descriptor file}) (f ()) post) :
    kernelHandles.Owns held (closeFile file >>= f) post :=
  .release (Set.singleton_subset_iff.mpr hfile) (fun _ => rfl) (fun _ => rfl) fun _ => hf

theorem closeFile_owns {file : Descriptor} (hfile : .descriptor file ∈ held) :
    kernelHandles.Owns held (closeFile file) fun _ left => left = held \ {.descriptor file} :=
  .release (Set.singleton_subset_iff.mpr hfile) (fun _ => rfl) (fun _ => rfl) fun _ => .ret rfl

/-! ## The supervision loop -/

/-- A read end that is closed where nothing more comes. -/
theorem ended_owns (file : Descriptor) (pipe : Pipe) (output : Output) :
    kernelHandles.Owns {.descriptor file}
      (do closeFile file; pure ({ pipe with isOpen := false }, output) : KernelCall (Pipe × Output))
      fun r left => left = pipeHandle r.1 file := by
  refine close_owns rfl (.ret ?_)
  ext h
  simp [pipeHandle]

theorem drain_owns (outputLimit : Nat) (file : Descriptor) (n : Nat) {pipe : Pipe} (output : Output)
    (hopen : pipe.isOpen = true) :
    kernelHandles.Owns {.descriptor file} (drain outputLimit file n pipe output)
      fun r left => left = pipeHandle r.1 file := by
  induction n generalizing pipe output with
  | zero => exact .raise
  | succ n ih =>
      refine .use Set.Subset.rfl (fun _ => rfl) (fun _ => rfl) fun read => ?_
      cases read with
      | data chunk => exact ih _ hopen
      | endOfFile => exact ended_owns file pipe output
      | interrupted => exact ih output hopen
      | wouldBlock =>
          refine .ret ?_
          ext h
          simp [pipeHandle, hopen]
      | failed => exact ended_owns file pipe output

theorem drainOpen_owns (limits : SupervisionLimits) (file : Descriptor) (n : Nat) (pipe : Pipe)
    (output : Output) :
    kernelHandles.Owns (pipeHandle pipe file) (drainOpen limits file n pipe output)
      fun r left => left = pipeHandle r.1 file := by
  unfold drainOpen
  split
  · rename_i hopen
    have hheld : pipeHandle pipe file = {.descriptor file} := by
      ext h
      simp [pipeHandle, hopen]
    rw [hheld]
    exact drain_owns limits.outputLimit file n output hopen
  · exact .ret rfl

/-- The loop asks for a signal to be sent to a child that it has not reaped. -/
theorem killIf_keeps (condition : Bool) (child : ProcessId) (signal : Signal)
    (hchild : condition = true → signal = .kill → .child child ∈ held) :
    kernelHandles.Keeps held (killIf condition child signal) := by
  unfold killIf
  split
  · rename_i hcondition
    refine Owns.use ?_ (fun _ => rfl) (fun _ => rfl) fun _ => .ret rfl
    cases signal with
    | terminate => exact Set.empty_subset _
    | kill => exact Set.singleton_subset_iff.mpr (hchild hcondition rfl)
  · exact .ret rfl

theorem waitIfRunning_owns (child : ProcessId) (s : Supervision) :
    kernelHandles.Owns (childHandle s.supervisorExited child) (waitIfRunning child s)
      fun waited left => left = childHandle (s.reap waited).supervisorExited child := by
  unfold waitIfRunning
  split
  · rename_i hexited
    refine .ret ?_
    rw [reap_exited hexited, hexited]
  · rename_i hexited
    rw [Bool.not_eq_true] at hexited
    have hheld : childHandle s.supervisorExited child = {.child child} := by
      ext h
      simp [childHandle, hexited]
    rw [hheld]
    refine .call Set.Subset.rfl fun waited _ => .ret ?_
    cases waited with
    | none =>
        ext h
        simp [kernelHandles, childHandle, Supervision.reap, hexited]
    | some status =>
        ext h
        simp [kernelHandles, childHandle, Supervision.reap, hexited]

/-- **The loop** holds the supervisor until it is reaped, and each read end until it is closed. -/
theorem supervise_owns (limits : SupervisionLimits) {stdout stderr : Descriptor} (hne : stdout ≠ stderr)
    (child : ProcessId) (n : Nat) (s : Supervision) :
    kernelHandles.Owns (superviseHandles stdout stderr child s)
      (supervise limits stdout stderr child n s)
      fun s' left => left = superviseHandles stdout stderr child s' ∧ s'.running = false := by
  induction n generalizing s with
  | zero => exact .raise
  | succ n ih =>
      unfold supervise
      split
      · -- what the iteration polls is open
        have hpoll : kernelHandles.needs (.poll (polled stdout stderr s) supervisorPollMilliseconds)
            ⊆ superviseHandles stdout stderr child s := by
          rintro h ⟨file, hfile, rfl⟩
          unfold polled at hfile
          rcases List.mem_append.mp hfile with hfile | hfile
          · split at hfile
            · rename_i hopen
              rw [List.mem_singleton.mp hfile]
              exact Or.inl ⟨hopen, rfl⟩
            · cases hfile
          · split at hfile
            · rename_i hopen
              rw [List.mem_singleton.mp hfile]
              exact Or.inr (Or.inl ⟨hopen, rfl⟩)
            · cases hfile
        refine .use hpoll (fun _ => rfl) (fun _ => rfl) fun _ => ?_
        -- stdout is drained, then stderr, each with the rest as its frame
        have hout : Disjoint (pipeHandle s.stdout stdout)
            (pipeHandle s.stderr stderr ∪ childHandle s.supervisorExited child) :=
          Set.disjoint_union_right.mpr ⟨pipeHandle_disjoint hne _ _, pipeHandle_disjoint_child _ _ _ _⟩
        refine ((drainOpen_owns limits stdout n s.stdout s.output).frame hout).bind ?_
        rintro ⟨out, output⟩ _ ⟨_, rfl, -, rfl⟩
        have herr : Disjoint (pipeHandle s.stderr stderr)
            (pipeHandle out stdout ∪ childHandle s.supervisorExited child) :=
          Set.disjoint_union_right.mpr ⟨pipeHandle_disjoint hne.symm _ _, pipeHandle_disjoint_child _ _ _ _⟩
        rw [Set.union_left_comm]
        refine ((drainOpen_owns limits stderr n s.stderr output).frame herr).bind ?_
        rintro ⟨err, output⟩ _ ⟨_, rfl, -, rfl⟩
        refine .use (Set.empty_subset _) (fun _ => rfl) (fun _ => rfl) fun elapsed => ?_
        -- the signals change nothing, and `SIGKILL` goes to a supervisor that is not reaped
        refine (killIf_keeps _ child .terminate fun _ h => by cases h).bind fun _ => ?_
        have hexited : (received s out err output elapsed).requestTermination.supervisorExited
            = s.supervisorExited := requestTermination_exited _
        refine (killIf_keeps _ child .kill fun hkill _ => ?_).bind fun _ => ?_
        · refine Or.inr (Or.inr ⟨?_, rfl⟩)
          rw [← hexited]
          unfold Supervision.mustKill at hkill
          simp only [Bool.and_eq_true, Bool.not_eq_true'] at hkill
          exact hkill.1.2
        · have hchild : Disjoint (childHandle s.supervisorExited child)
              (pipeHandle err stderr ∪ pipeHandle out stdout) :=
            Set.disjoint_union_right.mpr
              ⟨(pipeHandle_disjoint_child _ _ _ _).symm, (pipeHandle_disjoint_child _ _ _ _).symm⟩
          have hwait := waitIfRunning_owns child (received s out err output elapsed).requestTermination
          rw [hexited] at hwait
          rw [← Set.union_assoc, Set.union_comm]
          refine (hwait.frame hchild).bind ?_
          rintro waited _ ⟨_, rfl, -, rfl⟩
          have hnext := ih ((received s out err output elapsed).requestTermination.reap waited)
          have hstreams : ((received s out err output elapsed).requestTermination.reap waited).stdout = out ∧
              ((received s out err output elapsed).requestTermination.reap waited).stderr = err := by
            rw [(reap_streams _ waited).1, (reap_streams _ waited).2, (requestTermination_streams _).1,
              (requestTermination_streams _).2]
            exact ⟨rfl, rfl⟩
          unfold superviseHandles at hnext
          rw [hstreams.1, hstreams.2, ← Set.union_assoc, Set.union_comm,
            Set.union_comm (pipeHandle out stdout)] at hnext
          exact hnext
      · rename_i hrunning
        exact .ret ⟨rfl, Bool.eq_false_iff.mpr hrunning⟩

/-! ## `run_isolated` -/

/-- The descriptors of a pipe. -/
def pipeHandles (ends : PipeEnds) : Set KernelHandle :=
  {.descriptor ends.readEnd, .descriptor ends.writeEnd}

/-- The descriptors of a pipe, if it was made. -/
def madeHandles : Except ExecutorError PipeEnds → Set KernelHandle
  | .ok ends => pipeHandles ends
  | .error _ => ∅

/-- The descriptors of `run_isolated` are pairwise different. -/
def Apart (input : Descriptor) (stdout stderr execError : PipeEnds) : Prop :=
  [input, stdout.readEnd, stdout.writeEnd, stderr.readEnd, stderr.writeEnd, execError.readEnd,
    execError.writeEnd].Nodup

/-- All that `run_isolated` holds when it forks. -/
def launchHandles (input : Descriptor) (stdout stderr execError : PipeEnds) : Set KernelHandle :=
  pipeHandles execError ∪ (pipeHandles stderr ∪ (pipeHandles stdout ∪ {.descriptor input}))

theorem makePipe_owns : kernelHandles.Owns held makePipe fun made left =>
    left = madeHandles made ∪ held ∧ Disjoint (madeHandles made) held := by
  refine .grant (Set.empty_subset _) (fun _ => rfl) fun ends hgrants => ?_
  cases ends with
  | error description => exact .ret ⟨rfl, Set.empty_disjoint _⟩
  | ok ends => exact .ret ⟨rfl, hgrants⟩

theorem closePipe_owns (ends : PipeEnds) :
    kernelHandles.Owns (pipeHandles ends) (closePipe ends) fun _ left => left = ∅ := by
  have hne : KernelHandle.descriptor ends.readEnd ≠ .descriptor ends.writeEnd :=
    fun h => ends.distinct (KernelHandle.descriptor.inj h)
  have hread : KernelHandle.descriptor ends.readEnd ∈ pipeHandles ends \ {.descriptor ends.writeEnd} :=
    ⟨Or.inl rfl, hne⟩
  refine close_owns (Or.inr rfl) ((closeFile_owns hread).mono fun _ left hleft => ?_)
  rw [hleft]
  ext h
  simp only [pipeHandles, Set.mem_sdiff, Set.mem_insert_iff, Set.mem_singleton_iff,
    Set.mem_empty_iff_false]
  tauto

/-- What was made is closed, and the rest is left. -/
theorem closeMade_owns {made : Except ExecutorError PipeEnds} (hd : Disjoint (madeHandles made) held) :
    kernelHandles.Owns (madeHandles made ∪ held) (closeMade made) fun _ left => left = held := by
  cases made with
  | error description => exact .ret (Set.empty_union held)
  | ok ends =>
      refine ((closePipe_owns ends).frame hd).mono fun _ all hall => ?_
      obtain ⟨left, rfl, -, rfl⟩ := hall
      exact Set.empty_union held

/-- Everything is closed again where the pipes were not made, or the child was not. -/
theorem closeAll_owns {input : Descriptor} {stdout stderr execError : Except ExecutorError PipeEnds}
    {result : ExecutorResult Bytes} (hstdout : Disjoint (madeHandles stdout) {.descriptor input})
    (hstderr : Disjoint (madeHandles stderr) (madeHandles stdout ∪ {.descriptor input}))
    (hexec : Disjoint (madeHandles execError)
      (madeHandles stderr ∪ (madeHandles stdout ∪ {.descriptor input}))) :
    kernelHandles.Owns
      (madeHandles execError ∪ (madeHandles stderr ∪ (madeHandles stdout ∪ {.descriptor input})))
      (do closeMade execError; closeMade stderr; closeMade stdout; closeFile input; pure result)
      fun _ left => left = ∅ := by
  refine (closeMade_owns hexec).bind fun _ left hleft => ?_
  subst hleft
  refine (closeMade_owns hstderr).bind fun _ left hleft => ?_
  subst hleft
  refine (closeMade_owns hstdout).bind fun _ left hleft => ?_
  subst hleft
  refine close_owns rfl (.ret ?_)
  exact Set.sdiff_self

theorem setNonBlocking_keeps {file : Descriptor} (hfile : .descriptor file ∈ held) :
    kernelHandles.Keeps held (setNonBlocking file) := by
  refine Owns.use (Set.singleton_subset_iff.mpr hfile) (fun _ => rfl) (fun _ => rfl) fun flags => ?_
  cases flags with
  | none => exact .ret rfl
  | some flags =>
      exact Owns.use (Set.singleton_subset_iff.mpr hfile) (fun _ => rfl) (fun _ => rfl) fun _ => .ret rfl

/-- What is held when the loop is entered. -/
theorem superviseHandles_start {limits : SupervisionLimits} {now : Milliseconds} {input : Descriptor}
    {stdout stderr execError : PipeEnds} {child : ProcessId} (hapart : Apart input stdout stderr execError) :
    (((({.child child} ∪ launchHandles input stdout stderr execError) \ {.descriptor input}) \
      {.descriptor stdout.writeEnd}) \ {.descriptor stderr.writeEnd}) \ {.descriptor execError.writeEnd}
      = superviseHandles stdout.readEnd stderr.readEnd child (.start limits now) ∪
        {.descriptor execError.readEnd} := by
  unfold Apart at hapart
  simp only [List.nodup_cons, List.mem_cons, List.not_mem_nil, or_false, not_or] at hapart
  ext h
  simp only [launchHandles, pipeHandles, superviseHandles, pipeHandle, childHandle, Supervision.start,
    Set.mem_union, Set.mem_sdiff, Set.mem_insert_iff, Set.mem_singleton_iff, Set.mem_ofPred_eq]
  cases h with
  | descriptor file => grind
  | child process => grind
  | directory path => grind
  | leftover path => grind

/-- A loop that has ended holds nothing any more. -/
theorem superviseHandles_ended {stdout stderr : Descriptor} {child : ProcessId} {s : Supervision}
    (hs : s.running = false) : superviseHandles stdout stderr child s = ∅ := by
  unfold Supervision.running at hs
  simp only [Bool.or_eq_false_iff, Bool.not_eq_false'] at hs
  obtain ⟨⟨hexited, hout⟩, herr⟩ := hs
  ext h
  simp [superviseHandles, pipeHandle, childHandle, hexited, hout, herr]

theorem superviseChild_owns (limits : SupervisionLimits) (workspace : String) (n : Nat) {input : Descriptor}
    {stdout stderr execError : PipeEnds} (hapart : Apart input stdout stderr execError)
    (child : ProcessId) :
    kernelHandles.Owns ({.child child} ∪ launchHandles input stdout stderr execError)
      (superviseChild limits workspace n input stdout stderr execError child) fun _ left => left = ∅ := by
  have hdistinct := hapart
  unfold Apart at hdistinct
  simp only [List.nodup_cons, List.mem_cons, List.not_mem_nil, or_false, not_or] at hdistinct
  have hread : ∀ now : Milliseconds, KernelHandle.descriptor stdout.readEnd ∈
        superviseHandles stdout.readEnd stderr.readEnd child (.start limits now) ∪
          {.descriptor execError.readEnd} ∧
      KernelHandle.descriptor stderr.readEnd ∈
        superviseHandles stdout.readEnd stderr.readEnd child (.start limits now) ∪
          {.descriptor execError.readEnd} :=
    fun _ => ⟨Or.inl (Or.inl ⟨rfl, rfl⟩), Or.inl (Or.inr (Or.inl ⟨rfl, rfl⟩))⟩
  -- the child's ends are closed
  refine close_owns (Or.inr (Or.inr (Or.inr (Or.inr rfl)))) ?_
  refine close_owns (by simp [launchHandles, pipeHandles]; grind) ?_
  refine close_owns (by simp [launchHandles, pipeHandles]; grind) ?_
  refine close_owns (by simp [launchHandles, pipeHandles]; grind) ?_
  rw [@superviseHandles_start limits 0 input stdout stderr execError child hapart]
  refine (setNonBlocking_keeps (hread 0).1).bind fun _ => ?_
  refine (setNonBlocking_keeps (hread 0).2).bind fun _ => ?_
  refine .use (Set.empty_subset _) (fun _ => rfl) (fun _ => rfl) fun now => ?_
  have hexec : Disjoint (superviseHandles stdout.readEnd stderr.readEnd child (.start limits now))
      {.descriptor execError.readEnd} := by
    refine Set.disjoint_singleton_right.mpr fun h => ?_
    simp only [superviseHandles, pipeHandle, childHandle, Supervision.start, Set.mem_union,
      Set.mem_ofPred_eq] at h
    grind
  have hne : stdout.readEnd ≠ stderr.readEnd := by grind
  refine ((supervise_owns limits hne child n (.start limits now)).frame hexec).bind fun s all hall => ?_
  obtain ⟨left, ⟨rfl, hs⟩, -, rfl⟩ := hall
  rw [superviseHandles_ended hs, Set.empty_union]
  have hended : s.supervisorExited = true ∧ s.stdout.isOpen = false ∧ s.stderr.isOpen = false := by
    unfold Supervision.running at hs
    simpa [and_assoc] using hs
  obtain ⟨hexited, hout, herr⟩ := hended
  rw [if_pos hexited]
  refine .use Set.Subset.rfl (fun _ => rfl) (fun _ => rfl) fun error => ?_
  have hclose : ∀ result : ExecutorResult Bytes, kernelHandles.Owns {.descriptor execError.readEnd}
      (do
        closeFile execError.readEnd
        closeOpen s.stderr stderr.readEnd
        closeOpen s.stdout stdout.readEnd
        pure result) fun _ left => left = ∅ := by
    intro result
    unfold closeOpen
    rw [hout, herr]
    exact close_owns rfl (.ret Set.sdiff_self)
  cases error with
  | some description => exact hclose _
  | none => exact .use (Set.empty_subset _) (fun _ => rfl) (fun _ => rfl) fun log => hclose _

theorem apart_of_disjoint {input : Descriptor} {stdout stderr execError : PipeEnds}
    (hstdout : Disjoint (pipeHandles stdout) {.descriptor input})
    (hstderr : Disjoint (pipeHandles stderr) (pipeHandles stdout ∪ {.descriptor input}))
    (hexec : Disjoint (pipeHandles execError)
      (pipeHandles stderr ∪ (pipeHandles stdout ∪ {.descriptor input}))) :
    Apart input stdout stderr execError := by
  simp only [pipeHandles, Set.disjoint_union_right, Set.disjoint_insert_left, Set.disjoint_singleton_left,
    Set.mem_insert_iff, Set.mem_singleton_iff, KernelHandle.descriptor.injEq, not_or] at hstdout hstderr hexec
  have hout := stdout.distinct
  have herr := stderr.distinct
  have hexec' := execError.distinct
  unfold Apart
  simp only [List.nodup_cons, List.mem_cons, List.not_mem_nil, or_false, not_or, List.nodup_nil, and_true,
    not_false_eq_true]
  grind

theorem launch_owns (limits : SupervisionLimits) (workspace : String) (program : SandboxedProgram) (n : Nat)
    {input : Descriptor} {stdout stderr execError : PipeEnds}
    (hstdout : Disjoint (pipeHandles stdout) {.descriptor input})
    (hstderr : Disjoint (pipeHandles stderr) (pipeHandles stdout ∪ {.descriptor input}))
    (hexec : Disjoint (pipeHandles execError)
      (pipeHandles stderr ∪ (pipeHandles stdout ∪ {.descriptor input}))) :
    kernelHandles.Owns (launchHandles input stdout stderr execError)
      (launch limits workspace program n input stdout stderr execError) fun _ left => left = ∅ := by
  refine .grant (Set.empty_subset _) (fun _ => rfl) fun child _ => ?_
  cases child with
  | error description =>
      show kernelHandles.Owns (∅ ∪ _) _ _
      rw [Set.empty_union]
      exact @closeAll_owns input (.ok stdout) (.ok stderr) (.ok execError) _ hstdout hstderr hexec
  | ok child =>
      exact superviseChild_owns limits workspace n (apart_of_disjoint hstdout hstderr hexec) child

/-- **`run_isolated`** gives back what it takes, on every path. -/
theorem runIsolated_keeps (limits : SupervisionLimits) (workspace standardInput : String)
    (program : SandboxedProgram) (n : Nat) :
    kernelHandles.Keeps ∅ (runIsolated limits workspace standardInput program n) := by
  refine Owns.grant (Set.empty_subset _) (fun _ => rfl) fun input _ => ?_
  cases input with
  | none => exact .ret (Set.union_empty _)
  | some input =>
      show kernelHandles.Owns ({.descriptor input} ∪ ∅) _ _
      rw [Set.union_empty]
      refine makePipe_owns.bind fun stdout _ h => ?_
      obtain ⟨rfl, hstdout⟩ := h
      refine makePipe_owns.bind fun stderr _ h => ?_
      obtain ⟨rfl, hstderr⟩ := h
      refine makePipe_owns.bind fun execError _ h => ?_
      obtain ⟨rfl, hexec⟩ := h
      cases stdout with
      | error _ => exact closeAll_owns hstdout hstderr hexec
      | ok stdout =>
          cases stderr with
          | error _ => exact closeAll_owns hstdout hstderr hexec
          | ok stderr =>
              cases execError with
              | error _ => exact closeAll_owns hstdout hstderr hexec
              | ok execError => exact launch_owns limits workspace program n hstdout hstderr hexec

/-! ## Files -/

theorem writeContents_keeps (file : Descriptor) (n : Nat) (contents : Bytes) :
    kernelHandles.Keeps {.descriptor file} (writeContents file n contents) := by
  induction n generalizing contents with
  | zero =>
      cases contents with
      | nil => exact .ret rfl
      | cons byte contents => exact .raise
  | succ n ih =>
      cases contents with
      | nil => exact .ret rfl
      | cons byte contents =>
          refine Owns.use Set.Subset.rfl (fun _ => rfl) (fun _ => rfl) fun reply => ?_
          cases reply with
          | written count => exact ih _
          | interrupted => exact ih _
          | failed description => exact .ret rfl

theorem writeFile_keeps (path : String) (contents : Bytes) (n : Nat) :
    kernelHandles.Keeps ∅ (writeFile path contents n) := by
  refine Owns.grant (Set.empty_subset _) (fun _ => rfl) fun file _ => ?_
  cases file with
  | error description => exact .ret (Set.union_empty _)
  | ok file =>
      show kernelHandles.Owns ({.descriptor file} ∪ ∅) _ _
      rw [Set.union_empty]
      refine (writeContents_keeps file n contents).bind fun error => ?_
      cases error with
      | some description => exact close_owns rfl (.ret Set.sdiff_self)
      | none =>
          refine .use Set.Subset.rfl (fun _ => rfl) (fun _ => rfl) fun error => close_owns rfl ?_
          cases error with
          | some description => exact .ret Set.sdiff_self
          | none => exact .ret Set.sdiff_self

theorem isOwnFile_keeps (file : Descriptor) : kernelHandles.Keeps {.descriptor file} (isOwnFile file) := by
  refine Owns.use Set.Subset.rfl (fun _ => rfl) (fun _ => rfl) fun status => ?_
  cases status with
  | none => exact .ret rfl
  | some status =>
      show kernelHandles.Owns _ (if status.regular then _ else _) _
      split
      · exact .use (Set.empty_subset _) (fun _ => rfl) (fun _ => rfl) fun _ => .ret rfl
      · exact .ret rfl

theorem protectCompiledExecutable_keeps (path : String) :
    kernelHandles.Keeps ∅ (protectCompiledExecutable path) := by
  refine Owns.grant (Set.empty_subset _) (fun _ => rfl) fun file _ => ?_
  cases file with
  | none => exact .ret (Set.union_empty _)
  | some file =>
      show kernelHandles.Owns ({.descriptor file} ∪ ∅) _ _
      rw [Set.union_empty]
      refine (isOwnFile_keeps file).bind fun own => ?_
      split
      · refine .use Set.Subset.rfl (fun _ => rfl) (fun _ => rfl) fun error => close_owns rfl ?_
        cases error with
        | some description => exact .ret Set.sdiff_self
        | none => exact .ret Set.sdiff_self
      · exact close_owns rfl (.ret Set.sdiff_self)

theorem prepareRoot_keeps (root : String) (runtimeClosure : List String) :
    kernelHandles.Keeps ∅ (prepareRoot root runtimeClosure) := by
  have hmounts : kernelHandles.Keeps ∅ (prepareMounts root runtimeClosure) := by
    induction runtimeClosure with
    | nil => exact .ret rfl
    | cons path paths ih =>
        refine Owns.use Set.Subset.rfl (fun _ => rfl) (fun _ => rfl) fun created => ?_
        cases created with
        | true => exact ih
        | false => exact .ret rfl
  refine Owns.use Set.Subset.rfl (fun _ => rfl) (fun _ => rfl) fun created => ?_
  cases created with
  | true => exact hmounts
  | false => exact .ret rfl

/-! ## `NsJailPythonExecutor::run` -/

theorem orReturn_keeps {α β : Type} {step : KernelCall (Except ExecutorError α)}
    {next : α → KernelCall (Except ExecutorError β)} (hstep : kernelHandles.Keeps held step)
    (hnext : ∀ a, kernelHandles.Keeps held (next a)) : kernelHandles.Keeps held (orReturn step next) := by
  refine Keeps.bind hstep fun result => ?_
  cases result with
  | error error => exact .ret rfl
  | ok a => exact hnext a

theorem runInWorkspace_keeps (config : Config) (request : ExecutionRequest) (workspace : String) (n : Nat) :
    kernelHandles.Keeps ∅ (runInWorkspace config request workspace n) := by
  have hexecute : ∀ runtimeClosure : List String,
      kernelHandles.Keeps ∅ (executeSubmission config request workspace runtimeClosure n) :=
    fun _ => runIsolated_keeps _ _ _ _ _
  refine orReturn_keeps ?_ fun runtimeClosure => ?_
  · exact Owns.use Set.Subset.rfl (fun _ => rfl) (fun _ => rfl) fun _ => .ret rfl
  refine orReturn_keeps ?_ fun _ => ?_
  · exact Owns.use Set.Subset.rfl (fun _ => rfl) (fun _ => rfl) fun _ => .ret rfl
  refine orReturn_keeps (prepareRoot_keeps _ _) fun _ => ?_
  refine orReturn_keeps (writeFile_keeps _ _ _) fun _ => ?_
  refine orReturn_keeps (writeFile_keeps _ _ _) fun _ => ?_
  split
  · refine orReturn_keeps (writeFile_keeps _ _ _) fun _ => ?_
    refine orReturn_keeps (runIsolated_keeps _ _ _ _ _) fun result => ?_
    cases NsJailPythonExecutor.compilationResult result with
    | some result => exact .ret rfl
    | none => exact orReturn_keeps (protectCompiledExecutable_keeps _) fun _ => hexecute runtimeClosure
  · exact hexecute runtimeClosure

/-- `run` holds nothing in the end, but what is left of a workspace that could not be removed. -/
theorem run_owns (config : Config) (request : ExecutionRequest) (n : Nat) :
    kernelHandles.Owns ∅ (run config request n)
      fun _ left => left = ∅ ∨ ∃ path, left = {.leftover path} := by
  unfold run
  split
  · refine Owns.grant (Set.empty_subset _) (fun _ => rfl) fun workspace _ => ?_
    cases workspace with
    | error description => exact .ret (Or.inl (Set.union_empty _))
    | ok workspace =>
        show kernelHandles.Owns ({.directory workspace} ∪ ∅) _ _
        rw [Set.union_empty]
        refine (Keeps.anywhere (runInWorkspace_keeps config request workspace n) _).bind fun result => ?_
        refine .call Set.Subset.rfl fun removed _ => ?_
        have hgone : ({.directory workspace} : Set KernelHandle) \ {.directory workspace} = ∅ := Set.sdiff_self
        cases removed with
        -- `remove_all` has removed the workspace
        | true =>
            refine .ret (Or.inl ?_)
            show ({.directory workspace} : Set KernelHandle) \ {.directory workspace} ∪ ∅ = ∅
            rw [hgone, Set.union_empty]
        | false =>
            refine .ret (Or.inr ⟨workspace, ?_⟩)
            show ({.directory workspace} : Set KernelHandle) \ {.directory workspace} ∪ {.leftover workspace} = _
            rw [hgone, Set.empty_union]
  · exact .ret (Or.inl rfl)

/-- Only a removal that has failed leaves something of a directory. -/
theorem failed_of_leftover {l : List (Exchange Kernel)} {path : String}
    (h : .leftover path ∈ kernelHandles.heldAfter l) : ⟨.removeAll path, false⟩ ∈ l := by
  rcases granted_of_after h with h | ⟨x, hx, hgrants⟩
  · cases h
  · obtain ⟨request, reply⟩ := x
    cases request with
    | removeAll path' =>
        cases reply with
        | true => cases hgrants
        | false =>
            cases hgrants
            exact hx
    | mkdtemp | create | fork | pipe => cases reply <;> simp [kernelHandles] at hgrants
    | openRead | socketpair => cases reply <;> simp [kernelHandles] at hgrants
    | _ => cases hgrants

/-- **What a run takes it gives back**, the workspace if it can be removed. -/
theorem run_releases {χ σ : Type} {V : Service Kernel χ σ} {I : Set KernelHandle → σ → Prop}
    (hV : kernelHandles.Grants V I) {w : World χ σ} (hI : I ∅ w.state) (config : Config)
    (request : ExecutionRequest) (n : Nat) :
    (∀ l x l', (run config request n).log V w = l ++ x :: l' →
      kernelHandles.needs x.request ⊆ kernelHandles.heldAfter l) ∧
    ∀ result, ((run config request n).run V w).1 = .ok result →
      kernelHandles.heldAfter ((run config request n).log V w) = ∅ ∨
        ∃ path, ⟨.removeAll path, false⟩ ∈ (run config request n).log V w ∧
          kernelHandles.heldAfter ((run config request n).log V w) = {.leftover path} := by
  obtain ⟨hneeds, hleft⟩ := Handles.Owns.run hV (run_owns config request n) hI
  refine ⟨hneeds, fun result hresult => ?_⟩
  rcases hleft result hresult with h | ⟨path, h⟩
  · exact Or.inl h
  · exact Or.inr ⟨path, failed_of_leftover (h ▸ rfl), h⟩

end NsJail

/-! ## `IsolatedProcessExecutor::run` -/

namespace IsolatedProcess

open NsJail

theorem writeAll_keeps {file : Descriptor} (hfile : .descriptor file ∈ held) (n : Nat) (data : Bytes) :
    kernelHandles.Keeps held (writeAll file n data) := by
  induction n generalizing data with
  | zero =>
      cases data with
      | nil => exact .ret rfl
      | cons byte data => exact .raise
  | succ n ih =>
      cases data with
      | nil => exact .ret rfl
      | cons byte data =>
          refine Owns.use (Set.singleton_subset_iff.mpr hfile) (fun _ => rfl) (fun _ => rfl) fun reply => ?_
          cases reply with
          | written count => exact ih _
          | interrupted => exact ih _
          | failed description => exact .ret rfl

theorem readAll_keeps {file : Descriptor} (hfile : .descriptor file ∈ held) (n size : Nat) (output : Bytes) :
    kernelHandles.Keeps held (readAll file n size output) := by
  induction n generalizing size output with
  | zero =>
      cases size with
      | zero => exact .ret rfl
      | succ size => exact .raise
  | succ n ih =>
      cases size with
      | zero => exact .ret rfl
      | succ size =>
          refine Owns.use (Set.singleton_subset_iff.mpr hfile) (fun _ => rfl) (fun _ => rfl) fun reply => ?_
          cases reply with
          | data bytes => exact ih _ _
          | interrupted => exact ih _ _
          | endOfFile | failed => exact .ret rfl

theorem sendMessage_keeps {file : Descriptor} (hfile : .descriptor file ∈ held)
    (writeString : Json → Bytes) (n : Nat) (value : Json) :
    kernelHandles.Keeps held (sendMessage writeString file n value) := by
  unfold sendMessage
  dsimp only
  split
  · exact .ret rfl
  · refine Keeps.bind (writeAll_keeps hfile n _) fun sent => ?_
    cases sent with
    | true => exact writeAll_keeps hfile n _
    | false => exact .ret rfl

theorem receiveMessage_keeps {file : Descriptor} (hfile : .descriptor file ∈ held)
    (parse : Bytes → Except Exception (Option Json)) (n : Nat) :
    kernelHandles.Keeps held (receiveMessage parse file n) := by
  refine Keeps.bind (readAll_keeps hfile n 4 []) fun header => ?_
  cases header with
  | none => exact .ret rfl
  | some bytes =>
      dsimp only
      split
      · exact .ret rfl
      · refine Keeps.bind (readAll_keeps hfile n _ []) fun body => ?_
        cases body with
        | none => exact .ret rfl
        | some body =>
            dsimp only
            cases parse body with
            | error exception => exact .ret rfl
            | ok parsed =>
                cases parsed with
                | none => exact .ret rfl
                | some value =>
                    dsimp only
                    split
                    · exact .ret rfl
                    · exact .ret rfl

theorem waitForSupervisor_owns (child : ProcessId) (n : Nat) :
    kernelHandles.Owns {.child child} (waitForSupervisor child n) fun _ left => left = ∅ := by
  induction n with
  | zero => exact .raise
  | succ n ih =>
      refine .call Set.Subset.rfl fun reply _ => ?_
      cases reply with
      | reaped status =>
          refine .ret ?_
          show ({.child child} : Set KernelHandle) \ {.child child} ∪ ∅ = ∅
          rw [Set.sdiff_self, Set.union_empty]
      | failed =>
          refine .ret ?_
          show ({.child child} : Set KernelHandle) \ {.child child} ∪ ∅ = ∅
          rw [Set.sdiff_self, Set.union_empty]
      | interrupted =>
          show kernelHandles.Owns (({.child child} : Set KernelHandle) \ ∅ ∪ ∅) _ _
          rw [Set.sdiff_empty, Set.union_empty]
          exact ih

/-- Where the request was not sent. -/
def unsent : Except Exception (ExecutorResult String) :=
  .ok (.error ⟨"Could not send work to the judge worker"⟩)

/-- What a conversation, and with it `run`, may leave: nothing, a worker that was killed before the request
    was sent, or the channel and the worker whose response the parser has thrown at. -/
inductive Left : Except Exception (ExecutorResult String) → Set KernelHandle → Prop where
  | nothing {result : Except Exception (ExecutorResult String)} : Left result ∅
  | killed (child : ProcessId) : Left unsent {.child child}
  | thrown (exception : Exception) (channel : Descriptor) (child : ProcessId) :
      Left (.error exception) {.descriptor channel, .child child}

/-- With a result, nothing is left. -/
theorem Left.of_result {execution : ExecutionResult String} {left : Set KernelHandle}
    (h : Left (.ok (.ok execution)) left) : left = ∅ := by
  cases h with
  | nothing => rfl

theorem converse_owns (config : Config) (request : ExecutionRequest) (channel : Descriptor)
    (child : ProcessId) (n : Nat) :
    kernelHandles.Owns {.descriptor channel, .child child} (converse config request channel child n) Left := by
  have hchannel : KernelHandle.descriptor channel ∈
      ({.descriptor channel, .child child} : Set KernelHandle) := Or.inl rfl
  have hclosed : ({.descriptor channel, .child child} : Set KernelHandle) \ {.descriptor channel}
      = {.child child} := by
    ext h
    simp only [Set.mem_sdiff, Set.mem_insert_iff, Set.mem_singleton_iff]
    grind
  refine Keeps.bind (sendMessage_keeps hchannel config.writeString n _) fun sent => ?_
  cases sent with
  | true =>
      refine Keeps.bind (receiveMessage_keeps hchannel config.parse n) fun response => ?_
      cases response with
      -- thrown past `close` and `waitpid`: both are left
      | error exception => exact .ret (.thrown exception channel child)
      | ok response =>
          refine close_owns hchannel ?_
          rw [hclosed]
          refine (waitForSupervisor_owns child n).bind fun status left hleft => .ret ?_
          rw [hleft]
          exact .nothing
  -- the request was not sent: the worker is killed, and waited for once
  | false =>
      refine close_owns hchannel ?_
      rw [hclosed]
      refine .use Set.Subset.rfl (fun _ => rfl) (fun _ => rfl) fun _ => ?_
      refine .call Set.Subset.rfl fun reply _ => ?_
      cases reply with
      | interrupted =>
          refine .ret ?_
          show Left unsent (({.child child} : Set KernelHandle) \ ∅ ∪ ∅)
          rw [Set.sdiff_empty, Set.union_empty]
          exact .killed child
      | reaped _ | failed =>
          refine .ret ?_
          show Left unsent (({.child child} : Set KernelHandle) \ {.child child} ∪ ∅)
          rw [Set.sdiff_self, Set.union_empty]
          exact .nothing

theorem run_owns (config : Config) (request : ExecutionRequest) (n : Nat) :
    kernelHandles.Owns ∅ (run config request n) Left := by
  unfold run
  cases config.delegationError with
  | some error => exact .ret .nothing
  | none =>
      refine .grant (Set.empty_subset _) (fun _ => rfl) fun sockets _ => ?_
      cases sockets with
      | none =>
          refine .ret ?_
          show Left _ (∅ ∪ ∅)
          rw [Set.union_empty]
          exact .nothing
      | some sockets =>
          have hne : KernelHandle.descriptor sockets.first ≠ .descriptor sockets.second :=
            fun h => sockets.distinct (KernelHandle.descriptor.inj h)
          show kernelHandles.Owns ({.descriptor sockets.first, .descriptor sockets.second} ∪ ∅) _ _
          rw [Set.union_empty]
          refine .grant (Set.empty_subset _) (fun _ => rfl) fun child _ => ?_
          cases child with
          | error description =>
              show kernelHandles.Owns (∅ ∪ _) _ _
              rw [Set.empty_union]
              have hclosed : (({.descriptor sockets.first, .descriptor sockets.second} : Set KernelHandle) \
                  {.descriptor sockets.first}) \ {.descriptor sockets.second} = ∅ := by
                ext h
                simp only [Set.mem_sdiff, Set.mem_insert_iff, Set.mem_singleton_iff, Set.mem_empty_iff_false]
                tauto
              refine close_owns (Or.inl rfl) (close_owns ⟨Or.inr rfl, hne.symm⟩ (.ret ?_))
              rw [hclosed]
              exact .nothing
          | ok child =>
              refine close_owns (Or.inr (Or.inr rfl)) ?_
              have hheld : (kernelHandles.grants (.fork (.judgeWorker config.workerPath sockets.second
                  config.cgroupMount)) (.ok child) ∪ {.descriptor sockets.first, .descriptor sockets.second})
                  \ {.descriptor sockets.second} = {.descriptor sockets.first, .child child} := by
                ext h
                simp only [kernelHandles, Set.mem_sdiff, Set.mem_union, Set.mem_insert_iff,
                  Set.mem_singleton_iff]
                grind
              rw [hheld]
              exact converse_owns config request sockets.first child n

/-- What a run takes it gives back, except where the request was not sent or the parser has thrown. -/
theorem run_releases {χ σ : Type} {V : Service Kernel χ σ} {I : Set KernelHandle → σ → Prop}
    (hV : kernelHandles.Grants V I) {w : World χ σ} (hI : I ∅ w.state) (config : Config)
    (request : ExecutionRequest) (n : Nat) :
    (∀ l x l', (run config request n).log V w = l ++ x :: l' →
      kernelHandles.needs x.request ⊆ kernelHandles.heldAfter l) ∧
    ∀ result, ((run config request n).run V w).1 = .ok result →
      Left result (kernelHandles.heldAfter ((run config request n).log V w)) :=
  Handles.Owns.run hV (run_owns config request n) hI

end IsolatedProcess
end handles

/-! ## Both executors -/

/-- **What the executors take they give back.** Whatever the kernel answers, each call names what is held when
    it is made, and a run that returns holds nothing, except what is left of a workspace that could not be
    removed, and a worker that could not be talked to (`IsolatedProcess.Left`). -/
theorem executors_release {χ σ : Type} {V : Service Kernel χ σ} {I : Set KernelHandle → σ → Prop}
    (hV : kernelHandles.Grants V I) {w : World χ σ} (hI : I ∅ w.state) (config : NsJail.Config)
    (outer : IsolatedProcess.Config) (request : ExecutionRequest) (n : Nat) :
    ((∀ l x l', (NsJail.run config request n).log V w = l ++ x :: l' →
        kernelHandles.needs x.request ⊆ kernelHandles.heldAfter l) ∧
      ∀ result, ((NsJail.run config request n).run V w).1 = .ok result →
        kernelHandles.heldAfter ((NsJail.run config request n).log V w) = ∅ ∨
          ∃ path, ⟨.removeAll path, false⟩ ∈ (NsJail.run config request n).log V w ∧
            kernelHandles.heldAfter ((NsJail.run config request n).log V w) = {.leftover path}) ∧
    (∀ l x l', (IsolatedProcess.run outer request n).log V w = l ++ x :: l' →
        kernelHandles.needs x.request ⊆ kernelHandles.heldAfter l) ∧
      ∀ result, ((IsolatedProcess.run outer request n).run V w).1 = .ok result →
        IsolatedProcess.Left result
          (kernelHandles.heldAfter ((IsolatedProcess.run outer request n).log V w)) :=
  ⟨NsJail.run_releases hV hI config request n, IsolatedProcess.run_releases hV hI outer request n⟩

/-! ### A kernel that hands out the lowest free descriptor -/

/-- The lowest descriptor that is free, of a process that may have 16. -/
def lowestFree (s : List KernelHandle) : Option Descriptor :=
  (List.range' 3 13).find? fun file => decide (KernelHandle.descriptor file ∉ s)

theorem lowestFree_fresh {s : List KernelHandle} {file : Descriptor} (h : lowestFree s = some file) :
    KernelHandle.descriptor file ∉ s := by
  simpa using List.find?_some h

/-- The two lowest. -/
def lowestPair (s : List KernelHandle) : Option PipeEnds :=
  match lowestFree s with
  | none => none
  | some first =>
      match h : lowestFree (.descriptor first :: s) with
      | none => none
      | some other => some ⟨first, other, by
          have hfresh := lowestFree_fresh h
          simp only [List.mem_cons, KernelHandle.descriptor.injEq, not_or] at hfresh
          exact fun heq => hfresh.1 heq.symm⟩

theorem lowestPair_fresh {s : List KernelHandle} {ends : PipeEnds} (h : lowestPair s = some ends) :
    KernelHandle.descriptor ends.readEnd ∉ s ∧ KernelHandle.descriptor ends.writeEnd ∉ s := by
  unfold lowestPair at h
  split at h
  · cases h
  · rename_i first hfirst
    split at h
    · cases h
    · rename_i other hother
      cases h
      exact ⟨lowestFree_fresh hfirst, fun hmem => lowestFree_fresh hother (List.mem_cons_of_mem _ hmem)⟩

/-- A kernel with one child at a time, whose state is what is held. Its children run, print nothing and exit
    with 0; the worker responds with an object of four bytes. -/
def plainKernel : Service Kernel Unit (List KernelHandle)
  | .mkdtemp _, _, s =>
      if .directory "/tmp/algorithm-trainer-a" ∈ s then (.error "File exists", s)
      else (.ok "/tmp/algorithm-trainer-a", .directory "/tmp/algorithm-trainer-a" :: s)
  | .openRead _, _, s =>
      match lowestFree s with
      | none => (none, s)
      | some file => (some file, .descriptor file :: s)
  | .create _ _, _, s =>
      match lowestFree s with
      | none => (.error "Too many open files", s)
      | some file => (.ok file, .descriptor file :: s)
  | .pipe, _, s =>
      match lowestPair s with
      | none => (.error "Too many open files", s)
      | some ends => (.ok ends, .descriptor ends.readEnd :: .descriptor ends.writeEnd :: s)
  | .socketpair, _, s =>
      match lowestPair s with
      | none => (none, s)
      | some ends => (some ⟨ends.readEnd, ends.writeEnd, ends.distinct⟩,
          .descriptor ends.readEnd :: .descriptor ends.writeEnd :: s)
  | .fork _, _, s =>
      if .child 100 ∈ s then (.error "Resource temporarily unavailable", s)
      else (.ok 100, .child 100 :: s)
  | .removeAll path, _, s => (true, s.filter (· ≠ .directory path))
  | .close file, _, s => ((), s.filter (· ≠ .descriptor file))
  | .wait process, _, s => (.reaped (.exited 0), s.filter (· ≠ .child process))
  | .waitNoHang process, _, s => (some (.exited 0), s.filter (· ≠ .child process))
  | .readLines _, _, s => (some ["/nix/store/python"], s)
  | .createDirectories _, _, s => (true, s)
  | .write _ contents, _, s => (.written contents.length, s)
  | .fstat _, _, s => (some ⟨true, 0⟩, s)
  | .getuid, _, s => ((0 : Nat), s)
  | .fchmod _ _, _, s => (none, s)
  | .getFlags _, _, s => (some 0, s)
  | .setNonBlocking _ _, _, s => ((), s)
  | .poll _ _, _, s => ((), s)
  | .kill _ _, _, s => ((), s)
  | .read _, _, s => (.endOfFile, s)
  | .receive _ size, _, s => (.data (if size = 4 then encodedSize 5 else List.replicate size 32), s)
  | .readError _, _, s => (none, s)
  | .clock, _, s => ((0 : Nat), s)
  | .readBoundedFile _ _, _, s => (([] : Bytes), s)

section plain
variable {held : Set KernelHandle} {s : List KernelHandle}

theorem plain_unchanged (hs : ∀ h, h ∈ held ↔ h ∈ s) : Disjoint ∅ held ∧ ∀ h, h ∈ held \ ∅ ∪ ∅ ↔ h ∈ s := by
  refine ⟨Set.empty_disjoint held, fun h => ?_⟩
  rw [Set.sdiff_empty, Set.union_empty]
  exact hs h

theorem plain_gives (hs : ∀ h, h ∈ held ↔ h ∈ s) (given : KernelHandle) :
    Disjoint ∅ held ∧ ∀ h, h ∈ held \ {given} ∪ ∅ ↔ h ∈ s.filter (· ≠ given) := by
  refine ⟨Set.empty_disjoint held, fun h => ?_⟩
  rw [Set.union_empty, Set.mem_sdiff, Set.mem_singleton_iff, List.mem_filter, hs h, decide_eq_true_iff]

theorem plain_grants (hs : ∀ h, h ∈ held ↔ h ∈ s) {granted : KernelHandle} (hnew : granted ∉ s) :
    Disjoint {granted} held ∧ ∀ h, h ∈ held \ ∅ ∪ {granted} ↔ h ∈ granted :: s := by
  refine ⟨Set.disjoint_singleton_left.mpr fun h => hnew ((hs _).mp h), fun h => ?_⟩
  rw [Set.sdiff_empty, Set.mem_union, Set.mem_singleton_iff, List.mem_cons, hs h, or_comm]

theorem plain_grants_pair (hs : ∀ h, h ∈ held ↔ h ∈ s) {first other : KernelHandle} (hfirst : first ∉ s)
    (hother : other ∉ s) :
    Disjoint {first, other} held ∧ ∀ h, h ∈ held \ ∅ ∪ {first, other} ↔ h ∈ first :: other :: s := by
  refine ⟨Set.disjoint_left.mpr fun h hh hheld => ?_, fun h => ?_⟩
  · obtain rfl | rfl := hh
    · exact hfirst ((hs _).mp hheld)
    · exact hother ((hs _).mp hheld)
  · rw [Set.sdiff_empty, Set.mem_union, hs h, List.mem_cons, List.mem_cons]
    simp only [Set.mem_insert_iff, Set.mem_singleton_iff]
    tauto

end plain

theorem plainKernel_grants :
    kernelHandles.Grants plainKernel fun held s => ∀ h, h ∈ held ↔ h ∈ s := by
  intro held q c s _ hs
  cases q with
  | removeAll path => exact plain_gives hs _
  | close file => exact plain_gives hs _
  | wait process => exact plain_gives hs _
  | waitNoHang process => exact plain_gives hs _
  | mkdtemp _ | fork _ =>
      simp only [plainKernel]
      split
      · exact plain_unchanged hs
      · exact plain_grants hs ‹_›
  | create _ _ | openRead _ =>
      simp only [plainKernel]
      split
      · exact plain_unchanged hs
      · exact plain_grants hs (lowestFree_fresh ‹_›)
  | pipe | socketpair =>
      simp only [plainKernel]
      split
      · exact plain_unchanged hs
      · rename_i hpair
        obtain ⟨hfirst, hother⟩ := lowestPair_fresh hpair
        exact plain_grants_pair hs hfirst hother
  | _ => exact plain_unchanged hs

/-- A sandbox with paths of its own. -/
def plainSandbox : NsJail.Config :=
  ⟨"/nix/store/python", "python-closure", "/nix/store/cpp", "cpp-closure", 2000, 65536, 256, 2, 1⟩

/-- A worker whose response reads as that of a short program. -/
def plainWorker : IsolatedProcess.Config where
  writeString _ := [0]
  parse _ := .ok (some (.object (responseMembers (.ok threeResult))))
  workerPath := "judge-worker"
  cgroupMount := ""
  delegationError := none

/-- Every removal of this log has succeeded. -/
def allRemoved (l : List (Exchange Kernel)) : Bool :=
  l.all fun
    | ⟨.removeAll _, removed⟩ => removed
    | _ => true

/-- A program runs in the sandbox and ends, and a worker responds: nothing is left of them. -/
theorem executors_release_plain :
    kernelHandles.heldAfter
      ((NsJail.run plainSandbox ⟨"python", "p", ""⟩ 8).log plainKernel ⟨fun _ => (), []⟩) = ∅ ∧
    ((IsolatedProcess.run plainWorker ⟨"python", "p", ""⟩ 8).run plainKernel ⟨fun _ => (), []⟩).1
      = .ok (.ok (.ok threeResult)) ∧
    kernelHandles.heldAfter
      ((IsolatedProcess.run plainWorker ⟨"python", "p", ""⟩ 8).log plainKernel ⟨fun _ => (), []⟩) = ∅ := by
  obtain ⟨⟨-, inner⟩, -, outer⟩ := executors_release plainKernel_grants (w := ⟨fun _ => (), []⟩)
    (fun h => by simp) plainSandbox plainWorker ⟨"python", "p", ""⟩ 8
  have hresult : ((IsolatedProcess.run plainWorker ⟨"python", "p", ""⟩ 8).run plainKernel
      ⟨fun _ => (), []⟩).1 = .ok (.ok (.ok threeResult)) := rfl
  have hremoved : allRemoved ((NsJail.run plainSandbox ⟨"python", "p", ""⟩ 8).log plainKernel
      ⟨fun _ => (), []⟩) = true := rfl
  refine ⟨(inner _ rfl).resolve_right ?_, hresult, ?_⟩
  · rintro ⟨path, hmem, -⟩
    cases List.all_eq_true.mp hremoved _ hmem
  · exact (outer _ hresult).of_result

end AlgorithmTrainer
