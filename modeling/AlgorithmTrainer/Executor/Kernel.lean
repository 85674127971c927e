import AlgorithmTrainer.Executor.Channel
import AlgorithmTrainer.Executor.Execution
import AlgorithmTrainer.Lib.Ownership

/-!
# `Executor.Kernel` — the executors, system call by system call

`NsJailPythonExecutor::run`, `IsolatedProcessExecutor::run` and what they call, as programs over the system
calls that they make, in their order, with every close that a destructor makes. What the kernel answers is
open. A loop is given the number of turns it may take, and a program whose loop wants another is cut off there
(`Unfinished`); so what is said of these programs for every number holds at every moment of an execution, and
of its end.

The child of a `fork` is another process: what it is to run is part of the request.
-/

namespace AlgorithmTrainer

open Interaction

abbrev Descriptor := Nat
abbrev ProcessId := Nat

/-- The two ends of a pipe. -/
structure PipeEnds where
  readEnd : Descriptor
  writeEnd : Descriptor
  distinct : readEnd ≠ writeEnd

structure Sockets where
  first : Descriptor
  second : Descriptor
  distinct : first ≠ second

/-- What `write` returns. -/
inductive WriteReply where
  | written (count : Nat)
  /-- `EINTR`. -/
  | interrupted
  | failed (description : String)

/-- What `read` returns on a channel. -/
inductive Received where
  | data (bytes : Bytes)
  | endOfFile
  /-- `EINTR`. -/
  | interrupted
  | failed

/-- What `waitpid` returns where it blocks. -/
inductive WaitReply where
  | reaped (status : WaitStatus)
  /-- `EINTR`. -/
  | interrupted
  /-- There is no such child. -/
  | failed

/-- The part of `struct stat` that is looked at. -/
structure FileStatus where
  regular : Bool
  owner : Nat

/-- What the supervisor of a child is to run. -/
structure SandboxedProgram where
  runtimeClosure : List String
  executable : String
  arguments : List String
  wallTimeLimit : Milliseconds
  addressSpaceLimitMegabytes : Int
  cpuTimeLimitSeconds : Int
  processLimit : Int
  compiling : Bool

inductive ChildProgram where
  | nsjail (program : SandboxedProgram)
  | judgeWorker (path : String) (channel : Descriptor) (cgroupMount : String)

/-! ## System calls -/

/-- The calls of the executor: system calls, and the functions of the standard library that open and close a
    file by themselves. -/
inductive KernelRequest where
  | mkdtemp (pattern : String)
  /-- `remove_all`: whether the directory is gone, which the code does not ask. -/
  | removeAll (path : String)
  | readLines (path : String)
  | createDirectories (path : String)
  /-- `open` with `O_CREAT | O_EXCL`. -/
  | create (path : String) (mode : Nat)
  | openRead (path : String)
  | write (file : Descriptor) (contents : Bytes)
  | fstat (file : Descriptor)
  | getuid
  | fchmod (file : Descriptor) (mode : Nat)
  | close (file : Descriptor)
  | pipe
  | socketpair
  | fork (program : ChildProgram)
  | getFlags (file : Descriptor)
  /-- `F_SETFL` with `O_NONBLOCK`. -/
  | setNonBlocking (file : Descriptor) (flags : Int)
  | poll (files : List Descriptor) (timeout : Milliseconds)
  | read (file : Descriptor)
  | receive (file : Descriptor) (size : Nat)
  /-- The `read` of the error that a child reports. -/
  | readError (file : Descriptor)
  /-- The time since the clock was read last. -/
  | clock
  | kill (process : ProcessId) (signal : Signal)
  | waitNoHang (process : ProcessId)
  | wait (process : ProcessId)
  | readBoundedFile (path : String) (limit : Nat)

/-- What is returned, with the description of an error where the code passes it on. -/
abbrev KernelRequest.Reply : KernelRequest → Type
  | .mkdtemp _ => Except String String
  | .readLines _ => Option (List String)
  | .createDirectories _ | .removeAll _ => Bool
  | .create _ _ => Except String Descriptor
  | .openRead _ => Option Descriptor
  | .write _ _ => WriteReply
  | .fstat _ => Option FileStatus
  | .getuid => Nat
  | .fchmod _ _ => Option String
  | .pipe => Except String PipeEnds
  | .socketpair => Option Sockets
  | .fork _ => Except String ProcessId
  | .getFlags _ => Option Int
  | .read _ => ReadResult
  | .receive _ _ => Received
  | .readError _ => Option String
  | .clock => Milliseconds
  | .waitNoHang _ => Option WaitStatus
  | .wait _ => WaitReply
  | .readBoundedFile _ _ => Bytes
  | .close _ | .setNonBlocking _ _ | .poll _ _ | .kill _ _ => Unit

abbrev Kernel : Signature := ⟨KernelRequest, KernelRequest.Reply⟩

/-- A loop wants another turn than those it was given. -/
inductive Unfinished where
  | unfinished

abbrev KernelCall := Program Kernel Unfinished

/-- A system call. -/
def sys (q : KernelRequest) : KernelCall q.Reply := .ask (S := Kernel) q

/-! ## Handles -/

/-- What the kernel hands out, until it is given back. -/
inductive KernelHandle where
  | descriptor (file : Descriptor)
  /-- A child that was not waited for. -/
  | child (process : ProcessId)
  | directory (path : String)
  /-- What is left of a directory whose removal has failed. -/
  | leftover (path : String)
deriving DecidableEq

/-- What the calls do with handles. A directory is held until its removal is tried, and a child until it is
    reaped. `SIGTERM` is left out: the loop may send it to a child that it has reaped, and
    `quiet_after_reap_iff` says when. -/
def kernelHandles : Handles Kernel KernelHandle where
  needs
    | .removeAll path => {.directory path}
    | .write file _ | .fstat file | .fchmod file _ | .close file | .getFlags file
    | .setNonBlocking file _ | .read file | .receive file _ | .readError file => {.descriptor file}
    | .poll files _ => {h | ∃ file ∈ files, h = .descriptor file}
    | .kill process .kill | .waitNoHang process | .wait process => {.child process}
    | _ => ∅
  gives
    | .removeAll path, _ => {.directory path}
    | .close file, _ => {.descriptor file}
    | .waitNoHang process, some _ => {.child process}
    | .wait process, .reaped _ | .wait process, .failed => {.child process}
    | _, _ => ∅
  grants
    | .mkdtemp _, .ok path => {.directory path}
    | .removeAll path, false => {.leftover path}
    | .create _ _, .ok file => {.descriptor file}
    | .openRead _, some file => {.descriptor file}
    | .pipe, .ok ends => {.descriptor ends.readEnd, .descriptor ends.writeEnd}
    | .socketpair, some sockets => {.descriptor sockets.first, .descriptor sockets.second}
    | .fork _, .ok process => {.child process}
    | _, _ => ∅
  gives_needs q r := by
    cases q with
    | removeAll path => exact Set.Subset.rfl
    | close file => exact Set.Subset.rfl
    | waitNoHang process =>
        cases r with
        | none => exact Set.empty_subset _
        | some status => exact Set.Subset.rfl
    | wait process =>
        cases r with
        | interrupted => exact Set.empty_subset _
        | reaped _ | failed => exact Set.Subset.rfl
    | _ => exact Set.empty_subset _

/-! ## `run_isolated` -/

namespace NsJail

def supervisorPollMilliseconds : Milliseconds := 25
def maximumLogBytes : Nat := 64 * 1024
def writableFileMode : Nat := 0o600
def readOnlyFileMode : Nat := 0o400

/-- `make_pipe`. -/
def makePipe : KernelCall (Except ExecutorError PipeEnds) := do
  let ends ← sys .pipe
  match ends with
  | .error description => pure (.error ⟨"Could not create executor pipe: " ++ description⟩)
  | .ok ends => pure (.ok ends)

/-- The destructor of a `FileDescriptor`. -/
def closeFile (file : Descriptor) : KernelCall Unit := sys (.close file)

/-- The destructor of a `Pipe`: its members are destroyed in reverse order. -/
def closePipe (ends : PipeEnds) : KernelCall Unit := do
  closeFile ends.writeEnd
  closeFile ends.readEnd

/-- The destructor of what `make_pipe` returns. -/
def closeMade : Except ExecutorError PipeEnds → KernelCall Unit
  | .ok ends => closePipe ends
  | .error _ => pure ()

/-- `set_non_blocking`. -/
def setNonBlocking (file : Descriptor) : KernelCall Unit := do
  let flags ← sys (.getFlags file)
  match flags with
  | some flags => sys (.setNonBlocking file flags)
  | none => pure ()

/-- `drain`. -/
def drain (outputLimit : Nat) (file : Descriptor) : Nat → Pipe → Output → KernelCall (Pipe × Output)
  | 0, _, _ => throw .unfinished
  | n + 1, pipe, output => do
      let read ← sys (.read file)
      match read with
      | .data chunk =>
          let size := chunk.bytes.length
          let remaining := if output.total < outputLimit then outputLimit - output.total else 0
          let total := output.total + size
          drain outputLimit file n
            { pipe with text := pipe.text ++ chunk.bytes.take (min size remaining) }
            ⟨total, output.limitExceeded || decide (outputLimit < total)⟩
      | .endOfFile => do
          closeFile file
          pure ({ pipe with isOpen := false }, output)
      | .interrupted => drain outputLimit file n pipe output
      | .wouldBlock => pure (pipe, output)
      | .failed => do
          closeFile file
          pure ({ pipe with isOpen := false }, output)

/-- A pipe is drained if it is open. -/
def drainOpen (limits : SupervisionLimits) (file : Descriptor) (n : Nat) (pipe : Pipe) (output : Output) :
    KernelCall (Pipe × Output) :=
  if pipe.isOpen then drain limits.outputLimit file n pipe output else pure (pipe, output)

/-- The read ends that the loop polls: one that is closed is `-1`, which `poll` ignores. -/
def polled (stdout stderr : Descriptor) (s : Supervision) : List Descriptor :=
  (if s.stdout.isOpen then [stdout] else []) ++ if s.stderr.isOpen then [stderr] else []

/-- The variables after both pipes are drained, and the clock is read. -/
def received (s : Supervision) (stdout stderr : Pipe) (output : Output) (elapsed : Milliseconds) :
    Supervision :=
  { s with stdout, stderr, output, clock := s.clock + elapsed }

/-- A signal that is sent on a condition. -/
def killIf (condition : Bool) (process : ProcessId) (signal : Signal) : KernelCall Unit :=
  if condition then sys (.kill process signal) else pure ()

/-- The `waitpid` at the end of an iteration. -/
def waitIfRunning (process : ProcessId) (s : Supervision) : KernelCall (Option WaitStatus) :=
  if s.supervisorExited then pure none else sys (.waitNoHang process)

/-- The supervision loop. -/
def supervise (limits : SupervisionLimits) (stdout stderr : Descriptor) (process : ProcessId) :
    Nat → Supervision → KernelCall Supervision
  | 0, _ => throw .unfinished
  | n + 1, s =>
      if s.running then do
        sys (.poll (polled stdout stderr s) supervisorPollMilliseconds)
        let (out, output) ← drainOpen limits stdout n s.stdout s.output
        let (err, output) ← drainOpen limits stderr n s.stderr output
        let elapsed ← sys .clock
        killIf (received s out err output elapsed).mustTerminate process .terminate
        let requested := (received s out err output elapsed).requestTermination
        killIf requested.mustKill process .kill
        let waited ← waitIfRunning process requested
        supervise limits stdout stderr process n (requested.reap waited)
      else pure s

/-- `wait_for_supervisor`. -/
def waitForSupervisor (process : ProcessId) : Nat → KernelCall WaitStatus
  | 0 => throw .unfinished
  | n + 1 => do
      let reply ← sys (.wait process)
      match reply with
      | .reaped status => pure status
      | .interrupted => waitForSupervisor process n
      | .failed => pure (.exited 0)

/-- A read end that the loop has not closed is closed by its destructor. -/
def closeOpen (pipe : Pipe) (file : Descriptor) : KernelCall Unit :=
  if pipe.isOpen then closeFile file else pure ()

/-- `run_isolated` after the `fork`, in the parent. -/
def superviseChild (limits : SupervisionLimits) (workspace : String) (n : Nat) (input : Descriptor)
    (stdout stderr execError : PipeEnds) (child : ProcessId) : KernelCall (ExecutorResult Bytes) := do
  closeFile input
  closeFile stdout.writeEnd
  closeFile stderr.writeEnd
  closeFile execError.writeEnd
  setNonBlocking stdout.readEnd
  setNonBlocking stderr.readEnd
  let now ← sys .clock
  let s ← supervise limits stdout.readEnd stderr.readEnd child n (.start limits now)
  let status ← if s.supervisorExited then pure s.status else waitForSupervisor child n
  let s := { s with status }
  let error ← sys (.readError execError.readEnd)
  let result ← match error with
    | some description => pure (finish (some description) [] s)
    | none => do
        let log ← sys (.readBoundedFile (workspace ++ "/nsjail.log") maximumLogBytes)
        pure (finish none log s)
  closeFile execError.readEnd
  closeOpen s.stderr stderr.readEnd
  closeOpen s.stdout stdout.readEnd
  pure result

/-- `run_isolated` after the pipes are made. -/
def launch (limits : SupervisionLimits) (workspace : String) (program : SandboxedProgram) (n : Nat)
    (input : Descriptor) (stdout stderr execError : PipeEnds) : KernelCall (ExecutorResult Bytes) := do
  let child ← sys (.fork (.nsjail program))
  match child with
  | .error description => do
      closePipe execError
      closePipe stderr
      closePipe stdout
      closeFile input
      pure (.error ⟨"Could not launch NsJail supervisor: " ++ description⟩)
  | .ok child => superviseChild limits workspace n input stdout stderr execError child

/-- `run_isolated`. -/
def runIsolated (limits : SupervisionLimits) (workspace standardInput : String)
    (program : SandboxedProgram) (n : Nat) : KernelCall (ExecutorResult Bytes) := do
  let input ← sys (.openRead standardInput)
  match input with
  | none => pure (.error ⟨"Could not open executor input"⟩)
  | some input => do
      let stdout ← makePipe
      let stderr ← makePipe
      let execError ← makePipe
      match stdout, stderr, execError with
      | .ok stdout, .ok stderr, .ok execError =>
          launch limits workspace program n input stdout stderr execError
      | stdout, stderr, execError => do
          closeMade execError
          closeMade stderr
          closeMade stdout
          closeFile input
          pure (.error ⟨"Could not establish executor communication pipes"⟩)

/-! ## Files -/

/-- The loop of `write_file`: the description of an error, if there was one. -/
def writeContents (file : Descriptor) : Nat → Bytes → KernelCall (Option String)
  | _, [] => pure none
  | 0, _ :: _ => throw .unfinished
  | n + 1, byte :: contents => do
      let reply ← sys (.write file (byte :: contents))
      match reply with
      | .written count => writeContents file n ((byte :: contents).drop count)
      | .interrupted => writeContents file n (byte :: contents)
      | .failed description => pure (some description)

/-- `write_file`. -/
def writeFile (path : String) (contents : Bytes) (n : Nat) : KernelCall (Except ExecutorError Unit) := do
  let file ← sys (.create path writableFileMode)
  match file with
  | .error description => pure (AlgorithmTrainer.writeFile (some (.create, description)))
  | .ok file => do
      let error ← writeContents file n contents
      match error with
      | some description => do
          closeFile file
          pure (AlgorithmTrainer.writeFile (some (.write, description)))
      | none => do
          let error ← sys (.fchmod file readOnlyFileMode)
          closeFile file
          match error with
          | some description => pure (AlgorithmTrainer.writeFile (some (.protect, description)))
          | none => pure (AlgorithmTrainer.writeFile none)

/-- It is a regular file of the service user. -/
def isOwnFile (file : Descriptor) : KernelCall Bool := do
  let status ← sys (.fstat file)
  match status with
  | none => pure false
  | some status =>
      if status.regular then do
        let user ← sys .getuid
        pure (status.owner == user)
      else pure false

/-- `protect_compiled_executable`. -/
def protectCompiledExecutable (path : String) : KernelCall (Except ExecutorError Unit) := do
  let file ← sys (.openRead path)
  match file with
  | none => pure (AlgorithmTrainer.protectCompiledExecutable (some .inspect))
  | some file => do
      let own ← isOwnFile file
      if own then do
        let error ← sys (.fchmod file 0o500)
        closeFile file
        match error with
        | some _ => pure (AlgorithmTrainer.protectCompiledExecutable (some .protect))
        | none => pure (AlgorithmTrainer.protectCompiledExecutable none)
      else do
        closeFile file
        pure (AlgorithmTrainer.protectCompiledExecutable (some .inspect))

/-- The mounts of the runtime closure: a store path is below the root what it is below `/`. -/
def prepareMounts (root : String) : List String → KernelCall (Except ExecutorError Unit)
  | [] => pure (.ok ())
  | path :: paths => do
      let created ← sys (.createDirectories (root ++ path))
      if created then prepareMounts root paths else pure (.error ⟨"Could not prepare runtime mount"⟩)

/-- `prepare_root`. -/
def prepareRoot (root : String) (runtimeClosure : List String) : KernelCall (Except ExecutorError Unit) := do
  let created ← sys (.createDirectories (root ++ "/workspace"))
  if created then prepareMounts root runtimeClosure
  else pure (.error ⟨"Could not prepare sandbox workspace mount"⟩)

/-! ## `NsJailPythonExecutor::run` -/

/-- The configuration, without what only the child uses. -/
structure Config where
  pythonPath : String
  pythonRuntimeClosureManifest : String
  cppCompilerPath : String
  cppRuntimeClosureManifest : String
  wallTimeLimit : Milliseconds
  outputLimitBytes : Nat
  addressSpaceLimitMegabytes : Int
  cpuTimeLimitSeconds : Int
  processLimit : Int

def Config.limits (config : Config) : SupervisionLimits := ⟨config.outputLimitBytes, config.wallTimeLimit⟩

/-- A step whose error `run` returns. -/
def orReturn {α β : Type} (step : KernelCall (Except ExecutorError α))
    (next : α → KernelCall (Except ExecutorError β)) : KernelCall (Except ExecutorError β) := do
  let result ← step
  match result with
  | .error error => pure (.error error)
  | .ok a => next a

def compiler (config : Config) (runtimeClosure : List String) : SandboxedProgram where
  runtimeClosure
  executable := config.cppCompilerPath
  arguments := ["-std=c++20", "-O2", "-pipe", "-o", "/workspace/submission", "/workspace/submission.cpp"]
  wallTimeLimit := 15000
  addressSpaceLimitMegabytes := 1024
  cpuTimeLimitSeconds := 12
  processLimit := 32
  compiling := true

/-- The submission as it is executed. -/
def submission (config : Config) (request : ExecutionRequest) (runtimeClosure : List String) :
    SandboxedProgram where
  runtimeClosure
  executable := if request.language == "python" then config.pythonPath else "/workspace/submission"
  arguments := if request.language == "python" then ["-I", "-B", "/workspace/submission.py"] else []
  wallTimeLimit := config.wallTimeLimit
  addressSpaceLimitMegabytes := config.addressSpaceLimitMegabytes
  cpuTimeLimitSeconds := config.cpuTimeLimitSeconds
  processLimit := config.processLimit
  compiling := false

/-- The execution, which is the last step of `run`. -/
def executeSubmission (config : Config) (request : ExecutionRequest) (workspace : String)
    (runtimeClosure : List String) (n : Nat) : KernelCall (ExecutorResult Bytes) :=
  runIsolated config.limits workspace (workspace ++ "/work/stdin")
    (submission config request runtimeClosure) n

/-- The compilation of a C++ submission, and its execution. -/
def compileAndExecute (config : Config) (request : ExecutionRequest) (workspace : String)
    (runtimeClosure : List String) (n : Nat) : KernelCall (ExecutorResult Bytes) :=
  orReturn (writeFile (workspace ++ "/work/compile-stdin") [] n) fun _ =>
  orReturn (runIsolated (compileLimits config.limits) workspace (workspace ++ "/work/compile-stdin")
    (compiler config runtimeClosure) n) fun result =>
  match NsJailPythonExecutor.compilationResult result with
  | some result => pure (.ok result)
  | none =>
      orReturn (protectCompiledExecutable (workspace ++ "/work/submission")) fun _ =>
      executeSubmission config request workspace runtimeClosure n

/-- The manifest of the language is read, and checked. -/
def readClosure (config : Config) (request : ExecutionRequest) :
    KernelCall (Except ExecutorError (List String)) := do
  let lines ← sys (.readLines (if request.language == "python" then config.pythonRuntimeClosureManifest
    else config.cppRuntimeClosureManifest))
  pure (readRuntimeClosure lines)

def createWork (workspace : String) : KernelCall (Except ExecutorError Unit) := do
  let created ← sys (.createDirectories (workspace ++ "/work"))
  pure (NsJailPythonExecutor.require created "Could not prepare executor workspace")

/-- The name of the file that the source is written to. -/
def sourceName (request : ExecutionRequest) : String :=
  if request.language == "python" then "submission.py" else "submission.cpp"

/-- `run` in its workspace. -/
def runInWorkspace (config : Config) (request : ExecutionRequest) (workspace : String) (n : Nat) :
    KernelCall (ExecutorResult Bytes) :=
  orReturn (readClosure config request) fun runtimeClosure =>
  orReturn (createWork workspace) fun _ =>
  orReturn (prepareRoot (workspace ++ "/root") runtimeClosure) fun _ =>
  orReturn (writeFile (workspace ++ "/work/" ++ sourceName request) (utf8 request.sourceCode) n) fun _ =>
  orReturn (writeFile (workspace ++ "/work/stdin") (utf8 request.standardInput) n) fun _ =>
  if request.language == "cpp" then compileAndExecute config request workspace runtimeClosure n
  else executeSubmission config request workspace runtimeClosure n

/-- `NsJailPythonExecutor::run`: the workspace is removed when `run` is left. -/
def run (config : Config) (request : ExecutionRequest) (n : Nat) : KernelCall (ExecutorResult Bytes) :=
  if request.language == "python" || request.language == "cpp" then do
    let workspace ← sys (.mkdtemp "/tmp/algorithm-trainer-XXXXXX")
    match workspace with
    | .error description => pure (.error ⟨"Could not create an isolated workspace: " ++ description⟩)
    | .ok workspace => do
        let result ← runInWorkspace config request workspace n
        let _ ← sys (.removeAll workspace)
        pure result
  else pure (.error ⟨"Executor supports only Python and C++"⟩)

end NsJail

/-! ## `IsolatedProcessExecutor::run` -/

namespace IsolatedProcess

/-- `write_all`. -/
def writeAll (file : Descriptor) : Nat → Bytes → KernelCall Bool
  | _, [] => pure true
  | 0, _ :: _ => throw .unfinished
  | n + 1, byte :: data => do
      let reply ← sys (.write file (byte :: data))
      match reply with
      | .written count => writeAll file n ((byte :: data).drop count)
      | .interrupted => writeAll file n (byte :: data)
      | .failed _ => pure false

/-- `read_all`, where `output` has been read. -/
def readAll (file : Descriptor) : Nat → Nat → Bytes → KernelCall (Option Bytes)
  | _, 0, output => pure (some output)
  | 0, _ + 1, _ => throw .unfinished
  | n + 1, size + 1, output => do
      let reply ← sys (.receive file (size + 1))
      match reply with
      | .data bytes => readAll file n (size + 1 - bytes.length) (output ++ bytes)
      | .endOfFile => pure none
      | .interrupted => readAll file n (size + 1) output
      | .failed => pure none

/-- `send_message`. -/
def sendMessage (writeString : Json → Bytes) (file : Descriptor) (n : Nat) (value : Json) :
    KernelCall Bool := do
  let body := writeString value
  if maximumMessageSize < body.length then pure false
  else
    let sent ← writeAll file n (encodedSize body.length)
    if sent then writeAll file n body else pure false

/-- `receive_message`, or what the parser throws: it gives up a text that is nested too deeply. -/
def receiveMessage (parse : Bytes → Except Exception (Option Json)) (file : Descriptor) (n : Nat) :
    KernelCall (Except Exception (Except String Json)) := do
  let header ← readAll file n 4 []
  match header with
  | none => pure (.ok (.error "Judge worker closed its response channel"))
  | some bytes =>
      let size := decodedSize bytes
      if size = 0 ∨ maximumMessageSize < size then
        pure (.ok (.error "Judge worker returned an invalid response size"))
      else do
        let body ← readAll file n size []
        match body with
        | none => pure (.ok (.error "Judge worker returned a truncated response"))
        | some body =>
            match parse body with
            | .error exception => pure (.error exception)
            | .ok none => pure (.ok (.error "Judge worker returned malformed JSON"))
            | .ok (some value) =>
                if value.isObject then pure (.ok (.ok value))
                else pure (.ok (.error "Judge worker returned malformed JSON"))

/-- The members, with the JSON library. -/
structure Config where
  writeString : Json → Bytes
  parse : Bytes → Except Exception (Option Json)
  workerPath : String
  cgroupMount : String
  delegationError : Option String

/-- The request is sent, and the response received. -/
def converse (config : Config) (request : ExecutionRequest) (channel : Descriptor) (child : ProcessId)
    (n : Nat) : KernelCall (Except Exception (ExecutorResult String)) := do
  let sent ← sendMessage config.writeString channel n (requestPayload request)
  if sent then
    let response ← receiveMessage config.parse channel n
    match response with
    -- neither the channel nor the worker has a destructor
    | .error exception => pure (.error exception)
    | .ok response =>
        NsJail.closeFile channel
        let status ← NsJail.waitForSupervisor child n
        pure (IsolatedProcessExecutor.result response status)
  else
    NsJail.closeFile channel
    sys (.kill child .kill)
    -- unlike the other one, this `waitpid` is not repeated where it is interrupted
    let _ ← sys (.wait child)
    pure (.ok (.error ⟨"Could not send work to the judge worker"⟩))

/-- `IsolatedProcessExecutor::run`. What the JSON library throws of a response that was parsed comes after
    everything is given back. -/
def run (config : Config) (request : ExecutionRequest) (n : Nat) :
    KernelCall (Except Exception (ExecutorResult String)) :=
  match config.delegationError with
  | some error => pure (.ok (.error ⟨error⟩))
  | none => do
      let sockets ← sys .socketpair
      match sockets with
      | none => pure (.ok (.error ⟨"Could not create the judge worker channel"⟩))
      | some sockets => do
          let child ← sys (.fork (.judgeWorker config.workerPath sockets.second config.cgroupMount))
          match child with
          | .error _ => do
              NsJail.closeFile sockets.first
              NsJail.closeFile sockets.second
              pure (.ok (.error ⟨"Could not launch the judge worker"⟩))
          | .ok child => do
              NsJail.closeFile sockets.second
              converse config request sockets.first child n

end IsolatedProcess

end AlgorithmTrainer
