import AlgorithmTrainer.Executor.Message
import AlgorithmTrainer.Executor.Supervisor

/-!
# `Executor.Channel` — `IsolatedProcessExecutor::run` and the judge worker

The backend sends a request to the judge worker through a socket, and the worker sends back what its executor
returned. Either side reads and writes in loops over partial transfers, and the worker may die at any
time: what it sent by then is a part of its message from the beginning.

`executor_response` says what arrives of a response. `conversation` is both directions together.
-/

namespace AlgorithmTrainer

open Transfer

/-! ## Receiving -/

/-- `receive_message`, where the other end sends `stream` before it closes the channel. -/
def receiveMessage (parse : Bytes → Option Json) (schedule : Schedule) (stream : Bytes) :
    Except String Json :=
  let header := readAll schedule 4 stream
  match header.data with
  | none => .error "Judge worker closed its response channel"
  | some bytes =>
      let size := decodedSize bytes
      if size = 0 ∨ maximumMessageSize < size then
        .error "Judge worker returned an invalid response size"
      else
        match (readAll header.schedule size header.stream).data with
        | none => .error "Judge worker returned a truncated response"
        | some body =>
            match parse body with
            | none => .error "Judge worker returned malformed JSON"
            | some value =>
                if value.isObject then .ok value
                else .error "Judge worker returned malformed JSON"

section receiving
variable {parse : Bytes → Option Json} {schedule : Schedule} {body stream : Bytes} {value : Json}

theorem length_encodedSize (n : Nat) : (encodedSize n).length = 4 := rfl

/-- A message of an admitted size arrives. -/
theorem receiveMessage_frame (h : Attempt.failed ∉ schedule) (hne : body ≠ [])
    (hfits : body.length ≤ maximumMessageSize) (hparse : parse body = some value)
    (hobject : value.isObject = true) :
    receiveMessage parse schedule (frame body) = .ok value := by
  have hlength : 4 ≤ (frame body).length := by
    rw [frame, List.length_append, length_encodedSize]
    omega
  obtain ⟨hheader, hleft⟩ := readAll_success h hlength
  obtain ⟨-, -, hstream⟩ := readAll_some hheader
  have htake : (frame body).take 4 = encodedSize body.length := rfl
  have hdrop : (frame body).drop 4 = body := rfl
  have hpos : 0 < body.length := List.length_pos_iff.mpr hne
  have hmaximum : maximumMessageSize = 2097152 := rfl
  rw [htake] at hheader
  rw [hdrop] at hstream
  have hsize : decodedSize (encodedSize body.length) = body.length :=
    decodedSize_encodedSize (by omega)
  have hbody := (readAll_success hleft (Nat.le_refl body.length)).1
  rw [List.take_length] at hbody
  unfold receiveMessage
  simp only [hheader, hsize, hstream]
  rw [if_neg (by omega)]
  simp only [hbody, hparse, hobject, if_true]

/-- A message that is cut off does not arrive. -/
theorem receiveMessage_truncated (hsize : body.length < 2 ^ 32) (hcut : stream <+: frame body)
    (hproper : stream ≠ frame body) : ∃ message, receiveMessage parse schedule stream
      = .error message := by
  obtain ⟨rest, hrest⟩ := hcut
  have hshort : stream.length < 4 + body.length := by
    have hlength := congrArg List.length hrest
    have hne : rest ≠ [] := by
      rintro rfl
      exact hproper (by rw [← hrest, List.append_nil])
    have hpos := List.length_pos_iff.mpr hne
    rw [frame, List.length_append, List.length_append, length_encodedSize] at hlength
    omega
  unfold receiveMessage
  dsimp only
  match hheader : (readAll schedule 4 stream).data with
  | none => exact ⟨_, rfl⟩
  | some bytes =>
      obtain ⟨hfour, rfl, hstream⟩ := readAll_some hheader
      have hbytes : stream.take 4 = encodedSize body.length := by
        have htake := congrArg (List.take 4) hrest
        rw [List.take_append_of_le_length hfour] at htake
        exact htake
      simp only [hbytes, decodedSize_encodedSize hsize, hstream]
      split
      · exact ⟨_, rfl⟩
      · have hnone : (readAll (readAll schedule 4 stream).schedule body.length
            (stream.drop 4)).data = none := by
          refine readAll_short ?_
          rw [List.length_drop]
          omega
        rw [hnone]
        exact ⟨_, rfl⟩

end receiving

/-! ## The judge worker -/

namespace JudgeWorker

/-- `receive`: the reads and the checks of `receive_message`, without a message. -/
def receive (parse : Bytes → Option Json) (schedule : Schedule) (stream : Bytes) : Option Json :=
  (receiveMessage parse schedule stream).toOption

/-- `send`, which does not check the size. -/
def send (writeString : Json → Bytes) (schedule : Schedule) (value : Json) : Written UInt8 :=
  writeFrame schedule (writeString value)

/-- The message for what the executor returned. -/
def response : ExecutorResult String → Json
  | .error failure => Json.null.set "error" (.string failure.message)
  | .ok execution =>
      ((((Json.null.set "exitCode" (.int execution.exitCode)).set "stdout"
        (.string execution.standardOutput)).set "stderr" (.string execution.standardError)).set
        "timedOut" (.bool execution.timedOut)).setSome "errorType"
        (execution.errorType.map .string)

/-- `main`, after its arguments are read: what it sends before it closes the channel, and its exit status. -/
def main (writeString : Json → Bytes) (parse : Bytes → Option Json)
    (execute : ExecutionRequest → ExecutorResult String) (reads writes : Schedule)
    (stream : Bytes) : Except Exception (Bytes × WaitStatus) := do
  match receive parse reads stream with
  | none => pure ([], .exited 3)
  | some request =>
      let invalid ← [lacks request Json.isString "language", lacks request Json.isString "source",
        lacks request Json.isString "input"].anyM id
      if invalid then pure ([], .exited 3)
      else
        let result := execute
          { language := ← stringAt request "language"
            sourceCode := ← stringAt request "source"
            standardInput := ← stringAt request "input" }
        let sent := send writeString writes (response result)
        pure (sent.accepted, .exited (if sent.success then 0 else 4))

end JudgeWorker

/-! ## The backend -/

namespace IsolatedProcessExecutor

/-- What the backend makes of the response and of the worker's exit status. -/
def result (response : Except String Json) (status : WaitStatus) :
    Except Exception (ExecutorResult String) := do
  match response with
  | .error message => pure (.error ⟨message⟩)
  | .ok json =>
      if (← json.member "error").isString then
        pure (.error ⟨← stringAt json "error"⟩)
      else
        let invalid ← [pure (status != .exited 0), lacks json Json.isInt "exitCode",
          lacks json Json.isString "stdout", lacks json Json.isString "stderr",
          lacks json Json.isBool "timedOut"].anyM id
        if invalid then pure (.error ⟨"Judge worker failed or returned an invalid result"⟩)
        else
          let execution : ExecutionResult String :=
            { exitCode := ← (← json.member "exitCode").asInt
              standardOutput := ← stringAt json "stdout"
              standardError := ← stringAt json "stderr"
              timedOut := ← (← json.member "timedOut").asBool
              errorType := none }
          if (← json.member "errorType").isString then
            pure (.ok { execution with errorType := some (← stringAt json "errorType") })
          else pure (.ok execution)

/-- What happens before the request is sent: the delegation of the cgroup, `socketpair` and `fork`. -/
structure Launch where
  delegationError : Option String
  channel : Bool
  launched : Bool

/-- `IsolatedProcessExecutor::run`. The worker is what is sent back for what it is sent, and the status it
    exits with. -/
def run (writeString : Json → Bytes) (parse : Bytes → Option Json) (launch : Launch)
    (worker : Bytes → Bytes × WaitStatus) (writes reads : Schedule) (request : ExecutionRequest) :
    Except Exception (ExecutorResult String) :=
  match launch.delegationError with
  | some error => pure (.error ⟨error⟩)
  | none =>
      if !launch.channel then pure (.error ⟨"Could not create the judge worker channel"⟩)
      else if !launch.launched then pure (.error ⟨"Could not launch the judge worker"⟩)
      else
        let sent := sendMessage writeString writes (requestPayload request)
        if !sent.success then pure (.error ⟨"Could not send work to the judge worker"⟩)
        else
          let answer := worker sent.accepted
          result (receiveMessage parse reads answer.1) answer.2

/-- The worker was launched, and the request was sent. -/
structure Sent (writeString : Json → Bytes) (launch : Launch) (writes : Schedule)
    (request : ExecutionRequest) : Prop where
  delegation : launch.delegationError = none
  channel : launch.channel = true
  launched : launch.launched = true
  sent : (sendMessage writeString writes (requestPayload request)).success = true

theorem run_sent {writeString : Json → Bytes} {parse : Bytes → Option Json} {launch : Launch}
    {worker : Bytes → Bytes × WaitStatus} {writes reads : Schedule} {request : ExecutionRequest}
    (h : Sent writeString launch writes request) :
    run writeString parse launch worker writes reads request =
      result (receiveMessage parse reads
        (worker (sendMessage writeString writes (requestPayload request)).accepted).1)
        (worker (sendMessage writeString writes (requestPayload request)).accepted).2 := by
  simp only [run, h.delegation, h.channel, h.launched, h.sent, Bool.not_true, Bool.false_eq_true,
    if_false]

end IsolatedProcessExecutor

/-! ## Responses -/

/-- The members of the message for what the executor returned. -/
def responseMembers : ExecutorResult String → List (String × Json)
  | .error failure => [("error", .string failure.message)]
  | .ok execution =>
      [("exitCode", .int execution.exitCode), ("stdout", .string execution.standardOutput),
        ("stderr", .string execution.standardError), ("timedOut", .bool execution.timedOut)]
        ++ (execution.errorType.map fun type => ("errorType", Json.string type)).toList

theorem response_eq (result : ExecutorResult String) :
    JudgeWorker.response result = .object (responseMembers result) := by
  cases result with
  | error failure => rfl
  | ok execution =>
      cases h : execution.errorType with
      | none => simp [JudgeWorker.response, responseMembers, Json.set, Json.setSome, h]
      | some type => simp [JudgeWorker.response, responseMembers, Json.set, Json.setSome, h]

/-- Reading undoes writing on this object: the same members come back, in whatever order. -/
def ReadsBack (writeString : Json → Bytes) (parse : Bytes → Option Json)
    (members : List (String × Json)) : Prop :=
  ∃ members', parse (writeString (.object members)) = some (.object members') ∧
    ∀ key, members'.lookup key = members.lookup key

/-- The exit code is an `int`. -/
def ExitCodeInRange : ExecutorResult String → Prop
  | .error _ => True
  | .ok execution => Json.minInt32 ≤ execution.exitCode ∧ execution.exitCode ≤ Json.maxInt32

section responses
variable {writeString : Json → Bytes} {parse : Bytes → Option Json} {result : ExecutorResult String}

/-- A failure is read as the failure. -/
theorem result_failure {failure : ExecutorError} {status : WaitStatus}
    {members : List (String × Json)}
    (herror : members.lookup "error" = some (.string failure.message)) :
    IsolatedProcessExecutor.result (.ok (.object members)) status = .ok (.error failure) := by
  simp [IsolatedProcessExecutor.result, Json.member, herror, Json.isString, stringAt,
    Json.asString, bind, Except.bind, pure, Except.pure]

/-- A result is read as the result. -/
theorem result_execution {execution : ExecutionResult String} {members : List (String × Json)}
    (hexit : Json.minInt32 ≤ execution.exitCode ∧ execution.exitCode ≤ Json.maxInt32)
    (herror : members.lookup "error" = none)
    (hcode : members.lookup "exitCode" = some (.int execution.exitCode))
    (hstdout : members.lookup "stdout" = some (.string execution.standardOutput))
    (hstderr : members.lookup "stderr" = some (.string execution.standardError))
    (htimed : members.lookup "timedOut" = some (.bool execution.timedOut))
    (htype : members.lookup "errorType" = execution.errorType.map .string) :
    IsolatedProcessExecutor.result (.ok (.object members)) (.exited 0) = .ok (.ok execution) := by
  have hint : Json.isInt (.int execution.exitCode) = true := decide_eq_true hexit
  have hasInt : Json.asInt (.int execution.exitCode) = .ok execution.exitCode := if_pos hexit
  obtain ⟨exitCode, standardOutput, standardError, timedOut, errorType⟩ := execution
  cases errorType <;>
    simp [IsolatedProcessExecutor.result, Json.member, herror, hcode, hstdout, hstderr, htimed, htype,
      lacks, hint, hasInt, Json.isString, Json.isBool, stringAt, Json.asString, Json.asBool, bind,
      Except.bind, pure, Except.pure]

/-- The backend reads a response as what the executor returned. -/
theorem result_response (hexit : ExitCodeInRange result) {members : List (String × Json)}
    (hsame : ∀ key, members.lookup key = (responseMembers result).lookup key) :
    IsolatedProcessExecutor.result (.ok (.object members)) (.exited 0) = .ok result := by
  cases result with
  | error failure => exact result_failure (hsame "error")
  | ok execution =>
      have htype : (responseMembers (.ok execution)).lookup "errorType"
          = execution.errorType.map .string := by
        cases h : execution.errorType <;> simp [responseMembers, h, List.lookup_cons]
      have herror : (responseMembers (.ok execution)).lookup "error" = none := by
        cases h : execution.errorType <;> simp [responseMembers, h]
      exact result_execution hexit ((hsame _).trans herror) (hsame _) (hsame _) (hsame _) (hsame _)
        ((hsame _).trans htype)

/-! ### The size of a response -/

/-- What the worker returns within its limits: the output limit, with the notice that it is exceeded for the
    standard error; an error type, and an error message of a length that fits in any case. -/
def Bounded : ExecutorResult String → Prop
  | .error failure => byteSize failure.message ≤ 349519
  | .ok execution =>
      byteSize execution.standardOutput ≤ 65536 ∧
        byteSize execution.standardError ≤ 65536 + byteSize "\nOutput limit exceeded" ∧
        ∀ type, execution.errorType = some type → byteSize type ≤ 65536

theorem responseMembers_flat (result : ExecutorResult String) :
    responseMembers result ≠ [] ∧ ((responseMembers result).map Prod.fst).Nodup ∧
      ∀ m ∈ responseMembers result, m.2.isScalar = true := by
  cases result with
  | error failure => simp [responseMembers, Json.isScalar]
  | ok execution => cases h : execution.errorType <;> simp [responseMembers, h, Json.isScalar]

theorem length_response (hcompact : Compact writeString) (result : ExecutorResult String) :
    (writeString (JudgeWorker.response result)).length =
      1 + ((responseMembers result).map (memberSize writeString)).sum := by
  obtain ⟨hne, hnodup, hscalar⟩ := responseMembers_flat result
  rw [response_eq, hcompact.object _ hne hnodup hscalar]

/-- What the worker returns within its limits fits into a message. -/
theorem response_fits (hcompact : Compact writeString) (hescapes : BoundedEscapes writeString)
    (hexit : ExitCodeInRange result) (hbounded : Bounded result) :
    (writeString (JudgeWorker.response result)).length ≤ maximumMessageSize := by
  have hmaximum : maximumMessageSize = 2097152 := rfl
  rw [length_response hcompact]
  cases result with
  | error failure =>
      -- an error message is at most six times as long escaped, and this bound was chosen for it
      have hbounded : byteSize failure.message ≤ 349519 := hbounded
      have hkey := hescapes "error"
      have hmessage := hescapes failure.message
      have hname : byteSize "error" = 5 := by decide
      simp only [responseMembers, List.map_cons, List.map_nil, List.sum_cons, List.sum_nil,
        memberSize]
      omega
  | ok execution =>
      obtain ⟨hout, herr, htype⟩ := hbounded
      have hnotice : byteSize "\nOutput limit exceeded" = 22 := by decide
      -- the layout, the names of the members, the number and the boolean, then the texts
      have hcodeKey := hescapes "exitCode"
      have houtKey := hescapes "stdout"
      have herrKey := hescapes "stderr"
      have htimedKey := hescapes "timedOut"
      have htypeKey := hescapes "errorType"
      have hcodeName : byteSize "exitCode" = 8 := by decide
      have houtName : byteSize "stdout" = 6 := by decide
      have herrName : byteSize "stderr" = 6 := by decide
      have htimedName : byteSize "timedOut" = 8 := by decide
      have htypeName : byteSize "errorType" = 9 := by decide
      have hcode := hcompact.int execution.exitCode hexit.1 hexit.2
      have htimed := hcompact.bool execution.timedOut
      have houtSize := hescapes execution.standardOutput
      have herrSize := hescapes execution.standardError
      cases h : execution.errorType with
      | none =>
          simp only [responseMembers, h, Option.map_none, Option.toList_none, List.append_nil,
            List.map_cons, List.map_nil, List.sum_cons, List.sum_nil, memberSize]
          omega
      | some type =>
          have htypeSize := hescapes type
          have htypeBound := htype type h
          simp only [responseMembers, h, Option.map_some, Option.toList_some, List.cons_append,
            List.nil_append, List.map_cons, List.map_nil, List.sum_cons, List.sum_nil, memberSize]
          omega

/-! ### What arrives -/

/-- **Responses arrive whole, or not at all.** What the worker returns within its limits fits into a message.
    Whenever it fits, then for every partial transfer and interruption on either side, the backend returns
    exactly what the executor returned if the worker exits with status 0; and if the channel is closed
    after any proper part of the message, the backend returns an error. -/
theorem executor_response (hcompact : Compact writeString) (hescapes : BoundedEscapes writeString)
    (hexit : ExitCodeInRange result) (hread : ReadsBack writeString parse (responseMembers result)) :
    (Bounded result →
      (writeString (JudgeWorker.response result)).length ≤ maximumMessageSize) ∧
    ((writeString (JudgeWorker.response result)).length ≤ maximumMessageSize →
      ∀ (launch : IsolatedProcessExecutor.Launch) (worker : Bytes → Bytes × WaitStatus)
        (sends reads : Schedule) (request : ExecutionRequest) (stream : Bytes) (status : WaitStatus),
      IsolatedProcessExecutor.Sent writeString launch sends request →
      worker (sendMessage writeString sends (requestPayload request)).accepted = (stream, status) →
      (∀ writes, Attempt.failed ∉ reads → status = .exited 0 →
        (JudgeWorker.send writeString writes (JudgeWorker.response result)).success = true →
        stream = (JudgeWorker.send writeString writes (JudgeWorker.response result)).accepted →
        IsolatedProcessExecutor.run writeString parse launch worker sends reads request
          = .ok result) ∧
      (stream <+: frame (writeString (JudgeWorker.response result)) →
        stream ≠ frame (writeString (JudgeWorker.response result)) →
        ∃ error, IsolatedProcessExecutor.run writeString parse launch worker sends reads request
          = .ok (.error error))) := by
  refine ⟨response_fits hcompact hescapes hexit, fun hfits launch worker sends reads request stream
    status hsent hworker => ?_⟩
  rw [IsolatedProcessExecutor.run_sent hsent, hworker]
  refine ⟨?_, fun hcut hproper => ?_⟩
  · rintro writes hreads rfl hsuccess rfl
    obtain ⟨members, hparse, hsame⟩ := hread
    rw [← response_eq] at hparse
    have hne : writeString (JudgeWorker.response result) ≠ [] := by
      rw [← List.length_pos_iff, length_response hcompact]
      omega
    have hframe := writeFrame_success writes _ hsuccess
    rw [JudgeWorker.send, hframe, receiveMessage_frame hreads hne hfits hparse rfl]
    exact result_response hexit hsame
  · have hsize : (writeString (JudgeWorker.response result)).length < 2 ^ 32 :=
      Nat.lt_of_le_of_lt hfits (by decide)
    obtain ⟨message, hmessage⟩ := receiveMessage_truncated hsize hcut hproper
    rw [hmessage]
    exact ⟨_, rfl⟩

/-! ### Both directions -/

/-- The members of the message that asks the judge worker to run a program. -/
def requestMembers (request : ExecutionRequest) : List (String × Json) :=
  [("language", .string request.language), ("source", .string request.sourceCode),
    ("input", .string request.standardInput)]

/-- The judge worker runs what it was sent, and sends what its executor returned. -/
theorem main_request (hcompact : Compact writeString) {request : ExecutionRequest}
    (hread : ReadsBack writeString parse (requestMembers request))
    (hfits : (writeString (requestPayload request)).length ≤ maximumMessageSize)
    (execute : ExecutionRequest → ExecutorResult String) {reads : Schedule} (writes : Schedule)
    (hreads : Attempt.failed ∉ reads) :
    JudgeWorker.main writeString parse execute reads writes (frame (writeString (requestPayload request)))
      = .ok ((JudgeWorker.send writeString writes (JudgeWorker.response (execute request))).accepted,
          .exited (if (JudgeWorker.send writeString writes
            (JudgeWorker.response (execute request))).success then 0 else 4)) := by
  obtain ⟨members, hparse, hsame⟩ := hread
  have hpayload : requestPayload request = .object (requestMembers request) :=
    requestPayload_eq request
  have hne : writeString (requestPayload request) ≠ [] := by
    have hlength := hcompact.object (requestMembers request) (List.cons_ne_nil _ _)
      (by simp [requestMembers]) (by simp [requestMembers, Json.isScalar])
    rw [← List.length_pos_iff, hpayload]
    omega
  rw [← hpayload] at hparse
  have hlanguage : members.lookup "language" = some (.string request.language) := hsame _
  have hsource : members.lookup "source" = some (.string request.sourceCode) := hsame _
  have hinput : members.lookup "input" = some (.string request.standardInput) := hsame _
  have hreceive : JudgeWorker.receive parse reads (frame (writeString (requestPayload request)))
      = some (.object members) := by
    rw [JudgeWorker.receive, receiveMessage_frame hreads hne hfits hparse rfl]
    rfl
  simp [JudgeWorker.main, hreceive, Json.member, hlanguage, hsource, hinput, lacks, stringAt,
    Json.isString, Json.asString, bind, Except.bind, pure, Except.pure]

/-- **The judge worker is transparent.** Where request and response fit into messages, and the worker lives to
    exit with status 0, the backend returns what the worker's executor returns for the backend's request. -/
theorem conversation (hcompact : Compact writeString)
    (execute : ExecutionRequest → ExecutorResult String) (request : ExecutionRequest)
    (hexit : ExitCodeInRange (execute request))
    (hrequest : ReadsBack writeString parse (requestMembers request))
    (hresponse : ReadsBack writeString parse (responseMembers (execute request)))
    (hfits : (writeString (JudgeWorker.response (execute request))).length ≤ maximumMessageSize)
    {launch : IsolatedProcessExecutor.Launch} {sends reads workerReads workerWrites : Schedule}
    (hsends : Attempt.failed ∉ sends) (hreads : Attempt.failed ∉ reads)
    (hworker : Attempt.failed ∉ workerReads)
    (hsent : IsolatedProcessExecutor.Sent writeString launch sends request) :
    ∃ stream status,
      JudgeWorker.main writeString parse execute workerReads workerWrites
        (sendMessage writeString sends (requestPayload request)).accepted = .ok (stream, status) ∧
      (status = .exited 0 → IsolatedProcessExecutor.run writeString parse launch
        (fun _ => (stream, status)) sends reads request = .ok (execute request)) := by
  have hsize := (sendMessage_success hsends _).mp hsent.sent
  -- What was sent is the framed request, so that the worker reads it back.
  have haccepted : (sendMessage writeString sends (requestPayload request)).accepted
      = frame (writeString (requestPayload request)) := by
    have hframe := hsent.sent
    unfold sendMessage at hframe ⊢
    dsimp only at hframe ⊢
    rw [if_neg (by omega)] at hframe ⊢
    exact writeFrame_success _ _ hframe
  refine ⟨_, _, by rw [haccepted, main_request hcompact hrequest hsize execute workerWrites hworker],
    fun hstatus => ?_⟩
  obtain ⟨members, hparse, hsame⟩ := hresponse
  rw [← response_eq] at hparse
  have hne : writeString (JudgeWorker.response (execute request)) ≠ [] := by
    rw [← List.length_pos_iff, length_response hcompact]
    omega
  -- If the worker exits with status 0, it has sent its response whole.
  have hsuccess : (JudgeWorker.send writeString workerWrites
      (JudgeWorker.response (execute request))).success = true := by
    by_contra hnot
    rw [if_neg hnot] at hstatus
    cases hstatus
  rw [IsolatedProcessExecutor.run_sent hsent, hstatus, JudgeWorker.send,
    writeFrame_success _ _ hsuccess, receiveMessage_frame hreads hne hfits hparse rfl]
  exact result_response hexit hsame

end responses

/-! ### A message that is too long -/

/-- A parser that knows one message. -/
def parseOnly (writeString : Json → Bytes) (value : Json) (body : Bytes) : Option Json :=
  if body = writeString value then some value else none

theorem readsBack_parseOnly (writeString : Json → Bytes) (members : List (String × Json)) :
    ReadsBack writeString (parseOnly writeString (.object members)) members :=
  ⟨members, if_pos rfl, fun _ => rfl⟩

/-- A text of `n` letters. -/
def letters (n : Nat) : String := String.ofList (List.replicate n 'a')

theorem escapedSize_letters (n : Nat) : escapedSize (letters n) = n := by
  rw [escapedSize, letters, String.toList_ofList, List.map_replicate, List.sum_replicate]
  show n * 1 = n
  omega

/-- **A long error message does not fit.** -/
theorem long_error_rejected : ¬ ∀ (writeString : Json → Bytes) (parse : Bytes → Option Json),
    Compact writeString → BoundedEscapes writeString → ∀ message : String,
    ReadsBack writeString parse (responseMembers (.error ⟨message⟩)) →
    (writeString (JudgeWorker.response (.error ⟨message⟩))).length ≤ maximumMessageSize := by
  intro hclaim
  obtain ⟨n, hn⟩ : ∃ n, n = 2 * 1024 * 1024 := ⟨_, rfl⟩
  have hfits := hclaim compactJson _ compactJson_compact compactJson_escaping.bounded (letters n)
    (readsBack_parseOnly compactJson _)
  have hkey := compactJson_escaping "error"
  have hmessage := compactJson_escaping (letters n)
  rw [escapedSize_letters] at hmessage
  rw [length_response compactJson_compact] at hfits
  simp only [responseMembers, List.map_cons, List.map_nil, List.sum_cons, List.sum_nil,
    memberSize] at hfits
  have hmaximum : maximumMessageSize = 2097152 := rfl
  omega

/-- The result of a short program. -/
def threeResult : ExecutionResult String :=
  { exitCode := 0, standardOutput := "3\n", standardError := "", timedOut := false, errorType := none }

/-- The request that leads to it. -/
def sumExecution : ExecutionRequest := ⟨"python", "print()", "1 2\n"⟩

theorem sumExecution_sent (schedule : Schedule) (h : Attempt.failed ∉ schedule) :
    IsolatedProcessExecutor.Sent compactJson ⟨none, true, true⟩ schedule sumExecution where
  delegation := rfl
  channel := rfl
  launched := rfl
  sent := by
    refine (sendMessage_success h _).mpr ?_
    rw [length_requestPayload compactJson_compact compactJson_escaping]
    decide

/-- The result arrives, in small transfers and with interruptions. -/
theorem executor_response_three : IsolatedProcessExecutor.run compactJson
    (parseOnly compactJson (.object (responseMembers (.ok threeResult)))) ⟨none, true, true⟩
    (fun _ => ((JudgeWorker.send compactJson [.transfers 2, .interrupted]
      (JudgeWorker.response (.ok threeResult))).accepted, .exited 0))
    [.interrupted, .transfers 0] [.transfers 1, .interrupted, .transfers 0] sumExecution
      = .ok (.ok threeResult) := by
  obtain ⟨hfits, harrives⟩ := @executor_response compactJson _ (.ok threeResult)
    compactJson_compact compactJson_escaping.bounded ⟨by decide, by decide⟩
    (readsBack_parseOnly compactJson _)
  have hbounded : Bounded (.ok threeResult) := ⟨by decide, by decide, fun _ h => (by cases h)⟩
  exact (harrives (hfits hbounded) _ _ _ _ _ _ _ (sumExecution_sent _ (by decide)) rfl).1
    [.transfers 2, .interrupted] (by decide) rfl (writeFrame_of_not_failed (by decide) _) rfl

end AlgorithmTrainer
