import AlgorithmTrainer.Server.Handlers

/-!
# `Server.Admin` — the administrators' handlers

`require_admin` first, then the body is read, then the repository is called; a handler that changed a problem
or a hidden test looks the session up once more for the administrator's id and writes the audit row.
-/

namespace AlgorithmTrainer

open Interaction

/-! ## Reading what an administrator sent -/

def int64At (json : Json) (key : String) : Except Exception Int := do
  (← json.member key).asInt64

def boolAt (json : Json) (key : String) : Except Exception Bool := do
  (← json.member key).asBool

/-- The loop over `tags` and the one over `languages`. -/
def textsAt (message : String) (json : Json) (key : String) : Check (List String) := do
  let values ← (json.member key : Except Exception Json)
  values.elements.mapM fun value =>
    match value with
    | .string text => pure text
    | _ => throw message

def examplesAt (message : String) (json : Json) (key : String) : Check (List ProblemExample) := do
  let values ← (json.member key : Except Exception Json)
  values.elements.mapM fun value =>
    match exampleOfJson value with
    | some e => pure e
    | none => throw message

/-- `json["revision"]` of a request that updates. -/
def revisionAt (message : String) (json : Json) : Check Int := do
  rejectIf message [lacks json Json.isInt64 "revision",
    (fun revision => decide (revision ≤ 0)) <$> int64At json "revision"]
  int64At json "revision"

/-- `parse_admin_problem`. -/
def parseAdminProblem (json : Json) (pathId : Option String) : Check Problem := do
  let id ← match pathId with
    | some id => pure id
    | none => do
        rejectIf "Problem id must be a string" [lacks json Json.isString "id"]
        stringAt json "id"
  rejectIf "Problem fields are invalid or incomplete"
    [pure (id == ""), lacks json Json.isString "title", (· == "") <$> stringAt json "title",
     lacks json Json.isString "description", lacks json Json.isString "inputFormat",
     lacks json Json.isString "outputFormat", lacks json Json.isString "difficulty",
     lacks json Json.isArray "tags", lacks json Json.isArray "languages",
     lacks json Json.isArray "examples", lacks json Json.isBool "enabled"]
  rejectIf "Problem id must be a lowercase slug" [pure !validProblemSlug id]
  let tooLong := fun key => (fun text => !validProblemText text) <$> stringAt json key
  let tooMany := fun (maximum : Nat) key =>
    (fun value : Json => decide (maximum < value.size)) <$> json.member key
  rejectIf "Problem metadata exceeds the allowed size"
    [(fun title => decide (200 < byteSize title)) <$> stringAt json "title",
     tooLong "description", tooLong "inputFormat", tooLong "outputFormat",
     tooMany 50 "tags", tooMany 10 "languages", tooMany 20 "examples"]
  let title ← stringAt json "title"
  let description ← stringAt json "description"
  let inputFormat ← stringAt json "inputFormat"
  let outputFormat ← stringAt json "outputFormat"
  let enabled ← boolAt json "enabled"
  let revision ← match pathId with
    | some _ => revisionAt "A positive revision is required when updating a problem" json
    | none => pure 1
  let name ← stringAt json "difficulty"
  let difficulty ←
    if name == "Easy" then pure ProblemDifficulty.easy
    else if name == "Medium" then pure ProblemDifficulty.medium
    else if name == "Hard" then pure ProblemDifficulty.hard
    else throw "Difficulty must be Easy, Medium, or Hard"
  let tags ← textsAt "Tags must contain strings" json "tags"
  let languages ← textsAt "Languages must contain strings" json "languages"
  let examples ← examplesAt "Examples must contain input and output strings" json "examples"
  pure { id := id, title := title, description := description, inputFormat := inputFormat,
         outputFormat := outputFormat, difficulty := difficulty, tags := tags,
         languages := languages, examples := examples, enabled := enabled, revision := revision }

/-- `parse_admin_test`; the id is 0 for a test that is created. -/
def parseAdminTest (json : Json) (id : Int) : Check ProblemTestCase := do
  rejectIf "Test input, expectedOutput, non-negative position, and enabled are required"
    [lacks json Json.isString "input", lacks json Json.isString "expectedOutput",
     lacks json Json.isInt64 "position",
     (fun position => decide (position < 0)) <$> int64At json "position",
     lacks json Json.isBool "enabled"]
  let tooLong := fun key => (fun text => !validHiddenTestText text) <$> stringAt json key
  rejectIf "Hidden-test input or output exceeds the allowed size"
    [tooLong "input", tooLong "expectedOutput"]
  let revision ←
    if 0 < id then
      revisionAt "A positive revision is required when updating a hidden test" json
    else pure 1
  let input ← stringAt json "input"
  let expectedOutput ← stringAt json "expectedOutput"
  let position ← int64At json "position"
  let enabled ← boolAt json "enabled"
  pure { input := input, expectedOutput := expectedOutput, id := id, position := position,
         enabled := enabled, revision := revision }

namespace Handlers

variable (server : Server)

/-! ## Authorisation and audit -/

/-- `require_admin`: nothing for an administrator, else the response. -/
def requireAdmin (request : HttpRequest) : Call (Option HttpResponse) := do
  let result ← PostgreSQLAuthService.currentUser server.P request.cookie
  match result with
  | .ok user =>
      if hasAdminAccess user then pure none
      else pure (some (errorResponse "Administrator access required" 403))
  | .error error =>
      if error.code = .internal then pure (some authUnavailable)
      else pure (some (errorResponse "Authentication required" 401))

/-- A handler behind `require_admin`. -/
def asAdmin (request : HttpRequest) (handler : Call HttpResponse) : Call HttpResponse := do
  match ← requireAdmin server request with
  | some response => pure response
  | none => handler

/-- `authenticated_admin_id`: `std::get` throws where the session is not found. -/
def authenticatedAdminId (request : HttpRequest) : Call Int := do
  let result ← PostgreSQLAuthService.currentUser server.P request.cookie
  match result with
  | .ok user => pure user.id
  | .error _ => throw .badVariantAccess

/-- `audit_admin_change`, which only logs an error. -/
def auditAdminChange (adminId : Int) (action entityType entityId : String) : Call Unit := do
  let _ ← PostgreSQLSubmissionRepository.audit adminId action entityType entityId
  pure ()

/-- The end that every change of a problem or a hidden test comes to. -/
def audited (request : HttpRequest) (action entityType entityId : String)
    (response : HttpResponse) : Call HttpResponse := do
  let adminId ← authenticatedAdminId server request
  auditAdminChange adminId action entityType entityId
  pure response

/-! ## Problems -/

def adminListProblems (request : HttpRequest) : Call HttpResponse :=
  asAdmin server request do
    match ← PostgreSQLProblemRepository.listAll with
    | .error _ => pure (errorResponse "Problems could not be retrieved" 500)
    | .ok problems =>
        pure (jsonResponse (.array (problems.map fun problem =>
          (problemSummaryToJson problem).set "enabled" (.bool problem.enabled))))

def adminGetProblem (id : String) (request : HttpRequest) : Call HttpResponse :=
  asAdmin server request do
    match ← PostgreSQLProblemRepository.findAny id with
    | .error _ => pure (errorResponse "Problem could not be retrieved" 500)
    | .ok none => pure (errorResponse "Problem not found" 404)
    | .ok (some problem) => pure (jsonResponse (adminProblemToJson problem))

/-- `admin_write_problem`, which creates a problem, or updates the one of the path. -/
def adminWriteProblem (id : Option String) (request : HttpRequest) : Call HttpResponse :=
  asAdmin server request do
    match request.json with
    | none => pure (errorResponse "Request body must contain valid JSON" 400)
    | some json =>
        match ← checked (parseAdminProblem json id) with
        | .error message => pure (errorResponse message 400)
        | .ok problem =>
            let result ← if id.isSome then PostgreSQLProblemRepository.update problem
              else PostgreSQLProblemRepository.create problem
            match result with
            | .error error =>
                pure (errorResponse error.message
                  (if error.message == "Problem not found" then 404 else 409))
            | .ok problem =>
                audited server request (if id.isSome then "problem.update" else "problem.create")
                  "problem" problem.id
                  (jsonResponse (adminProblemToJson problem) (if id.isSome then 200 else 201))

def adminDeleteProblem (id : String) (request : HttpRequest) : Call HttpResponse :=
  asAdmin server request do
    match ← PostgreSQLProblemRepository.remove id with
    | .error _ => pure (errorResponse "Problem could not be deleted" 409)
    | .ok false => pure (errorResponse "Problem not found" 404)
    | .ok true => audited server request "problem.delete" "problem" id (emptyResponse 204)

/-! ## Hidden tests -/

/-- `admin_write_test`, which creates a hidden test, or updates the one of the path. -/
def adminWriteTest (problemId : String) (rawTestId : Option String) (request : HttpRequest) :
    Call HttpResponse :=
  asAdmin server request do
    match rawTestId.elim (some 0) positiveId with
    | none => pure (errorResponse "Test id must be a positive integer" 400)
    | some testId =>
        match request.json with
        | none => pure (errorResponse "Request body must contain valid JSON" 400)
        | some json =>
            match ← checked (parseAdminTest json testId) with
            | .error message => pure (errorResponse message 400)
            | .ok test =>
                let result ← if rawTestId.isSome
                  then PostgreSQLProblemRepository.updateTest problemId test
                  else PostgreSQLProblemRepository.createTest problemId test
                match result with
                | .error error => pure (errorResponse error.message 409)
                | .ok test =>
                    audited server request
                      (if rawTestId.isSome then "problem-test.update" else "problem-test.create")
                      "problem-test" (problemId ++ ":" ++ toString test.id)
                      (jsonResponse (adminProblemTestToJson test)
                        (if rawTestId.isSome then 200 else 201))

def adminDeleteTest (problemId rawTestId : String) (request : HttpRequest) : Call HttpResponse :=
  asAdmin server request do
    match positiveId rawTestId with
    | none => pure (errorResponse "Test id must be a positive integer" 400)
    | some testId =>
        match ← PostgreSQLProblemRepository.removeTest problemId testId with
        | .error _ => pure (errorResponse "Hidden test could not be deleted" 409)
        | .ok false => pure (errorResponse "Hidden test not found" 404)
        | .ok true =>
            audited server request "problem-test.delete" "problem-test"
              (problemId ++ ":" ++ toString testId) (emptyResponse 204)

/-! ## Submissions -/

/-- `optional_parameter`. -/
def optionalParameter (request : HttpRequest) (name : String) : Option String :=
  if request.parameter name == "" then none else some (request.parameter name)

/-- The status a filter asks for, or the refusal of one that is no status. -/
def filterStatus : Option String → Except HttpResponse (Option SubmissionStatus)
  | none => .ok none
  | some name =>
      if name == "Failed" then .ok (some .failed)
      else if name == "Queued" then .ok (some .queued)
      else if name == "Running" then .ok (some .running)
      else if name == "Completed" then .ok (some .completed)
      else .error (errorResponse "Unknown submission status filter" 400)

def filterUser : Option String → Except HttpResponse (Option Int)
  | none => .ok none
  | some raw =>
      match positiveId raw with
      | some id => .ok (some id)
      | none => .error (errorResponse "User id must be a positive integer" 400)

/-- The filter that the query parameters describe. -/
def submissionFilter (request : HttpRequest) : Except HttpResponse SubmissionAdminFilter := do
  let status ← filterStatus (optionalParameter request "status")
  let userId ← filterUser (optionalParameter request "userId")
  pure { status := status
         errorType := optionalParameter request "errorType"
         language := optionalParameter request "language"
         problemId := optionalParameter request "problemId"
         userId := userId
         createdFrom := optionalParameter request "from"
         createdTo := optionalParameter request "to" }

/-- `admin_submissions` with an id. -/
def adminGetSubmission (rawId : String) (request : HttpRequest) : Call HttpResponse :=
  asAdmin server request do
    match positiveId rawId with
    | none => pure (errorResponse "Submission id must be a positive integer" 400)
    | some id =>
        match ← PostgreSQLSubmissionRepository.find server.P id with
        | .error _ => pure (errorResponse "Submission could not be retrieved" 500)
        | .ok none => pure (errorResponse "Submission not found" 404)
        | .ok (some record) => pure (jsonResponse (adminSubmissionToJson record))

/-- `admin_submissions` without an id. -/
def adminListSubmissions (request : HttpRequest) : Call HttpResponse :=
  asAdmin server request do
    match submissionFilter request with
    | .error response => pure response
    | .ok filter =>
        match ← PostgreSQLSubmissionRepository.listFiltered server.P filter with
        | .error _ => pure (errorResponse "Submissions could not be retrieved" 500)
        | .ok records => pure (jsonResponse (.array (records.map adminSubmissionToJson)))

def adminRetrySubmission (rawId : String) (request : HttpRequest) : Call HttpResponse :=
  asAdmin server request do
    match positiveId rawId with
    | none => pure (errorResponse "Submission id must be a positive integer" 400)
    | some id =>
        let adminId ← authenticatedAdminId server request
        match ← PostgreSQLSubmissionRepository.retry server.P server.limits id adminId with
        | .error error => pure (errorResponse error.message 409)
        | .ok record => pure (jsonResponse (adminSubmissionToJson record) 202)

end Handlers

/-! ## Routes -/

/-- The routes that `main` registers, with the parameters of their paths. -/
inductive Route where
  | register
  | login
  | logout
  | me
  | profile
  | listProblems
  | getProblem (slug : String)
  | submissionHistory (problemId : String)
  | getSubmission (rawId : String)
  | submit
  | adminListProblems
  | adminCreateProblem
  | adminGetProblem (id : String)
  | adminUpdateProblem (id : String)
  | adminDeleteProblem (id : String)
  | adminCreateTest (problemId : String)
  | adminUpdateTest (problemId rawTestId : String)
  | adminDeleteTest (problemId rawTestId : String)
  | adminListSubmissions
  | adminGetSubmission (rawId : String)
  | adminRetrySubmission (rawId : String)
deriving DecidableEq

/-- What a route is about: accounts, the visitor's own view, one submission by its id, or, under
    `/api/admin`, administration. -/
inductive RouteGroup where
  | account
  | visitor
  | lookup
  | admin
deriving DecidableEq

def Route.group : Route → RouteGroup
  | .register | .login | .logout => .account
  | .me | .profile | .listProblems | .getProblem _ | .submissionHistory _ | .submit => .visitor
  | .getSubmission _ => .lookup
  | _ => .admin

open Handlers in
/-- The handler of a route, on a request. -/
def dispatch (server : Server) : Route → HttpRequest → Call HttpResponse
  | .register, request => registerUser server request
  | .login, request => login server request
  | .logout, request => logout server request
  | .me, request => currentUser server request
  | .profile, request => profile server request
  | .listProblems, _ => listProblems
  | .getProblem slug, _ => getProblem slug
  | .submissionHistory problemId, request => submissionHistory server problemId request
  | .getSubmission rawId, _ => getSubmission server rawId
  | .submit, request => submit server request
  | .adminListProblems, request => adminListProblems server request
  | .adminCreateProblem, request => adminWriteProblem server none request
  | .adminGetProblem id, request => adminGetProblem server id request
  | .adminUpdateProblem id, request => adminWriteProblem server (some id) request
  | .adminDeleteProblem id, request => adminDeleteProblem server id request
  | .adminCreateTest problemId, request => adminWriteTest server problemId none request
  | .adminUpdateTest problemId rawTestId, request =>
      adminWriteTest server problemId (some rawTestId) request
  | .adminDeleteTest problemId rawTestId, request =>
      adminDeleteTest server problemId rawTestId request
  | .adminListSubmissions, request => adminListSubmissions server request
  | .adminGetSubmission rawId, request => adminGetSubmission server rawId request
  | .adminRetrySubmission rawId, request => adminRetrySubmission server rawId request

end AlgorithmTrainer
