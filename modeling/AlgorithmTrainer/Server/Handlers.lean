import AlgorithmTrainer.Server.Http

/-!
# `Server.Handlers` — the public handlers

The handlers of `main.cpp` for accounts, problems, submissions and the profile, with the two services they
go through. A handler returns a response, or ends in an exception where the source lets one escape.
-/

namespace AlgorithmTrainer

open Interaction

/-! ## The services -/

namespace ProblemService

def list : Call (Except ProblemRepositoryError (List Problem)) :=
  PostgreSQLProblemRepository.listEnabled

def find (id : String) : Call (Except ProblemRepositoryError (Option Problem)) :=
  PostgreSQLProblemRepository.findEnabled id

def findForJudging (id : String) : Call (Except ProblemRepositoryError (Option Problem)) :=
  PostgreSQLProblemRepository.findForJudging id

end ProblemService

inductive SubmissionServiceErrorCode where
  | internal
  | rateLimited
  | queueFull
deriving DecidableEq

structure SubmissionServiceError where
  message : String
  code : SubmissionServiceErrorCode := .internal
deriving DecidableEq

namespace SubmissionService

variable (server : Server)

/-- How `submit` passes on an error of the repository. -/
def submitError (error : RepositoryError) : SubmissionServiceError where
  message := error.message
  code := match error.code with
    | .userSubmissionLimit => .rateLimited
    | .queueFull => .queueFull
    | .internal => .internal

def submit (submission : SubmissionRequest) :
    Call (Except SubmissionServiceError SubmissionRecord) := do
  let created ← PostgreSQLSubmissionRepository.create server.P server.limits submission
  pure (created.mapError submitError)

def find (id : Int) : Call (Except SubmissionServiceError (Option SubmissionRecord)) := do
  let result ← PostgreSQLSubmissionRepository.find server.P id
  pure (result.mapError fun error => { message := error.message })

def history (userId : Int) (problemId : String) :
    Call (Except SubmissionServiceError (List SubmissionRecord)) := do
  let result ← PostgreSQLSubmissionRepository.history server.P userId problemId
  pure (result.mapError fun error => { message := error.message })

def progress (userId : Int) : Call (Except SubmissionServiceError UserProgress) := do
  let result ← PostgreSQLSubmissionRepository.progress server.P userId
  pure (result.mapError fun error => { message := error.message })

end SubmissionService

namespace Handlers

variable (server : Server)

/-! ## Accounts -/

def authUnavailable : HttpResponse := errorResponse "Authentication service is unavailable" 500

def authResult : Except AuthError AuthSession → HttpResponse
  | .ok session =>
      { jsonResponse (userToJson session.user) with
        cookies := [sessionCookie session.token server.secureCookies sessionCookieLifetimeSeconds] }
  | .error error =>
      match error.code with
      | .internal => authUnavailable
      | .invalidCredentials => errorResponse error.message 401
      | .duplicateUser => errorResponse error.message 409
      | .invalidInput | .unauthenticated => errorResponse error.message 400

/-- The body's name and password, or the message that refuses it. -/
def credentials (message : String) (json : Json) : Check (String × String) := do
  rejectIf message [lacks json Json.isString "username", lacks json Json.isString "password"]
  pure (← stringAt json "username", ← stringAt json "password")

def registerUser (request : HttpRequest) : Call HttpResponse := do
  let message := "Username and password are required"
  match request.json with
  | none => pure (errorResponse message 400)
  | some json =>
      match ← checked (credentials message json) with
      | .error message => pure (errorResponse message 400)
      | .ok (username, password) =>
          let result ← PostgreSQLAuthService.registerUser server.P username password
          pure (authResult server result)

def login (request : HttpRequest) : Call HttpResponse := do
  let message := "Invalid username or password"
  match request.json with
  | none => pure (errorResponse message 401)
  | some json =>
      match ← checked (credentials message json) with
      | .error message => pure (errorResponse message 401)
      | .ok (username, password) =>
          let result ←
            PostgreSQLAuthService.login server.P server.dummyPasswordHash username password
          pure (authResult server result)

/-- The user of the request's session, or the response to a request without one. -/
def authenticated (request : HttpRequest) : Call (Except HttpResponse AuthUser) := do
  let result ← PostgreSQLAuthService.currentUser server.P request.cookie
  match result with
  | .ok user => pure (.ok user)
  | .error error =>
      if error.code = .internal then pure (.error authUnavailable)
      else pure (.error (errorResponse "Authentication required" 401))

def currentUser (request : HttpRequest) : Call HttpResponse := do
  match ← authenticated server request with
  | .ok user => pure (jsonResponse (userToJson user))
  | .error response => pure response

def logout (request : HttpRequest) : Call HttpResponse := do
  let result ← PostgreSQLAuthService.logout server.P request.cookie
  match result with
  | .error _ => pure authUnavailable
  | .ok () =>
      pure { jsonResponse (.object [("ok", .bool true)]) with
        cookies := [sessionCookie "" server.secureCookies 0] }

/-! ## Problems -/

def getProblem (slug : String) : Call HttpResponse := do
  match ← ProblemService.find slug with
  | .error _ => pure (errorResponse "Problem could not be retrieved" 500)
  | .ok none => pure (errorResponse "Problem not found" 404)
  | .ok (some problem) => pure (jsonResponse (problemToJson problem))

def listProblems : Call HttpResponse := do
  match ← ProblemService.list with
  | .error _ => pure (errorResponse "Problems could not be retrieved" 500)
  | .ok problems => pure (jsonResponse (.array (problems.map problemSummaryToJson)))

/-! ## Submissions -/

/-- Whom a submission belongs to: a request whose token is refused is an anonymous one. -/
def submissionOwner (request : HttpRequest) : Call (Except HttpResponse (Option Int)) := do
  if request.cookie == "" then pure (.ok none)
  else
    let user ← PostgreSQLAuthService.currentUser server.P request.cookie
    match user with
    | .ok user => pure (.ok (some user.id))
    | .error error =>
        if error.code = .internal then
          pure (.error (errorResponse "Submission could not be accepted" 500))
        else pure (.ok none)

def submitted : Except SubmissionServiceError SubmissionRecord → HttpResponse
  | .ok submission => jsonResponse (submissionToJson submission false) 202
  | .error error =>
      match error.code with
      | .rateLimited | .queueFull =>
          { errorResponse error.message 429 with headers := [("Retry-After", "2")] }
      | .internal => errorResponse "Submission could not be judged" 500

def submit (request : HttpRequest) : Call HttpResponse := do
  match request.json with
  | none => pure (errorResponse "Request body must contain valid JSON" 400)
  | some json =>
      match ← checked (validateSubmission json) with
      | .error message => pure (errorResponse message 400)
      | .ok submission =>
          match ← ProblemService.find submission.problemId with
          | .error _ => pure (errorResponse "Submission could not be accepted" 500)
          | .ok none => pure (errorResponse "Unsupported problemId" 400)
          | .ok (some problem) =>
              if submission.language ∉ problem.languages then
                pure (errorResponse "Unsupported language" 400)
              else
                match ← submissionOwner server request with
                | .error response => pure response
                | .ok owner =>
                    let result ← SubmissionService.submit server { submission with userId := owner }
                    pure (submitted result)

def submissionHistory (problemId : String) (request : HttpRequest) : Call HttpResponse := do
  match ← ProblemService.find problemId with
  | .error _ => pure (errorResponse "Problem could not be retrieved" 500)
  | .ok none => pure (errorResponse "Problem not found" 404)
  | .ok (some _) =>
      match ← authenticated server request with
      | .error response => pure response
      | .ok user =>
          match ← SubmissionService.history server user.id problemId with
          | .error _ => pure (errorResponse "Submission history could not be retrieved" 500)
          | .ok records =>
              pure (jsonResponse (.array (records.map fun r => submissionToJson r true)))

/-- `get_submission`, which does not look at the request. -/
def getSubmission (rawId : String) : Call HttpResponse := do
  match positiveId rawId with
  | none => pure (errorResponse "Submission id must be a positive integer" 400)
  | some id =>
      match ← SubmissionService.find server id with
      | .error _ => pure (errorResponse "Submission could not be retrieved" 500)
      | .ok none => pure (errorResponse "Submission not found" 404)
      | .ok (some submission) => pure (jsonResponse (submissionToJson submission true))

/-! ## The profile -/

/-- The entry of a completed problem: its title, or its id where it is not found. -/
def completedItem (completed : CompletedProblem)
    (found : Except ProblemRepositoryError (Option Problem)) : Json :=
  let title := match found with
    | .ok (some problem) => problem.title
    | _ => completed.problemId
  .object [("id", .string completed.problemId), ("title", .string title),
    ("completedAt", .string completed.completedAt)]

/-- The loop over the completed problems, which looks each up as the judge does. -/
def completedItems : List CompletedProblem → Call (List Json)
  | [] => pure []
  | completed :: rest => do
      let found ← ProblemService.findForJudging completed.problemId
      let items ← completedItems rest
      pure (completedItem completed found :: items)

def profileBody (user : AuthUser) (progress : UserProgress) (items : List Json) : Json :=
  .object [("user", userToJson user),
    ("activity", .object [("totalSubmissions", .int progress.totalSubmissions),
      ("acceptedSubmissions", .int progress.acceptedSubmissions),
      ("currentStreakDays", .int progress.currentStreakDays),
      ("completedProblems", .int progress.completedProblems.length)]),
    ("mostRecentSubmissionProblemId", progress.mostRecentSubmissionProblemId.elim .null .string),
    ("completedProblems", .array items)]

def profile (request : HttpRequest) : Call HttpResponse := do
  match ← authenticated server request with
  | .error response => pure response
  | .ok user =>
      match ← SubmissionService.progress server user.id with
      | .error _ => pure (errorResponse "Profile could not be retrieved" 500)
      | .ok progress =>
          let items ← completedItems progress.completedProblems
          pure (jsonResponse (profileBody user progress items))

end Handlers
end AlgorithmTrainer
