import AlgorithmTrainer.Json

/-!
# `Submission.Record` — submissions, verdicts and the judge's answers

The data of `submission-record.h`, `submission.h`, `submission-repository.h` and `judge.h`, and the
names that verdicts and statuses are stored and shown under.
-/

namespace AlgorithmTrainer

inductive Verdict where
  | accepted
  | wrongAnswer
  | runtimeError
  | timeLimitExceeded
deriving DecidableEq, Repr

def verdictName : Verdict → String
  | .accepted => "Accepted"
  | .wrongAnswer => "Wrong Answer"
  | .runtimeError => "Runtime Error"
  | .timeLimitExceeded => "Time Limit Exceeded"

structure JudgeRequest where
  problemId : String
  language : String
  sourceCode : String
deriving DecidableEq

inductive JudgeResult where
  | verdict (value : Verdict)
  | runtimeError (type : String)
  | judgeError (message : String)
deriving DecidableEq

inductive SubmissionStatus where
  | queued
  | running
  | completed
  | failed
deriving DecidableEq, Repr

def submissionStatusName : SubmissionStatus → String
  | .queued => "Queued"
  | .running => "Running"
  | .completed => "Completed"
  | .failed => "Failed"

structure SubmissionRecord where
  id : Int
  problemId : String
  language : String
  sourceCode : String
  status : SubmissionStatus
  verdict : Option Verdict
  createdAt : String
  completedAt : Option String
  userId : Option Int
  errorType : Option String
  retryOf : Option Int
deriving DecidableEq

structure CompletedProblem where
  problemId : String
  completedAt : String
deriving DecidableEq

structure UserProgress where
  totalSubmissions : Int
  acceptedSubmissions : Int
  currentStreakDays : Int
  mostRecentSubmissionProblemId : Option String
  completedProblems : List CompletedProblem
deriving DecidableEq

structure SubmissionRequest where
  problemId : String
  language : String
  code : String
  userId : Option Int := none
deriving DecidableEq

inductive RepositoryErrorCode where
  | internal
  | userSubmissionLimit
  | queueFull
deriving DecidableEq, Repr

structure RepositoryError where
  message : String
  code : RepositoryErrorCode := .internal
deriving DecidableEq

structure SubmissionAdminFilter where
  status : Option SubmissionStatus := none
  errorType : Option String := none
  language : Option String := none
  problemId : Option String := none
  userId : Option Int := none
  createdFrom : Option String := none
  createdTo : Option String := none

end AlgorithmTrainer
