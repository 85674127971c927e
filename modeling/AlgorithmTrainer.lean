import AlgorithmTrainer.Auth.AdminPassword
import AlgorithmTrainer.Auth.Administrators
import AlgorithmTrainer.Auth.Registration
import AlgorithmTrainer.Database.Migrations
import AlgorithmTrainer.Database.VersionOrder
import AlgorithmTrainer.Executor.Channel
import AlgorithmTrainer.Executor.Draining
import AlgorithmTrainer.Executor.Kernel
import AlgorithmTrainer.Executor.Output
import AlgorithmTrainer.Executor.Resources
import AlgorithmTrainer.Judge.Category
import AlgorithmTrainer.Judge.ProblemJudge
import AlgorithmTrainer.Problem.Cases
import AlgorithmTrainer.Problem.Reopening
import AlgorithmTrainer.Problem.Slug
import AlgorithmTrainer.Problem.TestEditing
import AlgorithmTrainer.Server.AuditRuns
import AlgorithmTrainer.Server.BodyKinds
import AlgorithmTrainer.Server.Disclosure
import AlgorithmTrainer.Server.HiddenTests
import AlgorithmTrainer.Server.ProblemForms
import AlgorithmTrainer.Sqlite.Completion
import AlgorithmTrainer.Sqlite.Equivalence
import AlgorithmTrainer.Sqlite.Filtering
import AlgorithmTrainer.Sqlite.ProblemStorage
import AlgorithmTrainer.Sqlite.Rollback
import AlgorithmTrainer.Sqlite.Streak
import AlgorithmTrainer.Submission.Carriage
import AlgorithmTrainer.Submission.Claiming
import AlgorithmTrainer.Submission.PoolLifecycle
import AlgorithmTrainer.Submission.Progress
import AlgorithmTrainer.Submission.Refusal
import AlgorithmTrainer.Submission.Retrying
import AlgorithmTrainer.Submission.StoredCategory
import AlgorithmTrainer.System.Access
import AlgorithmTrainer.System.Recovery
