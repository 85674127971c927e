import AlgorithmTrainer.Json

/-!
# `Executor.Record` — execution requests and results

The data of `executor.h`. What a program printed is a string of arbitrary bytes where it comes out of the
sandbox, and a text where it has passed through a JSON message, so a result is generic in it.
-/

namespace AlgorithmTrainer

/-- A `std::string` that need not be UTF-8. -/
abbrev Bytes := List UInt8

/-- The bytes of a text. -/
def utf8 (s : String) : Bytes := s.toByteArray.data.toList

theorem length_utf8 (s : String) : (utf8 s).length = byteSize s := by
  rw [utf8, Array.length_toList]
  rfl

structure ExecutionRequest where
  language : String
  sourceCode : String
  standardInput : String
deriving DecidableEq

structure ExecutionResult (τ : Type) where
  exitCode : Int
  standardOutput : τ
  standardError : τ
  timedOut : Bool
  errorType : Option String
deriving DecidableEq

structure ExecutorError where
  message : String
deriving DecidableEq

/-- `ExecutorResult`: an error, or a result. -/
abbrev ExecutorResult (τ : Type) := Except ExecutorError (ExecutionResult τ)

end AlgorithmTrainer
