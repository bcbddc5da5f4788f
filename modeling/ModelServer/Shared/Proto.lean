import Mathlib.Data.Int.Notation
import Mathlib.Data.Rat.Init

/-!
# The messages of `inference.v1` and the status codes of gRPC
-/

namespace ModelServer

structure PredictRequest where
  requestId : String
  modelVersion : String
  inputs : List String
  deriving DecidableEq, Repr

structure Prediction where
  label : String
  score : ℚ
  deriving DecidableEq, Repr

structure WorkerTiming where
  queueMs : ℚ
  preprocessMs : ℚ
  inferenceMs : ℚ
  postprocessMs : ℚ
  workerTotalMs : ℚ
  deriving DecidableEq, Repr

structure PredictResponse where
  requestId : String
  modelVersion : String
  workerId : String
  predictions : List Prediction
  timing : WorkerTiming
  deriving DecidableEq, Repr

/-- An enumeration of proto3 is open: other numbers can arrive as well. -/
inductive WorkerState
  | unspecified
  | starting
  | ready
  | draining
  | unrecognized (value : ℤ)
  deriving DecidableEq, Repr

structure StatusResponse where
  workerId : String
  modelVersion : String
  modelSha256 : String
  state : WorkerState
  queueDepth : ℕ
  queueCapacity : ℕ
  activeBatches : ℕ
  deriving DecidableEq, Repr

/-- `grpc.StatusCode`. -/
inductive StatusCode
  | ok
  | cancelled
  | unknown
  | invalidArgument
  | deadlineExceeded
  | notFound
  | alreadyExists
  | permissionDenied
  | resourceExhausted
  | failedPrecondition
  | aborted
  | outOfRange
  | unimplemented
  | internal
  | unavailable
  | dataLoss
  | unauthenticated
  deriving DecidableEq, Repr

/-- `StatusCode.name`. -/
def StatusCode.name : StatusCode → String
  | ok => "OK"
  | cancelled => "CANCELLED"
  | unknown => "UNKNOWN"
  | invalidArgument => "INVALID_ARGUMENT"
  | deadlineExceeded => "DEADLINE_EXCEEDED"
  | notFound => "NOT_FOUND"
  | alreadyExists => "ALREADY_EXISTS"
  | permissionDenied => "PERMISSION_DENIED"
  | resourceExhausted => "RESOURCE_EXHAUSTED"
  | failedPrecondition => "FAILED_PRECONDITION"
  | aborted => "ABORTED"
  | outOfRange => "OUT_OF_RANGE"
  | unimplemented => "UNIMPLEMENTED"
  | internal => "INTERNAL"
  | unavailable => "UNAVAILABLE"
  | dataLoss => "DATA_LOSS"
  | unauthenticated => "UNAUTHENTICATED"

end ModelServer
