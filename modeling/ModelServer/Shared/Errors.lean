import Mathlib.Data.Rat.Init

/-!
# Application errors and the clock

`AppError` and its subclasses, which gateway and workers share.  Only the class
and the message vary from one raise to the next; code and HTTP status belong to
the class.

Readings of an event loop's clock are rational numbers of seconds.
-/

namespace ModelServer

/-- A reading of an event loop's clock, or a duration, in seconds. -/
abbrev Time := ℚ

/-- The subclasses of `AppError`. -/
inductive ErrorClass
  | invalidRequestError
  | unsupportedModelError
  | requestTooLargeError
  | gatewayAtCapacityError
  | workerQueueFullError
  | noHealthyWorkerError
  | workerUnavailableError
  | serviceDrainingError
  | deadlineExceededError
  | internalServerError
  deriving DecidableEq, Repr

namespace ErrorClass

def code : ErrorClass → String
  | invalidRequestError => "INVALID_REQUEST"
  | unsupportedModelError => "UNSUPPORTED_MODEL"
  | requestTooLargeError => "REQUEST_TOO_LARGE"
  | gatewayAtCapacityError => "GATEWAY_AT_CAPACITY"
  | workerQueueFullError => "WORKER_QUEUE_FULL"
  | noHealthyWorkerError => "NO_HEALTHY_WORKER"
  | workerUnavailableError => "WORKER_UNAVAILABLE"
  | serviceDrainingError => "SERVICE_DRAINING"
  | deadlineExceededError => "DEADLINE_EXCEEDED"
  | internalServerError => "INTERNAL_ERROR"

def statusCode : ErrorClass → ℕ
  | invalidRequestError => 400
  | unsupportedModelError => 400
  | requestTooLargeError => 413
  | gatewayAtCapacityError => 429
  | workerQueueFullError => 429
  | noHealthyWorkerError => 503
  | workerUnavailableError => 503
  | serviceDrainingError => 503
  | deadlineExceededError => 504
  | internalServerError => 500

def defaultMessage : ErrorClass → String
  | invalidRequestError => "Invalid request."
  | unsupportedModelError => "Unsupported model version."
  | requestTooLargeError => "Request body or payload limit exceeded."
  | gatewayAtCapacityError => "All healthy workers are saturated."
  | workerQueueFullError => "Worker queue full."
  | noHealthyWorkerError => "No compatible worker is available."
  | workerUnavailableError => "Worker unavailable."
  | serviceDrainingError => "Service is shutting down."
  | deadlineExceededError => "Deadline exceeded."
  | internalServerError => "An unexpected internal error occurred."

end ErrorClass

structure AppError where
  cls : ErrorClass
  message : String
  deriving DecidableEq, Repr

namespace AppError

/-- `cls()`: an error raised with the default message of its class. -/
def default (cls : ErrorClass) : AppError := ⟨cls, cls.defaultMessage⟩

def code (error : AppError) : String := error.cls.code

def statusCode (error : AppError) : ℕ := error.cls.statusCode

end AppError
end ModelServer
