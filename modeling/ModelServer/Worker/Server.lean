import ModelServer.Shared.Proto
import ModelServer.Worker.Batcher

/-!
# The `Predict` handlers of a worker

`Servicer` is the `InferenceWorkerServicer` with its batcher and the handlers of
the RPCs it has received, any number of them.  A handler is suspended before its
first step and in `await self.batcher.enqueue(..)`; `running` is the handler that
is in the middle of a step, between computing `local_deadline` and the call of
`enqueue`, and only while there is none do others get their turn.

What `context.time_remaining()` returns is up to gRPC.  `context.abort` ends the
handler in every case.
-/

namespace ModelServer

open Asyncio Transition

structure WorkerConfig extends BatcherConfig where
  workerId : String := "worker-1"
  modelVersion : String := "tinybert-sst2-v1"

/-- How a handler ends. -/
inductive HandlerOutcome
  | returned (resp : PredictResponse)
  | aborted (code : StatusCode) (details : String)
  | cancelled
  deriving DecidableEq, Repr

inductive HandlerPoint
  /-- The RPC has arrived, and the handler has not run yet. -/
  | received
  /-- About to call `enqueue`. -/
  | admitted
  /-- Suspended in `return await future`. -/
  | awaitResult
  | finished (outcome : HandlerOutcome)
  deriving DecidableEq, Repr

structure Handler where
  request : PredictRequest
  localDeadline : Time := 0
  /-- The future of its envelope, once it has been accepted. -/
  future : Option ℕ := none
  point : HandlerPoint := .received
  deriving DecidableEq, Repr

structure Servicer where
  batcher : Batcher
  state : WorkerState := .starting
  /-- `WORKER_REQUESTS_TOTAL`, by its label. -/
  requestsTotal : String → ℕ := fun _ => 0
  running : Option ℕ := none
  handlers : List Handler := []

/-! ## The pieces of `Predict` -/

/-- The checks at the head of `Predict`: the abort, or the remaining time. -/
def checkRequest (config : WorkerConfig) (state : WorkerState) (request : PredictRequest)
    (timeRemaining : Option Time) : Except (StatusCode × String) Time :=
  if state ≠ .ready then .error (.failedPrecondition, "WORKER_NOT_READY")
  else if request.inputs.isEmpty ∨ 8 < request.inputs.length then
    .error (.invalidArgument, "INVALID_REQUEST")
  else if request.modelVersion ≠ config.modelVersion then
    .error (.invalidArgument, "UNSUPPORTED_MODEL")
  else
    match timeRemaining with
    | none => .error (.deadlineExceeded, "DEADLINE_EXCEEDED")
    | some timeRemaining =>
        if timeRemaining ≤ 0 then .error (.deadlineExceeded, "DEADLINE_EXCEEDED")
        else .ok timeRemaining

/-- The `except` clauses: the label that is counted, and the abort.  `enqueue` raises no
exception that is not an `AppError`, so the last clause is never reached. -/
def abortOf (error : AppError) : Option String × HandlerOutcome :=
  match error.cls with
  | .workerQueueFullError => (some "queue_full", .aborted .resourceExhausted "WORKER_QUEUE_FULL")
  | .deadlineExceededError =>
      (some "deadline_exceeded", .aborted .deadlineExceeded "DEADLINE_EXCEEDED")
  | _ => (some "error", .aborted .internal error.code)

/-- A pair of the model as a message. -/
def toPrediction (pred : String × ℚ) : Prediction where
  label := pred.1
  score := pred.2

def responseOf (config : WorkerConfig) (request : PredictRequest) (result : BatcherResult) :
    PredictResponse where
  requestId := request.requestId
  modelVersion := config.modelVersion
  workerId := config.workerId
  predictions := result.predictions.map toPrediction
  timing :=
    { queueMs := result.queueMs
      preprocessMs := result.preprocessMs
      inferenceMs := result.inferenceMs
      postprocessMs := result.postprocessMs
      workerTotalMs := result.workerTotalMs }

/-- What `await future` leads to, once the future is done. -/
def answerOf (config : WorkerConfig) (request : PredictRequest) :
    Future BatcherResult AppError → Option (Option String × HandlerOutcome)
  | .pending => none
  | .result result => some (some "success", .returned (responseOf config request result))
  | .exception error => some (abortOf error)
  | .cancelled => some (none, .cancelled)

namespace Handler

@[simps]
def goto (handler : Handler) (point : HandlerPoint) : Handler := { handler with point }

@[simps]
def setDeadline (handler : Handler) (localDeadline : Time) : Handler :=
  { handler with localDeadline }

/-- The batcher has accepted the envelope. -/
@[simps]
def await (handler : Handler) (future : ℕ) : Handler :=
  { handler with future := some future, point := .awaitResult }

end Handler

/-! ## The machine -/

namespace Servicer

/-- Neither the loop task nor a handler is in the middle of a step. -/
def atRest (s : Servicer) : Bool := s.batcher.idle && s.running.isNone

/-- The handler with this number becomes `handler`, and no handler is running. -/
@[simps]
def store (s : Servicer) (id : ℕ) (handler : Handler) : Servicer :=
  { s with running := none, handlers := s.handlers.set id handler }

/-- The handler with this number becomes `handler` and goes on running. -/
@[simps]
def runs (s : Servicer) (id : ℕ) (handler : Handler) : Servicer :=
  { s with running := some id, handlers := s.handlers.set id handler }

@[simps]
def setBatcher (s : Servicer) (batcher : Batcher) : Servicer := { s with batcher }

/-- `WORKER_REQUESTS_TOTAL.labels(result=result).inc()`, where there is a label to count. -/
@[simps]
def count (s : Servicer) (result : Option String) : Servicer :=
  { s with
    requestsTotal := fun label => s.requestsTotal label + if some label = result then 1 else 0 }

inductive Event
  | tick (elapsed : Time)
  /-- The server has been started. -/
  | ready
  /-- A signal has come. -/
  | drain
  | receive (request : PredictRequest)
  /-- The first step of a handler; `context.time_remaining()` is `timeRemaining`. -/
  | predict (id : ℕ) (timeRemaining : Option Time)
  /-- The running handler calls `enqueue`. -/
  | enqueue
  /-- The awaited future is done. -/
  | resume (id : ℕ)
  /-- The RPC is cancelled. -/
  | cancel (id : ℕ)
  | close
  | closeReturn
  /-- The loop task of the batcher is resumed, or goes on. -/
  | wake (wakeup : Batcher.Wakeup)
  | run

/-- A step of the batcher alone. -/
def batch (config : WorkerConfig) (s : Servicer) (event : Batcher.Event) : Option Servicer :=
  (s.batcher.step config.toBatcherConfig event).map s.setBatcher

def step (config : WorkerConfig) (s : Servicer) : Event → Option Servicer
  | .tick elapsed => s.batch config (.tick elapsed)
  | .ready => do
      guard (s.atRest ∧ s.state = .starting)
      some { s with state := .ready }
  | .drain => do
      guard (s.atRest ∧ s.state ≠ .starting)
      some { s with state := .draining }
  | .receive request => do
      guard s.atRest
      some { s with handlers := s.handlers ++ [{ request }] }
  | .predict id timeRemaining => do
      guard s.atRest
      let handler ← s.handlers[id]?
      guard (handler.point = .received)
      match checkRequest config s.state handler.request timeRemaining with
      | .error (code, details) =>
          some (s.store id (handler.goto (.finished (.aborted code details))))
      | .ok timeRemaining =>
          some (s.runs id ((handler.setDeadline (s.batcher.now + timeRemaining)).goto .admitted))
  | .enqueue => do
      let id ← s.running
      let handler ← s.handlers[id]?
      match s.batcher.enqueue handler.request.requestId handler.request.inputs
          handler.localDeadline with
      | (.ok future, batcher) => some ((s.setBatcher batcher).store id (handler.await future))
      | (.error error, batcher) =>
          some (((s.setBatcher batcher).count (abortOf error).1).store id
            (handler.goto (.finished (abortOf error).2)))
  | .resume id => do
      guard s.atRest
      let handler ← s.handlers[id]?
      guard (handler.point = .awaitResult)
      let future ← handler.future
      let (label, outcome) ← answerOf config handler.request (s.batcher.futures future)
      some ((s.count label).store id (handler.goto (.finished outcome)))
  | .cancel id => do
      guard s.atRest
      let handler ← s.handlers[id]?
      match handler.point, handler.future with
      | .received, _ => some (s.store id (handler.goto (.finished .cancelled)))
      -- cancelling the task cancels the future it awaits
      | .awaitResult, some future =>
          some ((s.setBatcher (s.batcher.cancelFuture future)).store id
            (handler.goto (.finished .cancelled)))
      | _, _ => none
  | .close => do
      guard (s.atRest ∧ s.state ≠ .starting)
      { s with state := .draining }.batch config .close
  | .closeReturn => do
      guard s.running.isNone
      s.batch config .closeReturn
  | .wake wakeup => do
      guard s.running.isNone
      s.batch config (.resume wakeup)
  | .run => s.batch config .run

/-- A worker before its server is started. -/
def initial (config : WorkerConfig) (now : Time) : Servicer :=
  { batcher := Batcher.initial config.toBatcherConfig now }

def machine (config : WorkerConfig) : Machine Servicer Event where
  Initial s := ∃ now, s = initial config now
  step := step config

theorem reachableBy_of_step {Allowed : Servicer → Event → Prop} {config : WorkerConfig}
    {s next : Servicer} {event : Event} (hreach : (machine config).ReachableBy Allowed s)
    (hallowed : Allowed s event) (hstep : s.step config event = some next) :
    (machine config).ReachableBy Allowed next := by
  have hstep' : (machine config).step s event = some next := hstep
  exact hreach.step hallowed hstep'

/-! ## Everything a worker can do -/

/-- The step of the batcher alone that an event is. -/
def Event.inner : Event → Option Batcher.Event
  | .closeReturn => some .closeReturn
  | .wake wakeup => some (.resume wakeup)
  | .run => some .run
  | _ => none

inductive Step (config : WorkerConfig) (s : Servicer) : Event → Servicer → Prop
  | tick {elapsed : Time} {batcher : Batcher}
      (hbatcher : s.batcher.step config.toBatcherConfig (.tick elapsed) = some batcher) :
      Step config s (.tick elapsed) (s.setBatcher batcher)
  | batch {event : Event} {inner : Batcher.Event} {batcher : Batcher}
      (hinner : event.inner = some inner) (hturn : s.running = none ∨ inner = .run)
      (hbatcher : s.batcher.step config.toBatcherConfig inner = some batcher) :
      Step config s event (s.setBatcher batcher)
  | ready (hrest : s.atRest) (hstate : s.state = .starting) :
      Step config s .ready { s with state := .ready }
  | drain (hrest : s.atRest) (hstate : s.state ≠ .starting) :
      Step config s .drain { s with state := .draining }
  | receive {request : PredictRequest} (hrest : s.atRest) :
      Step config s (.receive request) { s with handlers := s.handlers ++ [{ request }] }
  | aborts {id : ℕ} {handler : Handler} {timeRemaining : Option Time} {code : StatusCode}
      {details : String} (hrest : s.atRest) (hhandler : s.handlers[id]? = some handler)
      (hpoint : handler.point = .received)
      (hcheck : checkRequest config s.state handler.request timeRemaining =
        .error (code, details)) :
      Step config s (.predict id timeRemaining)
        (s.store id (handler.goto (.finished (.aborted code details))))
  | admits {id : ℕ} {handler : Handler} {timeRemaining : Option Time} {remaining : Time}
      (hrest : s.atRest) (hhandler : s.handlers[id]? = some handler)
      (hpoint : handler.point = .received)
      (hcheck : checkRequest config s.state handler.request timeRemaining = .ok remaining) :
      Step config s (.predict id timeRemaining)
        (s.runs id ((handler.setDeadline (s.batcher.now + remaining)).goto .admitted))
  | accepted {id future : ℕ} {handler : Handler} {batcher : Batcher}
      (hrunning : s.running = some id) (hhandler : s.handlers[id]? = some handler)
      (henqueue : s.batcher.enqueue handler.request.requestId handler.request.inputs
        handler.localDeadline = (.ok future, batcher)) :
      Step config s .enqueue ((s.setBatcher batcher).store id (handler.await future))
  | refused {id : ℕ} {handler : Handler} {error : AppError} {batcher : Batcher}
      (hrunning : s.running = some id) (hhandler : s.handlers[id]? = some handler)
      (henqueue : s.batcher.enqueue handler.request.requestId handler.request.inputs
        handler.localDeadline = (.error error, batcher)) :
      Step config s .enqueue
        (((s.setBatcher batcher).count (abortOf error).1).store id
          (handler.goto (.finished (abortOf error).2)))
  | answers {id future : ℕ} {handler : Handler} {label : Option String} {outcome : HandlerOutcome}
      (hrest : s.atRest) (hhandler : s.handlers[id]? = some handler)
      (hpoint : handler.point = .awaitResult) (hfuture : handler.future = some future)
      (hanswer : answerOf config handler.request (s.batcher.futures future) =
        some (label, outcome)) :
      Step config s (.resume id) ((s.count label).store id (handler.goto (.finished outcome)))
  | cancelReceived {id : ℕ} {handler : Handler} (hrest : s.atRest)
      (hhandler : s.handlers[id]? = some handler) (hpoint : handler.point = .received) :
      Step config s (.cancel id) (s.store id (handler.goto (.finished .cancelled)))
  | cancelAwait {id future : ℕ} {handler : Handler} (hrest : s.atRest)
      (hhandler : s.handlers[id]? = some handler) (hpoint : handler.point = .awaitResult)
      (hfuture : handler.future = some future) :
      Step config s (.cancel id)
        ((s.setBatcher (s.batcher.cancelFuture future)).store id
          (handler.goto (.finished .cancelled)))
  | close {batcher : Batcher} (hrest : s.atRest) (hstate : s.state ≠ .starting)
      (hbatcher : s.batcher.step config.toBatcherConfig .close = some batcher) :
      Step config s .close { s with state := .draining, batcher }

variable {config : WorkerConfig}

private theorem step_of_batch {s next : Servicer} {event : Event} {inner : Batcher.Event}
    (hinner : event.inner = some inner) (hturn : s.running = none ∨ inner = .run)
    (hstep : s.batch config inner = some next) : Step config s event next := by
  obtain ⟨batcher, hbatcher, rfl⟩ := Option.map_eq_some_iff.mp hstep
  exact .batch hinner hturn hbatcher

/-- The inversion lemma of `step`. -/
theorem step_cases {s next : Servicer} {event : Event} (hstep : s.step config event = some next) :
    Step config s event next := by
  cases event with
  | tick elapsed =>
      obtain ⟨batcher, hbatcher, rfl⟩ := Option.map_eq_some_iff.mp hstep
      exact .tick hbatcher
  | run => exact step_of_batch rfl (.inr rfl) hstep
  | closeReturn | wake _ =>
      simp only [step, Option.bind_eq_bind, Option.bind_eq_some_iff] at hstep
      obtain ⟨_, hrunning, hstep⟩ := hstep
      exact step_of_batch rfl (.inl (by simpa using hrunning)) hstep
  | ready =>
      simp only [step, Option.bind_eq_bind, Option.bind_eq_some_iff, Option.some.injEq] at hstep
      obtain ⟨_, hguard, rfl⟩ := hstep
      obtain ⟨hrest, hstate⟩ : s.atRest ∧ s.state = .starting := by simpa using hguard
      exact .ready hrest hstate
  | drain =>
      simp only [step, Option.bind_eq_bind, Option.bind_eq_some_iff, Option.some.injEq] at hstep
      obtain ⟨_, hguard, rfl⟩ := hstep
      obtain ⟨hrest, hstate⟩ : s.atRest ∧ s.state ≠ .starting := by simpa using hguard
      exact .drain hrest hstate
  | receive request =>
      simp only [step, Option.bind_eq_bind, Option.bind_eq_some_iff, Option.some.injEq] at hstep
      obtain ⟨_, hrest, rfl⟩ := hstep
      exact .receive (by simpa using hrest)
  | predict id timeRemaining =>
      simp only [step, Option.bind_eq_bind, Option.bind_eq_some_iff] at hstep
      obtain ⟨_, hrest, handler, hhandler, _, hpoint, hstep⟩ := hstep
      split at hstep <;> simp only [Option.some.injEq] at hstep <;> subst hstep
      · exact .aborts (by simpa using hrest) hhandler (by simpa using hpoint) ‹_›
      · exact .admits (by simpa using hrest) hhandler (by simpa using hpoint) ‹_›
  | enqueue =>
      simp only [step, Option.bind_eq_bind, Option.bind_eq_some_iff] at hstep
      obtain ⟨id, hrunning, handler, hhandler, hstep⟩ := hstep
      split at hstep <;> simp only [Option.some.injEq] at hstep <;> subst hstep
      · exact .accepted hrunning hhandler ‹_›
      · exact .refused hrunning hhandler ‹_›
  | resume id =>
      simp only [step, Option.bind_eq_bind, Option.bind_eq_some_iff, Option.some.injEq] at hstep
      obtain ⟨_, hrest, handler, hhandler, _, hpoint, future, hfuture, ⟨label, outcome⟩, hanswer,
        rfl⟩ := hstep
      exact .answers (by simpa using hrest) hhandler (by simpa using hpoint) hfuture hanswer
  | cancel id =>
      simp only [step, Option.bind_eq_bind, Option.bind_eq_some_iff] at hstep
      obtain ⟨_, hrest, handler, hhandler, hstep⟩ := hstep
      split at hstep <;> simp only [Option.some.injEq, reduceCtorEq] at hstep <;> subst hstep
      · exact .cancelReceived (by simpa using hrest) hhandler ‹_›
      · exact .cancelAwait (by simpa using hrest) hhandler ‹_› ‹_›
  | close =>
      simp only [step, Option.bind_eq_bind, Option.bind_eq_some_iff, batch,
        Option.map_eq_some_iff] at hstep
      obtain ⟨_, hguard, batcher, hbatcher, rfl⟩ := hstep
      obtain ⟨hrest, hstate⟩ : s.atRest ∧ s.state ≠ .starting := by simpa using hguard
      exact .close hrest hstate hbatcher

end Servicer
end ModelServer
