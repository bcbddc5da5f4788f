import Mathlib.Algebra.Order.Ring.Rat
import Mathlib.Logic.Function.Basic
import ModelServer.Library.Asyncio
import ModelServer.Library.Machine
import ModelServer.Library.Slices
import ModelServer.Shared.Errors

/-!
# The batcher of a worker

`Batcher` is the state of one batcher together with the part of the event loop
it can see: the futures of its requests, the clock, and where its loop task
stands.  `LoopPoint` names the places of `_run_loop` and `_process_batch`
between which the loop task reads the clock or suspends, with the local
variables that are live there.

The granularity is the one asyncio gives.  Clients, `close` and the executor act
only while the loop task is suspended; the clock may advance at any moment, also
between two readings of the same step.  `Batcher.step` is the transition
function, and `Step` lists, once, everything it can do; all properties are
proved from `Step`.

`log` is a record of what happened, in order.  No step reads it.
-/

namespace ModelServer

open Asyncio

structure BatcherResult where
  predictions : List (String × ℚ)
  queueMs : ℚ
  preprocessMs : ℚ
  inferenceMs : ℚ
  postprocessMs : ℚ
  workerTotalMs : ℚ
  deriving DecidableEq, Repr

structure RequestEnvelope where
  requestId : String
  inputs : List String
  localDeadline : Time
  enqueueTime : Time
  /-- Which future: futures are numbered in the order of their creation. -/
  future : ℕ
  deriving DecidableEq, Repr

/-- What `predict_batch` returns. -/
structure ModelOutput where
  preds : List (String × ℚ)
  prepMs : ℚ
  infMs : ℚ
  postMs : ℚ
  deriving DecidableEq, Repr

/-- The parameters of `Batcher.__init__`. -/
structure BatcherConfig where
  queueCapacity : ℤ := 64
  maxBatchRequests : ℤ := 8
  maxBatchItems : ℤ := 32
  maxBatchDelayMs : ℤ := 5

/-- How the loop task ended: `_run_loop` returned, was cancelled, or died of the
`InvalidStateError` of a future settled twice. -/
inductive LoopEnd
  | returned
  | cancelled
  | invalidState
  deriving DecidableEq, Repr

/-- The local variables of `_process_batch`. -/
structure Assembly where
  startProcessTime : Time
  validBatch : List RequestEnvelope
  flattenedInputs : List String
  slices : List (ℕ × ℕ)
  idx : ℕ
  deriving DecidableEq, Repr

/-- Where the loop task stands. -/
inductive LoopPoint
  /-- The task exists and has not run yet. -/
  | created
  /-- `while not self._stopping`. -/
  | loopHead
  /-- Suspended in `first = await self._queue.get()`. -/
  | awaitFirst
  | checkFirst (first : RequestEnvelope)
  | openBatch (first : RequestEnvelope)
  /-- The head of the inner `while`. -/
  | collect (batch : List RequestEnvelope) (totalItems : ℕ) (deadlineTimer : Time)
  /-- Suspended in `asyncio.wait_for(self._queue.get(), timeout=remaining_time)`. -/
  | awaitNext (batch : List RequestEnvelope) (totalItems : ℕ) (deadlineTimer : Time)
  | checkNext (batch : List RequestEnvelope) (totalItems : ℕ) (deadlineTimer : Time)
      (envelope : RequestEnvelope)
  /-- `_process_batch` is entered. -/
  | processBatch (batch : List RequestEnvelope)
  /-- The first `for` of `_process_batch`, with `todo` still to be visited. -/
  | assemble (work : Assembly) (todo : List RequestEnvelope)
  /-- Suspended in `await loop.run_in_executor(..)`. -/
  | awaitModel (work : Assembly)
  /-- The `for` of `except Exception`. -/
  | failBatch (todo : List RequestEnvelope)
  /-- The last `for` of `_process_batch`. -/
  | deliver (work : Assembly) (output : ModelOutput) (endProcessTime : Time)
      (todo : List (RequestEnvelope × ℕ × ℕ))
  | finished (how : LoopEnd)
  deriving DecidableEq, Repr

/-- The loop task is not running: other tasks may. -/
def LoopPoint.suspended : LoopPoint → Bool
  | created | awaitFirst | awaitNext .. | awaitModel _ | finished _ => true
  | _ => false

/-- What happened, in order. -/
inductive Observation
  | accepted (envelope : RequestEnvelope)
  | dequeued (envelope : RequestEnvelope)
  /-- An envelope joins `valid_batch`: the reading and the future it was checked with. -/
  | admitted (envelope : RequestEnvelope) (reading : Time) (pending : Bool)
  | modelCall (members : List RequestEnvelope) (inputs : List String)
  | modelReturned (members : List RequestEnvelope)
  | modelRaised (members : List RequestEnvelope)
  | resultSet (envelope : RequestEnvelope) (result : BatcherResult) (reading : Time)
  | exceptionSet (envelope : RequestEnvelope) (error : AppError) (reading : Time)
  deriving DecidableEq, Repr

structure Batcher where
  queue : Queue RequestEnvelope
  loopTask : Option LoopPoint := none
  stopping : Bool := false
  nextEnvelope : Option RequestEnvelope := none
  /-- `self._executor` has been shut down. -/
  executorDown : Bool := false
  futures : ℕ → Future BatcherResult AppError := fun _ => .pending
  nextFuture : ℕ := 0
  now : Time := 0
  /-- `self._loop_task.cancel()` has been called and not yet been delivered. -/
  cancelRequested : Bool := false
  /-- How many calls of `close` are waiting for the loop task. -/
  closers : ℕ := 0
  /-- A call of `close` has returned. -/
  closed : Bool := false
  log : List Observation := []

namespace Batcher

/-! ## The interface: `enqueue`, `close`, `queue_depth` -/

def queueDepth (batcher : Batcher) : ℕ :=
  let depth := batcher.queue.qsize
  if batcher.nextEnvelope.isSome then depth + 1 else depth

/-- `self._loop_task is not None and not self._loop_task.done()`. -/
def loopLive (batcher : Batcher) : Bool :=
  match batcher.loopTask with
  | none => false
  | some (.finished _) => false
  | some _ => true

def start (batcher : Batcher) : Batcher :=
  if batcher.loopLive then batcher
  else { batcher with loopTask := some .created, cancelRequested := false }

/-- `enqueue` up to `return await future`: the error it raises, or the number of
the future it then awaits. -/
def enqueue (batcher : Batcher) (requestId : String) (inputs : List String)
    (localDeadline : Time) : Except AppError ℕ × Batcher :=
  if batcher.stopping then
    (.error ⟨.workerQueueFullError, "Worker is shutting down."⟩, batcher)
  else
    let future := batcher.nextFuture
    let envelope : RequestEnvelope :=
      { requestId, inputs, localDeadline, enqueueTime := batcher.now, future }
    let batcher :=
      { batcher with
        futures := Function.update batcher.futures future .pending
        nextFuture := future + 1 }
    match batcher.queue.putNowait envelope with
    | none => (.error ⟨.workerQueueFullError, "Worker queue capacity reached."⟩, batcher)
    | some queue =>
        let accepted : Batcher :=
          { batcher with queue, log := batcher.log ++ [.accepted envelope] }
        (.ok future, accepted.start)

/-- A client gives up: the task awaiting the future is cancelled, and so is the future. -/
@[simps]
def cancelFuture (batcher : Batcher) (future : ℕ) : Batcher :=
  { batcher with
    futures := Function.update batcher.futures future (batcher.futures future).cancel }

/-- `close` up to `await self._loop_task`, or to its end if no loop task is live. -/
def close (batcher : Batcher) : Batcher :=
  if batcher.loopLive then
    { batcher with stopping := true, cancelRequested := true, closers := batcher.closers + 1 }
  else
    { batcher with stopping := true, executorDown := true, closed := true }

/-- The rest of `close`, once the loop task it waits for has ended. -/
@[simps]
def closeReturn (batcher : Batcher) : Batcher :=
  { batcher with closers := batcher.closers - 1, executorDown := true, closed := true }

/-! ## The loop task -/

@[simps]
def goto (batcher : Batcher) (point : LoopPoint) : Batcher :=
  { batcher with loopTask := some point }

@[simps]
def observe (batcher : Batcher) (observation : Observation) : Batcher :=
  { batcher with log := batcher.log ++ [observation] }

/-- The queue hands over `envelope` and keeps `rest`. -/
@[simps]
def dequeue (batcher : Batcher) (envelope : RequestEnvelope) (rest : List RequestEnvelope)
    (next : LoopPoint) : Batcher :=
  { batcher with
    queue := { batcher.queue with items := rest }
    log := batcher.log ++ [.dequeued envelope]
    loopTask := some next }

/-- The future of `envelope` becomes `future`, and the loop task goes on at `next`. -/
@[simps]
def settle (batcher : Batcher) (envelope : RequestEnvelope)
    (future : Future BatcherResult AppError) (observation : Observation)
    (next : LoopPoint) : Batcher :=
  { batcher with
    futures := Function.update batcher.futures envelope.future future
    log := batcher.log ++ [observation]
    loopTask := some next }

/-- `envelope.future.set_exception(error)`.  On a done future the `InvalidStateError`
ends the loop task. -/
def setException (batcher : Batcher) (envelope : RequestEnvelope) (error : AppError)
    (next : LoopPoint) : Batcher :=
  match (batcher.futures envelope.future).setException error with
  | none => batcher.goto (.finished .invalidState)
  | some future => batcher.settle envelope future (.exceptionSet envelope error batcher.now) next

/-- `envelope.future.set_result(result)`, likewise. -/
def setResult (batcher : Batcher) (envelope : RequestEnvelope) (result : BatcherResult)
    (next : LoopPoint) : Batcher :=
  match (batcher.futures envelope.future).setResult result with
  | none => batcher.goto (.finished .invalidState)
  | some future => batcher.settle envelope future (.resultSet envelope result batcher.now) next

def done (batcher : Batcher) (envelope : RequestEnvelope) : Bool :=
  (batcher.futures envelope.future).done

/-- The result the last `for` of `_process_batch` builds for one envelope. -/
def buildResult (work : Assembly) (output : ModelOutput) (endProcessTime : Time)
    (envelope : RequestEnvelope) (sStart sEnd : ℕ) : BatcherResult where
  predictions := Slices.slice output.preds sStart sEnd
  queueMs := max 0 ((work.startProcessTime - envelope.enqueueTime) * 1000)
  preprocessMs := output.prepMs
  inferenceMs := output.infMs
  postprocessMs := output.postMs
  workerTotalMs := max 0 ((endProcessTime - envelope.enqueueTime) * 1000)

def expiredInQueue : AppError := ⟨.deadlineExceededError, "Deadline expired in queue."⟩
def expiredBeforeExecution : AppError :=
  ⟨.deadlineExceededError, "Deadline expired before execution."⟩
def expiredAfterExecution : AppError :=
  ⟨.deadlineExceededError, "Deadline expired after execution."⟩
def inferenceFailed : AppError := ⟨.internalServerError, "Inference failed."⟩

/-- The running loop task goes on from `point` up to its next reading of the
clock or its next suspension. -/
def advance (config : BatcherConfig) (batcher : Batcher) : LoopPoint → Batcher
  | .loopHead =>
      if batcher.stopping then batcher.goto (.finished .returned)
      else
        match batcher.nextEnvelope with
        | some first => { batcher with nextEnvelope := none }.goto (.checkFirst first)
        | none =>
            match batcher.queue.items with
            | first :: rest => batcher.dequeue first rest (.checkFirst first)
            | [] => batcher.goto .awaitFirst
  | .checkFirst first =>
      if batcher.done first then batcher.goto .loopHead
      else if first.localDeadline < batcher.now then
        batcher.setException first expiredInQueue .loopHead
      else batcher.goto (.openBatch first)
  | .openBatch first =>
      batcher.goto (.collect [first] first.inputs.length
        (batcher.now + (config.maxBatchDelayMs : ℚ) / 1000))
  | .collect batch totalItems deadlineTimer =>
      if batch.length < config.maxBatchRequests ∧ totalItems < config.maxBatchItems then
        if deadlineTimer - batcher.now ≤ 0 then batcher.goto (.processBatch batch)
        else
          match batcher.queue.items with
          | envelope :: rest =>
              batcher.dequeue envelope rest (.checkNext batch totalItems deadlineTimer envelope)
          | [] => batcher.goto (.awaitNext batch totalItems deadlineTimer)
      else batcher.goto (.processBatch batch)
  | .checkNext batch totalItems deadlineTimer envelope =>
      if batcher.done envelope then batcher.goto (.collect batch totalItems deadlineTimer)
      else if envelope.localDeadline < batcher.now then
        batcher.setException envelope expiredInQueue (.collect batch totalItems deadlineTimer)
      else if config.maxBatchItems < totalItems + envelope.inputs.length then
        { batcher with nextEnvelope := some envelope }.goto (.processBatch batch)
      else
        batcher.goto (.collect (batch ++ [envelope]) (totalItems + envelope.inputs.length)
          deadlineTimer)
  | .processBatch batch =>
      batcher.goto (.assemble ⟨batcher.now, [], [], [], 0⟩ batch)
  | .assemble work (envelope :: todo) =>
      if batcher.done envelope then batcher.goto (.assemble work todo)
      else if envelope.localDeadline < batcher.now then
        batcher.setException envelope expiredBeforeExecution (.assemble work todo)
      else
        let count := envelope.inputs.length
        (batcher.observe (.admitted envelope batcher.now (!batcher.done envelope))).goto
          (.assemble
            { work with
              validBatch := work.validBatch ++ [envelope]
              flattenedInputs := work.flattenedInputs ++ envelope.inputs
              slices := work.slices ++ [(work.idx, work.idx + count)]
              idx := work.idx + count } todo)
  | .assemble work [] =>
      if work.validBatch.isEmpty then batcher.goto .loopHead
      -- `run_in_executor` raises `RuntimeError` once the executor is shut down.
      else if batcher.executorDown then batcher.goto (.failBatch work.validBatch)
      else
        (batcher.observe (.modelCall work.validBatch work.flattenedInputs)).goto (.awaitModel work)
  | .failBatch (envelope :: todo) =>
      if batcher.done envelope then batcher.goto (.failBatch todo)
      else batcher.setException envelope inferenceFailed (.failBatch todo)
  | .failBatch [] => batcher.goto .loopHead
  | .deliver work output endProcessTime ((envelope, sStart, sEnd) :: todo) =>
      if batcher.done envelope then batcher.goto (.deliver work output endProcessTime todo)
      else
        let result := buildResult work output endProcessTime envelope sStart sEnd
        if envelope.localDeadline < batcher.now then
          batcher.setException envelope expiredAfterExecution
            (.deliver work output endProcessTime todo)
        else batcher.setResult envelope result (.deliver work output endProcessTime todo)
  | .deliver _ _ _ [] => batcher.goto .loopHead
  | _ => batcher

/-- What resumes the suspended loop task. -/
inductive Wakeup
  /-- Its first step. -/
  | started
  /-- A `get` finds an item. -/
  | item
  /-- The timer of `wait_for` fires.  asyncio rounds timers to the resolution of its
  clock, and nothing below depends on when exactly this happens. -/
  | timeout
  /-- `CancelledError` is raised where the task is suspended. -/
  | cancelled
  | modelReturns (output : ModelOutput)
  | modelRaises

/-- The suspended loop task is resumed.  A requested cancellation is delivered
before anything else. -/
def resume (batcher : Batcher) (wakeup : Wakeup) : LoopPoint → Option Batcher
  | .created =>
      match wakeup, batcher.cancelRequested with
      | .started, false => some (batcher.goto .loopHead)
      | .cancelled, true =>
          some ({ batcher with cancelRequested := false }.goto (.finished .cancelled))
      | _, _ => none
  | .awaitFirst =>
      match wakeup, batcher.cancelRequested, batcher.queue.items with
      | .item, false, first :: rest => some (batcher.dequeue first rest (.checkFirst first))
      -- `except asyncio.CancelledError: break`
      | .cancelled, true, _ =>
          some ({ batcher with cancelRequested := false }.goto (.finished .returned))
      | _, _, _ => none
  | .awaitNext batch totalItems deadlineTimer =>
      match wakeup, batcher.cancelRequested, batcher.queue.items with
      | .item, false, envelope :: rest =>
          some (batcher.dequeue envelope rest (.checkNext batch totalItems deadlineTimer envelope))
      -- `except (asyncio.TimeoutError, asyncio.CancelledError): break`
      | .timeout, false, _ => some (batcher.goto (.processBatch batch))
      | .cancelled, true, _ =>
          some ({ batcher with cancelRequested := false }.goto (.processBatch batch))
      | _, _, _ => none
  | .awaitModel work =>
      match wakeup, batcher.cancelRequested with
      | .modelReturns output, false =>
          some ((batcher.observe (.modelReturned work.validBatch)).goto
            (.deliver work output batcher.now (work.validBatch.zip work.slices)))
      | .modelRaises, false =>
          some ((batcher.observe (.modelRaised work.validBatch)).goto
            (.failBatch work.validBatch))
      -- `CancelledError` is not an `Exception`: it leaves `_process_batch` and `_run_loop`.
      | .cancelled, true =>
          some ({ batcher with cancelRequested := false }.goto (.finished .cancelled))
      | _, _ => none
  | _ => none

/-! ## The machine -/

/-- The loop task is not in the middle of a step. -/
def idle (batcher : Batcher) : Bool :=
  match batcher.loopTask with
  | none => true
  | some point => point.suspended

inductive Event
  | tick (elapsed : Time)
  | enqueue (requestId : String) (inputs : List String) (localDeadline : Time)
  | cancelFuture (future : ℕ)
  | close
  | closeReturn
  | resume (wakeup : Wakeup)
  | run

def step (config : BatcherConfig) (batcher : Batcher) : Event → Option Batcher
  | .tick elapsed =>
      if 0 ≤ elapsed then some { batcher with now := batcher.now + elapsed } else none
  | .enqueue requestId inputs localDeadline =>
      if batcher.idle then some (batcher.enqueue requestId inputs localDeadline).2 else none
  | .cancelFuture future =>
      if batcher.idle ∧ future < batcher.nextFuture then some (batcher.cancelFuture future)
      else none
  | .close => if batcher.idle then some batcher.close else none
  | .closeReturn =>
      match batcher.loopTask with
      | some (.finished .returned) | some (.finished .cancelled) =>
          if 0 < batcher.closers then some batcher.closeReturn else none
      | _ => none
  | .resume wakeup => batcher.loopTask.bind (batcher.resume wakeup)
  | .run =>
      match batcher.loopTask with
      | none => none
      | some point => if point.suspended then none else some (batcher.advance config point)

/-- A batcher as `__init__` leaves it, at some reading of the clock. -/
def initial (config : BatcherConfig) (now : Time) : Batcher :=
  { queue := { maxsize := config.queueCapacity }, now }

def machine (config : BatcherConfig) : Transition.Machine Batcher Event where
  Initial batcher := ∃ now, batcher = initial config now
  step := step config

/-- The state a list of events leads to from time 0. -/
def sample (config : BatcherConfig) (events : List Event) : Batcher :=
  (machine config).after (initial config 0) events

theorem reachableBy_sample {Allowed : Batcher → Event → Prop} (config : BatcherConfig)
    (events : List Event) (hallowed : ∀ event ∈ events, ∀ batcher, Allowed batcher event) :
    (machine config).ReachableBy Allowed (sample config events) := by
  have hinitial : (machine config).Initial (initial config 0) := ⟨0, rfl⟩
  exact (Transition.Machine.ReachableBy.initial hinitial).after events hallowed

theorem reachable_sample (config : BatcherConfig) (events : List Event) :
    (machine config).Reachable (sample config events) :=
  reachableBy_sample config events fun _ _ _ => trivial

end Batcher
end ModelServer
