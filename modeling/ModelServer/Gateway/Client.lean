import ModelServer.Library.Asyncio
import ModelServer.Gateway.Scheduler

/-!
# `GatewayClient.predict`

A `Call` is one call of `predict`, and `CallPoint` is where it stands, with the
local variables that are live there.  Any number of calls share the scheduler and
its lock.  One event loop runs them: `running` is the call that is in the middle
of a step, and only while there is none do other calls, the pollers, answers to
RPCs and cancellations get their turn.  The clock may advance at any moment.

Acquiring the lock suspends a call only if the lock is taken; both cases are here.

`chosen`, `reserved`, `sent`, `ended` and `retryReadings` are a record of what a
call did, and `budgetAt` of when it computed `remaining`.  No step reads them.
-/

namespace ModelServer

open Asyncio Transition

/-- `for attempt in (1, 2)`. -/
inductive Attempt
  | first
  | second
  deriving DecidableEq, Repr

def Attempt.number : Attempt → ℕ
  | first => 1
  | second => 2

structure GatewayPredictionResult where
  workerId : String
  attempts : ℕ
  predictions : List Prediction
  workerTiming : WorkerTiming
  deriving DecidableEq, Repr

/-- How an RPC ends. -/
inductive RpcOutcome
  | success (resp : PredictResponse)
  /-- An `AioRpcError` with its code and `details()`. -/
  | status (code : StatusCode) (details : Option String)
  /-- Another exception. -/
  | foreign
  deriving DecidableEq, Repr

/-- How a call of `predict` ends. -/
inductive CallOutcome
  | returned (result : GatewayPredictionResult)
  | raised (error : AppError)
  /-- An exception that is neither an `AppError` nor a `CancelledError`. -/
  | foreign
  | cancelled
  deriving DecidableEq, Repr

/-- What follows the `finally`. -/
inductive AfterRelease
  /-- The `for` loop goes on after this attempt. -/
  | next (attempt : Attempt)
  | leave (outcome : CallOutcome)
  deriving DecidableEq, Repr

/-- The two critical sections. -/
inductive Section
  | select (attempt : Attempt) (remaining : Time)
  | release (worker : String) (after : AfterRelease)
  deriving DecidableEq, Repr

inductive CallPoint
  | start
  /-- The head of the loop body, where `remaining` is computed. -/
  | budget (attempt : Attempt)
  /-- `async with self._lock`. -/
  | acquire (part : Section)
  /-- Suspended in the `acquire` of the lock. -/
  | lockWait (part : Section)
  /-- Inside the `async with`. -/
  | critical (part : Section)
  /-- The request is about to be built and sent. -/
  | dispatch (attempt : Attempt) (worker : String) (remaining : Time)
  /-- Suspended in `await stub.Predict(..)`. -/
  | awaitRpc (attempt : Attempt) (worker : String)
  /-- After `UNAVAILABLE`, where `remaining_after` is computed. -/
  | retryCheck (attempt : Attempt) (worker : String)
  | finished (outcome : CallOutcome)
  deriving DecidableEq, Repr

namespace CallPoint

/-- The call is not in the middle of a step. -/
def suspended : CallPoint → Bool
  | start | lockWait _ | awaitRpc .. | finished _ => true
  | _ => false

end CallPoint

/-- One RPC as it was sent, and the node of its worker when it was selected. -/
structure SentRpc where
  worker : String
  timeout : Time
  budgetAt : Time
  sentAt : Time
  node : WorkerNode
  deriving DecidableEq, Repr

structure Call where
  requestId : String
  inputs : List String
  modelVersion : String
  timeoutMs : ℤ
  gatewayDeadline : Time := 0
  excludeIds : Finset String := ∅
  point : CallPoint := .start
  budgetAt : Time := 0
  /-- The node last selected, as it was before the reservation. -/
  chosen : WorkerNode := { address := "" }
  /-- The workers selected and not yet released. -/
  reserved : List String := []
  sent : List SentRpc := []
  /-- How the RPCs ended, in order. -/
  ended : List RpcOutcome := []
  /-- The readings with which `remaining_after` was computed. -/
  retryReadings : List Time := []

/-- What the calls share. -/
structure Shared where
  scheduler : Scheduler
  lock : Lock ℕ := {}
  running : Option ℕ := none
  now : Time := 0
  /-- `GATEWAY_RETRIES_TOTAL`, by its label. -/
  retriesTotal : String → ℕ := fun _ => 0
  /-- `GATEWAY_RPC_FAILURES_TOTAL`, by worker and gRPC code. -/
  rpcFailuresTotal : String → String → ℕ := fun _ _ => 0

structure Gateway extends Shared where
  calls : List Call := []

/-! ## The pieces of `predict` -/

/-- `_map_rpc_error`: it raises in every branch. -/
def mapRpcError (code : StatusCode) (details : Option String) : Except AppError Unit :=
  let details := details.getD ""
  match code with
  | .invalidArgument =>
      if "UNSUPPORTED_MODEL".toList <:+: details.toList then
        .error (.default .unsupportedModelError)
      else .error (.default .invalidRequestError)
  | .resourceExhausted => .error (.default .workerQueueFullError)
  | .failedPrecondition => .error (.default .workerUnavailableError)
  | .deadlineExceeded => .error (.default .deadlineExceededError)
  | .internal => .error (.default .internalServerError)
  | code => .error ⟨.internalServerError, "gRPC error: " ++ code.name⟩

def resultOf (attempt : Attempt) (worker : String) (resp : PredictResponse) :
    GatewayPredictionResult where
  workerId := worker
  attempts := attempt.number
  predictions := resp.predictions.map fun p => { label := p.label, score := p.score }
  workerTiming := resp.timing

def budgetExhausted : AppError :=
  ⟨.deadlineExceededError, "Gateway deadline exceeded before RPC dispatch."⟩
def retryExhausted : AppError :=
  ⟨.workerUnavailableError, "Worker unavailable and retry budget exhausted."⟩
def failedAfterRetries : AppError :=
  ⟨.workerUnavailableError, "Prediction failed after retries."⟩

namespace Shared

/-- The call with this number goes on running. -/
@[simps]
def runs (s : Shared) (id : ℕ) : Shared := { s with running := some id }

/-- No call is in the middle of a step. -/
@[simps]
def rests (s : Shared) : Shared := { s with running := none }

@[simps]
def holds (s : Shared) (lock : Lock ℕ) : Shared := { s with lock }

/-- `select_worker` returns and releases the lock. -/
@[simps]
def selected (s : Shared) (scheduler : Scheduler) : Shared :=
  { s with scheduler, lock := s.lock.release }

/-- `release_worker`, which releases the lock as well. -/
@[simps]
def released (s : Shared) (worker : String) : Shared :=
  { s with scheduler := s.scheduler.releaseWorker worker, lock := s.lock.release }

/-- `labels(result=result).inc()`. -/
@[simps]
def countRetry (s : Shared) (result : String) : Shared :=
  { s with
    retriesTotal := Function.update s.retriesTotal result (s.retriesTotal result + 1) }

@[simps]
def countRpcFailure (s : Shared) (worker : String) (code : StatusCode) : Shared :=
  { s with
    rpcFailuresTotal := Function.update s.rpcFailuresTotal worker
      (Function.update (s.rpcFailuresTotal worker) code.name
        (s.rpcFailuresTotal worker code.name + 1)) }

/-- `self.registry.mark_unhealthy_immediately(worker)`. -/
@[simps]
def markUnhealthy (config : GatewayConfig) (s : Shared) (worker : String) : Shared :=
  { s with
    scheduler := { s.scheduler with
      registry := s.scheduler.registry.markUnhealthyImmediately config worker } }

/-- The poller of `worker` gets `outcome`. -/
@[simps]
def probe (config : GatewayConfig) (s : Shared) (worker : String) (outcome : ProbeOutcome) :
    Shared :=
  { s with
    scheduler := { s.scheduler with
      registry := s.scheduler.registry.pollWorkerHealth config s.now worker outcome } }

end Shared

namespace Call

@[simps]
def goto (call : Call) (point : CallPoint) : Call := { call with point }

/-- The `PredictRequest` that each attempt sends. -/
def request (call : Call) : PredictRequest where
  requestId := call.requestId
  modelVersion := call.modelVersion
  inputs := call.inputs

/-- `remaining = gateway_deadline - loop.time()`. -/
def remaining (call : Call) (now : Time) : Time := call.gatewayDeadline - now

@[simps]
def setDeadline (call : Call) (now : Time) : Call :=
  { call with gatewayDeadline := now + (call.timeoutMs : ℚ) / 1000 }

@[simps]
def setBudget (call : Call) (now : Time) : Call := { call with budgetAt := now }

@[simps]
def selected (call : Call) (worker : String) (node : WorkerNode) : Call :=
  { call with chosen := node, reserved := call.reserved ++ [worker] }

@[simps]
def released (call : Call) (worker : String) : Call :=
  { call with reserved := call.reserved.erase worker }

/-- `stub.Predict(req, timeout=timeout)`. -/
@[simps]
def send (call : Call) (worker : String) (timeout sentAt : Time) : Call :=
  { call with
    sent := call.sent ++
      [{ worker, timeout, budgetAt := call.budgetAt, sentAt, node := call.chosen }] }

@[simps]
def endRpc (call : Call) (outcome : RpcOutcome) : Call :=
  { call with ended := call.ended ++ [outcome] }

/-- `exclude_ids.add(worker)`. -/
@[simps]
def exclude (call : Call) (worker : String) : Call :=
  { call with excludeIds := insert worker call.excludeIds }

@[simps]
def readRetry (call : Call) (now : Time) : Call :=
  { call with retryReadings := call.retryReadings ++ [now] }

/-- Into the `finally`. -/
@[simps]
def cleanUp (call : Call) (worker : String) (after : AfterRelease) : Call :=
  { call with point := .acquire (.release worker after) }

/-- The running call goes on up to its next reading of the clock, its next critical
section or its next suspension. -/
def advance (config : GatewayConfig) (s : Shared) (id : ℕ) (call : Call) :
    CallPoint → Shared × Call
  | .start => (s.runs id, (call.setDeadline s.now).goto (.budget .first))
  | .budget attempt =>
      if call.remaining s.now ≤ 0 then (s.rests, call.goto (.finished (.raised budgetExhausted)))
      else
        (s, (call.setBudget s.now).goto (.acquire (.select attempt (call.remaining s.now))))
  | .acquire part =>
      match s.lock.acquire with
      | some lock => (s.holds lock, call.goto (.critical part))
      | none => ((s.holds (s.lock.enqueue id)).rests, call.goto (.lockWait part))
  | .critical (.select attempt remaining) =>
      match s.scheduler.selectWorker config call.excludeIds with
      | .error error => ((s.holds s.lock.release).rests, call.goto (.finished (.raised error)))
      | .ok (worker, scheduler) =>
          (s.selected scheduler,
            (call.selected worker (s.scheduler.registry.node worker)).goto
              (.dispatch attempt worker remaining))
  | .critical (.release worker after) =>
      match after with
      | .next .first => (s.released worker, (call.released worker).goto (.budget .second))
      | .next .second =>
          ((s.released worker).rests,
            (call.released worker).goto (.finished (.raised failedAfterRetries)))
      | .leave outcome =>
          ((s.released worker).rests, (call.released worker).goto (.finished outcome))
  | .dispatch attempt worker remaining =>
      (s.rests, (call.send worker remaining s.now).goto (.awaitRpc attempt worker))
  | .retryCheck attempt worker =>
      if attempt = .first ∧ (config.minRetryBudgetMs : ℚ) ≤ call.remaining s.now * 1000 then
        (s.countRetry "attempted", (call.readRetry s.now).cleanUp worker (.next attempt))
      else
        (s.countRetry "failed",
          (call.readRetry s.now).cleanUp worker (.leave (.raised retryExhausted)))
  | _ => (s, call)

/-- The awaited RPC ends. -/
def resumeRpc (config : GatewayConfig) (s : Shared) (id : ℕ) (call : Call) (attempt : Attempt)
    (worker : String) (outcome : RpcOutcome) : Shared × Call :=
  let call := call.endRpc outcome
  match outcome with
  | .success resp =>
      (s.runs id, call.cleanUp worker (.leave (.returned (resultOf attempt worker resp))))
  | .status code details =>
      let s := (s.runs id).countRpcFailure worker code
      if code = .unavailable then
        (s.markUnhealthy config worker, (call.exclude worker).goto (.retryCheck attempt worker))
      else
        match mapRpcError code details with
        | .error error => (s, call.cleanUp worker (.leave (.raised error)))
        -- without an exception the loop would go on
        | .ok () => (s, call.cleanUp worker (.next attempt))
  | .foreign => (s.runs id, call.cleanUp worker (.leave .foreign))

/-- `CancelledError` is raised where the call is suspended. -/
def resumeCancelled (s : Shared) (id : ℕ) (call : Call) : Option (Shared × Call) :=
  match call.point with
  | .start => some (s, call.goto (.finished .cancelled))
  -- the `finally` still runs
  | .awaitRpc _ worker =>
      some (s.runs id, call.cleanUp worker (.leave .cancelled))
  | .lockWait _ => some (s.holds (s.lock.abandon id), call.goto (.finished .cancelled))
  | _ => none

end Call

/-! ## The machine -/

namespace Gateway

def store (g : Gateway) (id : ℕ) (outcome : Shared × Call) : Gateway :=
  { outcome.1 with calls := g.calls.set id outcome.2 }

/-- `predict(..)` before its first step. -/
def newCall (requestId : String) (inputs : List String) (modelVersion : String)
    (timeoutMs : ℤ) : Call :=
  { requestId, inputs, modelVersion, timeoutMs }

inductive Event
  | tick (elapsed : Time)
  | call (requestId : String) (inputs : List String) (modelVersion : String) (timeoutMs : ℤ)
  /-- The first step of a call. -/
  | start (id : ℕ)
  | run
  /-- `get_stub` or the construction of the request raises. -/
  | dispatchFails
  | rpcResult (id : ℕ) (outcome : RpcOutcome)
  | cancel (id : ℕ)
  | lockGranted (id : ℕ)
  | probe (worker : String) (outcome : ProbeOutcome)

def step (config : GatewayConfig) (g : Gateway) : Event → Option Gateway
  | .tick elapsed => if 0 ≤ elapsed then some { g with now := g.now + elapsed } else none
  | .call requestId inputs modelVersion timeoutMs =>
      if g.running = none then
        some { g with calls := g.calls ++ [newCall requestId inputs modelVersion timeoutMs] }
      else none
  | .start id => do
      guard (g.running = none)
      let call ← g.calls[id]?
      match call.point with
      | .start => some (g.store id (call.advance config g.toShared id .start))
      | _ => none
  | .run => do
      let id ← g.running
      let call ← g.calls[id]?
      some (g.store id (call.advance config g.toShared id call.point))
  | .dispatchFails => do
      let id ← g.running
      let call ← g.calls[id]?
      match call.point with
      | .dispatch _ worker _ =>
          some (g.store id (g.toShared, call.cleanUp worker (.leave .foreign)))
      | _ => none
  | .rpcResult id outcome => do
      guard (g.running = none)
      let call ← g.calls[id]?
      match call.point with
      | .awaitRpc attempt worker =>
          some (g.store id (call.resumeRpc config g.toShared id attempt worker outcome))
      | _ => none
  | .cancel id => do
      guard (g.running = none)
      let call ← g.calls[id]?
      let outcome ← call.resumeCancelled g.toShared id
      some (g.store id outcome)
  | .lockGranted id => do
      guard (g.running = none)
      let call ← g.calls[id]?
      match call.point, g.lock.grant id with
      | .lockWait part, some lock =>
          some (g.store id ((g.toShared.holds lock).runs id, call.goto (.critical part)))
      | _, _ => none
  | .probe worker outcome =>
      if g.running = none ∧ worker ∈ g.scheduler.registry.ids then
        some { g with toShared := g.toShared.probe config worker outcome }
      else none

/-- A gateway before the first probe and the first call. -/
def initial (config : GatewayConfig) (now : Time) : Gateway :=
  { scheduler := { registry := .ofConfig config }, now }

def machine (config : GatewayConfig) : Machine Gateway Event where
  Initial g := ∃ now, g = initial config now
  step := step config

theorem reachable_of_step {config : GatewayConfig} {g next : Gateway} {event : Event}
    (hreach : (machine config).Reachable g) (hstep : g.step config event = some next) :
    (machine config).Reachable next := by
  have hstep' : (machine config).step g event = some next := hstep
  exact hreach.next hstep'

/-- The state a list of events leads to from time 0. -/
def sample (config : GatewayConfig) (events : List Event) : Gateway :=
  (machine config).after (initial config 0) events

theorem reachable_sample (config : GatewayConfig) (events : List Event) :
    (machine config).Reachable (sample config events) := by
  have hinitial : (machine config).Initial (initial config 0) := ⟨0, rfl⟩
  exact (Machine.Reachable.initial hinitial).after events

end Gateway
end ModelServer
