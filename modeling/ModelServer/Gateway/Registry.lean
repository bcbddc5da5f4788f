import Mathlib.Algebra.Order.Ring.Rat
import Mathlib.Data.List.Nodup
import Mathlib.Logic.Function.Basic
import ModelServer.Shared.Errors
import ModelServer.Shared.Proto

/-!
# The registry of workers

`WorkerRegistry` holds one `WorkerNode` for each configured worker.  The poller of
a worker and `mark_unhealthy_immediately` are all that changes its health.

The samples of the metrics labelled with a worker's id are kept in its node.  The
gRPC channel of a node and the log lines are left out.
-/

namespace ModelServer

/-- The workers of the default configuration. -/
def defaultWorkers : List (String × String) :=
  [("worker-1", "worker-1:50051"), ("worker-2", "worker-2:50051"),
    ("worker-3", "worker-3:50051"), ("worker-4", "worker-4:50051")]

theorem nodup_defaultWorkers : (defaultWorkers.map Prod.fst).Nodup := by decide

structure GatewayConfig where
  modelVersion : String := "tinybert-sst2-v1"
  modelSha256 : String := "23ea44ed3eb302e22045900ba8565dd672a9f4c127f5514ce182f01d83fe2e3a"
  gatewayMaxOutstandingPerWorker : ℤ := 32
  healthFailureThreshold : ℤ := 3
  healthRecoveryThreshold : ℤ := 2
  minRetryBudgetMs : ℤ := 50
  /-- Worker ids and addresses, in the order of the dictionary. -/
  workers : List (String × String) := defaultWorkers
  nodup : (workers.map Prod.fst).Nodup := by first | exact nodup_defaultWorkers | decide

inductive HealthState
  | starting
  | healthy
  | unhealthy
  | draining
  deriving DecidableEq, Repr

/-- The part of a `WorkerNode` that the health checks work on. -/
structure Health where
  state : HealthState := .starting
  consecutiveFailures : ℤ := 0
  consecutiveSuccesses : ℕ := 0
  deriving DecidableEq, Repr

/-- The node of one worker; its `worker_id` is the key it is registered under. -/
structure WorkerNode extends Health where
  address : String
  outstandingRequests : ℕ := 0
  lastSuccessfulCheck : Time := 0
  /-- `GATEWAY_WORKER_HEALTHY` of this worker; 0 where it was never set. -/
  healthyGauge : ℕ := 0
  /-- `GATEWAY_WORKER_OUTSTANDING` of this worker. -/
  outstandingGauge : ℕ := 0
  /-- `GATEWAY_ROUTING_TOTAL` of this worker. -/
  routingTotal : ℕ := 0
  deriving DecidableEq, Repr

/-- How one `GetStatus` call of the poller ends. -/
inductive ProbeOutcome
  | reply (resp : StatusResponse)
  /-- Any exception: a gRPC status, a timeout. -/
  | rpcFailed
  deriving DecidableEq, Repr

/-- A reply of a worker that runs the default model. -/
def sampleReply (state : WorkerState) : StatusResponse where
  workerId := "worker-1"
  modelVersion := "tinybert-sst2-v1"
  modelSha256 := "23ea44ed3eb302e22045900ba8565dd672a9f4c127f5514ce182f01d83fe2e3a"
  state := state
  queueDepth := 0
  queueCapacity := 64
  activeBatches := 0

namespace WorkerNode

/-- `compatible` in `_poll_worker_health`. -/
def compatible (config : GatewayConfig) (resp : StatusResponse) : Bool :=
  resp.modelVersion = config.modelVersion ∧ resp.modelSha256 = config.modelSha256 ∧
    (resp.state = .ready ∨ resp.state = .starting)

def recordProbeFailure (config : GatewayConfig) (worker : WorkerNode) : WorkerNode :=
  let worker :=
    { worker with
      consecutiveSuccesses := 0
      consecutiveFailures := worker.consecutiveFailures + 1 }
  if worker.state = .healthy ∧ config.healthFailureThreshold ≤ worker.consecutiveFailures then
    { worker with state := .unhealthy, healthyGauge := 0 }
  else worker

/-- One round of `_poll_worker_health`, which gets `outcome` at the reading `now`. -/
def pollHealth (config : GatewayConfig) (now : Time) (worker : WorkerNode) :
    ProbeOutcome → WorkerNode
  | .reply resp =>
      if resp.state = .draining then
        { worker with
          state := .draining
          consecutiveFailures := 0
          consecutiveSuccesses := 0
          healthyGauge := 0 }
      else if compatible config resp then
        let worker :=
          { worker with
            consecutiveFailures := 0
            consecutiveSuccesses := worker.consecutiveSuccesses + 1
            lastSuccessfulCheck := now }
        if worker.state = .starting ∧ 1 ≤ worker.consecutiveSuccesses then
          { worker with state := .healthy, healthyGauge := 1 }
        else if worker.state = .unhealthy ∧
            config.healthRecoveryThreshold ≤ worker.consecutiveSuccesses then
          { worker with state := .healthy, healthyGauge := 1 }
        else worker
      else worker.recordProbeFailure config
  | .rpcFailed => worker.recordProbeFailure config

/-- `mark_unhealthy_immediately`, once the worker has been looked up. -/
def markUnhealthy (config : GatewayConfig) (worker : WorkerNode) : WorkerNode :=
  if worker.state = .healthy then
    { worker with
      state := .unhealthy
      consecutiveFailures := config.healthFailureThreshold
      consecutiveSuccesses := 0
      healthyGauge := 0 }
  else worker

/-- `select_worker` counts one more outstanding request. -/
@[simps! toHealth outstandingRequests]
def reserve (worker : WorkerNode) : WorkerNode :=
  { worker with
    outstandingRequests := worker.outstandingRequests + 1
    outstandingGauge := worker.outstandingRequests + 1
    routingTotal := worker.routingTotal + 1 }

/-- `release_worker` counts one less. -/
@[simps! toHealth outstandingRequests]
def unreserve (worker : WorkerNode) : WorkerNode :=
  { worker with
    outstandingRequests := worker.outstandingRequests - 1
    outstandingGauge := worker.outstandingRequests - 1 }

end WorkerNode

/-- `workers` is a dictionary: `ids` are its keys, in their order. -/
structure WorkerRegistry where
  ids : List String
  nodup : ids.Nodup
  node : String → WorkerNode

namespace WorkerRegistry

def ofConfig (config : GatewayConfig) : WorkerRegistry where
  ids := config.workers.map Prod.fst
  nodup := config.nodup
  node workerId := { address := (config.workers.lookup workerId).getD "" }

/-- Store a new value for the node of a worker. -/
@[simps]
def setNode (registry : WorkerRegistry) (workerId : String) (worker : WorkerNode) :
    WorkerRegistry :=
  { registry with node := Function.update registry.node workerId worker }

def isAnyWorkerHealthy (registry : WorkerRegistry) : Bool :=
  registry.ids.any fun workerId => (registry.node workerId).state = .healthy

def markUnhealthyImmediately (registry : WorkerRegistry) (config : GatewayConfig)
    (workerId : String) : WorkerRegistry :=
  if workerId ∈ registry.ids then
    registry.setNode workerId ((registry.node workerId).markUnhealthy config)
  else registry

/-- The poller of `workerId` gets `outcome`; there is a poller for each registered worker. -/
def pollWorkerHealth (registry : WorkerRegistry) (config : GatewayConfig) (now : Time)
    (workerId : String) (outcome : ProbeOutcome) : WorkerRegistry :=
  registry.setNode workerId ((registry.node workerId).pollHealth config now outcome)

end WorkerRegistry
end ModelServer
