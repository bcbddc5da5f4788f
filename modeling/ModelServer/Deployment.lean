import ModelServer.Cluster
import ModelServer.Gateway.Pollers

/-!
# The whole deployment

A `Deployment` is a cluster whose gateway polls its workers: the probes of a poller are
`GetStatus` RPCs, and what they reply is what the worker at that address says of itself.
A poller has one such RPC at a time.  It reaches the worker, and its answer the poller,
at any later moment or never.  Each address runs one model for the whole run: what is
configured for it does not change.

Seen without its pollers a deployment is a cluster (`clusterSimulation`), whose probes are
no longer up to the environment.
-/

namespace ModelServer

open Transition

structure DeploymentConfig where
  gateway : PollConfig
  /-- The configuration of the worker at each address, for the whole run. -/
  worker : String → WorkerConfig
  /-- `model_sha256` of its configuration. -/
  modelSha256 : String → String

def DeploymentConfig.cluster (config : DeploymentConfig) : ClusterConfig where
  gateway := config.gateway.toGatewayConfig
  worker := config.worker

namespace Servicer

/-- A field of type `uint32`; the constructor of the message raises on other numbers. -/
def uint32 (value : ℤ) : Option ℕ := if 0 ≤ value ∧ value < 2 ^ 32 then some value.toNat else none

/-- `GetStatus`; `none` where it raises. -/
def getStatus (config : WorkerConfig) (modelSha256 : String) (s : Servicer) :
    Option StatusResponse := do
  let queueDepth ← uint32 s.batcher.queueDepth
  let queueCapacity ← uint32 config.queueCapacity
  some
    { workerId := config.workerId
      modelVersion := config.modelVersion
      modelSha256 := modelSha256
      state := s.state
      queueDepth := queueDepth
      queueCapacity := queueCapacity
      activeBatches := 0 }

end Servicer

structure Deployment extends Cluster where
  pollers : Pollers := {}
  /-- The answer to the `GetStatus` of a poller, on its way back. -/
  statuses : ℕ → Option StatusResponse := fun _ => none

namespace Deployment

inductive Event
  /-- A step of the cluster that is not one of the pollers. -/
  | cluster (event : Cluster.Event)
  /-- `get_stub` raises in the running call. -/
  | stubFails
  /-- A step of the pollers in which no reply arrives. -/
  | pollers (event : Pollers.Event)
  /-- The worker of a poller answers its `GetStatus`. -/
  | status (id : ℕ)
  /-- The answer reaches the poller. -/
  | reply (id : ℕ)

/-- The worker whose channel is there after an event, if it is the one of a dispatch. -/
def dispatched (d : Deployment) : Cluster.Event → Option String
  | .gateway event => d.gateway.dispatched event
  | _ => none

/-- A new `GetStatus` has no answer yet. -/
def asked (statuses : ℕ → Option StatusResponse) : Pollers.Event → ℕ → Option StatusResponse
  | .poll id => Function.update statuses id none
  | _ => statuses

/-- The address a poller asks. -/
def address (d : Deployment) (poller : Poller) : String :=
  (d.gateway.scheduler.registry.node poller.worker).address

def step (config : DeploymentConfig) (d : Deployment) : Event → Option Deployment
  | .cluster (.gateway (.probe _ _)) => none
  | .cluster event => do
      let cluster ← d.toCluster.step config.cluster event
      some { d with toCluster := cluster, pollers := d.pollers.dispatch (d.dispatched event) }
  | .stubFails => do
      let cluster ← d.toCluster.step config.cluster (.gateway .dispatchFails)
      some { d with toCluster := cluster }
  | .pollers (.outcome _ (.reply _)) => none
  | .pollers event => do
      let (gateway, pollers) ← d.pollers.step config.gateway d.gateway event
      some { d with gateway, pollers, statuses := asked d.statuses event }
  | .status id => do
      let poller ← d.pollers.pollers[id]?
      guard (poller.point = .awaitStatus ∧ (d.statuses id).isNone)
      guard (d.servicer (d.address poller)).atRest
      let resp ← (d.servicer (d.address poller)).getStatus (config.worker (d.address poller))
        (config.modelSha256 (d.address poller))
      some { d with statuses := Function.update d.statuses id (some resp) }
  | .reply id => do
      let resp ← d.statuses id
      let (gateway, pollers) ← d.pollers.step config.gateway d.gateway (.outcome id (.reply resp))
      some { d with gateway, pollers }

/-- The gateway and its workers before their first steps, each at its own clock. -/
def initial (config : DeploymentConfig) (gatewayNow : Time) (workerNow : String → Time) :
    Deployment where
  toCluster := Cluster.initial config.cluster gatewayNow workerNow

def machine (config : DeploymentConfig) : Machine Deployment Event where
  Initial d := ∃ gatewayNow workerNow, d = initial config gatewayNow workerNow
  step := step config

/-! ## Everything a deployment can do -/

inductive Step (config : DeploymentConfig) (d : Deployment) : Event → Deployment → Prop
  | cluster {event : Cluster.Event} {cluster : Cluster}
      (hother : ∀ worker outcome, event ≠ .gateway (.probe worker outcome))
      (hcluster : d.toCluster.step config.cluster event = some cluster) :
      Step config d (.cluster event)
        { d with toCluster := cluster, pollers := d.pollers.dispatch (d.dispatched event) }
  | stubFails {cluster : Cluster}
      (hcluster : d.toCluster.step config.cluster (.gateway .dispatchFails) = some cluster) :
      Step config d .stubFails { d with toCluster := cluster }
  | pollers {event : Pollers.Event} {gateway : Gateway} {pollers : Pollers}
      (hother : ∀ id resp, event ≠ .outcome id (.reply resp))
      (hpollers : Pollers.Step config.gateway d.gateway d.pollers event gateway pollers) :
      Step config d (.pollers event) { d with gateway, pollers, statuses := asked d.statuses event }
  | status {id : ℕ} {poller : Poller} {resp : StatusResponse}
      (hpoller : d.pollers.pollers[id]? = some poller) (hpoint : poller.point = .awaitStatus)
      (hrest : (d.servicer (d.address poller)).atRest)
      (hresp : (d.servicer (d.address poller)).getStatus (config.worker (d.address poller))
        (config.modelSha256 (d.address poller)) = some resp) :
      Step config d (.status id) { d with statuses := Function.update d.statuses id (some resp) }
  | reply {id : ℕ} {resp : StatusResponse} {gateway : Gateway} {pollers : Pollers}
      (hresp : d.statuses id = some resp)
      (hpollers :
        Pollers.Step config.gateway d.gateway d.pollers (.outcome id (.reply resp)) gateway
        pollers) :
      Step config d (.reply id) { d with gateway, pollers }

variable {config : DeploymentConfig}

private theorem step_of_clusterStep {d next : Deployment} {event : Cluster.Event}
    (hother : ∀ worker outcome, event ≠ .gateway (.probe worker outcome))
    (hstep : (do
      let cluster ← d.toCluster.step config.cluster event
      some { d with toCluster := cluster, pollers := d.pollers.dispatch (d.dispatched event) }) =
      some next) : Step config d (.cluster event) next := by
  simp only [Option.bind_eq_bind, Option.bind_eq_some_iff, Option.some.injEq] at hstep
  obtain ⟨cluster, hcluster, rfl⟩ := hstep
  exact .cluster hother hcluster

private theorem step_of_pollersStep {d next : Deployment} {event : Pollers.Event}
    (hother : ∀ id resp, event ≠ .outcome id (.reply resp))
    (hstep : (do
      let (gateway, pollers) ← d.pollers.step config.gateway d.gateway event
      some { d with gateway, pollers, statuses := asked d.statuses event }) = some next) :
    Step config d (.pollers event) next := by
  simp only [Option.bind_eq_bind, Option.bind_eq_some_iff, Option.some.injEq] at hstep
  obtain ⟨⟨gateway, pollers⟩, hpollers, rfl⟩ := hstep
  exact .pollers hother (Pollers.step_cases hpollers)

/-- The inversion lemma of `step`. -/
theorem step_cases {d next : Deployment} {event : Event} (hstep : d.step config event = some next) :
    Step config d event next := by
  cases event with
  | cluster event =>
      cases event with
      | gateway event =>
          cases event with
          | probe => simp [step] at hstep
          | _ => exact step_of_clusterStep (by simp) hstep
      | _ => exact step_of_clusterStep (by simp) hstep
  | stubFails =>
      simp only [step, Option.bind_eq_bind, Option.bind_eq_some_iff, Option.some.injEq] at hstep
      obtain ⟨cluster, hcluster, rfl⟩ := hstep
      exact .stubFails hcluster
  | pollers event =>
      cases event with
      | outcome id outcome =>
          cases outcome with
          | reply => simp [step] at hstep
          | rpcFailed => exact step_of_pollersStep (by simp) hstep
      | _ => exact step_of_pollersStep (by simp) hstep
  | status id =>
      simp only [step, Option.bind_eq_bind, Option.bind_eq_some_iff, Option.some.injEq] at hstep
      obtain ⟨poller, hpoller, _, hpoint, _, hrest, resp, hresp, rfl⟩ := hstep
      exact .status hpoller (by simpa using (show _ ∧ _ by simpa using hpoint).1)
        (by simpa using hrest) hresp
  | reply id =>
      simp only [step, Option.bind_eq_bind, Option.bind_eq_some_iff, Option.some.injEq] at hstep
      obtain ⟨resp, hresp, ⟨gateway, pollers⟩, hpollers, rfl⟩ := hstep
      exact .reply hresp (Pollers.step_cases hpollers)

/-! ## Refinement -/

/-- The probe that a step of the pollers is. -/
def probes (p : Pollers) (event : Pollers.Event) : List Cluster.Event :=
  (p.probed event).toList.map fun probed => .gateway (.probe probed.1 probed.2)

/-- The steps of the cluster that an event is. -/
def inner (d : Deployment) : Event → List Cluster.Event
  | .cluster event => [event]
  | .stubFails => [.gateway .dispatchFails]
  | .pollers event => probes d.pollers event
  | .status _ => []
  | .reply id => (d.statuses id).toList.flatMap fun resp =>
      probes d.pollers (.outcome id (.reply resp))

theorem run_of_pollers {d : Deployment} {event : Pollers.Event} {gateway : Gateway}
    {pollers : Pollers}
    (hpollers : Pollers.Step config.gateway d.gateway d.pollers event gateway pollers) :
    (Cluster.machine config.cluster).Run d.toCluster (probes d.pollers event)
      { d.toCluster with gateway } := by
  rcases Pollers.probed_of_step hpollers with ⟨hnone, rfl⟩ | ⟨worker, outcome, hprobe, hgateway⟩
  · simp only [probes, hnone]
    exact Machine.run_nil_iff.mpr rfl
  · simp only [probes, hprobe]
    refine Machine.run_singleton_iff.mpr ?_
    exact Option.map_eq_some_iff.mpr ⟨gateway, hgateway, rfl⟩

/-- **Refinement.**  Without its pollers a deployment is a cluster. -/
def clusterSimulation (config : DeploymentConfig) :
    Machine.Simulation (machine config) (Cluster.machine config.cluster) where
  abs := toCluster
  emit := inner
  initial := by
    rintro d ⟨gatewayNow, workerNow, rfl⟩
    exact ⟨gatewayNow, workerNow, rfl⟩
  step := by
    intro d event next _ hstep
    cases step_cases hstep with
    | cluster _ hcluster | stubFails hcluster => exact Machine.run_singleton_iff.mpr hcluster
    | pollers _ hpollers => exact run_of_pollers hpollers
    | status _ _ _ _ => exact Machine.run_nil_iff.mpr rfl
    | reply hresp hpollers =>
        simp only [inner, hresp, Option.toList_some, List.flatMap_singleton]
        exact run_of_pollers hpollers

theorem cluster_of_reachable {d : Deployment} (hreach : (machine config).Reachable d) :
    (Cluster.machine config.cluster).Reachable d.toCluster :=
  (clusterSimulation config).reachable hreach

end Deployment
end ModelServer
