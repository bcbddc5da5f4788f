import ModelServer.Agreement
import ModelServer.Deployment
import ModelServer.EndToEnd
import ModelServer.Gateway.Stopping

/-!
# Only compatible workers get requests

A node becomes healthy only by a reply that has the model version and the checksum of the
gateway, and a worker replies with its own, the same for the whole run.  So every request
is sent to a worker that serves the model of the gateway (`sent_to_compatible`), and no
worker answers a request that the gateway has checked with `INVALID_ARGUMENT`
(`never_invalid`).
-/

namespace ModelServer

open Transition

/-! ## The parts of a cluster -/

namespace Cluster

variable {config : ClusterConfig}

theorem parts_of_step {c next : Cluster} {event : Event} (hstep : Step config c event next)
    (hgateway : (Gateway.machine config.gateway).Reachable c.gateway)
    (hworkers : ∀ address,
      (Servicer.machine (config.worker address)).Reachable (c.servicer address)) :
    (Gateway.machine config.gateway).Reachable next.gateway ∧
      ∀ address, (Servicer.machine (config.worker address)).Reachable (next.servicer address) := by
  have hupdate : ∀ changed event servicer,
      (c.servicer changed).step (config.worker changed) event = some servicer → ∀ address,
      (Servicer.machine (config.worker address)).Reachable
        (Function.update c.servicer changed servicer address) := by
    intro changed event servicer hworker address
    rw [Function.update_apply]
    split
    · rename_i heq
      subst heq
      exact Servicer.reachableBy_of_step (hworkers address) trivial hworker
    · exact hworkers address
  cases hstep with
  | elapse hmoved hworker =>
      exact ⟨Gateway.reachable_of_step hgateway hmoved,
        fun address => Servicer.reachableBy_of_step (hworkers address) trivial (hworker address)⟩
  | gateway _ hmoved | answer _ _ _ _ _ hmoved =>
      exact ⟨Gateway.reachable_of_step hgateway hmoved, hworkers⟩
  | worker hworker | deliver _ _ hworker => exact ⟨hgateway, hupdate _ _ _ hworker⟩

theorem parts_of_reachable {c : Cluster} (hreach : (machine config).Reachable c) :
    (Gateway.machine config.gateway).Reachable c.gateway ∧
      ∀ address, (Servicer.machine (config.worker address)).Reachable (c.servicer address) := by
  apply hreach.invariant
  · rintro c ⟨gatewayNow, workerNow, rfl⟩
    exact ⟨.initial ⟨gatewayNow, rfl⟩, fun address => .initial ⟨workerNow address, rfl⟩⟩
  · intro c event next _ h hevent
    exact parts_of_step (step_cases hevent) h.1 h.2

end Cluster

/-! ## Which nodes are selected -/

namespace Gateway

variable {config : GatewayConfig}

/-- The nodes a call has sent its RPCs to, and the one it is about to send to. -/
structure Vetted (P : String → WorkerNode → Prop) (call : Call) : Prop where
  sent : ∀ rpc ∈ call.sent, P rpc.worker rpc.node
  chosen : ∀ attempt worker remaining, call.point = .dispatch attempt worker remaining →
    P worker call.chosen

/-- A call selects a healthy node, and sends its RPC to the node it has selected. -/
theorem vetted_of_callStep {P : String → WorkerNode → Prop} {s next : Shared} {id : ℕ}
    {call moved : Call} {event : Event} (hmove : CallStep config s id call event next moved)
    (hhealthy : ∀ worker, (s.health worker).state = .healthy →
      P worker (s.scheduler.registry.node worker))
    (h : Vetted P call) : Vetted P moved := by
  cases hmove
  case selects worker _ _ _ hselect =>
    refine ⟨h.sent, fun _ _ _ hpoint => ?_⟩
    obtain ⟨_, rfl, _⟩ := CallPoint.dispatch.inj hpoint
    exact hhealthy worker (Scheduler.selectWorker_spec hselect).eligible.2.1
  case sends hpoint =>
    refine ⟨fun rpc hmem => ?_, by simp⟩
    rcases List.mem_append.mp hmem with hold | hnew
    · exact h.sent rpc hold
    · rw [List.mem_singleton.mp hnew]
      exact h.chosen _ _ _ hpoint
  all_goals exact ⟨h.sent, by simp⟩

theorem address_of_setNode (registry : WorkerRegistry) (changed worker : String) {node : WorkerNode}
    (h : node.address = (registry.node changed).address) :
    ((registry.setNode changed node).node worker).address = (registry.node worker).address := by
  rw [WorkerRegistry.setNode_node, Function.update_apply]
  split
  · rename_i heq
    rw [h, heq]
  · rfl

theorem address_recordProbeFailure (node : WorkerNode) :
    (node.recordProbeFailure config).address = node.address := by
  simp only [WorkerNode.recordProbeFailure]
  split <;> rfl

theorem address_pollHealth (node : WorkerNode) (now : Time) (outcome : ProbeOutcome) :
    (node.pollHealth config now outcome).address = node.address := by
  cases outcome with
  | rpcFailed => exact address_recordProbeFailure node
  | reply resp =>
      simp only [WorkerNode.pollHealth]
      split
      · rfl
      · split
        · split
          · rfl
          · split <;> rfl
        · exact address_recordProbeFailure node

theorem address_markUnhealthy (registry : WorkerRegistry) (marked worker : String) :
    ((registry.markUnhealthyImmediately config marked).node worker).address =
      (registry.node worker).address := by
  unfold WorkerRegistry.markUnhealthyImmediately
  split
  · refine address_of_setNode registry marked worker ?_
    unfold WorkerNode.markUnhealthy
    split <;> rfl
  · rfl

theorem address_releaseWorker (s : Scheduler) (released worker : String) :
    ((s.releaseWorker released).registry.node worker).address =
      (s.registry.node worker).address := by
  unfold Scheduler.releaseWorker
  split
  · exact address_of_setNode s.registry released worker rfl
  · rfl

/-- The address of a worker stays as it was configured. -/
theorem address_of_step {g next : Gateway} {event : Event} (hstep : Step config g event next)
    (worker : String) : (next.scheduler.registry.node worker).address =
      (g.scheduler.registry.node worker).address := by
  cases hstep with
  | tick _ | call _ => rfl
  | @probe probed outcome _ _ =>
      exact address_of_setNode g.scheduler.registry probed worker
        (address_pollHealth _ g.now outcome)
  | move _ hmove =>
      cases hmove
      case selects hselect =>
        simp only [store, Call.goto, Shared.selected,
          (Scheduler.selectWorker_spec hselect).registry]
        exact address_of_setNode _ _ worker rfl
      case rpcUnavailable => exact address_markUnhealthy g.scheduler.registry _ worker
      case goesOn | loopEnds | leaves => exact address_releaseWorker g.scheduler _ worker
      all_goals rfl

theorem address_of_reachable {g : Gateway} (hreach : (machine config).Reachable g)
    (worker : String) : (g.scheduler.registry.node worker).address =
      (config.workers.lookup worker).getD "" := by
  apply hreach.invariant
  · rintro g ⟨now, rfl⟩
    rfl
  · intro g event next hbefore h hevent
    exact (address_of_step (step_of_reachable hbefore hevent) worker).trans h

theorem reply_of_verdict {g : Gateway} {event : Event} {worker : String}
    (h : .compatible ∈ g.verdicts config worker event) :
    ∃ resp, event = .probe worker (.reply resp) ∧ resp.modelVersion = config.modelVersion ∧
      resp.modelSha256 = config.modelSha256 := by
  cases event with
  | probe probed outcome =>
      simp only [verdicts] at h
      split at h
      · rename_i heq
        obtain ⟨resp, rfl, hversion, hsha, _⟩ := reply_of_compatible (List.mem_singleton.mp h).symm
        exact ⟨resp, heq ▸ rfl, hversion, hsha⟩
      · cases h
  | rpcResult id outcome =>
      rcases outcome with resp | ⟨code, details⟩ | _
      · cases h
      · cases code <;> simp [verdicts] at h
      · cases h
  | _ => cases h

/-- A worker becomes healthy by a reply that fits the gateway, and by nothing else. -/
theorem healthy_of_step {g next : Gateway} {event : Event} (hstep : Step config g event next)
    (h : Reservations config g) {worker : String}
    (hhealthy : (next.health worker).state = .healthy) :
    (g.health worker).state = .healthy ∨ ∃ resp, event = .probe worker (.reply resp) ∧
      resp.modelVersion = config.modelVersion ∧ resp.modelSha256 = config.modelSha256 := by
  by_cases hcompatible : .compatible ∈ g.verdicts config worker event
  · exact .inr (reply_of_verdict hcompatible)
  · refine .inl ?_
    by_contra hbefore
    have hkept : ∀ (health : Health) (verdict : HealthEvent) (after : Health),
        verdict ∈ g.verdicts config worker event → health.state ≠ .healthy →
        (Health.machine config).step health verdict = some after → after.state ≠ .healthy := by
      intro health verdict after hmem hother hevent
      obtain rfl := Option.some.inj hevent
      cases verdict with
      | compatible => exact absurd hmem hcompatible
      | failed | unavailable => simp [Health.next, hother]
      | draining => simp [Health.next]
    exact (health_of_step hstep h worker).preserves hbefore hkept hhealthy

end Gateway

/-! ## What the workers reply -/

namespace DeploymentConfig

/-- The worker at this address has the model of the gateway. -/
def Serves (config : DeploymentConfig) (address : String) : Prop :=
  (config.worker address).modelVersion = config.gateway.modelVersion ∧
    config.modelSha256 address = config.gateway.modelSha256

/-- The address a worker is configured with. -/
def address (config : DeploymentConfig) (worker : String) : String :=
  (config.gateway.workers.lookup worker).getD ""

/-- The reply says what the worker at this address says of itself. -/
def Says (config : DeploymentConfig) (address : String) (resp : StatusResponse) : Prop :=
  resp.modelVersion = (config.worker address).modelVersion ∧
    resp.modelSha256 = config.modelSha256 address

end DeploymentConfig

/-- The worker of a poller stays. -/
theorem Pollers.worker_of_step {config : PollConfig} {g gateway : Gateway} {p pollers : Pollers}
    {event : Pollers.Event} (hstep : Pollers.Step config g p event gateway pollers) {id : ℕ}
    {poller : Poller} (hpoller : p.pollers[id]? = some poller) :
    ∃ moved : Poller, pollers.pollers[id]? = some moved ∧ moved.worker = poller.worker := by
  have hstore : ∀ (index : ℕ) (before after : Poller), p.pollers[index]? = some before →
      after.worker = before.worker →
      ∃ moved : Poller, (p.store index after).pollers[id]? = some moved ∧
        moved.worker = poller.worker := by
    intro index before after hbefore hworker
    by_cases heq : id = index
    · subst heq
      obtain rfl := Option.some.inj (hpoller.symm.trans hbefore)
      exact ⟨after, getElem?_store_self hpoller after, hworker⟩
    · exact ⟨poller, (getElem?_store_of_ne heq after).trans hpoller, rfl⟩
  have hjoin : ∀ (stopping : Bool) (ids : List String) (tasks : List ℕ),
      ∃ moved : Poller, ({ p with stopping }.joinTasks ids tasks).pollers[id]? = some moved ∧
        moved.worker = poller.worker := by
    intro stopping ids tasks
    rcases joinTasks_cases ids { p with stopping } tasks with
      ⟨_, task, before, _, _, _, hbefore, _, heq⟩ | ⟨_, heq⟩ <;> rw [heq]
    · exact hstore task before before.cancel hbefore rfl
    · rw [pollers_closeWorkers]
      exact ⟨poller, hpoller, rfl⟩
  cases hstep with
  | start _ _ =>
      have hlength := (List.getElem?_eq_some_iff.mp hpoller).1
      exact ⟨poller, by rw [startTasks, List.getElem?_append_left hlength, hpoller], rfl⟩
  | ends _ hbefore _ _ _ | asks _ hbefore _ _ _ | probe hbefore _ _ _ | cancelled _ hbefore _ _ =>
      exact hstore _ _ _ hbefore rfl
  | stop _ _ => exact hjoin true _ _
  | joined _ _ _ _ => exact hjoin p.stopping _ _
  | closed _ _ =>
      rw [pollers_closeWorkers]
      exact ⟨poller, hpoller, rfl⟩

/-! ## What holds of the gateway -/

/-- Healthy workers serve the model of the gateway, and so do those that RPCs are sent to. -/
structure Gateway.Guarded (config : DeploymentConfig) (g : Gateway) : Prop where
  healthy : ∀ worker, (g.health worker).state = .healthy → config.Serves (config.address worker)
  calls : Gateway.EveryCall (Gateway.Vetted fun worker node =>
    node.address = config.address worker ∧ config.Serves node.address) g

/-- The replies that reach the pollers are what the workers say. -/
theorem Gateway.guarded_of_step {config : DeploymentConfig} {g next : Gateway}
    {event : Gateway.Event}
    (hreach : (Gateway.machine config.gateway.toGatewayConfig).Reachable g)
    (hstep : Gateway.Step config.gateway.toGatewayConfig g event next)
    (hsaid : ∀ worker resp, event = .probe worker (.reply resp) →
      config.Says (config.address worker) resp)
    (h : g.Guarded config) : next.Guarded config := by
  refine ⟨fun worker hhealthy => ?_, ?_⟩
  · rcases healthy_of_step hstep (reservations_of_reachable hreach) hhealthy with
      hbefore | ⟨resp, rfl, hversion, hsha⟩
    · exact h.healthy worker hbefore
    · obtain ⟨hsaysVersion, hsaysSha⟩ := hsaid worker resp rfl
      exact ⟨hsaysVersion.symm.trans hversion, hsaysSha.symm.trans hsha⟩
  · cases hstep with
    | tick _ | probe _ _ => exact h.calls
    | call _ =>
        intro call hmem
        rcases List.mem_append.mp hmem with hold | hnew
        · exact h.calls call hold
        · rw [List.mem_singleton.mp hnew]
          exact ⟨by simp [newCall], by simp [newCall]⟩
    | move hcall hmove =>
        intro call hmem
        rcases List.mem_or_eq_of_mem_set hmem with hold | rfl
        · exact h.calls call hold
        · refine vetted_of_callStep hmove (fun worker hhealthy => ?_)
            (h.calls _ (List.mem_of_getElem? hcall))
          have haddress := address_of_reachable hreach worker
          refine ⟨haddress, ?_⟩
          rw [haddress]
          exact h.healthy worker hhealthy

namespace Deployment

variable {config : DeploymentConfig}

/-- What holds of every deployment. -/
structure Compatible (config : DeploymentConfig) (d : Deployment) : Prop where
  gateway : d.gateway.Guarded config
  statuses : ∀ id resp, d.statuses id = some resp → ∃ poller, d.pollers.pollers[id]? = some poller ∧
    config.Says (config.address poller.worker) resp
  deliveries : ∀ delivery ∈ d.deliveries, config.Serves delivery.address

/-- A step of the cluster is a step of its gateway at most, and no probe. -/
theorem gateway_of_clusterStep {config : ClusterConfig} {c next : Cluster} {event : Cluster.Event}
    (hstep : Cluster.Step config c event next)
    (hother : ∀ worker outcome, event ≠ .gateway (.probe worker outcome)) :
    next.gateway = c.gateway ∨ ∃ inner, c.gateway.step config.gateway inner = some next.gateway ∧
      ∀ worker outcome, inner ≠ .probe worker outcome := by
  cases hstep with
  | elapse hgateway _ => exact .inr ⟨_, hgateway, by simp⟩
  | gateway _ hgateway =>
      exact .inr ⟨_, hgateway, fun worker outcome heq => hother worker outcome (heq ▸ rfl)⟩
  | answer _ _ _ _ _ hgateway => exact .inr ⟨_, hgateway, by simp⟩
  | worker _ | deliver _ _ _ => exact .inl rfl

theorem deliveries_of_clusterStep {config : ClusterConfig} {P : String → Prop} {c next : Cluster}
    {event : Cluster.Event} (hstep : Cluster.Step config c event next)
    (hsent : ∀ call ∈ c.gateway.calls, ∀ rpc ∈ call.sent, P rpc.node.address)
    (h : ∀ delivery ∈ c.deliveries, P delivery.address) :
    ∀ delivery ∈ next.deliveries, P delivery.address := by
  cases hstep with
  | elapse _ _ | gateway _ _ | worker _ | answer _ _ _ _ _ _ => exact h
  | deliver hsender hrpc _ =>
      intro delivery hmem
      rcases List.mem_append.mp hmem with hold | hnew
      · exact h delivery hold
      · rw [List.mem_singleton.mp hnew]
        exact hsent _ (List.mem_of_getElem? hsender) _ (List.mem_of_getElem? hrpc)

theorem reply_of_probed {p : Pollers} {event : Pollers.Event} {worker : String}
    {resp : StatusResponse} (h : p.probed event = some (worker, .reply resp)) :
    ∃ id poller, event = .outcome id (.reply resp) ∧ p.pollers[id]? = some poller ∧
      poller.worker = worker := by
  cases event with
  | pollFails id => simp [Pollers.probed] at h
  | outcome id outcome =>
      obtain ⟨poller, hpoller, heq⟩ := Option.map_eq_some_iff.mp h
      obtain ⟨rfl, rfl⟩ : poller.worker = worker ∧ outcome = .reply resp := by simpa using heq
      exact ⟨id, poller, rfl, hpoller, rfl⟩
  | _ => cases h

theorem asked_eq_some {statuses : ℕ → Option StatusResponse} {event : Pollers.Event} {id : ℕ}
    {resp : StatusResponse} (h : asked statuses event id = some resp) :
    statuses id = some resp := by
  cases event with
  | poll asking =>
      rw [asked, Function.update_apply] at h
      split at h
      · cases h
      · exact h
  | _ => exact h

/-- A worker says of itself what it is configured with. -/
theorem says_of_getStatus {address : String} {s : Servicer} {resp : StatusResponse}
    (h : s.getStatus (config.worker address) (config.modelSha256 address) = some resp) :
    config.Says address resp := by
  simp only [Servicer.getStatus, Option.bind_eq_bind, Option.bind_eq_some_iff,
    Option.some.injEq] at h
  obtain ⟨_, _, _, _, rfl⟩ := h
  exact ⟨rfl, rfl⟩

theorem compatible_of_step {d next : Deployment} {event : Event}
    (hreach : (machine config).Reachable d) (hstep : Step config d event next)
    (h : Compatible config d) : Compatible config next := by
  have hgateway := (Cluster.parts_of_reachable (cluster_of_reachable hreach)).1
  have hmoved : ∀ inner gateway,
      d.gateway.step config.gateway.toGatewayConfig inner = some gateway →
      (∀ worker resp, inner = .probe worker (.reply resp) →
        config.Says (config.address worker) resp) → gateway.Guarded config :=
    fun inner gateway hinner hsaid =>
      Gateway.guarded_of_step hgateway (Gateway.step_of_reachable hgateway hinner) hsaid h.gateway
  have hcluster : ∀ event cluster, d.toCluster.step config.cluster event = some cluster →
      (∀ worker outcome, event ≠ .gateway (.probe worker outcome)) →
      cluster.gateway.Guarded config ∧
        ∀ delivery ∈ cluster.deliveries, config.Serves delivery.address := by
    intro event cluster hevent hother
    have hstep := Cluster.step_cases hevent
    refine ⟨?_, deliveries_of_clusterStep hstep
      (fun call hmem rpc hrpc => ((h.gateway.calls call hmem).sent rpc hrpc).2) h.deliveries⟩
    rcases gateway_of_clusterStep hstep hother with hsame | ⟨inner, hinner, hprobe⟩
    · rw [hsame]
      exact h.gateway
    · exact hmoved inner _ hinner fun worker resp heq => absurd heq (hprobe worker _)
  have hpolled : ∀ event gateway pollers,
      Pollers.Step config.gateway d.gateway d.pollers event gateway pollers →
      (∀ id resp, event = .outcome id (.reply resp) → d.statuses id = some resp) →
      gateway.Guarded config := by
    intro event gateway pollers hpollers hreply
    rcases Pollers.probed_of_step hpollers with ⟨_, rfl⟩ | ⟨worker, outcome, hprobe, hinner⟩
    · exact h.gateway
    · refine hmoved _ gateway hinner fun probed resp heq => ?_
      obtain ⟨rfl, rfl⟩ : worker = probed ∧ outcome = .reply resp := by simpa using heq
      obtain ⟨id, poller, rfl, hpoller, hworker⟩ := reply_of_probed hprobe
      obtain ⟨other, hother, hsaid⟩ := h.statuses id resp (hreply id resp rfl)
      obtain rfl := Option.some.inj (hpoller.symm.trans hother)
      exact hworker ▸ hsaid
  have hkept : ∀ event gateway pollers,
      Pollers.Step config.gateway d.gateway d.pollers event gateway pollers → ∀ id resp,
      d.statuses id = some resp → ∃ poller, pollers.pollers[id]? = some poller ∧
        config.Says (config.address poller.worker) resp := by
    intro event gateway pollers hpollers id resp hresp
    obtain ⟨poller, hpoller, hsaid⟩ := h.statuses id resp hresp
    obtain ⟨moved, hmoved, hworker⟩ := Pollers.worker_of_step hpollers hpoller
    exact ⟨moved, hmoved, hworker ▸ hsaid⟩
  cases hstep with
  | @cluster event cluster hother hevent =>
      obtain ⟨hgateway, hdeliveries⟩ := hcluster event cluster hevent hother
      refine ⟨hgateway, ?_, hdeliveries⟩
      cases d.dispatched event <;> exact h.statuses
  | stubFails hevent =>
      obtain ⟨hgateway, hdeliveries⟩ := hcluster _ _ hevent (by simp)
      exact ⟨hgateway, h.statuses, hdeliveries⟩
  | @pollers event gateway pollers hother hpollers =>
      refine ⟨hpolled _ _ _ hpollers fun id resp heq => absurd heq (hother id resp),
        fun id resp hresp => hkept _ _ _ hpollers id resp ?_, h.deliveries⟩
      exact asked_eq_some hresp
  | @status id poller resp hpoller _ _ hresp =>
      refine ⟨h.gateway, fun other answer hanswer => ?_, h.deliveries⟩
      have hupdated : Function.update d.statuses id (some resp) other = some answer := hanswer
      rw [Function.update_apply] at hupdated
      split at hupdated
      · rename_i heq
        subst heq
        obtain rfl := Option.some.inj hupdated
        refine ⟨poller, hpoller, ?_⟩
        rw [address, Gateway.address_of_reachable hgateway] at hresp
        exact says_of_getStatus hresp
      · exact h.statuses other answer hupdated
  | reply hresp hpollers =>
      refine ⟨hpolled _ _ _ hpollers fun id resp heq => ?_, hkept _ _ _ hpollers, h.deliveries⟩
      obtain ⟨rfl, rfl⟩ : _ = id ∧ _ = resp := by simpa using heq
      exact hresp

theorem compatible_of_reachable {d : Deployment} (hreach : (machine config).Reachable d) :
    Compatible config d := by
  apply hreach.invariant
  · rintro d ⟨gatewayNow, workerNow, rfl⟩
    refine ⟨⟨fun worker hhealthy => ?_, fun call hmem => absurd hmem List.not_mem_nil⟩, nofun,
      fun delivery hmem => absurd hmem List.not_mem_nil⟩
    cases hhealthy
  · intro d event next hbefore h hevent
    exact compatible_of_step hbefore (step_cases hevent) h

/-- **Requests go to compatible workers only.**  In every reachable state of a deployment, in
which each address runs one model, each RPC that a call has sent went to the worker
configured for its id, and that worker has the model version and the model checksum of the
gateway; so has every worker that an RPC has reached. -/
theorem sent_to_compatible {d : Deployment} (hreach : (machine config).Reachable d) :
    (∀ call ∈ d.gateway.calls, ∀ rpc ∈ call.sent,
        rpc.node.address = config.address rpc.worker ∧ config.Serves rpc.node.address) ∧
      ∀ delivery ∈ d.deliveries, config.Serves delivery.address := by
  have h := compatible_of_reachable hreach
  exact ⟨fun call hmem rpc hrpc => (h.gateway.calls call hmem).sent rpc hrpc, h.deliveries⟩

/-- The second worker has another model version. -/
def mixedConfig : DeploymentConfig where
  gateway := {}
  worker address := if address = "worker-2:50051" then { modelVersion := "other" } else {}
  modelSha256 _ := ({} : GatewayConfig).modelSha256

def sample (events : List Event) : Deployment :=
  (machine mixedConfig).after (initial mixedConfig 0 fun _ => 0) events

/-- Two workers are ready and have answered their pollers, and a request has reached one. -/
def untilDelivered : List Event :=
  [.pollers .start, .cluster (.worker "worker-1:50051" .ready),
    .cluster (.worker "worker-2:50051" .ready), .pollers (.poll 0), .pollers (.poll 1), .status 0,
    .status 1, .reply 0, .reply 1,
    .cluster (.gateway (.call "r0" ["good"] "tinybert-sst2-v1" 1000)),
    .cluster (.gateway (.start 0))]
  ++ List.replicate 4 (.cluster (.gateway .run)) ++ [.cluster (.deliver 0 0)]

theorem reachable_sample (events : List Event) :
    (machine mixedConfig).Reachable (sample events) := by
  have hinitial : (machine mixedConfig).Initial (initial mixedConfig 0 fun _ => 0) :=
    ⟨0, fun _ => 0, rfl⟩
  exact (Machine.Reachable.initial hinitial).after events

theorem sent_to_compatible_mixed :
    let d := sample untilDelivered
    d.gateway.calls.map (fun call => call.sent.map SentRpc.worker) = [["worker-1"]] ∧
      ¬ mixedConfig.Serves (mixedConfig.address "worker-2") ∧
      (∀ call ∈ d.gateway.calls, ∀ rpc ∈ call.sent,
        rpc.node.address = mixedConfig.address rpc.worker ∧ mixedConfig.Serves rpc.node.address) ∧
      ∀ delivery ∈ d.deliveries, mixedConfig.Serves delivery.address := by
  refine ⟨by decide +kernel, ?_, sent_to_compatible (reachable_sample untilDelivered)⟩
  intro hserves
  exact absurd hserves.1 (by decide +kernel)

end Deployment

/-! ## What the workers refuse -/

/-- A worker of this model version does not find the request invalid. -/
def Admissible (modelVersion : String) (request : PredictRequest) : Prop :=
  request.modelVersion = modelVersion ∧ 1 ≤ request.inputs.length ∧ request.inputs.length ≤ 8

theorem Servicer.checkRequest_ne_invalidArgument {config : WorkerConfig} {state : WorkerState}
    {request : PredictRequest} {timeRemaining : Option Time} {code : StatusCode} {details : String}
    (hrequest : Admissible config.modelVersion request)
    (h : checkRequest config state request timeRemaining = .error (code, details)) :
    code ≠ .invalidArgument := by
  obtain ⟨hversion, hone, hmany⟩ := hrequest
  have hinputs : ¬ (request.inputs.isEmpty ∨ 8 < request.inputs.length) := by
    rw [List.isEmpty_iff, ← List.length_eq_zero_iff]
    omega
  unfold checkRequest at h
  rw [if_neg hinputs, if_neg (not_not.mpr hversion)] at h
  split at h
  · cases h
    simp
  · split at h
    · cases h
      simp
    · split at h <;> cases h
      simp

/-- No handler of an admissible request ends with `INVALID_ARGUMENT`. -/
theorem Servicer.admissible_of_reachable {config : WorkerConfig} {s : Servicer}
    (hreach : (Servicer.machine config).Reachable s) :
    ∀ handler ∈ s.handlers, Admissible config.modelVersion handler.request → ∀ details,
      handler.point ≠ .finished (.aborted .invalidArgument details) := by
  apply hreach.invariant
  · rintro s ⟨now, rfl⟩ handler hmem
    exact absurd hmem List.not_mem_nil
  · intro s event next _ h hevent
    -- one handler is replaced
    have hset : ∀ (id : ℕ) (moved : Handler), (Admissible config.modelVersion moved.request →
        ∀ details, moved.point ≠ .finished (.aborted .invalidArgument details)) →
        ∀ handler ∈ s.handlers.set id moved, Admissible config.modelVersion handler.request →
        ∀ details, handler.point ≠ .finished (.aborted .invalidArgument details) := by
      intro id moved hmoved handler hmem
      rcases List.mem_or_eq_of_mem_set hmem with hold | rfl
      · exact h handler hold
      · exact hmoved
    cases Servicer.step_cases hevent with
    | tick _ | batch _ _ _ | ready _ _ | drain _ _ | close _ _ _ => exact h
    | receive _ =>
        intro handler hmem
        rcases List.mem_append.mp hmem with hold | hnew
        · exact h handler hold
        · rw [List.mem_singleton.mp hnew]
          simp
    | aborts _ _ _ hcheck =>
        refine hset _ _ fun hrequest details heq => ?_
        have hcode := checkRequest_ne_invalidArgument hrequest hcheck
        simp_all
    | admits _ _ _ _ | accepted _ _ _ => exact hset _ _ fun _ details => by simp
    | @refused _ _ error _ _ _ _ =>
        exact hset _ _ fun _ details => by simpa using abortOf_ne_invalidArgument error details
    | answers _ _ _ _ hanswer =>
        exact hset _ _ fun _ details => by simpa using answerOf_ne_invalidArgument hanswer details
    | cancelReceived _ _ _ | cancelAwait _ _ _ _ => exact hset _ _ fun _ details => by simp

namespace Gateway

/-- What every new request has, every request has. -/
theorem requests_of_step {config : GatewayConfig} {P : PredictRequest → Prop} {g next : Gateway}
    {event : Event} (hstep : Step config g event next)
    (hnew : ∀ requestId inputs modelVersion timeoutMs,
      event = .call requestId inputs modelVersion timeoutMs → P ⟨requestId, modelVersion, inputs⟩)
    (h : EveryCall (fun call => P call.request) g) :
    EveryCall (fun call => P call.request) next := by
  cases hstep with
  | tick _ | probe _ _ => exact h
  | call _ =>
      intro call hmem
      rcases List.mem_append.mp hmem with hold | hlast
      · exact h call hold
      · rw [List.mem_singleton.mp hlast]
        exact hnew _ _ _ _ rfl
  | move hcall hmove =>
      intro call hmem
      rcases List.mem_or_eq_of_mem_set hmem with hold | rfl
      · exact h call hold
      · rw [request_of_callStep hmove]
        exact h _ (List.mem_of_getElem? hcall)

end Gateway

namespace Cluster

variable {config : ClusterConfig} {P : PredictRequest → Prop}

/-- The request of the handler of a delivered RPC. -/
def Delivers (P : PredictRequest → Prop) (c : Cluster) (delivery : Delivery) : Prop :=
  ∃ request, ((c.servicer delivery.address).handlers.map Handler.request)[delivery.handler]? =
    some request ∧ P request

theorem Delivers.mono {c next : Cluster} {delivery : Delivery} (h : c.Delivers P delivery)
    (hhandlers : ∀ address, (c.servicer address).handlers.map Handler.request <+:
      (next.servicer address).handlers.map Handler.request) : next.Delivers P delivery := by
  obtain ⟨request, hhandler, hrequest⟩ := h
  obtain ⟨hindex, heq⟩ := List.getElem?_eq_some_iff.mp hhandler
  exact ⟨request, heq ▸ List.prefix_iff_getElem?.mp (hhandlers _) _ hindex, hrequest⟩

theorem delivers_of_step {c next : Cluster} {event : Event} (hstep : Step config c event next)
    (hcalls : Gateway.EveryCall (fun call => P call.request) c.gateway)
    (h : ∀ delivery ∈ c.deliveries, c.Delivers P delivery) :
    ∀ delivery ∈ next.deliveries, next.Delivers P delivery := by
  cases hstep with
  | elapse _ hworkers =>
      exact fun delivery hmem => (h delivery hmem).mono fun address =>
        Servicer.requests_prefix (Servicer.step_cases (hworkers address))
  | gateway _ _ | answer _ _ _ _ _ _ => exact h
  | worker hworker =>
      exact fun delivery hmem => (h delivery hmem).mono (requests_of_update hworker)
  | @deliver call rpc sender sent servicer hsender hsent hworker =>
      intro delivery hmem
      rcases List.mem_append.mp hmem with hold | hnew
      · exact (h delivery hold).mono (requests_of_update hworker)
      · rw [List.mem_singleton.mp hnew]
        refine ⟨sender.request, ?_, hcalls sender (List.mem_of_getElem? hsender)⟩
        cases Servicer.step_cases hworker with
        | receive _ => simp
        | batch hinner _ _ => simp [Servicer.Event.inner] at hinner

end Cluster

namespace Deployment

variable {config : DeploymentConfig}

/-- `client.predict` is called with what the handler of `/v1/predict` has checked. -/
def CheckedCall (config : DeploymentConfig) (_ : Deployment) : Event → Prop
  | .cluster (.gateway (.call requestId inputs modelVersion _)) =>
      Admissible config.gateway.modelVersion ⟨requestId, modelVersion, inputs⟩
  | _ => True

/-- Every request in the deployment has been checked. -/
structure AllChecked (config : DeploymentConfig) (d : Deployment) : Prop where
  calls : Gateway.EveryCall (fun call => Admissible config.gateway.modelVersion call.request)
    d.gateway
  deliveries : ∀ delivery ∈ d.deliveries,
    d.toCluster.Delivers (Admissible config.gateway.modelVersion) delivery

theorem allChecked_of_step {d next : Deployment} {event : Event}
    (hreach : (machine config).Reachable d) (hstep : Step config d event next)
    (hchecked : CheckedCall config d event) (h : AllChecked config d) : AllChecked config next := by
  have hgateway := (Cluster.parts_of_reachable (cluster_of_reachable hreach)).1
  have hmoved : ∀ inner gateway,
      d.gateway.step config.gateway.toGatewayConfig inner = some gateway →
      (∀ requestId inputs modelVersion timeoutMs,
        inner = .call requestId inputs modelVersion timeoutMs →
        Admissible config.gateway.modelVersion ⟨requestId, modelVersion, inputs⟩) →
      Gateway.EveryCall (fun call => Admissible config.gateway.modelVersion call.request) gateway :=
    fun inner gateway hinner hnew =>
      Gateway.requests_of_step (Gateway.step_of_reachable hgateway hinner) hnew h.calls
  have hpolled : ∀ event gateway pollers,
      Pollers.Step config.gateway d.gateway d.pollers event gateway pollers →
      Gateway.EveryCall (fun call => Admissible config.gateway.modelVersion call.request)
        gateway := by
    intro event gateway pollers hpollers
    rcases Pollers.probed_of_step hpollers with ⟨_, rfl⟩ | ⟨worker, outcome, _, hinner⟩
    · exact h.calls
    · exact hmoved _ gateway hinner (by simp)
  cases hstep with
  | @cluster event cluster _ hevent =>
      have hcluster := Cluster.step_cases hevent
      refine ⟨?_, Cluster.delivers_of_step hcluster h.calls h.deliveries⟩
      cases hcluster with
      | elapse hinner _ => exact hmoved _ _ hinner (by simp)
      | @gateway inner _ _ hinner =>
          refine hmoved _ _ hinner fun requestId inputs modelVersion timeoutMs heq => ?_
          subst heq
          exact hchecked
      | answer _ _ _ _ _ hinner => exact hmoved _ _ hinner (by simp)
      | worker _ | deliver _ _ _ => exact h.calls
  | stubFails hevent =>
      have hcluster := Cluster.step_cases hevent
      refine ⟨?_, Cluster.delivers_of_step hcluster h.calls h.deliveries⟩
      cases hcluster with
      | gateway _ hinner => exact hmoved _ _ hinner (by simp)
  | pollers _ hpollers | reply _ hpollers => exact ⟨hpolled _ _ _ hpollers, h.deliveries⟩
  | status _ _ _ _ => exact ⟨h.calls, h.deliveries⟩

theorem allChecked_of_reachable {d : Deployment}
    (hreach : (machine config).ReachableBy (CheckedCall config) d) : AllChecked config d := by
  apply hreach.invariant
  · rintro d ⟨gatewayNow, workerNow, rfl⟩
    exact ⟨fun call hmem => absurd hmem List.not_mem_nil,
      fun delivery hmem => absurd hmem List.not_mem_nil⟩
  · intro d event next hbefore h hchecked hevent
    exact allChecked_of_step hbefore.reachable (step_cases hevent) hchecked h

/-- **What the gateway has checked, no worker refuses as invalid.**  If each address runs one
model, and every call of `predict` has the model version of the gateway and one to eight
inputs, then no handler of a delivered RPC ever ends with `INVALID_ARGUMENT`, whatever
versions there are among the workers. -/
theorem never_invalid {d : Deployment}
    (hreach : (machine config).ReachableBy (CheckedCall config) d) :
    ∀ delivery ∈ d.deliveries, ∃ handler,
      (d.servicer delivery.address).handlers[delivery.handler]? = some handler ∧
      ∀ details, handler.point ≠ .finished (.aborted .invalidArgument details) := by
  intro delivery hmem
  have hserves := (compatible_of_reachable hreach.reachable).deliveries delivery hmem
  obtain ⟨request, hrequest, hadmissible⟩ :=
    (allChecked_of_reachable hreach).deliveries delivery hmem
  rw [List.getElem?_map] at hrequest
  obtain ⟨handler, hhandler, rfl⟩ := Option.map_eq_some_iff.mp hrequest
  have hworker := (Cluster.parts_of_reachable (cluster_of_reachable hreach.reachable)).2
    delivery.address
  refine ⟨handler, hhandler, Servicer.admissible_of_reachable hworker handler
    (List.mem_of_getElem? hhandler) ?_⟩
  exact ⟨hadmissible.1.trans hserves.1.symm, hadmissible.2⟩

theorem never_invalid_mixed :
    (sample untilDelivered).deliveries = [⟨0, 0, "worker-1:50051", 0⟩] ∧
      ∀ delivery ∈ (sample untilDelivered).deliveries, ∃ handler,
        ((sample untilDelivered).servicer delivery.address).handlers[delivery.handler]? =
          some handler ∧
        ∀ details, handler.point ≠ .finished (.aborted .invalidArgument details) := by
  have hinitial : (machine mixedConfig).Initial (initial mixedConfig 0 fun _ => 0) :=
    ⟨0, fun _ => 0, rfl⟩
  have hreach : (machine mixedConfig).ReachableBy (CheckedCall mixedConfig)
      (sample untilDelivered) := by
    refine (Machine.ReachableBy.initial hinitial).after untilDelivered ?_
    simp [untilDelivered, CheckedCall, Admissible, mixedConfig]
  exact ⟨by decide +kernel, never_invalid hreach⟩

end Deployment
end ModelServer
