import ModelServer.Gateway.Steps

/-!
# The gauges of the workers mirror the registry

`RoutingEvent` is everything that changes a node: probe outcomes, marks, selections
and releases, over any workers and in any order.  Each of them keeps the two gauges
of every worker in step with its node (`Mirrored`), and a gateway changes its
registry in no other way (`routing_of_reachable`).
-/

namespace ModelServer

open Transition

namespace WorkerNode

variable {config : GatewayConfig}

/-- `GATEWAY_WORKER_HEALTHY` says whether the worker is healthy, and
`GATEWAY_WORKER_OUTSTANDING` how many requests it has outstanding. -/
structure Mirrored (worker : WorkerNode) : Prop where
  healthy : worker.healthyGauge = if worker.state = .healthy then 1 else 0
  outstanding : worker.outstandingGauge = worker.outstandingRequests

theorem Mirrored.recordProbeFailure {worker : WorkerNode} (h : Mirrored worker) :
    Mirrored (worker.recordProbeFailure config) := by
  simp only [WorkerNode.recordProbeFailure]
  split
  · exact ⟨rfl, h.outstanding⟩
  · exact ⟨h.healthy, h.outstanding⟩

theorem Mirrored.pollHealth {worker : WorkerNode} (h : Mirrored worker) (now : Time)
    (outcome : ProbeOutcome) : Mirrored (worker.pollHealth config now outcome) := by
  cases outcome with
  | rpcFailed => exact h.recordProbeFailure
  | reply resp =>
      simp only [WorkerNode.pollHealth]
      split
      · exact ⟨rfl, h.outstanding⟩
      · split
        · -- the gauge is set exactly where the state becomes `HEALTHY`
          split
          · exact ⟨rfl, h.outstanding⟩
          · split
            · exact ⟨rfl, h.outstanding⟩
            · exact ⟨h.healthy, h.outstanding⟩
        · exact h.recordProbeFailure

theorem Mirrored.markUnhealthy {worker : WorkerNode} (h : Mirrored worker) :
    Mirrored (worker.markUnhealthy config) := by
  unfold WorkerNode.markUnhealthy
  split
  · exact ⟨rfl, h.outstanding⟩
  · exact h

theorem Mirrored.reserve {worker : WorkerNode} (h : Mirrored worker) : Mirrored worker.reserve :=
  ⟨h.healthy, rfl⟩

theorem Mirrored.unreserve {worker : WorkerNode} (h : Mirrored worker) :
    Mirrored worker.unreserve :=
  ⟨h.healthy, rfl⟩

end WorkerNode

/-- Every worker's gauges mirror its node. -/
def WorkerRegistry.Mirrored (registry : WorkerRegistry) : Prop :=
  ∀ workerId, (registry.node workerId).Mirrored

theorem WorkerRegistry.Mirrored.setNode {registry : WorkerRegistry} (h : registry.Mirrored)
    {workerId : String} {worker : WorkerNode} (hworker : worker.Mirrored) :
    (registry.setNode workerId worker).Mirrored := by
  intro other
  rw [WorkerRegistry.setNode_node, Function.update_apply]
  split
  · exact hworker
  · exact h other

/-- What changes the node of a worker. -/
inductive RoutingEvent
  | probe (workerId : String) (now : Time) (outcome : ProbeOutcome)
  | markUnhealthy (workerId : String)
  | select (excludeIds : Finset String)
  | release (workerId : String)

namespace Scheduler

variable {config : GatewayConfig}

/-- There is a poller for each registered worker.  A selection that raises changes nothing. -/
def routingStep (config : GatewayConfig) (s : Scheduler) : RoutingEvent → Option Scheduler
  | .probe workerId now outcome =>
      if workerId ∈ s.registry.ids then
        some { s with registry := s.registry.pollWorkerHealth config now workerId outcome }
      else none
  | .markUnhealthy workerId =>
      some { s with registry := s.registry.markUnhealthyImmediately config workerId }
  | .select excludeIds =>
      match s.selectWorker config excludeIds with
      | .ok (_, next) => some next
      | .error _ => some s
  | .release workerId => some (s.releaseWorker workerId)

/-- A scheduler over the configured workers. -/
def routing (config : GatewayConfig) : Machine Scheduler RoutingEvent where
  Initial s := s = { registry := .ofConfig config }
  step := routingStep config

theorem mirrored_of_routingStep {s next : Scheduler} {event : RoutingEvent}
    (hstep : s.routingStep config event = some next) (h : s.registry.Mirrored) :
    next.registry.Mirrored := by
  cases event with
  | probe workerId now outcome =>
      simp only [routingStep, Option.ite_none_right_eq_some, Option.some.injEq] at hstep
      obtain ⟨_, rfl⟩ := hstep
      exact h.setNode ((h workerId).pollHealth now outcome)
  | markUnhealthy workerId =>
      obtain rfl := Option.some.inj hstep
      simp only [WorkerRegistry.markUnhealthyImmediately]
      split
      · exact h.setNode (h workerId).markUnhealthy
      · exact h
  | select excludeIds =>
      simp only [routingStep] at hstep
      split at hstep
      · rename_i hselect
        obtain rfl := Option.some.inj hstep
        rw [(selectWorker_spec hselect).registry]
        exact h.setNode (h _).reserve
      · obtain rfl := Option.some.inj hstep
        exact h
  | release workerId =>
      obtain rfl := Option.some.inj hstep
      unfold releaseWorker
      split
      · exact h.setNode (h workerId).unreserve
      · exact h

/-- **The gauges mirror the registry.**  After any probes, marks, selections and releases,
`GATEWAY_WORKER_HEALTHY` of a worker is 1 exactly if it is healthy and else 0, and
`GATEWAY_WORKER_OUTSTANDING` is its number of outstanding requests. -/
theorem gauges_mirror {s : Scheduler} (hreach : (routing config).Reachable s)
    (workerId : String) :
    (s.registry.node workerId).healthyGauge =
        (if (s.registry.node workerId).state = .healthy then 1 else 0) ∧
      (s.registry.node workerId).outstandingGauge =
        (s.registry.node workerId).outstandingRequests := by
  have hmirrored : s.registry.Mirrored := by
    apply hreach.invariant
    · rintro s rfl workerId
      exact ⟨rfl, rfl⟩
    · intro s event next _ h hstep
      exact mirrored_of_routingStep hstep h
  exact ⟨(hmirrored workerId).healthy, (hmirrored workerId).outstanding⟩

/-- A worker becomes healthy, is selected, and drains while its request is outstanding. -/
def drainingEvents : List RoutingEvent :=
  [.probe "worker-1" 1 (.reply (sampleReply .ready)), .select ∅,
    .probe "worker-1" 2 (.reply (sampleReply .draining))]

theorem gauges_mirror_draining :
    let s := (routing {}).after { registry := .ofConfig {} } drainingEvents
    (s.registry.node "worker-1").state = .draining ∧
    (s.registry.node "worker-1").outstandingRequests = 1 ∧
    (s.registry.node "worker-1").healthyGauge =
        (if (s.registry.node "worker-1").state = .healthy then 1 else 0) ∧
      (s.registry.node "worker-1").outstandingGauge =
        (s.registry.node "worker-1").outstandingRequests := by
  have hinitial : (routing {}).Reachable { registry := .ofConfig {} } := .initial rfl
  exact ⟨by decide +kernel, by decide +kernel,
    gauges_mirror (hinitial.after drainingEvents) "worker-1"⟩

end Scheduler

/-! ## A gateway does nothing else to its registry -/

namespace Gateway

variable {config : GatewayConfig}

/-- A call changes the scheduler by at most one routing event. -/
theorem routing_of_callStep {s next : Shared} {id : ℕ} {call moved : Call} {event : Event}
    (hmove : CallStep config s id call event next moved) :
    next.scheduler = s.scheduler ∨
      ∃ routed, s.scheduler.routingStep config routed = some next.scheduler := by
  cases hmove
  case selects hselect =>
    refine .inr ⟨.select call.excludeIds, ?_⟩
    simp only [Scheduler.routingStep, hselect]
    rfl
  case rpcUnavailable worker _ _ _ => exact .inr ⟨.markUnhealthy worker, rfl⟩
  case goesOn worker _ _ | loopEnds worker _ _ | leaves worker _ _ _ =>
    exact .inr ⟨.release worker, rfl⟩
  all_goals exact .inl rfl

/-- The scheduler of a gateway is reached by routing events alone. -/
theorem routing_of_reachable {g : Gateway} (hreach : (machine config).Reachable g) :
    (Scheduler.routing config).Reachable g.scheduler := by
  apply hreach.invariant
  · rintro g ⟨now, rfl⟩
    exact .initial rfl
  · intro g event next hbefore h hevent
    cases step_of_reachable hbefore hevent with
    | tick _ | call _ => exact h
    | @probe worker outcome _ hworker =>
        have hrouted : (Scheduler.routing config).step g.scheduler (.probe worker g.now outcome) =
            some (g.toShared.probe config worker outcome).scheduler := if_pos hworker
        exact h.next hrouted
    | move _ hmove =>
        rcases routing_of_callStep hmove with hsame | ⟨routed, hrouted⟩
        · exact hsame ▸ h
        · exact h.next hrouted

end Gateway
end ModelServer
