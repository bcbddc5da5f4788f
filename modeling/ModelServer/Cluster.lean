import ModelServer.Gateway.Retry
import ModelServer.Worker.Answers

/-!
# Gateway and workers together

A `Cluster` is one gateway, its workers, and the RPCs that have reached a worker.
All of them take their steps in any order.  An RPC that a call has sent may reach
its worker late, more than once or never, and the call may meanwhile have ended in
any other way; but it ends with a response only if a handler of that RPC has
returned it.  Workers may have other clients besides the gateway.

The clocks of the processes may run freely; `elapse` is the step in which the same
time passes for all of them.

`no_cross_talk` is about the whole way of a request: with a model that computes `f`
text by text, `predict` returns `f` of the inputs it was called with.
-/

namespace ModelServer

open Transition

structure ClusterConfig where
  gateway : GatewayConfig
  /-- The configuration of the worker at each address. -/
  worker : String → WorkerConfig

/-- RPC number `rpc` of a call has reached the worker at `address`, as this handler. -/
structure Delivery where
  call : ℕ
  rpc : ℕ
  address : String
  handler : ℕ
  deriving DecidableEq, Repr

structure Cluster where
  gateway : Gateway
  /-- The worker at each address. -/
  servicer : String → Servicer
  deliveries : List Delivery := []

namespace Cluster

inductive Event
  /-- The same time passes everywhere. -/
  | elapse (elapsed : Time)
  /-- A step of the gateway; responses come with `answer`. -/
  | gateway (event : Gateway.Event)
  | worker (address : String) (event : Servicer.Event)
  /-- An RPC reaches its worker. -/
  | deliver (call rpc : ℕ)
  /-- The response of a delivered RPC reaches the call that waits for it. -/
  | answer (delivery : ℕ)

def gatewayStep (config : ClusterConfig) (c : Cluster) (event : Gateway.Event) : Option Cluster :=
  (c.gateway.step config.gateway event).map fun gateway => { c with gateway }

def workerStep (config : ClusterConfig) (c : Cluster) (address : String)
    (event : Servicer.Event) : Option Cluster :=
  ((c.servicer address).step (config.worker address) event).map fun servicer =>
    { c with servicer := Function.update c.servicer address servicer }

def step (config : ClusterConfig) (c : Cluster) : Event → Option Cluster
  | .elapse elapsed => do
      let gateway ← c.gateway.step config.gateway (.tick elapsed)
      let servicer address :=
        ((c.servicer address).step (config.worker address) (.tick elapsed)).getD
          (c.servicer address)
      some { c with gateway, servicer }
  | .gateway (.rpcResult _ (.success _)) => none
  | .gateway event => c.gatewayStep config event
  | .worker address event => c.workerStep config address event
  | .deliver call rpc => do
      let sender ← c.gateway.calls[call]?
      let sent ← sender.sent[rpc]?
      let address := sent.node.address
      let reached ← c.workerStep config address (.receive sender.request)
      let handler := (c.servicer address).handlers.length
      some { reached with deliveries := c.deliveries ++ [⟨call, rpc, address, handler⟩] }
  | .answer index => do
      let delivery ← c.deliveries[index]?
      let sender ← c.gateway.calls[delivery.call]?
      -- the call waits for the RPC it has sent last
      guard (sender.sent.length = delivery.rpc + 1)
      let handler ← (c.servicer delivery.address).handlers[delivery.handler]?
      match handler.point with
      | .finished (.returned resp) =>
          c.gatewayStep config (.rpcResult delivery.call (.success resp))
      | _ => none

/-- The gateway and its workers before their first steps, each at its own clock. -/
def initial (config : ClusterConfig) (gatewayNow : Time) (workerNow : String → Time) : Cluster where
  gateway := Gateway.initial config.gateway gatewayNow
  servicer address := Servicer.initial (config.worker address) (workerNow address)

def machine (config : ClusterConfig) : Machine Cluster Event where
  Initial c := ∃ gatewayNow workerNow, c = initial config gatewayNow workerNow
  step := step config

/-! ## Everything a cluster can do -/

inductive Step (config : ClusterConfig) (c : Cluster) : Event → Cluster → Prop
  | elapse {elapsed : Time} {gateway : Gateway} {servicer : String → Servicer}
      (hgateway : c.gateway.step config.gateway (.tick elapsed) = some gateway)
      (hworkers : ∀ address, (c.servicer address).step (config.worker address) (.tick elapsed) =
        some (servicer address)) :
      Step config c (.elapse elapsed) { c with gateway, servicer }
  | gateway {event : Gateway.Event} {gateway : Gateway}
      (hother : ∀ id resp, event ≠ .rpcResult id (.success resp))
      (hgateway : c.gateway.step config.gateway event = some gateway) :
      Step config c (.gateway event) { c with gateway }
  | worker {address : String} {event : Servicer.Event} {servicer : Servicer}
      (hworker : (c.servicer address).step (config.worker address) event = some servicer) :
      Step config c (.worker address event)
        { c with servicer := Function.update c.servicer address servicer }
  | deliver {call rpc : ℕ} {sender : Call} {sent : SentRpc} {servicer : Servicer}
      (hsender : c.gateway.calls[call]? = some sender) (hsent : sender.sent[rpc]? = some sent)
      (hworker : (c.servicer sent.node.address).step (config.worker sent.node.address)
        (.receive sender.request) = some servicer) :
      Step config c (.deliver call rpc)
        { c with
          servicer := Function.update c.servicer sent.node.address servicer
          deliveries := c.deliveries ++
            [⟨call, rpc, sent.node.address, (c.servicer sent.node.address).handlers.length⟩] }
  | answer {index : ℕ} {delivery : Delivery} {sender : Call} {handler : Handler}
      {resp : PredictResponse} {gateway : Gateway}
      (hdelivery : c.deliveries[index]? = some delivery)
      (hsender : c.gateway.calls[delivery.call]? = some sender)
      (hlast : sender.sent.length = delivery.rpc + 1)
      (hhandler : (c.servicer delivery.address).handlers[delivery.handler]? = some handler)
      (hpoint : handler.point = .finished (.returned resp))
      (hgateway : c.gateway.step config.gateway (.rpcResult delivery.call (.success resp)) =
        some gateway) :
      Step config c (.answer index) { c with gateway }

variable {config : ClusterConfig}

private theorem step_of_gatewayStep {c next : Cluster} {event : Gateway.Event}
    (hother : ∀ id resp, event ≠ .rpcResult id (.success resp))
    (hstep : c.gatewayStep config event = some next) : Step config c (.gateway event) next := by
  obtain ⟨gateway, hgateway, rfl⟩ := Option.map_eq_some_iff.mp hstep
  exact .gateway hother hgateway

/-- The inversion lemma of `step`. -/
theorem step_cases {c next : Cluster} {event : Event} (hstep : c.step config event = some next) :
    Step config c event next := by
  cases event with
  | elapse elapsed =>
      simp only [step, Option.bind_eq_bind, Option.bind_eq_some_iff, Option.some.injEq] at hstep
      obtain ⟨gateway, hgateway, rfl⟩ := hstep
      refine .elapse hgateway fun address => ?_
      have helapsed : 0 ≤ elapsed := by
        by_contra hnegative
        simp [Gateway.step, hnegative] at hgateway
      simp [Servicer.step, Servicer.batch, Batcher.step, helapsed]
  | gateway event =>
      cases event with
      | rpcResult id outcome =>
          cases outcome with
          | success resp => simp [step] at hstep
          | status | foreign => exact step_of_gatewayStep (by simp) hstep
      | _ => exact step_of_gatewayStep (by simp) hstep
  | worker address event =>
      obtain ⟨servicer, hworker, rfl⟩ := Option.map_eq_some_iff.mp hstep
      exact .worker hworker
  | deliver call rpc =>
      simp only [step, workerStep, Option.bind_eq_bind, Option.bind_eq_some_iff,
        Option.map_eq_some_iff, Option.some.injEq] at hstep
      obtain ⟨sender, hsender, sent, hsent, _, ⟨servicer, hworker, rfl⟩, rfl⟩ := hstep
      exact .deliver hsender hsent hworker
  | answer index =>
      simp only [step, gatewayStep, Option.bind_eq_bind, Option.bind_eq_some_iff] at hstep
      obtain ⟨delivery, hdelivery, sender, hsender, _, hlast, handler, hhandler, hstep⟩ := hstep
      split at hstep
      · obtain ⟨gateway, hgateway, rfl⟩ := Option.map_eq_some_iff.mp hstep
        exact .answer hdelivery hsender (by simpa using hlast) hhandler ‹_› hgateway
      · simp at hstep

end Cluster
end ModelServer
