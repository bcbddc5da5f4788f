import ModelServer.Gateway.Traffic

/-!
# The poller tasks of the registry

`WorkerRegistry.start` creates one task of `_poll_worker_health` for each worker, and
`stop` cancels them, waits for them one after another and closes the channels of the
workers.  The application calls `start` when it comes up and `stop` when it goes down,
and `Lifespan` is where that stands.

A poller is suspended before its first step, in `await stub.GetStatus(..)` and in
`asyncio.sleep(..)`.  What `GetStatus` answers is up to the worker.  While `stop` waits
for one poller the others go on; one that wakes up then sees `_stopping` and ends.

`since` is when a poller was suspended; no step reads it.
-/

namespace ModelServer

open Transition

/-- The settings of `GatewayConfig` that the pollers read as well. -/
structure PollConfig extends GatewayConfig where
  healthIntervalMs : ℤ := 1000
  healthTimeoutMs : ℤ := 250

inductive PollerPoint
  /-- The task has been created and has not run yet. -/
  | created
  /-- Suspended in `await stub.GetStatus(..)`. -/
  | awaitStatus
  /-- Suspended in `asyncio.sleep(..)`. -/
  | sleeping
  | finished
  deriving DecidableEq, Repr

/-- One task of `_poll_worker_health`. -/
structure Poller where
  worker : String
  point : PollerPoint := .created
  cancelRequested : Bool := false
  since : Time
  deriving DecidableEq, Repr

inductive Lifespan
  /-- Before `start`, or `stop` has returned. -/
  | down
  | up
  /-- In the `await task` of `stop`, with the tasks that come after it. -/
  | joining (task : ℕ) (rest : List ℕ)
  /-- In the `await worker.close()` of `stop`, with the workers that come after it. -/
  | closing (worker : String) (rest : List String)
  deriving DecidableEq, Repr

namespace Poller

/-- The task is not done. -/
def live (poller : Poller) : Bool := poller.point ≠ .finished

@[simps]
def suspend (poller : Poller) (point : PollerPoint) (now : Time) : Poller :=
  { poller with point, since := now }

/-- `task.cancel()`. -/
@[simps]
def cancel (poller : Poller) : Poller := { poller with cancelRequested := true }

@[simps]
def finish (poller : Poller) : Poller := { poller with point := .finished }

/-- The poller is about to run the head of its loop. -/
def atHead (poller : Poller) : Bool := poller.point = .created ∨ poller.point = .sleeping

end Poller

/-- The tasks of the registry, and what `stop` does to them. -/
structure Pollers where
  /-- Every task there has been. -/
  pollers : List Poller := []
  /-- `_poller_tasks`. -/
  tasks : List ℕ := []
  stopping : Bool := false
  lifespan : Lifespan := .down
  /-- The worker has a `channel`, which has not been closed. -/
  channel : String → Bool := fun _ => false

namespace Pollers

@[simps]
def store (p : Pollers) (id : ℕ) (poller : Poller) : Pollers :=
  { p with pollers := p.pollers.set id poller }

/-- `get_stub` of a worker's node. -/
@[simps]
def getStub (p : Pollers) (worker : String) : Pollers :=
  { p with channel := Function.update p.channel worker true }

/-- The channel of a worker's node has been closed. -/
@[simps]
def closed (p : Pollers) (worker : String) : Pollers :=
  { p with channel := Function.update p.channel worker false }

/-- The loop of `stop` over the workers, up to the next channel that is open. -/
def closeWorkers (p : Pollers) : List String → Pollers
  | [] => { p with lifespan := .down }
  | worker :: rest =>
      if p.channel worker then { p with lifespan := .closing worker rest }
      else p.closeWorkers rest

/-- The loop of `stop` over the tasks, up to the next one that is not done. -/
def joinTasks (ids : List String) (p : Pollers) : List ℕ → Pollers
  | [] => { p with tasks := [] }.closeWorkers ids
  | task :: rest =>
      match p.pollers[task]? with
      | some poller =>
          if poller.live then
            { p.store task poller.cancel with lifespan := .joining task rest }
          else p.joinTasks ids rest
      | none => p.joinTasks ids rest

/-- The tasks that `start` creates. -/
def startTasks (ids : List String) (now : Time) (p : Pollers) : Pollers :=
  { p with
    pollers := p.pollers ++ ids.map fun worker => { worker, since := now }
    tasks := p.tasks ++ List.range' p.pollers.length ids.length
    stopping := false
    lifespan := .up }

inductive Event
  | start
  /-- A poller runs the head of its loop. -/
  | poll (id : ℕ)
  /-- It does so, and `get_stub` raises. -/
  | pollFails (id : ℕ)
  /-- `GetStatus` ends. -/
  | outcome (id : ℕ) (outcome : ProbeOutcome)
  /-- `CancelledError` is raised where a poller is suspended. -/
  | cancelled (id : ℕ)
  | stop
  /-- The task that `stop` waits for is done. -/
  | joined
  /-- The channel that `stop` closes is closed. -/
  | closed
  deriving DecidableEq, Repr

/-- A probe of the poller with this number ends, and it goes to sleep. -/
def probe (config : PollConfig) (g : Gateway) (p : Pollers) (id : ℕ) (poller : Poller)
    (outcome : ProbeOutcome) : Option (Gateway × Pollers) := do
  let g ← g.step config.toGatewayConfig (.probe poller.worker outcome)
  some (g, p.store id (poller.suspend .sleeping g.now))

def step (config : PollConfig) (g : Gateway) (p : Pollers) : Event → Option (Gateway × Pollers)
  | .start => do
      guard (g.running = none ∧ p.lifespan = .down)
      some (g, p.startTasks g.scheduler.registry.ids g.now)
  | .poll id => do
      guard (g.running = none)
      let poller ← p.pollers[id]?
      guard (poller.atHead ∧ poller.cancelRequested = false)
      if p.stopping then some (g, p.store id poller.finish)
      else some (g, (p.store id (poller.suspend .awaitStatus g.now)).getStub poller.worker)
  | .pollFails id => do
      let poller ← p.pollers[id]?
      guard (poller.atHead ∧ poller.cancelRequested = false ∧ p.stopping = false)
      p.probe config g id poller .rpcFailed
  | .outcome id outcome => do
      let poller ← p.pollers[id]?
      guard (poller.point = .awaitStatus ∧ poller.cancelRequested = false)
      p.probe config g id poller outcome
  | .cancelled id => do
      guard (g.running = none)
      let poller ← p.pollers[id]?
      guard (poller.live ∧ poller.cancelRequested)
      some (g, p.store id poller.finish)
  | .stop => do
      guard (g.running = none ∧ p.lifespan = .up)
      some (g, { p with stopping := true }.joinTasks g.scheduler.registry.ids p.tasks)
  | .joined => do
      guard (g.running = none)
      match p.lifespan with
      | .joining task rest =>
          let poller ← p.pollers[task]?
          guard (poller.live = false)
          some (g, p.joinTasks g.scheduler.registry.ids rest)
      | _ => none
  | .closed => do
      guard (g.running = none)
      match p.lifespan with
      | .closing worker rest => some (g, (p.closed worker).closeWorkers rest)
      | _ => none

end Pollers

/-! ## The gateway with its pollers -/

structure Polled where
  gateway : Gateway
  pollers : Pollers := {}

namespace Gateway

/-- The worker whose stub the running call is about to get. -/
def dispatching (g : Gateway) : Option String := do
  let id ← g.running
  let call ← g.calls[id]?
  match call.point with
  | .dispatch _ worker _ => some worker
  | _ => none

/-- The worker whose channel is there after an event, if it is the one of a dispatch. -/
def dispatched (g : Gateway) : Event → Option String
  | .run | .dispatchFails => g.dispatching
  | _ => none

end Gateway

/-- A dispatch leaves the channel of its worker behind. -/
def Pollers.dispatch (p : Pollers) : Option String → Pollers
  | some worker => p.getStub worker
  | none => p

namespace Polled

inductive Event
  /-- A step of the gateway that is not one of its pollers. -/
  | gateway (event : Gateway.Event)
  /-- `get_stub` raises in the running call. -/
  | stubFails
  | pollers (event : Pollers.Event)

def step (config : PollConfig) (s : Polled) : Event → Option Polled
  | .gateway (.probe _ _) => none
  | .gateway event => do
      let gateway ← s.gateway.step config.toGatewayConfig event
      some ⟨gateway, s.pollers.dispatch (s.gateway.dispatched event)⟩
  | .stubFails => do
      let gateway ← s.gateway.step config.toGatewayConfig .dispatchFails
      some { s with gateway }
  | .pollers event => do
      let (gateway, pollers) ← s.pollers.step config s.gateway event
      some ⟨gateway, pollers⟩

/-- A gateway before its application comes up. -/
def initial (config : PollConfig) (now : Time) : Polled where
  gateway := Gateway.initial config.toGatewayConfig now

def machine (config : PollConfig) : Machine Polled Event where
  Initial s := ∃ now, s = initial config now
  step := step config

theorem reachable_of_step {config : PollConfig} {s next : Polled} {event : Event}
    (hreach : (machine config).Reachable s) (hstep : s.step config event = some next) :
    (machine config).Reachable next := by
  have hstep' : (machine config).step s event = some next := hstep
  exact hreach.next hstep'

end Polled

/-! ## Everything the pollers can do -/

namespace Pollers

/-- The worker whose probe ends, and its outcome. -/
def probed (p : Pollers) : Event → Option (String × ProbeOutcome)
  | .pollFails id => p.pollers[id]?.map fun poller => (poller.worker, .rpcFailed)
  | .outcome id outcome => p.pollers[id]?.map fun poller => (poller.worker, outcome)
  | _ => none

inductive Step (config : PollConfig) (g : Gateway) (p : Pollers) :
    Event → Gateway → Pollers → Prop
  | start (hturn : g.running = none) (hdown : p.lifespan = .down) :
      Step config g p .start g (p.startTasks g.scheduler.registry.ids g.now)
  | ends {id : ℕ} {poller : Poller} (hturn : g.running = none)
      (hpoller : p.pollers[id]? = some poller) (hhead : poller.atHead)
      (hcancel : poller.cancelRequested = false) (hstopping : p.stopping = true) :
      Step config g p (.poll id) g (p.store id poller.finish)
  | asks {id : ℕ} {poller : Poller} (hturn : g.running = none)
      (hpoller : p.pollers[id]? = some poller) (hhead : poller.atHead)
      (hcancel : poller.cancelRequested = false) (hstopping : p.stopping = false) :
      Step config g p (.poll id) g
        ((p.store id (poller.suspend .awaitStatus g.now)).getStub poller.worker)
  | probe {event : Event} {id : ℕ} {poller : Poller} {outcome : ProbeOutcome} {next : Gateway}
      (hpoller : p.pollers[id]? = some poller)
      (hpoint : poller.atHead ∧ p.stopping = false ∧ event = .pollFails id ∧ outcome = .rpcFailed ∨
        poller.point = .awaitStatus ∧ event = .outcome id outcome)
      (hcancel : poller.cancelRequested = false)
      (hgateway : g.step config.toGatewayConfig (.probe poller.worker outcome) = some next) :
      Step config g p event next (p.store id (poller.suspend .sleeping next.now))
  | cancelled {id : ℕ} {poller : Poller} (hturn : g.running = none)
      (hpoller : p.pollers[id]? = some poller) (hlive : poller.live)
      (hcancel : poller.cancelRequested) :
      Step config g p (.cancelled id) g (p.store id poller.finish)
  | stop (hturn : g.running = none) (hup : p.lifespan = .up) :
      Step config g p .stop g
        ({ p with stopping := true }.joinTasks g.scheduler.registry.ids p.tasks)
  | joined {task : ℕ} {rest : List ℕ} {poller : Poller} (hturn : g.running = none)
      (hjoining : p.lifespan = .joining task rest) (hpoller : p.pollers[task]? = some poller)
      (hdone : poller.live = false) :
      Step config g p .joined g (p.joinTasks g.scheduler.registry.ids rest)
  | closed {worker : String} {rest : List String} (hturn : g.running = none)
      (hclosing : p.lifespan = .closing worker rest) :
      Step config g p .closed g ((p.closed worker).closeWorkers rest)

variable {config : PollConfig}

/-- The inversion lemma of `step`. -/
theorem step_cases {g gateway : Gateway} {p pollers : Pollers} {event : Event}
    (hstep : p.step config g event = some (gateway, pollers)) :
    Step config g p event gateway pollers := by
  cases event with
  | start =>
      simp only [step, Option.bind_eq_bind, Option.bind_eq_some_iff, Option.some.injEq,
        Prod.mk.injEq] at hstep
      obtain ⟨_, hguard, rfl, rfl⟩ := hstep
      obtain ⟨hturn, hdown⟩ : g.running = none ∧ p.lifespan = .down := by simpa using hguard
      exact .start hturn hdown
  | poll id =>
      simp only [step, Option.bind_eq_bind, Option.bind_eq_some_iff] at hstep
      obtain ⟨_, hturn, poller, hpoller, _, hguard, hstep⟩ := hstep
      obtain ⟨hhead, hcancel⟩ : poller.atHead ∧ poller.cancelRequested = false := by
        simpa using hguard
      split at hstep <;> simp only [Option.some.injEq, Prod.mk.injEq] at hstep <;>
        obtain ⟨rfl, rfl⟩ := hstep
      · exact .ends (by simpa using hturn) hpoller hhead hcancel ‹_›
      · exact .asks (by simpa using hturn) hpoller hhead hcancel (Bool.of_not_eq_true ‹_›)
  | pollFails id =>
      simp only [step, probe, Option.bind_eq_bind, Option.bind_eq_some_iff, Option.some.injEq,
        Prod.mk.injEq] at hstep
      obtain ⟨poller, hpoller, _, hguard, next, hgateway, rfl, rfl⟩ := hstep
      obtain ⟨hhead, hcancel, hstopping⟩ :
          poller.atHead ∧ poller.cancelRequested = false ∧ p.stopping = false := by
        simpa using hguard
      exact .probe hpoller (.inl ⟨hhead, hstopping, rfl, rfl⟩) hcancel hgateway
  | outcome id outcome =>
      simp only [step, probe, Option.bind_eq_bind, Option.bind_eq_some_iff, Option.some.injEq,
        Prod.mk.injEq] at hstep
      obtain ⟨poller, hpoller, _, hguard, next, hgateway, rfl, rfl⟩ := hstep
      obtain ⟨hpoint, hcancel⟩ :
          poller.point = .awaitStatus ∧ poller.cancelRequested = false := by
        simpa using hguard
      exact .probe hpoller (.inr ⟨hpoint, rfl⟩) hcancel hgateway
  | cancelled id =>
      simp only [step, Option.bind_eq_bind, Option.bind_eq_some_iff, Option.some.injEq,
        Prod.mk.injEq] at hstep
      obtain ⟨_, hturn, poller, hpoller, _, hguard, rfl, rfl⟩ := hstep
      obtain ⟨hlive, hcancel⟩ : poller.live ∧ poller.cancelRequested := by simpa using hguard
      exact .cancelled (by simpa using hturn) hpoller hlive hcancel
  | stop =>
      simp only [step, Option.bind_eq_bind, Option.bind_eq_some_iff, Option.some.injEq,
        Prod.mk.injEq] at hstep
      obtain ⟨_, hguard, rfl, rfl⟩ := hstep
      obtain ⟨hturn, hup⟩ : g.running = none ∧ p.lifespan = .up := by simpa using hguard
      exact .stop hturn hup
  | joined =>
      simp only [step, Option.bind_eq_bind, Option.bind_eq_some_iff] at hstep
      obtain ⟨_, hturn, hstep⟩ := hstep
      split at hstep
      · rename_i task rest hjoining
        simp only [Option.bind_eq_some_iff, Option.some.injEq, Prod.mk.injEq] at hstep
        obtain ⟨poller, hpoller, _, hdone, rfl, rfl⟩ := hstep
        exact .joined (by simpa using hturn) hjoining hpoller (by simpa using hdone)
      · simp at hstep
  | closed =>
      simp only [step, Option.bind_eq_bind, Option.bind_eq_some_iff] at hstep
      obtain ⟨_, hturn, hstep⟩ := hstep
      split at hstep
      · rename_i worker rest hclosing
        simp only [Option.some.injEq, Prod.mk.injEq] at hstep
        obtain ⟨rfl, rfl⟩ := hstep
        exact .closed (by simpa using hturn) hclosing
      · simp at hstep

/-- Of the gateway a poller changes the health of its worker, by a probe. -/
theorem probed_of_step {g gateway : Gateway} {p pollers : Pollers} {event : Event}
    (hstep : Step config g p event gateway pollers) :
    p.probed event = none ∧ gateway = g ∨
      ∃ worker outcome, p.probed event = some (worker, outcome) ∧
        g.step config.toGatewayConfig (.probe worker outcome) = some gateway := by
  cases hstep with
  | probe hpoller hpoint _ hgateway =>
      rcases hpoint with ⟨_, _, rfl, rfl⟩ | ⟨_, rfl⟩ <;>
        exact .inr ⟨_, _, by simp [probed, hpoller], hgateway⟩
  | _ => exact .inl ⟨rfl, rfl⟩

end Pollers

namespace Polled

variable {config : PollConfig}

inductive Step (config : PollConfig) (s : Polled) : Event → Polled → Prop
  | gateway {event : Gateway.Event} {gateway : Gateway}
      (hother : ∀ worker outcome, event ≠ .probe worker outcome)
      (hgateway : s.gateway.step config.toGatewayConfig event = some gateway) :
      Step config s (.gateway event) ⟨gateway, s.pollers.dispatch (s.gateway.dispatched event)⟩
  | stubFails {gateway : Gateway}
      (hgateway : s.gateway.step config.toGatewayConfig .dispatchFails = some gateway) :
      Step config s .stubFails { s with gateway }
  | pollers {event : Pollers.Event} {gateway : Gateway} {pollers : Pollers}
      (hpollers : Pollers.Step config s.gateway s.pollers event gateway pollers) :
      Step config s (.pollers event) ⟨gateway, pollers⟩

/-- The inversion lemma of `step`. -/
theorem step_cases {s next : Polled} {event : Event} (hstep : s.step config event = some next) :
    Step config s event next := by
  cases event with
  | gateway event =>
      cases event with
      | probe => simp [step] at hstep
      | _ =>
          simp only [step, Option.bind_eq_bind, Option.bind_eq_some_iff, Option.some.injEq] at hstep
          obtain ⟨gateway, hgateway, rfl⟩ := hstep
          exact .gateway (by simp) hgateway
  | stubFails =>
      simp only [step, Option.bind_eq_bind, Option.bind_eq_some_iff, Option.some.injEq] at hstep
      obtain ⟨gateway, hgateway, rfl⟩ := hstep
      exact .stubFails hgateway
  | pollers event =>
      simp only [step, Option.bind_eq_bind, Option.bind_eq_some_iff, Option.some.injEq] at hstep
      obtain ⟨⟨gateway, pollers⟩, hpollers, rfl⟩ := hstep
      exact .pollers (Pollers.step_cases hpollers)

/-- The events of the gateway that an event is. -/
def inner (s : Polled) : Event → List Gateway.Event
  | .gateway event => [event]
  | .stubFails => [.dispatchFails]
  | .pollers event =>
      match s.pollers.probed event with
      | some (worker, outcome) => [.probe worker outcome]
      | none => []

/-- **Refinement.**  With its pollers the gateway does nothing but its own steps; each probe is
that of a poller. -/
def simulation (config : PollConfig) :
    Machine.Simulation (machine config) (Gateway.machine config.toGatewayConfig) where
  abs := gateway
  emit := inner
  initial := by
    rintro s ⟨now, rfl⟩
    exact ⟨now, rfl⟩
  step := by
    intro s event next _ hstep
    cases step_cases hstep with
    | gateway _ hgateway | stubFails hgateway => exact Machine.run_singleton_iff.mpr hgateway
    | pollers hpollers =>
        rcases Pollers.probed_of_step hpollers with
          ⟨hnone, rfl⟩ | ⟨worker, outcome, hprobe, hgateway⟩
        · simp only [inner, hnone]
          exact Machine.run_nil_iff.mpr rfl
        · simp only [inner, hprobe]
          exact Machine.run_singleton_iff.mpr hgateway

theorem gateway_of_reachable {s : Polled} (hreach : (machine config).Reachable s) :
    (Gateway.machine config.toGatewayConfig).Reachable s.gateway :=
  (simulation config).reachable hreach

/-- The state a list of events leads to from time 0. -/
def sample (events : List Event) : Polled := (machine {}).after (initial {} 0) events

theorem reachable_sample (events : List Event) : (machine {}).Reachable (sample events) := by
  have hinitial : (machine {}).Initial (initial {} 0) := ⟨0, rfl⟩
  exact (Machine.Reachable.initial hinitial).after events

/-- The first two pollers have asked their workers, and one of them has been answered. -/
def untilSleeping : List Event :=
  [.pollers .start, .pollers (.poll 0), .pollers (.poll 1),
    .pollers (.outcome 0 (.reply (sampleReply .ready)))]

end Polled
end ModelServer
