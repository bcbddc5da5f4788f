import ModelServer.Agreement
import ModelServer.Gateway.Metrics
import ModelServer.Gateway.Progress

/-!
# The HTTP server

A `Visit` is one HTTP request on its way through the middleware, and `Stage` is where it
stands.  Any number of visits share the flag `accepting_requests`, the two request
metrics and what is behind the interface: a `Host` is a machine with a gateway in it, to
which the handler of `/v1/predict` brings its calls.

The middleware is suspended in `await request.body()` and in `await call_next(request)`,
the handler in `await client.predict(..)`.  What the framework answers by itself, on a
path or to a method that has no endpoint, is up to it.

`accepted`, `generated`, `call`, `updates` and `aborted` are a record of a visit.  No step
reads them.
-/

namespace ModelServer

open Python Transition

inductive Route
  /-- `POST /v1/predict`. -/
  | predict
  | healthLive
  | healthReady
  | metrics
  /-- No endpoint; `guarded` if the path is that of `/v1/predict`. -/
  | other (guarded : Bool)
  deriving DecidableEq, Repr

/-- `request.url.path == "/v1/predict"`. -/
def Route.guarded : Route → Bool
  | predict => true
  | other guarded => guarded
  | _ => false

/-- The request metrics of the middleware and of `client.predict`, as `/metrics` shows them. -/
structure Scrape where
  http : HttpMetrics
  retriesTotal : String → ℕ
  rpcFailuresTotal : String → String → ℕ

inductive Reply
  /-- From the handler of `/v1/predict` or from the middleware. -/
  | predict (response : App.HttpResponse)
  /-- `{"status": ..}`. -/
  | health (statusCode : ℕ) (status : String)
  | metrics (scrape : Scrape)
  /-- From the framework. -/
  | other (statusCode : ℕ)

def Reply.statusCode : Reply → ℕ
  | predict response => response.statusCode
  | health statusCode _ | other statusCode => statusCode
  | metrics _ => 200

inductive Stage
  /-- Suspended in `await request.body()`. -/
  | reading
  /-- In `await call_next(request)`; the endpoint has not run yet. -/
  | routed
  /-- The handler is suspended in `await client.predict(..)`. -/
  | predicting (args : PredictArgs) (call : ℕ)
  /-- The middleware is done; without a reply if it has raised. -/
  | finished (reply : Option Reply)

structure Visit where
  route : Route
  /-- `accepting_requests` when the middleware started. -/
  accepted : Bool
  contentLength : Option ℕ
  body : List UInt8 := []
  /-- What `uuid.uuid4().hex` gave. -/
  generated : String := ""
  stage : Stage
  /-- Its call of `client.predict`. -/
  call : Option ℕ := none
  /-- What the visit has done to the metrics. -/
  updates : List App.MetricUpdate := []
  /-- The visit ended in an exception that was raised outside of `client.predict`. -/
  aborted : Bool := false

/-- What is behind the HTTP interface. -/
structure Host (config : GatewayConfig) where
  State : Type
  Event : Type
  machine : Machine State Event
  simulation : machine.Simulation (Gateway.machine config)
  /-- A handler calls `client.predict`. -/
  call : PredictRequest → ℤ → Event
  /-- What the application sets `accepting_requests` to. -/
  lifespan : Event → Option Bool
  emit_call : ∀ state request timeoutMs, simulation.emit state (call request timeoutMs) =
    [.call request.requestId request.inputs request.modelVersion timeoutMs]
  /-- It can do so whenever no call is in the middle of a step. -/
  call_isSome : ∀ state request timeoutMs, (simulation.abs state).running = none →
    (machine.step state (call request timeoutMs)).isSome

namespace Host

variable {config : GatewayConfig}

def gateway (host : Host config) (state : host.State) : Gateway := host.simulation.abs state

/-- An event that brings no call. -/
def callFree (host : Host config) (state : host.State) (event : host.Event) : Bool :=
  (host.simulation.emit state event).all fun event => !event.isCall

/-- The call that an event brings is the last one of the gateway. -/
theorem gateway_of_call {host : Host config} {state next : host.State} {request : PredictRequest}
    {timeoutMs : ℤ} (hreach : host.machine.Reachable state)
    (hstep : host.machine.step state (host.call request timeoutMs) = some next) :
    host.gateway next =
      { host.gateway state with
        calls := (host.gateway state).calls ++ [Gateway.newCall request.requestId request.inputs
          request.modelVersion timeoutMs] } := by
  have hrun := host.simulation.step _ _ _ hreach hstep
  rw [host.emit_call, Machine.run_singleton_iff] at hrun
  have hgateway : (host.gateway state).step config (.call request.requestId request.inputs
      request.modelVersion timeoutMs) = some (host.gateway next) := hrun
  rw [Gateway.step] at hgateway
  split at hgateway
  · exact (Option.some.inj hgateway).symm
  · cases hgateway

/-- A gateway by itself. -/
def ofGateway (config : GatewayConfig) : Host config where
  State := Gateway
  Event := Gateway.Event
  machine := Gateway.machine config
  simulation :=
    { abs := id
      emit := fun _ event => [event]
      initial := fun _ => id
      step := fun _ _ _ _ hstep => Machine.run_singleton_iff.mpr hstep }
  call request timeoutMs := .call request.requestId request.inputs request.modelVersion timeoutMs
  lifespan _ := none
  emit_call _ _ _ := rfl
  call_isSome state _ _ hturn := by
    have hturn' : state.running = none := hturn
    simp [Gateway.machine, Gateway.step, hturn']

end Host

namespace App

/-- The handler after its call of `client.predict`. -/
def respond (args : PredictArgs) : CallOutcome → Except Raised HttpResponse
  | .raised error => .ok (errorResponse args.requestId error)
  | .returned result => .ok ⟨200, args.requestId, .prediction args.modelVersion result⟩
  | .foreign => .error .foreign
  | .cancelled => .error .cancelled

theorem predict_eq (config : HttpConfig) (generated : Str) (client : PredictArgs → CallOutcome)
    (payload : Option Json) :
    predict config generated client payload =
      validate config generated payload >>= fun args => respond args (client args) := by
  unfold predict respond
  rfl

end App

structure HttpServer (State : Type) where
  inner : State
  acceptingRequests : Bool := true
  metrics : HttpMetrics := {}
  visits : List Visit := []

namespace HttpServer

variable {State : Type}

/-- A visit goes on, and updates the metrics. -/
@[simps]
def store (s : HttpServer State) (id : ℕ) (visit : Visit) (updates : List App.MetricUpdate) :
    HttpServer State :=
  { s with
    metrics := s.metrics.updateAll updates
    visits := s.visits.set id { visit with updates := visit.updates ++ updates } }

/-- The middleware up to its first suspension. -/
def arrive (config : HttpConfig) (accepting : Bool) (route : Route) (contentLength : Option ℕ) :
    Visit :=
  let arrived stage : Visit := { route, accepted := accepting, contentLength, stage }
  let refused cls : Visit :=
    arrived (.finished (some (.predict (App.errorResponse [] (.default cls)))))
  if route.guarded then
    if ¬ accepting then refused .serviceDrainingError
    else if contentLength.any fun length => config.httpMaxBodyBytes < length then
      refused .requestTooLargeError
    else arrived .reading
  else { arrived .routed with updates := [.activeInc] }

@[simp] theorem route_arrive (config : HttpConfig) (accepting : Bool) (route : Route)
    (contentLength : Option ℕ) : (arrive config accepting route contentLength).route = route := by
  unfold arrive
  split <;> [split <;> [rfl; split <;> rfl]; rfl]

@[simp] theorem call_arrive (config : HttpConfig) (accepting : Bool) (route : Route)
    (contentLength : Option ℕ) : (arrive config accepting route contentLength).call = none := by
  unfold arrive
  split <;> [split <;> [rfl; split <;> rfl]; rfl]

/-- The `finally` of the middleware. -/
def counted (statusCode : ℕ) (errorCode : String) : List App.MetricUpdate :=
  [.activeDec, .requestsInc statusCode errorCode]

/-- The handler of `/v1/predict` is done, and so is the middleware. -/
def finish (s : HttpServer State) (id : ℕ) (visit : Visit)
    (result : Except Raised App.HttpResponse) : HttpServer State :=
  let caught := App.catchExceptions result
  s.store id { visit with stage := .finished (caught.1.map .predict) }
    (counted caught.2.1 caught.2.2)

/-- The endpoint of another path is done, and so is the middleware. -/
def answer (s : HttpServer State) (id : ℕ) (visit : Visit) (reply : Reply) : HttpServer State :=
  s.store id { visit with stage := .finished (some reply) } (counted reply.statusCode "NONE")

/-- The visit ends in an exception that the middleware does not catch. -/
def abort (s : HttpServer State) (id : ℕ) (visit : Visit) (updates : List App.MetricUpdate) :
    HttpServer State :=
  s.store id { visit with stage := .finished none, aborted := true } updates

variable {config : HttpConfig} {host : Host config.toGatewayConfig}

/-- The endpoints other than `/v1/predict`. -/
def page (host : Host config.toGatewayConfig) (s : HttpServer host.State) : Route → Option Reply
  | .healthLive => some (.health 200 "live")
  | .healthReady =>
      if s.acceptingRequests ∧ (host.gateway s.inner).scheduler.registry.isAnyWorkerHealthy then
        some (.health 200 "ready")
      else some (.health 503 "not_ready")
  | .metrics =>
      some (.metrics ⟨s.metrics, (host.gateway s.inner).retriesTotal,
        (host.gateway s.inner).rpcFailuresTotal⟩)
  | .predict | .other _ => none

inductive Event (Inner : Type)
  /-- The middleware starts on a request. -/
  | request (route : Route) (contentLength : Option ℕ)
  /-- The body of a request is there. -/
  | body (visit : ℕ) (body : List UInt8)
  /-- The handler of `/v1/predict` runs up to its call of `client.predict`. -/
  | handle (visit : ℕ) (generated : String)
  /-- The handler of another path runs. -/
  | page (visit : ℕ)
  /-- The framework answers. -/
  | other (visit : ℕ) (statusCode : ℕ)
  /-- `client.predict` is done, and the handler and the middleware end. -/
  | ends (visit : ℕ)
  /-- `CancelledError` is raised outside of `client.predict`, or the client disconnects before
  the body is there. -/
  | abort (visit : ℕ)
  /-- A step of what is behind the interface. -/
  | inner (event : Inner)

/-- No call is in the middle of a step. -/
def idle (host : Host config.toGatewayConfig) (s : HttpServer host.State) : Bool :=
  (host.gateway s.inner).running = none

/-- `loads` is `json.loads`. -/
def step (loads : List UInt8 → Option Json) (host : Host config.toGatewayConfig)
    (s : HttpServer host.State) : Event host.Event → Option (HttpServer host.State)
  | .request route contentLength => do
      guard (s.idle host)
      let visit := arrive config s.acceptingRequests route contentLength
      some { s with metrics := s.metrics.updateAll visit.updates, visits := s.visits ++ [visit] }
  | .body id body => do
      guard (s.idle host)
      let visit ← s.visits[id]?
      match visit.stage with
      | .reading =>
          if config.httpMaxBodyBytes < body.length then
            some (s.store id
              { visit with
                body
                stage := .finished (some (.predict
                  (App.errorResponse [] (.default .requestTooLargeError)))) } [])
          else some (s.store id { visit with body, stage := .routed } [.activeInc])
      | _ => none
  | .handle id generated => do
      guard (s.idle host)
      let visit ← s.visits[id]?
      match visit.stage, visit.route with
      | .routed, .predict =>
          let visit := { visit with generated }
          match App.validate config (Str.ofString generated) (loads visit.body) with
          | .error raised => some (s.finish id visit (.error raised))
          | .ok args => do
              let request ← args.toPredictRequest
              let inner ← host.machine.step s.inner (host.call request args.timeoutMs)
              let number := (host.gateway s.inner).calls.length
              some ({ s with inner }.store id
                { visit with stage := .predicting args number, call := some number } [])
      | _, _ => none
  | .page id => do
      guard (s.idle host)
      let visit ← s.visits[id]?
      match visit.stage with
      | .routed => (s.page host visit.route).map (s.answer id visit)
      | _ => none
  | .other id statusCode => do
      guard (s.idle host)
      let visit ← s.visits[id]?
      match visit.stage, visit.route with
      | .routed, .other _ => some (s.answer id visit (.other statusCode))
      | _, _ => none
  | .ends id => do
      guard (s.idle host)
      let visit ← s.visits[id]?
      match visit.stage with
      | .predicting args call => do
          let call ← (host.gateway s.inner).calls[call]?
          match call.point with
          | .finished outcome => some (s.finish id visit (App.respond args outcome))
          | _ => none
      | _ => none
  | .abort id => do
      guard (s.idle host)
      let visit ← s.visits[id]?
      match visit.stage with
      | .reading => some (s.abort id visit [])
      | .routed => some (s.abort id visit (counted 500 "NONE"))
      | _ => none
  | .inner event => do
      guard (host.callFree s.inner event)
      let inner ← host.machine.step s.inner event
      some
        { s with inner, acceptingRequests := (host.lifespan event).getD s.acceptingRequests }

def machine (loads : List UInt8 → Option Json) (host : Host config.toGatewayConfig) :
    Machine (HttpServer host.State) (Event host.Event) where
  Initial s := ∃ inner, host.machine.Initial inner ∧ s = { inner }
  step := step loads host

/-! ## Everything an HTTP server can do -/

variable {loads : List UInt8 → Option Json}

inductive Step (loads : List UInt8 → Option Json) (host : Host config.toGatewayConfig)
    (s : HttpServer host.State) : Event host.Event → HttpServer host.State → Prop
  | arrives {route : Route} {contentLength : Option ℕ} {visit : Visit}
      (hvisit : visit = arrive config s.acceptingRequests route contentLength) :
      Step loads host s (.request route contentLength)
        { s with metrics := s.metrics.updateAll visit.updates, visits := s.visits ++ [visit] }
  | tooLong {id : ℕ} {body : List UInt8} {visit : Visit} (hvisit : s.visits[id]? = some visit)
      (hstage : visit.stage = .reading) (hlong : config.httpMaxBodyBytes < body.length) :
      Step loads host s (.body id body)
        (s.store id
          { visit with
            body
            stage := .finished (some (.predict
              (App.errorResponse [] (.default .requestTooLargeError)))) } [])
  | reads {id : ℕ} {body : List UInt8} {visit : Visit} (hvisit : s.visits[id]? = some visit)
      (hstage : visit.stage = .reading) (hshort : body.length ≤ config.httpMaxBodyBytes) :
      Step loads host s (.body id body)
        (s.store id { visit with body, stage := .routed } [.activeInc])
  | refuses {id : ℕ} {generated : String} {visit : Visit} {raised : Raised}
      (hvisit : s.visits[id]? = some visit) (hstage : visit.stage = .routed)
      (hroute : visit.route = .predict)
      (hraised : App.validate config (Str.ofString generated) (loads visit.body) = .error raised) :
      Step loads host s (.handle id generated)
        (s.finish id { visit with generated } (.error raised))
  | calls {id : ℕ} {generated : String} {visit : Visit} {args : PredictArgs}
      {request : PredictRequest} {inner : host.State}
      (hturn : (host.gateway s.inner).running = none)
      (hvisit : s.visits[id]? = some visit) (hstage : visit.stage = .routed)
      (hroute : visit.route = .predict)
      (hargs : App.validate config (Str.ofString generated) (loads visit.body) = .ok args)
      (hrequest : args.toPredictRequest = some request)
      (hinner : host.machine.step s.inner (host.call request args.timeoutMs) = some inner) :
      Step loads host s (.handle id generated)
        ({ s with inner }.store id
          { visit with
            generated
            stage := .predicting args (host.gateway s.inner).calls.length
            call := some (host.gateway s.inner).calls.length } [])
  | answers {event : Event host.Event} {id : ℕ} {visit : Visit} {reply : Reply}
      (hvisit : s.visits[id]? = some visit) (hstage : visit.stage = .routed)
      (hreply : event = .page id ∧ s.page host visit.route = some reply ∨
        ∃ guarded statusCode, event = .other id statusCode ∧ visit.route = .other guarded ∧
          reply = .other statusCode) :
      Step loads host s event (s.answer id visit reply)
  | ends {id : ℕ} {visit : Visit} {args : PredictArgs} {number : ℕ} {call : Call}
      {outcome : CallOutcome} (hvisit : s.visits[id]? = some visit)
      (hstage : visit.stage = .predicting args number)
      (hcall : (host.gateway s.inner).calls[number]? = some call)
      (hpoint : call.point = .finished outcome) :
      Step loads host s (.ends id) (s.finish id visit (App.respond args outcome))
  | aborts {id : ℕ} {visit : Visit} {updates : List App.MetricUpdate}
      (hvisit : s.visits[id]? = some visit)
      (hstage : visit.stage = .reading ∧ updates = [] ∨
        visit.stage = .routed ∧ updates = counted 500 "NONE") :
      Step loads host s (.abort id) (s.abort id visit updates)
  | inner {event : host.Event} {inner : host.State} (hfree : host.callFree s.inner event)
      (hinner : host.machine.step s.inner event = some inner) :
      Step loads host s (.inner event)
        { s with inner, acceptingRequests := (host.lifespan event).getD s.acceptingRequests }

/-- The inversion lemma of `step`. -/
theorem step_cases {s next : HttpServer host.State} {event : Event host.Event}
    (hstep : s.step loads host event = some next) : Step loads host s event next := by
  cases event with
  | request route contentLength =>
      simp only [step, Option.bind_eq_bind, Option.bind_eq_some_iff, Option.some.injEq] at hstep
      obtain ⟨_, _, rfl⟩ := hstep
      exact .arrives rfl
  | body id body =>
      simp only [step, Option.bind_eq_bind, Option.bind_eq_some_iff] at hstep
      obtain ⟨_, _, visit, hvisit, hstep⟩ := hstep
      split at hstep
      · split at hstep <;> obtain rfl := Option.some.inj hstep
        · exact .tooLong hvisit ‹_› ‹_›
        · exact .reads hvisit ‹_› (not_lt.mp ‹_›)
      · cases hstep
  | handle id generated =>
      simp only [step, Option.bind_eq_bind, Option.bind_eq_some_iff] at hstep
      obtain ⟨_, hturn, visit, hvisit, hstep⟩ := hstep
      split at hstep
      · split at hstep
        · obtain rfl := Option.some.inj hstep
          exact .refuses hvisit ‹_› ‹_› ‹_›
        · simp only [Option.bind_eq_some_iff, Option.some.injEq] at hstep
          obtain ⟨request, hrequest, inner, hinner, rfl⟩ := hstep
          exact .calls (by simpa [idle] using hturn) hvisit ‹_› ‹_› ‹_› hrequest hinner
      · cases hstep
  | page id =>
      simp only [step, Option.bind_eq_bind, Option.bind_eq_some_iff] at hstep
      obtain ⟨_, _, visit, hvisit, hstep⟩ := hstep
      split at hstep
      · obtain ⟨reply, hreply, rfl⟩ := Option.map_eq_some_iff.mp hstep
        exact .answers hvisit ‹_› (.inl ⟨rfl, hreply⟩)
      · cases hstep
  | other id statusCode =>
      simp only [step, Option.bind_eq_bind, Option.bind_eq_some_iff] at hstep
      obtain ⟨_, _, visit, hvisit, hstep⟩ := hstep
      split at hstep
      · obtain rfl := Option.some.inj hstep
        exact .answers hvisit ‹_› (.inr ⟨_, statusCode, rfl, ‹_›, rfl⟩)
      · cases hstep
  | ends id =>
      simp only [step, Option.bind_eq_bind, Option.bind_eq_some_iff] at hstep
      obtain ⟨_, _, visit, hvisit, hstep⟩ := hstep
      split at hstep
      · simp only [Option.bind_eq_some_iff] at hstep
        obtain ⟨call, hcall, hstep⟩ := hstep
        split at hstep
        · obtain rfl := Option.some.inj hstep
          exact .ends hvisit ‹_› hcall ‹_›
        · cases hstep
      · cases hstep
  | abort id =>
      simp only [step, Option.bind_eq_bind, Option.bind_eq_some_iff] at hstep
      obtain ⟨_, _, visit, hvisit, hstep⟩ := hstep
      split at hstep
      · obtain rfl := Option.some.inj hstep
        exact .aborts hvisit (.inl ⟨‹_›, rfl⟩)
      · obtain rfl := Option.some.inj hstep
        exact .aborts hvisit (.inr ⟨‹_›, rfl⟩)
      · cases hstep
  | inner event =>
      simp only [step, Option.bind_eq_bind, Option.bind_eq_some_iff, Option.some.injEq] at hstep
      obtain ⟨_, hfree, inner, hinner, rfl⟩ := hstep
      exact .inner (by simpa using hfree) hinner

/-- The steps of its host that an event is. -/
def steps (loads : List UInt8 → Option Json) (s : HttpServer host.State) :
    Event host.Event → List host.Event
  | .handle id generated =>
      match s.visits[id]? with
      | some visit =>
          match App.validate config (Str.ofString generated) (loads visit.body) with
          | .ok args =>
              (args.toPredictRequest.map fun request => host.call request args.timeoutMs).toList
          | .error _ => []
      | none => []
  | .inner event => [event]
  | _ => []

/-- **Refinement.**  Seen without its visits an HTTP server is its host. -/
def simulation (loads : List UInt8 → Option Json) (host : Host config.toGatewayConfig) :
    (machine loads host).Simulation host.machine where
  abs := inner
  emit := steps loads
  initial := by
    rintro s ⟨inner, hinner, rfl⟩
    exact hinner
  step := by
    intro s event next _ hstep
    cases step_cases hstep with
    | arrives _ | tooLong _ _ _ | reads _ _ _ | ends _ _ _ _ | aborts _ _ =>
        exact Machine.run_nil_iff.mpr rfl
    | answers _ _ hreply =>
        rcases hreply with ⟨rfl, _⟩ | ⟨_, _, rfl, _, _⟩ <;> exact Machine.run_nil_iff.mpr rfl
    | refuses hvisit _ _ hraised =>
        simp only [steps, hvisit, hraised]
        exact Machine.run_nil_iff.mpr rfl
    | calls _ hvisit _ _ hargs hrequest hinner =>
        simp only [steps, hvisit, hargs, hrequest, Option.map_some, Option.toList_some]
        exact Machine.run_singleton_iff.mpr hinner
    | inner _ hinner => exact Machine.run_singleton_iff.mpr hinner

theorem host_of_reachable {s : HttpServer host.State} (hreach : (machine loads host).Reachable s) :
    host.machine.Reachable s.inner :=
  (simulation loads host).reachable hreach

theorem gateway_of_reachable {s : HttpServer host.State}
    (hreach : (machine loads host).Reachable s) :
    (Gateway.machine config.toGatewayConfig).Reachable (host.gateway s.inner) :=
  host.simulation.reachable (host_of_reachable hreach)

theorem reachable_of_step {s next : HttpServer host.State} {event : Event host.Event}
    (hreach : (machine loads host).Reachable s) (hstep : s.step loads host event = some next) :
    (machine loads host).Reachable next := by
  have hstep' : (machine loads host).step s event = some next := hstep
  exact hreach.next hstep'

end HttpServer
end ModelServer
