import ModelServer.Gateway.Served
import ModelServer.Gateway.Stopping

/-!
# The gateway shuts down

The application behind the HTTP interface is a gateway with its pollers.  When it goes
down it stops accepting requests and then calls `stop`.  Requests to `/v1/predict` that
arrive from then on are refused at once; those that are in the server already go on, and
may still be forwarded.

`level` is what the visits, the calls, the pollers and `stop` have before them at most.  A
visit that may still call `client.predict` pays for its call, and a refused one for
nothing, so going down takes no more steps than `level`: `shutdown_ends`.
-/

namespace ModelServer

open Python Transition

/-- `GatewayConfig`, with everything that is read of it. -/
structure AppConfig extends HttpConfig, PollConfig

/-- A gateway with its pollers; the application sets `accepting_requests`. -/
abbrev Host.ofPolled (config : AppConfig) : Host config.toGatewayConfig where
  State := Polled
  Event := Polled.Event
  machine := Polled.machine config.toPollConfig
  simulation := Polled.simulation config.toPollConfig
  call request timeoutMs :=
    .gateway (.call request.requestId request.inputs request.modelVersion timeoutMs)
  lifespan
    | .pollers .start => some true
    | .pollers .stop => some false
    | _ => none
  emit_call _ _ _ := rfl
  call_isSome state _ _ hturn := by
    have hturn' : state.gateway.running = none := hturn
    simp [Polled.machine, Polled.step, Gateway.step, hturn']

/-- The HTTP server in front of a gateway with its pollers. -/
abbrev Application (config : AppConfig) := HttpServer (Host.ofPolled config).State

namespace Polled

variable {config : PollConfig}

/-- A step of a call. -/
def Event.ofCall : Event → Bool
  | .gateway event => event.ofCall
  | .stubFails => true
  | .pollers _ => false

def stopping (s : Polled) : Bool := s.pollers.stopping

/-- What the calls, the pollers and `stop` have before them. -/
def level (s : Polled) : ℕ := s.gateway.rank + s.ahead

theorem countP_inner (s : Polled) (event : Event) :
    (s.inner event).countP Gateway.Event.ofCall = if event.ofCall then 1 else 0 := by
  cases event with
  | gateway event =>
      simp only [inner, List.countP_cons, List.countP_nil, Nat.zero_add]
      rfl
  | stubFails => rfl
  | pollers event =>
      simp only [inner, Event.ofCall]
      split <;> rfl

theorem level_of_step {s next : Polled} {event : Event} (hreach : (machine config).Reachable s)
    (hstep : s.step config event = some next) (hstopping : s.pollers.stopping = true)
    (hstart : event ≠ .pollers .start)
    (hfree : ∀ inner ∈ s.inner event, inner.isCall = false) :
    next.level + (if event.ofCall || event.ofStop then 1 else 0) ≤ s.level := by
  have hrun : (Gateway.machine config.toGatewayConfig).Run s.gateway (s.inner event) next.gateway :=
    (simulation config).step s event next hreach hstep
  have hrank :=
    (Gateway.budgetOfCalls config.toGatewayConfig).run (gateway_of_reachable hreach) hrun
  have hsupply : (Gateway.budgetOfCalls config.toGatewayConfig).supplied (s.inner event) = 0 := by
    rw [(Gateway.budgetOfCalls _).supplied_eq fun _ => rfl, List.countP_eq_zero.mpr]
    simpa using hfree
  have hahead := ahead_of_step hreach (step_cases hstep) hstopping hstart
  have hcount := s.countP_inner event
  rw [hsupply] at hrank
  have hrank' : next.gateway.rank + (if event.ofCall then 1 else 0) ≤ s.gateway.rank := by
    rw [← hcount]
    exact hrank
  have hone : event.ofCall = true → event.ofStop = true → False := by
    cases event <;> simp [Event.ofCall, Event.ofStop]
  unfold level
  cases hcall : event.ofCall <;> cases hstop : event.ofStop <;> simp_all <;> omega

end Polled

/-- The steps of a visit and of its call that are left at most. -/
def Visit.rank (visit : Visit) : ℕ :=
  match visit.stage, visit.route with
  | .reading, .predict => 20
  | .reading, _ => 2
  | .routed, .predict => 19
  | .routed, _ => 1
  | .predicting _ _, _ => 1
  | .finished _, _ => 0

theorem Visit.rank_le (visit : Visit) : visit.rank ≤ 20 := by
  unfold rank
  split <;> omega

/-- A visit that has not ended has a step left. -/
theorem Visit.rank_pos {visit : Visit} (h : ∀ reply, visit.stage ≠ .finished reply) :
    0 < visit.rank := by
  unfold rank
  split <;> simp_all

theorem Visit.rank_finished {visit : Visit} {reply : Option Reply}
    (h : visit.stage = .finished reply) : visit.rank = 0 := by
  simp [rank, h]

namespace Application

variable {config : AppConfig} {loads : List UInt8 → Option Json}

abbrev Event (config : AppConfig) := HttpServer.Event (Host.ofPolled config).Event

def machine (config : AppConfig) (loads : List UInt8 → Option Json) :
    Machine (Application config) (Event config) :=
  HttpServer.machine loads (.ofPolled config)

/-- A step of a visit, of a call, of a poller or of `stop`. -/
def ofServer : Event config → Bool
  | .request _ _ => false
  | .inner event => Polled.Event.ofCall event || Polled.Event.ofStop event
  | _ => true

/-- A request that is not refused while the application goes down. -/
def unguarded : Event config → Bool
  | .request route _ => !route.guarded
  | _ => false

def starts : Event config → Bool
  | .inner event => Polled.Event.starts event
  | _ => false

/-- What is left of the visits, the calls, the pollers and `stop`. -/
def level (s : Application config) : ℕ := (s.visits.map Visit.rank).sum + Polled.level s.inner

/-- The application while it goes down: it is not started again. -/
def goingDown (config : AppConfig) (loads : List UInt8 → Option Json) :
    Machine (Application config) (Event config) where
  Initial s := (machine config loads).Reachable s ∧ Polled.stopping s.inner = true ∧
    s.acceptingRequests = false
  step s event := if starts event then none else (machine config loads).step s event

theorem goingDown_step {s next : Application config} {event : Event config}
    (hstep : (goingDown config loads).step s event = some next) :
    event ≠ .inner (.pollers .start) ∧ (machine config loads).step s event = some next := by
  simp only [goingDown, Option.ite_none_left_eq_some] at hstep
  obtain ⟨hstarts, hevent⟩ := hstep
  refine ⟨?_, hevent⟩
  rintro rfl
  exact hstarts rfl

/-- A run without another start is a run of going down. -/
theorem goingDown_run {first last : Application config} {events : List (Event config)}
    (hrun : (machine config loads).Run first events last)
    (hstart : ∀ event ∈ events, starts event = false) :
    (goingDown config loads).Run first events last := by
  induction events generalizing first with
  | nil => exact Machine.run_nil_iff.mpr (Machine.run_nil_iff.mp hrun)
  | cons event events ih =>
      obtain ⟨next, hevent, hrest⟩ := Machine.run_cons_iff.mp hrun
      have hnext : (goingDown config loads).step first event = some next := by
        simp only [goingDown, hstart event List.mem_cons_self, Bool.false_eq_true, if_false]
        exact hevent
      exact .cons hnext (ih hrest fun event hmem => hstart event (List.mem_cons_of_mem _ hmem))

theorem polled_of_reachable {s : Application config}
    (hreach : (machine config loads).Reachable s) :
    (Polled.machine config.toPollConfig).Reachable s.inner :=
  HttpServer.host_of_reachable hreach

/-- The application stays down. -/
structure Down (config : AppConfig) (loads : List UInt8 → Option Json) (s : Application config) :
    Prop where
  reachable : (machine config loads).Reachable s
  stopping : Polled.stopping s.inner = true
  refusing : s.acceptingRequests = false

theorem stopping_of_inner {s next : Polled} {event : Polled.Event}
    (hreach : (Polled.machine config.toPollConfig).Reachable s)
    (hstep : s.step config.toPollConfig event = some next) (hstopping : s.stopping = true)
    (hstart : event ≠ .pollers .start) : next.stopping = true :=
  Polled.stopping_of_step (Polled.step_cases hstep) (Polled.staffed_of_reachable hreach) hstopping
    hstart

/-- The step of the gateway with its pollers in which a handler calls `client.predict`. -/
theorem step_of_call {s next : Polled} {request : PredictRequest} {timeoutMs : ℤ}
    (hstep : (Host.ofPolled config).machine.step s
      ((Host.ofPolled config).call request timeoutMs) = some next) :
    s.step config.toPollConfig (.gateway (.call request.requestId request.inputs
      request.modelVersion timeoutMs)) = some next := hstep

theorem down_of_step {s next : Application config} {event : Event config}
    (h : Down config loads s) (hstep : (goingDown config loads).step s event = some next) :
    Down config loads next := by
  obtain ⟨hstart, hevent⟩ := goingDown_step hstep
  have hcases : HttpServer.Step loads (.ofPolled config) s event next :=
    HttpServer.step_cases hevent
  have hpolled := polled_of_reachable h.reachable
  refine ⟨h.reachable.next hevent, ?_, ?_⟩
  · cases hcases with
    | calls _ _ _ _ _ _ hinner =>
        exact stopping_of_inner hpolled (step_of_call hinner) h.stopping (by simp)
    | inner _ hinner =>
        exact stopping_of_inner hpolled hinner h.stopping fun heq => hstart (heq ▸ rfl)
    | _ => exact h.stopping
  · cases hcases with
    | @inner event _ _ _ =>
        have hlifespan :
            ((Host.ofPolled config).lifespan event).getD s.acceptingRequests = false := by
          simp only [Host.ofPolled, h.refusing]
          split
          · exact absurd rfl hstart
          · rfl
          · rfl
        exact hlifespan
    | _ => exact h.refusing

theorem down_of_reachable {s : Application config} (hreach : (goingDown config loads).Reachable s) :
    Down config loads s := by
  apply hreach.invariant
  · rintro s ⟨hreachable, hstopping, hrefusing⟩
    exact ⟨hreachable, hstopping, hrefusing⟩
  · intro s event next _ h hstep
    exact down_of_step h hstep

/-! ## The steps of going down -/

/-- A visit moves on. -/
theorem level_store {s : Application config} {id : ℕ} {visit moved : Visit}
    (hvisit : s.visits[id]? = some visit) (updates : List App.MetricUpdate) :
    level (s.store id moved updates) + visit.rank = level s + moved.rank := by
  have hsum := sum_map_set Visit.rank hvisit { moved with updates := moved.updates ++ updates }
  have hrank : Visit.rank { moved with updates := moved.updates ++ updates } = moved.rank := rfl
  simp only [level, HttpServer.store_visits, HttpServer.store_inner]
  omega

theorem level_store_lt {s : Application config} {id : ℕ} {visit moved : Visit}
    (hvisit : s.visits[id]? = some visit) (updates : List App.MetricUpdate)
    (hless : moved.rank < visit.rank) : level (s.store id moved updates) + 1 ≤ level s := by
  have hmoved := @level_store config s id visit moved hvisit updates
  omega

theorem level_of_call {s next : Polled} {requestId : String} {inputs : List String}
    {modelVersion : String} {timeoutMs : ℤ}
    (hreach : (Polled.machine config.toPollConfig).Reachable s)
    (hstep : s.step config.toPollConfig (.gateway (.call requestId inputs modelVersion timeoutMs)) =
      some next) (hstopping : s.stopping = true) : next.level ≤ s.level + 17 := by
  have hahead := Polled.ahead_of_step hreach (Polled.step_cases hstep) hstopping (by simp)
  have hgateway : s.gateway.step config.toGatewayConfig
      (.call requestId inputs modelVersion timeoutMs) = some next.gateway := by
    cases Polled.step_cases hstep with
    | gateway _ hgateway => exact hgateway
  have hrank := Gateway.rank_of_step
    (Gateway.step_of_reachable (Polled.gateway_of_reachable hreach) hgateway)
    (Gateway.orderly_of_reachable (Polled.gateway_of_reachable hreach))
  simp only [Polled.Event.ofStop, Gateway.Event.ofCall, Gateway.Event.isCall] at hahead hrank
  unfold Polled.level
  simp at hahead hrank
  omega

theorem rank_arrive {route : Route} {contentLength : Option ℕ} :
    (HttpServer.arrive config.toHttpConfig false route contentLength).rank =
      if route.guarded then 0 else 1 := by
  unfold HttpServer.arrive
  split
  · rfl
  · cases route with
    | predict => simp [Route.guarded] at *
    | _ => rfl

theorem level_of_step {s next : Application config} {event : Event config}
    (h : Down config loads s) (hstep : (goingDown config loads).step s event = some next) :
    level next + (if ofServer event then 1 else 0) ≤
      level s + if unguarded event then 1 else 0 := by
  obtain ⟨hstart, hevent⟩ := goingDown_step hstep
  have hcases : HttpServer.Step loads (.ofPolled config) s event next :=
    HttpServer.step_cases hevent
  have hpolled := polled_of_reachable h.reachable
  cases hcases with
  | arrives hvisit =>
      rw [h.refusing] at hvisit
      simp only [level, hvisit, List.map_append, List.sum_append, List.map_singleton,
        List.sum_singleton, rank_arrive, ofServer, unguarded]
      split <;> simp_all
      omega
  | tooLong hvisit hstage _ =>
      refine level_store_lt hvisit _ ?_
      rw [Visit.rank_finished rfl]
      exact Visit.rank_pos (by simp [hstage])
  | @reads _ _ visit hvisit hstage _ =>
      refine level_store_lt hvisit _ ?_
      unfold Visit.rank
      rw [hstage]
      cases visit.route <;> simp
  | refuses hvisit hstage _ _ | ends hvisit hstage _ _ =>
      refine level_store_lt hvisit _ ?_
      rw [Visit.rank_finished rfl]
      exact Visit.rank_pos (by simp [hstage])
  | answers hvisit hstage hreply =>
      have hwork : ofServer event = true ∧ unguarded event = false := by
        rcases hreply with ⟨rfl, _⟩ | ⟨_, _, rfl, _⟩ <;> exact ⟨rfl, rfl⟩
      rw [if_pos hwork.1, if_neg (by simp [hwork.2])]
      refine level_store_lt hvisit _ ?_
      rw [Visit.rank_finished rfl]
      exact Visit.rank_pos (by simp [hstage])
  | @calls id _ visit args _ inner _ hvisit hstage hroute _ _ hinner =>
      -- the visit has been paying for its call
      have hcall : Polled.level inner ≤ Polled.level s.inner + 17 :=
        level_of_call hpolled (step_of_call hinner) h.stopping
      have hbefore : visit.rank = 19 := by simp [Visit.rank, hstage, hroute]
      have hinner : level { s with inner } ≤ level s + 17 := by
        simp only [level]
        omega
      have hcalling : ∀ moved : Visit, moved.rank = 1 →
          level ({ s with inner }.store id moved []) + 1 ≤ level s := by
        intro moved hrank
        have hmoved := @level_store config { s with inner } id visit moved hvisit []
        omega
      exact hcalling _ rfl
  | aborts hvisit hstage =>
      refine level_store_lt hvisit _ ?_
      rw [Visit.rank_finished rfl]
      rcases hstage with ⟨hstage, _⟩ | ⟨hstage, _⟩ <;> exact Visit.rank_pos (by simp [hstage])
  | @inner event _ hfree hinner =>
      have hrest := Polled.level_of_step hpolled hinner h.stopping (fun heq => hstart (heq ▸ rfl))
        fun inner hmem => by simpa using List.all_eq_true.mp hfree inner hmem
      show _ + (if Polled.Event.ofCall event || Polled.Event.ofStop event then 1 else 0) ≤ _ + 0
      simp only [level]
      omega

/-- What pays for the steps of going down. -/
def stepsDown (config : AppConfig) (loads : List UInt8 → Option Json) :
    Machine.Potential (goingDown config loads) where
  work := ofServer
  level := level
  supply event := if unguarded event then 1 else 0
  step _ _ _ hreach hstep := level_of_step (down_of_reachable hreach) hstep

theorem supply_of_ofServer (event : Event config) (h : ofServer event = true) :
    (stepsDown config loads).supply event = 0 := by
  cases event with
  | request => cases h
  | _ => rfl

/-! ## Where it ends -/

/-- Only a visit to `/v1/predict` calls `client.predict`. -/
theorem route_of_predicting {s : Application config}
    (hreach : (machine config loads).Reachable s) :
    ∀ visit ∈ s.visits, ∀ args number, visit.stage = .predicting args number →
      visit.route = .predict := by
  apply hreach.invariant
  · rintro s ⟨inner, _, rfl⟩
    simp
  · intro s event next _ h hevent visit hmem args number hstage
    have hstep : HttpServer.Step loads (.ofPolled config) s event next :=
      HttpServer.step_cases hevent
    cases hstep with
    | arrives hvisit =>
        rcases List.mem_append.mp hmem with hold | hnew
        · exact h visit hold args number hstage
        · rw [List.mem_singleton.mp hnew, hvisit] at hstage
          unfold HttpServer.arrive at hstage
          split at hstage <;> [split at hstage <;> [cases hstage; split at hstage <;> cases hstage];
            cases hstage]
    | calls _ _ _ hroute _ _ _ =>
        rcases List.mem_or_eq_of_mem_set hmem with hold | rfl
        · exact h visit hold args number hstage
        · exact hroute
    | inner _ _ => exact h visit hmem args number hstage
    | _ =>
        rcases List.mem_or_eq_of_mem_set hmem with hold | rfl
        · exact h visit hold args number hstage
        · cases hstage

/-- A step of the gateway with its pollers is one of the server. -/
theorem step_inner {s : Application config} {event : Polled.Event} {next : Polled}
    (hfree : (Host.ofPolled config).callFree s.inner event = true)
    (hstep : Polled.step config.toPollConfig s.inner event = some next)
    (hstart : Polled.Event.starts event = false) :
    ((goingDown config loads).step s (.inner event)).isSome := by
  have hstep' : (Polled.machine config.toPollConfig).step s.inner event = some next := hstep
  simp [goingDown, starts, hstart, machine, HttpServer.machine, HttpServer.step, hfree, hstep']

theorem callFree_pollers (s : Polled) (event : Pollers.Event) :
    (Host.ofPolled config).callFree s (.pollers event) = true := by
  simp only [Host.callFree, Polled.simulation, Polled.inner]
  split <;> simp [Gateway.Event.isCall]

/-- A step of a call is one of the server. -/
theorem step_gateway {s : Application config} {event : Gateway.Event} {next : Gateway}
    (hwork : event.ofCall = true)
    (hstep : s.inner.gateway.step config.toGatewayConfig event = some next) :
    ((goingDown config loads).step s (.inner (.gateway event))).isSome := by
  have hpolled : Polled.step config.toPollConfig s.inner (.gateway event) =
      some ⟨next, s.inner.pollers.dispatch (s.inner.gateway.dispatched event)⟩ := by
    cases event <;> simp_all [Polled.step, Gateway.Event.ofCall]
  refine step_inner ?_ hpolled rfl
  cases event <;> simp_all [Host.callFree, Polled.simulation, Polled.inner, Gateway.Event.isCall,
    Gateway.Event.ofCall]

/-- A call that has not ended has a step left, or another call has. -/
theorem exists_step_of_call {s : Application config}
    (hreach : (machine config loads).Reachable s) {id : ℕ} {call : Call}
    (hcall : s.inner.gateway.calls[id]? = some call)
    (hpoint : ∀ outcome, call.point ≠ .finished outcome) :
    ∃ event, ofServer event = true ∧ ((goingDown config loads).step s event).isSome := by
  have hgateway := Polled.gateway_of_reachable (polled_of_reachable hreach)
  obtain ⟨event, next, hwork, hstep⟩ : ∃ event next, event.ofCall = true ∧
      s.inner.gateway.step config.toGatewayConfig event = some next :=
    Gateway.exists_step_of_unfinished (Gateway.orderly_of_reachable hgateway) hcall hpoint
  exact ⟨.inner (.gateway event), by simpa [ofServer, Polled.Event.ofCall] using .inl hwork,
    step_gateway hwork hstep⟩

/-- A visit that has not ended can end, or its call has a step left. -/
theorem exists_step_of_visit {s : Application config}
    (hreach : (machine config loads).Reachable s) (hturn : s.inner.gateway.running = none)
    {id : ℕ} {visit : Visit} (hvisit : s.visits[id]? = some visit)
    (hstage : ∀ reply, visit.stage ≠ .finished reply) :
    ∃ event, ofServer event = true ∧ ((goingDown config loads).step s event).isSome := by
  have hidle : HttpServer.idle (.ofPolled config) s = true := decide_eq_true hturn
  cases hplace : visit.stage with
  | reading | routed =>
      exact ⟨.abort id, rfl, by
        simp [goingDown, starts, machine, HttpServer.machine, HttpServer.step, guard, hidle, hvisit,
          hplace]⟩
  | finished reply => exact absurd hplace (hstage reply)
  | predicting args number =>
      have hroute := route_of_predicting hreach visit (List.mem_of_getElem? hvisit) _ _ hplace
      have hfollows := HttpServer.allFollow_of_reachable hreach visit
        (List.mem_of_getElem? hvisit) hroute
      simp only [Visit.Follows, hplace] at hfollows
      obtain ⟨_, _, _, _, call, hcall, _⟩ := hfollows
      by_cases hended : ∃ outcome, call.point = .finished outcome
      · obtain ⟨outcome, hpoint⟩ := hended
        exact ⟨.ends id, rfl, by
          simp [goingDown, starts, machine, HttpServer.machine, HttpServer.step, guard, hidle,
            hvisit, hplace, hcall, hpoint]⟩
      · exact exists_step_of_call hreach hcall fun outcome hpoint => hended ⟨outcome, hpoint⟩

/-- Every visit has ended, so has every call, and `stop` has returned. -/
structure Ended (s : Application config) : Prop where
  visits : ∀ visit ∈ s.visits, ∃ reply, visit.stage = .finished reply
  gateway : s.inner.gateway.Drained
  stopped : s.inner.Stopped

theorem ended_of_quiescent {s : Application config} (hreach : (goingDown config loads).Reachable s)
    (hquiet : (goingDown config loads).Quiescent ofServer s) : Ended s := by
  have hdown := down_of_reachable hreach
  have hpolled := polled_of_reachable hdown.reachable
  have hgateway := Polled.gateway_of_reachable hpolled
  have hstuck : ∀ event, ofServer event = true →
      ¬ ((goingDown config loads).step s event).isSome := by
    intro event hwork
    simp [hquiet event hwork]
  have hdrained : s.inner.gateway.Drained := by
    refine Gateway.drained_of_quiescent hgateway fun event hwork => ?_
    by_contra hsome
    obtain ⟨next, hstep⟩ := Option.ne_none_iff_exists'.mp hsome
    exact hstuck (.inner (.gateway event))
      (by simpa [ofServer, Polled.Event.ofCall] using .inl hwork)
      (step_gateway hwork hstep)
  have hturn : s.inner.gateway.running = none := by
    by_contra hrunning
    obtain ⟨id, hsome⟩ := Option.ne_none_iff_exists'.mp hrunning
    obtain ⟨call, hcall, hsuspended⟩ := (Gateway.orderly_of_reachable hgateway).runs id hsome
    obtain ⟨outcome, hpoint⟩ := hdrained.finished call (List.mem_of_getElem? hcall)
    simp [hpoint, CallPoint.suspended] at hsuspended
  have hstopped : s.inner.Stopped := by
    have hgoing : (Polled.goingDown config.toPollConfig).Reachable s.inner :=
      .initial ⟨hpolled, hdown.stopping⟩
    refine Polled.stopped_of_quiescent hgoing hturn fun event hwork => ?_
    by_contra hsome
    obtain ⟨next, hevent⟩ := Option.ne_none_iff_exists'.mp hsome
    obtain ⟨hstart, hstep⟩ := Polled.goingDown_step hevent
    cases event with
    | pollers event =>
        refine hstuck (.inner (.pollers event)) (by simpa [ofServer] using .inr hwork)
          (step_inner (callFree_pollers s.inner event) hstep ?_)
        cases event <;> simp_all [Polled.Event.starts]
    | _ => cases hwork
  refine ⟨?_, hdrained, hstopped⟩
  intro visit hmem
  by_contra hstage
  obtain ⟨id, hvisit⟩ := List.mem_iff_getElem?.mp hmem
  obtain ⟨event, hwork, hsome⟩ := exists_step_of_visit hdown.reachable hturn hvisit
    fun reply h => hstage ⟨reply, h⟩
  exact hstuck event hwork hsome

/-! ## What arrives meanwhile -/

/-- Refused because the application goes down, and never forwarded. -/
structure TurnedAway (visit : Visit) : Prop where
  stage : visit.stage = .finished (some (.predict
    (App.errorResponse [] (.default .serviceDrainingError))))
  call : visit.call = none

theorem turnedAway_arrive {route : Route} {contentLength : Option ℕ}
    (hguarded : route.guarded = true) :
    TurnedAway (HttpServer.arrive config.toHttpConfig false route contentLength) := by
  refine ⟨?_, by simp⟩
  simp [HttpServer.arrive, hguarded]

/-- A visit is as it was before the step, has just arrived, or had not ended. -/
theorem visit_of_step {s next : Application config} {event : Event config}
    (hstep : HttpServer.Step loads (.ofPolled config) s event next) {id : ℕ} {visit : Visit}
    (hvisit : next.visits[id]? = some visit) :
    s.visits[id]? = some visit ∨
      (∃ route contentLength, visit = HttpServer.arrive config.toHttpConfig s.acceptingRequests
        route contentLength) ∨
      ∃ before, s.visits[id]? = some before ∧ before.route = visit.route ∧
        ∀ reply, before.stage ≠ .finished reply := by
  have hset : ∀ {index : ℕ} {before moved : Visit}, s.visits[index]? = some before →
      moved.route = before.route → (∀ reply, before.stage ≠ .finished reply) →
      (s.visits.set index moved)[id]? = some visit → s.visits[id]? = some visit ∨
        ∃ before, s.visits[id]? = some before ∧ before.route = visit.route ∧
          ∀ reply, before.stage ≠ .finished reply := by
    intro index before moved hbefore hroute hstage hmoved
    by_cases hsame : index = id
    · subst hsame
      rw [List.getElem?_set_self (List.getElem?_eq_some_iff.mp hbefore).1] at hmoved
      obtain rfl := Option.some.inj hmoved
      exact .inr ⟨before, hbefore, hroute.symm, hstage⟩
    · rw [List.getElem?_set_ne hsame] at hmoved
      exact .inl hmoved
  cases hstep with
  | arrives harrived =>
      rw [List.getElem?_append] at hvisit
      split at hvisit
      · exact .inl hvisit
      · rw [List.getElem?_singleton] at hvisit
        split at hvisit
        · exact .inr (.inl ⟨_, _, (Option.some.inj hvisit).symm.trans harrived⟩)
        · cases hvisit
  | tooLong hbefore hstage _ | reads hbefore hstage _ | refuses hbefore hstage _ _
      | calls _ hbefore hstage _ _ _ _ | answers hbefore hstage _ | ends hbefore hstage _ _ =>
      exact (hset hbefore (by rfl) (by simp [hstage]) hvisit).imp_right .inr
  | aborts hbefore hstage =>
      refine (hset hbefore (by rfl) ?_ hvisit).imp_right .inr
      rcases hstage with ⟨hstage, _⟩ | ⟨hstage, _⟩ <;> simp [hstage]
  | inner _ _ => exact .inl hvisit

/-- The guarded visits after the first `count` have been turned away. -/
def TurnsAway (count : ℕ) (s : Application config) : Prop :=
  ∀ (id : ℕ) (visit : Visit), count ≤ id → s.visits[id]? = some visit →
    visit.route.guarded = true → TurnedAway visit

theorem turnsAway_of_run {first last : Application config} {events : List (Event config)}
    (hreach : (goingDown config loads).Reachable first)
    (hrun : (goingDown config loads).Run first events last) :
    TurnsAway first.visits.length last := by
  have hfirst : TurnsAway first.visits.length first := by
    intro id visit hid hvisit
    exact absurd (List.getElem?_eq_some_iff.mp hvisit).1 (not_lt.mpr hid)
  have hkept : ∀ (s : Application config) (event : Event config) (next : Application config),
      event ∈ events → ((goingDown config loads).Reachable s ∧ TurnsAway first.visits.length s) →
      (goingDown config loads).step s event = some next →
      (goingDown config loads).Reachable next ∧ TurnsAway first.visits.length next := by
    rintro s event next _ ⟨hs, haway⟩ hevent
    refine ⟨hs.next hevent, fun id visit hid hvisit hguarded => ?_⟩
    have hstep : HttpServer.Step loads (.ofPolled config) s event next :=
      HttpServer.step_cases (goingDown_step hevent).2
    rcases visit_of_step hstep hvisit with
      hold | ⟨route, contentLength, harrived⟩ | ⟨before, hbefore, hroute, hstage⟩
    · exact haway id visit hid hold hguarded
    · rw [(down_of_reachable hs).refusing] at harrived
      subst harrived
      exact turnedAway_arrive (by simpa using hguarded)
    · have hended := haway id before hid hbefore (hroute ▸ hguarded)
      exact absurd hended.stage (hstage _)
  exact (hrun.preserves ⟨hreach, hfirst⟩ hkept).2

/-! ## Going down -/

theorem level_of_stop {before first : Application config}
    (hreach : (machine config loads).Reachable before)
    (hstop : (machine config loads).step before (.inner (.pollers .stop)) = some first) :
    (goingDown config loads).Reachable first ∧ first.visits = before.visits ∧
      level first ≤ 20 * before.visits.length + 17 * before.inner.gateway.calls.length +
        4 * before.inner.ids.length := by
  have hpolled := polled_of_reachable hreach
  have hstep : HttpServer.Step loads (.ofPolled config) before (.inner (.pollers .stop)) first :=
    HttpServer.step_cases hstop
  cases hstep with
  | answers _ _ hreply => rcases hreply with ⟨hevent, _⟩ | ⟨_, _, hevent, _⟩ <;> cases hevent
  | @inner _ inner _ hinner =>
      have hinner' : Polled.step config.toPollConfig before.inner (.pollers .stop) = some inner :=
        hinner
      obtain ⟨hdown, hahead⟩ := Polled.ahead_of_stop hpolled hinner'
      have hgateway : Polled.gateway inner = before.inner.gateway := by
        cases Polled.step_cases hinner' with
        | pollers hpollers =>
            cases hpollers with
            | stop _ _ => rfl
            | probe _ hpoint _ _ =>
                rcases hpoint with ⟨_, _, hevent, _⟩ | ⟨_, hevent⟩ <;> cases hevent
      have hrank := Gateway.rank_le before.inner.gateway
      have hvisits : (before.visits.map Visit.rank).sum ≤ 20 * before.visits.length := by
        have hsum : (before.visits.map Visit.rank).sum ≤
            (before.visits.map Visit.rank).length • 20 := by
          apply List.sum_le_card_nsmul
          simpa using fun visit _ => visit.rank_le
        rwa [List.length_map, Nat.nsmul_eq_mul, Nat.mul_comm] at hsum
      refine ⟨.initial ⟨hreach.next hstop, (Polled.reachable_of_goingDown hdown).2, rfl⟩, rfl, ?_⟩
      simp only [level, Polled.level, hgateway]
      omega

/-- **The gateway shuts down.**  Once the application goes down, the visits, the calls, the
pollers and `stop` together take no more than twenty steps for each visit there is, seventeen
for each call, four for each worker and one for each request that arrives for another path.
Every request to `/v1/predict` that arrives is refused and never forwarded.  Where no step is
left, every visit and every call has ended, nothing is reserved and `stop` has returned; and
the server can always come to that, with the bodies and the answers that are still out. -/
theorem shutdown_ends {before first last : Application config} {events : List (Event config)}
    (hreach : (machine config loads).Reachable before)
    (hstop : (machine config loads).step before (.inner (.pollers .stop)) = some first)
    (hrun : (goingDown config loads).Run first events last) :
    level last + events.countP ofServer ≤
        20 * before.visits.length + 17 * before.inner.gateway.calls.length +
          4 * before.inner.ids.length + events.countP unguarded ∧
      TurnsAway before.visits.length last ∧
      ((goingDown config loads).Quiescent ofServer last → Ended last) ∧
      ∃ more final, (goingDown config loads).Run last more final ∧
        (∀ event ∈ more, ofServer event = true) ∧ Ended final := by
  obtain ⟨hfirst, hvisits, hlevel⟩ := level_of_stop hreach hstop
  have hlast := hfirst.run hrun
  have hpaid := (stepsDown config loads).run hfirst hrun
  rw [(stepsDown config loads).supplied_eq fun _ => rfl, Nat.one_mul] at hpaid
  obtain ⟨more, final, hmore, hwork, hquiet⟩ :=
    (stepsDown config loads).exists_quiescent supply_of_ofServer hlast
  refine ⟨hpaid.trans (Nat.add_le_add_right hlevel _), hvisits ▸ turnsAway_of_run hfirst hrun,
    ended_of_quiescent hlast, more, final, hmore, hwork,
    ended_of_quiescent (hlast.run hmore) hquiet⟩

/-- The state a list of events leads to from time 0, with bodies that are all the same request
of two inputs. -/
def sample (events : List (Event {})) : Application {} :=
  (machine {} fun _ => some (repeated 2)).after { inner := Polled.initial {} 0 } events

theorem reachable_sample (events : List (Event {})) :
    (machine {} fun _ => some (repeated 2)).Reachable (sample events) := by
  have hinitial :
      (machine {} fun _ => some (repeated 2)).Initial { inner := Polled.initial {} 0 } :=
    ⟨_, ⟨0, rfl⟩, rfl⟩
  exact (Machine.Reachable.initial hinitial).after events

/-- The first worker has answered twice, and a request has been sent to it. -/
def untilSent : List (Event {}) :=
  [.inner (.pollers .start), .inner (.pollers (.poll 0)),
    .inner (.pollers (.outcome 0 (.reply (sampleReply .ready)))), .inner (.pollers (.poll 0)),
    .inner (.pollers (.outcome 0 (.reply (sampleReply .ready)))), .request .predict none,
    .body 0 [], .handle 0 "r0", .inner (.gateway (.start 0)), .inner (.gateway .run),
    .inner (.gateway .run), .inner (.gateway .run), .inner (.gateway .run)]

/-- Another request arrives, and the first one is answered. -/
def untilAnswered : List (Event {}) :=
  [.request .predict none, .inner (.gateway (.rpcResult 0 (.success Gateway.sampleResponse))),
    .inner (.gateway .run), .inner (.gateway .run), .ends 0]

theorem shutdown_ends_answered :
    let before := sample untilSent
    let last := sample (untilSent ++ [.inner (.pollers .stop)] ++ untilAnswered)
    (last.visits.length = 2 ∧ level last = 12) ∧
      level last + untilAnswered.countP ofServer ≤
        20 * before.visits.length + 17 * before.inner.gateway.calls.length +
          4 * before.inner.ids.length + untilAnswered.countP unguarded ∧
      TurnsAway before.visits.length last ∧
      ((goingDown {} fun _ => some (repeated 2)).Quiescent ofServer last → Ended last) ∧
      ∃ (more : List (Event {})) (final : Application {}),
        (goingDown {} fun _ => some (repeated 2)).Run last more final ∧
          (∀ event ∈ more, ofServer event = true) ∧ Ended final := by
  have hstop : (machine {} fun _ => some (repeated 2)).Run (sample untilSent)
      [.inner (.pollers .stop)] (sample (untilSent ++ [.inner (.pollers .stop)])) :=
    Machine.run_after_append (by decide +kernel)
  have hrun : (goingDown {} fun _ => some (repeated 2)).Run
      (sample (untilSent ++ [.inner (.pollers .stop)])) untilAnswered
      (sample (untilSent ++ [.inner (.pollers .stop)] ++ untilAnswered)) :=
    goingDown_run (Machine.run_after_append (by decide +kernel)) (by decide)
  exact ⟨by decide +kernel, shutdown_ends (reachable_sample untilSent)
    (Machine.run_singleton_iff.mp hstop) hrun⟩

end Application
end ModelServer
