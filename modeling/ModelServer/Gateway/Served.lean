import Mathlib.Data.List.ReduceOption
import Mathlib.Tactic.Ring
import ModelServer.Gateway.HttpServer
import ModelServer.Gateway.Retry
import ModelServer.Library.Sums

/-!
# What the HTTP server does for each request

The visits of an HTTP server get into each other's way nowhere: each one that ends by
itself is answered, and counted, as `App.handle` answers and counts its request alone,
where `client.predict` is the call of the gateway that the visit has made.

`Follows` is the invariant of one visit to `/v1/predict`: at each stage it has passed the
checks that come before, and its call has its arguments.  A call stays where it is and
keeps its outcome (`Stays`), whatever the others do.  `Owned` ties the calls of the gateway
to the visits, one to one.

The metrics are sums over the visits (`Summed`), and `Tallied` says what a visit has
contributed at each stage.
-/

namespace ModelServer

open Python Transition

namespace Gateway

variable {config : GatewayConfig}

/-- What stays of a call. -/
structure Stays (call moved : Call) : Prop where
  request : moved.request = call.request
  timeoutMs : moved.timeoutMs = call.timeoutMs
  finished : ∀ outcome, call.point = .finished outcome → moved.point = .finished outcome

theorem Stays.refl (call : Call) : Stays call call := ⟨rfl, rfl, fun _ => id⟩

theorem Stays.trans {first second third : Call} (h : Stays first second)
    (h' : Stays second third) : Stays first third where
  request := h'.request.trans h.request
  timeoutMs := h'.timeoutMs.trans h.timeoutMs
  finished outcome hpoint := h'.finished outcome (h.finished outcome hpoint)

theorem stays_of_callStep {s next : Shared} {id : ℕ} {call moved : Call} {event : Event}
    (hmove : CallStep config s id call event next moved) : Stays call moved := by
  have hpoint : ∀ outcome, call.point ≠ .finished outcome := by
    intro outcome hfinished
    cases hmove <;> simp_all
  refine ⟨?_, ?_, fun outcome hfinished => absurd hfinished (hpoint outcome)⟩
  · cases hmove <;> rfl
  · cases hmove <;> rfl

theorem stays_of_step {g next : Gateway} {event : Event} (hstep : Step config g event next)
    {id : ℕ} {call : Call} (hcall : g.calls[id]? = some call) :
    ∃ moved, next.calls[id]? = some moved ∧ Stays call moved := by
  cases hstep with
  | tick _ | probe _ _ => exact ⟨call, hcall, .refl call⟩
  | call _ =>
      have hid := (List.getElem?_eq_some_iff.mp hcall).1
      exact ⟨call, (List.getElem?_append_left hid).trans hcall, .refl call⟩
  | @move event index other moved s hother hmove =>
      by_cases heq : index = id
      · subst heq
        obtain rfl := Option.some.inj (hother.symm.trans hcall)
        exact ⟨moved, getElem?_store_self hcall, stays_of_callStep hmove⟩
      · exact ⟨call, (List.getElem?_set_ne heq).trans hcall, .refl call⟩

/-- Without new calls there are as many as before. -/
theorem length_of_step {g next : Gateway} {event : Event} (hstep : Step config g event next)
    (hfree : event.isCall = false) : next.calls.length = g.calls.length := by
  cases hstep with
  | tick _ | probe _ _ => rfl
  | call _ => cases hfree
  | move _ _ => exact List.length_set

/-- The calls of `first` are still there, and no others. -/
structure SameCalls (first g : Gateway) : Prop where
  length : g.calls.length = first.calls.length
  stays : ∀ (id : ℕ) (call : Call), first.calls[id]? = some call →
    ∃ moved, g.calls[id]? = some moved ∧ Stays call moved

theorem sameCalls_of_run {first last : Gateway} {events : List Event}
    (hreach : (machine config).Reachable first) (hrun : (machine config).Run first events last)
    (hfree : ∀ event ∈ events, event.isCall = false) : SameCalls first last := by
  have hkept : ∀ (g : Gateway) (event : Event) (next : Gateway), event ∈ events →
      ((machine config).Reachable g ∧ SameCalls first g) →
      (machine config).step g event = some next →
      (machine config).Reachable next ∧ SameCalls first next := by
    rintro g event next hmem ⟨hg, hlength, hstays⟩ hstep
    have hstep' := step_of_reachable hg hstep
    refine ⟨hg.next hstep, (length_of_step hstep' (hfree event hmem)).trans hlength, ?_⟩
    intro id call hcall
    obtain ⟨moved, hmoved, hstay⟩ := hstays id call hcall
    obtain ⟨later, hlater, hstay'⟩ := stays_of_step hstep' hmoved
    exact ⟨later, hlater, hstay.trans hstay'⟩
  exact (hrun.preserves ⟨hreach, rfl, fun _ call hcall => ⟨call, hcall, .refl call⟩⟩ hkept).2

end Gateway

/-- A call of `client.predict` with these arguments. -/
def MadeWith (args : PredictArgs) (call : Call) : Prop :=
  args.toPredictRequest = some call.request ∧ call.timeoutMs = args.timeoutMs

theorem MadeWith.stays {args : PredictArgs} {call moved : Call} (h : MadeWith args call)
    (hstay : Gateway.Stays call moved) : MadeWith args moved :=
  ⟨hstay.request ▸ h.1, hstay.timeoutMs.trans h.2⟩

namespace Visit

variable (config : HttpConfig) (loads : List UInt8 → Option Json) (g : Gateway) (visit : Visit)

/-- What `handle` gets of it. -/
def httpRequest : App.HttpRequest := ⟨visit.contentLength, visit.body⟩

/-- The announced length is within the limit. -/
def Announced : Prop :=
  (visit.contentLength.any fun length => decide (config.httpMaxBodyBytes < length)) = false

/-- The middleware lets the visit pass. -/
structure Passes : Prop where
  accepted : visit.accepted = true
  announced : visit.Announced config
  short : visit.body.length ≤ config.httpMaxBodyBytes

def Valid (args : PredictArgs) : Prop :=
  App.validate config (Str.ofString visit.generated) (loads visit.body) = .ok args

/-- The visit has been answered, and counted, as its request is alone if `client.predict`
ends as its call has ended.  It has made a call if and only if it was to. -/
def Alone (reply : Option Reply) : Prop :=
  ∃ outcome : CallOutcome,
    let exchange := App.handle config visit.accepted loads (Str.ofString visit.generated)
      (fun _ => outcome) visit.httpRequest
    reply = exchange.response.map .predict ∧ visit.updates = exchange.metrics ∧
      (∀ args, visit.Passes config → visit.Valid config loads args →
        ∃ number call, visit.call = some number ∧ g.calls[number]? = some call ∧
          MadeWith args call ∧ call.point = .finished outcome) ∧
      (∀ number, visit.call = some number →
        visit.Passes config ∧ ∃ args, visit.Valid config loads args)

/-- What has gone before, at each stage of a visit to `/v1/predict`. -/
def Follows : Prop :=
  match visit.stage with
  | .reading =>
      visit.accepted = true ∧ visit.Announced config ∧ visit.updates = [] ∧ visit.call = none
  | .routed => visit.Passes config ∧ visit.updates = [.activeInc] ∧ visit.call = none
  | .predicting args number =>
      visit.Passes config ∧ visit.updates = [.activeInc] ∧ visit.Valid config loads args ∧
        visit.call = some number ∧ ∃ call, g.calls[number]? = some call ∧ MadeWith args call
  | .finished reply => visit.aborted = false → visit.Alone config loads g reply

variable {config loads g visit}

/-! ## One visit -/

theorem Alone.stays {next : Gateway} {reply : Option Reply}
    (h : visit.Alone config loads g reply)
    (hstays : ∀ (id : ℕ) (call : Call), g.calls[id]? = some call →
      ∃ moved, next.calls[id]? = some moved ∧ Gateway.Stays call moved) :
    visit.Alone config loads next reply := by
  obtain ⟨outcome, hreply, hupdates, hmade, honly⟩ := h
  refine ⟨outcome, hreply, hupdates, ?_, honly⟩
  intro args hpasses hargs
  obtain ⟨number, call, hnumber, hcall, hmade, hpoint⟩ := hmade args hpasses hargs
  obtain ⟨moved, hmoved, hstay⟩ := hstays number call hcall
  exact ⟨number, moved, hnumber, hmoved, hmade.stays hstay, hstay.finished outcome hpoint⟩

/-- A visit follows whatever the other calls of the gateway do. -/
theorem Follows.stays {next : Gateway} (h : visit.Follows config loads g)
    (hstays : ∀ (id : ℕ) (call : Call), g.calls[id]? = some call →
      ∃ moved, next.calls[id]? = some moved ∧ Gateway.Stays call moved) :
    visit.Follows config loads next := by
  unfold Follows at h ⊢
  split
  · simpa [‹visit.stage = _›] using h
  · simpa [‹visit.stage = _›] using h
  · rename_i args number hstage
    simp only [hstage] at h
    obtain ⟨hpasses, hupdates, hargs, hnumber, call, hcall, hmade⟩ := h
    obtain ⟨moved, hmoved, hstay⟩ := hstays number call hcall
    exact ⟨hpasses, hupdates, hargs, hnumber, moved, hmoved, hmade.stays hstay⟩
  · rename_i reply hstage
    simp only [hstage] at h
    exact fun haborted => (h haborted).stays hstays

/-- A visit that the middleware refuses by itself. -/
theorem Alone.of_not_passes {response : App.HttpResponse} (hpasses : ¬ visit.Passes config)
    (hcall : visit.call = none) (hupdates : visit.updates = [])
    (hhandle : ∀ client, App.handle config visit.accepted loads (Str.ofString visit.generated)
      client visit.httpRequest = ⟨some response, []⟩) :
    visit.Alone config loads g (some (.predict response)) := by
  refine ⟨.foreign, ?_, ?_, fun args h => absurd h hpasses, ?_⟩
  · rw [hhandle]
    rfl
  · rw [hhandle, hupdates]
  · intro number hnumber
    rw [hcall] at hnumber
    cases hnumber

theorem handle_of_draining (haccepted : visit.accepted = false)
    (client : PredictArgs → CallOutcome) :
    App.handle config visit.accepted loads (Str.ofString visit.generated) client visit.httpRequest =
      ⟨some (App.errorResponse [] (.default .serviceDrainingError)), []⟩ := by
  simp [App.handle, App.bodyLimitAndMetricsMiddleware, haccepted]

theorem handle_of_announced (haccepted : visit.accepted = true)
    (hannounced : ¬ visit.Announced config) (client : PredictArgs → CallOutcome) :
    App.handle config visit.accepted loads (Str.ofString visit.generated) client visit.httpRequest =
      ⟨some (App.errorResponse [] (.default .requestTooLargeError)), []⟩ := by
  rw [Announced, Bool.not_eq_false] at hannounced
  unfold App.handle App.bodyLimitAndMetricsMiddleware httpRequest
  rw [haccepted, if_neg (by simp), if_pos hannounced]

theorem handle_of_long (haccepted : visit.accepted = true) (hannounced : visit.Announced config)
    (hlong : config.httpMaxBodyBytes < visit.body.length) (client : PredictArgs → CallOutcome) :
    App.handle config visit.accepted loads (Str.ofString visit.generated) client visit.httpRequest =
      ⟨some (App.errorResponse [] (.default .requestTooLargeError)), []⟩ := by
  rw [Announced] at hannounced
  unfold App.handle App.bodyLimitAndMetricsMiddleware httpRequest
  rw [haccepted, if_neg (by simp), if_neg (Bool.eq_false_iff.mp hannounced), if_pos hlong]

theorem handle_of_passes (h : visit.Passes config) (client : PredictArgs → CallOutcome) :
    App.handle config visit.accepted loads (Str.ofString visit.generated) client visit.httpRequest =
      let result := App.predict config (Str.ofString visit.generated) client (loads visit.body)
      ⟨(App.catchExceptions result).1, .activeInc :: HttpServer.counted
        (App.catchExceptions result).2.1 (App.catchExceptions result).2.2⟩ := by
  obtain ⟨haccepted, hannounced, hshort⟩ := h
  rw [Announced] at hannounced
  unfold App.handle App.bodyLimitAndMetricsMiddleware httpRequest
  rw [haccepted, if_neg (by simp), if_neg (Bool.eq_false_iff.mp hannounced),
    if_neg (not_lt.mpr hshort)]
  rfl

end Visit

namespace HttpServer

variable {config : HttpConfig} {loads : List UInt8 → Option Json}
  {host : Host config.toGatewayConfig}

theorem follows_arrive {g : Gateway} {accepting : Bool} {route : Route} {contentLength : Option ℕ}
    (hroute : route = .predict) :
    (arrive config accepting route contentLength).Follows config loads g := by
  subst hroute
  unfold arrive
  rw [if_pos (show Route.predict.guarded = true from rfl)]
  split
  · rename_i hdraining
    rw [Bool.not_eq_true] at hdraining
    intro _
    exact .of_not_passes (fun h => by simpa [hdraining] using h.accepted) rfl rfl
      (Visit.handle_of_draining hdraining)
  · rename_i haccepting
    rw [not_not] at haccepting
    split
    · rename_i hannounced
      intro _
      refine .of_not_passes (fun h => ?_) rfl rfl
        (Visit.handle_of_announced haccepting (Bool.not_eq_false _ ▸ hannounced))
      exact absurd hannounced (Bool.eq_false_iff.mp h.announced)
    · exact ⟨haccepting, Bool.eq_false_iff.mpr ‹_›, rfl, rfl⟩

/-- The handler raises before it calls `client.predict`. -/
theorem alone_refused {g : Gateway} {visit : Visit} {raised : Raised}
    (hpasses : visit.Passes config) (hcall : visit.call = none)
    (hraised :
      App.validate config (Str.ofString visit.generated) (loads visit.body) = .error raised)
    (hupdates : visit.updates = .activeInc :: counted
      (App.catchExceptions (.error raised)).2.1 (App.catchExceptions (.error raised)).2.2) :
    visit.Alone config loads g
      ((App.catchExceptions (.error raised)).1.map .predict) := by
  have hpredict : ∀ client, App.predict config (Str.ofString visit.generated) client
      (loads visit.body) = .error raised := by
    intro client
    rw [App.predict_eq, hraised]
    rfl
  refine ⟨.foreign, ?_, ?_, ?_, ?_⟩
  · rw [Visit.handle_of_passes hpasses, hpredict]
  · rw [Visit.handle_of_passes hpasses, hpredict, hupdates]
  · intro args _ hargs
    rw [Visit.Valid, hraised] at hargs
    cases hargs
  · intro number hnumber
    rw [hcall] at hnumber
    cases hnumber

/-- The call of the visit is done. -/
theorem alone_finished {g : Gateway} {visit : Visit} {args : PredictArgs} {number : ℕ}
    {call : Call} {outcome : CallOutcome} (hpasses : visit.Passes config)
    (hargs : visit.Valid config loads args) (hnumber : visit.call = some number)
    (hcall : g.calls[number]? = some call) (hmade : MadeWith args call)
    (hpoint : call.point = .finished outcome)
    (hupdates : visit.updates = .activeInc :: counted
      (App.catchExceptions (App.respond args outcome)).2.1
      (App.catchExceptions (App.respond args outcome)).2.2) :
    visit.Alone config loads g
      ((App.catchExceptions (App.respond args outcome)).1.map .predict) := by
  have hpredict : App.predict config (Str.ofString visit.generated) (fun _ => outcome)
      (loads visit.body) = App.respond args outcome := by
    rw [App.predict_eq, show App.validate config _ _ = _ from hargs]
    rfl
  refine ⟨outcome, ?_, ?_, ?_, fun _ _ => ⟨hpasses, args, hargs⟩⟩
  · rw [Visit.handle_of_passes hpasses, hpredict]
  · rw [Visit.handle_of_passes hpasses, hpredict, hupdates]
  · intro other _ hother
    obtain rfl : args = other := Except.ok.inj (hargs.symm.trans hother)
    exact ⟨number, call, hnumber, hcall, hmade, hpoint⟩

/-- Every visit to `/v1/predict` follows. -/
def AllFollow (loads : List UInt8 → Option Json) (host : Host config.toGatewayConfig)
    (s : HttpServer host.State) : Prop :=
  ∀ visit ∈ s.visits, visit.route = .predict →
    visit.Follows config loads (host.gateway s.inner)

theorem AllFollow.store {s : HttpServer host.State} (h : AllFollow loads host s) {id : ℕ}
    {visit : Visit} {updates : List App.MetricUpdate}
    (hvisit : visit.route = .predict →
      ({ visit with updates := visit.updates ++ updates } : Visit).Follows config loads
        (host.gateway s.inner)) :
    AllFollow loads host (s.store id visit updates) := by
  intro other hmem
  rcases List.mem_or_eq_of_mem_set hmem with hold | rfl
  · exact h other hold
  · exact hvisit

theorem AllFollow.inner {s : HttpServer host.State} (h : AllFollow loads host s)
    {inner : host.State} (hstays : ∀ (id : ℕ) (call : Call),
      (host.gateway s.inner).calls[id]? = some call →
        ∃ moved, (host.gateway inner).calls[id]? = some moved ∧ Gateway.Stays call moved) :
    AllFollow loads host { s with inner } :=
  fun visit hmem hroute => (h visit hmem hroute).stays hstays

theorem sameCalls_of_inner {state next : host.State} {event : host.Event}
    (hreach : host.machine.Reachable state) (hfree : host.callFree state event)
    (hstep : host.machine.step state event = some next) :
    Gateway.SameCalls (host.gateway state) (host.gateway next) := by
  refine Gateway.sameCalls_of_run (host.simulation.reachable hreach)
    (host.simulation.step _ _ _ hreach hstep) fun event hmem => ?_
  have hnone := List.all_eq_true.mp hfree event hmem
  simpa using hnone

/-- The calls there are when one more is made. -/
theorem stays_of_call {state next : host.State} {request : PredictRequest} {timeoutMs : ℤ}
    (hreach : host.machine.Reachable state)
    (hstep : host.machine.step state (host.call request timeoutMs) = some next) (id : ℕ)
    (call : Call) (hcall : (host.gateway state).calls[id]? = some call) :
    ∃ moved, (host.gateway next).calls[id]? = some moved ∧ Gateway.Stays call moved := by
  have hid := (List.getElem?_eq_some_iff.mp hcall).1
  rw [Host.gateway_of_call hreach hstep]
  exact ⟨call, (List.getElem?_append_left hid).trans hcall, .refl call⟩

theorem allFollow_of_step {s next : HttpServer host.State} {event : Event host.Event}
    (hreach : (machine loads host).Reachable s) (hstep : Step loads host s event next)
    (h : AllFollow loads host s) : AllFollow loads host next := by
  have hfollows : ∀ {id : ℕ} {visit : Visit}, s.visits[id]? = some visit →
      visit.route = .predict → visit.Follows config loads (host.gateway s.inner) :=
    fun hvisit => h _ (List.mem_of_getElem? hvisit)
  cases hstep with
  | arrives hvisit =>
      intro visit hmem hroute
      rcases List.mem_append.mp hmem with hold | hnew
      · exact h visit hold hroute
      · rw [List.mem_singleton.mp hnew, hvisit] at hroute ⊢
        exact follows_arrive (by simpa using hroute)
  | tooLong hvisit hstage hlong =>
      refine h.store fun hroute _ => ?_
      have hbefore := hfollows hvisit hroute
      simp only [Visit.Follows, hstage] at hbefore
      obtain ⟨haccepted, hannounced, hupdates, hcall⟩ := hbefore
      refine .of_not_passes (fun hpasses => ?_) hcall (by simpa using hupdates)
        (Visit.handle_of_long haccepted hannounced hlong)
      exact absurd hlong (not_lt.mpr hpasses.short)
  | reads hvisit hstage hshort =>
      refine h.store fun hroute => ?_
      have hbefore := hfollows hvisit hroute
      simp only [Visit.Follows, hstage] at hbefore
      obtain ⟨haccepted, hannounced, hupdates, hcall⟩ := hbefore
      exact ⟨⟨haccepted, hannounced, hshort⟩, by simp [hupdates], hcall⟩
  | refuses hvisit hstage hroute hraised =>
      refine h.store fun _ _ => ?_
      have hbefore := hfollows hvisit hroute
      simp only [Visit.Follows, hstage] at hbefore
      obtain ⟨⟨haccepted, hannounced, hshort⟩, hupdates, hcall⟩ := hbefore
      exact alone_refused ⟨haccepted, hannounced, hshort⟩ hcall hraised
        (congrArg (· ++ _) hupdates)
  | calls _ hvisit hstage hroute hargs hrequest hinner =>
      have hhost := host_of_reachable hreach
      refine (h.inner (stays_of_call hhost hinner)).store fun _ => ?_
      have hbefore := hfollows hvisit hroute
      simp only [Visit.Follows, hstage] at hbefore
      obtain ⟨⟨haccepted, hannounced, hshort⟩, hupdates, _⟩ := hbefore
      refine ⟨⟨haccepted, hannounced, hshort⟩, by simp [hupdates], hargs, rfl, ?_⟩
      refine ⟨Gateway.newCall _ _ _ _, ?_, hrequest, rfl⟩
      rw [Host.gateway_of_call hhost hinner]
      simp
  | answers hvisit _ hreply =>
      refine h.store fun hroute => ?_
      rcases hreply with ⟨_, hpage⟩ | ⟨guarded, _, _, hother, _⟩
      · rw [hroute] at hpage
        cases hpage
      · rw [hroute] at hother
        cases hother
  | ends hvisit hstage hcall hpoint =>
      refine h.store fun hroute _ => ?_
      have hbefore := hfollows hvisit hroute
      simp only [Visit.Follows, hstage] at hbefore
      obtain ⟨⟨haccepted, hannounced, hshort⟩, hupdates, hargs, hnumber, call, hmade, hwith⟩ :=
        hbefore
      obtain rfl := Option.some.inj (hcall.symm.trans hmade)
      exact alone_finished ⟨haccepted, hannounced, hshort⟩ hargs hnumber hcall hwith hpoint
        (congrArg (· ++ _) hupdates)
  | aborts _ _ => exact h.store fun _ haborted => Bool.noConfusion haborted
  | inner hfree hinner =>
      exact h.inner (sameCalls_of_inner (host_of_reachable hreach) hfree hinner).stays

theorem allFollow_of_reachable {s : HttpServer host.State}
    (hreach : (machine loads host).Reachable s) : AllFollow loads host s := by
  apply hreach.invariant
  · rintro s ⟨inner, _, rfl⟩
    simp [AllFollow]
  · intro s event next hbefore h hstep
    exact allFollow_of_step hbefore (step_cases hstep) h

/-! ## Whose a call is -/

/-- One call has been made for the visit `id`, or the calls are the same as before. -/
theorem calls_of_step {s next : HttpServer host.State} {event : Event host.Event}
    (hreach : (machine loads host).Reachable s) (hstep : Step loads host s event next) :
    (next.visits.map Visit.call = s.visits.map Visit.call ∨
        next.visits.map Visit.call = s.visits.map Visit.call ++ [none]) ∧
      (host.gateway next.inner).calls.length = (host.gateway s.inner).calls.length ∨
    ∃ id, (s.visits.map Visit.call)[id]? = some none ∧
      next.visits.map Visit.call =
        (s.visits.map Visit.call).set id (some (host.gateway s.inner).calls.length) ∧
      (host.gateway next.inner).calls.length = (host.gateway s.inner).calls.length + 1 := by
  cases hstep with
  | arrives hvisit =>
      refine .inl ⟨.inr ?_, rfl⟩
      rw [List.map_append, List.map_singleton, hvisit, call_arrive]
  | tooLong hvisit _ _ | reads hvisit _ _ | refuses hvisit _ _ _ | answers hvisit _ _
      | ends hvisit _ _ _ | aborts hvisit _ =>
      exact .inl ⟨.inl (map_set_of_eq Visit.call hvisit rfl), rfl⟩
  | @calls id _ _ _ _ _ _ hvisit hstage hroute _ _ hinner =>
      have hfollows := allFollow_of_reachable hreach _ (List.mem_of_getElem? hvisit) hroute
      simp only [Visit.Follows, hstage] at hfollows
      refine .inr ⟨id, ?_, ?_, ?_⟩
      · rw [List.getElem?_map, hvisit, Option.map_some, hfollows.2.2]
      · rw [store_visits, List.map_set]
      · rw [store_inner, Host.gateway_of_call (host_of_reachable hreach) hinner]
        simp
  | inner hfree hinner =>
      exact .inl ⟨.inl rfl, (sameCalls_of_inner (host_of_reachable hreach) hfree hinner).length⟩

/-- What one entry adds to those that are there. -/
theorem reduceOption_set_perm {α : Type} {list : List (Option α)} {index : ℕ}
    (h : list[index]? = some none) (value : α) :
    (list.set index (some value)).reduceOption.Perm (value :: list.reduceOption) := by
  induction list generalizing index with
  | nil => cases h
  | cons head tail ih =>
      cases index with
      | zero =>
          obtain rfl : head = none := by simpa using h
          simp
      | succ index =>
          have htail : (tail.set index (some value)).reduceOption.Perm
              (value :: tail.reduceOption) := ih (by simpa using h)
          cases head with
          | none => simpa using htail
          | some other =>
              rw [List.set_cons_succ, List.reduceOption_cons_of_some,
                List.reduceOption_cons_of_some]
              exact (htail.cons other).trans (.swap value other _)

/-- Each call of the gateway is that of one visit. -/
theorem owned_of_reachable {s : HttpServer host.State}
    (hreach : (machine loads host).Reachable s) :
    (s.visits.map Visit.call).reduceOption.Perm
      (List.range (host.gateway s.inner).calls.length) := by
  apply hreach.invariant
  · rintro s ⟨inner, hinitial, rfl⟩
    obtain ⟨now, hgateway⟩ := host.simulation.initial inner hinitial
    have hcalls : (host.gateway inner).calls = [] := by
      rw [Host.gateway, hgateway]
      rfl
    simp [hcalls]
  · intro s event next hbefore h hstep
    rcases calls_of_step hbefore (step_cases hstep) with
      ⟨hsame | hnone, hlength⟩ | ⟨id, hid, hset, hlength⟩
    · rwa [hsame, hlength]
    · rw [hnone, hlength, List.reduceOption_append]
      simpa using h
    · rw [hset, hlength, List.range_succ]
      refine (reduceOption_set_perm hid _).trans ?_
      exact (h.cons _).trans (List.perm_append_singleton _ _).symm

/-- **Each request is served as if it were alone.**  In every reachable state, whatever is
behind the interface: the calls of the gateway are those of the visits, each of one visit, and
every visit to `/v1/predict` that has ended by itself has been answered and counted exactly as
`App.handle` does with its request, `client.predict` ending as the call of the visit has ended,
which was made with the arguments that the handler has read; a call has been made exactly for
the requests that pass the middleware and are valid. -/
theorem served_alone {s : HttpServer host.State} (hreach : (machine loads host).Reachable s) :
    (s.visits.map Visit.call).reduceOption.Perm
        (List.range (host.gateway s.inner).calls.length) ∧
      ∀ visit ∈ s.visits, ∀ reply, visit.route = .predict → visit.stage = .finished reply →
        visit.aborted = false → visit.Alone config loads (host.gateway s.inner) reply := by
  refine ⟨owned_of_reachable hreach, ?_⟩
  intro visit hmem reply hroute hstage haborted
  have hfollows := allFollow_of_reachable hreach visit hmem hroute
  simp only [Visit.Follows, hstage] at hfollows
  exact hfollows haborted

/-- With a gateway alone behind the interface, and bodies that are all the same request of two
inputs. -/
def sampleMachine :=
  @machine {} (fun _ => some (repeated 2)) (.ofGateway _)

/-- The state a list of events leads to from time 0. -/
def sample (events : List (Event Gateway.Event)) : HttpServer Gateway :=
  sampleMachine.after { inner := Gateway.initial {} 0 } events

theorem reachable_sample (events : List (Event Gateway.Event)) :
    sampleMachine.Reachable (sample events) := by
  have hinitial : sampleMachine.Initial { inner := Gateway.initial {} 0 } := ⟨_, ⟨0, rfl⟩, rfl⟩
  exact (Machine.Reachable.initial hinitial).after events

/-- A request is forwarded to a worker and answered; meanwhile another one is too long and a
third one asks whether the gateway is ready. -/
def untilAnswered : List (Event Gateway.Event) :=
  [.inner (.probe "worker-1" (.reply (sampleReply .ready))),
    .inner (.probe "worker-1" (.reply (sampleReply .ready))),
    .request .predict none, .body 0 [], .handle 0 "r0", .inner (.start 0), .inner .run,
    .inner .run, .inner .run, .inner .run, .request .predict (some 100000),
    .request .healthReady none, .inner (.rpcResult 0 (.success Gateway.sampleResponse)),
    .inner .run, .inner .run, .page 2, .ends 0]

/-- The reply to a visit that has ended by itself. -/
def replied (s : HttpServer State) (id : ℕ) : Option Reply := do
  let visit ← s.visits[id]?
  match visit.stage with
  | .finished reply => if visit.aborted = false then reply else none
  | _ => none

theorem served_alone_answered :
    ((sample untilAnswered).replied 0).map Reply.statusCode = some 200 ∧
      ∃ visit ∈ (sample untilAnswered).visits, ∃ reply,
        reply.statusCode = 200 ∧ visit.Alone {} (fun _ => some (repeated 2))
          (sample untilAnswered).inner (some reply) := by
  have hstatus : ((sample untilAnswered).replied 0).map Reply.statusCode = some 200 := by
    decide +kernel
  refine ⟨hstatus, ?_⟩
  have hroute : ((sample untilAnswered).visits[0]?.map Visit.route) = some .predict := by
    decide +kernel
  obtain ⟨reply, hreply, hcode⟩ := Option.map_eq_some_iff.mp hstatus
  obtain ⟨visit, hvisit, hpredict⟩ := Option.map_eq_some_iff.mp hroute
  simp only [replied, hvisit, Option.bind_eq_bind, Option.bind_some] at hreply
  split at hreply
  · split at hreply
    · have hmem := List.mem_of_getElem? hvisit
      refine ⟨visit, hmem, reply, hcode, ?_⟩
      exact (served_alone (reachable_sample _)).2 visit hmem _ hpredict (hreply ▸ ‹_›) ‹_›
    · cases hreply
  · cases hreply

/-! ## The metrics -/

/-- How often the visits have made this update. -/
def total (s : HttpServer State) (update : App.MetricUpdate) : ℕ :=
  (s.visits.map fun visit => visit.updates.count update).sum

theorem activeRequests_updateAll (metrics : HttpMetrics) (updates : List App.MetricUpdate) :
    (metrics.updateAll updates).activeRequests =
      metrics.activeRequests + updates.count .activeInc - updates.count .activeDec := by
  induction updates generalizing metrics with
  | nil => simp [HttpMetrics.updateAll]
  | cons update updates ih =>
      rw [HttpMetrics.updateAll, List.foldl_cons, ← HttpMetrics.updateAll, ih]
      cases update <;> simp [HttpMetrics.update] <;> omega

theorem requestsTotal_updateAll (metrics : HttpMetrics) (updates : List App.MetricUpdate)
    (statusCode : ℕ) (errorCode : String) :
    (metrics.updateAll updates).requestsTotal statusCode errorCode =
      metrics.requestsTotal statusCode errorCode +
        updates.count (.requestsInc statusCode errorCode) := by
  induction updates generalizing metrics with
  | nil => simp [HttpMetrics.updateAll]
  | cons update updates ih =>
      rw [HttpMetrics.updateAll, List.foldl_cons, ← HttpMetrics.updateAll, ih]
      cases update with
      | activeInc | activeDec => simp [HttpMetrics.update]
      | requestsInc status code =>
          by_cases hsame : statusCode = status ∧ errorCode = code
          · obtain ⟨rfl, rfl⟩ := hsame
            simp [HttpMetrics.update]
            omega
          · have hother : App.MetricUpdate.requestsInc status code ≠
                .requestsInc statusCode errorCode := by
              intro heq
              cases heq
              exact hsame ⟨rfl, rfl⟩
            simp [HttpMetrics.update, hsame, hother]

/-- The metrics are sums over the visits. -/
structure Summed (s : HttpServer State) : Prop where
  active : s.metrics.activeRequests = s.total .activeInc - s.total .activeDec
  requests : ∀ statusCode errorCode, s.metrics.requestsTotal statusCode errorCode =
    s.total (.requestsInc statusCode errorCode)

theorem Summed.update {s next : HttpServer State} (h : Summed s) (updates : List App.MetricUpdate)
    (hmetrics : next.metrics = s.metrics.updateAll updates)
    (htotal : ∀ update, next.total update = s.total update + updates.count update) :
    Summed next := by
  constructor
  · rw [hmetrics, activeRequests_updateAll, h.active, htotal, htotal]
    push_cast
    ring
  · intro statusCode errorCode
    rw [hmetrics, requestsTotal_updateAll, h.requests, htotal]

theorem Summed.store {s : HttpServer State} (h : Summed s) {id : ℕ} {visit moved : Visit}
    (hvisit : s.visits[id]? = some visit) (updates : List App.MetricUpdate)
    (hupdates : moved.updates = visit.updates) : Summed (s.store id moved updates) := by
  refine h.update updates rfl fun update => ?_
  have hsum := sum_map_set (fun visit => visit.updates.count update) hvisit
    { moved with updates := moved.updates ++ updates }
  simp only [List.count_append, hupdates] at hsum
  simp only [total, store_visits, hupdates]
  omega

theorem summed_of_step {s next : HttpServer host.State} {event : Event host.Event}
    (hstep : Step loads host s event next) (h : Summed s) : Summed next := by
  cases hstep with
  | @arrives _ _ visit _ =>
      refine h.update visit.updates rfl fun update => ?_
      simp only [total, List.map_append, List.sum_append, List.map_singleton, List.sum_singleton]
  | tooLong hvisit _ _ | reads hvisit _ _ | refuses hvisit _ _ _ | answers hvisit _ _
      | ends hvisit _ _ _ | aborts hvisit _ => exact h.store hvisit _ (by rfl)
  | @calls _ _ _ _ _ inner _ hvisit _ _ _ _ _ =>
      have hinner : Summed { s with inner } := ⟨h.active, h.requests⟩
      exact hinner.store hvisit _ (by rfl)
  | inner _ _ => exact ⟨h.active, h.requests⟩

end HttpServer

namespace Visit

/-- The visit is in `call_next`. -/
def inProgress (visit : Visit) : Bool :=
  match visit.stage with
  | .routed | .predicting _ _ => true
  | .reading | .finished _ => false

/-- It has been counted under these labels. -/
def countedAs (visit : Visit) (statusCode : ℕ) (errorCode : String) : Bool :=
  .requestsInc statusCode errorCode ∈ visit.updates

/-- The middleware makes this reply by itself, or none because `request.body()` has raised. -/
def Refused (config : HttpConfig) (visit : Visit) : Option Reply → Prop
  | none => visit.aborted = true
  | some reply => ¬ visit.Passes config ∧ ∃ cls ∈ [ErrorClass.serviceDrainingError,
      .requestTooLargeError], reply = .predict (App.errorResponse [] (.default cls))

/-- The labels go with the reply.  Without one the middleware has raised. -/
def Labels (statusCode : ℕ) (errorCode : String) : Option Reply → Prop
  | none => statusCode = 500 ∧ errorCode = "NONE"
  | some reply => statusCode = reply.statusCode ∧
      (errorCode = "NONE" ∨ ∃ response, reply = .predict response ∧
        errorCode = response.content.errorCode)

/-- What the visit has done to the metrics, where it stands. -/
def Tallied (config : HttpConfig) (visit : Visit) : Prop :=
  match visit.stage with
  | .reading => visit.route.guarded = true ∧ visit.accepted = true ∧ visit.Announced config ∧
      visit.updates = []
  | .routed | .predicting _ _ =>
      (visit.route.guarded = true → visit.Passes config) ∧ visit.updates = [.activeInc]
  | .finished reply =>
      visit.route.guarded = true ∧ visit.Refused config reply ∧ visit.updates = [] ∨
        (visit.route.guarded = true → visit.Passes config) ∧ ∃ statusCode errorCode,
          visit.updates = .activeInc :: HttpServer.counted statusCode errorCode ∧
            Labels statusCode errorCode reply

variable {config : HttpConfig} {visit : Visit}

theorem Tallied.inProgress_eq (h : visit.Tallied config) :
    visit.updates.count .activeInc =
      visit.updates.count .activeDec + if visit.inProgress then 1 else 0 := by
  unfold Tallied at h
  unfold inProgress
  split at h
  · simp [h.2.2.2, ‹visit.stage = _›]
  · simp [h.2, ‹visit.stage = _›]
  · simp [h.2, ‹visit.stage = _›]
  · rcases h with ⟨_, _, hupdates⟩ | ⟨_, statusCode, errorCode, hupdates, _⟩ <;>
      simp [hupdates, HttpServer.counted, ‹visit.stage = _›]

/-- No visit is counted twice. -/
theorem Tallied.countedAs_eq (h : visit.Tallied config) (statusCode : ℕ) (errorCode : String) :
    visit.updates.count (.requestsInc statusCode errorCode) =
      if visit.countedAs statusCode errorCode then 1 else 0 := by
  have hnodup : visit.updates.Nodup := by
    unfold Tallied at h
    split at h
    · simp [h.2.2.2]
    · simp [h.2]
    · simp [h.2]
    · rcases h with ⟨_, _, hupdates⟩ | ⟨_, statusCode, errorCode, hupdates, _⟩ <;>
        simp [hupdates, HttpServer.counted]
  simp only [hnodup.count, countedAs, decide_eq_true_eq]

theorem labels_catchExceptions (result : Except Raised App.HttpResponse) :
    Labels (App.catchExceptions result).2.1 (App.catchExceptions result).2.2
      ((App.catchExceptions result).1.map .predict) := by
  cases result with
  | ok response => exact ⟨rfl, .inl rfl⟩
  | error raised =>
      cases raised with
      | appError error => exact ⟨rfl, .inr ⟨_, rfl, rfl⟩⟩
      | foreign => exact ⟨rfl, .inr ⟨_, rfl, rfl⟩⟩
      | cancelled => exact ⟨rfl, rfl⟩

/-- A visit in `call_next` ends. -/
theorem Tallied.ends {reply : Option Reply} {statusCode : ℕ} {errorCode : String}
    (h : visit.Tallied config) (hstage : visit.inProgress = true)
    (hlabels : Labels statusCode errorCode reply) {ended : Visit}
    (hended : ended.stage = .finished reply)
    (hupdates : ended.updates = visit.updates ++ HttpServer.counted statusCode errorCode)
    (hpasses : (visit.route.guarded = true → visit.Passes config) →
      ended.route.guarded = true → ended.Passes config) :
    ended.Tallied config := by
  have hbefore : (visit.route.guarded = true → visit.Passes config) ∧
      visit.updates = [.activeInc] := by
    unfold Tallied at h
    unfold inProgress at hstage
    split at h <;> simp_all
  unfold Tallied
  rw [hended]
  refine .inr ⟨hpasses hbefore.1, statusCode, errorCode, ?_, hlabels⟩
  rw [hupdates, hbefore.2]
  rfl

end Visit

namespace HttpServer

variable {config : HttpConfig} {loads : List UInt8 → Option Json}
  {host : Host config.toGatewayConfig}

theorem tallied_arrive (accepting : Bool) (route : Route) (contentLength : Option ℕ) :
    (arrive config accepting route contentLength).Tallied config := by
  unfold arrive
  split
  · rename_i hguarded
    split
    · rename_i hdraining
      refine .inl ⟨hguarded, ⟨fun h => hdraining h.accepted, _, ?_, rfl⟩, rfl⟩
      simp
    · rename_i haccepting
      rw [not_not] at haccepting
      split
      · rename_i hannounced
        refine .inl ⟨hguarded, ⟨fun h => ?_, _, ?_, rfl⟩, rfl⟩
        · exact absurd hannounced (Bool.eq_false_iff.mp h.announced)
        · simp
      · exact ⟨hguarded, haccepting, Bool.eq_false_iff.mpr ‹_›, rfl⟩
  · exact ⟨fun hguarded => absurd hguarded ‹_›, rfl⟩

theorem tallied_of_step {s next : HttpServer host.State} {event : Event host.Event}
    (hstep : Step loads host s event next) (h : ∀ visit ∈ s.visits, visit.Tallied config) :
    ∀ visit ∈ next.visits, visit.Tallied config := by
  have hset : ∀ (id : ℕ) (moved : Visit), moved.Tallied config →
      ∀ visit ∈ s.visits.set id moved, visit.Tallied config := by
    intro id moved hmoved visit hmem
    rcases List.mem_or_eq_of_mem_set hmem with hold | rfl
    · exact h visit hold
    · exact hmoved
  have hbefore : ∀ {id : ℕ} {visit : Visit}, s.visits[id]? = some visit →
      visit.Tallied config := fun hvisit => h _ (List.mem_of_getElem? hvisit)
  cases hstep with
  | arrives hvisit =>
      intro visit hmem
      rcases List.mem_append.mp hmem with hold | hnew
      · exact h visit hold
      · rw [List.mem_singleton.mp hnew, hvisit]
        exact tallied_arrive _ _ _
  | tooLong hvisit hstage hlong =>
      have hreading := hbefore hvisit
      simp only [Visit.Tallied, hstage] at hreading
      obtain ⟨hguarded, haccepted, hannounced, hupdates⟩ := hreading
      refine hset _ _ (.inl ⟨hguarded, ⟨fun hpasses => ?_, _, ?_, rfl⟩, by simpa using hupdates⟩)
      · exact absurd hlong (not_lt.mpr hpasses.short)
      · simp
  | reads hvisit hstage hshort =>
      have hreading := hbefore hvisit
      simp only [Visit.Tallied, hstage] at hreading
      obtain ⟨_, haccepted, hannounced, hupdates⟩ := hreading
      exact hset _ _ ⟨fun _ => ⟨haccepted, hannounced, hshort⟩, by simp [hupdates]⟩
  | refuses hvisit hstage _ hraised =>
      refine hset _ _ ((hbefore hvisit).ends (by simp [Visit.inProgress, hstage])
        (Visit.labels_catchExceptions _) rfl rfl fun h hguarded => ?_)
      exact ⟨(h hguarded).accepted, (h hguarded).announced, (h hguarded).short⟩
  | calls _ hvisit hstage _ _ _ _ =>
      have hrouted := hbefore hvisit
      simp only [Visit.Tallied, hstage] at hrouted
      obtain ⟨hpasses, hupdates⟩ := hrouted
      refine hset _ _ ⟨fun hguarded => ?_, by simp [hupdates]⟩
      exact ⟨(hpasses hguarded).accepted, (hpasses hguarded).announced, (hpasses hguarded).short⟩
  | @answers _ _ _ reply hvisit hstage _ =>
      have hlabels : Visit.Labels reply.statusCode "NONE" (some reply) := ⟨rfl, .inl rfl⟩
      refine hset _ _ ((hbefore hvisit).ends (by simp [Visit.inProgress, hstage]) hlabels rfl rfl
        fun h hguarded => ?_)
      exact ⟨(h hguarded).accepted, (h hguarded).announced, (h hguarded).short⟩
  | ends hvisit hstage _ _ =>
      refine hset _ _ ((hbefore hvisit).ends (by simp [Visit.inProgress, hstage])
        (Visit.labels_catchExceptions _) rfl rfl fun h hguarded => ?_)
      exact ⟨(h hguarded).accepted, (h hguarded).announced, (h hguarded).short⟩
  | aborts hvisit hstage =>
      rcases hstage with ⟨hstage, rfl⟩ | ⟨hstage, rfl⟩
      · have hreading := hbefore hvisit
        simp only [Visit.Tallied, hstage] at hreading
        obtain ⟨hguarded, _, _, hupdates⟩ := hreading
        exact hset _ _ (.inl ⟨hguarded, rfl, by simpa using hupdates⟩)
      · have hlabels : Visit.Labels 500 "NONE" none := ⟨rfl, rfl⟩
        refine hset _ _ ((hbefore hvisit).ends (by simp [Visit.inProgress, hstage]) hlabels rfl rfl
          fun h hguarded => ?_)
        exact ⟨(h hguarded).accepted, (h hguarded).announced, (h hguarded).short⟩
  | inner _ _ => exact h

theorem tallied_of_reachable {s : HttpServer host.State}
    (hreach : (machine loads host).Reachable s) : ∀ visit ∈ s.visits, visit.Tallied config := by
  apply hreach.invariant
  · rintro s ⟨inner, _, rfl⟩
    simp
  · intro s event next _ h hstep
    exact tallied_of_step (step_cases hstep) h

theorem summed_of_reachable {s : HttpServer host.State}
    (hreach : (machine loads host).Reachable s) : Summed s := by
  apply hreach.invariant
  · rintro s ⟨inner, _, rfl⟩
    exact ⟨rfl, fun _ _ => rfl⟩
  · intro s event next _ h hstep
    exact summed_of_step (step_cases hstep) h

/-- **The request metrics are exact.**  In every reachable state, whatever is behind the
interface: `GATEWAY_ACTIVE_REQUESTS` is the number of visits in `call_next`, and
`GATEWAY_REQUESTS_TOTAL` counts, for each status and error code, the visits that have ended
with them.  The visits counted are those that the middleware has let pass, each once, under the
status of its reply; the others have been refused by the middleware, or their bodies never
came. -/
theorem http_metrics_exact {s : HttpServer host.State}
    (hreach : (machine loads host).Reachable s) :
    s.metrics.activeRequests = s.visits.countP Visit.inProgress ∧
      (∀ statusCode errorCode, s.metrics.requestsTotal statusCode errorCode =
        s.visits.countP fun visit => visit.countedAs statusCode errorCode) ∧
      ∀ visit ∈ s.visits, visit.Tallied config := by
  have htallied := tallied_of_reachable hreach
  have hsummed := summed_of_reachable hreach
  refine ⟨?_, ?_, htallied⟩
  · have hinc : s.total .activeInc = s.total .activeDec + s.visits.countP Visit.inProgress :=
      sum_map_add_countP fun visit hmem => (htallied visit hmem).inProgress_eq
    rw [hsummed.active, hinc]
    push_cast
    ring
  · intro statusCode errorCode
    have hcounted : s.total (.requestsInc statusCode errorCode) =
        (s.visits.map fun _ => 0).sum +
          s.visits.countP fun visit => visit.countedAs statusCode errorCode :=
      sum_map_add_countP fun visit hmem =>
        ((htallied visit hmem).countedAs_eq statusCode errorCode).trans (Nat.zero_add _).symm
    rw [hsummed.requests, hcounted, List.sum_eq_zero (by simp), Nat.zero_add]

theorem http_metrics_exact_answered :
    (sample untilAnswered).visits.countP Visit.inProgress = 0 ∧
      (sample untilAnswered).metrics.activeRequests =
        (sample untilAnswered).visits.countP Visit.inProgress ∧
      (sample untilAnswered).metrics.requestsTotal 200 "NONE" = 2 ∧
      ∀ visit ∈ (sample untilAnswered).visits, visit.Tallied {} := by
  obtain ⟨hactive, hrequests, htallied⟩ := http_metrics_exact (reachable_sample untilAnswered)
  refine ⟨by decide +kernel, hactive, ?_, htallied⟩
  rw [hrequests]
  decide +kernel

end HttpServer
end ModelServer
