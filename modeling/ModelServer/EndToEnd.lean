import ModelServer.Cluster

/-!
# No cross-talk

A delivery ties a handler to a call with the same request, and neither the calls
nor the handlers ever change theirs (`requests_prefix`).  A response is right for
the request of its handler, so it is right for the call it is delivered to, and
so is the list that `predict` returns.
-/

namespace ModelServer

open Transition

/-! ## Requests do not change -/

theorem prefix_map_set {α β : Type*} {g : α → β} {list : List α} {index : ℕ} {old new : α}
    (hold : list[index]? = some old) (hsame : g new = g old) :
    list.map g <+: (list.set index new).map g := by
  have hmap : (list.set index new).map g = list.map g := by
    refine List.ext_getElem? fun i => ?_
    rw [List.getElem?_map, List.getElem?_map, List.getElem?_set]
    split
    · rename_i heq
      obtain ⟨hindex, rfl⟩ := List.getElem?_eq_some_iff.mp hold
      simp [← heq, hindex, hsame]
    · rfl
  rw [hmap]

theorem Servicer.requests_prefix {config : WorkerConfig} {s next : Servicer}
    {event : Servicer.Event} (hstep : Servicer.Step config s event next) :
    s.handlers.map Handler.request <+: next.handlers.map Handler.request := by
  cases hstep with
  | receive _ => simp
  | aborts _ hhandler _ _ | admits _ hhandler _ _ | accepted _ hhandler _ | refused _ hhandler _
  | answers _ hhandler _ _ _ | cancelReceived _ hhandler _ | cancelAwait _ hhandler _ _ =>
      exact prefix_map_set hhandler rfl
  | tick _ | batch _ _ _ | ready _ _ | drain _ _ | close _ _ _ => exact List.prefix_refl _

namespace Gateway

variable {config : GatewayConfig}

theorem request_of_callStep {s next : Shared} {id : ℕ} {call moved : Call} {event : Event}
    (hmove : CallStep config s id call event next moved) : moved.request = call.request := by
  cases hmove <;> rfl

theorem ended_of_callStep {s next : Shared} {id : ℕ} {call moved : Call} {event : Event}
    (hmove : CallStep config s id call event next moved) :
    moved.ended = call.ended ∨
      ∃ outcome, event = .rpcResult id outcome ∧ moved.ended = call.ended ++ [outcome] := by
  cases hmove
  case rpcSuccess | rpcUnavailable | rpcStatus | rpcForeign => exact .inr ⟨_, rfl, rfl⟩
  all_goals exact .inl rfl

theorem requests_prefix {g next : Gateway} {event : Event} (hstep : Step config g event next) :
    g.calls.map Call.request <+: next.calls.map Call.request := by
  cases hstep with
  | tick _ | probe _ _ => exact List.prefix_refl _
  | call _ => simp
  | move hcall hmove =>
      exact prefix_map_set hcall (request_of_callStep hmove)

/-- The responses a call has received are right for its inputs. -/
def Right (f : String → String × ℚ) (call : Call) : Prop :=
  ∀ resp, .success resp ∈ call.ended → resp.predictions = Servicer.predictionsOf f call.inputs

theorem right_of_step {f : String → String × ℚ} {g next : Gateway} {event : Event}
    (hstep : Step config g event next) (h : EveryCall (Right f) g)
    (hresponse : ∀ id resp call, event = .rpcResult id (.success resp) →
      g.calls[id]? = some call → resp.predictions = Servicer.predictionsOf f call.inputs) :
    EveryCall (Right f) next := by
  cases hstep with
  | tick _ | probe _ _ => exact h
  | call _ =>
      intro call hmem
      rcases List.mem_append.mp hmem with hold | hnew
      · exact h call hold
      · rw [List.mem_singleton.mp hnew]
        exact nofun
  | @move event id call moved s hcall hmove =>
      intro other hmem
      rcases List.mem_or_eq_of_mem_set hmem with hold | rfl
      · exact h other hold
      · intro resp hresp
        have hinputs : other.inputs = call.inputs :=
          congrArg PredictRequest.inputs (request_of_callStep hmove)
        rw [hinputs]
        rcases ended_of_callStep hmove with hsame | ⟨outcome, rfl, hended⟩
        · exact h call (List.mem_of_getElem? hcall) resp (hsame ▸ hresp)
        · rw [hended, List.mem_append, List.mem_singleton] at hresp
          rcases hresp with hold | rfl
          · exact h call (List.mem_of_getElem? hcall) resp hold
          · exact hresponse id resp call rfl hcall

end Gateway

namespace Cluster

variable {config : ClusterConfig} {f : String → String × ℚ}

/-- The handler of a delivered RPC has the request of its call. -/
def Tied (c : Cluster) (delivery : Delivery) : Prop :=
  ∃ request, (c.gateway.calls.map Call.request)[delivery.call]? = some request ∧
    ((c.servicer delivery.address).handlers.map Handler.request)[delivery.handler]? = some request

/-- The models of the workers return `f` of each text they were given. -/
def PointwiseEvent (f : String → String × ℚ) (c : Cluster) : Event → Prop
  | .worker address event => Servicer.PointwiseEvent f (c.servicer address) event
  | _ => True

/-- A delivery stays tied while more requests come. -/
theorem Tied.mono {c next : Cluster} {delivery : Delivery} (h : c.Tied delivery)
    (hcalls : c.gateway.calls.map Call.request <+: next.gateway.calls.map Call.request)
    (hhandlers : ∀ address, (c.servicer address).handlers.map Handler.request <+:
      (next.servicer address).handlers.map Handler.request) : next.Tied delivery := by
  obtain ⟨request, hcall, hhandler⟩ := h
  refine ⟨request, ?_, ?_⟩
  · obtain ⟨hindex, heq⟩ := List.getElem?_eq_some_iff.mp hcall
    exact heq ▸ List.prefix_iff_getElem?.mp hcalls _ hindex
  · obtain ⟨hindex, heq⟩ := List.getElem?_eq_some_iff.mp hhandler
    exact heq ▸ List.prefix_iff_getElem?.mp (hhandlers _) _ hindex

theorem requests_of_update {c : Cluster} {changed : String} {event : Servicer.Event}
    {servicer : Servicer}
    (hworker : (c.servicer changed).step (config.worker changed) event = some servicer)
    (address : String) : (c.servicer address).handlers.map Handler.request <+:
      (Function.update c.servicer changed servicer address).handlers.map Handler.request := by
  rw [Function.update_apply]
  split
  · rename_i heq
    exact heq ▸ Servicer.requests_prefix (Servicer.step_cases hworker)
  · exact List.prefix_refl _

/-- What holds of a cluster with pointwise models. -/
structure Connected (config : ClusterConfig) (f : String → String × ℚ) (c : Cluster) : Prop where
  gateway : (Gateway.machine config.gateway).Reachable c.gateway
  workers : ∀ address,
    (Servicer.machine (config.worker address)).ReachableBy (Servicer.PointwiseEvent f)
      (c.servicer address)
  tied : ∀ delivery ∈ c.deliveries, c.Tied delivery
  right : Gateway.EveryCall (Gateway.Right f) c.gateway

theorem Connected.update {c : Cluster} (h : Connected config f c) {changed : String}
    {event : Servicer.Event} {servicer : Servicer}
    (hworker : (c.servicer changed).step (config.worker changed) event = some servicer)
    (hmodel : Servicer.PointwiseEvent f (c.servicer changed) event) (address : String) :
    (Servicer.machine (config.worker address)).ReachableBy (Servicer.PointwiseEvent f)
      (Function.update c.servicer changed servicer address) := by
  rw [Function.update_apply]
  split
  · rename_i heq
    subst heq
    exact Servicer.reachableBy_of_step (h.workers address) hmodel hworker
  · exact h.workers address

/-- A response that is delivered is right for the call that waits for it. -/
theorem right_of_answer {c : Cluster} (h : Connected config f c) {delivery : Delivery}
    (hdelivery : delivery ∈ c.deliveries) {sender : Call}
    (hsender : c.gateway.calls[delivery.call]? = some sender) {handler : Handler}
    (hhandler : (c.servicer delivery.address).handlers[delivery.handler]? = some handler)
    {resp : PredictResponse} (hpoint : handler.point = .finished (.returned resp)) :
    resp.predictions = Servicer.predictionsOf f sender.inputs := by
  obtain ⟨request, hcall, htied⟩ := h.tied delivery hdelivery
  have hsame : handler.request = sender.request := by
    simp only [List.getElem?_map, hsender, hhandler, Option.map_some, Option.some.injEq]
      at hcall htied
    rw [hcall, htied]
  have hright := (Servicer.answering_of_reachable (h.workers delivery.address)).handlers handler
    (List.mem_of_getElem? hhandler)
  rw [hright resp hpoint, hsame]
  rfl

theorem connected_of_step {c next : Cluster} {event : Event} (hstep : Step config c event next)
    (hmodel : PointwiseEvent f c event) (h : Connected config f c) : Connected config f next := by
  cases hstep with
  | @elapse elapsed gateway servicer hgateway hworkers =>
      have hmoved := Gateway.step_of_reachable h.gateway hgateway
      have hallowed : ∀ address, Servicer.PointwiseEvent f (c.servicer address) (.tick elapsed) :=
        fun _ => trivial
      refine ⟨Gateway.reachable_of_step h.gateway hgateway,
        fun address => Servicer.reachableBy_of_step (h.workers address) (hallowed address)
          (hworkers address), ?_, ?_⟩
      · intro delivery hmem
        exact (h.tied delivery hmem).mono (Gateway.requests_prefix hmoved)
          fun address => Servicer.requests_prefix (Servicer.step_cases (hworkers address))
      · refine Gateway.right_of_step hmoved h.right fun _ _ _ heq => ?_
        exact Gateway.Event.noConfusion heq
  | gateway hother hgateway =>
      have hmoved := Gateway.step_of_reachable h.gateway hgateway
      refine ⟨Gateway.reachable_of_step h.gateway hgateway, h.workers, ?_, ?_⟩
      · intro delivery hmem
        exact (h.tied delivery hmem).mono (Gateway.requests_prefix hmoved)
          fun _ => List.prefix_refl _
      · exact Gateway.right_of_step hmoved h.right fun id resp _ heq => absurd heq (hother id resp)
  | worker hworker =>
      refine ⟨h.gateway, h.update hworker hmodel, ?_, h.right⟩
      intro delivery hmem
      exact (h.tied delivery hmem).mono (List.prefix_refl _) (requests_of_update hworker)
  | @deliver call rpc sender sent servicer hsender hsent hworker =>
      refine ⟨h.gateway, h.update hworker trivial, ?_, h.right⟩
      intro delivery hmem
      rcases List.mem_append.mp hmem with hold | hnew
      · exact (h.tied delivery hold).mono (List.prefix_refl _) (requests_of_update hworker)
      · rw [List.mem_singleton.mp hnew]
        refine ⟨sender.request, by simp [hsender], ?_⟩
        cases Servicer.step_cases hworker with
        | receive _ => simp
        | batch hinner _ _ => simp [Servicer.Event.inner] at hinner
  | @answer index delivery sender handler resp gateway hdelivery hsender _ hhandler hpoint
      hgateway =>
      have hmoved := Gateway.step_of_reachable h.gateway hgateway
      refine ⟨Gateway.reachable_of_step h.gateway hgateway, h.workers, ?_, ?_⟩
      · intro delivery hmem
        exact (h.tied delivery hmem).mono (Gateway.requests_prefix hmoved)
          fun _ => List.prefix_refl _
      · refine Gateway.right_of_step hmoved h.right fun id resp' call heq hcall => ?_
        obtain ⟨rfl, rfl⟩ : delivery.call = id ∧ resp = resp' := by simpa using heq
        obtain rfl := Option.some.inj (hsender.symm.trans hcall)
        exact right_of_answer h (List.mem_of_getElem? hdelivery) hsender hhandler hpoint

theorem connected_of_reachable {c : Cluster}
    (hreach : (machine config).ReachableBy (PointwiseEvent f) c) : Connected config f c := by
  apply hreach.invariant
  · rintro c ⟨gatewayNow, workerNow, rfl⟩
    exact ⟨.initial ⟨gatewayNow, rfl⟩, fun address => .initial ⟨workerNow address, rfl⟩,
      nofun, fun call hcall => absurd hcall List.not_mem_nil⟩
  · intro c event next _ h hmodel hevent
    exact connected_of_step (step_cases hevent) hmodel h

/-- **No cross-talk.**  With models that compute `f` text by text, every response of a
worker carries `f` of the inputs of its own request, in their order, and so does every
result that `predict` returns, on either attempt: whatever requests, batches,
cancellations, expiries, failures and retries there are besides. -/
theorem no_cross_talk {c : Cluster} (hreach : (machine config).ReachableBy (PointwiseEvent f) c) :
    (∀ address, ∀ handler ∈ (c.servicer address).handlers, ∀ resp,
        handler.point = .finished (.returned resp) →
        resp.predictions = Servicer.predictionsOf f handler.request.inputs) ∧
      ∀ call ∈ c.gateway.calls, ∀ result, call.point = .finished (.returned result) →
        result.predictions = Servicer.predictionsOf f call.inputs := by
  have h := connected_of_reachable hreach
  refine ⟨fun address => (Servicer.answering_of_reachable (h.workers address)).handlers, ?_⟩
  intro call hcall result hpoint
  have hprotocol := Gateway.protocol_of_reachable h.gateway call hcall
  obtain ⟨_, _, resp, _, _, hlast, _, hpredictions⟩ :=
    hprotocol.ends.success result (by rw [hpoint, CallPoint.outcome?])
  have hright := h.right call hcall resp (List.mem_of_getLast? hlast)
  rw [hpredictions, ← hright]
  exact List.map_id _

/-- A model that looks for one word. -/
def sampleModel (text : String) : String × ℚ :=
  (if text = "good" then "positive" else "negative", 1)

def sampleConfig : ClusterConfig where
  gateway := {}
  worker _ := {}

/-- The state a list of events leads to from time 0. -/
def sample (events : List Event) : Cluster :=
  (machine sampleConfig).after (initial sampleConfig 0 fun _ => 0) events

def firstWorker (event : Servicer.Event) : Event := .worker "worker-1:50051" event

/-- Two calls have sent their requests to the first worker, and the model is working on the
batch of both. -/
def untilModel : List Event :=
  [firstWorker .ready, .gateway (.probe "worker-1" (.reply (sampleReply .ready))),
      .gateway (.call "r0" ["good", "bad"] "tinybert-sst2-v1" 1000), .gateway (.start 0)]
    ++ List.replicate 4 (.gateway .run)
    ++ [.gateway (.call "r1" ["fine", "good"] "tinybert-sst2-v1" 1000), .gateway (.start 1)]
    ++ List.replicate 4 (.gateway .run)
    ++ [.deliver 0 0, firstWorker (.predict 0 (some 1)), firstWorker .enqueue,
      .deliver 1 0, firstWorker (.predict 1 (some 1)), firstWorker .enqueue,
      firstWorker (.wake .started)]
    ++ List.replicate 6 (firstWorker .run) ++ [firstWorker (.wake .timeout)]
    ++ List.replicate 4 (firstWorker .run)

def modelAnswers : Event :=
  firstWorker (.wake (.modelReturns ⟨["good", "bad", "fine", "good"].map sampleModel, 0, 0, 0⟩))

/-- The results are delivered, and the responses arrive in the other order. -/
def thereafter : List Event :=
  List.replicate 4 (firstWorker .run)
    ++ [firstWorker (.resume 0), firstWorker (.resume 1), .answer 1]
    ++ List.replicate 2 (.gateway .run) ++ [.answer 0] ++ List.replicate 2 (.gateway .run)

theorem reachable_batched : (machine sampleConfig).ReachableBy (PointwiseEvent sampleModel)
    (sample (untilModel ++ [modelAnswers] ++ thereafter)) := by
  have hinitial : (machine sampleConfig).Initial (initial sampleConfig 0 fun _ => 0) :=
    ⟨0, fun _ => 0, rfl⟩
  have hbefore : (machine sampleConfig).ReachableBy (PointwiseEvent sampleModel)
      (sample untilModel) := by
    refine (Machine.ReachableBy.initial hinitial).after untilModel ?_
    simp [untilModel, firstWorker, PointwiseEvent, Servicer.PointwiseEvent, Batcher.PointwiseEvent]
  have hmodel : (machine sampleConfig).Run (sample untilModel) [modelAnswers]
      (sample (untilModel ++ [modelAnswers])) := Machine.run_after_append (by decide +kernel)
  have hrest : (machine sampleConfig).Run (sample (untilModel ++ [modelAnswers])) thereafter
      (sample (untilModel ++ [modelAnswers] ++ thereafter)) :=
    Machine.run_after_append (by decide +kernel)
  refine (hbefore.step ?_ (Machine.run_singleton_iff.mp hmodel)).run hrest ?_
  · -- the batch in execution is that of the two requests
    intro work hwork
    have hpoint : ((sample untilModel).servicer "worker-1:50051").batcher.loopTask =
        some (.awaitModel
          ⟨0, [⟨"r0", ["good", "bad"], 1, 0, 0⟩, ⟨"r1", ["fine", "good"], 1, 0, 1⟩],
            ["good", "bad", "fine", "good"], [(0, 2), (2, 4)], 4⟩) := by
      decide +kernel
    obtain rfl : _ = work := by simpa using hpoint.symm.trans hwork
    rfl
  · simp [thereafter, firstWorker, PointwiseEvent, Servicer.PointwiseEvent, Batcher.PointwiseEvent]

theorem no_cross_talk_batched :
    let c := sample (untilModel ++ [modelAnswers] ++ thereafter)
    c.gateway.calls.map Call.point =
        [.finished (.returned
          ⟨"worker-1", 1, [⟨"positive", 1⟩, ⟨"negative", 1⟩], ⟨0, 0, 0, 0, 0⟩⟩),
        .finished (.returned
          ⟨"worker-1", 1, [⟨"negative", 1⟩, ⟨"positive", 1⟩], ⟨0, 0, 0, 0, 0⟩⟩)] ∧
      (∀ address, ∀ handler ∈ (c.servicer address).handlers, ∀ resp,
        handler.point = .finished (.returned resp) →
        resp.predictions = Servicer.predictionsOf sampleModel handler.request.inputs) ∧
      ∀ call ∈ c.gateway.calls, ∀ result, call.point = .finished (.returned result) →
        result.predictions = Servicer.predictionsOf sampleModel call.inputs :=
  ⟨by decide +kernel, no_cross_talk reachable_batched⟩

end Cluster
end ModelServer
