import ModelServer.EndToEnd
import ModelServer.Gateway.Budget

/-!
# Deadlines across the processes

The gateway turns its deadline into a duration, the timeout of an RPC; gRPC turns what
is left of it into `time_remaining`; and the worker turns that into a deadline on its
own clock.  If the same time passes for all processes, and only while the gateway is
not in the middle of a step, the worker's deadline is not later than the gateway's:
the budget is that of the moment the RPC is sent (`Gateway.Prompt`), and what gRPC
reports is at most the timeout less the time since then (`Synchronous`).

Times of different processes are compared after subtracting what each clock showed in
the beginning.
-/

namespace ModelServer

open Asyncio Transition

/-! ## The clock and the deadlines of a worker -/

theorem Batcher.now_of_step {config : BatcherConfig} {s next : Batcher} {event : Batcher.Event}
    (hstep : Batcher.Step config s event next) (hevent : ∀ elapsed, event ≠ .tick elapsed) :
    next.now = s.now := by
  cases hstep
  case tick => exact absurd rfl (hevent _)
  all_goals rfl

namespace Servicer

variable {config : WorkerConfig}

theorem now_enqueue {batcher next : Batcher} {requestId : String} {inputs : List String}
    {localDeadline : Time} {outcome : Except AppError ℕ}
    (h : batcher.enqueue requestId inputs localDeadline = (outcome, next)) :
    next.now = batcher.now := by
  simp only [Batcher.enqueue] at h
  split at h
  · cases h
    rfl
  · split at h <;> cases h
    · rfl
    · unfold Batcher.start
      split <;> rfl

theorem now_of_step {s next : Servicer} {event : Event} (hstep : Step config s event next)
    (hevent : ∀ elapsed, event ≠ .tick elapsed) : next.batcher.now = s.batcher.now := by
  cases hstep with
  | tick _ => exact absurd rfl (hevent _)
  | batch hinner _ hbatcher =>
      refine Batcher.now_of_step (Batcher.step_cases hbatcher) ?_
      rintro elapsed rfl
      cases event <;> simp [Event.inner] at hinner
  | close _ _ hbatcher => exact Batcher.now_of_step (Batcher.step_cases hbatcher) (by simp)
  | accepted _ _ henqueue | refused _ _ henqueue => exact now_enqueue henqueue
  | _ => rfl

theorem now_of_tick {s next : Servicer} {elapsed : Time}
    (hstep : Step config s (.tick elapsed) next) :
    next.batcher.now = s.batcher.now + elapsed := by
  cases hstep with
  | tick hbatcher =>
      simp only [Batcher.step, Option.ite_none_right_eq_some, Option.some.injEq] at hbatcher
      rw [← hbatcher.2]
      rfl
  | batch hinner _ _ => simp [Event.inner] at hinner

/-- The handler has computed `local_deadline` and is about to use it, or has used it. -/
def Deadlined (s : Servicer) (id : ℕ) (handler : Handler) : Prop :=
  s.running = some id ∨ handler.future.isSome

theorem timeRemaining_of_checkRequest {state : WorkerState} {request : PredictRequest}
    {timeRemaining : Option Time} {remaining : Time}
    (h : checkRequest config state request timeRemaining = .ok remaining) :
    timeRemaining = some remaining := by
  unfold checkRequest at h
  split_ifs at h
  cases timeRemaining with
  | none => cases h
  | some time =>
      simp only at h
      split at h
      · cases h
      · cases h
        rfl

/-- What becomes of the deadline of a handler in one step. -/
def DeadlineStep (s next : Servicer) (event : Event) (id : ℕ) (handler moved : Handler) : Prop :=
  Deadlined next id moved →
    Deadlined s id handler ∧ moved.localDeadline = handler.localDeadline ∨
      ∃ remaining, event = .predict id (some remaining) ∧
        moved.localDeadline = s.batcher.now + remaining

theorem deadline_of_set {s next : Servicer} {event : Event} {index : ℕ} {old : Handler}
    (new : Handler)
    (hold : s.handlers[index]? = some old) (hset : next.handlers = s.handlers.set index new)
    (hnew : DeadlineStep s next event index old new)
    (hrunning : ∀ other, next.running = some other → other = index) {id : ℕ} {handler : Handler}
    (hhandler : s.handlers[id]? = some handler) :
    ∃ moved, next.handlers[id]? = some moved ∧ DeadlineStep s next event id handler moved := by
  by_cases heq : index = id
  · subst heq
    obtain rfl := Option.some.inj (hold.symm.trans hhandler)
    have hindex := (List.getElem?_eq_some_iff.mp hold).1
    exact ⟨new, by simp [hset, hindex], hnew⟩
  · refine ⟨handler, by rw [hset, List.getElem?_set_ne heq, hhandler], ?_⟩
    rintro (hself | hfuture)
    · exact absurd (hrunning id hself).symm heq
    · exact .inl ⟨.inr hfuture, rfl⟩

/-- A deadline is computed once, from what gRPC reports then. -/
theorem deadline_of_step {s next : Servicer} {event : Event} (hstep : Step config s event next)
    {id : ℕ} {handler : Handler} (hhandler : s.handlers[id]? = some handler) :
    ∃ moved, next.handlers[id]? = some moved ∧ DeadlineStep s next event id handler moved := by
  cases hstep with
  | tick _ | batch _ _ _ | ready _ _ | drain _ _ | close _ _ _ =>
      exact ⟨handler, hhandler, fun hdeadlined => .inl ⟨hdeadlined, rfl⟩⟩
  | receive _ =>
      have hid := (List.getElem?_eq_some_iff.mp hhandler).1
      exact ⟨handler, (List.getElem?_append_left hid).trans hhandler,
        fun hdeadlined => .inl ⟨hdeadlined, rfl⟩⟩
  | admits _ hold _ hcheck =>
      refine deadline_of_set _ hold rfl (fun _ => .inr ⟨_, ?_, rfl⟩) (by simp) hhandler
      rw [timeRemaining_of_checkRequest hcheck]
  | @accepted _ future old _ hself hold _ =>
      exact deadline_of_set (old.await future) hold rfl (fun _ => .inl ⟨.inl hself, rfl⟩) (by simp)
        hhandler
  | @refused _ old error _ hself hold _ =>
      exact deadline_of_set (old.goto (.finished (abortOf error).2)) hold rfl
        (fun _ => .inl ⟨.inl hself, rfl⟩) (by simp) hhandler
  | aborts _ hold _ _ | answers _ hold _ _ _ | cancelReceived _ hold _ | cancelAwait _ hold _ _ =>
      refine deadline_of_set (Handler.goto _ _) hold rfl ?_ (by simp) hhandler
      rintro (hself | hfuture)
      · simp at hself
      · exact .inl ⟨.inr hfuture, rfl⟩

end Servicer

namespace Cluster

variable {config : ClusterConfig} {gatewayNow : Time} {workerNow : String → Time}

/-- The assumptions on time: it is common, it passes only while the gateway is suspended,
and gRPC reports no more than the timeout of an RPC less the time since it was sent. -/
def Synchronous (c : Cluster) : Event → Prop
  | .elapse _ => c.gateway.running = none
  | .gateway event => ∀ elapsed, event ≠ .tick elapsed
  | .worker address event => (∀ elapsed, event ≠ .tick elapsed) ∧
      ∀ id remaining, event = .predict id (some remaining) →
        ∀ delivery ∈ c.deliveries, delivery.address = address → delivery.handler = id →
          ∀ sender sent, c.gateway.calls[delivery.call]? = some sender →
            sender.sent[delivery.rpc]? = some sent →
            remaining ≤ sent.timeout - (c.gateway.now - sent.sentAt)
  | .deliver _ _ | .answer _ => True

/-- The deadline of the handler of a delivered RPC is not later than that of its call. -/
def InTime (gatewayNow : Time) (workerNow : String → Time) (c : Cluster) (delivery : Delivery) :
    Prop :=
  ∃ sender sent handler, c.gateway.calls[delivery.call]? = some sender ∧
    sender.sent[delivery.rpc]? = some sent ∧ sender.point ≠ .start ∧
    (c.servicer delivery.address).handlers[delivery.handler]? = some handler ∧
    (Servicer.Deadlined (c.servicer delivery.address) delivery.handler handler →
      handler.localDeadline - workerNow delivery.address ≤ sender.gatewayDeadline - gatewayNow)

theorem InTime.gateway {c : Cluster} {delivery : Delivery}
    (h : InTime gatewayNow workerNow c delivery) {event : Gateway.Event} {gateway : Gateway}
    (hstep : Gateway.Step config.gateway c.gateway event gateway) :
    InTime gatewayNow workerNow { c with gateway } delivery := by
  obtain ⟨sender, sent, handler, hsender, hsent, hstarted, hhandler, hdeadline⟩ := h
  obtain ⟨moved, hmoved, hkept⟩ := Gateway.kept_of_step hstep hsender
  refine ⟨moved, sent, handler, hmoved, ?_, hkept.started hstarted, hhandler, ?_⟩
  · obtain ⟨hrpc, rfl⟩ := List.getElem?_eq_some_iff.mp hsent
    exact List.prefix_iff_getElem?.mp hkept.sent _ hrpc
  · rw [hkept.deadline hstarted]
    exact hdeadline

/-- What holds of a cluster whose processes share their time. -/
structure Timed (config : ClusterConfig) (gatewayNow : Time) (workerNow : String → Time)
    (c : Cluster) : Prop where
  gateway : (Gateway.machine config.gateway).ReachableBy Gateway.Quiet c.gateway
  workers : ∀ address, (Servicer.machine (config.worker address)).Reachable (c.servicer address)
  clocks : ∀ address,
    (c.servicer address).batcher.now - workerNow address = c.gateway.now - gatewayNow
  inTime : ∀ delivery ∈ c.deliveries, InTime gatewayNow workerNow c delivery

/-- What gRPC reports to the handler of a delivered RPC brings its deadline to that of the
call at the latest. -/
theorem Timed.reported {c : Cluster} (h : Timed config gatewayNow workerNow c)
    {delivery : Delivery} {sender : Call} {sent : SentRpc}
    (hsender : c.gateway.calls[delivery.call]? = some sender)
    (hsent : sender.sent[delivery.rpc]? = some sent) {remaining : Time}
    (hreport : remaining ≤ sent.timeout - (c.gateway.now - sent.sentAt)) :
    (c.servicer delivery.address).batcher.now + remaining - workerNow delivery.address ≤
      sender.gatewayDeadline - gatewayNow := by
  have hcall : sender ∈ c.gateway.calls := List.mem_of_getElem? hsender
  have hrpc : sent ∈ sender.sent := List.mem_of_getElem? hsent
  have hprompt : sent.budgetAt = sent.sentAt :=
    (Gateway.prompt_of_reachable h.gateway).sent sender hcall sent hrpc
  have htimeout : sent.timeout = sender.gatewayDeadline - sent.budgetAt :=
    ((Gateway.protocol_of_reachable h.gateway.reachable sender hcall).sent.sound sent hrpc).timeout
  calc (c.servicer delivery.address).batcher.now + remaining - workerNow delivery.address
      = (c.gateway.now - gatewayNow) + remaining := by rw [← h.clocks delivery.address]; ring
    _ ≤ (c.gateway.now - gatewayNow) + (sent.timeout - (c.gateway.now - sent.sentAt)) :=
        add_le_add_right hreport _
    _ = sender.gatewayDeadline - gatewayNow := by rw [htimeout, hprompt]; ring

/-- A step of the worker keeps the deadline of a handler, unless it computes it. -/
theorem InTime.worker {c next : Cluster} {delivery : Delivery} {event : Servicer.Event}
    (h : InTime gatewayNow workerNow c delivery) (hgateway : next.gateway = c.gateway)
    (hstep : Servicer.Step (config.worker delivery.address) (c.servicer delivery.address) event
      (next.servicer delivery.address))
    (hreported : ∀ remaining, event = .predict delivery.handler (some remaining) →
      ∀ sender sent, c.gateway.calls[delivery.call]? = some sender →
        sender.sent[delivery.rpc]? = some sent →
        (c.servicer delivery.address).batcher.now + remaining - workerNow delivery.address ≤
          sender.gatewayDeadline - gatewayNow) :
    InTime gatewayNow workerNow next delivery := by
  obtain ⟨sender, sent, handler, hsender, hsent, hstarted, hhandler, hdeadline⟩ := h
  obtain ⟨moved, hmoved, hdeadlined⟩ := Servicer.deadline_of_step hstep hhandler
  refine ⟨sender, sent, moved, hgateway ▸ hsender, hsent, hstarted, hmoved, fun hnow => ?_⟩
  rcases hdeadlined hnow with ⟨hbefore, hsame⟩ | ⟨remaining, hevent, hnew⟩
  · rw [hsame]
    exact hdeadline hbefore
  · rw [hnew]
    exact hreported remaining hevent sender sent hsender hsent

theorem timed_of_elapse {c : Cluster} (h : Timed config gatewayNow workerNow c) {elapsed : Time}
    {gateway : Gateway} {servicer : String → Servicer}
    (hgateway : c.gateway.step config.gateway (.tick elapsed) = some gateway)
    (hworkers : ∀ address, (c.servicer address).step (config.worker address) (.tick elapsed) =
      some (servicer address)) (hquiet : c.gateway.Quiet (.tick elapsed)) :
    Timed config gatewayNow workerNow { c with gateway, servicer } := by
  have hmoved := Gateway.step_of_reachable h.gateway.reachable hgateway
  have hreach : (Gateway.machine config.gateway).ReachableBy Gateway.Quiet gateway :=
    h.gateway.step hquiet hgateway
  refine ⟨hreach, fun address => ?_, ?_, ?_⟩
  · exact Servicer.reachableBy_of_step (h.workers address) trivial (hworkers address)
  · intro address
    have hclock := h.clocks address
    have hnow : gateway.now = c.gateway.now + elapsed := by
      simp only [Gateway.step, Option.ite_none_right_eq_some, Option.some.injEq] at hgateway
      rw [← hgateway.2]
    have hlater := Servicer.now_of_tick (Servicer.step_cases (hworkers address))
    show (servicer address).batcher.now - workerNow address = gateway.now - gatewayNow
    rw [hnow, hlater, add_sub_right_comm, add_sub_right_comm, hclock]
  · intro delivery hmem
    have hcalls := (h.inTime delivery hmem).gateway hmoved
    exact hcalls.worker rfl (Servicer.step_cases (hworkers delivery.address)) (by simp)

/-- The worker at one address takes a step. -/
theorem timed_of_worker {c : Cluster} (h : Timed config gatewayNow workerNow c) {address : String}
    {event : Servicer.Event} {servicer : Servicer}
    (hworker : (c.servicer address).step (config.worker address) event = some servicer)
    (hsynchronous : c.Synchronous (.worker address event)) :
    Timed config gatewayNow workerNow
      { c with servicer := Function.update c.servicer address servicer } := by
  obtain ⟨htick, hreport⟩ := hsynchronous
  have hmoved := Servicer.step_cases hworker
  refine ⟨h.gateway, fun other => ?_, fun other => ?_, fun delivery hmem => ?_⟩
  · show (Servicer.machine _).Reachable (Function.update c.servicer address servicer other)
    by_cases heq : other = address
    · subst heq
      rw [Function.update_self]
      exact Servicer.reachableBy_of_step (h.workers other) trivial hworker
    · rw [Function.update_of_ne heq]
      exact h.workers other
  · show (Function.update c.servicer address servicer other).batcher.now - workerNow other = _
    by_cases heq : other = address
    · subst heq
      rw [Function.update_self, Servicer.now_of_step hmoved htick]
      exact h.clocks other
    · rw [Function.update_of_ne heq]
      exact h.clocks other
  · by_cases heq : delivery.address = address
    · subst heq
      refine (h.inTime delivery hmem).worker rfl (by simpa using hmoved) ?_
      intro remaining hevent sender sent hsender hsent
      exact h.reported hsender hsent
        (hreport _ _ hevent delivery hmem rfl rfl sender sent hsender hsent)
    · obtain ⟨sender, sent, handler, hsender, hsent, hstarted, hhandler, hdeadline⟩ :=
        h.inTime delivery hmem
      refine ⟨sender, sent, handler, hsender, hsent, hstarted, ?_, ?_⟩
      · simpa [Function.update_of_ne heq] using hhandler
      · simpa [Function.update_of_ne heq] using hdeadline

/-- The gateway takes a step in which no time passes. -/
theorem timed_of_gateway {c : Cluster} (h : Timed config gatewayNow workerNow c)
    {event : Gateway.Event} {gateway : Gateway}
    (hgateway : c.gateway.step config.gateway event = some gateway)
    (htick : ∀ elapsed, event ≠ .tick elapsed) :
    Timed config gatewayNow workerNow { c with gateway } := by
  have hmoved := Gateway.step_of_reachable h.gateway.reachable hgateway
  have hquiet : Gateway.Quiet c.gateway event := by
    cases event with
    | tick elapsed => exact absurd rfl (htick elapsed)
    | _ => trivial
  have hreach : (Gateway.machine config.gateway).ReachableBy Gateway.Quiet gateway :=
    h.gateway.step hquiet hgateway
  refine ⟨hreach, h.workers, fun address => ?_, fun delivery hmem => ?_⟩
  · show (c.servicer address).batcher.now - workerNow address = gateway.now - gatewayNow
    rw [Gateway.now_of_step hmoved htick]
    exact h.clocks address
  · exact (h.inTime delivery hmem).gateway hmoved

/-- A handler that has just been created has no deadline. -/
theorem received_of_step {config : WorkerConfig} {s next : Servicer} {request : PredictRequest}
    (hstep : Servicer.Step config s (.receive request) next) :
    ∃ handler, next.handlers[s.handlers.length]? = some handler ∧
      ¬ Servicer.Deadlined next s.handlers.length handler := by
  cases hstep with
  | receive hrest =>
      refine ⟨{ request }, by simp, ?_⟩
      rintro (hrunning | hfuture)
      · simp [(Servicer.atRest_iff.mp hrest).2] at hrunning
      · simp at hfuture
  | batch hinner _ _ => simp [Servicer.Event.inner] at hinner

/-- Only a call that has started has sent anything. -/
theorem started_of_sent {g : Gateway} {config : GatewayConfig}
    (hreach : (Gateway.machine config).Reachable g) {id rpc : ℕ} {sender : Call} {sent : SentRpc}
    (hsender : g.calls[id]? = some sender) (hsent : sender.sent[rpc]? = some sent) :
    sender.point ≠ .start := by
  intro hpoint
  have hshape := (Gateway.protocol_of_reachable hreach sender (List.mem_of_getElem? hsender)).shape
  rw [hpoint] at hshape
  simp [show sender.sent = [] from hshape.1] at hsent

theorem timed_of_step {c next : Cluster} {event : Event} (hstep : Step config c event next)
    (hsynchronous : c.Synchronous event) (h : Timed config gatewayNow workerNow c) :
    Timed config gatewayNow workerNow next := by
  cases hstep with
  | elapse hgateway hworkers => exact timed_of_elapse h hgateway hworkers hsynchronous
  | gateway _ hgateway => exact timed_of_gateway h hgateway hsynchronous
  | answer _ _ _ _ _ hgateway => exact timed_of_gateway h hgateway (by simp)
  | worker hworker => exact timed_of_worker h hworker hsynchronous
  | @deliver call rpc sender sent servicer hsender hsent hworker =>
      have hsame := timed_of_worker h hworker ⟨by simp, by simp⟩
      refine ⟨hsame.gateway, hsame.workers, hsame.clocks, fun delivery hmem => ?_⟩
      rcases List.mem_append.mp hmem with hold | hnew
      · exact hsame.inTime delivery hold
      · rw [List.mem_singleton.mp hnew]
        obtain ⟨handler, hhandler, hreceived⟩ := received_of_step (Servicer.step_cases hworker)
        refine ⟨sender, sent, handler, hsender, hsent, ?_, by simpa using hhandler, ?_⟩
        · exact started_of_sent h.gateway.reachable hsender hsent
        · intro hdeadlined
          simp only [Function.update_self] at hdeadlined
          exact absurd hdeadlined hreceived

theorem timed_of_reachable {c : Cluster}
    (hreach : ((machine config).startingAt (initial config gatewayNow workerNow)).ReachableBy
      Synchronous c) : Timed config gatewayNow workerNow c := by
  apply hreach.invariant
  · rintro c rfl
    refine ⟨.initial ⟨gatewayNow, rfl⟩, fun address => .initial ⟨workerNow address, rfl⟩, ?_, ?_⟩
    · intro address
      show workerNow address - workerNow address = gatewayNow - gatewayNow
      rw [sub_self, sub_self]
    · intro delivery hmem
      exact absurd hmem List.not_mem_nil
  · intro c event next _ h hsynchronous hevent
    exact timed_of_step (step_cases hevent) hsynchronous h

/-! ## From the start of a call on -/

/-- The call has started and has this deadline. -/
def Begun (id : ℕ) (deadline : Time) (c : Cluster) : Prop :=
  ∃ call, c.gateway.calls[id]? = some call ∧ call.point ≠ .start ∧ call.gatewayDeadline = deadline

theorem Begun.gateway {id : ℕ} {deadline : Time} {c : Cluster} (h : Begun id deadline c)
    (hreach : (Gateway.machine config.gateway).Reachable c.gateway) {event : Gateway.Event}
    {gateway : Gateway} (hstep : c.gateway.step config.gateway event = some gateway) :
    ∃ call, gateway.calls[id]? = some call ∧ call.point ≠ .start ∧
      call.gatewayDeadline = deadline := by
  obtain ⟨call, hcall, hstarted, hdeadline⟩ := h
  obtain ⟨moved, hmoved, hkept⟩ :=
    Gateway.kept_of_step (Gateway.step_of_reachable hreach hstep) hcall
  exact ⟨moved, hmoved, hkept.started hstarted, (hkept.deadline hstarted).trans hdeadline⟩

theorem begun_of_step {id : ℕ} {deadline : Time} {c next : Cluster} {event : Event}
    (hstep : Step config c event next)
    (hreach : (Gateway.machine config.gateway).Reachable c.gateway) (h : Begun id deadline c) :
    Begun id deadline next := by
  cases hstep with
  | elapse hgateway _ | gateway _ hgateway | answer _ _ _ _ _ hgateway =>
      exact h.gateway hreach hgateway
  | worker _ | deliver _ _ _ => exact h

/-- The first step of a call sets its deadline. -/
theorem begun_of_start {c begun : Cluster} {id : ℕ} {call : Call}
    (hreach : (Gateway.machine config.gateway).Reachable c.gateway)
    (hcall : c.gateway.calls[id]? = some call)
    (hstart : c.step config (.gateway (.start id)) = some begun) :
    Begun id (c.gateway.now + (call.timeoutMs : ℚ) / 1000) begun := by
  obtain ⟨gateway, hgateway, rfl⟩ := Option.map_eq_some_iff.mp hstart
  cases Gateway.step_of_reachable hreach hgateway with
  | move hfound hmove =>
      cases hmove with
      | start _ _ =>
          obtain rfl := Option.some.inj (hcall.symm.trans hfound)
          exact ⟨_, Gateway.getElem?_store_self hcall, by simp, rfl⟩

/-- **End-to-end deadline.**  Let a call take its first step in the state `before`.  In every
state that is reached from then on, the envelope of any of its RPCs has a deadline that is,
measured from the beginning of the run, not later than `timeout_ms` after that step; and
whatever result it has got, it has got by then. -/
theorem deadline_kept {before begun c : Cluster} {id : ℕ} {call : Call}
    (hbefore : ((machine config).startingAt (initial config gatewayNow workerNow)).ReachableBy
      Synchronous before)
    (hcall : before.gateway.calls[id]? = some call)
    (hstart : before.step config (.gateway (.start id)) = some begun)
    (hreach : ((machine config).startingAt begun).ReachableBy Synchronous c)
    {delivery : Delivery} (hdelivery : delivery ∈ c.deliveries) (hid : delivery.call = id)
    {handler : Handler}
    (hhandler : (c.servicer delivery.address).handlers[delivery.handler]? = some handler)
    {envelope : RequestEnvelope}
    (henvelope : envelope ∈ (c.servicer delivery.address).batcher.acceptedLine)
    (hfuture : handler.future = some envelope.future) :
    envelope.localDeadline - workerNow delivery.address ≤
        before.gateway.now - gatewayNow + (call.timeoutMs : ℚ) / 1000 ∧
      ∀ result reading,
        .resultSet envelope result reading ∈ (c.servicer delivery.address).batcher.log →
        reading - workerNow delivery.address ≤
          before.gateway.now - gatewayNow + (call.timeoutMs : ℚ) / 1000 := by
  have hfirst := timed_of_reachable hbefore
  have hbegun : ((machine config).startingAt (initial config gatewayNow workerNow)).ReachableBy
      Synchronous begun := by
    have hallowed : before.Synchronous (.gateway (.start id)) := by simp [Synchronous]
    exact hbefore.step hallowed hstart
  have hthen : ∀ {last}, ((machine config).startingAt begun).ReachableBy Synchronous last →
      Timed config gatewayNow workerNow last :=
    fun hlast => timed_of_reachable (hbegun.trans hlast)
  obtain ⟨sender, hsender, _, hset⟩ :
      Begun id (before.gateway.now + (call.timeoutMs : ℚ) / 1000) c := by
    apply hreach.invariant
    · rintro c rfl
      exact begun_of_start hfirst.gateway.reachable hcall hstart
    · intro c event next hsofar h _ hevent
      exact begun_of_step (step_cases hevent) (hthen hsofar).gateway.reachable h
  have htimed := hthen hreach
  obtain ⟨sender', sent, handler', hsender', _, _, hhandler', hdeadline⟩ :=
    htimed.inTime delivery hdelivery
  obtain rfl : sender = sender' := by simpa [← hid, hsender'] using hsender.symm
  obtain rfl : handler = handler' := Option.some.inj (hhandler.symm.trans hhandler')
  have hattended := Servicer.attended_of_reachable (htimed.workers delivery.address)
  have haccepted : envelope.localDeadline = handler.localDeadline := by
    obtain ⟨placed, hplaced, hsame, _, hlocal⟩ :=
      (hattended.handlers handler (List.mem_of_getElem? hhandler)).envelope _ hfuture
    have hdistinct := (Batcher.line_of_reachable hattended.batcher).distinct
    rw [← List.inj_on_of_nodup_map hdistinct hplaced henvelope hsame]
    exact hlocal
  have hlocal : envelope.localDeadline - workerNow delivery.address ≤
      before.gateway.now - gatewayNow + (call.timeoutMs : ℚ) / 1000 := by
    rw [haccepted, ← add_sub_right_comm, ← hset]
    exact hdeadline (.inr (by rw [hfuture]; rfl))
  refine ⟨hlocal, fun result reading hresult => ?_⟩
  obtain ⟨earlier, later, hlog⟩ := List.append_of_mem hresult
  have hintime := (Batcher.account_of_reachable hattended.batcher).justified _ _ _ hlog
  calc reading - workerNow delivery.address
      ≤ envelope.localDeadline - workerNow delivery.address := sub_le_sub_right hintime.1 _
    _ ≤ before.gateway.now - gatewayNow + (call.timeoutMs : ℚ) / 1000 := hlocal

/-! ## A run -/

/-- The state a list of events leads to if the clocks of the workers are 5 s ahead. -/
def sampleAhead (events : List Event) : Cluster :=
  (machine sampleConfig).after (initial sampleConfig 0 fun _ => 5) events

/-- A call is about to start. -/
def untilStart : List Event :=
  [firstWorker .ready, .gateway (.probe "worker-1" (.reply (sampleReply .ready))),
    .gateway (.call "r0" ["good"] "tinybert-sst2-v1" 1000)]

/-- The call has sent its RPC, which reaches the worker. -/
def untilDelivered : List Event :=
  untilStart ++ [.gateway (.start 0)] ++ List.replicate 4 (.gateway .run) ++ [.deliver 0 0]

/-- The handler starts a tenth of a second later, with all the time that is left. -/
def untilPredict : List Event :=
  untilDelivered ++ [.elapse (1 / 10)] ++ [firstWorker (.predict 0 (some (9 / 10)))]

/-- The request is executed, and its result is set. -/
def untilResult : List Event :=
  untilPredict ++ ([firstWorker .enqueue, firstWorker (.wake .started)]
    ++ List.replicate 4 (firstWorker .run) ++ [firstWorker (.wake .timeout)]
    ++ List.replicate 3 (firstWorker .run)
    ++ [firstWorker (.wake (.modelReturns ⟨[("positive", 1)], 0, 0, 0⟩)), firstWorker .run])

/-- Events in which no time passes and no handler starts. -/
def Plain : Event → Prop
  | .elapse _ => False
  | .gateway event => ∀ elapsed, event ≠ .tick elapsed
  | .worker _ event => (∀ elapsed, event ≠ .tick elapsed) ∧
      ∀ id timeRemaining, event ≠ .predict id timeRemaining
  | .deliver _ _ | .answer _ => True

theorem synchronous_of_plain {event : Event} (h : Plain event) (c : Cluster) :
    c.Synchronous event := by
  cases event with
  | elapse _ => exact h.elim
  | gateway _ => exact h
  | worker address event => exact ⟨h.1, fun id remaining heq => absurd heq (h.2 id _)⟩
  | deliver _ _ | answer _ => trivial

theorem reachable_of_plain {origin : Cluster} {before later : List Event}
    (hreach : ((machine sampleConfig).startingAt origin).ReachableBy Synchronous
      (sampleAhead before)) (hplain : ∀ event ∈ later, Plain event)
    (hlater : ((machine sampleConfig).exec (initial sampleConfig 0 fun _ => 5)
      (before ++ later)).isSome) :
    ((machine sampleConfig).startingAt origin).ReachableBy Synchronous
      (sampleAhead (before ++ later)) :=
  hreach.run (Machine.run_startingAt_iff.mpr (Machine.run_after_append hlater))
    fun event hmem c => synchronous_of_plain (hplain event hmem) c

theorem step_sampleAhead {before : List Event} {event : Event}
    (h : ((machine sampleConfig).exec (initial sampleConfig 0 fun _ => 5)
      (before ++ [event])).isSome) :
    (sampleAhead before).step sampleConfig event = some (sampleAhead (before ++ [event])) :=
  Machine.run_singleton_iff.mp (Machine.run_after_append h)

theorem reachable_of_event {origin : Cluster} {before : List Event} {event : Event}
    (hreach : ((machine sampleConfig).startingAt origin).ReachableBy Synchronous
      (sampleAhead before)) (hallowed : (sampleAhead before).Synchronous event)
    (hevent : ((machine sampleConfig).exec (initial sampleConfig 0 fun _ => 5)
      (before ++ [event])).isSome) :
    ((machine sampleConfig).startingAt origin).ReachableBy Synchronous
      (sampleAhead (before ++ [event])) := by
  have hstep := step_sampleAhead hevent
  exact hreach.step hallowed hstep

theorem reachable_untilStart :
    ((machine sampleConfig).startingAt (initial sampleConfig 0 fun _ => 5)).ReachableBy Synchronous
      (sampleAhead untilStart) := by
  have hinitial : ((machine sampleConfig).startingAt
      (initial sampleConfig 0 fun _ => 5)).ReachableBy Synchronous (sampleAhead []) :=
    .initial rfl
  refine reachable_of_plain hinitial ?_ (by decide +kernel)
  simp [firstWorker, Plain]

theorem synchronous_predict : (sampleAhead (untilDelivered ++ [.elapse (1 / 10)])).Synchronous
    (firstWorker (.predict 0 (some (9 / 10)))) := by
  have hnow : (sampleAhead (untilDelivered ++ [.elapse (1 / 10)])).gateway.now = 1 / 10 := by
    decide +kernel
  have hall : ∀ call ∈ (sampleAhead (untilDelivered ++ [.elapse (1 / 10)])).gateway.calls,
      ∀ rpc ∈ call.sent, rpc.timeout = 1 ∧ rpc.sentAt = 0 := by
    decide +kernel
  refine ⟨by simp, ?_⟩
  rintro id remaining heq delivery _ _ _ sender sent hsender hsent
  obtain ⟨rfl, rfl⟩ : 0 = id ∧ 9 / 10 = remaining := by simpa using heq
  obtain ⟨htimeout, hsentAt⟩ :=
    hall sender (List.mem_of_getElem? hsender) sent (List.mem_of_getElem? hsent)
  rw [htimeout, hsentAt, hnow]
  decide +kernel

theorem reachable_untilResult :
    ((machine sampleConfig).startingAt
      (sampleAhead (untilStart ++ [.gateway (.start 0)]))).ReachableBy Synchronous
        (sampleAhead untilResult) := by
  have hdelivered : ((machine sampleConfig).startingAt
      (sampleAhead (untilStart ++ [.gateway (.start 0)]))).ReachableBy Synchronous
        (sampleAhead untilDelivered) := by
    unfold untilDelivered
    rw [List.append_assoc _ _ [_]]
    refine reachable_of_plain (.initial rfl) ?_ (by decide +kernel)
    simp [Plain]
  have hquiet : (sampleAhead untilDelivered).Synchronous (.elapse (1 / 10)) := by
    unfold Synchronous
    decide +kernel
  have helapsed := reachable_of_event hdelivered hquiet (by decide +kernel)
  have hpredict := reachable_of_event helapsed synchronous_predict (by decide +kernel)
  refine reachable_of_plain hpredict ?_ (by decide +kernel)
  simp [firstWorker, Plain]

theorem deadline_kept_delivered :
    let envelope : RequestEnvelope := ⟨"r0", ["good"], 6, 51 / 10, 0⟩
    let worker := (sampleAhead untilResult).servicer "worker-1:50051"
    envelope ∈ worker.batcher.acceptedLine ∧
      envelope.localDeadline - 5 ≤ 0 - 0 + ((1000 : ℤ) : ℚ) / 1000 ∧
      ∀ result reading, .resultSet envelope result reading ∈ worker.batcher.log →
        reading - 5 ≤ 0 - 0 + ((1000 : ℤ) : ℚ) / 1000 := by
  intro envelope worker
  have haccepted : envelope ∈ worker.batcher.acceptedLine := by decide +kernel
  have hlength : (sampleAhead untilStart).gateway.calls.length = 1 := by decide +kernel
  obtain ⟨call, hcalls⟩ := List.length_eq_one_iff.mp hlength
  have hcall : (sampleAhead untilStart).gateway.calls[0]? = some call := by rw [hcalls]; rfl
  have htimeout : call.timeoutMs = 1000 := by
    have hmap : (sampleAhead untilStart).gateway.calls.map Call.timeoutMs = [1000] := by
      decide +kernel
    simpa [hcalls] using hmap
  have hnow : (sampleAhead untilStart).gateway.now = 0 := by decide +kernel
  have hstart : (sampleAhead untilStart).step sampleConfig (.gateway (.start 0)) =
      some (sampleAhead (untilStart ++ [.gateway (.start 0)])) :=
    step_sampleAhead (by decide +kernel)
  have hdelivery : ⟨0, 0, "worker-1:50051", 0⟩ ∈ (sampleAhead untilResult).deliveries := by
    decide +kernel
  have hhandler : worker.handlers[0]? =
      some ⟨⟨"r0", "tinybert-sst2-v1", ["good"]⟩, 6, some 0, .awaitResult⟩ := by
    decide +kernel
  have hkept := deadline_kept reachable_untilStart hcall hstart reachable_untilResult hdelivery rfl
    hhandler haccepted rfl
  rw [hnow, htimeout] at hkept
  exact ⟨haccepted, hkept⟩

end Cluster
end ModelServer
