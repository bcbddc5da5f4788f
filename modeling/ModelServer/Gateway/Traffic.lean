import ModelServer.Gateway.HealthHistory
import ModelServer.Gateway.Reservations

/-!
# Which workers get traffic

Seen from one worker, a run of the gateway is a run of the health state machine:
its probes and the predictions that ended with `UNAVAILABLE` are the events, and
everything else leaves its health alone (`healthSimulation`).  What the health
state machine says about its runs therefore holds for the gateway, for any number
of calls in any order.
-/

namespace ModelServer

open Asyncio Transition

/-- The worker whose answer a call is waiting for. -/
def CallPoint.awaited : CallPoint → Option String
  | .awaitRpc _ worker => some worker
  | _ => none

def Shared.health (s : Shared) (worker : String) : Health :=
  (s.scheduler.registry.node worker).toHealth

namespace Gateway

variable {config : GatewayConfig}

def awaited (g : Gateway) (id : ℕ) : Option String :=
  g.calls[id]?.bind fun call => call.point.awaited

/-- What an event means for the health of one worker. -/
def verdicts (config : GatewayConfig) (worker : String) (g : Gateway) :
    Event → List HealthEvent
  | .probe probed outcome => if probed = worker then [outcome.verdict config] else []
  | .rpcResult id (.status .unavailable _) =>
      if g.awaited id = some worker then [.unavailable] else []
  | _ => []

/-- The outcomes of the probes of one worker, in order. -/
def probesOf (worker : String) (events : List Event) : List ProbeOutcome :=
  events.filterMap fun event =>
    match event with
    | .probe probed outcome => if probed = worker then some outcome else none
    | _ => none

/-! ## One step -/

theorem health_of_setNode (registry : WorkerRegistry) (changed worker : String)
    {node : WorkerNode} (h : node.toHealth = (registry.node changed).toHealth) :
    ((registry.setNode changed node).node worker).toHealth = (registry.node worker).toHealth := by
  rw [WorkerRegistry.setNode_node, Function.update_apply]
  split
  · rename_i heq
    rw [h, heq]
  · rfl

theorem health_markUnhealthy {s : Shared} {marked : String}
    (hmarked : marked ∈ s.scheduler.registry.ids) (worker : String) :
    (s.markUnhealthy config marked).health worker =
      if marked = worker then (s.health worker).next config .unavailable
      else s.health worker := by
  simp only [Shared.health, Shared.markUnhealthy_scheduler_registry,
    WorkerRegistry.markUnhealthyImmediately, if_pos hmarked, WorkerRegistry.setNode_node,
    Function.update_apply]
  by_cases heq : worker = marked
  · rw [if_pos heq, if_pos heq.symm, WorkerNode.toHealth_markUnhealthy, heq]
  · rw [if_neg heq, if_neg (Ne.symm heq)]

theorem health_probe (config : GatewayConfig) (s : Shared) (probed : String)
    (outcome : ProbeOutcome) (worker : String) :
    (s.probe config probed outcome).health worker =
      if probed = worker then (s.health worker).next config (outcome.verdict config)
      else s.health worker := by
  simp only [Shared.health, Shared.probe_scheduler_registry, WorkerRegistry.pollWorkerHealth,
    WorkerRegistry.setNode_node, Function.update_apply]
  by_cases heq : worker = probed
  · rw [if_pos heq, if_pos heq.symm, WorkerNode.toHealth_pollHealth, heq]
  · rw [if_neg heq, if_neg (Ne.symm heq)]

theorem health_of_callStep {s next : Shared} {id : ℕ} {call moved : Call} {event : Event}
    (hmove : CallStep config s id call event next moved) (h : Holding s call) (worker : String) :
    next.health worker = s.health worker ∧
        (∀ details, event = .rpcResult id (.status .unavailable details) →
          call.point.awaited ≠ some worker) ∨
      (∃ details, event = .rpcResult id (.status .unavailable details)) ∧
        call.point.awaited = some worker ∧
        next.health worker = (s.health worker).next config .unavailable := by
  cases hmove
  case selects hselect =>
    refine .inl ⟨?_, by simp⟩
    simp only [Shared.health, Shared.selected_scheduler,
      (Scheduler.selectWorker_spec hselect).registry]
    exact health_of_setNode _ _ _ (WorkerNode.reserve_toHealth _)
  case goesOn | loopEnds | leaves =>
    refine .inl ⟨?_, by simp⟩
    simp only [Shared.health, Shared.rests_scheduler, Shared.released_scheduler,
      Scheduler.releaseWorker]
    split
    · exact health_of_setNode _ _ _ (WorkerNode.unreserve_toHealth _)
    · rfl
  case rpcUnavailable attempt failed details _ hpoint =>
    have hregistered : failed ∈ s.scheduler.registry.ids := by
      refine h.registered failed ?_
      simp [h.reserved, hpoint, CallPoint.holding]
    by_cases heq : failed = worker
    · exact .inr ⟨⟨details, rfl⟩, by simp [hpoint, CallPoint.awaited, heq],
        (health_markUnhealthy hregistered worker).trans (if_pos heq)⟩
    · exact .inl ⟨(health_markUnhealthy hregistered worker).trans (if_neg heq),
        fun _ _ => by simpa [hpoint, CallPoint.awaited] using heq⟩
  case rpcStatus code details _ _ _ hcode _ =>
    refine .inl ⟨rfl, fun details' heq => ?_⟩
    simp only [Event.rpcResult.injEq, RpcOutcome.status.injEq] at heq
    exact absurd heq.2.1 hcode
  all_goals exact .inl ⟨rfl, by simp⟩

/-- The health of a worker does what the verdicts of the event say. -/
theorem health_of_step {g next : Gateway} {event : Event} (hstep : Step config g event next)
    (h : Reservations config g) (worker : String) :
    (Health.machine config).Run (g.health worker) (g.verdicts config worker event)
      (next.health worker) := by
  cases hstep with
  | tick _ | call _ => exact Machine.run_nil_iff.mpr rfl
  | @probe probed outcome _ _ =>
      by_cases heq : probed = worker
      · have hhealth := (health_probe config g.toShared probed outcome worker).trans (if_pos heq)
        simp only [verdicts, if_pos heq]
        exact Machine.run_singleton_iff.mpr (congrArg some hhealth.symm)
      · have hhealth := (health_probe config g.toShared probed outcome worker).trans (if_neg heq)
        simp only [verdicts, if_neg heq]
        exact Machine.run_nil_iff.mpr hhealth.symm
  | @move event id call moved s hcall hmove =>
      have hawaited : g.awaited id = call.point.awaited := by simp [awaited, hcall]
      have hholding := h.holding call (List.mem_of_getElem? hcall)
      rcases health_of_callStep hmove hholding worker with
        ⟨hsame, hother⟩ | ⟨⟨details, rfl⟩, hworker, hfailed⟩
      · have hnothing : g.verdicts config worker event = [] := by
          cases hmove
          case rpcUnavailable details _ hpoint =>
            exact if_neg (hawaited ▸ hother details rfl)
          case rpcStatus hcode _ =>
            simp only [verdicts]
            split <;> simp_all
          all_goals rfl
        rw [hnothing]
        exact Machine.run_nil_iff.mpr hsame.symm
      · simp only [verdicts, hawaited, if_pos hworker]
        exact Machine.run_singleton_iff.mpr (congrArg some hfailed.symm)

/-- **Refinement.**  Seen from one worker, the gateway is a health state machine. -/
def healthSimulation (config : GatewayConfig) (worker : String) :
    Machine.Simulation (machine config) (Health.machine config) where
  abs g := g.health worker
  emit g event := g.verdicts config worker event
  initial := by
    rintro g ⟨now, rfl⟩
    rfl
  step := by
    intro g event next hreach hstep
    exact health_of_step (step_of_reachable hreach hstep) (reservations_of_reachable hreach) worker

/-! ## Runs -/

theorem reply_of_compatible {outcome : ProbeOutcome}
    (h : outcome.verdict config = .compatible) : ∃ resp, outcome = .reply resp ∧
      resp.modelVersion = config.modelVersion ∧ resp.modelSha256 = config.modelSha256 ∧
      (resp.state = .ready ∨ resp.state = .starting) := by
  cases outcome with
  | rpcFailed => simp [ProbeOutcome.verdict] at h
  | reply resp =>
      simp only [ProbeOutcome.verdict] at h
      split at h
      · cases h
      · split at h
        · rename_i hcompatible
          exact ⟨resp, rfl, by simpa [WorkerNode.compatible] using hcompatible⟩
        · cases h

theorem probes_verdicts (worker : String) (g : Gateway) (event : Event) :
    Health.probes (g.verdicts config worker event) =
      (probesOf worker [event]).map (ProbeOutcome.verdict config) := by
  cases event with
  | probe probed outcome =>
      have hprobe := outcome.verdict_ne_unavailable config
      by_cases heq : probed = worker <;> simp [verdicts, probesOf, Health.probes, heq, hprobe]
  | rpcResult id outcome =>
      rcases outcome with resp | ⟨code, details⟩ | _
      · rfl
      · by_cases hcode : code = .unavailable
        · subst hcode
          by_cases hawaited : g.awaited id = some worker <;>
            simp [verdicts, probesOf, Health.probes, hawaited]
        · simp [verdicts, hcode, probesOf, Health.probes]
      · rfl
  | _ => rfl

/-- The probes of the health state machine are the probes of the worker. -/
theorem probes_trace {worker : String} {first last : Gateway} {events : List Event}
    (hrun : (machine config).Run first events last) :
    Health.probes ((healthSimulation config worker).trace first events) =
      (probesOf worker events).map (ProbeOutcome.verdict config) := by
  induction events generalizing first with
  | nil => rfl
  | cons event events ih =>
      obtain ⟨next, hnext, hrest⟩ := Machine.run_cons_iff.mp hrun
      have hprobes : probesOf worker (event :: events) =
          probesOf worker [event] ++ probesOf worker events := by
        rw [probesOf, ← List.singleton_append]
        exact List.filterMap_append
      simp only [Machine.Simulation.trace, hnext, hprobes, List.map_append, ← ih hrest,
        ← probes_verdicts worker first event]
      exact List.filter_append _ _

/-- **Who gets traffic.**  Whenever `select_worker` returns a worker, there is a reply of
it with the configured model version and checksum and `READY` or `STARTING`, after which
only failed or incompatible probes have come, fewer than the failure threshold. -/
theorem selected_recently_compatible {first g : Gateway} {events : List Event}
    (hinitial : (machine config).Initial first) (hrun : (machine config).Run first events g)
    {excludeIds : Finset String} {worker : String} {scheduler : Scheduler}
    (hselect : g.scheduler.selectWorker config excludeIds = .ok (worker, scheduler)) :
    ∃ before resp after, probesOf worker events = before ++ .reply resp :: after ∧
      resp.modelVersion = config.modelVersion ∧ resp.modelSha256 = config.modelSha256 ∧
      (resp.state = .ready ∨ resp.state = .starting) ∧
      (∀ outcome ∈ after, outcome.verdict config = .failed) ∧
      (after.length : ℤ) < max 1 config.healthFailureThreshold := by
  have hhealth : (Health.machine config).Run {}
      ((healthSimulation config worker).trace first events) (g.health worker) := by
    have hfresh : first.health worker = {} := by
      obtain ⟨now, rfl⟩ := hinitial
      rfl
    exact hfresh ▸ (healthSimulation config worker).run (.initial hinitial) hrun
  have hhealthy : (g.health worker).state = .healthy :=
    (Scheduler.selectWorker_spec hselect).eligible.2.1
  obtain ⟨before, after, htrace, hfailed, hfew⟩ := Health.healthy_of_run hhealth hhealthy
  -- the failed events are probes, so nothing is lost in passing to the probes
  have hprobes : (probesOf worker events).map (ProbeOutcome.verdict config) =
      Health.probes before ++ .compatible :: after := by
    have hafter : Health.probes after = after := by
      refine List.filter_eq_self.mpr fun event hmem => ?_
      simp [hfailed event hmem]
    rw [← probes_trace hrun, htrace, Health.probes, List.filter_append, List.filter_cons_of_pos
      (by simp)]
    exact congrArg (Health.probes before ++ .compatible :: ·) hafter
  obtain ⟨earlier, rest, hsplit, _, hrest⟩ := List.map_eq_append_iff.mp hprobes
  obtain ⟨reply, later, rfl, hreply, hlater⟩ := List.map_eq_cons_iff.mp hrest
  obtain ⟨resp, rfl, hcompatible⟩ := reply_of_compatible hreply
  refine ⟨earlier, resp, later, hsplit, hcompatible.1, hcompatible.2.1, hcompatible.2.2, ?_, ?_⟩
  · intro outcome hmem
    exact hfailed _ (hlater ▸ List.mem_map_of_mem hmem)
  · rwa [← hlater, List.length_map] at hfew

/-- The reply of a worker that runs another model and says no state. -/
def otherReply : StatusResponse :=
  { sampleReply .unspecified with modelVersion := "tinybert-sst2-v2", modelSha256 := "" }

/-- The first worker answers its first probe as `READY`, then for another model, and then
not at all. -/
def exchanged : List Event :=
  [.probe "worker-1" (.reply (sampleReply .ready)), .probe "worker-1" (.reply otherReply),
    .probe "worker-1" .rpcFailed]

theorem picked_exchanged : (sample {} exchanged).scheduler.picked {} ∅ = some "worker-1" := by
  decide +kernel

theorem selected_recently_compatible_exchanged : ∃ scheduler,
    (sample {} exchanged).scheduler.selectWorker {} ∅ = .ok ("worker-1", scheduler) ∧
      ∃ before resp after,
        probesOf "worker-1" exchanged = before ++ .reply resp :: after ∧
        resp.modelVersion = GatewayConfig.modelVersion {} ∧
        resp.modelSha256 = GatewayConfig.modelSha256 {} ∧
        (resp.state = .ready ∨ resp.state = .starting) ∧
        (∀ outcome ∈ after, outcome.verdict {} = .failed) ∧
        (after.length : ℤ) < max 1 (GatewayConfig.healthFailureThreshold {}) := by
  obtain ⟨scheduler, hselect⟩ := Scheduler.selects_of_picked picked_exchanged
  have hrun : (machine {}).Run (initial {} 0) exchanged (sample {} exchanged) :=
    Machine.run_after rfl
  exact ⟨scheduler, hselect, selected_recently_compatible ⟨0, rfl⟩ hrun hselect⟩

/-- The status replies that were processed, in order. -/
def repliesOf (worker : String) (events : List Event) : List StatusResponse :=
  (probesOf worker events).filterMap fun outcome =>
    match outcome with
    | .reply resp => some resp
    | .rpcFailed => none

/-- With the default configuration, the replies of a worker are such whenever it is selected. -/
def SelectedAfter (replies : List StatusResponse → Prop) : Prop :=
  ∀ (first g : Gateway) (events : List Event), (machine {}).Initial first →
    (machine {}).Run first events g → ∀ (excludeIds : Finset String) (worker : String)
    (scheduler : Scheduler), g.scheduler.selectWorker {} excludeIds = .ok (worker, scheduler) →
    replies (repliesOf worker events)

theorem SelectedAfter.replies {replies : List StatusResponse → Prop} (h : SelectedAfter replies)
    {events : List Event}
    (hpicked : (sample {} events).scheduler.picked {} ∅ = some "worker-1")
    (hrun : ((machine {}).exec (initial {} 0) events).isSome) :
    replies (repliesOf "worker-1" events) := by
  obtain ⟨scheduler, hselect⟩ := Scheduler.selects_of_picked hpicked
  exact h _ _ _ ⟨0, rfl⟩ (Machine.run_after hrun) _ _ _ hselect

/-- The last reply of a selected worker need not have the configured model and `READY`: a
worker that only ever said `STARTING` is selected, and so is one whose last reply has
another version, another checksum and neither state. -/
theorem unready_worker_selected :
    ¬ SelectedAfter (fun replies => ∃ resp ∈ replies.getLast?,
        resp.modelVersion = GatewayConfig.modelVersion {} ∧
        resp.modelSha256 = GatewayConfig.modelSha256 {} ∧ resp.state = .ready) ∧
      ¬ SelectedAfter (fun replies => ∃ resp ∈ replies, resp.state = .ready) ∧
      ¬ SelectedAfter (fun replies => ∃ resp ∈ replies.getLast?,
        resp.modelVersion = GatewayConfig.modelVersion {} ∨
        resp.modelSha256 = GatewayConfig.modelSha256 {} ∨
        resp.state = .ready ∨ resp.state = .starting) := by
  have hstarting : (sample {} [.probe "worker-1" (.reply (sampleReply .starting))]).scheduler.picked
      {} ∅ = some "worker-1" := by
    decide +kernel
  refine ⟨fun h => ?_, fun h => ?_, fun h => ?_⟩
  · exact absurd (h.replies picked_exchanged rfl) (by decide)
  · exact absurd (h.replies hstarting rfl) (by decide)
  · exact absurd (h.replies picked_exchanged rfl) (by decide)

/-! ## Quarantine -/

/-- A worker that a call has reserved has left `STARTING`. -/
def ReservedStarted (g : Gateway) : Prop :=
  ∀ call ∈ g.calls, ∀ worker ∈ call.reserved, (g.health worker).Started

theorem reservedStarted_of_step {g next : Gateway} {event : Event}
    (hstep : Step config g event next) (hreservations : Reservations config g)
    (h : ReservedStarted g) : ReservedStarted next := by
  have hkept : ∀ worker, (g.health worker).Started → (next.health worker).Started :=
    fun worker => Health.started_of_run (health_of_step hstep hreservations worker)
  cases hstep with
  | tick _ | probe _ _ =>
      intro call hcall worker hmem
      exact hkept worker (h call hcall worker hmem)
  | call hrunning =>
      intro call hcall worker hmem
      rcases List.mem_append.mp hcall with hold | hnew
      · exact hkept worker (h call hold worker hmem)
      · rw [List.mem_singleton.mp hnew] at hmem
        exact absurd hmem List.not_mem_nil
  | move hcall hmove =>
      intro other hother worker hmem
      rcases List.mem_or_eq_of_mem_set hother with hold | rfl
      · exact hkept worker (h other hold worker hmem)
      · refine hkept worker ?_
        have hmover := h _ (List.mem_of_getElem? hcall)
        rcases reserved_of_callStep hmove with hfewer | ⟨selected, hreserved, hhealthy, _⟩
        · refine hmover worker (List.count_pos_iff.mp ?_)
          exact (List.count_pos_iff.mpr hmem).trans_le (hfewer worker)
        · rw [hreserved, List.mem_append, List.mem_singleton] at hmem
          rcases hmem with hold | rfl
          · exact hmover worker hold
          · unfold Health.Started
            rw [show (g.health worker).state = .healthy from hhealthy]
            exact nofun

theorem reservedStarted_of_reachable {g : Gateway} (hreach : (machine config).Reachable g) :
    ReservedStarted g := by
  apply hreach.invariant
  · rintro g ⟨now, rfl⟩ call hcall
    exact absurd hcall List.not_mem_nil
  · intro g event next hbefore h hevent
    exact reservedStarted_of_step (step_of_reachable hbefore hevent)
      (reservations_of_reachable hbefore) h

/-- **Quarantine.**  After an attempt on a worker has ended with `UNAVAILABLE`, that worker
is not selected until its probes since then contain as many compatible replies in a row as
the recovery threshold asks for; if the failure found the worker unhealthy already, a row
that begins at once is given credit for the successes the worker had then. -/
theorem selected_recovered {failing failed g : Gateway} {id : ℕ} {details : Option String}
    {worker : String} (hreach : (machine config).Reachable failing)
    (hawaited : failing.awaited id = some worker)
    (hfailure : failing.step config (.rpcResult id (.status .unavailable details)) = some failed)
    {events : List Event} (hrun : (machine config).Run failed events g)
    {excludeIds : Finset String} {scheduler : Scheduler}
    (hselect : g.scheduler.selectWorker config excludeIds = .ok (worker, scheduler)) :
    Health.Recovered config (failing.health worker).credit
      ((probesOf worker events).map (ProbeOutcome.verdict config)) := by
  have hfailed : (machine config).Reachable failed := reachable_of_step hreach hfailure
  have hmarked : failed.health worker = (failing.health worker).next config .unavailable := by
    have hstep := health_of_step (step_of_reachable hreach hfailure)
      (reservations_of_reachable hreach) worker
    simp only [verdicts, hawaited, if_true] at hstep
    exact (Option.some.inj (Machine.run_singleton_iff.mp hstep)).symm
  have hstarted : (failing.health worker).Started := by
    obtain ⟨call, hcall, hpoint⟩ := Option.bind_eq_some_iff.mp hawaited
    have hmem := List.mem_of_getElem? hcall
    refine reservedStarted_of_reachable hreach call hmem worker ?_
    rw [((reservations_of_reachable hreach).holding call hmem).reserved]
    cases hplace : call.point <;> simp_all [CallPoint.awaited, CallPoint.holding]
  have hhealthy : (g.health worker).state = .healthy :=
    (Scheduler.selectWorker_spec hselect).eligible.2.1
  have htrace := (healthSimulation config worker).run hfailed hrun
  rw [← probes_trace hrun]
  refine Health.recovered_of_run hstarted ?_ hhealthy
  rw [← hmarked]
  exact htrace

/-- Of two calls on the only healthy worker the first has ended with `UNAVAILABLE`, and
the worker has answered one probe since. -/
def oneFailed : List Event :=
  busyRun ++ [.rpcResult 0 (.status .unavailable none)] ++ List.replicate 6 .run
    ++ [.probe "worker-1" (.reply (sampleReply .ready))]

/-- The second call ends with `UNAVAILABLE`. -/
def lateFailure : Event := .rpcResult 1 (.status .unavailable none)

/-- The worker answers one more probe. -/
def afterLateFailure : List Event :=
  List.replicate 6 .run ++ [.probe "worker-1" (.reply (sampleReply .ready))]

theorem step_lateFailure : (sample {} oneFailed).step {} lateFailure =
    some (sample {} (oneFailed ++ [lateFailure])) := by
  have hrun : (machine {}).Run (sample {} oneFailed) [lateFailure]
      (sample {} (oneFailed ++ [lateFailure])) := Machine.run_after_append (by decide +kernel)
  exact Machine.run_singleton_iff.mp hrun

theorem run_afterLateFailure : (machine {}).Run (sample {} (oneFailed ++ [lateFailure]))
    afterLateFailure (sample {} (oneFailed ++ [lateFailure] ++ afterLateFailure)) :=
  Machine.run_after_append (by decide +kernel)

theorem picked_afterLateFailure :
    (sample {} (oneFailed ++ [lateFailure] ++ afterLateFailure)).scheduler.picked {} ∅ =
      some "worker-1" := by
  decide +kernel

theorem selected_recovered_late : ∃ scheduler,
    (sample {} (oneFailed ++ [lateFailure] ++ afterLateFailure)).scheduler.selectWorker {} ∅ =
      .ok ("worker-1", scheduler) ∧
    ((sample {} oneFailed).health "worker-1").credit = 1 ∧
    Health.Recovered {} ((sample {} oneFailed).health "worker-1").credit
      ((probesOf "worker-1" afterLateFailure).map (ProbeOutcome.verdict {})) := by
  obtain ⟨scheduler, hselect⟩ := Scheduler.selects_of_picked picked_afterLateFailure
  exact ⟨scheduler, hselect, by decide +kernel, selected_recovered (reachable_sample {} oneFailed)
    (by decide +kernel) step_lateFailure run_afterLateFailure hselect⟩

/-- A failure that finds the worker unhealthy does not take away the success it has. -/
theorem late_failure_changes_nothing :
    ¬ ∀ (failing failed g : Gateway) (id : ℕ) (details : Option String) (worker : String)
      (events : List Event), (machine {}).Reachable failing → failing.awaited id = some worker →
      failing.step {} (.rpcResult id (.status .unavailable details)) = some failed →
      (machine {}).Run failed events g → ∀ (excludeIds : Finset String) (scheduler : Scheduler),
      g.scheduler.selectWorker {} excludeIds = .ok (worker, scheduler) →
      Health.Recovered {} 0 ((probesOf worker events).map (ProbeOutcome.verdict {})) := by
  intro hquarantined
  obtain ⟨scheduler, hselect⟩ := Scheduler.selects_of_picked picked_afterLateFailure
  obtain ⟨before, row, after, hprobes, _, hlength⟩ := hquarantined _ _ _ _ _ _ _
    (reachable_sample {} oneFailed) (by decide +kernel) step_lateFailure run_afterLateFailure _ _
    hselect
  have honce : (probesOf "worker-1" afterLateFailure).map (ProbeOutcome.verdict {}) =
      [.compatible] := by
    decide +kernel
  rw [honce] at hprobes
  have hshort := congrArg List.length hprobes
  simp only [List.length_append, List.length_singleton, ite_self] at hshort hlength
  have hthreshold : GatewayConfig.healthRecoveryThreshold {} = 2 := rfl
  omega

end Gateway
end ModelServer
