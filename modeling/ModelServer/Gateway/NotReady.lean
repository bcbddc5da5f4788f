import ModelServer.Gateway.Traffic

/-!
# What a worker that is not ready keeps getting

`FAILED_PRECONDITION` only becomes a `WorkerUnavailableError`: unlike `UNAVAILABLE`
it leaves the registry alone.  Whether the worker gets more traffic is therefore
decided by the state it was in when the answer came.

* If it was not healthy, it is selected again only after a compatible probe:
  nothing else makes a worker healthy (`not_healthy_of_run`).
* If it was healthy it still is.  Its reservation is released, so that it is below
  the limit, and when the other workers are seen draining it is the one that the
  next call selects (`selecting_of_alone`).
-/

namespace ModelServer

open Asyncio Transition

/-- Only a compatible probe makes a worker healthy. -/
theorem Health.not_healthy_of_run {config : GatewayConfig} {first last : Health}
    {events : List HealthEvent} (hrun : (Health.machine config).Run first events last)
    (hevents : .compatible ∉ events) (h : first.state ≠ .healthy) : last.state ≠ .healthy := by
  have hstays : ∀ health event next, event ∈ events → health.state ≠ .healthy →
      (Health.machine config).step health event = some next → next.state ≠ .healthy := by
    intro health event next hmem hstate hstep
    obtain rfl := Option.some.inj hstep
    cases event with
    | compatible => exact absurd hmem hevents
    | failed => simp [Health.next, hstate]
    | draining => simp [Health.next]
    | unavailable => simp [Health.next, hstate]
  exact hrun.preserves h hstays

namespace Gateway

variable {config : GatewayConfig}

/-- A call is in `select_worker`, which is going to return `worker`. -/
def Selecting (config : GatewayConfig) (g : Gateway) (worker : String) : Prop :=
  ∃ id call attempt remaining scheduler, g.running = some id ∧ g.calls[id]? = some call ∧
    call.point = .critical (.select attempt remaining) ∧
    g.scheduler.selectWorker config call.excludeIds = .ok (worker, scheduler)

/-- From `g` on, `worker` is selected only after a compatible probe. -/
def KeptOut (config : GatewayConfig) (g : Gateway) (worker : String) : Prop :=
  ∀ events last, (machine config).Run g events last → Selecting config last worker →
    .compatible ∈ (probesOf worker events).map (ProbeOutcome.verdict config)

theorem keptOut_of_not_healthy {g : Gateway} {worker : String}
    (hreach : (machine config).Reachable g) (h : (g.health worker).state ≠ .healthy) :
    KeptOut config g worker := by
  intro events last hrun hselecting
  obtain ⟨_, _, _, _, _, _, _, _, hselect⟩ := hselecting
  have hhealthy : (last.health worker).state = .healthy :=
    (Scheduler.selectWorker_spec hselect).eligible.2.1
  by_contra hnone
  have htrace := (healthSimulation config worker).run hreach hrun
  refine Health.not_healthy_of_run htrace (fun hmem => hnone ?_) h hhealthy
  rw [← probes_trace hrun]
  exact List.mem_filter.mpr ⟨hmem, by simp⟩

/-! ## A healthy worker is selected again -/

/-- The gateway is at rest, and the worker is healthy and below the limit. -/
structure Available (config : GatewayConfig) (g : Gateway) (worker : String) : Prop where
  rest : g.running = none
  free : g.lock.Free
  registered : worker ∈ g.scheduler.registry.ids
  healthy : (g.scheduler.registry.node worker).state = .healthy
  below : (g.outstanding worker : ℤ) < config.gatewayMaxOutstandingPerWorker

/-- No other worker is healthy. -/
def Alone (g : Gateway) (worker : String) : Prop :=
  ∀ other ∈ g.scheduler.registry.ids, other ≠ worker →
    (g.scheduler.registry.node other).state ≠ .healthy

theorem selectWorker_of_alone {g : Gateway} {worker : String} (h : Available config g worker)
    (halone : Alone g worker) :
    ∃ scheduler, g.scheduler.selectWorker config ∅ = .ok (worker, scheduler) := by
  have heligible : worker ∈ g.scheduler.eligible config ∅ :=
    Scheduler.mem_eligible.mpr ⟨h.registered, h.healthy, Finset.notMem_empty _, h.below⟩
  have hhealthy : worker ∈ g.scheduler.healthyWorkers := (List.mem_filter.mp heligible).1
  cases hselect : g.scheduler.selectWorker config ∅ with
  | error error =>
      unfold Scheduler.selectWorker at hselect
      rw [if_neg (by simpa using List.ne_nil_of_mem hhealthy),
        dif_neg (List.ne_nil_of_mem heligible)] at hselect
      cases hselect
  | ok result =>
      obtain ⟨selected, scheduler⟩ := result
      obtain ⟨hregistered, hstate, _⟩ := (Scheduler.selectWorker_spec hselect).eligible
      have hsame : selected = worker := by
        by_contra hne
        exact halone selected hregistered hne hstate
      exact ⟨scheduler, by rw [hsame]⟩

/-- The other workers are seen draining, one after another. -/
def drainEvents (others : List String) : List Event :=
  others.map fun other => .probe other (.reply (sampleReply .draining))

theorem probesOf_drainEvents {worker : String} {others : List String} (h : worker ∉ others) :
    probesOf worker (drainEvents others) = [] := by
  simp only [probesOf, drainEvents, List.filterMap_map, List.filterMap_eq_nil_iff,
    Function.comp_apply]
  intro other hmem
  rw [if_neg]
  rintro rfl
  exact h hmem

theorem drained_of_available {worker : String} {others : List String} (hothers : worker ∉ others)
    {g : Gateway} (h : Available config g worker)
    (hregistered : ∀ other ∈ others, other ∈ g.scheduler.registry.ids) :
    ∃ last, (machine config).Run g (drainEvents others) last ∧ Available config last worker ∧
      last.calls = g.calls ∧ last.scheduler.registry.ids = g.scheduler.registry.ids ∧
      (∀ other ∈ others, (last.scheduler.registry.node other).state = .draining) ∧
      ∀ other ∉ others, last.scheduler.registry.node other = g.scheduler.registry.node other := by
  induction others generalizing g with
  | nil => exact ⟨g, Machine.run_nil_iff.mpr rfl, h, rfl, rfl, by simp, fun _ _ => rfl⟩
  | cons drained others ih =>
      have hne : worker ≠ drained := fun heq => hothers (heq ▸ List.mem_cons_self)
      have hrest : worker ∉ others := fun hmem => hothers (List.mem_cons_of_mem _ hmem)
      set next : Gateway :=
        { g with toShared := g.toShared.probe config drained (.reply (sampleReply .draining)) }
        with hnext
      have hnode : ∀ other, next.scheduler.registry.node other =
          if other = drained then (g.scheduler.registry.node drained).pollHealth config g.now
            (.reply (sampleReply .draining))
          else g.scheduler.registry.node other := by
        intro other
        simp only [hnext, Shared.probe_scheduler_registry, WorkerRegistry.pollWorkerHealth,
          WorkerRegistry.setNode_node, Function.update_apply]
      have hworker : next.scheduler.registry.node worker = g.scheduler.registry.node worker := by
        rw [hnode, if_neg hne]
      have hstep : g.step config (.probe drained (.reply (sampleReply .draining))) = some next := by
        simp [step, h.rest, hregistered drained List.mem_cons_self, hnext]
      have havailable : Available config next worker := by
        refine ⟨h.rest, h.free, h.registered, by rw [hworker, h.healthy], ?_⟩
        rw [Shared.outstanding, hworker]
        exact h.below
      obtain ⟨last, hrun, hlast, hcalls, hids, hdrained, hsame⟩ := ih hrest havailable
        fun other hmem => hregistered other (List.mem_cons_of_mem _ hmem)
      refine ⟨last, .cons hstep hrun, hlast, hcalls, hids, ?_, ?_⟩
      · intro other hmem
        by_cases hother : other ∈ others
        · exact hdrained other hother
        · obtain rfl : other = drained := by simpa [hother] using hmem
          rw [hsame other hother, hnode, if_pos rfl]
          rfl
      · intro other hmem
        rw [hsame other fun hother => hmem (List.mem_cons_of_mem _ hother), hnode, if_neg]
        rintro rfl
        exact hmem List.mem_cons_self

theorem step_run {g : Gateway} {id : ℕ} {call : Call} (hrunning : g.running = some id)
    (hcall : g.calls[id]? = some call) :
    g.step config .run = some (g.store id (call.advance config g.toShared id call.point)) := by
  simp [step, hrunning, hcall]

theorem step_start {g : Gateway} {id : ℕ} {call : Call} (hrest : g.running = none)
    (hcall : g.calls[id]? = some call) (hpoint : call.point = .start) :
    g.step config (.start id) = some (g.store id (call.advance config g.toShared id .start)) := by
  simp [step, guard, hrest, hcall, hpoint]

/-- A new call goes on to `select_worker`. -/
def callEvents (id : ℕ) : List Event :=
  [.call "" [] "" 1, .start id, .run, .run]

/-- Once it is the only healthy worker, the next call selects it. -/
theorem selecting_of_alone {g : Gateway} {worker : String} (h : Available config g worker)
    (halone : Alone g worker) :
    ∃ last, (machine config).Run g (callEvents g.calls.length) last ∧
      Selecting config last worker := by
  obtain ⟨scheduler, hselect⟩ := selectWorker_of_alone h halone
  let call := newCall "" [] "" 1
  let id := g.calls.length
  let arrived : Gateway := { g with calls := g.calls ++ [call] }
  let timed := (call.setDeadline g.now).goto (.budget .first)
  let started := arrived.store id (arrived.toShared.runs id, timed)
  let budgeted := (timed.setBudget g.now).goto (.acquire (.select .first (timed.remaining g.now)))
  let checked := started.store id (started.toShared, budgeted)
  let inside := budgeted.goto (.critical (.select .first (timed.remaining g.now)))
  let last := checked.store id (checked.toShared.holds { g.lock with locked := true }, inside)
  have hcall : g.step config (.call "" [] "" 1) = some arrived := if_pos h.rest
  have harrived : arrived.calls[id]? = some call := List.getElem?_concat_length
  have hstart : arrived.step config (.start id) = some started := step_start h.rest harrived rfl
  have hstarted : started.calls[id]? = some timed := getElem?_store_self harrived
  have hbudget : started.step config .run = some checked := by
    -- one millisecond is left
    have hpositive : (0 : Time) < 1000 := by decide
    have hleft : ¬ timed.remaining g.now ≤ 0 := by
      simp [timed, call, newCall, Call.remaining, hpositive]
    rw [step_run rfl hstarted]
    exact congrArg (fun outcome => some (started.store id outcome)) (if_neg hleft)
  have hchecked : checked.calls[id]? = some budgeted := getElem?_store_self hstarted
  have hacquire : checked.step config .run = some last := by
    have hlock : checked.lock.acquire = some { g.lock with locked := true } :=
      Lock.acquire_of_free h.free
    rw [step_run rfl hchecked]
    simp [Call.advance, budgeted, hlock, last, inside]
  refine ⟨last, .cons hcall (.cons hstart (.cons hbudget (.cons hacquire
    (Machine.run_nil_iff.mpr rfl)))), ?_⟩
  exact ⟨id, inside, .first, _, scheduler, rfl, getElem?_store_self hchecked, rfl, hselect⟩

/-- On a free lock a call in its `finally` releases its worker and leaves. -/
theorem run_leave {g : Gateway} {id : ℕ} {call : Call} {worker : String} {outcome : CallOutcome}
    (hrunning : g.running = some id) (hcall : g.calls[id]? = some call)
    (hpoint : call.point = .acquire (.release worker (.leave outcome))) (hfree : g.lock.Free) :
    ∃ last, (machine config).Run g [.run, .run] last ∧ last.running = none ∧ last.lock.Free ∧
      last.scheduler = g.scheduler.releaseWorker worker := by
  let releasing := call.goto (.critical (.release worker (.leave outcome)))
  let inside : Gateway := g.store id (g.toShared.holds { g.lock with locked := true }, releasing)
  let last : Gateway := inside.store id
    ((inside.toShared.released worker).rests, (releasing.released worker).goto (.finished outcome))
  have hacquire : g.step config .run = some inside := by
    rw [step_run hrunning hcall]
    simp [Call.advance, hpoint, Lock.acquire_of_free hfree, inside, releasing]
  have hrelease : inside.step config .run = some last := by
    have hstays : inside.running = some id := hrunning
    have hinside : inside.calls[id]? = some releasing := getElem?_store_self hcall
    exact step_run hstays hinside
  refine ⟨last, .cons hacquire (.cons hrelease (Machine.run_nil_iff.mpr rfl)), rfl, ?_, rfl⟩
  exact ⟨rfl, hfree.2⟩

/-- What the answer `FAILED_PRECONDITION` does: nothing to the registry. -/
theorem leaving_of_notReady {failing failed : Gateway} {id : ℕ} {details : Option String}
    {worker : String} (hawaited : failing.awaited id = some worker)
    (hfailure : failing.step config (.rpcResult id (.status .failedPrecondition details)) =
      some failed) :
    failing.running = none ∧ failed.running = some id ∧ failed.lock = failing.lock ∧
      failed.scheduler = failing.scheduler ∧
      ∃ call outcome, failed.calls[id]? = some call ∧
        call.point = .acquire (.release worker (.leave outcome)) := by
  obtain ⟨call, hcall, hpoint⟩ := Option.bind_eq_some_iff.mp hawaited
  obtain ⟨attempt, hpoint⟩ : ∃ attempt, call.point = .awaitRpc attempt worker := by
    cases hplace : call.point <;> simp_all [CallPoint.awaited]
  simp only [step, Option.bind_eq_bind, Option.bind_eq_some_iff] at hfailure
  obtain ⟨_, hrunning, found, hfound, hstored⟩ := hfailure
  obtain rfl : call = found := Option.some.inj (hcall.symm.trans hfound)
  rw [hpoint] at hstored
  obtain rfl := Option.some.inj hstored
  refine ⟨by simpa using hrunning, rfl, rfl, rfl, _, _, getElem?_store_self hcall, rfl⟩

theorem ids_releaseWorker (s : Scheduler) (worker : String) :
    (s.releaseWorker worker).registry.ids = s.registry.ids := by
  unfold Scheduler.releaseWorker
  split <;> rfl

theorem health_releaseWorker (s : Scheduler) (worker : String) :
    ((s.releaseWorker worker).registry.node worker).toHealth =
      (s.registry.node worker).toHealth := by
  unfold Scheduler.releaseWorker
  split
  · exact health_of_setNode _ _ _ (WorkerNode.unreserve_toHealth _)
  · rfl

/-- The worker that gave the answer is below the limit once its call has left. -/
theorem available_of_notReady {failing failed : Gateway} {id : ℕ} {details : Option String}
    {worker : String} (hreach : (machine config).Reachable failing)
    (hawaited : failing.awaited id = some worker)
    (hfailure : failing.step config (.rpcResult id (.status .failedPrecondition details)) =
      some failed) (hhealthy : (failing.health worker).state = .healthy) :
    ∃ last, (machine config).Run failed [.run, .run] last ∧ Available config last worker := by
  obtain ⟨hresting, hrunning, hlock, hscheduler, call, outcome, hcall, hpoint⟩ :=
    leaving_of_notReady hawaited hfailure
  have hfree : failed.lock.Free := hlock ▸ (orderly_of_reachable hreach).free hresting
  obtain ⟨last, hrun, hrest, hlast, hreleased⟩ := run_leave hrunning hcall hpoint hfree
  obtain ⟨waiting, hwaiting, hawaits⟩ := Option.bind_eq_some_iff.mp hawaited
  have hwaits : waiting ∈ failing.calls := List.mem_of_getElem? hwaiting
  have hreservations := reservations_of_reachable hreach
  have hholding := hreservations.holding waiting hwaits
  have hreserved : worker ∈ waiting.reserved := by
    rw [hholding.reserved]
    cases hplace : waiting.point <;> simp_all [CallPoint.awaited, CallPoint.holding]
  have hregistered := hholding.registered worker hreserved
  have hload := load_pos hreservations hwaits hreserved
  rw [hscheduler] at hreleased
  refine ⟨last, hrun, hrest, hlast, ?_, ?_, ?_⟩
  · rw [hreleased, ids_releaseWorker]
    exact hregistered
  · rw [hreleased]
    exact (congrArg Health.state (health_releaseWorker failing.scheduler worker)).trans hhealthy
  · have hbound := hreservations.bounded worker
    have hcount := Shared.outstanding_released hregistered hload worker
    have hlast : last.outstanding worker = (failing.released worker).outstanding worker := by
      simp only [Shared.outstanding, hreleased, Shared.released_scheduler]
    rw [List.count_singleton_self] at hcount
    omega

/-- **A worker that is not ready.**  After an attempt on a worker has ended with
`FAILED_PRECONDITION`, the worker is kept out until a compatible probe exactly if it was
not healthy when the answer came. -/
theorem keptOut_iff {failing failed : Gateway} {id : ℕ} {details : Option String}
    {worker : String} (hreach : (machine config).Reachable failing)
    (hawaited : failing.awaited id = some worker)
    (hfailure : failing.step config (.rpcResult id (.status .failedPrecondition details)) =
      some failed) :
    KeptOut config failed worker ↔ (failing.health worker).state ≠ .healthy := by
  obtain ⟨_, _, _, hscheduler, _⟩ := leaving_of_notReady hawaited hfailure
  have hsame : failed.health worker = failing.health worker := by
    simp only [Shared.health, hscheduler]
  constructor
  · intro hkept hhealthy
    obtain ⟨freed, hleave, havailable⟩ := available_of_notReady hreach hawaited hfailure hhealthy
    have hothers : worker ∉ freed.scheduler.registry.ids.filter (· ≠ worker) := by simp
    obtain ⟨drained, hdrain, hstill, _, hids, hdraining, _⟩ :=
      drained_of_available hothers havailable fun other hmem => (List.mem_filter.mp hmem).1
    have halone : Alone drained worker := by
      intro other hother hne
      rw [hdraining other (List.mem_filter.mpr ⟨hids ▸ hother, by simpa using hne⟩)]
      decide
    obtain ⟨last, hcall, hselecting⟩ := selecting_of_alone hstill halone
    have hprobed := hkept _ _ (hleave.append (hdrain.append hcall)) hselecting
    have hnone : probesOf worker ([.run, .run] ++
        (drainEvents (freed.scheduler.registry.ids.filter (· ≠ worker)) ++
          callEvents drained.calls.length)) = [] := by
      have hdrains := probesOf_drainEvents hothers
      simp only [probesOf, List.filterMap_append] at hdrains ⊢
      rw [hdrains]
      rfl
    rw [hnone] at hprobed
    exact absurd hprobed List.not_mem_nil
  · intro hstate
    exact keptOut_of_not_healthy (reachable_of_step hreach hfailure) (hsame ▸ hstate)

/-- The worker answers that it is not ready. -/
def notReady (id : ℕ) : Event := .rpcResult id (.status .failedPrecondition none)

theorem step_notReady {events : List Event} {id : ℕ}
    (h : ((machine {}).exec (initial {} 0) (events ++ [notReady id])).isSome) :
    (sample {} events).step {} (notReady id) = some (sample {} (events ++ [notReady id])) :=
  Machine.run_singleton_iff.mp (Machine.run_after_append h)

theorem keptOut_iff_unhealthy :
    KeptOut {} (sample {} (oneFailed ++ [notReady 1])) "worker-1" :=
  (keptOut_iff (reachable_sample {} oneFailed) (by decide +kernel)
    (step_notReady (by decide +kernel))).mpr (by decide +kernel)

/-- The call that got the answer leaves, and a new one goes on to `select_worker`. -/
def nextCall : List Event :=
  [.run, .run, .call "r2" ["c"] "tinybert-sst2-v1" 1000, .start 2, .run, .run]

/-- A healthy worker that is not ready gets the next call as well. -/
theorem not_ready_selected_again :
    ¬ ∀ (failing failed : Gateway) (id : ℕ) (details : Option String) (worker : String),
      (machine {}).Reachable failing → failing.awaited id = some worker →
      failing.step {} (.rpcResult id (.status .failedPrecondition details)) = some failed →
      KeptOut {} failed worker := by
  intro hkept
  have hrun : (machine {}).Run (sample {} (busyRun ++ [notReady 0])) nextCall
      (sample {} (busyRun ++ [notReady 0] ++ nextCall)) :=
    Machine.run_after_append (by decide +kernel)
  have hplace : (sample {} (busyRun ++ [notReady 0] ++ nextCall)).calls[2]?.map
      (fun call => (call.point, call.excludeIds)) =
        some (.critical (.select .first 1), ∅) := by
    decide +kernel
  obtain ⟨call, hcall, hpoint⟩ := Option.map_eq_some_iff.mp hplace
  rw [Prod.mk.injEq] at hpoint
  obtain ⟨hpoint, hexclude⟩ := hpoint
  have hpicked : (sample {} (busyRun ++ [notReady 0] ++ nextCall)).scheduler.picked {} ∅ =
      some "worker-1" := by
    decide +kernel
  obtain ⟨scheduler, hselect⟩ := Scheduler.selects_of_picked hpicked
  have hselecting : Selecting {} (sample {} (busyRun ++ [notReady 0] ++ nextCall)) "worker-1" :=
    ⟨2, call, .first, 1, scheduler, by decide +kernel, hcall, hpoint, hexclude ▸ hselect⟩
  have hprobed := hkept _ _ 0 none "worker-1" (reachable_sample {} busyRun) (by decide +kernel)
    (step_notReady (by decide +kernel)) _ _ hrun hselecting
  have hnone : probesOf "worker-1" nextCall = [] := rfl
  rw [hnone] at hprobed
  exact absurd hprobed List.not_mem_nil

end Gateway
end ModelServer
