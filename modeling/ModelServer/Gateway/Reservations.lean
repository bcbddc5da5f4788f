import Mathlib.Algebra.GroupWithZero.Nat
import ModelServer.Gateway.Steps
import ModelServer.Library.Sums

/-!
# Reservations are accounted for exactly

`outstanding_requests` of a worker is changed by the two critical sections only,
and each runs inside one call.  `reserved` lists what a call selected and did not
release; `CallPoint.holding` is what it must be at each point of `predict`.

The counters are then the sum over all calls (`Reservations`), whatever way the
RPCs end and wherever a call is cancelled.  Cancelling a call that waits for the
lock in its `finally` would lose a reservation; nobody ever waits for the lock.
-/

namespace ModelServer

open Asyncio Transition

/-- The worker that is still reserved before the critical section. -/
def Section.holding : Section → List String
  | .release worker _ => [worker]
  | .select .. => []

/-- The worker a call has reserved, by where it stands. -/
def CallPoint.holding : CallPoint → List String
  | .dispatch _ worker _ | .awaitRpc _ worker | .retryCheck _ worker => [worker]
  | .acquire part | .lockWait part | .critical part => part.holding
  | .start | .budget _ | .finished _ => []

/-- `outstanding_requests` of a worker. -/
def Shared.outstanding (s : Shared) (worker : String) : ℕ :=
  (s.scheduler.registry.node worker).outstandingRequests

namespace WorkerNode

variable {config : GatewayConfig}

@[simp] theorem outstandingRequests_recordProbeFailure (worker : WorkerNode) :
    (worker.recordProbeFailure config).outstandingRequests = worker.outstandingRequests := by
  unfold recordProbeFailure
  simp only
  split <;> rfl

@[simp] theorem outstandingRequests_pollHealth (worker : WorkerNode) (now : Time)
    (outcome : ProbeOutcome) :
    (worker.pollHealth config now outcome).outstandingRequests = worker.outstandingRequests := by
  cases outcome with
  | rpcFailed => exact outstandingRequests_recordProbeFailure worker
  | reply resp =>
      simp only [pollHealth]
      split_ifs <;> simp

@[simp] theorem outstandingRequests_markUnhealthy (worker : WorkerNode) :
    (worker.markUnhealthy config).outstandingRequests = worker.outstandingRequests := by
  unfold markUnhealthy
  split <;> rfl

end WorkerNode

namespace Shared

variable {config : GatewayConfig}

theorem outstanding_markUnhealthy (s : Shared) (marked worker : String) :
    (s.markUnhealthy config marked).outstanding worker = s.outstanding worker := by
  simp only [outstanding, markUnhealthy_scheduler_registry, WorkerRegistry.markUnhealthyImmediately]
  split
  · rw [WorkerRegistry.setNode_node, Function.update_apply]
    split <;> simp_all
  · rfl

theorem outstanding_probe (s : Shared) (probed worker : String) (outcome : ProbeOutcome) :
    (s.probe config probed outcome).outstanding worker = s.outstanding worker := by
  simp only [outstanding, probe_scheduler_registry, WorkerRegistry.pollWorkerHealth,
    WorkerRegistry.setNode_node, Function.update_apply]
  split <;> simp_all

theorem outstanding_selected {s : Shared} {excludeIds : Finset String} {selected : String}
    {scheduler : Scheduler} (h : Scheduler.Selects config s.scheduler excludeIds selected scheduler)
    (worker : String) :
    (s.selected scheduler).outstanding worker =
      s.outstanding worker + [selected].count worker := by
  simp only [outstanding, selected_scheduler, h.registry, WorkerRegistry.setNode_node,
    Function.update_apply]
  split
  · rename_i heq
    simp [heq]
  · rename_i hne
    simp [Ne.symm hne]

/-- The guard of `release_worker` is true where there is a reservation. -/
theorem outstanding_released {s : Shared} {released : String}
    (hworker : released ∈ s.scheduler.registry.ids) (hload : 0 < s.outstanding released)
    (worker : String) :
    (s.released released).outstanding worker + [released].count worker = s.outstanding worker := by
  have hguard : released ∈ s.scheduler.registry.ids ∧
      0 < (s.scheduler.registry.node released).outstandingRequests := ⟨hworker, hload⟩
  simp only [outstanding, released_scheduler, Scheduler.releaseWorker, if_pos hguard,
    WorkerRegistry.setNode_node, Function.update_apply]
  split
  · rename_i heq
    have := hguard.2
    simp only [heq, WorkerNode.unreserve_outstandingRequests, List.count_singleton_self]
    omega
  · rename_i hne
    simp [Ne.symm hne]

end Shared

namespace Gateway

variable {config : GatewayConfig}

/-- The configured workers stay the same. -/
theorem ids_of_callStep {s next : Shared} {id : ℕ} {call moved : Call} {event : Event}
    (hmove : CallStep config s id call event next moved) :
    next.scheduler.registry.ids = s.scheduler.registry.ids := by
  cases hmove
  case selects hselect =>
    simp [(Scheduler.selectWorker_spec hselect).registry]
  case rpcUnavailable =>
    simp only [Shared.markUnhealthy_scheduler_registry, WorkerRegistry.markUnhealthyImmediately]
    split <;> rfl
  case goesOn | loopEnds | leaves =>
    simp only [Shared.rests_scheduler, Shared.released_scheduler, Scheduler.releaseWorker]
    split <;> rfl
  all_goals rfl

/-- What a call selected is what its point says, and it is a configured worker. -/
structure Holding (s : Shared) (call : Call) : Prop where
  reserved : call.reserved = call.point.holding
  registered : ∀ worker ∈ call.reserved, worker ∈ s.scheduler.registry.ids

theorem holding_of_callStep {s next : Shared} {id : ℕ} {call moved : Call} {event : Event}
    (hmove : CallStep config s id call event next moved) (h : Holding s call)
    (hwait : ∀ part, call.point ≠ .lockWait part) : Holding next moved := by
  obtain ⟨hreserved, hregistered⟩ := h
  refine ⟨?_, ?_⟩
  · cases hmove
    case cancelWait hpoint => exact absurd hpoint (hwait _)
    case granted hpoint _ => exact absurd hpoint (hwait _)
    case selects hpoint _ => simp [hreserved, hpoint, CallPoint.holding, Section.holding]
    case goesOn hpoint | loopEnds hpoint | leaves hpoint =>
      simp [hreserved, hpoint, CallPoint.holding, Section.holding]
    all_goals simp_all [CallPoint.holding, Section.holding]
  · rw [ids_of_callStep hmove]
    cases hmove
    case selects hselect =>
      intro worker hmem
      rcases List.mem_append.mp hmem with hold | hnew
      · exact hregistered worker hold
      · rw [List.mem_singleton.mp hnew]
        exact (Scheduler.selectWorker_spec hselect).eligible.1
    case goesOn | loopEnds | leaves =>
      exact fun worker hmem => hregistered worker (List.mem_of_mem_erase hmem)
    all_goals exact hregistered

/-- What a step adds to a counter it adds to the reservations of its call. -/
theorem outstanding_of_callStep {s next : Shared} {id : ℕ} {call moved : Call} {event : Event}
    (hmove : CallStep config s id call event next moved) (h : Holding s call)
    (hload : ∀ worker ∈ call.reserved, 0 < s.outstanding worker) (worker : String) :
    next.outstanding worker + call.reserved.count worker =
      s.outstanding worker + moved.reserved.count worker := by
  cases hmove
  case selects selected _ _ hselect =>
    have hcount := Shared.outstanding_selected (Scheduler.selectWorker_spec hselect) worker
    simp only [Call.goto_reserved, Call.selected_reserved, List.count_append, hcount]
    omega
  case goesOn released _ hpoint | loopEnds released _ hpoint | leaves released _ _ hpoint =>
    have hreserved : call.reserved = [released] := by
      simp [h.reserved, hpoint, CallPoint.holding, Section.holding]
    have hmem : released ∈ call.reserved := by simp [hreserved]
    have hcount := Shared.outstanding_released (h.registered released hmem) (hload released hmem)
      worker
    simpa [hreserved, Shared.outstanding] using hcount
  case rpcUnavailable =>
    rw [Shared.outstanding_markUnhealthy]
    rfl
  all_goals rfl

/-- A call gets a reservation only for a healthy worker below the limit. -/
theorem reserved_of_callStep {s next : Shared} {id : ℕ} {call moved : Call} {event : Event}
    (hmove : CallStep config s id call event next moved) :
    (∀ worker, moved.reserved.count worker ≤ call.reserved.count worker) ∨
      ∃ worker, moved.reserved = call.reserved ++ [worker] ∧
        (s.scheduler.registry.node worker).state = .healthy ∧
        (s.outstanding worker : ℤ) < config.gatewayMaxOutstandingPerWorker := by
  cases hmove
  case selects selected _ _ hselect =>
    obtain ⟨_, hhealthy, _, hbelow⟩ := (Scheduler.selectWorker_spec hselect).eligible
    exact .inr ⟨_, rfl, hhealthy, hbelow⟩
  case goesOn | loopEnds | leaves =>
    exact .inl fun worker => List.erase_sublist.count_le worker
  all_goals exact .inl fun _ => le_rfl

/-! ## The sum over all calls -/

/-- The attempts that have selected the worker and not yet released it. -/
def reservations (g : Gateway) (worker : String) : ℕ :=
  (g.calls.map fun call => call.reserved.count worker).sum

/-- The counters and the reservations of the calls agree. -/
structure Reservations (config : GatewayConfig) (g : Gateway) : Prop where
  holding : ∀ call ∈ g.calls, Holding g.toShared call
  exact : ∀ worker, g.outstanding worker = g.reservations worker
  bounded : ∀ worker, (g.outstanding worker : ℤ) ≤ max 0 config.gatewayMaxOutstandingPerWorker

theorem load_pos {g : Gateway} (h : Reservations config g) {call : Call} (hcall : call ∈ g.calls)
    {worker : String} (hmem : worker ∈ call.reserved) : 0 < g.outstanding worker := by
  rw [h.exact, reservations, List.sum_pos_iff_exists_pos_nat]
  exact ⟨_, List.mem_map_of_mem hcall, List.count_pos_iff.mpr hmem⟩

theorem reservations_of_callStep {g : Gateway} {event : Event} {id : ℕ} {call moved : Call}
    {s : Shared} (h : Reservations config g) (horderly : Orderly g)
    (hcall : g.calls[id]? = some call)
    (hmove : CallStep config g.toShared id call event s moved) :
    Reservations config (g.store id (s, moved)) := by
  have hmem : call ∈ g.calls := List.mem_of_getElem? hcall
  have hholding := h.holding call hmem
  have hcount : ∀ worker, s.outstanding worker + call.reserved.count worker =
      g.outstanding worker + moved.reserved.count worker :=
    outstanding_of_callStep hmove hholding fun worker hworker => load_pos h hmem hworker
  have hids := ids_of_callStep hmove
  refine ⟨?_, ?_, ?_⟩
  · intro other hother
    rcases List.mem_or_eq_of_mem_set hother with hold | rfl
    · obtain ⟨hreserved, hregistered⟩ := h.holding other hold
      exact ⟨hreserved, fun worker hworker => hids ▸ hregistered worker hworker⟩
    · exact holding_of_callStep hmove hholding fun part => horderly.noWait id call part hcall
  · intro worker
    have hsum := sum_map_set (fun call => call.reserved.count worker) hcall moved
    have hexact := h.exact worker
    have := hcount worker
    simp only [reservations] at hexact
    show s.outstanding worker = ((g.calls.set id moved).map _).sum
    omega
  · intro worker
    have hbound := h.bounded worker
    have := hcount worker
    rcases reserved_of_callStep hmove with hfewer | ⟨selected, hreserved, _, hbelow⟩
    · have := hfewer worker
      exact le_trans (by exact_mod_cast (by omega : s.outstanding worker ≤ g.outstanding worker))
        hbound
    · show (s.outstanding worker : ℤ) ≤ _
      rw [hreserved, List.count_append] at this
      by_cases heq : selected = worker
      · subst heq
        rw [List.count_singleton_self] at this
        omega
      · rw [List.count_singleton, if_neg (by simpa using heq)] at this
        omega

theorem reservations_of_step {g next : Gateway} {event : Event} (hstep : Step config g event next)
    (horderly : Orderly g) (h : Reservations config g) : Reservations config next := by
  cases hstep with
  | tick helapsed =>
      refine ⟨fun call hmem => ?_, h.exact, h.bounded⟩
      exact ⟨(h.holding call hmem).reserved, (h.holding call hmem).registered⟩
  | call hrunning =>
      refine ⟨?_, ?_, h.bounded⟩
      · intro call hmem
        rcases List.mem_append.mp hmem with hold | hnew
        · exact h.holding call hold
        · rw [List.mem_singleton.mp hnew]
          exact ⟨rfl, nofun⟩
      · intro worker
        have hexact := h.exact worker
        simpa [reservations, newCall] using hexact
  | probe hrunning hworker =>
      refine ⟨fun call hmem => ?_, fun worker => ?_, fun worker => ?_⟩
      · exact ⟨(h.holding call hmem).reserved, (h.holding call hmem).registered⟩
      · rw [Shared.outstanding_probe]
        exact h.exact worker
      · rw [Shared.outstanding_probe]
        exact h.bounded worker
  | move hcall hmove => exact reservations_of_callStep h horderly hcall hmove

theorem reservations_of_reachable {g : Gateway} (hreach : (machine config).Reachable g) :
    Reservations config g := by
  apply hreach.invariant
  · rintro g ⟨now, rfl⟩
    exact ⟨by simp [initial], fun _ => rfl, fun _ => le_max_left _ _⟩
  · intro g event next hbefore h hevent
    exact reservations_of_step (step_of_reachable hbefore hevent) (orderly_of_reachable hbefore) h

/-- **Reservations are exact.**  In every reachable state the counter of a worker is the
number of attempts that have selected it and not yet released it; it is within the
limit; it is positive wherever `predict` releases; it is zero when no call is in
progress; and between the steps of the calls the lock is free. -/
theorem reservations_exact {g : Gateway} (hreach : (machine config).Reachable g) :
    (∀ worker, g.outstanding worker = g.reservations worker) ∧
      (0 ≤ config.gatewayMaxOutstandingPerWorker →
        ∀ worker, (g.outstanding worker : ℤ) ≤ config.gatewayMaxOutstandingPerWorker) ∧
      (∀ call ∈ g.calls, ∀ worker after, call.point = .critical (.release worker after) →
        worker ∈ g.scheduler.registry.ids ∧ 0 < g.outstanding worker) ∧
      ((∀ call ∈ g.calls, ∃ outcome, call.point = .finished outcome) →
        ∀ worker, g.outstanding worker = 0) ∧
      (g.running = none → g.lock.Free) := by
  have h := reservations_of_reachable hreach
  have horderly := orderly_of_reachable hreach
  refine ⟨h.exact, ?_, ?_, ?_, ?_⟩
  · intro hcap worker
    simpa [max_eq_right hcap] using h.bounded worker
  · intro call hcall worker after hpoint
    have hmem : worker ∈ call.reserved := by
      simp [(h.holding call hcall).reserved, hpoint, CallPoint.holding, Section.holding]
    exact ⟨(h.holding call hcall).registered worker hmem, load_pos h hcall hmem⟩
  · intro hfinished worker
    by_contra hload
    have hsum : 0 < g.reservations worker := h.exact worker ▸ Nat.pos_of_ne_zero hload
    rw [reservations, List.sum_pos_iff_exists_pos_nat] at hsum
    obtain ⟨count, hcount, hpos⟩ := hsum
    obtain ⟨call, hcall, rfl⟩ := List.mem_map.mp hcount
    obtain ⟨outcome, hpoint⟩ := hfinished call hcall
    simp [(h.holding call hcall).reserved, hpoint, CallPoint.holding] at hpos
  · exact horderly.free

/-- Two calls are waiting for the only healthy worker. -/
def busyRun : List Event :=
  [.probe "worker-1" (.reply (sampleReply .ready)), .call "r0" ["a"] "tinybert-sst2-v1" 1000,
      .call "r1" ["b"] "tinybert-sst2-v1" 1000, .start 0] ++ List.replicate 4 .run
    ++ [.start 1] ++ List.replicate 4 .run

theorem reservations_exact_busy :
    let g := sample {} busyRun
    g.outstanding "worker-1" = 2 ∧ g.running = none ∧
      (∀ worker, g.outstanding worker = g.reservations worker) ∧
      ((0 : ℤ) ≤ 32 → ∀ worker, (g.outstanding worker : ℤ) ≤ 32) ∧
      (∀ call ∈ g.calls, ∀ worker after, call.point = .critical (.release worker after) →
        worker ∈ g.scheduler.registry.ids ∧ 0 < g.outstanding worker) ∧
      ((∀ call ∈ g.calls, ∃ outcome, call.point = .finished outcome) →
        ∀ worker, g.outstanding worker = 0) ∧
      (g.running = none → g.lock.Free) :=
  ⟨by decide +kernel, by decide +kernel, reservations_exact (reachable_sample _ _)⟩

end Gateway
end ModelServer
