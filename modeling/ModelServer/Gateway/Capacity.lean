import Mathlib.Data.Finset.Dedup
import ModelServer.Library.Balancing
import ModelServer.Gateway.Scheduler

/-!
# Selections use the whole capacity evenly

`call` is `select_worker` as its callers see it: what it returns or raises, and the
scheduler it leaves.  `Outcome` lists the three ways it can end.

Calls in a row without exclusions fill the healthy workers as `Balancing.Filling`
says, each up to the limit: which of several equals the cursor points to does not
matter.
-/

namespace ModelServer.Scheduler

open Balancing

variable {config : GatewayConfig}

/-- Whatever `select_worker` raises it raises before it changes anything. -/
def call (config : GatewayConfig) (s : Scheduler) (excludeIds : Finset String) :
    Except AppError String × Scheduler :=
  match s.selectWorker config excludeIds with
  | .ok (selected, next) => (.ok selected, next)
  | .error error => (.error error, s)

/-- `n` calls in a row, without exclusions. -/
def afterCalls (config : GatewayConfig) (s : Scheduler) : ℕ → Scheduler
  | 0 => s
  | n + 1 => ((afterCalls config s n).call config ∅).2

/-- How many requests a worker has outstanding. -/
def load (s : Scheduler) (workerId : String) : ℕ := (s.registry.node workerId).outstandingRequests

/-- `select_worker` may return this worker. -/
structure Available (config : GatewayConfig) (s : Scheduler) (excludeIds : Finset String)
    (workerId : String) : Prop where
  registered : workerId ∈ s.registry.ids
  healthy : (s.registry.node workerId).state = .healthy
  notExcluded : workerId ∉ excludeIds
  belowLimit : (s.load workerId : ℤ) < config.gatewayMaxOutstandingPerWorker

theorem available_iff {s : Scheduler} {excludeIds : Finset String} {workerId : String} :
    Available config s excludeIds workerId ↔ workerId ∈ s.eligible config excludeIds := by
  rw [mem_eligible]
  exact ⟨fun h => ⟨h.registered, h.healthy, h.notExcluded, h.belowLimit⟩,
    fun ⟨hids, hhealthy, hexcluded, hlimit⟩ => ⟨hids, hhealthy, hexcluded, hlimit⟩⟩

theorem mem_healthyWorkers {s : Scheduler} {workerId : String} :
    workerId ∈ s.healthyWorkers ↔
      workerId ∈ s.registry.ids ∧ (s.registry.node workerId).state = .healthy := by
  simp [healthyWorkers]

/-! ## One call -/

/-- How a call can end. -/
inductive Outcome (config : GatewayConfig) (s : Scheduler) (excludeIds : Finset String) :
    Except AppError String × Scheduler → Prop
  | noHealthyWorker (hnone : s.healthyWorkers = []) :
      Outcome config s excludeIds (.error (.default .noHealthyWorkerError), s)
  | atCapacity (hsome : s.healthyWorkers ≠ []) (hfull : s.eligible config excludeIds = []) :
      Outcome config s excludeIds (.error (.default .gatewayAtCapacityError), s)
  | selects {selected : String} {next : Scheduler}
      (hselects : Selects config s excludeIds selected next) :
      Outcome config s excludeIds (.ok selected, next)

theorem outcome_of_call (config : GatewayConfig) (s : Scheduler) (excludeIds : Finset String) :
    Outcome config s excludeIds (s.call config excludeIds) := by
  unfold call
  split
  · rename_i hselect
    exact .selects (selectWorker_spec hselect)
  · rename_i error hselect
    unfold selectWorker at hselect
    split at hselect
    · rename_i hnone
      cases hselect
      exact .noHealthyWorker (List.isEmpty_iff.mp hnone)
    · rename_i hsome
      split at hselect
      · rename_i hfull
        cases hselect
        exact .atCapacity (fun hnone => hsome (List.isEmpty_iff.mpr hnone)) hfull
      · cases hselect

theorem call_noHealthyWorker_iff {s : Scheduler} {excludeIds : Finset String} :
    (s.call config excludeIds).1 = .error (.default .noHealthyWorkerError) ↔
      s.healthyWorkers = [] := by
  cases hcall : s.call config excludeIds
  have houtcome := hcall ▸ outcome_of_call config s excludeIds
  cases houtcome with
  | noHealthyWorker hnone => simp [hnone]
  | atCapacity hsome hfull => simp [hsome, AppError.default]
  | selects hselects =>
      have hhealthy := mem_healthyWorkers.mpr ⟨hselects.eligible.1, hselects.eligible.2.1⟩
      simp [List.ne_nil_of_mem hhealthy]

theorem call_atCapacity_iff {s : Scheduler} {excludeIds : Finset String} :
    (s.call config excludeIds).1 = .error (.default .gatewayAtCapacityError) ↔
      s.healthyWorkers ≠ [] ∧ s.eligible config excludeIds = [] := by
  cases hcall : s.call config excludeIds
  have houtcome := hcall ▸ outcome_of_call config s excludeIds
  cases houtcome with
  | noHealthyWorker hnone => simp [hnone, AppError.default]
  | atCapacity hsome hfull => simp [hsome, hfull]
  | selects hselects =>
      have hne := List.ne_nil_of_mem (mem_eligible.mpr hselects.eligible)
      simp [hne]

/-- A call that raises changes nothing. -/
theorem call_of_error {s : Scheduler} {excludeIds : Finset String} {error : AppError}
    (h : (s.call config excludeIds).1 = .error error) :
    (error = .default .noHealthyWorkerError ∨ error = .default .gatewayAtCapacityError) ∧
      (s.call config excludeIds).2 = s := by
  cases hcall : s.call config excludeIds
  have houtcome := hcall ▸ outcome_of_call config s excludeIds
  rw [hcall] at h
  cases houtcome with
  | noHealthyWorker hnone =>
      cases h
      exact ⟨.inl rfl, rfl⟩
  | atCapacity hsome hfull =>
      cases h
      exact ⟨.inr rfl, rfl⟩
  | selects hselects => cases h

/-- What a call that returns leaves. -/
theorem call_of_ok {s : Scheduler} {excludeIds : Finset String} {selected : String}
    (h : (s.call config excludeIds).1 = .ok selected) :
    Selects config s excludeIds selected (s.call config excludeIds).2 := by
  cases hcall : s.call config excludeIds
  have houtcome := hcall ▸ outcome_of_call config s excludeIds
  rw [hcall] at h
  cases houtcome with
  | noHealthyWorker | atCapacity => cases h
  | selects hselects =>
      cases h
      exact hselects

/-- A call returns a worker exactly if one is available. -/
theorem call_ok_iff {s : Scheduler} {excludeIds : Finset String} :
    (∃ selected, (s.call config excludeIds).1 = .ok selected) ↔
      ∃ workerId, Available config s excludeIds workerId := by
  constructor
  · rintro ⟨selected, hok⟩
    exact ⟨selected, available_iff.mpr (mem_eligible.mpr (call_of_ok hok).eligible)⟩
  · rintro ⟨workerId, havailable⟩
    have hne := List.ne_nil_of_mem (available_iff.mp havailable)
    have hhealthy := mem_healthyWorkers.mpr ⟨havailable.registered, havailable.healthy⟩
    cases hcall : (s.call config excludeIds).1 with
    | ok selected => exact ⟨selected, rfl⟩
    | error error =>
        exfalso
        rcases (call_of_error hcall).1 with rfl | rfl
        · exact List.ne_nil_of_mem hhealthy (call_noHealthyWorker_iff.mp hcall)
        · exact hne (call_atCapacity_iff.mp hcall).2

namespace Selects

variable {s next : Scheduler} {excludeIds : Finset String} {selected : String}

theorem available (h : Selects config s excludeIds selected next) :
    Available config s excludeIds selected :=
  available_iff.mpr (mem_candidates.mp h.mem).1

theorem least (h : Selects config s excludeIds selected next) {other : String}
    (hother : Available config s excludeIds other) : s.load selected ≤ s.load other :=
  (mem_candidates.mp h.mem).2 other (available_iff.mp hother)

/-- One more for the selected worker, and nothing else is counted. -/
theorem load_eq (h : Selects config s excludeIds selected next) :
    next.load = Function.update s.load selected (s.load selected + 1) := by
  funext workerId
  rw [load, h.registry, WorkerRegistry.setNode_node]
  by_cases hsame : workerId = selected
  · subst hsame
    rw [Function.update_self, Function.update_self, WorkerNode.reserve_outstandingRequests, load]
  · rw [Function.update_of_ne hsame, Function.update_of_ne hsame, load]

theorem healthyWorkers (h : Selects config s excludeIds selected next) :
    next.healthyWorkers = s.healthyWorkers := by
  unfold Scheduler.healthyWorkers
  rw [h.registry, WorkerRegistry.setNode_ids]
  apply List.filter_congr
  intro workerId _
  rw [WorkerRegistry.setNode_node]
  by_cases hsame : workerId = selected
  · subst hsame
    rw [Function.update_self, WorkerNode.reserve_toHealth]
  · rw [Function.update_of_ne hsame]

end Selects

/-! ## Calls in a row -/

theorem healthyWorkers_call (config : GatewayConfig) (s : Scheduler) (excludeIds : Finset String) :
    (s.call config excludeIds).2.healthyWorkers = s.healthyWorkers := by
  cases hcall : (s.call config excludeIds).1 with
  | ok selected => exact (call_of_ok hcall).healthyWorkers
  | error error => rw [(call_of_error hcall).2]

theorem healthyWorkers_afterCalls (config : GatewayConfig) (s : Scheduler) (n : ℕ) :
    (afterCalls config s n).healthyWorkers = s.healthyWorkers := by
  induction n with
  | zero => rfl
  | succ n ih => rw [afterCalls, healthyWorkers_call, ih]

/-- Without exclusions a healthy worker is available while it is below the limit. -/
theorem available_empty_iff {s : Scheduler} {limit : ℕ}
    (hlimit : config.gatewayMaxOutstandingPerWorker = limit) {workerId : String} :
    Available config s ∅ workerId ↔ workerId ∈ s.healthyWorkers ∧ s.load workerId < limit := by
  rw [mem_healthyWorkers]
  constructor
  · intro h
    have hbelow := h.belowLimit
    rw [hlimit] at hbelow
    exact ⟨⟨h.registered, h.healthy⟩, by exact_mod_cast hbelow⟩
  · rintro ⟨⟨hregistered, hhealthy⟩, hbelow⟩
    refine ⟨hregistered, hhealthy, Finset.notMem_empty _, ?_⟩
    rw [hlimit]
    exact_mod_cast hbelow

/-- A call without exclusions gives one more request to the healthy workers. -/
theorem filling_call {s : Scheduler} {limit count : ℕ}
    (hlimit : config.gatewayMaxOutstandingPerWorker = limit)
    (h : Filling s.healthyWorkers.toFinset limit count s.load) {selected : String}
    (hok : (s.call config ∅).1 = .ok selected) :
    Filling s.healthyWorkers.toFinset limit (count + 1) (s.call config ∅).2.load := by
  have hselects := call_of_ok hok
  obtain ⟨hhealthy, hroom⟩ := (available_empty_iff hlimit).mp hselects.available
  rw [hselects.load_eq]
  refine h.give (List.mem_toFinset.mpr hhealthy) hroom fun other hother hbelow => ?_
  exact hselects.least ((available_empty_iff hlimit).mpr ⟨List.mem_toFinset.mp hother, hbelow⟩)

/-- As long as there is room a call returns a worker. -/
theorem call_ok_iff_of_filling {s : Scheduler} {limit count : ℕ}
    (hlimit : config.gatewayMaxOutstandingPerWorker = limit)
    (h : Filling s.healthyWorkers.toFinset limit count s.load) :
    (∃ selected, (s.call config ∅).1 = .ok selected) ↔
      count < s.healthyWorkers.length * limit := by
  have hcard : s.healthyWorkers.toFinset.card = s.healthyWorkers.length :=
    List.toFinset_card_of_nodup (s.registry.nodup.filter _)
  rw [call_ok_iff, ← hcard, ← h.room_iff]
  simp only [available_empty_iff hlimit, List.mem_toFinset]

theorem filling_afterCalls {s : Scheduler} {limit : ℕ}
    (hlimit : config.gatewayMaxOutstandingPerWorker = limit)
    (hzero : ∀ workerId ∈ s.healthyWorkers, s.load workerId = 0) (n : ℕ) :
    Filling s.healthyWorkers.toFinset limit (min n (s.healthyWorkers.length * limit))
      (afterCalls config s n).load := by
  induction n with
  | zero =>
      rw [Nat.zero_min]
      exact Filling.empty limit fun workerId hmem => hzero workerId (List.mem_toFinset.mp hmem)
  | succ n ih =>
      have hsame := healthyWorkers_afterCalls config s n
      rw [← hsame] at ih ⊢
      have hok := call_ok_iff_of_filling hlimit ih
      rw [afterCalls]
      rcases Nat.lt_or_ge n ((afterCalls config s n).healthyWorkers.length * limit) with
        hroom | hfull
      · rw [Nat.min_eq_left hroom.le] at ih hok
        rw [Nat.min_eq_left (Nat.succ_le_of_lt hroom)]
        obtain ⟨selected, hselected⟩ := hok.mpr hroom
        exact filling_call hlimit ih hselected
      · rw [Nat.min_eq_right hfull] at ih hok
        rw [Nat.min_eq_right (Nat.le_succ_of_le hfull)]
        cases hcall : ((afterCalls config s n).call config ∅).1 with
        | ok selected => exact absurd (hok.mp ⟨selected, hcall⟩) (lt_irrefl _)
        | error error =>
            rw [(call_of_error hcall).2]
            exact ih

/-- **The whole capacity is used evenly.**  A call of `select_worker` raises
`NoHealthyWorkerError` exactly if no worker is healthy, `GatewayAtCapacityError` exactly
if there are healthy workers and none of them is available, and then leaves everything as
it was; or it counts one more request for the worker it returns, which is available and
has the fewest outstanding requests of all that are.

So calls in a row, from no outstanding requests and without exclusions, keep the healthy
workers within one request of each other, and the first to raise
`GatewayAtCapacityError` is the one after all of them have reached the limit. -/
theorem capacity_used_evenly (config : GatewayConfig) (s : Scheduler)
    (excludeIds : Finset String) :
    ((s.call config excludeIds).1 = .error (.default .noHealthyWorkerError) ↔
      ∀ workerId ∈ s.registry.ids, (s.registry.node workerId).state ≠ .healthy) ∧
    ((s.call config excludeIds).1 = .error (.default .gatewayAtCapacityError) ↔
      (∃ workerId ∈ s.registry.ids, (s.registry.node workerId).state = .healthy) ∧
        ∀ workerId ∈ s.registry.ids, (s.registry.node workerId).state = .healthy →
          workerId ∈ excludeIds ∨ config.gatewayMaxOutstandingPerWorker ≤ s.load workerId) ∧
    (∀ error, (s.call config excludeIds).1 = .error error →
      (error = .default .noHealthyWorkerError ∨ error = .default .gatewayAtCapacityError) ∧
        (s.call config excludeIds).2 = s) ∧
    (∀ selected, (s.call config excludeIds).1 = .ok selected →
      Available config s excludeIds selected ∧
        (∀ other, Available config s excludeIds other → s.load selected ≤ s.load other) ∧
        (s.call config excludeIds).2.load =
          Function.update s.load selected (s.load selected + 1)) ∧
    (s.healthyWorkers ≠ [] → (∀ workerId ∈ s.healthyWorkers, s.load workerId = 0) →
      0 ≤ config.gatewayMaxOutstandingPerWorker → ∀ n,
      (∀ worker ∈ s.healthyWorkers, ∀ other ∈ s.healthyWorkers,
        (afterCalls config s n).load worker ≤ (afterCalls config s n).load other + 1) ∧
      ((∃ selected, ((afterCalls config s n).call config ∅).1 = .ok selected) ↔
        n < s.healthyWorkers.length * config.gatewayMaxOutstandingPerWorker) ∧
      (((afterCalls config s n).call config ∅).1 = .error (.default .gatewayAtCapacityError) ↔
        s.healthyWorkers.length * config.gatewayMaxOutstandingPerWorker ≤ n)) := by
  refine ⟨?_, ?_, fun error => call_of_error, fun selected hok => ?_,
    fun hsome hzero hnonneg n => ?_⟩
  · rw [call_noHealthyWorker_iff, List.eq_nil_iff_forall_not_mem]
    simp only [mem_healthyWorkers, not_and]
  · rw [call_atCapacity_iff, Ne, List.eq_nil_iff_forall_not_mem, List.eq_nil_iff_forall_not_mem]
    simp only [mem_healthyWorkers, mem_eligible, not_forall, not_not, not_and, not_lt, load,
      exists_prop, or_iff_not_imp_left]
  · have hselects := call_of_ok hok
    exact ⟨hselects.available, fun other => hselects.least, hselects.load_eq⟩
  · obtain ⟨limit, hlimit⟩ := Int.eq_ofNat_of_zero_le hnonneg
    have hfilling := filling_afterCalls hlimit hzero n
    have hsame := healthyWorkers_afterCalls config s n
    have hok : (∃ selected, ((afterCalls config s n).call config ∅).1 = .ok selected) ↔
        n < s.healthyWorkers.length * limit := by
      rw [call_ok_iff_of_filling hlimit (hsame.symm ▸ hfilling), hsame]
      omega
    have hfull : ((afterCalls config s n).call config ∅).1 =
          .error (.default .gatewayAtCapacityError) ↔
        ¬ ∃ selected, ((afterCalls config s n).call config ∅).1 = .ok selected := by
      cases hcall : ((afterCalls config s n).call config ∅).1 with
      | ok selected => simp
      | error error =>
          rcases (call_of_error hcall).1 with rfl | rfl
          · rw [call_noHealthyWorker_iff, hsame] at hcall
            exact absurd hcall hsome
          · simp
    refine ⟨fun worker hworker other hother => ?_, ?_, ?_⟩
    · exact hfilling.even worker (List.mem_toFinset.mpr hworker) other
        (List.mem_toFinset.mpr hother)
    · rw [hok, hlimit]
      exact_mod_cast Iff.rfl
    · rw [hfull, hok, hlimit, not_lt]
      exact_mod_cast Iff.rfl

theorem nodup_twoHealthy : ["w1", "w2", "w3"].Nodup := by decide

/-- Two workers are healthy, and each may have two requests. -/
def twoHealthy : Scheduler where
  registry :=
    { ids := ["w1", "w2", "w3"]
      nodup := nodup_twoHealthy
      node := fun workerId =>
        { address := workerId, state := if workerId = "w3" then .unhealthy else .healthy } }
  cursor := 1

theorem capacity_used_evenly_two :
    let config : GatewayConfig := { gatewayMaxOutstandingPerWorker := 2 }
    ((afterCalls config twoHealthy 4).load "w1" = 2 ∧
      (afterCalls config twoHealthy 4).load "w2" = 2) ∧
    ∀ n, (((afterCalls config twoHealthy n).call config ∅).1 =
      .error (.default .gatewayAtCapacityError) ↔ (2 : ℤ) * 2 ≤ n) := by
  intro config
  refine ⟨by decide +kernel, fun n => ?_⟩
  have hevenly := (capacity_used_evenly config twoHealthy ∅).2.2.2.2 (by decide +kernel)
    (by decide +kernel) (by decide) n
  exact hevenly.2.2

end ModelServer.Scheduler
