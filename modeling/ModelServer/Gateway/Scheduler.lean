import Mathlib.Data.List.Sort
import Mathlib.Data.Finset.Insert
import ModelServer.Library.Machine
import ModelServer.Gateway.Registry

/-!
# The scheduler

`select_worker` and `release_worker` are critical sections under one lock; what
is here is the part inside the lock.  The cursor indexes the list of the workers
tied for the smallest number of outstanding requests, in the order of their ids,
and that list changes from call to call.

`selectWorker_spec` says once what a successful selection does.  `turns` is a
record of the successful selections; no step reads it.
-/

namespace ModelServer

/-- One successful selection: the candidates in order, the cursor it found, and
the worker it returned. -/
structure Turn where
  candidates : List String
  cursor : ℕ
  selected : String
  deriving DecidableEq, Repr

structure Scheduler where
  registry : WorkerRegistry
  cursor : ℕ := 0
  turns : List Turn := []

namespace Scheduler

variable {config : GatewayConfig}

def healthyWorkers (s : Scheduler) : List String :=
  s.registry.ids.filter fun workerId => (s.registry.node workerId).state = .healthy

def eligible (config : GatewayConfig) (s : Scheduler) (excludeIds : Finset String) :
    List String :=
  s.healthyWorkers.filter fun workerId => workerId ∉ excludeIds ∧
    (s.registry.node workerId).outstandingRequests < config.gatewayMaxOutstandingPerWorker

/-- `min(w.outstanding_requests for w in eligible)`. -/
def minOutstanding (config : GatewayConfig) (s : Scheduler) (excludeIds : Finset String) : ℕ :=
  ((s.eligible config excludeIds).map fun workerId =>
    (s.registry.node workerId).outstandingRequests).min?.getD 0

def candidates (config : GatewayConfig) (s : Scheduler) (excludeIds : Finset String) :
    List String :=
  ((s.eligible config excludeIds).filter fun workerId =>
    (s.registry.node workerId).outstandingRequests =
      s.minOutstanding config excludeIds).insertionSort (· ≤ ·)

theorem mem_eligible {s : Scheduler} {excludeIds : Finset String} {workerId : String} :
    workerId ∈ s.eligible config excludeIds ↔
      workerId ∈ s.registry.ids ∧ (s.registry.node workerId).state = .healthy ∧
        workerId ∉ excludeIds ∧
        (s.registry.node workerId).outstandingRequests < config.gatewayMaxOutstandingPerWorker := by
  simp [eligible, healthyWorkers, and_comm, and_left_comm]

/-- The minimum is attained and is a lower bound. -/
theorem minOutstanding_spec {s : Scheduler} {excludeIds : Finset String}
    (h : s.eligible config excludeIds ≠ []) :
    (∃ workerId ∈ s.eligible config excludeIds,
      (s.registry.node workerId).outstandingRequests = s.minOutstanding config excludeIds) ∧
    ∀ workerId ∈ s.eligible config excludeIds,
      s.minOutstanding config excludeIds ≤ (s.registry.node workerId).outstandingRequests := by
  set loads := (s.eligible config excludeIds).map fun workerId =>
    (s.registry.node workerId).outstandingRequests with hloads
  have hsome : loads.min? = some (s.minOutstanding config excludeIds) := by
    obtain ⟨least, hleast⟩ := Option.isSome_iff_exists.mp
      (List.isSome_min?_of_ne_nil (show loads ≠ [] by simpa [hloads] using h))
    simp [minOutstanding, ← hloads, hleast]
  obtain ⟨hmem, hle⟩ := List.min?_eq_some_iff.mp hsome
  refine ⟨by simpa [hloads] using hmem, fun workerId hworker => hle _ ?_⟩
  exact List.mem_map_of_mem hworker

/-- A candidate is an eligible worker with the fewest outstanding requests. -/
theorem mem_candidates {s : Scheduler} {excludeIds : Finset String} {workerId : String} :
    workerId ∈ s.candidates config excludeIds ↔ workerId ∈ s.eligible config excludeIds ∧
      ∀ other ∈ s.eligible config excludeIds,
        (s.registry.node workerId).outstandingRequests ≤
          (s.registry.node other).outstandingRequests := by
  simp only [candidates, List.mem_insertionSort, List.mem_filter, decide_eq_true_eq]
  refine and_congr_right fun hmem => ?_
  obtain ⟨⟨least, hleast, hattained⟩, hbound⟩ := minOutstanding_spec (List.ne_nil_of_mem hmem)
  constructor
  · intro heq other hother
    exact heq.le.trans (hbound other hother)
  · intro hminimal
    exact le_antisymm ((hminimal least hleast).trans hattained.le) (hbound workerId hmem)

theorem candidates_ne_nil {s : Scheduler} {excludeIds : Finset String}
    (h : s.eligible config excludeIds ≠ []) : s.candidates config excludeIds ≠ [] := by
  obtain ⟨⟨least, hleast, hattained⟩, hbound⟩ := minOutstanding_spec h
  refine List.ne_nil_of_mem (mem_candidates.mpr ⟨hleast, fun other hother => ?_⟩)
  exact hattained.le.trans (hbound other hother)

/-- The worker whose turn it is. -/
def nextInTurn (config : GatewayConfig) (s : Scheduler) (excludeIds : Finset String)
    (h : s.eligible config excludeIds ≠ []) : String :=
  (s.candidates config excludeIds).get ⟨s.cursor % (s.candidates config excludeIds).length,
    Nat.mod_lt _ (List.length_pos_iff.mpr (candidates_ne_nil h))⟩

/-- The body of `select_worker` under the lock. -/
def selectWorker (config : GatewayConfig) (s : Scheduler) (excludeIds : Finset String) :
    Except AppError (String × Scheduler) :=
  if s.healthyWorkers.isEmpty then .error (.default .noHealthyWorkerError)
  else if h : s.eligible config excludeIds = [] then .error (.default .gatewayAtCapacityError)
  else
    let candidates := s.candidates config excludeIds
    let selected := s.nextInTurn config excludeIds h
    .ok (selected,
      { registry := s.registry.setNode selected (s.registry.node selected).reserve
        cursor := (s.cursor + 1) % candidates.length
        turns := s.turns ++ [⟨candidates, s.cursor, selected⟩] })

/-- The body of `release_worker` under the lock. -/
def releaseWorker (s : Scheduler) (workerId : String) : Scheduler :=
  if workerId ∈ s.registry.ids ∧ 0 < (s.registry.node workerId).outstandingRequests then
    { s with registry := s.registry.setNode workerId (s.registry.node workerId).unreserve }
  else s

/-! ## What a successful selection does -/

/-- `selected` is taken from the candidates by the cursor, and reserved. -/
structure Selects (config : GatewayConfig) (s : Scheduler) (excludeIds : Finset String)
    (selected : String) (next : Scheduler) : Prop where
  inTurn : (s.candidates config excludeIds)[s.cursor % (s.candidates config excludeIds).length]? =
    some selected
  registry : next.registry = s.registry.setNode selected (s.registry.node selected).reserve
  cursor : next.cursor = (s.cursor + 1) % (s.candidates config excludeIds).length
  turns : next.turns = s.turns ++ [⟨s.candidates config excludeIds, s.cursor, selected⟩]

theorem selectWorker_spec {s next : Scheduler} {excludeIds : Finset String} {selected : String}
    (h : s.selectWorker config excludeIds = .ok (selected, next)) :
    Selects config s excludeIds selected next := by
  unfold selectWorker at h
  split at h
  · cases h
  · split at h
    · cases h
    · rename_i heligible
      cases h
      exact ⟨by simp [nextInTurn], rfl, rfl, rfl⟩

/-- Which worker `select_worker` returns. -/
def picked (config : GatewayConfig) (s : Scheduler) (excludeIds : Finset String) :
    Option String :=
  (s.selectWorker config excludeIds).toOption.map Prod.fst

theorem selects_of_picked {s : Scheduler} {excludeIds : Finset String} {workerId : String}
    (h : s.picked config excludeIds = some workerId) :
    ∃ next, s.selectWorker config excludeIds = .ok (workerId, next) := by
  obtain ⟨⟨_, next⟩, hselect, rfl⟩ := Option.map_eq_some_iff.mp h
  refine ⟨next, ?_⟩
  cases hresult : s.selectWorker config excludeIds with
  | error => simp [hresult, Except.toOption] at hselect
  | ok result => simp_all [Except.toOption]

theorem Selects.mem {s next : Scheduler} {excludeIds : Finset String} {selected : String}
    (h : Selects config s excludeIds selected next) :
    selected ∈ s.candidates config excludeIds :=
  List.mem_of_getElem? h.inTurn

theorem Selects.eligible {s next : Scheduler} {excludeIds : Finset String} {selected : String}
    (h : Selects config s excludeIds selected next) :
    selected ∈ s.registry.ids ∧ (s.registry.node selected).state = .healthy ∧
      selected ∉ excludeIds ∧ (s.registry.node selected).outstandingRequests <
        config.gatewayMaxOutstandingPerWorker :=
  mem_eligible.mp (mem_candidates.mp h.mem).1

end Scheduler
end ModelServer
