import ModelServer.Gateway.Client
import ModelServer.Gateway.Health

/-!
# Everything a gateway can do

`CallStep` has one constructor for each branch of `predict` that can be taken:
what the branch tested, and what it leaves of the shared state and of the call.
`Step` adds the clock, new calls and the pollers.  `step_cases` says that there
is nothing else; `_map_rpc_error` in particular never returns.

An invariant of a single call is proved from `CallStep` alone: `calls_of_step`.
-/

namespace ModelServer

open Asyncio Transition

theorem mapRpcError_raises (code : StatusCode) (details : Option String) :
    ∃ error, mapRpcError code details = .error error := by
  unfold mapRpcError
  cases code <;> simp only
  case invalidArgument => split <;> exact ⟨_, rfl⟩
  all_goals exact ⟨_, rfl⟩

namespace Gateway

variable {config : GatewayConfig}

/-- What one call can do. -/
inductive CallStep (config : GatewayConfig) (s : Shared) (id : ℕ) (call : Call) :
    Event → Shared → Call → Prop
  | start (hrunning : s.running = none) (hpoint : call.point = .start) :
      CallStep config s id call (.start id) (s.runs id)
        ((call.setDeadline s.now).goto (.budget .first))
  -- one attempt
  | noBudget {attempt : Attempt} (hrunning : s.running = some id)
      (hpoint : call.point = .budget attempt) (hover : call.remaining s.now ≤ 0) :
      CallStep config s id call .run s.rests (call.goto (.finished (.raised budgetExhausted)))
  | budget {attempt : Attempt} (hrunning : s.running = some id)
      (hpoint : call.point = .budget attempt) (hleft : 0 < call.remaining s.now) :
      CallStep config s id call .run s
        ((call.setBudget s.now).goto (.acquire (.select attempt (call.remaining s.now))))
  | acquired {part : Section} {lock : Lock ℕ} (hrunning : s.running = some id)
      (hpoint : call.point = .acquire part) (hlock : s.lock.acquire = some lock) :
      CallStep config s id call .run (s.holds lock) (call.goto (.critical part))
  | blocked {part : Section} (hrunning : s.running = some id)
      (hpoint : call.point = .acquire part) (hlock : s.lock.acquire = none) :
      CallStep config s id call .run (s.holds (s.lock.enqueue id)).rests
        (call.goto (.lockWait part))
  | selectFails {attempt : Attempt} {remaining : Time} {error : AppError}
      (hrunning : s.running = some id)
      (hpoint : call.point = .critical (.select attempt remaining))
      (hselect : s.scheduler.selectWorker config call.excludeIds = .error error) :
      CallStep config s id call .run (s.holds s.lock.release).rests
        (call.goto (.finished (.raised error)))
  | selects {attempt : Attempt} {remaining : Time} {worker : String} {scheduler : Scheduler}
      (hrunning : s.running = some id)
      (hpoint : call.point = .critical (.select attempt remaining))
      (hselect : s.scheduler.selectWorker config call.excludeIds = .ok (worker, scheduler)) :
      CallStep config s id call .run (s.selected scheduler)
        ((call.selected worker (s.scheduler.registry.node worker)).goto
          (.dispatch attempt worker remaining))
  | sends {attempt : Attempt} {worker : String} {remaining : Time}
      (hrunning : s.running = some id)
      (hpoint : call.point = .dispatch attempt worker remaining) :
      CallStep config s id call .run s.rests
        ((call.send worker remaining s.now).goto (.awaitRpc attempt worker))
  | dispatchFails {attempt : Attempt} {worker : String} {remaining : Time}
      (hrunning : s.running = some id)
      (hpoint : call.point = .dispatch attempt worker remaining) :
      CallStep config s id call .dispatchFails s (call.cleanUp worker (.leave .foreign))
  -- the RPC ends
  | rpcSuccess {attempt : Attempt} {worker : String} {resp : PredictResponse}
      (hrunning : s.running = none) (hpoint : call.point = .awaitRpc attempt worker) :
      CallStep config s id call (.rpcResult id (.success resp)) (s.runs id)
        ((call.endRpc (.success resp)).cleanUp worker
          (.leave (.returned (resultOf attempt worker resp))))
  | rpcUnavailable {attempt : Attempt} {worker : String} {details : Option String}
      (hrunning : s.running = none) (hpoint : call.point = .awaitRpc attempt worker) :
      CallStep config s id call (.rpcResult id (.status .unavailable details))
        (((s.runs id).countRpcFailure worker .unavailable).markUnhealthy config worker)
        (((call.endRpc (.status .unavailable details)).exclude worker).goto
          (.retryCheck attempt worker))
  | rpcStatus {attempt : Attempt} {worker : String} {code : StatusCode} {details : Option String}
      {error : AppError} (hrunning : s.running = none)
      (hpoint : call.point = .awaitRpc attempt worker) (hcode : code ≠ .unavailable)
      (herror : mapRpcError code details = .error error) :
      CallStep config s id call (.rpcResult id (.status code details))
        ((s.runs id).countRpcFailure worker code)
        ((call.endRpc (.status code details)).cleanUp worker (.leave (.raised error)))
  | rpcForeign {attempt : Attempt} {worker : String} (hrunning : s.running = none)
      (hpoint : call.point = .awaitRpc attempt worker) :
      CallStep config s id call (.rpcResult id .foreign) (s.runs id)
        ((call.endRpc .foreign).cleanUp worker (.leave .foreign))
  | retries {attempt : Attempt} {worker : String} (hrunning : s.running = some id)
      (hpoint : call.point = .retryCheck attempt worker) (hfirst : attempt = .first)
      (hbudget : (config.minRetryBudgetMs : ℚ) ≤ call.remaining s.now * 1000) :
      CallStep config s id call .run (s.countRetry "attempted")
        ((call.readRetry s.now).cleanUp worker (.next .first))
  | givesUp {attempt : Attempt} {worker : String} (hrunning : s.running = some id)
      (hpoint : call.point = .retryCheck attempt worker)
      (hbudget : ¬ (attempt = .first ∧
        (config.minRetryBudgetMs : ℚ) ≤ call.remaining s.now * 1000)) :
      CallStep config s id call .run (s.countRetry "failed")
        ((call.readRetry s.now).cleanUp worker (.leave (.raised retryExhausted)))
  -- `release_worker`
  | goesOn {worker : String} (hrunning : s.running = some id)
      (hpoint : call.point = .critical (.release worker (.next .first))) :
      CallStep config s id call .run (s.released worker)
        ((call.released worker).goto (.budget .second))
  | loopEnds {worker : String} (hrunning : s.running = some id)
      (hpoint : call.point = .critical (.release worker (.next .second))) :
      CallStep config s id call .run (s.released worker).rests
        ((call.released worker).goto (.finished (.raised failedAfterRetries)))
  | leaves {worker : String} {outcome : CallOutcome} (hrunning : s.running = some id)
      (hpoint : call.point = .critical (.release worker (.leave outcome))) :
      CallStep config s id call .run (s.released worker).rests
        ((call.released worker).goto (.finished outcome))
  -- cancellation and the lock
  | cancelStart (hrunning : s.running = none) (hpoint : call.point = .start) :
      CallStep config s id call (.cancel id) s (call.goto (.finished .cancelled))
  | cancelRpc {attempt : Attempt} {worker : String} (hrunning : s.running = none)
      (hpoint : call.point = .awaitRpc attempt worker) :
      CallStep config s id call (.cancel id) (s.runs id) (call.cleanUp worker (.leave .cancelled))
  | cancelWait {part : Section} (hrunning : s.running = none)
      (hpoint : call.point = .lockWait part) :
      CallStep config s id call (.cancel id) (s.holds (s.lock.abandon id))
        (call.goto (.finished .cancelled))
  | granted {part : Section} {lock : Lock ℕ} (hrunning : s.running = none)
      (hpoint : call.point = .lockWait part) (hgrant : s.lock.grant id = some lock) :
      CallStep config s id call (.lockGranted id) ((s.holds lock).runs id)
        (call.goto (.critical part))

/-- What a gateway can do. -/
inductive Step (config : GatewayConfig) : Gateway → Event → Gateway → Prop
  | tick {g : Gateway} {elapsed : Time} (helapsed : 0 ≤ elapsed) :
      Step config g (.tick elapsed) { g with now := g.now + elapsed }
  | call {g : Gateway} {requestId : String} {inputs : List String} {modelVersion : String}
      {timeoutMs : ℤ} (hrunning : g.running = none) :
      Step config g (.call requestId inputs modelVersion timeoutMs)
        { g with calls := g.calls ++ [newCall requestId inputs modelVersion timeoutMs] }
  | probe {g : Gateway} {worker : String} {outcome : ProbeOutcome} (hrunning : g.running = none)
      (hworker : worker ∈ g.scheduler.registry.ids) :
      Step config g (.probe worker outcome)
        { g with toShared := g.toShared.probe config worker outcome }
  | move {g : Gateway} {event : Event} {id : ℕ} {call call' : Call} {s : Shared}
      (hcall : g.calls[id]? = some call)
      (hmove : CallStep config g.toShared id call event s call') :
      Step config g event (g.store id (s, call'))

/-! ## There is nothing else -/

/-- The call that is running is not suspended, and it exists. -/
def Runs (g : Gateway) : Prop :=
  ∀ id, g.running = some id → ∃ call, g.calls[id]? = some call ∧ call.point.suspended = false

private theorem callStep_of_advance {s : Shared} {id : ℕ} {call : Call}
    (hrunning : s.running = some id) (hsuspended : call.point.suspended = false) :
    CallStep config s id call .run (call.advance config s id call.point).1
      (call.advance config s id call.point).2 := by
  cases hpoint : call.point with
  | start | lockWait _ | awaitRpc _ _ | finished _ =>
      simp [hpoint, CallPoint.suspended] at hsuspended
  | budget attempt =>
      simp only [Call.advance]
      split
      · exact .noBudget hrunning hpoint ‹_›
      · exact .budget hrunning hpoint (not_le.mp ‹_›)
  | acquire part =>
      simp only [Call.advance]
      split
      · exact .acquired hrunning hpoint ‹_›
      · exact .blocked hrunning hpoint ‹_›
  | critical part =>
      cases part with
      | select attempt remaining =>
          simp only [Call.advance]
          split
          · exact .selectFails hrunning hpoint ‹_›
          · exact .selects hrunning hpoint ‹_›
      | release worker after =>
          rcases after with ⟨_ | _⟩ | outcome
          · exact .goesOn hrunning hpoint
          · exact .loopEnds hrunning hpoint
          · exact .leaves hrunning hpoint
  | dispatch attempt worker remaining => exact .sends hrunning hpoint
  | retryCheck attempt worker =>
      simp only [Call.advance]
      split
      · rename_i hretry
        obtain ⟨rfl, hbudget⟩ := hretry
        exact .retries hrunning hpoint rfl hbudget
      · exact .givesUp hrunning hpoint ‹_›

private theorem callStep_of_rpcResult {s : Shared} {id : ℕ} {call : Call} {attempt : Attempt}
    {worker : String} (hrunning : s.running = none)
    (hpoint : call.point = .awaitRpc attempt worker) (outcome : RpcOutcome) :
    CallStep config s id call (.rpcResult id outcome)
      (call.resumeRpc config s id attempt worker outcome).1
      (call.resumeRpc config s id attempt worker outcome).2 := by
  cases outcome with
  | success resp => exact .rpcSuccess hrunning hpoint
  | foreign => exact .rpcForeign hrunning hpoint
  | status code details =>
      simp only [Call.resumeRpc]
      split
      · rename_i hcode
        subst hcode
        exact .rpcUnavailable hrunning hpoint
      · obtain ⟨error, herror⟩ := mapRpcError_raises code details
        simp only [herror]
        exact .rpcStatus hrunning hpoint ‹_› herror

/-- **The inversion lemma.**  Every event that can happen is one of the branches of `Step`. -/
theorem step_cases {g next : Gateway} {event : Event} (hruns : Runs g)
    (hstep : g.step config event = some next) : Step config g event next := by
  cases event with
  | tick elapsed =>
      simp only [step, Option.ite_none_right_eq_some, Option.some.injEq] at hstep
      obtain ⟨helapsed, rfl⟩ := hstep
      exact .tick helapsed
  | call requestId inputs modelVersion timeoutMs =>
      simp only [step, Option.ite_none_right_eq_some, Option.some.injEq] at hstep
      obtain ⟨hrunning, rfl⟩ := hstep
      exact .call hrunning
  | probe worker outcome =>
      simp only [step, Option.ite_none_right_eq_some, Option.some.injEq] at hstep
      obtain ⟨⟨hrunning, hworker⟩, rfl⟩ := hstep
      exact .probe hrunning hworker
  | start id =>
      simp only [step, Option.bind_eq_bind, Option.bind_eq_some_iff] at hstep
      obtain ⟨_, hrunning, call, hcall, hstep⟩ := hstep
      split at hstep <;> simp only [Option.some.injEq, reduceCtorEq] at hstep
      subst hstep
      exact .move hcall (.start (by simpa using hrunning) ‹_›)
  | run =>
      simp only [step, Option.bind_eq_bind, Option.bind_eq_some_iff, Option.some.injEq] at hstep
      obtain ⟨id, hrunning, call, hcall, rfl⟩ := hstep
      obtain ⟨call', hcall', hsuspended⟩ := hruns id hrunning
      obtain rfl := Option.some.inj (hcall.symm.trans hcall')
      exact .move hcall (callStep_of_advance hrunning hsuspended)
  | dispatchFails =>
      simp only [step, Option.bind_eq_bind, Option.bind_eq_some_iff] at hstep
      obtain ⟨id, hrunning, call, hcall, hstep⟩ := hstep
      split at hstep <;> simp only [Option.some.injEq, reduceCtorEq] at hstep
      subst hstep
      exact .move hcall (.dispatchFails hrunning ‹_›)
  | rpcResult id outcome =>
      simp only [step, Option.bind_eq_bind, Option.bind_eq_some_iff] at hstep
      obtain ⟨_, hrunning, call, hcall, hstep⟩ := hstep
      split at hstep <;> simp only [Option.some.injEq, reduceCtorEq] at hstep
      subst hstep
      exact .move hcall (callStep_of_rpcResult (by simpa using hrunning) ‹_› outcome)
  | cancel id =>
      simp only [step, Option.bind_eq_bind, Option.bind_eq_some_iff, Option.some.injEq] at hstep
      obtain ⟨_, hrunning, call, hcall, outcome, hcancel, rfl⟩ := hstep
      have hidle : g.toShared.running = none := by simpa using hrunning
      unfold Call.resumeCancelled at hcancel
      split at hcancel <;> simp only [Option.some.injEq, reduceCtorEq] at hcancel <;> subst hcancel
      · exact .move hcall (.cancelStart hidle ‹_›)
      · exact .move hcall (.cancelRpc hidle ‹_›)
      · exact .move hcall (.cancelWait hidle ‹_›)
  | lockGranted id =>
      simp only [step, Option.bind_eq_bind, Option.bind_eq_some_iff] at hstep
      obtain ⟨_, hrunning, call, hcall, hstep⟩ := hstep
      split at hstep <;> simp only [Option.some.injEq, reduceCtorEq] at hstep
      subst hstep
      exact .move hcall (.granted (by simpa using hrunning) ‹_› ‹_›)

/-! ## One call at a time -/

theorem getElem?_store {g : Gateway} {id index : ℕ} {s : Shared} {call moved : Call}
    (h : (g.store id (s, moved)).calls[index]? = some call) :
    index = id ∧ call = moved ∨ index ≠ id ∧ g.calls[index]? = some call := by
  simp only [store, List.getElem?_set] at h
  split at h
  · split at h
    · exact .inl ⟨(‹id = index›).symm, (Option.some.inj h).symm⟩
    · simp at h
  · exact .inr ⟨fun heq => ‹id ≠ index› heq.symm, h⟩

theorem getElem?_store_self {g : Gateway} {id : ℕ} {s : Shared} {call moved : Call}
    (hcall : g.calls[id]? = some call) : (g.store id (s, moved)).calls[id]? = some moved := by
  have hid : id < g.calls.length := (List.getElem?_eq_some_iff.mp hcall).1
  simp [store, hid]

/-- A call moves only while no other call runs, and runs on or is suspended afterwards. -/
theorem running_of_callStep {s next : Shared} {id : ℕ} {call moved : Call} {event : Event}
    (hmove : CallStep config s id call event next moved) :
    (s.running = none ∨ s.running = some id) ∧
      (next.running = some id ∧ moved.point.suspended = false ∨
        next.running = none ∧ moved.point.suspended = true) := by
  cases hmove <;> simp_all [CallPoint.suspended]

/-- Who runs, and that the lock is held by the running call only, inside its critical
sections only, so that nobody ever waits for it. -/
structure Orderly (g : Gateway) : Prop where
  runs : Runs g
  rests : ∀ id call, g.calls[id]? = some call → g.running ≠ some id →
    call.point.suspended = true
  waiters : g.lock.waiters = []
  locked : g.lock.locked = true → ∃ (id : ℕ) (call : Call) (part : Section),
    g.running = some id ∧ g.calls[id]? = some call ∧ call.point = .critical part
  critical : ∀ (id : ℕ) (call : Call) (part : Section), g.calls[id]? = some call →
    call.point = .critical part → g.lock.locked = true
  noWait : ∀ (id : ℕ) (call : Call) (part : Section), g.calls[id]? = some call →
    call.point ≠ .lockWait part

/-- Between the steps of the calls nobody has the lock. -/
theorem Orderly.free {g : Gateway} (h : Orderly g) (hrunning : g.running = none) :
    g.lock.Free := by
  refine ⟨?_, h.waiters⟩
  by_contra hlocked
  rw [Bool.not_eq_false] at hlocked
  obtain ⟨_, _, _, hsome, _⟩ := h.locked hlocked
  simp [hrunning] at hsome

/-- On a free lock `acquire` does not suspend, and each critical section ends with a release. -/
theorem lock_of_callStep {s next : Shared} {id : ℕ} {call moved : Call} {event : Event}
    (hmove : CallStep config s id call event next moved) (hwaiters : s.lock.waiters = [])
    (hlocked : s.lock.locked = true ↔ ∃ part, call.point = .critical part)
    (hwait : ∀ part, call.point ≠ .lockWait part) :
    next.lock.waiters = [] ∧ (next.lock.locked = true ↔ ∃ part, moved.point = .critical part) ∧
      ∀ part, moved.point ≠ .lockWait part := by
  -- a call that is about to acquire the lock is not in a critical section, so it is free
  have hfree : ∀ part, call.point = .acquire part → s.lock.Free := by
    intro part hpoint
    refine ⟨?_, hwaiters⟩
    rw [← Bool.not_eq_true, hlocked]
    simp [hpoint]
  cases hmove
  case acquired part _ _ hpoint hlock =>
    rw [Lock.acquire_of_free (hfree part hpoint)] at hlock
    obtain rfl := Option.some.inj hlock
    exact ⟨hwaiters, by simp, by simp⟩
  case blocked part _ hpoint hlock =>
    rw [Lock.acquire_of_free (hfree part hpoint)] at hlock
    exact absurd hlock nofun
  case cancelWait hpoint | granted hpoint _ => exact absurd hpoint (hwait _)
  all_goals simp_all [Lock.release]

theorem orderly_of_callStep {g : Gateway} {event : Event} {id : ℕ} {call moved : Call}
    {s : Shared} (h : Orderly g) (hcall : g.calls[id]? = some call)
    (hmove : CallStep config g.toShared id call event s moved) :
    Orderly (g.store id (s, moved)) := by
  obtain ⟨hbefore, hafter⟩ := running_of_callStep hmove
  have hlocked : g.lock.locked = true ↔ ∃ part, call.point = .critical part := by
    constructor
    · intro htaken
      obtain ⟨holder, held, part, hrunning, hheld, hpoint⟩ := h.locked htaken
      rcases hbefore with hnone | hsome
      · simp [hnone] at hrunning
      · obtain rfl : id = holder := Option.some.inj (hsome.symm.trans hrunning)
        obtain rfl := Option.some.inj (hcall.symm.trans hheld)
        exact ⟨part, hpoint⟩
    · rintro ⟨part, hpoint⟩
      exact h.critical id call part hcall hpoint
  obtain ⟨hwaiters, htaken, hwait⟩ :=
    lock_of_callStep hmove h.waiters hlocked fun part => h.noWait id call part hcall
  have hmoved : (g.store id (s, moved)).calls[id]? = some moved := getElem?_store_self hcall
  -- a call that is not suspended is the one that moved
  have hothers : ∀ (index : ℕ) (other : Call),
      (g.store id (s, moved)).calls[index]? = some other →
      other.point.suspended = false → other = moved := by
    intro index other hother hsuspended
    rcases getElem?_store hother with ⟨_, rfl⟩ | ⟨hne, hold⟩
    · rfl
    · have hrest : g.running ≠ some index := by
        rcases hbefore with hnone | hsome
        · simp [hnone]
        · simpa [hsome] using hne.symm
      simp [h.rests index other hold hrest] at hsuspended
  refine ⟨?_, ?_, hwaiters, ?_, ?_, ?_⟩
  · intro running hrunning
    rcases hafter with ⟨hsome, hsuspended⟩ | ⟨hnone, _⟩
    · obtain rfl : id = running := Option.some.inj (hsome.symm.trans hrunning)
      exact ⟨moved, hmoved, hsuspended⟩
    · exact absurd (hnone.symm.trans hrunning) nofun
  · intro index other hother hrest
    by_contra hsuspended
    rw [Bool.not_eq_true] at hsuspended
    obtain rfl := hothers index other hother hsuspended
    rcases getElem?_store hother with ⟨rfl, _⟩ | ⟨hne, hold⟩
    · rcases hafter with ⟨hsome, _⟩ | ⟨_, hmovedSuspended⟩
      · exact hrest hsome
      · simp [hsuspended] at hmovedSuspended
    · rcases hbefore with hnone | hsome
      · simp [h.rests index other hold (by simp [hnone])] at hsuspended
      · simp [h.rests index other hold (by simpa [hsome] using hne.symm)] at hsuspended
  · intro hnow
    obtain ⟨part, hpoint⟩ := htaken.mp hnow
    rcases hafter with ⟨hsome, _⟩ | ⟨_, hsuspended⟩
    · exact ⟨id, moved, part, hsome, hmoved, hpoint⟩
    · simp [hpoint, CallPoint.suspended] at hsuspended
  · intro index other part hother hpoint
    have hmovedPoint := hothers index other hother (by simp [hpoint, CallPoint.suspended])
    exact htaken.mpr ⟨part, hmovedPoint ▸ hpoint⟩
  · intro index other part hother
    rcases getElem?_store hother with ⟨_, rfl⟩ | ⟨_, hold⟩
    · exact hwait part
    · exact h.noWait index other part hold

theorem orderly_of_step {g next : Gateway} {event : Event} (hstep : Step config g event next)
    (h : Orderly g) : Orderly next := by
  cases hstep with
  | tick helapsed =>
      exact ⟨h.runs, h.rests, h.waiters, h.locked, h.critical, h.noWait⟩
  | probe hrunning hworker =>
      exact ⟨h.runs, h.rests, h.waiters, h.locked, h.critical, h.noWait⟩
  | call hrunning =>
      have hcalls : ∀ (index : ℕ) (other new : Call), (g.calls ++ [new])[index]? = some other →
          g.calls[index]? = some other ∨ other = new := by
        intro index other new hother
        rw [List.getElem?_append] at hother
        split at hother
        · exact .inl hother
        · right
          simpa using (List.mem_of_getElem? hother)
      have hfree : g.lock.locked ≠ true := by
        intro htaken
        obtain ⟨_, _, _, hsome, _⟩ := h.locked htaken
        simp [hrunning] at hsome
      refine ⟨fun id hsome => by simp [hrunning] at hsome, ?_, h.waiters,
        fun htaken => absurd htaken hfree, ?_, ?_⟩
      · intro index other hother _
        rcases hcalls index other _ hother with hold | rfl
        · exact h.rests index other hold (by simp [hrunning])
        · rfl
      · intro index other part hother hpoint
        rcases hcalls index other _ hother with hold | rfl
        · exact h.critical index other part hold hpoint
        · exact CallPoint.noConfusion hpoint
      · intro index other part hother
        rcases hcalls index other _ hother with hold | rfl
        · exact h.noWait index other part hold
        · exact CallPoint.noConfusion
  | move hcall hmove => exact orderly_of_callStep h hcall hmove

theorem orderly_of_reachable {g : Gateway} (hreach : (machine config).Reachable g) :
    Orderly g := by
  apply hreach.invariant
  · rintro g ⟨now, rfl⟩
    constructor <;> simp [initial, Runs]
  · intro g event next _ h hevent
    exact orderly_of_step (step_cases h.runs hevent) h

/-- The inversion lemma for reachable gateways. -/
theorem step_of_reachable {g next : Gateway} {event : Event}
    (hreach : (machine config).Reachable g) (hstep : g.step config event = some next) :
    Step config g event next :=
  step_cases (orderly_of_reachable hreach).runs hstep

/-- An invariant of the single calls. -/
def EveryCall (Inv : Call → Prop) (g : Gateway) : Prop := ∀ call ∈ g.calls, Inv call

/-- **The rule for a single call.**  What holds of a new call and is preserved by
everything a call can do holds of every call, whatever the other calls do. -/
theorem calls_of_reachable {Inv : Call → Prop} {g : Gateway}
    (hreach : (machine config).Reachable g)
    (hnew : ∀ requestId inputs modelVersion timeoutMs,
      Inv (newCall requestId inputs modelVersion timeoutMs))
    (hmove : ∀ s id call event next moved, CallStep config s id call event next moved →
      (∀ part, call.point ≠ .lockWait part) → Inv call → Inv moved) : EveryCall Inv g := by
  apply hreach.invariant
  · rintro g ⟨now, rfl⟩ call hmem
    exact absurd hmem List.not_mem_nil
  · intro g event next hbefore h hevent
    cases step_of_reachable hbefore hevent with
    | tick _ | probe _ _ => exact h
    | call hrunning =>
        intro call hmem
        rcases List.mem_append.mp hmem with hold | hlast
        · exact h call hold
        · exact List.mem_singleton.mp hlast ▸ hnew _ _ _ _
    | move hcall hstep =>
        intro call hmem
        rcases List.mem_or_eq_of_mem_set hmem with hold | rfl
        · exact h call hold
        · exact hmove _ _ _ _ _ _ hstep
            (fun part => (orderly_of_reachable hbefore).noWait _ _ part hcall)
            (h _ (List.mem_of_getElem? hcall))

end Gateway
end ModelServer
