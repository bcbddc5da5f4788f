import ModelServer.Gateway.Retry

/-!
# How a call ends after a transport failure

Between an RPC that ended with `UNAVAILABLE` and the next one `predict` does not
suspend: it checks the budget, releases the worker, checks the deadline and selects
another worker.  Only the first of these checks raises a `WorkerUnavailableError`.
The others raise what they raise in the first attempt, so that a failed transport
looks like an overload, an empty cluster or an expired deadline.

`AfterFailure` is what holds of a call from its failed RPC on, until it sends the
second one.
-/

namespace ModelServer

open Asyncio Transition

/-- The call is on its way to the second attempt. -/
def Section.retrying : Section → Prop
  | .release _ (.next .first) | .select .second _ => True
  | _ => False

/-- The call is on its way to the second RPC. -/
def CallPoint.retrying : CallPoint → Prop
  | .budget .second | .dispatch .second _ _ => True
  | .acquire part | .lockWait part | .critical part => part.retrying
  | _ => False

/-- How an attempt may end before it sends anything. -/
def CallOutcome.Unsent (outcome : CallOutcome) : Prop :=
  outcome = .raised budgetExhausted ∨ outcome = .raised (.default .noHealthyWorkerError) ∨
    outcome = .raised (.default .gatewayAtCapacityError) ∨ outcome = .foreign

namespace Scheduler

variable {config : GatewayConfig}

/-- The two errors of `select_worker`. -/
theorem selectWorker_error {s : Scheduler} {excludeIds : Finset String} {error : AppError}
    (h : s.selectWorker config excludeIds = .error error) :
    error = .default .noHealthyWorkerError ∨ error = .default .gatewayAtCapacityError := by
  unfold selectWorker at h
  split at h
  · cases h
    exact .inl rfl
  · split at h
    · cases h
      exact .inr rfl
    · cases h

end Scheduler

namespace Gateway

variable {config : GatewayConfig}

/-- Too little of the deadline was left at a reading of the clock. -/
def OutOfBudget (config : GatewayConfig) (call : Call) (reading : Time) : Prop :=
  call.remaining reading * 1000 < config.minRetryBudgetMs

/-- After the budget check, which read the clock at `reading`. -/
structure Checked (config : GatewayConfig) (call : Call) (reading : Time) : Prop where
  read : call.retryReadings = [reading]
  late : OutOfBudget config call reading → call.point.outcome? = some (.raised retryExhausted)
  inTime : ¬ OutOfBudget config call reading → call.point.retrying ∨
    ∃ outcome, call.point.outcome? = some outcome ∧ outcome.Unsent

/-- The only RPC that was sent has ended with `UNAVAILABLE`. -/
def Failed (call : Call) : Prop :=
  ∃ rpc details, call.sent = [rpc] ∧ call.ended = [.status .unavailable details]

/-- What holds of a call from its failed RPC on. -/
def AfterFailure (config : GatewayConfig) (call : Call) : Prop :=
  Failed call → (∃ worker, call.point = .retryCheck .first worker) ∨
    ∃ reading, Checked config call reading

/-- A step that keeps the record and goes to a point that stands for the same. -/
theorem AfterFailure.keeps {call moved : Call} (h : AfterFailure config call)
    (hsent : moved.sent = call.sent) (hended : moved.ended = call.ended)
    (hreadings : moved.retryReadings = call.retryReadings)
    (hdeadline : moved.gatewayDeadline = call.gatewayDeadline)
    (hcheck : ∀ worker, call.point ≠ .retryCheck .first worker)
    (houtcome : ∀ outcome, call.point.outcome? = some outcome →
      moved.point.outcome? = some outcome)
    (hretrying : call.point.retrying → moved.point.retrying ∨
      ∃ outcome, moved.point.outcome? = some outcome ∧ outcome.Unsent) :
    AfterFailure config moved := by
  intro hfailed
  have hbefore : Failed call := by simpa only [Failed, hsent, hended] using hfailed
  rcases h hbefore with ⟨worker, hpoint⟩ | ⟨reading, hread, hover, hleft⟩
  · exact absurd hpoint (hcheck worker)
  · have hsame : OutOfBudget config moved reading ↔ OutOfBudget config call reading := by
      simp only [OutOfBudget, Call.remaining, hdeadline]
    refine .inr ⟨reading, hreadings.trans hread, fun hout => ?_, fun hin => ?_⟩
    · exact houtcome _ (hover (hsame.mp hout))
    · rcases hleft (mt hsame.mpr hin) with hretry | ⟨outcome, hsettled, hunsent⟩
      · exact hretrying hretry
      · exact .inr ⟨outcome, houtcome outcome hsettled, hunsent⟩

theorem not_failed_of_awaitRpc {call : Call} {attempt : Attempt} {worker : String}
    (hshape : Shape config call call.point) (hpoint : call.point = .awaitRpc attempt worker) :
    ¬ Failed call := by
  rintro ⟨rpc, details, hsent, hended⟩
  obtain ⟨hlength, _⟩ := length_ended_of_awaitRpc (hpoint ▸ hshape)
  simp [hsent, hended] at hlength

theorem afterFailure_of_callStep {s next : Shared} {id : ℕ} {call moved : Call} {event : Event}
    (hmove : CallStep config s id call event next moved)
    (hshape : Shape config call call.point) (hwait : ∀ part, call.point ≠ .lockWait part)
    (h : AfterFailure config call) : AfterFailure config moved := by
  cases hmove
  case start hpoint =>
    rw [hpoint] at hshape
    rintro ⟨rpc, _, hsent, _⟩
    have hnothing : call.sent = [] := hshape.1
    simp [hnothing] at hsent
  case cancelStart hpoint =>
    rw [hpoint] at hshape
    rintro ⟨rpc, _, hsent, _⟩
    have hnothing : call.sent = [] := hshape.1
    simp [hnothing] at hsent
  case sends attempt worker remaining _ hpoint =>
    rw [hpoint] at hshape
    rintro ⟨rpc, _, hsent, hended⟩
    cases attempt with
    | first =>
        have hnothing : call.ended = [] := hshape.1.2.1
        simp [hnothing] at hended
    | second =>
        obtain ⟨⟨_, _, _, hbefore, _⟩, _⟩ := hshape
        simp [hbefore] at hsent
  case rpcUnavailable attempt worker details _ hpoint =>
    rw [hpoint] at hshape
    obtain ⟨_, hattempt, _⟩ := length_ended_of_awaitRpc hshape
    rintro ⟨rpc, _, hsent, _⟩
    cases attempt with
    | first => exact .inl ⟨worker, rfl⟩
    | second => simp_all [Attempt.number]
  case rpcSuccess hpoint =>
    rintro ⟨_, _, _, hended⟩
    exact absurd (congrArg List.getLast? hended) (by simp)
  case rpcStatus hcode _ =>
    rintro ⟨_, _, _, hended⟩
    exact absurd (congrArg List.getLast? hended) (by simp [hcode])
  case rpcForeign hpoint =>
    rintro ⟨_, _, _, hended⟩
    exact absurd (congrArg List.getLast? hended) (by simp)
  case cancelRpc hpoint =>
    rintro ⟨rpc, details, hsent, hended⟩
    exact absurd ⟨rpc, details, hsent, hended⟩ (not_failed_of_awaitRpc hshape hpoint)
  case retries attempt worker _ hpoint hfirst hbudget =>
    subst hfirst
    rw [hpoint] at hshape
    obtain ⟨_, _, _, _, _, _, hreadings⟩ := hshape
    intro hfailed
    refine .inr ⟨s.now, by simp [hreadings], fun hout => ?_, fun _ => .inl trivial⟩
    exact absurd hbudget (not_le.mpr hout)
  case givesUp attempt worker _ hpoint hbudget =>
    rintro ⟨rpc, details, hsent, hended⟩
    rcases h ⟨rpc, details, hsent, hended⟩ with ⟨_, hchecking⟩ | ⟨reading, _, hover, hleft⟩
    · obtain ⟨rfl, _⟩ : attempt = .first ∧ _ := by simpa [hpoint] using hchecking
      rw [hpoint] at hshape
      obtain ⟨_, _, _, _, _, _, hreadings⟩ := hshape
      refine .inr ⟨s.now, by simp [hreadings], fun _ => rfl, fun hin => ?_⟩
      exact absurd ⟨rfl, not_lt.mp hin⟩ hbudget
    · -- the budget has not been checked yet
      exfalso
      by_cases hout : OutOfBudget config call reading
      · simp [hpoint, CallPoint.outcome?] at hover
        exact hover hout
      · simp [hpoint, CallPoint.outcome?, CallPoint.retrying] at hleft
        exact hout hleft
  case selectFails attempt remaining error _ hpoint hselect =>
    refine h.keeps rfl rfl rfl rfl (by simp [hpoint])
      (by simp [hpoint, CallPoint.outcome?, Section.outcome?]) fun _ => .inr ⟨_, rfl, ?_⟩
    rcases Scheduler.selectWorker_error hselect with rfl | rfl
    · exact .inr (.inl rfl)
    · exact .inr (.inr (.inl rfl))
  case dispatchFails hpoint =>
    exact h.keeps rfl rfl rfl rfl (by simp [hpoint]) (by simp [hpoint, CallPoint.outcome?])
      fun _ => .inr ⟨_, rfl, .inr (.inr (.inr rfl))⟩
  case noBudget hpoint _ =>
    exact h.keeps rfl rfl rfl rfl (by simp [hpoint]) (by simp [hpoint, CallPoint.outcome?])
      fun _ => .inr ⟨_, rfl, .inl rfl⟩
  case cancelWait hpoint => exact absurd hpoint (hwait _)
  case granted hpoint _ => exact absurd hpoint (hwait _)
  case budget attempt _ hpoint _ =>
    refine h.keeps rfl rfl rfl rfl (by simp [hpoint]) (by simp [hpoint, CallPoint.outcome?]) ?_
    intro hretrying
    rw [hpoint] at hretrying
    cases attempt with
    | first => exact hretrying.elim
    | second => exact .inl trivial
  case selects attempt _ _ _ _ hpoint _ =>
    refine h.keeps rfl rfl rfl rfl (by simp [hpoint])
      (by simp [hpoint, CallPoint.outcome?, Section.outcome?]) ?_
    intro hretrying
    rw [hpoint] at hretrying
    cases attempt with
    | first => exact hretrying.elim
    | second => exact .inl trivial
  case acquired hpoint _ | blocked hpoint _ =>
    refine h.keeps rfl rfl rfl rfl (by simp [hpoint]) ?_ fun hretrying => .inl ?_
    · simp [hpoint, CallPoint.outcome?]
    · rwa [hpoint] at hretrying
  case goesOn hpoint =>
    exact h.keeps rfl rfl rfl rfl (by simp [hpoint])
      (by simp [hpoint, CallPoint.outcome?, Section.outcome?]) fun _ => .inl trivial
  case loopEnds hpoint =>
    refine h.keeps rfl rfl rfl rfl (by simp [hpoint])
      (by simp [hpoint, CallPoint.outcome?, Section.outcome?]) ?_
    intro hretrying
    rw [hpoint] at hretrying
    exact hretrying.elim
  case leaves hpoint =>
    refine h.keeps rfl rfl rfl rfl (by simp [hpoint])
      (by simp [hpoint, CallPoint.outcome?, Section.outcome?]) ?_
    intro hretrying
    rw [hpoint] at hretrying
    exact hretrying.elim

theorem afterFailure_of_reachable {g : Gateway} (hreach : (machine config).Reachable g) :
    EveryCall (fun call => Protocol config call ∧ AfterFailure config call) g := by
  refine calls_of_reachable hreach ?_ ?_
  · intro requestId inputs modelVersion timeoutMs
    refine ⟨protocol_newCall requestId inputs modelVersion timeoutMs, ?_⟩
    rintro ⟨_, _, hsent, _⟩
    simp [newCall] at hsent
  · intro s id call event next moved hmove hwait h
    exact ⟨protocol_of_callStep hmove hwait h.1, afterFailure_of_callStep hmove h.1.shape hwait h.2⟩

/-- **A transport failure.**  A call whose only RPC ended with `UNAVAILABLE`, once it is not
running any more, has ended; it has raised a `WorkerUnavailableError` exactly if the clock,
read after the failure, left less than the retry budget.  Otherwise it has raised another
error: the deadline is over, there is no healthy worker, or no worker has room. -/
theorem unavailable_iff {g : Gateway} (hreach : (machine config).Reachable g) {id : ℕ}
    {call : Call} (hcall : g.calls[id]? = some call) (hrest : g.running ≠ some id)
    (hfailed : Failed call) : ∃ reading, call.retryReadings = [reading] ∧
      ((∃ message, call.point = .finished (.raised ⟨.workerUnavailableError, message⟩)) ↔
        OutOfBudget config call reading) ∧
      (¬ OutOfBudget config call reading →
        ∃ outcome, call.point = .finished outcome ∧ outcome.Unsent) := by
  obtain ⟨_, hafter⟩ := afterFailure_of_reachable hreach call (List.mem_of_getElem? hcall)
  have horderly := orderly_of_reachable hreach
  have hsuspended := horderly.rests id call hcall hrest
  rcases hafter hfailed with ⟨worker, hpoint⟩ | ⟨reading, hread, hover, hleft⟩
  · simp [hpoint, CallPoint.suspended] at hsuspended
  have hends : ¬ OutOfBudget config call reading →
      ∃ outcome, call.point = .finished outcome ∧ outcome.Unsent := by
    intro hin
    rcases hleft hin with hretrying | ⟨outcome, houtcome, hunsent⟩
    · cases hpoint : call.point with
      | lockWait part => exact absurd hpoint (horderly.noWait id call part hcall)
      | budget _ | acquire _ | critical _ | dispatch _ _ _ =>
          simp [hpoint, CallPoint.suspended] at hsuspended
      | start | awaitRpc _ _ | retryCheck _ _ | finished _ =>
          rw [hpoint] at hretrying
          exact hretrying.elim
    · exact ⟨outcome, finished_of_outcome hreach hcall hrest houtcome, hunsent⟩
  refine ⟨reading, hread, ⟨?_, ?_⟩, hends⟩
  · rintro ⟨message, hpoint⟩
    by_contra hin
    obtain ⟨outcome, hfinished, hunsent⟩ := hends hin
    obtain rfl : .raised ⟨.workerUnavailableError, message⟩ = outcome := by
      simpa [hpoint] using hfinished
    rcases hunsent with h | h | h | h <;>
      simp [budgetExhausted, AppError.default] at h
  · intro hout
    exact ⟨_, finished_of_outcome hreach hcall hrest (hover hout)⟩

/-- The only healthy worker is unavailable after some time, and the call goes on. -/
def lonelyRun (waited : Time) (steps : ℕ) : List Event :=
  [.probe "worker-1" (.reply (sampleReply .ready)), .call "r0" ["a"] "tinybert-sst2-v1" 1000,
      .start 0] ++ List.replicate 4 .run
    ++ [.tick waited, .rpcResult 0 (.status .unavailable none)] ++ List.replicate steps .run

/-- The call that `lonelyRun` ends with. -/
def lonelyCall (waited : Time) (steps : ℕ) : Call :=
  (sample {} (lonelyRun waited steps)).calls.headD (newCall "" [] "" 0)

theorem calls_lonelyRun {waited : Time} {steps : ℕ}
    (h : (sample {} (lonelyRun waited steps)).calls.length = 1) :
    (sample {} (lonelyRun waited steps)).calls[0]? = some (lonelyCall waited steps) := by
  obtain ⟨only, hcalls⟩ := List.length_eq_one_iff.mp h
  simp [lonelyCall, hcalls]

theorem failed_of_ended {call : Call}
    (hsent : call.sent.length = 1) (hended : call.ended = [.status .unavailable none]) :
    Failed call := by
  obtain ⟨rpc, hrpc⟩ := List.length_eq_one_iff.mp hsent
  exact ⟨rpc, none, hrpc, hended⟩

theorem unavailable_iff_late :
    ∃ message, (lonelyCall (24 / 25) 3).point =
      .finished (.raised ⟨.workerUnavailableError, message⟩) := by
  obtain ⟨reading, hread, hiff, _⟩ := unavailable_iff
    (reachable_sample {} (lonelyRun (24 / 25) 3)) (calls_lonelyRun (by decide +kernel))
    (by decide +kernel) (failed_of_ended (by decide +kernel) (by decide +kernel))
  have hreading : (lonelyCall (24 / 25) 3).retryReadings = [24 / 25] := by decide +kernel
  obtain rfl : reading = 24 / 25 := by simpa [hread] using hreading
  refine hiff.mpr ?_
  unfold OutOfBudget
  decide +kernel

/-- With most of the deadline left the caller is told that no worker is healthy. -/
theorem unavailable_reported_otherwise :
    ¬ ∀ (g : Gateway) (id : ℕ) (call : Call), (machine {}).Reachable g →
      g.calls[id]? = some call → g.running ≠ some id → Failed call →
      ∃ message, call.point = .finished (.raised ⟨.workerUnavailableError, message⟩) := by
  intro htold
  obtain ⟨message, hpoint⟩ := htold _ 0 _ (reachable_sample {} (lonelyRun (1 / 10) 6))
    (calls_lonelyRun (by decide +kernel)) (by decide +kernel)
    (failed_of_ended (by decide +kernel) (by decide +kernel))
  have hactual : (lonelyCall (1 / 10) 6).point =
      .finished (.raised (.default .noHealthyWorkerError)) := by
    decide +kernel
  rw [hactual] at hpoint
  simp [AppError.default] at hpoint

end Gateway
end ModelServer
