import Mathlib.Algebra.Order.BigOperators.Group.List
import Mathlib.Algebra.Order.Ring.Nat
import ModelServer.Gateway.Retry
import ModelServer.Gateway.Reservations

/-!
# What the client counts

`GATEWAY_RPC_FAILURES_TOTAL` and `GATEWAY_RETRIES_TOTAL` are incremented in the middle of
calls that may be cancelled anywhere, and they are compared with what the calls did.  A
counter is the sum of what the calls have on their records if every step of a call adds
the same to both (`counter_of_reachable`).

* `failures_exact`: one failure is counted for each RPC that ended with a status;
* `attempted_exact`: `attempted` counts the calls that went on to a second attempt;
* `decided_exact` and `unavailable_exact`: both retry counters together are the RPCs that
  ended with `UNAVAILABLE`, but for the call that is just about to decide.
-/

namespace ModelServer

open Asyncio Transition

/-- The name of the gRPC code an RPC ended with. -/
def RpcOutcome.codeName : RpcOutcome → Option String
  | .status code _ => some code.name
  | _ => none

def RpcOutcome.isUnavailable : RpcOutcome → Bool
  | .status .unavailable _ => true
  | _ => false

theorem StatusCode.name_eq_unavailable {code : StatusCode} :
    code.name = "UNAVAILABLE" ↔ code = .unavailable := by
  cases code <;> decide

theorem RpcOutcome.isUnavailable_of_ne {code : StatusCode} (hcode : code ≠ .unavailable)
    (details : Option String) : (RpcOutcome.status code details).isUnavailable = false := by
  cases code
  case unavailable => exact absurd rfl hcode
  all_goals rfl

namespace Call

/-- The RPCs of a call to this worker that ended with this code. -/
def failures (call : Call) (worker codeName : String) : ℕ :=
  (call.sent.zip call.ended).countP fun rpc =>
    rpc.1.worker = worker ∧ rpc.2.codeName = some codeName

@[simp] theorem failures_goto (call : Call) (point : CallPoint) :
    (call.goto point).failures = call.failures := rfl
@[simp] theorem failures_cleanUp (call : Call) (worker : String) (after : AfterRelease) :
    (call.cleanUp worker after).failures = call.failures := rfl
@[simp] theorem failures_exclude (call : Call) (worker : String) :
    (call.exclude worker).failures = call.failures := rfl

/-- Whether the call went on to a second attempt: there was budget left at the first reading. -/
def retries (config : GatewayConfig) (call : Call) : ℕ :=
  match call.retryReadings with
  | [] => 0
  | reading :: _ =>
      if (config.minRetryBudgetMs : ℚ) ≤ call.remaining reading * 1000 then 1 else 0

end Call

/-- `UNAVAILABLE` has been seen, and the retry has not been decided. -/
def CallPoint.undecided : CallPoint → ℕ
  | .retryCheck .. => 1
  | _ => 0

namespace Gateway

variable {config : GatewayConfig}

/-- **The rule for a counter.**  If every step of a call adds the same to a counter and to
the record of the call, the counter is the sum of the records. -/
theorem counter_of_reachable (total : Shared → ℕ) (part : Call → ℕ)
    (hinitial : ∀ now, total (initial config now).toShared = 0)
    (hnew : ∀ requestId inputs modelVersion timeoutMs,
      part (newCall requestId inputs modelVersion timeoutMs) = 0)
    (htick : ∀ (s : Shared) now, total { s with now } = total s)
    (hprobe : ∀ (s : Shared) worker outcome, total (s.probe config worker outcome) = total s)
    (hmove : ∀ (g : Gateway) id call event next moved, (machine config).Reachable g →
      g.calls[id]? = some call → CallStep config g.toShared id call event next moved →
        total next + part call = total g.toShared + part moved)
    {g : Gateway} (hreach : (machine config).Reachable g) :
    total g.toShared = (g.calls.map part).sum := by
  apply hreach.invariant
  · rintro g ⟨now, rfl⟩
    exact hinitial now
  · intro g event next hbefore h hevent
    cases step_of_reachable hbefore hevent with
    | tick _ => exact (htick _ _).trans h
    | probe _ _ => exact (hprobe _ _ _).trans h
    | call _ => simp [h, hnew]
    | @move event id call moved s hcall hstep =>
        have hsum := sum_map_set part hcall moved
        have hstep := hmove g id call event s moved hbefore hcall hstep
        show total s = ((g.calls.set id moved).map part).sum
        omega

/-! ## The failed RPCs -/

/-- The answer that has just come belongs to the RPC that was sent last. -/
theorem failures_endRpc {call : Call} {attempt : Attempt} {worker : String}
    (hshape : Shape config call (.awaitRpc attempt worker)) (outcome : RpcOutcome)
    (other codeName : String) : (call.endRpc outcome).failures other codeName =
      call.failures other codeName +
        if worker = other ∧ outcome.codeName = some codeName then 1 else 0 := by
  obtain ⟨hlength, _, rpc, hlast, rfl⟩ := length_ended_of_awaitRpc hshape
  obtain ⟨before, hsent⟩ : ∃ before, call.sent = before ++ [rpc] :=
    List.getLast?_eq_some_iff.mp hlast
  have hbefore : before.length = call.ended.length := by
    simp only [hsent, List.length_append, List.length_singleton] at hlength
    omega
  have hold : call.sent.zip call.ended = before.zip call.ended := by
    have hzip : (before ++ [rpc]).zip (call.ended ++ []) = before.zip call.ended ++ [rpc].zip [] :=
      List.zip_append hbefore
    simpa [hsent] using hzip
  simp only [Call.failures, Call.endRpc_sent, Call.endRpc_ended, hold]
  rw [hsent, List.zip_append hbefore, List.countP_append]
  simp [List.countP_cons]

/-- A new RPC has no answer yet. -/
theorem failures_send {call : Call} {attempt : Attempt} (hready : Ready config call attempt)
    (worker other codeName : String) (timeout sentAt : Time) :
    (call.send worker timeout sentAt).failures other codeName = call.failures other codeName := by
  cases attempt with
  | first =>
      obtain ⟨hsent, hended, _⟩ := hready
      simp [Call.failures, hsent, hended]
  | second =>
      obtain ⟨rpc, details, _, hsent, hended, _⟩ := hready
      simp [Call.failures, hsent, hended]

theorem rpcFailuresTotal_countRpcFailure (s : Shared) (failed worker codeName : String)
    (code : StatusCode) (details : Option String) :
    (s.countRpcFailure failed code).rpcFailuresTotal worker codeName =
      s.rpcFailuresTotal worker codeName +
        if failed = worker ∧ (RpcOutcome.status code details).codeName = some codeName
          then 1 else 0 := by
  simp only [Shared.countRpcFailure_rpcFailuresTotal, Function.update_apply, RpcOutcome.codeName,
    Option.some.injEq]
  by_cases hworker : worker = failed
  · subst hworker
    by_cases hcode : codeName = code.name
    · simp [hcode]
    · simp [hcode, Ne.symm hcode]
  · simp [hworker, Ne.symm hworker]

theorem failures_of_callStep {s next : Shared} {id : ℕ} {call moved : Call} {event : Event}
    (hmove : CallStep config s id call event next moved)
    (hshape : Shape config call call.point) (worker codeName : String) :
    next.rpcFailuresTotal worker codeName + call.failures worker codeName =
      s.rpcFailuresTotal worker codeName + moved.failures worker codeName := by
  cases hmove
  case sends hpoint =>
    rw [hpoint] at hshape
    obtain ⟨hready, _⟩ := hshape
    rw [Call.failures_goto, failures_send hready]
    rfl
  case rpcSuccess hpoint | rpcForeign hpoint =>
    rw [hpoint] at hshape
    rw [Call.failures_cleanUp, failures_endRpc hshape]
    simp [RpcOutcome.codeName]
  case rpcUnavailable _ _ details _ hpoint =>
    rw [hpoint] at hshape
    rw [Call.failures_goto, Call.failures_exclude, failures_endRpc hshape,
      Shared.markUnhealthy_rpcFailuresTotal, rpcFailuresTotal_countRpcFailure _ _ _ _ _ details]
    simp only [Shared.runs_rpcFailuresTotal]
    omega
  case rpcStatus _ _ code details _ _ hpoint _ _ =>
    rw [hpoint] at hshape
    rw [Call.failures_cleanUp, failures_endRpc hshape,
      rpcFailuresTotal_countRpcFailure _ _ _ _ _ details]
    simp only [Shared.runs_rpcFailuresTotal]
    omega
  all_goals rfl

/-- One failure is counted for each RPC that ended with a status. -/
theorem failures_exact {g : Gateway} (hreach : (machine config).Reachable g)
    (worker codeName : String) : g.rpcFailuresTotal worker codeName =
      (g.calls.map fun call => call.failures worker codeName).sum := by
  refine counter_of_reachable (fun s => s.rpcFailuresTotal worker codeName)
    (fun call => call.failures worker codeName) (fun _ => rfl) (fun _ _ _ _ => rfl)
    (fun _ _ => rfl) (fun _ _ _ => rfl) ?_ hreach
  intro g id call event next moved hbefore hcall hmove
  exact failures_of_callStep hmove
    (protocol_of_reachable hbefore call (List.mem_of_getElem? hcall)).shape worker codeName

/-! ## The retries -/

/-- Each `UNAVAILABLE` that has come is followed by a reading of the clock. -/
def Reads (call : Call) : Prop :=
  call.ended.countP RpcOutcome.isUnavailable = call.retryReadings.length + call.point.undecided

theorem reads_of_callStep {s next : Shared} {id : ℕ} {call moved : Call} {event : Event}
    (hmove : CallStep config s id call event next moved) (h : Reads call) : Reads moved := by
  cases hmove
  case rpcStatus code details _ _ hpoint hcode _ =>
    have hother := RpcOutcome.isUnavailable_of_ne hcode details
    simp_all [Reads, CallPoint.undecided]
  all_goals simp_all [Reads, CallPoint.undecided, RpcOutcome.isUnavailable]

theorem reads_of_reachable {g : Gateway} (hreach : (machine config).Reachable g) :
    EveryCall Reads g := by
  refine calls_of_reachable hreach (fun _ _ _ _ => rfl) ?_
  intro s id call event next moved hmove _ h
  exact reads_of_callStep hmove h

/-- A second attempt means that the retry was decided for. -/
def Retried (config : GatewayConfig) (call : Call) : Prop :=
  ∀ worker, call.point = .retryCheck .second worker → call.retries config = 1

theorem retries_of_ready {call : Call} (hready : Ready config call .second) :
    call.retries config = 1 := by
  obtain ⟨_, _, reading, _, _, _, hreadings, hbudget⟩ := hready
  simp [Call.retries, hreadings, hbudget]

theorem retried_of_callStep {s next : Shared} {id : ℕ} {call moved : Call} {event : Event}
    (hmove : CallStep config s id call event next moved)
    (hshape : Shape config call call.point) : Retried config moved := by
  cases hmove
  case rpcUnavailable attempt worker details _ hpoint =>
    rw [hpoint] at hshape
    obtain ⟨before, rpc, _, _, _, hready⟩ := hshape
    intro other hsecond
    obtain ⟨rfl, _⟩ : attempt = .second ∧ worker = other := by simpa using hsecond
    have hcounted := retries_of_ready hready
    exact hcounted
  all_goals exact fun _ hsecond => by cases hsecond

theorem retried_of_reachable {g : Gateway} (hreach : (machine config).Reachable g) :
    EveryCall (Retried config) g := by
  have h : EveryCall (fun call => Protocol config call ∧ Retried config call) g := by
    refine calls_of_reachable hreach ?_ ?_
    · exact fun _ _ _ _ => ⟨protocol_newCall _ _ _ _, fun _ hsecond => by cases hsecond⟩
    · intro s id call event next moved hmove hwait h
      exact ⟨protocol_of_callStep hmove hwait h.1, retried_of_callStep hmove h.1.shape⟩
  exact fun call hmem => (h call hmem).2

theorem attempted_of_callStep {s next : Shared} {id : ℕ} {call moved : Call} {event : Event}
    (hmove : CallStep config s id call event next moved)
    (hshape : Shape config call call.point) (hretried : Retried config call) :
    next.retriesTotal "attempted" + call.retries config =
      s.retriesTotal "attempted" + moved.retries config := by
  cases hmove
  case start hpoint =>
    rw [hpoint] at hshape
    obtain ⟨_, _, _, hreadings⟩ := hshape
    simp [Call.retries, hreadings]
  case retries hpoint hfirst hbudget =>
    subst hfirst
    rw [hpoint] at hshape
    obtain ⟨_, _, _, _, _, _, hreadings⟩ := hshape
    have hbudget' : (config.minRetryBudgetMs : ℚ) ≤ (call.gatewayDeadline - s.now) * 1000 := hbudget
    simp [Call.retries, Call.remaining, hreadings, hbudget']
  case givesUp attempt worker _ hpoint hbudget =>
    have hother :
        (s.countRetry "failed").retriesTotal "attempted" = s.retriesTotal "attempted" := by
      simp
    rw [hother, Nat.add_left_cancel_iff]
    cases attempt with
    | first =>
        -- there was too little left at the only reading
        rw [hpoint] at hshape
        obtain ⟨_, _, _, _, _, _, hreadings⟩ := hshape
        have hover : ¬ (config.minRetryBudgetMs : ℚ) ≤ (call.gatewayDeadline - s.now) * 1000 :=
          fun hleft => hbudget ⟨rfl, hleft⟩
        simp [Call.retries, Call.remaining, hreadings, hover]
    | second =>
        have hone := hretried worker hpoint
        cases hreadings : call.retryReadings with
        | nil => simp [Call.retries, hreadings] at hone
        | cons reading rest =>
            simp only [Call.retries, Call.cleanUp_retryReadings, Call.readRetry_retryReadings,
              hreadings, List.cons_append]
            rfl
  all_goals rfl

/-- `attempted` counts the calls that went on to a second attempt. -/
theorem attempted_exact {g : Gateway} (hreach : (machine config).Reachable g) :
    g.retriesTotal "attempted" = (g.calls.map fun call => call.retries config).sum := by
  refine counter_of_reachable (fun s => s.retriesTotal "attempted")
    (fun call => call.retries config) (fun _ => rfl) (fun _ _ _ _ => rfl) (fun _ _ => rfl)
    (fun _ _ _ => rfl) ?_ hreach
  intro g id call event next moved hbefore hcall hmove
  have hmem := List.mem_of_getElem? hcall
  exact attempted_of_callStep hmove (protocol_of_reachable hbefore call hmem).shape
    (retried_of_reachable hbefore call hmem)

theorem decided_of_callStep {s next : Shared} {id : ℕ} {call moved : Call} {event : Event}
    (hmove : CallStep config s id call event next moved) :
    next.retriesTotal "attempted" + next.retriesTotal "failed" + call.retryReadings.length =
      s.retriesTotal "attempted" + s.retriesTotal "failed" + moved.retryReadings.length := by
  cases hmove
  case retries | givesUp =>
    simp
    omega
  all_goals rfl

/-- Both counters together are the decisions that were made. -/
theorem decided_exact {g : Gateway} (hreach : (machine config).Reachable g) :
    g.retriesTotal "attempted" + g.retriesTotal "failed" =
      (g.calls.map fun call => call.retryReadings.length).sum := by
  refine counter_of_reachable (fun s => s.retriesTotal "attempted" + s.retriesTotal "failed")
    (fun call => call.retryReadings.length) (fun _ => rfl) (fun _ _ _ _ => rfl) (fun _ _ => rfl)
    (fun _ _ _ => rfl) ?_ hreach
  intro g id call event next moved _ _ hmove
  exact decided_of_callStep hmove

/-! ## The RPCs that ended with `UNAVAILABLE` -/

/-- `GATEWAY_RPC_FAILURES_TOTAL` with this code, over all workers. -/
def failuresWith (s : Shared) (codeName : String) : ℕ :=
  (s.scheduler.registry.ids.map fun worker => s.rpcFailuresTotal worker codeName).sum

theorem failuresWith_countRpcFailure (s : Shared) {worker : String}
    (hworker : worker ∈ s.scheduler.registry.ids) (code : StatusCode) (codeName : String) :
    failuresWith (s.countRpcFailure worker code) codeName =
      failuresWith s codeName + if code.name = codeName then 1 else 0 := by
  have hother : ∀ other, other ≠ worker →
      (s.countRpcFailure worker code).rpcFailuresTotal other codeName =
        s.rpcFailuresTotal other codeName := by
    intro other hne
    simp [hne]
  have hsum : failuresWith (s.countRpcFailure worker code) codeName +
      s.rpcFailuresTotal worker codeName =
        failuresWith s codeName +
          (s.countRpcFailure worker code).rpcFailuresTotal worker codeName :=
    sum_map_of_single s.scheduler.registry.nodup hworker hother
  rw [rpcFailuresTotal_countRpcFailure s worker worker codeName code none] at hsum
  simp only [RpcOutcome.codeName, true_and, Option.some.injEq] at hsum
  omega

/-- The worker of an RPC in flight is registered. -/
theorem registered_of_awaitRpc {s : Shared} {call : Call} {attempt : Attempt} {worker : String}
    (h : Holding s call) (hpoint : call.point = .awaitRpc attempt worker) :
    worker ∈ s.scheduler.registry.ids := by
  apply h.registered
  simp [h.reserved, hpoint, CallPoint.holding]

theorem unavailable_of_callStep {s next : Shared} {id : ℕ} {call moved : Call} {event : Event}
    (hmove : CallStep config s id call event next moved) (h : Holding s call) :
    failuresWith next "UNAVAILABLE" + call.ended.countP RpcOutcome.isUnavailable =
      failuresWith s "UNAVAILABLE" + moved.ended.countP RpcOutcome.isUnavailable := by
  have hids := ids_of_callStep hmove
  cases hmove
  case rpcUnavailable attempt worker details _ hpoint =>
    have hcounted : failuresWith ((s.runs id).countRpcFailure worker .unavailable) "UNAVAILABLE" =
        failuresWith s "UNAVAILABLE" + 1 :=
      failuresWith_countRpcFailure _ (registered_of_awaitRpc h hpoint) _ _
    have hmarked : failuresWith (((s.runs id).countRpcFailure worker .unavailable).markUnhealthy
        config worker) "UNAVAILABLE" = failuresWith s "UNAVAILABLE" + 1 := by
      rw [← hcounted]
      simp only [failuresWith, hids]
      rfl
    rw [hmarked]
    simp [RpcOutcome.isUnavailable]
    omega
  case rpcStatus attempt worker code details _ _ hpoint hcode _ =>
    have hcounted : failuresWith ((s.runs id).countRpcFailure worker code) "UNAVAILABLE" =
        failuresWith s "UNAVAILABLE" + if code.name = "UNAVAILABLE" then 1 else 0 :=
      failuresWith_countRpcFailure _ (registered_of_awaitRpc h hpoint) _ _
    rw [if_neg fun hname => hcode (StatusCode.name_eq_unavailable.mp hname)] at hcounted
    have hother := RpcOutcome.isUnavailable_of_ne hcode details
    simp [hcounted, hother]
  case selects | goesOn | loopEnds | leaves =>
    simp only [failuresWith, hids]
    rfl
  all_goals simp [failuresWith, RpcOutcome.isUnavailable]

theorem unavailable_exact {g : Gateway} (hreach : (machine config).Reachable g) :
    failuresWith g.toShared "UNAVAILABLE" =
      (g.calls.map fun call => call.ended.countP RpcOutcome.isUnavailable).sum := by
  refine counter_of_reachable (fun s => failuresWith s "UNAVAILABLE")
    (fun call => call.ended.countP RpcOutcome.isUnavailable) ?_ (fun _ _ _ _ => rfl)
    (fun _ _ => rfl) (fun _ _ _ => rfl) ?_ hreach
  · intro now
    simp [failuresWith, initial]
  · intro g id call event next moved hbefore hcall hmove
    exact unavailable_of_callStep hmove
      ((reservations_of_reachable hbefore).holding call (List.mem_of_getElem? hcall))

/-! ## Between the steps of the calls -/

/-- No call is about to decide while all are suspended. -/
theorem undecided_of_idle {g : Gateway} (hreach : (machine config).Reachable g)
    (hidle : g.running = none) : ∀ call ∈ g.calls, call.point.undecided = 0 := by
  intro call hmem
  obtain ⟨id, hcall⟩ := List.mem_iff_getElem?.mp hmem
  have hsuspended := (orderly_of_reachable hreach).rests id call hcall (by simp [hidle])
  cases hpoint : call.point <;> simp_all [CallPoint.suspended, CallPoint.undecided]

/-- A second RPC is sent by a call that went on to a second attempt. -/
theorem sent_le_retries {call : Call} (h : SentInOrder config call) :
    call.sent.length ≤ 1 + call.retries config := by
  rcases hsent : call.sent with _ | ⟨first, _ | ⟨second, _ | ⟨third, rest⟩⟩⟩
  · simp
  · simp
  · obtain ⟨_, reading, _, readings, _, hreadings, hbudget, _⟩ := h.second first second hsent
    simp [Call.retries, hreadings, hbudget]
  · have hfew := h.few
    simp [hsent] at hfew

/-- **What the counters count.**  In every reachable state there is one failure for each RPC that
ended with a status, under its worker and code, and `attempted` counts the calls that went on
to a second attempt, so that no more RPCs were sent after the first one of a call.  While all
calls are suspended, both retry counters together are the RPCs that ended with `UNAVAILABLE`. -/
theorem counters_exact {g : Gateway} (hreach : (machine config).Reachable g) :
    (∀ worker codeName, g.rpcFailuresTotal worker codeName =
        (g.calls.map fun call => call.failures worker codeName).sum) ∧
      g.retriesTotal "attempted" = (g.calls.map fun call => call.retries config).sum ∧
      (g.calls.map fun call => call.sent.length - 1).sum ≤ g.retriesTotal "attempted" ∧
      (g.running = none → g.retriesTotal "attempted" + g.retriesTotal "failed" =
        failuresWith g.toShared "UNAVAILABLE") := by
  refine ⟨failures_exact hreach, attempted_exact hreach, ?_, fun hidle => ?_⟩
  · rw [attempted_exact hreach]
    apply List.sum_le_sum
    intro call hmem
    have hsent := sent_le_retries (protocol_of_reachable hreach call hmem).sent
    omega
  · rw [decided_exact hreach, unavailable_exact hreach]
    congr 1
    refine List.map_congr_left fun call hmem => ?_
    rw [reads_of_reachable hreach call hmem, undecided_of_idle hreach hidle call hmem, Nat.add_zero]

/-- One RPC ended with `UNAVAILABLE`, and the second attempt succeeded. -/
theorem counters_exact_retried :
    let g := sample {} retryRun
    g.retriesTotal "attempted" = 1 ∧ g.rpcFailuresTotal "worker-1" "UNAVAILABLE" = 1 ∧
      (∀ worker codeName, g.rpcFailuresTotal worker codeName =
        (g.calls.map fun call => call.failures worker codeName).sum) ∧
      g.retriesTotal "attempted" = (g.calls.map fun call => call.retries {}).sum ∧
      (g.calls.map fun call => call.sent.length - 1).sum ≤ g.retriesTotal "attempted" ∧
      (g.running = none → g.retriesTotal "attempted" + g.retriesTotal "failed" =
        failuresWith g.toShared "UNAVAILABLE") :=
  ⟨by decide +kernel, by decide +kernel, counters_exact (reachable_sample _ _)⟩

end Gateway
end ModelServer
