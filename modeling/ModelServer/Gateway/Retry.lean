import Mathlib.Tactic.Ring
import ModelServer.Gateway.Steps

/-!
# The retry protocol

What a call of `predict` sends, and why.  `Ready` is what must have happened
before an attempt, and `Shape` what the record of a call looks like at each point
of `predict`; both are about one call, whatever the clock, the probes and the
other calls do.

`retry_protocol` puts together what follows for every call in every reachable
state: at most two RPCs, the second one only after `UNAVAILABLE`, with budget
left and to another worker, and every other status is passed on as an `AppError`.
-/

namespace ModelServer

open Asyncio Transition

/-- How the call ends after the critical section. -/
def Section.outcome? : Section → Option CallOutcome
  | .release _ (.leave outcome) => some outcome
  | _ => none

/-- How the call is going to end, once that is settled. -/
def CallPoint.outcome? : CallPoint → Option CallOutcome
  | .acquire part | .lockWait part | .critical part => part.outcome?
  | .finished outcome => some outcome
  | _ => none

namespace Gateway

variable {config : GatewayConfig}

/-- An RPC is sent with what is left of the deadline, and its worker was healthy and
below the limit when it was selected. -/
structure Sound (config : GatewayConfig) (call : Call) (rpc : SentRpc) : Prop where
  timeout : rpc.timeout = call.remaining rpc.budgetAt
  positive : 0 < rpc.timeout
  healthy : rpc.node.state = .healthy
  below : (rpc.node.outstandingRequests : ℤ) < config.gatewayMaxOutstandingPerWorker

/-- What must have happened before an attempt. -/
def Ready (config : GatewayConfig) (call : Call) : Attempt → Prop
  | .first => call.sent = [] ∧ call.ended = [] ∧ call.excludeIds = ∅ ∧ call.retryReadings = []
  | .second => ∃ rpc details reading, call.sent = [rpc] ∧
      call.ended = [.status .unavailable details] ∧ call.excludeIds = {rpc.worker} ∧
      call.retryReadings = [reading] ∧
      (config.minRetryBudgetMs : ℚ) ≤ call.remaining reading * 1000

/-- What the record of a call looks like before a critical section. -/
def SectionShape (config : GatewayConfig) (call : Call) : Section → Prop
  | .select attempt remaining =>
      Ready config call attempt ∧ remaining = call.remaining call.budgetAt ∧ 0 < remaining
  | .release _ (.next attempt) => attempt = .first ∧ Ready config call .second
  | .release _ (.leave _) => True

/-- What the record of a call looks like at each point of `predict`. -/
def Shape (config : GatewayConfig) (call : Call) : CallPoint → Prop
  | .start => Ready config call .first
  | .budget attempt => Ready config call attempt
  | .acquire part | .lockWait part | .critical part => SectionShape config call part
  | .dispatch attempt worker remaining =>
      Ready config call attempt ∧ remaining = call.remaining call.budgetAt ∧ 0 < remaining ∧
        worker ∉ call.excludeIds ∧ call.chosen.state = .healthy ∧
        (call.chosen.outstandingRequests : ℤ) < config.gatewayMaxOutstandingPerWorker
  | .awaitRpc attempt worker => ∃ before rpc, call.sent = before ++ [rpc] ∧ rpc.worker = worker ∧
      worker ∉ call.excludeIds ∧ Ready config { call with sent := before } attempt
  | .retryCheck .first worker => ∃ rpc details, call.sent = [rpc] ∧ rpc.worker = worker ∧
      call.ended = [.status .unavailable details] ∧ call.excludeIds = {worker} ∧
      call.retryReadings = []
  | .retryCheck .second _ | .finished _ => True

/-- `Ready` looks only at the record, the exclusions and the deadline. -/
theorem Ready.congr {call moved : Call} {attempt : Attempt} (h : Ready config call attempt)
    (hsent : moved.sent = call.sent) (hended : moved.ended = call.ended)
    (hexclude : moved.excludeIds = call.excludeIds)
    (hreadings : moved.retryReadings = call.retryReadings)
    (hdeadline : moved.gatewayDeadline = call.gatewayDeadline) : Ready config moved attempt := by
  cases attempt <;>
    simpa [Ready, Call.remaining, hsent, hended, hexclude, hreadings, hdeadline] using h

theorem SectionShape.congr {call : Call} {part : Section} (h : SectionShape config call part)
    (point : CallPoint) : SectionShape config (call.goto point) part := by
  rcases part with ⟨attempt, remaining⟩ | ⟨worker, attempt | outcome⟩
  · exact ⟨h.1.congr rfl rfl rfl rfl rfl, h.2⟩
  · exact h
  · trivial

theorem shape_of_callStep {s next : Shared} {id : ℕ} {call moved : Call} {event : Event}
    (hmove : CallStep config s id call event next moved)
    (h : Shape config call call.point) : Shape config moved moved.point := by
  cases hmove
  case start hpoint => simpa [hpoint, Shape, Ready] using h
  case budget attempt _ hpoint hleft =>
    rw [hpoint] at h
    exact ⟨Ready.congr h rfl rfl rfl rfl rfl, rfl, hleft⟩
  case acquired hpoint _ | blocked hpoint _ | granted hpoint _ =>
    rw [hpoint] at h
    exact SectionShape.congr h _
  case selects hpoint hselect =>
    rw [hpoint] at h
    obtain ⟨hready, hremaining, hpositive⟩ := h
    have heligible := (Scheduler.selectWorker_spec hselect).eligible
    exact ⟨hready.congr rfl rfl rfl rfl rfl, hremaining, hpositive, heligible.2.2.1,
      heligible.2.1, heligible.2.2.2⟩
  case sends hpoint =>
    rw [hpoint] at h
    obtain ⟨hready, _, _, hexclude, _⟩ := h
    exact ⟨_, _, rfl, rfl, hexclude, hready.congr rfl rfl rfl rfl rfl⟩
  case rpcUnavailable attempt worker details _ hpoint =>
    rw [hpoint] at h
    obtain ⟨before, rpc, hsent, rfl, _, hready⟩ := h
    cases attempt with
    | first =>
        obtain ⟨hbefore, hended, hexclude, hreadings⟩ := hready
        simp only at hbefore hended hexclude hreadings
        refine ⟨rpc, details, ?_, rfl, ?_, ?_, hreadings⟩
        · simp [hsent, hbefore]
        · simp [hended]
        · simp [hexclude]
    | second => trivial
  case retries hpoint hfirst hbudget =>
    subst hfirst
    rw [hpoint] at h
    obtain ⟨rpc, details, hsent, rfl, hended, hexclude, hreadings⟩ := h
    exact ⟨rfl, rpc, details, _, hsent, hended, hexclude, by simp [hreadings], hbudget⟩
  case goesOn hpoint =>
    rw [hpoint] at h
    exact h.2.congr rfl rfl rfl rfl rfl
  all_goals trivial

/-! ## What has been sent -/

/-- What a call may have sent so far. -/
structure SentInOrder (config : GatewayConfig) (call : Call) : Prop where
  sound : ∀ rpc ∈ call.sent, Sound config call rpc
  few : call.sent.length ≤ 2
  second : ∀ first second, call.sent = [first, second] → ∃ details reading rest readings,
    call.ended = .status .unavailable details :: rest ∧ call.retryReadings = reading :: readings ∧
      (config.minRetryBudgetMs : ℚ) ≤ call.remaining reading * 1000 ∧
      second.worker ≠ first.worker

/-- Later answers and readings change nothing about what was sent. -/
theorem SentInOrder.extend {call moved : Call} (h : SentInOrder config call)
    (hsent : moved.sent = call.sent) (hended : call.ended <+: moved.ended)
    (hreadings : call.retryReadings <+: moved.retryReadings)
    (hdeadline : moved.gatewayDeadline = call.gatewayDeadline) : SentInOrder config moved := by
  obtain ⟨hsound, hfew, hsecond⟩ := h
  refine ⟨?_, by rwa [hsent], ?_⟩
  · intro rpc hmem
    obtain ⟨htimeout, hpositive, hhealthy, hbelow⟩ := hsound rpc (hsent ▸ hmem)
    exact ⟨by rw [htimeout, Call.remaining, Call.remaining, hdeadline], hpositive, hhealthy, hbelow⟩
  · intro first second hboth
    obtain ⟨details, reading, rest, readings, hfirst, hread, hbudget, hne⟩ :=
      hsecond first second (hsent ▸ hboth)
    obtain ⟨moreEnded, hmoreEnded⟩ := hended
    obtain ⟨moreReadings, hmoreReadings⟩ := hreadings
    refine ⟨details, reading, rest ++ moreEnded, readings ++ moreReadings, ?_, ?_, ?_, hne⟩
    · rw [← hmoreEnded, hfirst, List.cons_append]
    · rw [← hmoreReadings, hread, List.cons_append]
    · rwa [Call.remaining, hdeadline]

theorem sentInOrder_of_callStep {s next : Shared} {id : ℕ} {call moved : Call} {event : Event}
    (hmove : CallStep config s id call event next moved)
    (hshape : Shape config call call.point) (h : SentInOrder config call) :
    SentInOrder config moved := by
  cases hmove
  case start hpoint =>
    rw [hpoint] at hshape
    have hsent : call.sent = [] := hshape.1
    exact ⟨by simp [hsent], by simp [hsent], by simp [hsent]⟩
  case sends attempt worker remaining _ hpoint =>
    rw [hpoint] at hshape
    obtain ⟨hready, hremaining, hpositive, hexclude, hhealthy, hbelow⟩ := hshape
    obtain ⟨hsound, _, _⟩ := h
    refine ⟨?_, ?_, ?_⟩
    · intro rpc hmem
      rcases List.mem_append.mp hmem with hold | hnew
      · obtain ⟨h₁, h₂, h₃, h₄⟩ := hsound rpc hold
        exact ⟨h₁, h₂, h₃, h₄⟩
      · rw [List.mem_singleton.mp hnew]
        exact ⟨hremaining, hpositive, hhealthy, hbelow⟩
    · cases attempt with
      | first => simp [show call.sent = [] from hready.1]
      | second =>
          obtain ⟨rpc, _, _, hsent, _⟩ := hready
          simp [hsent]
    · intro first second hboth
      cases attempt with
      | first => simp [show call.sent = [] from hready.1] at hboth
      | second =>
          obtain ⟨rpc, details, reading, hsent, hended, hexcluded, hreadings, hbudget⟩ := hready
          simp only [Call.goto_sent, Call.send_sent, hsent, List.cons_append, List.nil_append,
            List.cons.injEq, and_true] at hboth
          obtain ⟨rfl, rfl⟩ := hboth
          refine ⟨details, reading, [], [], hended, hreadings, hbudget, ?_⟩
          simpa [hexcluded] using hexclude
  case rpcSuccess | rpcUnavailable | rpcStatus | rpcForeign =>
    exact h.extend rfl (List.prefix_append _ _) (List.prefix_refl _) rfl
  case retries | givesUp =>
    exact h.extend rfl (List.prefix_refl _) (List.prefix_append _ _) rfl
  all_goals exact h.extend rfl (List.prefix_refl _) (List.prefix_refl _) rfl

/-! ## How the call ends -/

/-- The answers of the RPCs, and how the call ends because of them. -/
structure EndsRight (call : Call) : Prop where
  /-- A status other than `UNAVAILABLE` is the last answer, and is mapped to an `AppError`. -/
  status : ∀ index code details, call.ended[index]? = some (.status code details) →
    code ≠ .unavailable → index + 1 = call.sent.length ∧ ∃ error,
      mapRpcError code details = .error error ∧ call.point.outcome? = some (.raised error)
  success : ∀ result, call.point.outcome? = some (.returned result) →
    result.attempts = call.sent.length ∧ ∃ rpc resp, call.sent.getLast? = some rpc ∧
      call.ended.length = call.sent.length ∧ call.ended.getLast? = some (.success resp) ∧
      result.workerId = rpc.worker ∧
      result.predictions = resp.predictions.map fun p => { label := p.label, score := p.score }

theorem EndsRight.congr {call moved : Call} (h : EndsRight call) (hsent : moved.sent = call.sent)
    (hended : moved.ended = call.ended) (houtcome : moved.point.outcome? = call.point.outcome?) :
    EndsRight moved := by
  refine ⟨?_, ?_⟩
  · rw [hsent, hended, houtcome]
    exact h.status
  · rw [hsent, hended, houtcome]
    exact h.success

/-- Before the outcome is settled there is no status to be passed on. -/
theorem EndsRight.of_unsettled {call moved : Call} (h : EndsRight call)
    (hbefore : call.point.outcome? = none) (hended : moved.ended = call.ended)
    (hafter : ∀ result, moved.point.outcome? ≠ some (.returned result)) : EndsRight moved := by
  refine ⟨fun index code details hindex hcode => ?_, fun result hresult => ?_⟩
  · obtain ⟨_, _, _, houtcome⟩ := h.status index code details (hended ▸ hindex) hcode
    simp [hbefore] at houtcome
  · exact absurd hresult (hafter result)

/-- The only status to be passed on is the one that has just come. -/
theorem EndsRight.status_append {call : Call} (h : EndsRight call)
    (hbefore : call.point.outcome? = none) {outcome : RpcOutcome} {index : ℕ} {code : StatusCode}
    {details : Option String}
    (hindex : (call.ended ++ [outcome])[index]? = some (.status code details))
    (hcode : code ≠ .unavailable) : index = call.ended.length ∧ outcome = .status code details := by
  rw [List.getElem?_append] at hindex
  split at hindex
  · obtain ⟨_, _, _, houtcome⟩ := h.status index code details hindex hcode
    simp [hbefore] at houtcome
  · rw [List.getElem?_singleton] at hindex
    split at hindex
    · exact ⟨by omega, Option.some.inj hindex⟩
    · simp at hindex

/-- Every RPC but the one in flight has been answered. -/
theorem length_ended_of_awaitRpc {call : Call} {attempt : Attempt} {worker : String}
    (hshape : Shape config call (.awaitRpc attempt worker)) :
    call.ended.length + 1 = call.sent.length ∧ call.sent.length = attempt.number ∧
      ∃ rpc, call.sent.getLast? = some rpc ∧ rpc.worker = worker := by
  obtain ⟨before, rpc, hsent, hworker, _, hready⟩ := hshape
  cases attempt with
  | first =>
      obtain ⟨hbefore, hended, _⟩ := hready
      simp only at hbefore hended
      simp [hsent, hbefore, hended, Attempt.number, hworker]
  | second =>
      obtain ⟨other, details, reading, hbefore, hended, _⟩ := hready
      simp only at hbefore hended
      simp [hsent, hbefore, hended, Attempt.number, hworker]

theorem endsRight_of_callStep {s next : Shared} {id : ℕ} {call moved : Call} {event : Event}
    (hmove : CallStep config s id call event next moved)
    (hshape : Shape config call call.point) (hwait : ∀ part, call.point ≠ .lockWait part)
    (h : EndsRight call) : EndsRight moved := by
  cases hmove
  case acquired hpoint _ | blocked hpoint _ | granted hpoint _ =>
    exact h.congr rfl rfl (by simp [hpoint, CallPoint.outcome?])
  case leaves hpoint =>
    exact h.congr rfl rfl (by simp [hpoint, CallPoint.outcome?, Section.outcome?])
  case cancelWait hpoint => exact absurd hpoint (hwait _)
  case rpcSuccess attempt worker resp _ hpoint =>
    rw [hpoint] at hshape
    have hnone : call.point.outcome? = none := by simp [hpoint, CallPoint.outcome?]
    obtain ⟨hlength, hattempt, rpc, hlast, hworker⟩ := length_ended_of_awaitRpc hshape
    refine ⟨fun index code details hindex hcode => ?_, fun result hresult => ?_⟩
    · exact absurd (h.status_append hnone hindex hcode).2 nofun
    · obtain rfl : resultOf attempt worker resp = result := by
        simpa [CallPoint.outcome?, Section.outcome?] using hresult
      exact ⟨hattempt.symm, rpc, resp, hlast, by simp [hlength], by simp, hworker.symm, rfl⟩
  case rpcUnavailable hpoint =>
    have hnone : call.point.outcome? = none := by simp [hpoint, CallPoint.outcome?]
    refine ⟨fun index code details hindex hcode => ?_, fun result hresult => ?_⟩
    · obtain ⟨_, heq⟩ := h.status_append hnone hindex hcode
      simp only [RpcOutcome.status.injEq] at heq
      exact absurd heq.1.symm hcode
    · simp [CallPoint.outcome?] at hresult
  case rpcStatus attempt worker code details error _ hpoint hcode herror =>
    rw [hpoint] at hshape
    have hnone : call.point.outcome? = none := by simp [hpoint, CallPoint.outcome?]
    obtain ⟨hlength, _⟩ := length_ended_of_awaitRpc hshape
    refine ⟨fun index code' details' hindex hcode' => ?_, fun result hresult => ?_⟩
    · obtain ⟨rfl, heq⟩ := h.status_append hnone hindex hcode'
      obtain ⟨rfl, rfl⟩ : code = code' ∧ details = details' := by simpa using heq
      exact ⟨hlength, error, herror, rfl⟩
    · simp [CallPoint.outcome?, Section.outcome?] at hresult
  case rpcForeign hpoint =>
    have hnone : call.point.outcome? = none := by simp [hpoint, CallPoint.outcome?]
    refine ⟨fun index code details hindex hcode => ?_, fun result hresult => ?_⟩
    · exact absurd (h.status_append hnone hindex hcode).2 nofun
    · simp [CallPoint.outcome?, Section.outcome?] at hresult
  all_goals
    refine h.of_unsettled ?_ rfl ?_ <;> simp [*, CallPoint.outcome?, Section.outcome?]

/-! ## Every call -/

/-- The protocol of one call. -/
structure Protocol (config : GatewayConfig) (call : Call) : Prop where
  shape : Shape config call call.point
  sent : SentInOrder config call
  ends : EndsRight call

theorem protocol_newCall (requestId : String) (inputs : List String) (modelVersion : String)
    (timeoutMs : ℤ) : Protocol config (newCall requestId inputs modelVersion timeoutMs) where
  shape := ⟨rfl, rfl, rfl, rfl⟩
  sent := ⟨by simp [newCall], by simp [newCall], by simp [newCall]⟩
  ends := ⟨by simp [newCall], by simp [newCall, CallPoint.outcome?]⟩

theorem protocol_of_callStep {s next : Shared} {id : ℕ} {call moved : Call} {event : Event}
    (hmove : CallStep config s id call event next moved)
    (hwait : ∀ part, call.point ≠ .lockWait part) (h : Protocol config call) :
    Protocol config moved where
  shape := shape_of_callStep hmove h.shape
  sent := sentInOrder_of_callStep hmove h.shape h.sent
  ends := endsRight_of_callStep hmove h.shape hwait h.ends

theorem protocol_of_reachable {g : Gateway} (hreach : (machine config).Reachable g) :
    EveryCall (Protocol config) g := by
  refine calls_of_reachable hreach protocol_newCall ?_
  intro s id call event next moved hmove hwait h
  exact protocol_of_callStep hmove hwait h

/-- A call whose outcome is settled, and that is not running, has ended. -/
theorem finished_of_outcome {g : Gateway} (hreach : (machine config).Reachable g) {id : ℕ}
    {call : Call} (hcall : g.calls[id]? = some call) (hrest : g.running ≠ some id)
    {outcome : CallOutcome} (houtcome : call.point.outcome? = some outcome) :
    call.point = .finished outcome := by
  have horderly := orderly_of_reachable hreach
  have hsuspended := horderly.rests id call hcall hrest
  cases hpoint : call.point with
  | lockWait part => exact absurd hpoint (horderly.noWait id call part hcall)
  | finished other => simpa [hpoint, CallPoint.outcome?] using houtcome
  | start | awaitRpc _ _ => simp [hpoint, CallPoint.outcome?] at houtcome
  | budget _ | acquire _ | critical _ | dispatch _ _ _ | retryCheck _ _ =>
      simp [hpoint, CallPoint.suspended] at hsuspended

/-- **The retry protocol.**  For every call in every reachable state: at most two RPCs are
sent, each with a positive timeout and to a worker that was healthy and below the limit
when it was selected; the second one goes to another worker, only after the first one
ended with `UNAVAILABLE` and enough of the deadline remained then, and its timeout is the
first one less the time between the two budget computations; after any other status there
is no further RPC, and the call ends with the `AppError` it is mapped to; and on success
`attempts` counts the RPCs, while worker and predictions are those of the last one. -/
theorem retry_protocol {g : Gateway} (hreach : (machine config).Reachable g) {id : ℕ}
    {call : Call} (hcall : g.calls[id]? = some call) :
    call.sent.length ≤ 2 ∧
      (∀ rpc ∈ call.sent, 0 < rpc.timeout ∧ rpc.node.state = .healthy ∧
        (rpc.node.outstandingRequests : ℤ) < config.gatewayMaxOutstandingPerWorker) ∧
      (∀ first second, call.sent = [first, second] →
        second.worker ≠ first.worker ∧
          second.timeout = first.timeout - (second.budgetAt - first.budgetAt) ∧
          ∃ details reading, call.ended[0]? = some (.status .unavailable details) ∧
            call.retryReadings[0]? = some reading ∧
            (config.minRetryBudgetMs : ℚ) ≤ (call.gatewayDeadline - reading) * 1000) ∧
      (∀ index code details, call.ended[index]? = some (.status code details) →
        code ≠ .unavailable → index + 1 = call.sent.length ∧
          (g.running ≠ some id → ∃ error, mapRpcError code details = .error error ∧
            call.point = .finished (.raised error))) ∧
      (∀ result, call.point = .finished (.returned result) →
        result.attempts = call.sent.length ∧ ∃ rpc resp, call.sent.getLast? = some rpc ∧
          call.ended.length = call.sent.length ∧ call.ended.getLast? = some (.success resp) ∧
          result.workerId = rpc.worker ∧ result.predictions =
            resp.predictions.map fun p => { label := p.label, score := p.score }) := by
  obtain ⟨_, hsent, hends⟩ := protocol_of_reachable hreach call (List.mem_of_getElem? hcall)
  refine ⟨hsent.few, ?_, ?_, ?_, ?_⟩
  · intro rpc hmem
    obtain ⟨_, hpositive, hhealthy, hbelow⟩ := hsent.sound rpc hmem
    exact ⟨hpositive, hhealthy, hbelow⟩
  · intro first second hboth
    obtain ⟨details, reading, rest, readings, hended, hreadings, hbudget, hne⟩ :=
      hsent.second first second hboth
    have hfirst := (hsent.sound first (by simp [hboth])).timeout
    have hsecond := (hsent.sound second (by simp [hboth])).timeout
    refine ⟨hne, ?_, details, reading, by simp [hended], by simp [hreadings], hbudget⟩
    rw [hfirst, hsecond, Call.remaining, Call.remaining]
    ring
  · intro index code details hindex hcode
    obtain ⟨hlast, error, herror, houtcome⟩ := hends.status index code details hindex hcode
    exact ⟨hlast, fun hrest => ⟨error, herror, finished_of_outcome hreach hcall hrest houtcome⟩⟩
  · intro result hpoint
    exact hends.success result (by rw [hpoint, CallPoint.outcome?])

/-- What the second worker answers. -/
def sampleResponse : PredictResponse where
  requestId := "r0"
  modelVersion := "tinybert-sst2-v1"
  workerId := "worker-2"
  predictions := [⟨"positive", 1⟩]
  timing := ⟨0, 0, 0, 0, 0⟩

/-- The first worker is unavailable after a tenth of a second, the second one answers. -/
def retryRun : List Event :=
  [.probe "worker-1" (.reply (sampleReply .ready)), .probe "worker-2" (.reply (sampleReply .ready)),
      .call "r0" ["a"] "tinybert-sst2-v1" 1000, .start 0] ++ List.replicate 4 .run
    ++ [.tick (1 / 10), .rpcResult 0 (.status .unavailable none)] ++ List.replicate 7 .run
    ++ [.rpcResult 0 (.success sampleResponse)] ++ List.replicate 2 .run

/-- The call that `retryRun` ends with. -/
def retriedCall : Call := (sample {} retryRun).calls.headD (newCall "" [] "" 0)

theorem retry_protocol_retried :
    retriedCall.sent.map SentRpc.worker = ["worker-1", "worker-2"] ∧
      retriedCall.point = .finished (.returned (resultOf .second "worker-2" sampleResponse)) ∧
      (∀ first second, retriedCall.sent = [first, second] →
        second.worker ≠ first.worker ∧
          second.timeout = first.timeout - (second.budgetAt - first.budgetAt) ∧
          ∃ details reading, retriedCall.ended[0]? = some (.status .unavailable details) ∧
            retriedCall.retryReadings[0]? = some reading ∧
            ((50 : ℤ) : ℚ) ≤ (retriedCall.gatewayDeadline - reading) * 1000) := by
  have hlength : (sample {} retryRun).calls.length = 1 := by decide +kernel
  have hcall : (sample {} retryRun).calls[0]? = some retriedCall := by
    obtain ⟨only, hcalls⟩ := List.length_eq_one_iff.mp hlength
    simp [retriedCall, hcalls]
  exact ⟨by decide +kernel, by decide +kernel,
    (retry_protocol (reachable_sample _ _) hcall).2.2.1⟩

end Gateway
end ModelServer
