import ModelServer.Gateway.App

/-!
# The request metrics

`HttpMetrics` are the two metrics the middleware keeps for `/v1/predict`, and
`Matches` says that one exchange has left them as its response says.  The middleware
has three early responses that it does not count, and it takes the error code from
the exceptions it catches: `matches_iff` says in which exchanges this shows.
-/

namespace ModelServer

open Python

/-- `GATEWAY_ACTIVE_REQUESTS` and `GATEWAY_REQUESTS_TOTAL`, by its labels. -/
structure HttpMetrics where
  activeRequests : ℤ := 0
  requestsTotal : ℕ → String → ℕ := fun _ _ => 0

namespace HttpMetrics

def update (metrics : HttpMetrics) : App.MetricUpdate → HttpMetrics
  | .activeInc => { metrics with activeRequests := metrics.activeRequests + 1 }
  | .activeDec => { metrics with activeRequests := metrics.activeRequests - 1 }
  | .requestsInc statusCode errorCode =>
      { metrics with
        requestsTotal := fun status code => metrics.requestsTotal status code +
          if status = statusCode ∧ code = errorCode then 1 else 0 }

def updateAll (metrics : HttpMetrics) (updates : List App.MetricUpdate) : HttpMetrics :=
  updates.foldl update metrics

end HttpMetrics

namespace App

variable {config : HttpConfig}

/-- The error code in the body of a response. -/
def Content.errorCode : Content → String
  | .error code _ => code
  | .prediction _ _ => "NONE"

/-- One request is counted, under the status and the error code of its response if there
is one, and the active requests are as many as before. -/
def Matches (exchange : Exchange) : Prop :=
  ∃ statusCode errorCode,
    (∀ response, exchange.response = some response →
      statusCode = response.statusCode ∧ errorCode = response.content.errorCode) ∧
    ∀ before : HttpMetrics,
      (before.updateAll exchange.metrics).activeRequests = before.activeRequests ∧
      ∀ status code, (before.updateAll exchange.metrics).requestsTotal status code =
        before.requestsTotal status code + if status = statusCode ∧ code = errorCode then 1 else 0

/-- A response that is not counted does not match. -/
theorem not_matches_uncounted (response : Option HttpResponse) : ¬ Matches ⟨response, []⟩ := by
  rintro ⟨statusCode, errorCode, _, hall⟩
  have hone := (hall {}).2 statusCode errorCode
  simp [HttpMetrics.updateAll] at hone

/-- A response that is counted once matches if the labels are its own. -/
theorem matches_counted_iff {response : Option HttpResponse} {statusCode : ℕ}
    {errorCode : String} :
    Matches ⟨response, [.activeInc, .activeDec, .requestsInc statusCode errorCode]⟩ ↔
      ∀ sent, response = some sent →
        statusCode = sent.statusCode ∧ errorCode = sent.content.errorCode := by
  constructor
  · rintro ⟨status, code, hlabels, hall⟩ sent hsent
    obtain ⟨hstatus, hcode⟩ := hlabels sent hsent
    have hone := (hall {}).2 statusCode errorCode
    simp only [HttpMetrics.updateAll, List.foldl_cons, List.foldl_nil, HttpMetrics.update] at hone
    have hsame : statusCode = status ∧ errorCode = code := by
      by_contra hother
      simp [hother] at hone
    exact ⟨hsame.1.trans hstatus, hsame.2.trans hcode⟩
  · intro hlabels
    refine ⟨statusCode, errorCode, hlabels, fun before => ⟨?_, fun status code => rfl⟩⟩
    simp [HttpMetrics.updateAll, HttpMetrics.update]

/-! ## The labels of the middleware -/

/-- The labels are those of the response, unless the handler has made an error response. -/
theorem labels_catchExceptions_iff {result : Except Raised HttpResponse} :
    (∀ sent, (catchExceptions result).1 = some sent →
        (catchExceptions result).2.1 = sent.statusCode ∧
          (catchExceptions result).2.2 = sent.content.errorCode) ↔
      ∀ response, result = .ok response → response.content.errorCode = "NONE" := by
  cases result with
  | ok response => simp [catchExceptions, eq_comm]
  | error raised =>
      cases raised <;> simp [catchExceptions, errorResponse, Content.errorCode]

/-- `"NONE"` is not the code of an error. -/
theorem code_ne_none (cls : ErrorClass) : cls.code ≠ "NONE" := by
  cases cls <;> decide

/-- The handler makes an error response where `client.predict` raises an `AppError`. -/
theorem errorCode_predict_iff {generated : Str} {client : PredictArgs → CallOutcome}
    {payload : Option Json} :
    (∀ response, predict config generated client payload = .ok response →
        response.content.errorCode = "NONE") ↔
      ∀ args error, validate config generated payload = .ok args →
        client args ≠ .raised error := by
  simp only [predict, bind_eq_ok]
  constructor
  · intro hnone args error hargs hraised
    refine code_ne_none error.cls (hnone (errorResponse args.requestId error) ⟨args, hargs, ?_⟩)
    rw [hraised]
  · rintro hclient response ⟨args, hargs, hresponse⟩
    cases hcall : client args with
    | raised error => exact absurd hcall (hclient args error hargs)
    | returned result =>
        rw [hcall] at hresponse
        cases hresponse
        rfl
    | foreign | cancelled =>
        rw [hcall] at hresponse
        cases hresponse

/-- **The metrics match the response** of an exchange exactly if the gateway is accepting
requests, neither the announced nor the actual length of the body exceeds the limit, and
`client.predict`, if it is called, raises no `AppError`. -/
theorem matches_iff (config : HttpConfig) (acceptingRequests : Bool)
    (loads : List UInt8 → Option Json) (generated : Str) (client : PredictArgs → CallOutcome)
    (request : HttpRequest) :
    Matches (handle config acceptingRequests loads generated client request) ↔
      acceptingRequests = true ∧
      (∀ length, request.contentLength = some length → (length : ℤ) ≤ config.httpMaxBodyBytes) ∧
      (request.body.length : ℤ) ≤ config.httpMaxBodyBytes ∧
      ∀ args error, validate config generated (loads request.body) = .ok args →
        client args ≠ .raised error := by
  have hannounced : (request.contentLength.any fun length =>
        decide (config.httpMaxBodyBytes < length)) = true ↔
      ¬ ∀ length, request.contentLength = some length →
        (length : ℤ) ≤ config.httpMaxBodyBytes := by
    cases request.contentLength <;> simp
  unfold handle bodyLimitAndMetricsMiddleware
  split
  · rename_i hdraining
    exact iff_of_false (not_matches_uncounted _) fun h => hdraining h.1
  · rename_i haccepting
    split
    · rename_i hlong
      exact iff_of_false (not_matches_uncounted _) fun h => hannounced.mp hlong h.2.1
    · rename_i hshort
      split
      · rename_i hlong
        exact iff_of_false (not_matches_uncounted _) fun h => not_le.mpr hlong h.2.2.1
      · rename_i hbody
        rw [hannounced, not_not] at hshort
        rw [matches_counted_iff, labels_catchExceptions_iff, errorCode_predict_iff]
        exact ⟨fun h => ⟨not_not.mp haccepting, hshort, not_lt.mp hbody, h⟩, fun h => h.2.2.2⟩

/-- While the gateway is draining, a request is answered and not counted. -/
theorem not_matches_draining :
    ¬ ∀ (config : HttpConfig) (acceptingRequests : Bool) (loads : List UInt8 → Option Json)
        (generated : Str) (client : PredictArgs → CallOutcome) (request : HttpRequest),
      Matches (handle config acceptingRequests loads generated client request) := by
  intro hall
  exact not_matches_uncounted _
    (hall {} false (fun _ => none) [] (fun _ => .foreign) { body := [] })

end App
end ModelServer
