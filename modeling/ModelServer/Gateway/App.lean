import ModelServer.Gateway.Client
import ModelServer.Library.Python

/-!
# The HTTP interface

The handler of `/v1/predict` and the middleware around it.  `validate` is the
handler up to its call of `client.predict`, `predict` is all of it, and both take
what `request.json()` gives: `none` is an exception of it.  The generated request
id and the outcome of `client.predict` are arguments.

The HTTP server has checked that a `Content-Length` is a number.  The time
measurements are left out.
-/

namespace ModelServer

open Python

/-- The settings of `GatewayConfig` that the HTTP interface reads as well. -/
structure HttpConfig extends GatewayConfig where
  httpMaxBodyBytes : ℤ := 65536
  maxInputsPerRequest : ℤ := 8
  maxInputBytes : ℤ := 4096
  maxTotalInputBytes : ℤ := 32768
  minTimeoutMs : ℤ := 100
  maxTimeoutMs : ℤ := 10000
  defaultTimeoutMs : ℤ := 1000

/-- What the handler raises. -/
inductive Raised
  | appError (error : AppError)
  /-- Any other `Exception`. -/
  | foreign
  /-- `CancelledError`, which is no `Exception`. -/
  | cancelled
  deriving DecidableEq, Repr

/-- The arguments of `client.predict`. -/
structure PredictArgs where
  requestId : Str
  inputs : List Json
  modelVersion : Str
  timeoutMs : ℤ

namespace App

/-! ## Validation -/

def invalidRequest (message : String) : Raised := .appError ⟨.invalidRequestError, message⟩

def requestTooLarge (message : String) : Raised := .appError ⟨.requestTooLargeError, message⟩

def allowedKeys : List Str :=
  ["request_id", "inputs", "model_version", "timeout_ms"].map Str.ofString

def newline : CodePoint := .ofChar '\n'

/-- `[A-Za-z0-9._-]`. -/
def isIdChar (point : CodePoint) : Bool :=
  match point.toChar? with
  | some char =>
      ('A' ≤ char ∧ char ≤ 'Z') ∨ ('a' ≤ char ∧ char ≤ 'z') ∨ ('0' ≤ char ∧ char ≤ '9') ∨
        char ∈ ['.', '_', '-']
  | none => false

/-- `$` holds at the end, and before a newline at the end. -/
def atEnd (rest : Str) : Bool := rest = [] ∨ rest = [newline]

/-- `REQUEST_ID_REGEX.match`: after some number of repetitions `$` holds. -/
def requestIdMatches (s : Str) : Bool :=
  (List.range' 1 64).any fun count =>
    count ≤ s.length ∧ (s.take count).all isIdChar ∧ atEnd (s.drop count)

def readRequestId (generated : Str) : Option Json → Except Raised Str
  | none | some .null => .ok generated
  | some (.string s) =>
      if requestIdMatches s then .ok s else .error (invalidRequest "Invalid request_id format.")
  | some _ => .error (invalidRequest "Invalid request_id format.")

def readInputs (config : HttpConfig) : Option Json → Except Raised (List Json)
  | some (.array inputs) =>
      if inputs.isEmpty ∨ config.maxInputsPerRequest < inputs.length then
        .error (invalidRequest "inputs must be a non-empty list of 1 to 8 strings.")
      else .ok inputs
  | _ => .error (invalidRequest "inputs must be a non-empty list of 1 to 8 strings.")

/-- One round of the loop over the inputs: the bytes of one of them. -/
def inputBytes (config : HttpConfig) : Json → Except Raised ℕ
  | .string s =>
      if s = [] then .error (invalidRequest "inputs elements must be non-empty strings.")
      else
        match s.encode with
        | none => .error .foreign
        | some text =>
            if config.maxInputBytes < text.utf8ByteSize then
              .error (requestTooLarge "Input item byte limit exceeded.")
            else .ok text.utf8ByteSize
  | _ => .error (invalidRequest "inputs elements must be non-empty strings.")

/-- The loop over the inputs, from `total_bytes` on. -/
def totalBytes (config : HttpConfig) : ℕ → List Json → Except Raised ℕ
  | total, [] => .ok total
  | total, inp :: inputs => do
      let bytes ← inputBytes config inp
      totalBytes config (total + bytes) inputs

def checkTotal (config : HttpConfig) (total : ℕ) : Except Raised Unit :=
  if config.maxTotalInputBytes < total then
    .error (requestTooLarge "Total inputs byte limit exceeded.")
  else .ok ()

def readModelVersion (config : HttpConfig) : Option Json → Except Raised Str
  | none => .ok (Str.ofString config.modelVersion)
  | some (.string s) =>
      if s = Str.ofString config.modelVersion then .ok s
      else .error (.appError (.default .unsupportedModelError))
  | some _ => .error (.appError (.default .unsupportedModelError))

/-- The bounds of `timeout_ms`. -/
def InRange (config : HttpConfig) (timeoutMs : ℤ) : Prop :=
  config.minTimeoutMs ≤ timeoutMs ∧ timeoutMs ≤ config.maxTimeoutMs

instance (config : HttpConfig) (timeoutMs : ℤ) : Decidable (InRange config timeoutMs) :=
  inferInstanceAs (Decidable (_ ∧ _))

def readTimeoutMs (config : HttpConfig) (field : Option Json) : Except Raised ℤ :=
  match (field.getD (.int config.defaultTimeoutMs)).int? with
  | some timeoutMs =>
      if InRange config timeoutMs then .ok timeoutMs
      else .error (invalidRequest "timeout_ms out of bounds.")
  | none => .error (invalidRequest "timeout_ms out of bounds.")

/-- The handler up to its call of `client.predict`. -/
def validate (config : HttpConfig) (generated : Str) : Option Json → Except Raised PredictArgs
  | none => .error (invalidRequest "Invalid JSON payload.")
  | some (.object members) =>
      if members.any fun member => member.1 ∉ allowedKeys then
        .error (invalidRequest "Unknown fields in payload.")
      else do
        let requestId ← readRequestId generated (Json.get members "request_id")
        let inputs ← readInputs config (Json.get members "inputs")
        let total ← totalBytes config 0 inputs
        checkTotal config total
        let modelVersion ← readModelVersion config (Json.get members "model_version")
        let timeoutMs ← readTimeoutMs config (Json.get members "timeout_ms")
        .ok { requestId, inputs, modelVersion, timeoutMs }
  | some _ => .error (invalidRequest "Payload must be a JSON object.")

/-! ## Responses -/

inductive Content
  /-- `{"code": .., "message": ..}` under `"error"`. -/
  | error (code message : String)
  | prediction (modelVersion : Str) (result : GatewayPredictionResult)

structure HttpResponse where
  statusCode : ℕ
  requestId : Str
  content : Content

/-- `JSONResponse(status_code=error.status_code, ..)`. -/
def errorResponse (requestId : Str) (error : AppError) : HttpResponse where
  statusCode := error.statusCode
  requestId := requestId
  content := .error error.code error.message

/-- The handler of `POST /v1/predict`. -/
def predict (config : HttpConfig) (generated : Str) (client : PredictArgs → CallOutcome)
    (payload : Option Json) : Except Raised HttpResponse := do
  let args ← validate config generated payload
  match client args with
  | .raised error => .ok (errorResponse args.requestId error)
  | .returned result => .ok ⟨200, args.requestId, .prediction args.modelVersion result⟩
  | .foreign => .error .foreign
  | .cancelled => .error .cancelled

/-! ## The middleware -/

structure HttpRequest where
  contentLength : Option ℕ := none
  body : List UInt8

/-- What the middleware does to the metrics. -/
inductive MetricUpdate
  | activeInc
  | activeDec
  /-- `GATEWAY_REQUESTS_TOTAL` with these labels. -/
  | requestsInc (statusCode : ℕ) (errorCode : String)
  deriving DecidableEq, Repr

/-- The response, if there is one, and the metric updates in their order. -/
structure Exchange where
  response : Option HttpResponse
  metrics : List MetricUpdate

/-- The `try` of the middleware: the response, `status_code` and `error_code`. -/
def catchExceptions : Except Raised HttpResponse → Option HttpResponse × ℕ × String
  | .ok response => (some response, response.statusCode, "NONE")
  | .error (.appError error) => (some (errorResponse [] error), error.statusCode, error.code)
  | .error .foreign =>
      (some ⟨500, [], .error "INTERNAL_ERROR" "Internal server error."⟩, 500, "INTERNAL_ERROR")
  | .error .cancelled => (none, 500, "NONE")

/-- `body_limit_and_metrics_middleware` for `/v1/predict`; `callNext` is what the handler does
with a body. -/
def bodyLimitAndMetricsMiddleware (config : HttpConfig) (acceptingRequests : Bool)
    (request : HttpRequest) (callNext : List UInt8 → Except Raised HttpResponse) : Exchange :=
  if ¬ acceptingRequests then ⟨some (errorResponse [] (.default .serviceDrainingError)), []⟩
  else if request.contentLength.any fun length => config.httpMaxBodyBytes < length then
    ⟨some (errorResponse [] (.default .requestTooLargeError)), []⟩
  else if config.httpMaxBodyBytes < request.body.length then
    ⟨some (errorResponse [] (.default .requestTooLargeError)), []⟩
  else
    let (response, statusCode, errorCode) := catchExceptions (callNext request.body)
    ⟨response, [.activeInc, .activeDec, .requestsInc statusCode errorCode]⟩

/-- One request to `/v1/predict`; `loads` is `json.loads`. -/
def handle (config : HttpConfig) (acceptingRequests : Bool) (loads : List UInt8 → Option Json)
    (generated : Str) (client : PredictArgs → CallOutcome) (request : HttpRequest) : Exchange :=
  bodyLimitAndMetricsMiddleware config acceptingRequests request fun body =>
    predict config generated client (loads body)

end App
end ModelServer
