import ModelServer.Gateway.Validation

/-!
# What becomes of a request that is not accepted

The checks of `/v1/predict` raise the errors of three classes (`Refused`), and they
become a response with status 400 or 413.  One operation in between raises something
else: `encode` of a string that has a surrogate.  It is reached if everything before
it is in order (`ReachesSurrogate`), and it becomes a response with status 500.
-/

namespace ModelServer.App

open Python

variable {config : HttpConfig}

/-- The classes of the errors about a request. -/
def refusals : List ErrorClass :=
  [.invalidRequestError, .unsupportedModelError, .requestTooLargeError]

def Refused (raised : Raised) : Prop := ∃ error, raised = .appError error ∧ error.cls ∈ refusals

@[simp] theorem refused_invalidRequest (message : String) : Refused (invalidRequest message) :=
  ⟨_, rfl, by simp [refusals]⟩

@[simp] theorem refused_requestTooLarge (message : String) : Refused (requestTooLarge message) :=
  ⟨_, rfl, by simp [refusals]⟩

@[simp] theorem refused_unsupportedModel :
    Refused (.appError (.default .unsupportedModelError)) :=
  ⟨_, rfl, by decide⟩

/-! ## The checks one by one -/

theorem readRequestId_error {generated : Str} {field : Option Json} {raised : Raised}
    (h : readRequestId generated field = .error raised) : Refused raised := by
  unfold readRequestId at h
  split at h
  · cases h
  · cases h
  · split at h
    · cases h
    · cases h
      exact refused_invalidRequest _
  · cases h
    exact refused_invalidRequest _

theorem readInputs_error {field : Option Json} {raised : Raised}
    (h : readInputs config field = .error raised) : Refused raised := by
  unfold readInputs at h
  split at h
  · split at h
    · cases h
      exact refused_invalidRequest _
    · cases h
  · cases h
    exact refused_invalidRequest _

theorem checkTotal_error {total : ℕ} {raised : Raised}
    (h : checkTotal config total = .error raised) : Refused raised := by
  unfold checkTotal at h
  split at h
  · cases h
    exact refused_requestTooLarge _
  · cases h

theorem readModelVersion_error {field : Option Json} {raised : Raised}
    (h : readModelVersion config field = .error raised) : Refused raised := by
  unfold readModelVersion at h
  split at h
  · cases h
  · split at h
    · cases h
    · cases h
      exact refused_unsupportedModel
  · cases h
    exact refused_unsupportedModel

theorem readTimeoutMs_error {field : Option Json} {raised : Raised}
    (h : readTimeoutMs config field = .error raised) : Refused raised := by
  unfold readTimeoutMs at h
  split at h
  · split at h
    · cases h
    · cases h
      exact refused_invalidRequest _
  · cases h
    exact refused_invalidRequest _

/-- A string that has no UTF-8 form. -/
def HasSurrogate (inp : Json) : Prop := ∃ s, inp = .string s ∧ ∃ point ∈ s, point.Surrogate

theorem inputBytes_error {inp : Json} {raised : Raised}
    (h : inputBytes config inp = .error raised) :
    raised = .foreign ∧ HasSurrogate inp ∨ Refused raised := by
  cases inp with
  | string s =>
      simp only [inputBytes] at h
      split at h
      · cases h
        exact .inr (refused_invalidRequest _)
      · split at h
        · rename_i hencode
          cases h
          exact .inl ⟨rfl, s, rfl, Str.encode_eq_none.mp hencode⟩
        · split at h
          · cases h
            exact .inr (refused_requestTooLarge _)
          · cases h
  | _ =>
      cases h
      exact .inr (refused_invalidRequest _)

theorem inputBytes_of_surrogate {inp : Json} (h : HasSurrogate inp) :
    inputBytes config inp = .error .foreign := by
  obtain ⟨s, rfl, hsurrogate⟩ := h
  have hne : s ≠ [] := by
    rintro rfl
    simp at hsurrogate
  simp [inputBytes, hne, Str.encode_eq_none.mpr hsurrogate]

/-- The first input that is not a text within the limit has a surrogate. -/
def SurrogateAmong (config : HttpConfig) (inputs : List Json) : Prop :=
  ∃ (texts : List String) (inp : Json) (rest : List Json),
    inputs = texts.map jsonText ++ inp :: rest ∧ (∀ text ∈ texts, FitsInput config text) ∧
      HasSurrogate inp

theorem totalBytes_error {inputs : List Json} {total : ℕ} {raised : Raised}
    (h : totalBytes config total inputs = .error raised) :
    raised = .foreign ∧ SurrogateAmong config inputs ∨ Refused raised := by
  induction inputs generalizing total with
  | nil => cases h
  | cons inp inputs ih =>
      simp only [totalBytes, bind_eq_error] at h
      rcases h with hfirst | ⟨bytes, hfirst, hrest⟩
      · rcases inputBytes_error hfirst with ⟨hforeign, hsurrogate⟩ | hrefused
        · exact .inl ⟨hforeign, [], inp, inputs, rfl, by simp, hsurrogate⟩
        · exact .inr hrefused
      · obtain ⟨text, rfl, hfits, _⟩ := inputBytes_eq_ok.mp hfirst
        rcases ih hrest with ⟨hforeign, texts, inp, rest, rfl, hall, hsurrogate⟩ | hrefused
        · exact .inl ⟨hforeign, text :: texts, inp, rest, rfl,
            List.forall_mem_cons.mpr ⟨hfits, hall⟩, hsurrogate⟩
        · exact .inr hrefused

theorem totalBytes_of_surrogate {inputs : List Json} {total : ℕ}
    (h : SurrogateAmong config inputs) : totalBytes config total inputs = .error .foreign := by
  obtain ⟨texts, inp, rest, rfl, hall, hsurrogate⟩ := h
  induction texts generalizing total with
  | nil =>
      simp only [List.map_nil, List.nil_append, totalBytes, inputBytes_of_surrogate hsurrogate]
      rfl
  | cons text texts ih =>
      obtain ⟨hfits, hall⟩ := List.forall_mem_cons.mp hall
      have hbytes : inputBytes config (jsonText text) = .ok text.utf8ByteSize :=
        inputBytes_eq_ok.mpr ⟨text, rfl, hfits, rfl⟩
      simp only [List.map_cons, List.cons_append, totalBytes, hbytes]
      exact ih hall

/-! ## The whole validation -/

/-- Everything before the first `encode` that fails is in order. -/
def ReachesSurrogate (config : HttpConfig) : Json → Prop
  | .object members => (∀ member ∈ members, member.1 ∈ allowedKeys) ∧
      RequestIdAccepted (Json.get members "request_id") ∧
      ∃ inputs, Json.get members "inputs" = some (.array inputs) ∧ 1 ≤ inputs.length ∧
        (inputs.length : ℤ) ≤ config.maxInputsPerRequest ∧ SurrogateAmong config inputs
  | _ => False

theorem validate_error {generated : Str} {payload : Option Json} {raised : Raised}
    (h : validate config generated payload = .error raised) :
    raised = .foreign ∧ (∃ value, payload = some value ∧ ReachesSurrogate config value) ∨
      Refused raised := by
  unfold validate at h
  split at h
  · cases h
    exact .inr (refused_invalidRequest _)
  · rename_i members
    split at h
    · cases h
      exact .inr (refused_invalidRequest _)
    · rename_i hknown
      simp only [bind_eq_error] at h
      rcases h with hid | ⟨requestId, hid, hinputs | ⟨inputs, hinputs, hbytes | ⟨total, hbytes,
        htotal | ⟨_, _, hversion | ⟨_, _, htimeout | ⟨_, _, hargs⟩⟩⟩⟩⟩⟩
      · exact .inr (readRequestId_error hid)
      · exact .inr (readInputs_error hinputs)
      · rcases totalBytes_error hbytes with ⟨hforeign, hsurrogate⟩ | hrefused
        · obtain ⟨hfield, hone, hmany⟩ := readInputs_eq_ok.mp hinputs
          refine .inl ⟨hforeign, _, rfl, ?_, (readRequestId_ok generated).mp ⟨_, hid⟩, inputs,
            hfield, hone, hmany, hsurrogate⟩
          simpa using hknown
        · exact .inr hrefused
      · exact .inr (checkTotal_error htotal)
      · exact .inr (readModelVersion_error hversion)
      · exact .inr (readTimeoutMs_error htimeout)
      · cases hargs
  · cases h
    exact .inr (refused_invalidRequest _)

theorem validate_of_surrogate {generated : Str} {value : Json} (h : ReachesSurrogate config value) :
    validate config generated (some value) = .error .foreign := by
  cases value with
  | object members =>
      obtain ⟨hknown, hid, inputs, hinputs, hone, hmany, hsurrogate⟩ := h
      have hkeys : (members.any fun member => member.1 ∉ allowedKeys) = false := by
        simpa using hknown
      obtain ⟨requestId, hid⟩ := (readRequestId_ok generated).mpr hid
      have hread := readInputs_eq_ok.mpr ⟨hinputs, hone, hmany⟩
      simp only [validate, hkeys, Bool.false_eq_true, if_false, bind_eq_error]
      exact .inr ⟨_, hid, .inr ⟨_, hread, .inl (totalBytes_of_surrogate hsurrogate)⟩⟩
  | _ => exact h.elim

/-! ## The response -/

/-- A request that the middleware lets through to the handler. -/
structure WithinBodyLimit (config : HttpConfig) (request : HttpRequest) : Prop where
  announced : ∀ length, request.contentLength = some length →
    (length : ℤ) ≤ config.httpMaxBodyBytes
  actual : (request.body.length : ℤ) ≤ config.httpMaxBodyBytes

/-- The handler calls `client.predict`. -/
def Forwarded (config : HttpConfig) (loads : List UInt8 → Option Json) (generated : Str)
    (request : HttpRequest) : Prop :=
  WithinBodyLimit config request ∧
    ∃ args, validate config generated (loads request.body) = .ok args

/-- Status 400 or 413 with the code of one of the three classes. -/
def IsRefusal (response : HttpResponse) : Prop :=
  (response.statusCode = 400 ∨ response.statusCode = 413) ∧
    ∃ code message, response.content = .error code message ∧
      code ∈ ["INVALID_REQUEST", "UNSUPPORTED_MODEL", "REQUEST_TOO_LARGE"]

theorem isRefusal_errorResponse {requestId : Str} {error : AppError} (h : error.cls ∈ refusals) :
    IsRefusal (errorResponse requestId error) := by
  obtain ⟨cls, message⟩ := error
  refine ⟨?_, _, _, rfl, ?_⟩
  · revert h
    cases cls <;> simp [refusals, errorResponse, AppError.statusCode, ErrorClass.statusCode]
  · revert h
    cases cls <;> simp [refusals, AppError.code, ErrorClass.code]

section

variable {loads : List UInt8 → Option Json} {generated : Str} {client : PredictArgs → CallOutcome}
  {request : HttpRequest}

theorem response_of_tooLarge (h : ¬ WithinBodyLimit config request) :
    (handle config true loads generated client request).response =
      some (errorResponse [] (.default .requestTooLargeError)) := by
  unfold handle bodyLimitAndMetricsMiddleware
  rw [if_neg (by simp)]
  split
  · rfl
  · rename_i hannounced
    split
    · rfl
    · rename_i hactual
      refine absurd ⟨fun length hlength => ?_, not_lt.mp hactual⟩ h
      simpa [hlength] using hannounced

theorem response_of_withinLimit (h : WithinBodyLimit config request) :
    (handle config true loads generated client request).response =
      (catchExceptions (predict config generated client (loads request.body))).1 := by
  have hannounced : (request.contentLength.any fun length => config.httpMaxBodyBytes < length) =
      false := by
    cases hlength : request.contentLength with
    | none => rfl
    | some length => simpa using h.announced length hlength
  unfold handle bodyLimitAndMetricsMiddleware
  rw [if_neg (by simp), hannounced, if_neg (by simp), if_neg (not_lt.mpr h.actual)]

theorem response_of_error {raised : Raised} (hlimit : WithinBodyLimit config request)
    (h : validate config generated (loads request.body) = .error raised) :
    (handle config true loads generated client request).response =
      (catchExceptions (.error raised)).1 := by
  rw [response_of_withinLimit hlimit, predict, h]
  rfl

end

/-- **Refusals.**  What an accepting gateway does not forward it answers with 400 or 413 and
the code of an error about the request, unless validation reaches a string that cannot be
encoded. -/
theorem refused_iff (config : HttpConfig) (loads : List UInt8 → Option Json) (generated : Str)
    (client : PredictArgs → CallOutcome) (request : HttpRequest) :
    (¬ Forwarded config loads generated request →
        ∃ response, (handle config true loads generated client request).response =
          some response ∧ IsRefusal response) ↔
      ¬ (WithinBodyLimit config request ∧
        ∃ value, loads request.body = some value ∧ ReachesSurrogate config value) := by
  constructor
  · rintro hrefused ⟨hlimit, value, hloads, hsurrogate⟩
    have herror : validate config generated (loads request.body) = .error .foreign :=
      hloads ▸ validate_of_surrogate hsurrogate
    have hstays : ¬ Forwarded config loads generated request := by
      rintro ⟨_, args, hargs⟩
      rw [herror] at hargs
      cases hargs
    obtain ⟨response, hresponse, hstatus, _⟩ := hrefused hstays
    rw [response_of_error hlimit herror] at hresponse
    cases hresponse
    simp at hstatus
  · intro hordinary hstays
    by_cases hlimit : WithinBodyLimit config request
    · cases hvalidate : validate config generated (loads request.body) with
      | ok args => exact absurd ⟨hlimit, args, hvalidate⟩ hstays
      | error raised =>
          rcases validate_error hvalidate with ⟨_, hsurrogate⟩ | ⟨error, rfl, hcls⟩
          · exact absurd ⟨hlimit, hsurrogate⟩ hordinary
          · exact ⟨_, response_of_error hlimit hvalidate, isRefusal_errorResponse hcls⟩
    · exact ⟨_, response_of_tooLarge hlimit, isRefusal_errorResponse (by decide)⟩

/-- `{"inputs": ["\ud800"]}` -/
def surrogateBody : List UInt8 :=
  "\x7b\"inputs\": [\"\\ud800\"]\x7d".toList.map fun char => UInt8.ofNat char.toNat

def surrogateRequest : Json :=
  .object [(Str.ofString "inputs", .array [.string [0xD800]])]

/-- `json.loads` on `surrogateBody`. -/
def sampleLoads (body : List UInt8) : Option Json :=
  if body = surrogateBody then some surrogateRequest else none

/-- Half of an escaped pair is answered with status 500. -/
theorem surrogate_is_internal_error :
    ¬ ∀ (config : HttpConfig) (loads : List UInt8 → Option Json) (generated : Str)
      (client : PredictArgs → CallOutcome) (request : HttpRequest),
      ¬ Forwarded config loads generated request →
        ∃ response, (handle config true loads generated client request).response =
          some response ∧ IsRefusal response := by
  intro hrefused
  have hloads : sampleLoads surrogateBody = some surrogateRequest := if_pos rfl
  have hlimit : WithinBodyLimit {} { body := surrogateBody } := ⟨by simp, by decide⟩
  have herror : validate {} [] (sampleLoads surrogateBody) = .error .foreign := by
    rw [hloads]
    rfl
  have hstays : ¬ Forwarded {} sampleLoads [] { body := surrogateBody } := by
    rintro ⟨_, args, hargs⟩
    rw [herror] at hargs
    cases hargs
  obtain ⟨response, hresponse, hstatus, _⟩ :=
    hrefused {} sampleLoads [] (fun _ => .foreign) { body := surrogateBody } hstays
  rw [response_of_error hlimit herror] at hresponse
  cases hresponse
  simp at hstatus

end ModelServer.App
