import ModelServer.Gateway.Validation
import ModelServer.Worker.Server

/-!
# Gateway and worker check the same request

A request is checked twice, by the handler of `/v1/predict` and by the `Predict` of
the worker it is sent to.  What the gateway forwards has between one and
`MAX_INPUTS_PER_REQUEST` inputs and its own model version; the worker compares
with 8 and with its model version.  `neverInvalid_iff` says for which requests the
two agree.
-/

namespace ModelServer

open Python Transition

/-- A string field of a message; `none` where there is no string or it has no UTF-8 form. -/
def stringField : Json → Option String
  | .string s => s.encode
  | _ => none

/-- `inference_pb2.PredictRequest(..)` of the arguments of `client.predict`; `none` where it
raises. -/
def PredictArgs.toPredictRequest (args : PredictArgs) : Option PredictRequest := do
  let requestId ← args.requestId.encode
  let modelVersion ← args.modelVersion.encode
  let inputs ← args.inputs.mapM stringField
  some { requestId, modelVersion, inputs }

namespace App

variable {config : HttpConfig}

/-! ## What the gateway forwards -/

theorem exists_text_of_requestIdMatches {s : Str} (h : requestIdMatches s = true) :
    ∃ text, s = Str.ofString text := by
  have hchars : ∀ id, IsRequestId id → ∀ point ∈ id, ¬ point.Surrogate := by
    intro id hid point hmem hsurrogate
    have hchar := hid.2.2 point hmem
    rw [isIdChar, CodePoint.toChar?_eq_none.mpr hsurrogate] at hchar
    cases hchar
  have hencode : s.encode ≠ none := by
    rw [Ne, Str.encode_eq_none]
    rintro ⟨point, hmem, hsurrogate⟩
    rcases requestIdMatches_iff.mp h with hid | ⟨id, hid, rfl⟩
    · exact hchars s hid point hmem hsurrogate
    · rcases List.mem_append.mp hmem with hmem | hmem
      · exact hchars id hid point hmem hsurrogate
      · rw [List.mem_singleton.mp hmem] at hsurrogate
        rw [← CodePoint.toChar?_eq_none, newline, CodePoint.toChar?_ofChar] at hsurrogate
        cases hsurrogate
  obtain ⟨text, htext⟩ := Option.ne_none_iff_exists'.mp hencode
  exact ⟨text, Str.encode_eq_some.mp htext⟩

theorem readRequestId_eq_ok {generated : String} {field : Option Json} {requestId : Str}
    (h : readRequestId (Str.ofString generated) field = .ok requestId) :
    ∃ text, requestId = Str.ofString text := by
  unfold readRequestId at h
  split at h
  · cases h
    exact ⟨generated, rfl⟩
  · cases h
    exact ⟨generated, rfl⟩
  · split at h
    · cases h
      exact exists_text_of_requestIdMatches ‹_›
    · cases h
  · cases h

theorem readModelVersion_eq_ok {field : Option Json} {modelVersion : Str}
    (h : readModelVersion config field = .ok modelVersion) :
    modelVersion = Str.ofString config.modelVersion := by
  unfold readModelVersion at h
  split at h
  · cases h
    rfl
  · split at h
    · rename_i hsame
      cases h
      exact hsame
    · cases h
  · cases h

/-- The request that a worker gets for the arguments. -/
structure Forwards (config : HttpConfig) (args : PredictArgs) (request : PredictRequest) :
    Prop where
  sent : args.toPredictRequest = some request
  modelVersion : request.modelVersion = config.modelVersion
  length : request.inputs.length = args.inputs.length
  nonempty : 1 ≤ request.inputs.length
  bounded : (request.inputs.length : ℤ) ≤ config.maxInputsPerRequest

theorem mapM_stringField (texts : List String) :
    texts.mapM (stringField ∘ jsonText) = some texts := by
  induction texts with
  | nil => rfl
  | cons text texts ih => simp [jsonText, stringField, ih]

/-- Whatever the handler forwards is a request. -/
theorem forwards_of_validate {generated : String} {payload : Option Json} {args : PredictArgs}
    (h : validate config (Str.ofString generated) payload = .ok args) :
    ∃ request, Forwards config args request := by
  unfold validate at h
  split at h
  · cases h
  · split at h
    · cases h
    · simp only [bind_eq_ok] at h
      obtain ⟨requestId, hid, inputs, hinputs, total, hbytes, _, _, version, hversion, _, _,
        hargs⟩ :=
        h
      cases hargs
      obtain ⟨id, rfl⟩ := readRequestId_eq_ok hid
      obtain rfl := readModelVersion_eq_ok hversion
      obtain ⟨texts, rfl, _, _⟩ := totalBytes_eq_ok.mp hbytes
      obtain ⟨_, hone, hmany⟩ := readInputs_eq_ok.mp hinputs
      rw [List.length_map] at hone hmany
      refine ⟨⟨id, config.modelVersion, texts⟩, ?_, rfl, ?_, hone, hmany⟩
      · simp [PredictArgs.toPredictRequest, mapM_stringField]
      · rw [List.length_map]
  · cases h

end App

namespace Servicer

variable {config : WorkerConfig}

/-! ## What the worker refuses -/

theorem abortOf_ne_invalidArgument (error : AppError) (details : String) :
    (abortOf error).2 ≠ .aborted .invalidArgument details := by
  unfold abortOf
  split <;> simp

theorem answerOf_ne_invalidArgument {request : PredictRequest}
    {future : Asyncio.Future BatcherResult AppError} {label : Option String}
    {outcome : HandlerOutcome} (h : answerOf config request future = some (label, outcome))
    (details : String) : outcome ≠ .aborted .invalidArgument details := by
  cases future with
  | pending => cases h
  | result result =>
      cases h
      simp
  | exception error =>
      obtain rfl : (abortOf error).2 = outcome := congrArg Prod.snd (Option.some.inj h)
      exact abortOf_ne_invalidArgument error details
  | cancelled =>
      cases h
      simp

/-- The handler has begun, and has not answered `INVALID_ARGUMENT`. -/
def Proceeds (handler : Handler) : Prop :=
  handler.point ≠ .received ∧
    ∀ details, handler.point ≠ .finished (.aborted .invalidArgument details)

theorem proceeds_of_step {id : ℕ} {s next : Servicer} {event : Event} {handler : Handler}
    (hstep : Step config s event next) (hhandler : s.handlers[id]? = some handler)
    (h : Proceeds handler) : ∃ handler, next.handlers[id]? = some handler ∧ Proceeds handler := by
  have hlength := (List.getElem?_eq_some_iff.mp hhandler).1
  -- one handler is replaced by one that proceeds
  have hset : ∀ index (other : Handler), Proceeds other →
      ∃ handler, (s.handlers.set index other)[id]? = some handler ∧ Proceeds handler := by
    intro index other hother
    by_cases hsame : index = id
    · subst hsame
      exact ⟨other, List.getElem?_set_self hlength, hother⟩
    · exact ⟨handler, by rw [List.getElem?_set_ne hsame, hhandler], h⟩
  cases hstep with
  | tick _ | batch _ _ _ | ready _ _ | drain _ _ | close _ _ _ => exact ⟨handler, hhandler, h⟩
  | receive _ => exact ⟨handler, by rw [List.getElem?_append_left hlength, hhandler], h⟩
  | @aborts index _ _ _ _ _ hother hpoint _ =>
      -- this handler has not begun
      have hother : index ≠ id := by
        rintro rfl
        obtain rfl := Option.some.inj (hhandler.symm.trans hother)
        exact h.1 hpoint
      exact ⟨handler, by rw [store_handlers, List.getElem?_set_ne hother, hhandler], h⟩
  | admits _ _ _ _ => exact hset _ _ ⟨nofun, nofun⟩
  | accepted _ _ _ => exact hset _ _ ⟨nofun, nofun⟩
  | @refused index other error _ _ _ _ =>
      exact hset _ _ ⟨nofun, fun details => by simpa using abortOf_ne_invalidArgument error details⟩
  | @answers index _ other _ _ _ _ _ _ hanswer =>
      exact hset _ _
        ⟨nofun, fun details => by simpa using answerOf_ne_invalidArgument hanswer details⟩
  | cancelReceived _ _ _ | cancelAwait _ _ _ _ => exact hset _ _ ⟨nofun, by simp⟩

/-- A ready worker that reads this request with time remaining does not answer it with
`INVALID_ARGUMENT`, then or later. -/
def NeverInvalid (config : WorkerConfig) (request : PredictRequest) : Prop :=
  ∀ s id handler remaining first last answered,
    (machine config).Reachable s → s.state = .ready → s.handlers[id]? = some handler →
    handler.request = request → 0 < remaining →
    (machine config).step s (.predict id (some remaining)) = some first →
    ((machine config).startingAt first).Reachable last →
    last.handlers[id]? = some answered →
    ∀ details, answered.point ≠ .finished (.aborted .invalidArgument details)

theorem checkRequest_of_length {request : PredictRequest} {remaining : Time}
    (hversion : request.modelVersion = config.modelVersion) (hone : 1 ≤ request.inputs.length)
    (hmany : request.inputs.length ≤ 8) (hremaining : 0 < remaining) :
    checkRequest config .ready request (some remaining) = .ok remaining := by
  have hinputs : ¬ (request.inputs.isEmpty ∨ 8 < request.inputs.length) := by
    rw [List.isEmpty_iff, ← List.length_eq_zero_iff]
    omega
  unfold checkRequest
  rw [if_neg (by simp), if_neg hinputs, if_neg (not_not.mpr hversion)]
  exact if_neg (not_le.mpr hremaining)

theorem neverInvalid_of_length {request : PredictRequest}
    (hversion : request.modelVersion = config.modelVersion) (hone : 1 ≤ request.inputs.length)
    (hmany : request.inputs.length ≤ 8) : NeverInvalid config request := by
  rintro s id handler remaining first last answered - hready hhandler rfl hremaining hevent hrun
    hanswered
  have hcheck := checkRequest_of_length hversion hone hmany hremaining
  have hfirst : ∃ handler, first.handlers[id]? = some handler ∧ Proceeds handler := by
    have hstep : Step config s (.predict id (some remaining)) first := step_cases hevent
    cases hstep with
    | batch hinner => cases hinner
    | aborts _ hother _ haborts =>
        obtain rfl := Option.some.inj (hhandler.symm.trans hother)
        rw [hready, hcheck] at haborts
        cases haborts
    | admits _ hother _ _ =>
        have hlength := (List.getElem?_eq_some_iff.mp hhandler).1
        exact ⟨_, List.getElem?_set_self hlength, nofun, nofun⟩
  have hlast : ∃ handler, last.handlers[id]? = some handler ∧ Proceeds handler := by
    apply hrun.invariant
    · rintro s rfl
      exact hfirst
    · rintro s event next _ ⟨handler, hhandler, hproceeds⟩ hevent
      exact proceeds_of_step (step_cases hevent) hhandler hproceeds
  obtain ⟨handler, hhandler, hproceeds⟩ := hlast
  obtain rfl := Option.some.inj (hanswered.symm.trans hhandler)
  exact hproceeds.2

/-- The request arrives at a worker that has just become ready. -/
def arrived (config : WorkerConfig) (request : PredictRequest) : Servicer :=
  { initial config 0 with state := .ready, handlers := [{ request }] }

theorem reachable_arrived (config : WorkerConfig) (request : PredictRequest) :
    (machine config).Reachable (arrived config request) := by
  have hinitial : (machine config).Reachable (initial config 0) := .initial ⟨0, rfl⟩
  have hrun : (machine config).Run (initial config 0) [.ready, .receive request]
      (arrived config request) := by
    simp [Machine.Run, Machine.exec, machine, step, atRest, initial, Batcher.initial, Batcher.idle,
      guard, arrived]
  exact Machine.Reachable.run hinitial hrun

theorem not_neverInvalid_of_length {request : PredictRequest}
    (hmany : 8 < request.inputs.length) : ¬ NeverInvalid config request := by
  intro hnever
  have hcheck : checkRequest config .ready request (some 1) =
      .error (.invalidArgument, "INVALID_REQUEST") := by
    unfold checkRequest
    rw [if_neg (by simp), if_pos (.inr hmany)]
  have hevent : (machine config).step (arrived config request) (.predict 0 (some 1)) =
      some ((arrived config request).store 0
        { request, point := .finished (.aborted .invalidArgument "INVALID_REQUEST") }) := by
    simp [machine, step, atRest, arrived, initial, Batcher.initial, Batcher.idle, guard, hcheck,
      Handler.goto]
  exact hnever _ 0 { request } 1 _ _ _ (reachable_arrived config request) rfl rfl rfl zero_lt_one
    hevent (.initial rfl) rfl "INVALID_REQUEST" rfl

end Servicer

/-- **Gateway and worker agree on requests of at most eight inputs.**  Every request that
the handler of `/v1/predict` forwards becomes a `PredictRequest`, and a ready worker of the
same model version never answers it with `INVALID_ARGUMENT` exactly if it has at most eight
inputs, whatever the limit of the gateway is. -/
theorem neverInvalid_iff {config : HttpConfig} {worker : WorkerConfig} {generated : String}
    {value : Json} {args : PredictArgs} (hversion : config.modelVersion = worker.modelVersion)
    (hvalid : App.validate config (Str.ofString generated) (some value) = .ok args) :
    ∃ request, args.toPredictRequest = some request ∧
      (Servicer.NeverInvalid worker request ↔ args.inputs.length ≤ 8) := by
  obtain ⟨request, hforwards⟩ := App.forwards_of_validate hvalid
  refine ⟨request, hforwards.sent, ?_⟩
  rw [← hforwards.length]
  constructor
  · intro hnever
    by_contra hmany
    exact Servicer.not_neverInvalid_of_length (not_le.mp hmany) hnever
  · exact Servicer.neverInvalid_of_length (hforwards.modelVersion.trans hversion)
      hforwards.nonempty

/-- A request with the same input several times. -/
def repeated (count : ℕ) : Json :=
  .object [(Str.ofString "inputs", .array (List.replicate count (App.jsonText "a")))]

/-- The handler forwards it, with this number of inputs. -/
def RepeatedForwarded (config : HttpConfig) (count : ℕ) : Prop :=
  (App.validate config (Str.ofString "r0") (some (repeated count))).toOption.map
    (fun args => args.inputs.length) = some count

theorem exists_args_of_forwarded {config : HttpConfig} {count : ℕ}
    (h : RepeatedForwarded config count) :
    ∃ args, App.validate config (Str.ofString "r0") (some (repeated count)) = .ok args ∧
      args.inputs.length = count := by
  obtain ⟨args, hargs, hlength⟩ := Option.map_eq_some_iff.mp h
  refine ⟨args, ?_, hlength⟩
  cases hresult : App.validate config (Str.ofString "r0") (some (repeated count)) with
  | error error => simp [hresult, Except.toOption] at hargs
  | ok result => simpa [hresult, Except.toOption] using hargs

theorem neverInvalid_iff_two :
    ∃ args request, App.validate {} (Str.ofString "r0") (some (repeated 2)) = .ok args ∧
      args.toPredictRequest = some request ∧ Servicer.NeverInvalid {} request := by
  have hforwarded : RepeatedForwarded {} 2 := by
    unfold RepeatedForwarded
    decide +kernel
  obtain ⟨args, hvalid, hlength⟩ := exists_args_of_forwarded hforwarded
  have hversion : ({} : HttpConfig).modelVersion = ({} : WorkerConfig).modelVersion := rfl
  obtain ⟨request, hsent, hiff⟩ := neverInvalid_iff hversion hvalid
  exact ⟨args, request, hvalid, hsent, hiff.mpr (by rw [hlength]; decide)⟩

/-- The limit of the gateway is raised to sixteen, and a request has nine inputs. -/
theorem invalid_of_nine :
    ¬ ∀ (config : HttpConfig) (worker : WorkerConfig) (generated : String) (value : Json)
        (args : PredictArgs), config.modelVersion = worker.modelVersion →
      App.validate config (Str.ofString generated) (some value) = .ok args →
      ∃ request, args.toPredictRequest = some request ∧
        Servicer.NeverInvalid worker request := by
  intro hagree
  have hforwarded : RepeatedForwarded { maxInputsPerRequest := 16 } 9 := by
    unfold RepeatedForwarded
    decide +kernel
  obtain ⟨args, hvalid, hlength⟩ := exists_args_of_forwarded hforwarded
  obtain ⟨request, hsent, hnever⟩ := hagree _ {} _ _ args rfl hvalid
  obtain ⟨request', hforwards⟩ := App.forwards_of_validate hvalid
  obtain rfl := Option.some.inj (hsent.symm.trans hforwards.sent)
  have hnine : request.inputs.length = 9 := hforwards.length.trans hlength
  exact Servicer.not_neverInvalid_of_length (by omega) hnever

end ModelServer
