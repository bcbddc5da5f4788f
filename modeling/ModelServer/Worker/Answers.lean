import ModelServer.Worker.Predictions
import ModelServer.Worker.Server

/-!
# What a worker answers

The batcher of a worker only does what a batcher does (`batcher_of_step`), and a
handler that awaits a result has an envelope with its own inputs in the line of
the batcher (`Placed`).  With a model that computes `f` text by text, a response is
therefore `f` of the inputs of the request it answers.
-/

namespace ModelServer

open Asyncio Transition

namespace Servicer

variable {config : WorkerConfig}

/-! ## The batcher of a worker -/

theorem atRest_iff {s : Servicer} : s.atRest ↔ s.batcher.idle ∧ s.running = none := by
  simp [atRest]

/-- While a handler is in the middle of a step, the loop task is not. -/
def Exclusive (s : Servicer) : Prop := s.running.isSome → s.batcher.idle

theorem exclusive_of_step {s next : Servicer} {event : Event} (hstep : Step config s event next)
    (h : Exclusive s) : Exclusive next := by
  intro hrunning
  cases hstep with
  | tick hbatcher =>
      simp only [Batcher.step, Option.ite_none_right_eq_some, Option.some.injEq] at hbatcher
      obtain ⟨_, rfl⟩ := hbatcher
      exact h hrunning
  | batch _ hturn hbatcher =>
      rcases hturn with hnone | rfl
      · simp [hnone] at hrunning
      · have hidle := h hrunning
        simp only [Batcher.step] at hbatcher
        split at hbatcher <;> simp_all [Batcher.idle]
  | ready hrest _ | drain hrest _ | receive hrest | close hrest _ _ =>
      simp [(atRest_iff.mp hrest).2] at hrunning
  | admits hrest _ _ _ => exact (atRest_iff.mp hrest).1
  | _ => simp at hrunning

theorem exclusive_of_reachable {s : Servicer} (hreach : (machine config).Reachable s) :
    Exclusive s := by
  apply hreach.invariant
  · rintro s ⟨now, rfl⟩
    exact nofun
  · intro s event next _ h hevent
    exact exclusive_of_step (step_cases hevent) h

/-- The envelope of a handler, once it has been accepted. -/
structure Placed (batcher : Batcher) (handler : Handler) : Prop where
  fresh : handler.point = .received → handler.future = none
  envelope : ∀ future, handler.future = some future → ∃ envelope ∈ batcher.acceptedLine,
    envelope.future = future ∧ envelope.inputs = handler.request.inputs ∧
      envelope.localDeadline = handler.localDeadline

theorem acceptedLine_enqueue {batcher next : Batcher} {requestId : String} {inputs : List String}
    {localDeadline : Time} {future : ℕ}
    (h : batcher.enqueue requestId inputs localDeadline = (.ok future, next)) :
    ∃ envelope ∈ next.acceptedLine, envelope.future = future ∧ envelope.inputs = inputs ∧
      envelope.localDeadline = localDeadline := by
  simp only [Batcher.enqueue] at h
  split at h
  · simp at h
  · split at h
    · simp at h
    · simp only [Prod.mk.injEq, Except.ok.injEq] at h
      obtain ⟨rfl, rfl⟩ := h
      refine ⟨batcher.newEnvelope requestId inputs localDeadline, ?_, rfl, rfl, rfl⟩
      unfold Batcher.start
      split <;> simp [Batcher.acceptedLine, Observation.acceptedEnvelope, Batcher.newEnvelope]

/-- The batcher of a worker only does what a batcher does. -/
theorem batcher_of_step {s next : Servicer} {event : Event} (hstep : Step config s event next)
    (hexclusive : Exclusive s)
    (hreach : (Batcher.machine config.toBatcherConfig).Reachable s.batcher)
    (hplaced : ∀ handler ∈ s.handlers, Placed s.batcher handler) :
    next.batcher = s.batcher ∨ ∃ inner,
      s.batcher.step config.toBatcherConfig inner = some next.batcher ∧
        ∀ wakeup, inner = .resume wakeup → event = .wake wakeup := by
  cases hstep with
  | tick hbatcher => exact .inr ⟨_, hbatcher, by simp⟩
  | batch hinner _ hbatcher =>
      refine .inr ⟨_, hbatcher, ?_⟩
      rintro wakeup rfl
      cases event <;> simp_all [Event.inner]
  | close _ _ hbatcher => exact .inr ⟨_, hbatcher, by simp⟩
  | @accepted id future handler batcher hrunning _ henqueue =>
      have hidle := hexclusive (by simp [hrunning])
      exact .inr ⟨.enqueue handler.request.requestId handler.request.inputs handler.localDeadline,
        by simp [Batcher.step, hidle, henqueue], by simp⟩
  | @refused id handler error batcher hrunning _ henqueue =>
      have hidle := hexclusive (by simp [hrunning])
      exact .inr ⟨.enqueue handler.request.requestId handler.request.inputs handler.localDeadline,
        by simp [Batcher.step, hidle, henqueue], by simp⟩
  | @cancelAwait id future handler hrest hhandler _ hfuture =>
      have hidle := (atRest_iff.mp hrest).1
      obtain ⟨envelope, hmem, rfl, _⟩ :=
        (hplaced handler (List.mem_of_getElem? hhandler)).envelope future hfuture
      have hknown := (Batcher.line_of_reachable hreach).numbered envelope hmem
      exact .inr ⟨.cancelFuture envelope.future, by simp [Batcher.step, hidle, hknown], by simp⟩
  | _ => exact .inl rfl

theorem acceptedLine_subset_of_step {s next : Servicer} {event : Event}
    (hstep : Step config s event next) (hexclusive : Exclusive s)
    (hreach : (Batcher.machine config.toBatcherConfig).Reachable s.batcher)
    (hplaced : ∀ handler ∈ s.handlers, Placed s.batcher handler) :
    s.batcher.acceptedLine ⊆ next.batcher.acceptedLine := by
  rcases batcher_of_step hstep hexclusive hreach hplaced with hsame | ⟨inner, hinner, _⟩
  · rw [hsame]
    exact List.Subset.refl _
  · rcases Batcher.acceptedLine_of_step (Batcher.step_cases hinner) with
      ⟨hsame, _⟩ | ⟨envelope, hnew, _⟩
    · rw [hsame]
      exact List.Subset.refl _
    · rw [hnew]
      exact List.subset_append_left _ _

theorem Placed.mono {batcher next : Batcher} {handler : Handler} (h : Placed batcher handler)
    (hline : batcher.acceptedLine ⊆ next.acceptedLine) : Placed next handler := by
  refine ⟨h.fresh, fun future hfuture => ?_⟩
  obtain ⟨envelope, hmem, henvelope⟩ := h.envelope future hfuture
  exact ⟨envelope, hline hmem, henvelope⟩

theorem placed_of_step {s next : Servicer} {event : Event} (hstep : Step config s event next)
    (hline : s.batcher.acceptedLine ⊆ next.batcher.acceptedLine)
    (h : ∀ handler ∈ s.handlers, Placed s.batcher handler) :
    ∀ handler ∈ next.handlers, Placed next.batcher handler := by
  have hkept : ∀ handler ∈ s.handlers, Placed next.batcher handler :=
    fun handler hmem => (h handler hmem).mono hline
  intro handler hmem
  cases hstep with
  | receive _ =>
      rcases List.mem_append.mp hmem with hold | hnew
      · exact hkept handler hold
      · rw [List.mem_singleton.mp hnew]
        exact ⟨fun _ => rfl, nofun⟩
  | admits _ hhandler hpoint _ =>
      rcases List.mem_or_eq_of_mem_set hmem with hold | rfl
      · exact hkept handler hold
      · have hfresh := (h _ (List.mem_of_getElem? hhandler)).fresh hpoint
        exact ⟨nofun, by simp [hfresh]⟩
  | accepted _ _ henqueue =>
      rcases List.mem_or_eq_of_mem_set hmem with hold | rfl
      · exact hkept handler hold
      · refine ⟨nofun, fun future hfuture => ?_⟩
        obtain rfl := Option.some.inj hfuture
        exact acceptedLine_enqueue henqueue
  | aborts _ hhandler _ _ | refused _ hhandler _ | answers _ hhandler _ _ _
  | cancelReceived _ hhandler _ | cancelAwait _ hhandler _ _ =>
      rcases List.mem_or_eq_of_mem_set hmem with hold | rfl
      · exact hkept handler hold
      · exact ⟨nofun, (hkept _ (List.mem_of_getElem? hhandler)).envelope⟩
  | tick _ | batch _ _ _ | ready _ _ | drain _ _ | close _ _ _ => exact hkept handler hmem

/-- What the handlers and the batcher of a worker owe each other. -/
structure Attended (config : WorkerConfig) (s : Servicer) : Prop where
  batcher : (Batcher.machine config.toBatcherConfig).Reachable s.batcher
  handlers : ∀ handler ∈ s.handlers, Placed s.batcher handler

theorem attended_of_reachable {s : Servicer} (hreach : (machine config).Reachable s) :
    Attended config s := by
  apply hreach.invariant
  · rintro s ⟨now, rfl⟩
    exact ⟨.initial ⟨now, rfl⟩, fun _ hmem => absurd hmem List.not_mem_nil⟩
  · intro s event next hbefore h hevent
    have hstep := step_cases hevent
    have hexclusive := exclusive_of_reachable hbefore
    refine ⟨?_, placed_of_step hstep ?_ h.handlers⟩
    · rcases batcher_of_step hstep hexclusive h.batcher h.handlers with
        hsame | ⟨inner, hinner, _⟩
      · exact hsame ▸ h.batcher
      · exact h.batcher.next hinner
    · exact acceptedLine_subset_of_step hstep hexclusive h.batcher h.handlers

/-! ## The answers -/

variable {f : String → String × ℚ}

/-- The model returns `f` of each text it was given. -/
def PointwiseEvent (f : String → String × ℚ) (s : Servicer) : Event → Prop
  | .wake wakeup => Batcher.PointwiseEvent f s.batcher (.resume wakeup)
  | _ => True

/-- The predictions that `f` makes for the inputs of a request. -/
def predictionsOf (f : String → String × ℚ) (inputs : List String) : List Prediction :=
  inputs.map fun text => toPrediction (f text)

/-- A response carries the predictions for the inputs of its request. -/
def Right (f : String → String × ℚ) (handler : Handler) : Prop :=
  ∀ resp, handler.point = .finished (.returned resp) →
    resp.predictions = predictionsOf f handler.request.inputs

theorem answerOf_returned {request : PredictRequest} {future : Future BatcherResult AppError}
    {label : Option String} {resp : PredictResponse}
    (h : answerOf config request future = some (label, .returned resp)) :
    ∃ result, future = .result result ∧ resp = responseOf config request result := by
  cases future with
  | result result =>
      simp only [answerOf, Option.some.injEq, Prod.mk.injEq, HandlerOutcome.returned.injEq] at h
      exact ⟨result, rfl, h.2.symm⟩
  | exception error =>
      obtain ⟨cls, message⟩ := error
      cases cls <;> simp [answerOf, abortOf] at h
  | _ => simp [answerOf] at h

theorem right_of_step {s next : Servicer} {event : Event} (hstep : Step config s event next)
    (hpointwise : (Batcher.machine config.toBatcherConfig).ReachableBy
      (Batcher.PointwiseEvent f) s.batcher)
    (hplaced : ∀ handler ∈ s.handlers, Placed s.batcher handler)
    (h : ∀ handler ∈ s.handlers, Right f handler) : ∀ handler ∈ next.handlers, Right f handler := by
  intro handler hmem
  cases hstep with
  | receive _ =>
      rcases List.mem_append.mp hmem with hold | hnew
      · exact h handler hold
      · rw [List.mem_singleton.mp hnew]
        exact nofun
  | aborts _ _ _ _ | admits _ _ _ _ | accepted _ _ _ | cancelReceived _ _ _
  | cancelAwait _ _ _ _ =>
      rcases List.mem_or_eq_of_mem_set hmem with hold | rfl
      · exact h handler hold
      · exact nofun
  | @refused _ _ error _ _ _ _ =>
      rcases List.mem_or_eq_of_mem_set hmem with hold | rfl
      · exact h handler hold
      · intro resp hpoint
        obtain ⟨cls, message⟩ := error
        cases cls <;> simp [abortOf] at hpoint
  | @answers id future answered _ _ _ hhandler _ hfuture hanswer =>
      rcases List.mem_or_eq_of_mem_set hmem with hold | rfl
      · exact h handler hold
      · intro resp hpoint
        obtain rfl : _ = HandlerOutcome.returned resp := by simpa using hpoint
        obtain ⟨result, hresult, rfl⟩ := answerOf_returned hanswer
        obtain ⟨envelope, henvelope, rfl, hinputs, _⟩ :=
          (hplaced answered (List.mem_of_getElem? hhandler)).envelope future hfuture
        have hpredictions := Batcher.predictions_of_result hpointwise henvelope hresult
        simp [responseOf, predictionsOf, hpredictions, hinputs]
  | tick _ | batch _ _ _ | ready _ _ | drain _ _ | close _ _ _ => exact h handler hmem

structure Answering (config : WorkerConfig) (f : String → String × ℚ) (s : Servicer) : Prop where
  batcher : (Batcher.machine config.toBatcherConfig).ReachableBy (Batcher.PointwiseEvent f)
    s.batcher
  handlers : ∀ handler ∈ s.handlers, Right f handler

/-- Every response of a worker is right, whatever the other requests are. -/
theorem answering_of_reachable {s : Servicer}
    (hreach : (machine config).ReachableBy (PointwiseEvent f) s) : Answering config f s := by
  apply hreach.invariant
  · rintro s ⟨now, rfl⟩
    exact ⟨.initial ⟨now, rfl⟩, fun _ hmem => absurd hmem List.not_mem_nil⟩
  · intro s event next hbefore h hmodel hevent
    have hstep := step_cases hevent
    have hattended := attended_of_reachable hbefore.reachable
    refine ⟨?_, right_of_step hstep h.batcher hattended.handlers h.handlers⟩
    rcases batcher_of_step hstep (exclusive_of_reachable hbefore.reachable) hattended.batcher
      hattended.handlers with hsame | ⟨inner, hinner, hwake⟩
    · exact hsame ▸ h.batcher
    · refine h.batcher.step ?_ hinner
      cases inner with
      | resume wakeup =>
          rw [hwake wakeup rfl] at hmodel
          exact hmodel
      | _ => trivial

end Servicer
end ModelServer
