import ModelServer.Worker.Completion

/-!
# What a worker counts

`WORKER_REQUESTS_TOTAL` is incremented where `Predict` handles the outcome of `enqueue`,
and not for the requests that are turned away before, nor for cancelled ones.  The counter
is compared with how the handlers have ended: `Handler.label` is the label that belongs to
the end of a handler.
-/

namespace ModelServer

open Asyncio Transition

/-- The label under which the end of a handler is counted.  A deadline that is over before
`enqueue` is called is not counted. -/
def Handler.label (handler : Handler) : Option String :=
  match handler.point with
  | .finished (.returned _) => some "success"
  | .finished (.aborted .resourceExhausted _) => some "queue_full"
  | .finished (.aborted .deadlineExceeded _) => handler.future.map fun _ => "deadline_exceeded"
  | .finished (.aborted .internal _) => some "error"
  | _ => none

namespace Servicer

variable {config : WorkerConfig}

/-- Whether a handler is counted under this label. -/
def counted (label : String) (handler : Handler) : ℕ :=
  if some label = handler.label then 1 else 0

/-- The handlers that are counted under this label. -/
def finishedWith (s : Servicer) (label : String) : ℕ := (s.handlers.map (counted label)).sum

theorem label_of_check {state : WorkerState} {handler : Handler} {timeRemaining : Option Time}
    {code : StatusCode} {details : String} (hfuture : handler.future = none)
    (hcheck : checkRequest config state handler.request timeRemaining = .error (code, details)) :
    (handler.goto (.finished (.aborted code details))).label = none := by
  have hcode : code = .failedPrecondition ∨ code = .invalidArgument ∨ code = .deadlineExceeded := by
    unfold checkRequest at hcheck
    grind
  rcases hcode with rfl | rfl | rfl <;> simp [Handler.label, hfuture]

theorem label_of_abort {handler : Handler} {error : AppError}
    (h : error.cls = .workerQueueFullError ∨ handler.future ≠ none) :
    (handler.goto (.finished (abortOf error).2)).label = (abortOf error).1 := by
  rcases h with hfull | hfuture
  · simp [abortOf, hfull, Handler.label]
  · obtain ⟨future, hsome⟩ := Option.ne_none_iff_exists'.mp hfuture
    unfold abortOf
    split <;> simp [Handler.label, hsome]

theorem label_of_answer {handler : Handler} {future : ℕ} (hfuture : handler.future = some future)
    {result : Future BatcherResult AppError} {label : Option String} {outcome : HandlerOutcome}
    (hanswer : answerOf config handler.request result = some (label, outcome)) :
    (handler.goto (.finished outcome)).label = label := by
  cases result with
  | pending => cases hanswer
  | result value | cancelled =>
      cases hanswer
      rfl
  | exception error =>
      have habort : abortOf error = (label, outcome) := Option.some.inj hanswer
      have hsome : handler.future ≠ none := by simp [hfuture]
      have hlabel : (handler.goto (.finished (abortOf error).2)).label = (abortOf error).1 :=
        label_of_abort (.inr hsome)
      rwa [habort] at hlabel

/-- `enqueue` refuses with a full queue only. -/
theorem cls_of_refused {batcher next : Batcher} {requestId : String} {inputs : List String}
    {localDeadline : Time} {error : AppError}
    (h : batcher.enqueue requestId inputs localDeadline = (.error error, next)) :
    error.cls = .workerQueueFullError := by
  simp only [Batcher.enqueue] at h
  split at h
  · obtain ⟨rfl, _⟩ : _ = error ∧ _ := by simpa using h
    rfl
  · split at h
    · obtain ⟨rfl, _⟩ : _ = error ∧ _ := by simpa using h
      rfl
    · simp at h

/-! ## The counters -/

/-- A handler has changed that was not counted before. -/
theorem counts_of_set {s next : Servicer} {id : ℕ} {handler moved : Handler} {label : String}
    (h : s.requestsTotal label = s.finishedWith label)
    (hhandler : s.handlers[id]? = some handler) (hnext : next.handlers = s.handlers.set id moved)
    (hbefore : handler.label = none)
    (hcount : next.requestsTotal label = s.requestsTotal label + counted label moved) :
    next.requestsTotal label = next.finishedWith label := by
  have hset := sum_map_set (counted label) hhandler moved
  have hnone : counted label handler = 0 := by simp [counted, hbefore]
  rw [hcount, h, finishedWith, finishedWith, hnext]
  omega

theorem counts_of_step {s next : Servicer} {event : Event} (hstep : Step config s event next)
    (hmanned : Manned s) (hplaced : ∀ handler ∈ s.handlers, Placed s.batcher handler)
    (label : String) (h : s.requestsTotal label = s.finishedWith label) :
    next.requestsTotal label = next.finishedWith label := by
  cases hstep with
  | tick _ | batch _ _ _ | ready _ _ | drain _ _ | close _ _ _ => exact h
  | receive _ => simpa [finishedWith, counted, Handler.label] using h
  | aborts _ hhandler hpoint hcheck =>
      have hfresh := (hplaced _ (List.mem_of_getElem? hhandler)).fresh hpoint
      refine counts_of_set h hhandler rfl (by simp [Handler.label, hpoint]) ?_
      simp [counted, label_of_check hfresh hcheck]
  | admits _ hhandler hpoint _ | cancelReceived _ hhandler hpoint
  | cancelAwait _ hhandler hpoint _ =>
      refine counts_of_set h hhandler rfl (by simp [Handler.label, hpoint]) ?_
      simp [counted, Handler.label]
  | accepted hrunning hhandler _ =>
      have hpoint := point_of_running hmanned hrunning hhandler
      refine counts_of_set h hhandler rfl (by simp [Handler.label, hpoint]) ?_
      simp [counted, Handler.label]
  | refused hrunning hhandler henqueue =>
      have hpoint := point_of_running hmanned hrunning hhandler
      refine counts_of_set h hhandler rfl (by simp [Handler.label, hpoint]) ?_
      simp only [counted, label_of_abort (.inl (cls_of_refused henqueue))]
      rfl
  | answers _ hhandler hpoint hfuture hanswer =>
      refine counts_of_set h hhandler rfl (by simp [Handler.label, hpoint]) ?_
      simp only [counted, label_of_answer hfuture hanswer]
      rfl

/-- **The counters of a worker.**  In every reachable state `WORKER_REQUESTS_TOTAL` is, for each
label, the number of handlers that have ended in the way the label names. -/
theorem requestsTotal_exact {s : Servicer} (hreach : (machine config).Reachable s)
    (label : String) : s.requestsTotal label = s.finishedWith label := by
  apply hreach.invariant
  · rintro s ⟨now, rfl⟩
    rfl
  · intro s event next hbefore h hevent
    exact counts_of_step (step_cases hevent) (manned_of_reachable hbefore)
      (attended_of_reachable hbefore).handlers label h

/-- The model raises for the first request, and the second one was turned away. -/
def raisingRun : List Event :=
  twoHandlers ++ List.replicate 4 .run ++ [.wake .timeout] ++ List.replicate 3 .run
    ++ [.wake .modelRaises] ++ List.replicate 3 .run ++ [.resume 0]

theorem requestsTotal_exact_raising :
    let s := sample {} raisingRun
    s.handlers.length = 2 ∧ s.finishedWith "error" = 1 ∧
      s.requestsTotal "error" = s.finishedWith "error" :=
  ⟨by decide +kernel, by decide +kernel, requestsTotal_exact (reachable_sample _ _) "error"⟩

end Servicer
end ModelServer
