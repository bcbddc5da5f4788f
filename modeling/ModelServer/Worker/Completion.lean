import ModelServer.Library.Sums
import ModelServer.Worker.Answers
import ModelServer.Worker.Progress

/-!
# Every RPC of a worker is answered

A handler takes three steps, and the envelope it may bring to the batcher is paid for
before it is accepted (`HandlerPoint.ahead`).  Where neither a handler nor the loop task
can do anything, and the batcher has not been closed, its requests have been settled
(`Batcher.AtRest`), so that no handler is left waiting for one.
-/

namespace ModelServer

open Asyncio Transition

/-- The steps a handler has before it at most, with those its envelope brings. -/
def HandlerPoint.ahead : HandlerPoint → ℕ
  | received => 18
  | admitted => 17
  | awaitResult => 1
  | finished _ => 0

namespace Servicer

variable {config : WorkerConfig}

/-! ## The handlers -/

/-- The running handler is about to call `enqueue`, and one that waits has a future. -/
structure Manned (s : Servicer) : Prop where
  running : ∀ id, s.running = some id →
    ∃ handler, s.handlers[id]? = some handler ∧ handler.point = .admitted
  admitted : ∀ id handler, s.handlers[id]? = some handler → handler.point = .admitted →
    s.running = some id
  awaits : ∀ handler ∈ s.handlers, handler.point = .awaitResult → handler.future ≠ none

theorem Manned.setBatcher {s : Servicer} (h : Manned s) (batcher : Batcher) :
    Manned (s.setBatcher batcher) :=
  ⟨h.running, h.admitted, h.awaits⟩

theorem Manned.count {s : Servicer} (h : Manned s) (result : Option String) :
    Manned (s.count result) :=
  ⟨h.running, h.admitted, h.awaits⟩

/-- Between the steps of the handlers one handler changes, and it is not about to call
`enqueue`. -/
theorem Manned.store {s : Servicer} (h : Manned s) {id : ℕ} (hturn : s.running = none ∨
    s.running = some id) {handler : Handler} (hpoint : handler.point ≠ .admitted)
    (hawaits : handler.point = .awaitResult → handler.future ≠ none) :
    Manned (s.store id handler) := by
  refine ⟨nofun, ?_, ?_⟩
  · intro index other hother hadmitted
    rw [store_handlers, List.getElem?_set] at hother
    split at hother
    · split at hother
      · exact absurd (Option.some.inj hother ▸ hadmitted) hpoint
      · cases hother
    · have hrunning := h.admitted index other hother hadmitted
      rcases hturn with hnone | hsome
      · rw [hnone] at hrunning
        cases hrunning
      · exact absurd (Option.some.inj (hsome.symm.trans hrunning)) ‹id ≠ index›
  · intro other hmem
    rcases List.mem_or_eq_of_mem_set hmem with hold | rfl
    · exact h.awaits other hold
    · exact hawaits

theorem manned_of_step {s next : Servicer} {event : Event} (hstep : Step config s event next)
    (h : Manned s) : Manned next := by
  cases hstep with
  | tick _ | batch _ _ _ | ready _ _ | drain _ _ | close _ _ _ =>
      exact ⟨h.running, h.admitted, h.awaits⟩
  | receive hrest =>
      have hidle := (atRest_iff.mp hrest).2
      refine ⟨by simp [hidle], ?_, ?_⟩
      · intro id handler hhandler hadmitted
        rw [List.getElem?_append] at hhandler
        split at hhandler
        · exact h.admitted id handler hhandler hadmitted
        · have hnew := List.mem_singleton.mp (List.mem_of_getElem? hhandler)
          rw [hnew] at hadmitted
          cases hadmitted
      · intro handler hmem hpoint
        rcases List.mem_append.mp hmem with hold | hnew
        · exact h.awaits handler hold hpoint
        · rw [List.mem_singleton.mp hnew] at hpoint
          cases hpoint
  | aborts hrest _ _ _ | cancelReceived hrest _ _ =>
      exact h.store (.inl (atRest_iff.mp hrest).2) nofun nofun
  | @answers _ _ _ label _ hrest _ _ _ _ =>
      exact (h.count label).store (.inl (atRest_iff.mp hrest).2) nofun nofun
  | @cancelAwait _ future _ hrest _ _ _ =>
      exact (h.setBatcher (s.batcher.cancelFuture future)).store (.inl (atRest_iff.mp hrest).2)
        nofun nofun
  | @accepted _ future handler batcher hrunning _ _ =>
      exact (h.setBatcher batcher).store (.inr hrunning) nofun fun _ => Option.some_ne_none future
  | @refused _ _ error batcher hrunning _ _ =>
      exact ((h.setBatcher batcher).count (abortOf error).1).store (.inr hrunning) nofun nofun
  | @admits id handler _ _ hrest hhandler _ _ =>
      have hidle := (atRest_iff.mp hrest).2
      have hid := (List.getElem?_eq_some_iff.mp hhandler).1
      refine ⟨?_, ?_, ?_⟩
      · intro index hrunning
        obtain rfl := Option.some.inj hrunning
        exact ⟨_, List.getElem?_set_self hid, rfl⟩
      · intro index other hother hadmitted
        rw [runs_handlers, List.getElem?_set] at hother
        split at hother
        · rw [← ‹id = index›]
          rfl
        · exact absurd (hidle.symm.trans (h.admitted index other hother hadmitted)) nofun
      · intro other hmem hpoint
        rcases List.mem_or_eq_of_mem_set hmem with hold | rfl
        · exact h.awaits other hold hpoint
        · cases hpoint

theorem manned_of_reachable {s : Servicer} (hreach : (machine config).Reachable s) :
    Manned s := by
  apply hreach.invariant
  · rintro s ⟨now, rfl⟩
    exact ⟨nofun, nofun, nofun⟩
  · intro s event next _ h hevent
    exact manned_of_step (step_cases hevent) h

/-! ## The steps of a worker -/

/-- The steps the handlers and the batcher have before them at most. -/
def ahead (s : Servicer) : ℕ :=
  s.batcher.ahead + (s.handlers.map fun handler => handler.point.ahead).sum

/-- A step of a handler or of the batcher. -/
def Event.ofWorker : Event → Bool
  | .predict .. | .enqueue | .resume _ | .wake _ | .run | .closeReturn => true
  | _ => false

/-- What a client or a signal adds to the work. -/
def Event.brings : Event → ℕ
  | .receive _ => 18
  | .close => 1
  | _ => 0

theorem step_enqueue (config : BatcherConfig) {batcher : Batcher} (hidle : batcher.idle = true)
    (requestId : String) (inputs : List String) (localDeadline : Time) :
    Batcher.Step config batcher (.enqueue requestId inputs localDeadline)
      (batcher.enqueue requestId inputs localDeadline).2 :=
  Batcher.step_cases (by simp [Batcher.step, hidle])

theorem ahead_enqueue (config : BatcherConfig) {batcher : Batcher}
    (hline : Batcher.Line batcher) (hidle : batcher.idle = true) (requestId : String)
    (inputs : List String) (localDeadline : Time) :
    (batcher.enqueue requestId inputs localDeadline).2.ahead ≤ batcher.ahead + 15 :=
  Batcher.ahead_of_step (step_enqueue config hidle requestId inputs localDeadline) hline

/-- One handler has changed, and perhaps the batcher. -/
theorem ahead_of_set {s next : Servicer} {id : ℕ} {handler moved : Handler} {work : ℕ}
    (hhandler : s.handlers[id]? = some handler) (hnext : next.handlers = s.handlers.set id moved)
    (hpaid : next.batcher.ahead + moved.point.ahead + work ≤
      s.batcher.ahead + handler.point.ahead) : next.ahead + work ≤ s.ahead := by
  have hsum := sum_map_set (fun handler => handler.point.ahead) hhandler moved
  rw [ahead, ahead, hnext]
  omega

theorem point_of_running {s : Servicer} (h : Manned s) {id : ℕ} {handler : Handler}
    (hrunning : s.running = some id) (hhandler : s.handlers[id]? = some handler) :
    handler.point = .admitted := by
  obtain ⟨found, hfound, hpoint⟩ := h.running id hrunning
  obtain rfl := Option.some.inj (hhandler.symm.trans hfound)
  exact hpoint

theorem ahead_of_step {s next : Servicer} {event : Event} (hstep : Step config s event next)
    (hexclusive : Exclusive s) (hmanned : Manned s) (hattended : Attended config s) :
    next.ahead + (if event.ofWorker then 1 else 0) ≤ s.ahead + event.brings := by
  have hline := Batcher.line_of_reachable hattended.batcher
  cases hstep with
  | tick hbatcher | close _ _ hbatcher =>
      have hpaid := Batcher.ahead_of_step (Batcher.step_cases hbatcher) hline
      simp only [Batcher.Event.ofLoop, Batcher.Event.brings, Bool.false_eq_true, if_false] at hpaid
      simp only [ahead, Event.ofWorker, Event.brings, setBatcher_batcher, setBatcher_handlers,
        Bool.false_eq_true, if_false]
      omega
  | @batch event inner _ hinner _ hbatcher =>
      have hpaid := Batcher.ahead_of_step (Batcher.step_cases hbatcher) hline
      have hloop : event.ofWorker = true ∧ inner.ofLoop = true ∧ inner.brings = 0 := by
        cases event <;> cases hinner <;> exact ⟨rfl, rfl, rfl⟩
      obtain ⟨hworker, hloop, hbrings⟩ := hloop
      simp only [hloop, hbrings] at hpaid
      simp only [ahead, hworker, setBatcher_batcher, setBatcher_handlers]
      omega
  | ready _ _ | drain _ _ => exact le_rfl
  | receive _ =>
      have hnew : HandlerPoint.ahead .received = 18 := rfl
      simp only [ahead, Event.ofWorker, Event.brings, List.map_append, List.sum_append,
        List.map_singleton, List.sum_singleton, hnew, Bool.false_eq_true, if_false]
      omega
  | aborts _ hhandler hpoint _ | admits _ hhandler hpoint _ | cancelReceived _ hhandler hpoint
  | answers _ hhandler hpoint _ _ =>
      refine ahead_of_set hhandler rfl ?_
      simp [hpoint, HandlerPoint.ahead, Event.ofWorker]
  | @cancelAwait _ future _ _ hhandler hpoint _ =>
      refine ahead_of_set hhandler rfl ?_
      have hsame : (s.batcher.cancelFuture future).ahead = s.batcher.ahead := rfl
      simp [hpoint, HandlerPoint.ahead, Event.ofWorker, hsame]
  | @accepted _ _ handler batcher hrunning hhandler henqueue
  | @refused _ handler _ batcher hrunning hhandler henqueue =>
      refine ahead_of_set hhandler rfl ?_
      have hidle := hexclusive (by simp [hrunning])
      have hpaid : batcher.ahead ≤ s.batcher.ahead + 15 := by
        simpa only [henqueue] using ahead_enqueue config.toBatcherConfig hline hidle
          handler.request.requestId handler.request.inputs handler.localDeadline
      simp [point_of_running hmanned hrunning hhandler, HandlerPoint.ahead, Event.ofWorker]
      omega

/-- What pays for the steps of a worker. -/
def stepsOfWorker (config : WorkerConfig) : Machine.Potential (machine config) where
  work := Event.ofWorker
  level := ahead
  supply := Event.brings
  step _ _ _ hreach hstep := ahead_of_step (step_cases hstep) (exclusive_of_reachable hreach)
    (manned_of_reachable hreach) (attended_of_reachable hreach)

theorem brings_of_ofWorker (event : Event) (h : event.ofWorker = true) :
    (stepsOfWorker config).supply event = 0 := by
  cases event with
  | receive | close => cases h
  | _ => rfl

/-! ## Where the worker can do nothing -/

/-- The running handler can call `enqueue`. -/
theorem running_of_quiescent {s : Servicer} (hreach : (machine config).Reachable s)
    (hquiet : (machine config).Quiescent Event.ofWorker s) : s.running = none := by
  by_contra hrunning
  obtain ⟨id, hsome⟩ := Option.ne_none_iff_exists'.mp hrunning
  obtain ⟨handler, hhandler, _⟩ := (manned_of_reachable hreach).running id hsome
  have hstuck : s.step config .enqueue = none := hquiet .enqueue rfl
  simp only [step, Option.bind_eq_bind, hsome, hhandler, Option.bind_some] at hstuck
  split at hstuck <;> cases hstuck

/-- The batcher can do nothing either. -/
theorem batcher_of_quiescent {s : Servicer} (hrunning : s.running = none)
    (hquiet : (machine config).Quiescent Event.ofWorker s) :
    (Batcher.machine config.toBatcherConfig).Quiescent Batcher.Event.ofLoop s.batcher := by
  intro inner hinner
  have hstuck : ∀ event, event.ofWorker = true → s.step config event = none := hquiet
  have hbatch : s.batch config inner = none := by
    cases inner with
    | closeReturn => simpa [step, guard, hrunning] using hstuck .closeReturn rfl
    | resume wakeup => simpa [step, guard, hrunning] using hstuck (.wake wakeup) rfl
    | run => exact hstuck .run rfl
    | _ => cases hinner
  exact Option.map_eq_none_iff.mp hbatch

theorem atRest_of_quiescent {s : Servicer} (hrunning : s.running = none)
    (hquiet : (machine config).Quiescent Event.ofWorker s) : s.atRest := by
  refine atRest_iff.mpr ⟨?_, hrunning⟩
  have hbatcher := batcher_of_quiescent hrunning hquiet
  have hstuck : s.batcher.step config.toBatcherConfig .run = none := hbatcher .run rfl
  unfold Batcher.idle
  cases htask : s.batcher.loopTask with
  | none => rfl
  | some point => simpa [Batcher.step, htask] using hstuck

/-- No handler is left without an answer. -/
theorem finished_of_quiescent {s : Servicer} (hreach : (machine config).Reachable s)
    (hquiet : (machine config).Quiescent Event.ofWorker s) (hopen : s.batcher.stopping = false) :
    ∀ handler ∈ s.handlers, ∃ outcome, handler.point = .finished outcome := by
  intro handler hmem
  obtain ⟨id, hhandler⟩ := List.mem_iff_getElem?.mp hmem
  have hmanned := manned_of_reachable hreach
  have hattended := attended_of_reachable hreach
  have hrunning := running_of_quiescent hreach hquiet
  have hrest := atRest_of_quiescent hrunning hquiet
  have hstuck : ∀ event, event.ofWorker = true → s.step config event = none := hquiet
  cases hpoint : handler.point with
  | finished outcome => exact ⟨outcome, rfl⟩
  | admitted =>
      exact absurd (hrunning.symm.trans (hmanned.admitted id handler hhandler hpoint)) nofun
  | received =>
      have hnone := hstuck (.predict id none) rfl
      simp only [step, Option.bind_eq_bind, guard, hrest, hhandler, hpoint, if_true,
        Option.pure_def, Option.bind_some] at hnone
      split at hnone <;> cases hnone
  | awaitResult =>
      obtain ⟨future, hfuture⟩ := Option.ne_none_iff_exists'.mp (hmanned.awaits handler hmem hpoint)
      obtain ⟨envelope, haccepted, rfl, _⟩ :=
        (hattended.handlers handler hmem).envelope future hfuture
      have hdone : (s.batcher.futures envelope.future).done = true :=
        (Batcher.atRest_of_quiescent hattended.batcher
          (batcher_of_quiescent hrunning hquiet)).settled hopen envelope haccepted
      have hnone := hstuck (.resume id) rfl
      cases hresult : s.batcher.futures envelope.future with
      | pending => simp [hresult] at hdone
      | _ => simp [step, guard, hrest, hhandler, hpoint, hfuture, hresult, answerOf] at hnone

/-- The batcher of a worker is closed by `close` only. -/
theorem stopping_of_step {s next : Servicer} {event : Event} (hstep : Step config s event next)
    (hexclusive : Exclusive s) (hworker : event.ofWorker = true) :
    next.batcher.stopping = s.batcher.stopping := by
  cases hstep with
  | tick _ | close _ _ _ => cases hworker
  | batch hinner _ hbatcher =>
      refine Batcher.stopping_of_step_ne (Batcher.step_cases hbatcher) ?_
      rintro rfl
      cases event <;> cases hinner
  | @accepted _ _ handler batcher hrunning _ henqueue
  | @refused _ handler _ batcher hrunning _ henqueue =>
      have hidle := hexclusive (by simp [hrunning])
      have hevent := step_enqueue config.toBatcherConfig hidle handler.request.requestId
        handler.request.inputs handler.localDeadline
      rw [henqueue] at hevent
      exact Batcher.stopping_of_step_ne hevent nofun
  | _ => rfl

theorem stopping_of_run {first last : Servicer} {events : List Event}
    (hreach : (machine config).Reachable first) (hrun : (machine config).Run first events last)
    (hwork : ∀ event ∈ events, event.ofWorker = true) :
    last.batcher.stopping = first.batcher.stopping := by
  induction events generalizing first with
  | nil => rw [Machine.run_nil_iff.mp hrun]
  | cons event events ih =>
      obtain ⟨next, hevent, hrest⟩ := Machine.run_cons_iff.mp hrun
      have hone := stopping_of_step (step_cases hevent) (exclusive_of_reachable hreach)
        (hwork event List.mem_cons_self)
      have hall := ih (hreach.next hevent) hrest fun event hmem =>
        hwork event (List.mem_cons_of_mem _ hmem)
      exact hall.trans hone

/-- **Every RPC is answered.**  In every run the handlers and the loop task take at most
eighteen steps for each RPC received, and one for each call of `close`, over those that the
first state has before it; where they can take none and the batcher has not been closed, every
handler has ended; and from every reachable state they can come to that by their own steps. -/
theorem handlers_end {first last : Servicer} {events : List Event}
    (hreach : (machine config).Reachable first) (hrun : (machine config).Run first events last) :
    last.ahead + events.countP Event.ofWorker ≤ first.ahead + (events.map Event.brings).sum ∧
      ((machine config).Quiescent Event.ofWorker last → last.batcher.stopping = false →
        ∀ handler ∈ last.handlers, ∃ outcome, handler.point = .finished outcome) ∧
      ∃ more final, (machine config).Run last more final ∧
        (∀ event ∈ more, event.ofWorker = true) ∧
        (last.batcher.stopping = false →
          ∀ handler ∈ final.handlers, ∃ outcome, handler.point = .finished outcome) := by
  have hlast := hreach.run hrun
  have hpaid := (stepsOfWorker config).run hreach hrun
  obtain ⟨more, final, hmore, hwork, hquiet⟩ :=
    (stepsOfWorker config).exists_quiescent brings_of_ofWorker hlast
  refine ⟨hpaid, finished_of_quiescent hlast, more, final, hmore, hwork, fun hopen => ?_⟩
  exact finished_of_quiescent (hlast.run hmore) hquiet
    ((stopping_of_run hlast hmore hwork).trans hopen)

/-- The state a list of events leads to from time 0. -/
def sample (config : WorkerConfig) (events : List Event) : Servicer :=
  (machine config).after (initial config 0) events

theorem reachable_sample (config : WorkerConfig) (events : List Event) :
    (machine config).Reachable (sample config events) := by
  have hinitial : (machine config).Initial (initial config 0) := ⟨0, rfl⟩
  exact (Machine.Reachable.initial hinitial).after events

def sampleRequest (inputs : List String) : PredictRequest where
  requestId := "r0"
  modelVersion := "tinybert-sst2-v1"
  inputs

/-- One handler waits for its result, and another one has too many inputs. -/
def twoHandlers : List Event :=
  [.ready, .receive (sampleRequest ["a"]), .receive (sampleRequest (List.replicate 9 "b")),
    .predict 0 (some 1), .enqueue, .predict 1 (some 1), .wake .started]

theorem handlers_end_two :
    let s := sample {} twoHandlers
    s.ahead = 15 ∧
      s.ahead + twoHandlers.countP Event.ofWorker ≤
        (initial {} 0).ahead + (twoHandlers.map Event.brings).sum ∧
      ((machine {}).Quiescent Event.ofWorker s → s.batcher.stopping = false →
        ∀ handler ∈ s.handlers, ∃ outcome, handler.point = .finished outcome) ∧
      ∃ more final, (machine {}).Run s more final ∧ (∀ event ∈ more, event.ofWorker = true) ∧
        (s.batcher.stopping = false →
          ∀ handler ∈ final.handlers, ∃ outcome, handler.point = .finished outcome) :=
  ⟨by decide +kernel, handlers_end (.initial ⟨0, rfl⟩) (Machine.run_after (by decide +kernel))⟩

end Servicer
end ModelServer
