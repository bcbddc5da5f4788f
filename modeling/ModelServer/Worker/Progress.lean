import ModelServer.Library.Progress
import ModelServer.Worker.Packing

/-!
# Every request is settled

`LoopPoint.ahead` is the number of steps the loop task has before it at most, if nothing
more is accepted.  A queued request is worth twelve of them and a held one eleven, so that
taking it out pays for the steps that are spent on it.  With what `enqueue` and `close`
bring along this bounds the steps of every run (`stepsOfLoop`).

Where the loop task can do nothing there is none, it waits for a first request with an
empty queue, or it has ended because of `close`.  Before `close` every accepted request has
then been settled: `requests_settled`.
-/

namespace ModelServer

open Asyncio Transition

/-- The steps the loop task has before it at most. -/
def LoopPoint.ahead : LoopPoint → ℕ
  | created => 3
  | loopHead => 2
  | awaitFirst => 1
  | finished _ => 0
  | checkFirst _ => 12
  | openBatch _ => 11
  | collect batch _ _ => 2 * batch.length + 8
  | awaitNext batch _ _ => 2 * batch.length + 7
  | checkNext batch _ _ _ => 2 * batch.length + 18
  | processBatch batch => 2 * batch.length + 6
  | assemble work todo => work.validBatch.length + 2 * todo.length + 5
  | awaitModel work => work.validBatch.length + 4
  | failBatch todo => todo.length + 3
  | deliver _ _ _ todo => todo.length + 3

namespace Batcher

variable {config : BatcherConfig}

/-- The steps the loop task and the calls of `close` have before them at most. -/
def ahead (s : Batcher) : ℕ :=
  12 * s.queue.items.length + 11 * s.nextEnvelope.toList.length +
    (s.loopTask.elim 0 LoopPoint.ahead + s.closers)

/-- A step of the loop task, or the end of `close`. -/
def Event.ofLoop : Event → Bool
  | .resume _ | .run | .closeReturn => true
  | _ => false

/-- What a client adds to the work of the loop task. -/
def Event.brings : Event → ℕ
  | .enqueue .. => 15
  | .close => 1
  | _ => 0

theorem ahead_of_step {s next : Batcher} {event : Event} (hstep : Step config s event next)
    (h : Line s) : next.ahead + (if event.ofLoop then 1 else 0) ≤ s.ahead + event.brings := by
  cases hstep
  case acceptIdle hlive =>
    rcases loopLive_eq_false_iff.mp hlive with hnone | ⟨how, hend⟩
    · simp [ahead, LoopPoint.ahead, Event.ofLoop, Event.brings, hnone]
      omega
    · simp [ahead, LoopPoint.ahead, Event.ofLoop, Event.brings, hend]
      omega
  case holdNext hpoint _ _ _ =>
    have hslot := h.slot (by simp [point_of_loopTask hpoint, LoopPoint.needsSlot])
    simp [ahead, LoopPoint.ahead, Event.ofLoop, Event.brings, hpoint, hslot]
    omega
  all_goals
    simp [ahead, LoopPoint.ahead, Event.ofLoop, Event.brings, *]
    try omega

/-- What pays for the steps of the loop task. -/
def stepsOfLoop (config : BatcherConfig) : Machine.Potential (machine config) where
  work := Event.ofLoop
  level := ahead
  supply := Event.brings
  step _ _ _ hreach hstep := ahead_of_step (step_cases hstep) (line_of_reachable hreach)

/-- Only `close` closes a batcher. -/
theorem stopping_of_step_ne {s next : Batcher} {event : Event} (hstep : Step config s event next)
    (hevent : event ≠ .close) : next.stopping = s.stopping := by
  cases hstep
  case closeLive | closeIdle => exact absurd rfl hevent
  all_goals rfl

/-! ## Where the loop task can do nothing -/

/-- Before the loop task exists nothing is queued and nobody waits for it, and a closed
batcher is on its way to the end of its loop task and of all calls of `close`. -/
structure Ending (s : Batcher) : Prop where
  before : s.loopTask = none → s.queue.items = [] ∧ s.closers = 0
  requested : s.stopping = true → s.loopTask = some .awaitFirst → s.cancelRequested = true
  returns : s.stopping = true → 0 < s.closers ∨ s.closed = true

theorem ending_of_step {s next : Batcher} {event : Event} (hstep : Step config s event next)
    (h : Ending s) : Ending next := by
  obtain ⟨hbefore, hrequested, hreturns⟩ := h
  cases hstep
  case closeReturn hpoint _ =>
    refine ⟨fun hnone => ?_, hrequested, fun _ => .inr rfl⟩
    simp [hpoint] at hnone
  case closeLive hlive =>
    refine ⟨fun hnone => ?_, fun _ _ => rfl, fun _ => .inl (Nat.succ_pos _)⟩
    simp only at hnone
    simp [loopLive, hnone] at hlive
  case closeIdle hlive =>
    refine ⟨hbefore, fun _ hpoint => ?_, fun _ => .inr rfl⟩
    simp only at hpoint
    simp [loopLive, hpoint] at hlive
  case acceptLive hstopping _ hlive =>
    refine ⟨fun hnone => ?_, hrequested, hreturns⟩
    simp only [accept_loopTask] at hnone
    simp [loopLive, hnone] at hlive
  case waitFirst hstopping _ _ => exact ⟨by simp, by simp [hstopping], hreturns⟩
  case tick | refuseStopping | refuseFull | cancelFuture =>
    exact ⟨hbefore, hrequested, hreturns⟩
  all_goals exact ⟨by simp, by simp, hreturns⟩

theorem ending_of_reachable {s : Batcher} (hreach : (machine config).Reachable s) :
    Ending s := by
  apply hreach.invariant
  · rintro s ⟨now, rfl⟩
    exact ⟨fun _ => ⟨rfl, rfl⟩, nofun, nofun⟩
  · intro s event next _ h hevent
    exact ending_of_step (step_cases hevent) h

/-- Where the loop task is suspended in anything but its first `get`, it can be resumed. -/
theorem exists_resume (s : Batcher) {point : LoopPoint} (hsuspended : point.suspended = true)
    (hfirst : point ≠ .awaitFirst) (hend : ∀ how, point ≠ .finished how) :
    ∃ wakeup next, s.resume wakeup point = some next := by
  cases hcancel : s.cancelRequested with
  | true =>
      refine ⟨.cancelled, ?_⟩
      cases point <;> simp_all [resume, LoopPoint.suspended]
  | false =>
      cases point with
      | created => exact ⟨.started, _, by simp [resume, hcancel]; rfl⟩
      | awaitNext batch _ _ => exact ⟨.timeout, _, by simp [resume, hcancel]; rfl⟩
      | awaitModel work => exact ⟨.modelRaises, _, by simp [resume, hcancel]; rfl⟩
      | awaitFirst => exact absurd rfl hfirst
      | finished how => exact absurd rfl (hend how)
      | _ => simp [LoopPoint.suspended] at hsuspended

/-- The loop task is where it is left alone: there is none, it waits for a first request, or
it has ended. -/
theorem resting_of_quiescent {s : Batcher} (hreach : (machine config).Reachable s)
    (hquiet : (machine config).Quiescent Event.ofLoop s) :
    s.loopTask = none ∨
      (s.loopTask = some .awaitFirst ∧ s.queue.items = [] ∧ s.cancelRequested = false) ∨
      (∃ how, s.loopTask = some (.finished how)) ∧ s.closers = 0 := by
  have hstuck : ∀ event, event.ofLoop = true → s.step config event = none := hquiet
  cases htask : s.loopTask with
  | none => exact .inl rfl
  | some point =>
      right
      have hresume : ∀ wakeup, s.resume wakeup point = none := by
        intro wakeup
        simpa [step, htask] using hstuck (.resume wakeup) rfl
      have hsuspended : point.suspended = true := by
        simpa [step, htask] using hstuck .run rfl
      by_cases hfirst : point = .awaitFirst
      · left
        subst hfirst
        have hcancel : s.cancelRequested = false := by
          by_contra hrequested
          simpa [resume, Bool.of_not_eq_false hrequested] using hresume .cancelled
        refine ⟨rfl, ?_, hcancel⟩
        by_contra hitems
        obtain ⟨first, rest, hcons⟩ := List.exists_cons_of_ne_nil hitems
        simpa [resume, hcancel, hcons] using hresume .item
      · right
        by_cases hend : ∃ how, point = .finished how
        · obtain ⟨how, rfl⟩ := hend
          refine ⟨⟨how, rfl⟩, ?_⟩
          have hsound := (closing_of_reachable hreach).sound
          have hreturn := hstuck .closeReturn rfl
          cases how with
          | invalidState => exact absurd htask hsound
          | returned | cancelled => simpa [step, htask] using hreturn
        · obtain ⟨wakeup, next, hsome⟩ :=
            exists_resume s hsuspended hfirst fun how heq => hend ⟨how, heq⟩
          simp [hresume wakeup] at hsome

/-- What is left when the loop task can do nothing. -/
structure AtRest (s : Batcher) : Prop where
  /-- Before `close` every accepted request has been settled. -/
  settled : s.stopping = false → ∀ envelope ∈ s.acceptedLine, s.done envelope = true
  /-- After `close` the loop task has ended, and all calls of `close` have returned. -/
  closed : s.stopping = true → s.loopLive = false ∧ s.closers = 0 ∧ s.closed = true

theorem settled_of_rest {s : Batcher} (h : Line s) (hopen : s.stopping = false)
    (hqueue : s.queue.items = []) (hhand : s.unsettled = []) :
    ∀ envelope ∈ s.acceptedLine, s.done envelope = true := by
  intro envelope hmem
  rw [h.line, hqueue, List.append_nil] at hmem
  rcases h.settled hopen envelope hmem with hdone | hunsettled
  · exact hdone
  · rw [hhand] at hunsettled
    exact absurd hunsettled List.not_mem_nil

theorem unsettled_of_none {s : Batcher} (hreach : (machine config).Reachable s)
    (hnone : s.loopTask = none) : s.unsettled = [] := by
  have hslot := (onlyQueued_of_reachable hreach (.inl hnone)).1
  simp [unsettled, point, hnone, hslot, LoopPoint.arriving, LoopPoint.activeBatch,
    LoopPoint.gathered, LoopPoint.executing]

theorem unsettled_of_awaitFirst {s : Batcher} (h : Line s)
    (hawait : s.loopTask = some .awaitFirst) :
    s.unsettled = [] := by
  have hpoint := point_of_loopTask hawait
  have hslot := h.slot (by rw [hpoint]; rfl)
  simp [unsettled, hpoint, hslot, LoopPoint.arriving, LoopPoint.activeBatch,
    LoopPoint.gathered, LoopPoint.executing]

theorem atRest_of_quiescent {s : Batcher} (hreach : (machine config).Reachable s)
    (hquiet : (machine config).Quiescent Event.ofLoop s) : AtRest s := by
  have hline := line_of_reachable hreach
  have hending := ending_of_reachable hreach
  refine ⟨fun hopen => ?_, fun hstopping => ?_⟩
  · rcases resting_of_quiescent hreach hquiet with hnone | ⟨hawait, hitems, _⟩ | ⟨⟨how, hend⟩, _⟩
    · exact settled_of_rest hline hopen (hending.before hnone).1 (unsettled_of_none hreach hnone)
    · exact settled_of_rest hline hopen hitems (unsettled_of_awaitFirst hline hawait)
    · have hclosed := (closing_of_reachable hreach).finished how hend
      exact absurd (hopen.symm.trans hclosed) nofun
  · rcases resting_of_quiescent hreach hquiet with hnone | ⟨hawait, _, hcancel⟩ | ⟨hend, hclosers⟩
    · have hclosers := (hending.before hnone).2
      have hclosed := (hending.returns hstopping).resolve_left (by omega)
      exact ⟨loopLive_eq_false_iff.mpr (.inl hnone), hclosers, hclosed⟩
    · exact absurd ((hending.requested hstopping hawait).symm.trans hcancel) nofun
    · have hclosed := (hending.returns hstopping).resolve_left (by omega)
      exact ⟨loopLive_eq_false_iff.mpr (.inr hend), hclosers, hclosed⟩

theorem brings_of_ofLoop (event : Event) (h : event.ofLoop = true) :
    (stepsOfLoop config).supply event = 0 := by
  cases event with
  | enqueue | close => cases h
  | _ => rfl

/-- **Every request is settled.**  In every run the loop task takes at most fifteen steps for
each call of `enqueue` and one for each call of `close`, over those that its first state has
before it; where it can take none and `close` has not been called, every accepted request has
been settled, and after `close` the loop task has ended and all calls of `close` have
returned; and from every reachable state it can come to that by its own steps. -/
theorem requests_settled {first last : Batcher} {events : List Event}
    (hreach : (machine config).Reachable first) (hrun : (machine config).Run first events last) :
    last.ahead + events.countP Event.ofLoop ≤
        first.ahead + (events.map Event.brings).sum ∧
      ((machine config).Quiescent Event.ofLoop last → AtRest last) ∧
      ∃ more final, (machine config).Run last more final ∧
        (∀ event ∈ more, event.ofLoop = true) ∧ AtRest final := by
  have hlast := hreach.run hrun
  have hpaid := (stepsOfLoop config).run hreach hrun
  obtain ⟨more, final, hmore, hwork, hquiet⟩ :=
    (stepsOfLoop config).exists_quiescent brings_of_ofLoop hlast
  exact ⟨hpaid, atRest_of_quiescent hlast, more, final, hmore, hwork,
    atRest_of_quiescent (hlast.run hmore) hquiet⟩

/-- One request is executed and another one is held. -/
theorem requests_settled_held :
    let s := sample { maxBatchItems := 2 } heldRun
    s.ahead = 16 ∧
      s.ahead + heldRun.countP Event.ofLoop ≤ (initial { maxBatchItems := 2 } 0).ahead +
        (heldRun.map Event.brings).sum ∧
      ((machine { maxBatchItems := 2 }).Quiescent Event.ofLoop s → AtRest s) ∧
      ∃ more final, (machine { maxBatchItems := 2 }).Run s more final ∧
        (∀ event ∈ more, event.ofLoop = true) ∧ AtRest final :=
  ⟨by decide +kernel, requests_settled (.initial ⟨0, rfl⟩) (Machine.run_after (by decide +kernel))⟩

end Batcher
end ModelServer
