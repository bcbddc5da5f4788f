import Mathlib.Tactic.Linarith
import Mathlib.Tactic.Ring
import ModelServer.Library.Restriction
import ModelServer.Worker.Limits
import ModelServer.Worker.Progress

/-!
# How long a request stays in a batcher

The loop task works in rounds: it waits for the timer of the batch, and then for the model.
If both keep their time (`OnTime`), a round takes at most `roundTime`, and `LoopPoint.left`
is what is left of the current one.

Each request that has not been settled is due at a time that no step puts off (`DueBy`):
those of the current batch at the end of the round, the one that is held or being checked a
round later, and those in the queue one more round for each request before them.  At worst
every request ahead takes a round of its own.
-/

namespace ModelServer

open Asyncio Transition

/-- What a round takes at most, if the model takes at most `modelTime`. -/
def BatcherConfig.roundTime (config : BatcherConfig) (modelTime : Time) : Time :=
  max 0 ((config.maxBatchDelayMs : ℚ) / 1000) + modelTime

/-- What is left of the round of the loop task. -/
def LoopPoint.left (config : BatcherConfig) (modelTime now : Time) : LoopPoint → Time
  | checkFirst _ | openBatch _ => config.roundTime modelTime
  | collect _ _ deadlineTimer | awaitNext _ _ deadlineTimer | checkNext _ _ deadlineTimer _ =>
      max 0 (deadlineTimer - now) + modelTime
  | processBatch _ => modelTime
  | assemble work _ | awaitModel work => work.startProcessTime + modelTime - now
  | created | loopHead | awaitFirst | failBatch _ | deliver .. | finished _ => 0

/-- A batch is being collected or executed. -/
def LoopPoint.batching : LoopPoint → Bool
  | created | loopHead | awaitFirst | checkFirst _ | openBatch _ | finished _ => false
  | _ => true

theorem LoopPoint.batching_of_activeBatch {point : LoopPoint} (h : point.activeBatch ≠ []) :
    point.batching = true := by
  cases point with
  | created | loopHead | awaitFirst | checkFirst _ | openBatch _ | finished _ => exact absurd rfl h
  | _ => rfl

namespace Batcher

variable {config : BatcherConfig} {modelTime : Time}

/-- Time passes only while the loop task is suspended and has nothing to wake it up, not
past the timer it waits for, and the model takes at most `modelTime`. -/
def OnTime (modelTime : Time) (s : Batcher) : Event → Prop
  | .tick elapsed =>
      match s.loopTask with
      | none | some (.finished _) => True
      | some .awaitFirst => s.queue.items = []
      | some (.awaitNext _ _ deadlineTimer) =>
          s.queue.items = [] ∧ s.now + elapsed ≤ deadlineTimer
      | some (.awaitModel work) => s.now + elapsed ≤ work.startProcessTime + modelTime
      | _ => False
  | _ => True

instance (modelTime : Time) (s : Batcher) (event : Event) :
    Decidable (OnTime modelTime s event) := by
  unfold OnTime
  split
  · split <;> infer_instance
  · infer_instance

/-! ## The clock and the loop task -/

/-- The timer of the batch and the start of the model call, against the clock. -/
def WellTimed (config : BatcherConfig) (modelTime now : Time) : LoopPoint → Prop
  | .collect _ _ deadlineTimer | .awaitNext _ _ deadlineTimer | .checkNext _ _ deadlineTimer _ =>
      deadlineTimer ≤ now + max 0 ((config.maxBatchDelayMs : ℚ) / 1000)
  | .assemble work _ | .awaitModel work =>
      work.startProcessTime ≤ now ∧ now ≤ work.startProcessTime + modelTime
  | _ => True

theorem wellTimed_of_step {s next : Batcher} {event : Event} (hstep : Step config s event next)
    (hmodel : 0 ≤ modelTime) (hontime : OnTime modelTime s event)
    (h : WellTimed config modelTime s.now s.point) :
    WellTimed config modelTime next.now next.point := by
  cases hstep
  case tick elapsed helapsed =>
    -- the clock stands still for every point that `WellTimed` is about but two
    rw [point] at h ⊢
    cases htask : s.loopTask with
    | none => trivial
    | some point =>
        simp only [OnTime, htask] at hontime
        simp only [htask, Option.getD_some] at h ⊢
        cases point with
        | awaitNext batch totalItems deadlineTimer => exact h.trans (by simpa using helapsed)
        | awaitModel work => exact ⟨h.1.trans (by simpa using helapsed), hontime⟩
        | created | awaitFirst | finished _ => trivial
        | _ => exact hontime.elim
  case openBatch => exact add_le_add_right (le_max_right _ _) _
  case beginProcess => exact ⟨le_rfl, by simpa using hmodel⟩
  case refuseStopping | refuseFull | acceptLive | cancelFuture | closeLive | closeIdle
      | closeReturn =>
    exact h
  case waitNext hpoint _ _ _ | itemNext hpoint _ _ | takeNext hpoint _ _ _ | skipNext hpoint _
      | expireNext hpoint _ _ | joinNext hpoint _ _ _ | skipMember hpoint _
      | expireMember hpoint _ _ | admitMember hpoint _ _ | submit hpoint _ _ =>
    rw [point_of_loopTask hpoint] at h
    exact h
  all_goals trivial

theorem wellTimed_of_reachable {s : Batcher} (hmodel : 0 ≤ modelTime)
    (hreach : (machine config).ReachableBy (OnTime modelTime) s) :
    WellTimed config modelTime s.now s.point := by
  apply hreach.invariant
  · rintro s ⟨now, rfl⟩
    trivial
  · intro s event next _ h hontime hevent
    exact wellTimed_of_step (step_cases hevent) hmodel hontime h

theorem left_nonneg {now : Time} {point : LoopPoint} (hmodel : 0 ≤ modelTime)
    (h : WellTimed config modelTime now point) : 0 ≤ point.left config modelTime now := by
  have hround : 0 ≤ config.roundTime modelTime := add_nonneg (le_max_left _ _) hmodel
  cases point with
  | checkFirst _ | openBatch _ => exact hround
  | collect _ _ _ | awaitNext _ _ _ | checkNext _ _ _ _ => exact add_nonneg (le_max_left _ _) hmodel
  | processBatch _ => exact hmodel
  | assemble work _ | awaitModel work => exact sub_nonneg.mpr h.2
  | _ => exact le_rfl

theorem left_le_roundTime {now : Time} {point : LoopPoint} (hmodel : 0 ≤ modelTime)
    (h : WellTimed config modelTime now point) :
    point.left config modelTime now ≤ config.roundTime modelTime := by
  have hround : modelTime ≤ config.roundTime modelTime :=
    le_add_of_nonneg_left (le_max_left _ _)
  cases point with
  | checkFirst _ | openBatch _ => exact le_rfl
  | collect _ _ timer | awaitNext _ _ timer | checkNext _ _ timer _ =>
      have htimer : timer ≤ now + max 0 ((config.maxBatchDelayMs : ℚ) / 1000) := h
      refine add_le_add_left (max_le (le_max_left _ _) ?_) _
      linarith
  | processBatch _ => exact hround
  | assemble work _ | awaitModel work =>
      have hstart : work.startProcessTime ≤ now := h.1
      refine le_trans ?_ hround
      show work.startProcessTime + modelTime - now ≤ modelTime
      linarith
  | _ => exact hmodel.trans hround

/-! ## When a request is due -/

/-- When the current round ends at the latest. -/
def roundEnd (config : BatcherConfig) (modelTime : Time) (s : Batcher) : Time :=
  s.now + s.point.left config modelTime s.now

/-- When the round with the request that is held or being checked ends at the latest. -/
def nextRoundEnd (config : BatcherConfig) (modelTime : Time) (s : Batcher) : Time :=
  s.roundEnd config modelTime +
    config.roundTime modelTime * (s.nextEnvelope.toList.length + mayBeHeld s.point : ℕ)

/-- The request has been settled, or it will be by `limit`. -/
def DueBy (config : BatcherConfig) (modelTime limit : Time) (envelope : RequestEnvelope)
    (s : Batcher) : Prop :=
  s.done envelope = true ∨
    (envelope ∈ s.point.activeBatch ∧ s.roundEnd config modelTime ≤ limit) ∨
    (envelope ∈ s.nextEnvelope.toList ++ s.point.arriving ∧
      s.nextRoundEnd config modelTime ≤ limit) ∨
    ∃ before after, s.queue.items = before ++ envelope :: after ∧
      s.nextRoundEnd config modelTime +
        config.roundTime modelTime * (before.length + 1 : ℕ) ≤ limit

/-- The end of the round of a batch is not put off. -/
theorem roundEnd_of_step {s next : Batcher} {event : Event} (hstep : Step config s event next)
    (hmodel : 0 ≤ modelTime) (htimed : WellTimed config modelTime s.now s.point)
    (hevent : ∀ elapsed, event ≠ .tick elapsed) (hbatch : s.point.batching = true) :
    next.roundEnd config modelTime ≤ s.roundEnd config modelTime := by
  have hleft := left_nonneg hmodel htimed
  cases hstep
  case tick => exact absurd rfl (hevent _)
  case refuseStopping | refuseFull | acceptLive | cancelFuture | closeLive | closeIdle
      | closeReturn =>
    exact le_rfl
  case acceptIdle hlive =>
    rcases loopLive_eq_false_iff.mp hlive with hnone | ⟨how, hend⟩
    · simp [point, hnone, LoopPoint.batching] at hbatch
    · simp [point, hend, LoopPoint.batching] at hbatch
  case itemNext hpoint _ _ | waitNext hpoint _ _ _ | takeNext hpoint _ _ _ | skipNext hpoint _
      | expireNext hpoint _ _ | joinNext hpoint _ _ _ | skipMember hpoint _
      | expireMember hpoint _ _ | admitMember hpoint _ _ | submit hpoint _ _
      | skipFailed hpoint _ | failMember hpoint _ | failedAll hpoint
      | skipDelivery hpoint _ | lateDelivery hpoint _ _ | deliverResult hpoint _ _ _
      | deliveredAll hpoint =>
    rw [roundEnd, roundEnd, point_of_loopTask hpoint]
    exact le_rfl
  case timeoutNext hpoint _ | cancelNext hpoint _ | batchFull hpoint _ | timerOver hpoint _ _
      | holdNext hpoint _ _ _ =>
    rw [roundEnd, roundEnd, point_of_loopTask hpoint]
    exact add_le_add_right (le_add_of_nonneg_left (le_max_left _ _)) _
  case beginProcess hpoint =>
    rw [roundEnd, roundEnd, point_of_loopTask hpoint]
    simp [LoopPoint.left]
  case modelReturns hpoint _ | modelRaises hpoint _ | cancelModel hpoint _ | nothingValid hpoint _
      | executorDown hpoint _ _ =>
    rw [point_of_loopTask hpoint] at hleft
    rw [roundEnd, roundEnd, point_of_loopTask hpoint]
    exact add_le_add_right hleft _
  all_goals
    rw [point_of_loopTask ‹_›] at hbatch
    cases hbatch

theorem roundTime_nonneg (hmodel : 0 ≤ modelTime) : 0 ≤ config.roundTime modelTime :=
  add_nonneg (le_max_left _ _) hmodel

theorem nextRoundEnd_le {s next : Batcher} (hmodel : 0 ≤ modelTime)
    (hround : next.roundEnd config modelTime ≤ s.roundEnd config modelTime)
    (hheld : next.nextEnvelope.toList.length + mayBeHeld next.point ≤
      s.nextEnvelope.toList.length + mayBeHeld s.point) :
    next.nextRoundEnd config modelTime ≤ s.nextRoundEnd config modelTime :=
  add_le_add hround
    (mul_le_mul_of_nonneg_left (Nat.cast_le.mpr hheld) (roundTime_nonneg hmodel))

theorem roundEnd_le_nextRoundEnd (s : Batcher) (hmodel : 0 ≤ modelTime) :
    s.roundEnd config modelTime ≤ s.nextRoundEnd config modelTime :=
  le_add_of_nonneg_right (mul_nonneg (roundTime_nonneg hmodel) (Nat.cast_nonneg _))

/-- A request is taken from the queue at the cost of a round, or the queue keeps what it has
and the next round is not put off. -/
theorem nextRoundEnd_of_step {s next : Batcher} {event : Event} (hstep : Step config s event next)
    (hmodel : 0 ≤ modelTime) (htimed : WellTimed config modelTime s.now s.point)
    (hslot : s.point.needsSlot = true → s.nextEnvelope = none)
    (hevent : ∀ elapsed, event ≠ .tick elapsed) :
    (∃ more, next.queue.items = s.queue.items ++ more) ∧
        next.nextRoundEnd config modelTime ≤ s.nextRoundEnd config modelTime ∨
      ∃ first, s.queue.items = first :: next.queue.items ∧ next.point.arriving = [first] ∧
        s.nextEnvelope.toList ++ s.point.arriving = [] ∧ next.nextRoundEnd config modelTime ≤
          s.nextRoundEnd config modelTime + config.roundTime modelTime := by
  have hround : 0 ≤ config.roundTime modelTime := roundTime_nonneg hmodel
  have hbatch := roundEnd_of_step hstep hmodel htimed hevent
  cases hstep
  case tick => exact absurd rfl (hevent _)
  case refuseStopping | refuseFull | cancelFuture | closeLive | closeIdle | closeReturn =>
    exact .inl ⟨⟨[], by simp⟩, le_rfl⟩
  case acceptLive => exact .inl ⟨⟨_, rfl⟩, le_rfl⟩
  case acceptIdle hlive =>
    refine .inl ⟨⟨_, rfl⟩, ?_⟩
    rcases loopLive_eq_false_iff.mp hlive with hnone | ⟨how, hend⟩
    · simp [nextRoundEnd, roundEnd, point, hnone, LoopPoint.left, mayBeHeld]
    · simp [nextRoundEnd, roundEnd, point, hend, LoopPoint.left, mayBeHeld]
  -- a request leaves the queue
  case itemFirst first rest hpoint _ hitems =>
    rw [point_of_loopTask hpoint] at hslot
    have hheld := hslot rfl
    refine .inr ⟨first, hitems, rfl, ?_, ?_⟩
    · simp [point_of_loopTask hpoint, hheld, LoopPoint.arriving]
    · simp [nextRoundEnd, roundEnd, point_of_loopTask hpoint, LoopPoint.left, mayBeHeld]
      linarith
  case takeQueued first rest hpoint _ hheld hitems =>
    refine .inr ⟨first, hitems, rfl, ?_, ?_⟩
    · simp [point_of_loopTask hpoint, hheld, LoopPoint.arriving]
    · simp [nextRoundEnd, roundEnd, point_of_loopTask hpoint, LoopPoint.left, mayBeHeld]
      linarith
  case itemNext envelope rest hpoint _ hitems | takeNext envelope rest hpoint _ _ hitems =>
    rw [point_of_loopTask hpoint] at hslot
    have hheld := hslot rfl
    refine .inr
      ⟨envelope, hitems, rfl, by simp [point_of_loopTask hpoint, hheld, LoopPoint.arriving], ?_⟩
    simp [nextRoundEnd, roundEnd, point_of_loopTask hpoint, LoopPoint.left, mayBeHeld, hheld]
  -- a batch is opened
  case takeHeld first hpoint _ hheld =>
    refine .inl ⟨⟨[], by simp⟩, le_of_eq ?_⟩
    simp [nextRoundEnd, roundEnd, point_of_loopTask hpoint, LoopPoint.left, mayBeHeld, hheld]
  case started hpoint _ | cancelCreated hpoint _ | cancelFirst hpoint _ | stop hpoint _
      | waitFirst hpoint _ _ _ | keepFirst hpoint _ _ | skipFirst hpoint _
      | expireFirst hpoint _ _ =>
    refine .inl ⟨⟨[], by simp⟩, nextRoundEnd_le hmodel ?_ ?_⟩
    · simp [roundEnd, point_of_loopTask hpoint, LoopPoint.left, hround]
    · simp [point_of_loopTask hpoint, mayBeHeld]
  case openBatch hpoint =>
    refine .inl ⟨⟨[], by simp⟩, nextRoundEnd_le hmodel ?_ ?_⟩
    · simp [roundEnd, point_of_loopTask hpoint, LoopPoint.left, BatcherConfig.roundTime]
    · simp [point_of_loopTask hpoint, mayBeHeld]
  -- the batch goes on
  all_goals
    refine .inl ⟨⟨[], by simp⟩, nextRoundEnd_le hmodel ?_ ?_⟩
    · exact hbatch (by rw [point_of_loopTask ‹_›]; rfl)
    · simp [point_of_loopTask ‹_›, mayBeHeld]

/-- While there is something to do, time that passes is taken from the current round. -/
theorem roundEnd_of_tick {s : Batcher} {elapsed : Time} (hreach : (machine config).Reachable s)
    (hopen : s.stopping = false) (hontime : OnTime modelTime s (.tick elapsed))
    (helapsed : 0 ≤ elapsed) (hbusy : s.unsettled ≠ [] ∨ s.queue.items ≠ []) :
    roundEnd config modelTime { s with now := s.now + elapsed } = s.roundEnd config modelTime := by
  cases htask : s.loopTask with
  | none =>
      have hitems := ((ending_of_reachable hreach).before htask).1
      exact absurd hbusy (by simp [unsettled_of_none hreach htask, hitems])
  | some place =>
      simp only [OnTime, htask] at hontime
      simp only [roundEnd, point, htask, Option.getD_some]
      cases place with
      | finished how =>
          have hclosed := (closing_of_reachable hreach).finished how htask
          exact absurd (hopen.symm.trans hclosed) (by decide)
      | awaitFirst =>
          have hline := line_of_reachable hreach
          exact absurd hbusy (by simp [unsettled_of_awaitFirst hline htask, hontime])
      | awaitNext batch totalItems deadlineTimer =>
          have hlater : 0 ≤ deadlineTimer - (s.now + elapsed) := sub_nonneg.mpr hontime.2
          have hnow : 0 ≤ deadlineTimer - s.now := by linarith
          simp only [LoopPoint.left, max_eq_right hlater, max_eq_right hnow]
          ring
      | awaitModel work =>
          simp only [LoopPoint.left]
          ring
      | _ => exact hontime.elim

theorem dueBy_of_tick {s : Batcher} {elapsed limit : Time} {envelope : RequestEnvelope}
    (hreach : (machine config).Reachable s) (hopen : s.stopping = false)
    (hontime : OnTime modelTime s (.tick elapsed)) (helapsed : 0 ≤ elapsed)
    (h : DueBy config modelTime limit envelope s) :
    DueBy config modelTime limit envelope { s with now := s.now + elapsed } := by
  have hround := roundEnd_of_tick hreach hopen hontime helapsed
  have hnext : s.unsettled ≠ [] ∨ s.queue.items ≠ [] →
      nextRoundEnd config modelTime { s with now := s.now + elapsed } =
        s.nextRoundEnd config modelTime := fun hbusy => by
    rw [nextRoundEnd, nextRoundEnd, hround hbusy]
    rfl
  rcases h with hdone | ⟨hactive, hlimit⟩ | ⟨hhand, hlimit⟩ | ⟨before, after, hitems, hlimit⟩
  · exact .inl hdone
  · have hbusy : s.unsettled ≠ [] :=
      List.ne_nil_of_mem (List.mem_append_right _ (List.mem_append_right _ hactive))
    exact .inr (.inl ⟨hactive, (hround (.inl hbusy)).trans_le hlimit⟩)
  · have hbusy : s.unsettled ≠ [] := by
      rw [unsettled, ← List.append_assoc]
      exact List.ne_nil_of_mem (List.mem_append_left _ hhand)
    exact .inr (.inr (.inl ⟨hhand, (hnext (.inl hbusy)).trans_le hlimit⟩))
  · have hbusy : s.queue.items ≠ [] := by simp [hitems]
    refine .inr (.inr (.inr ⟨before, after, hitems, ?_⟩))
    rw [hnext (.inr hbusy)]
    exact hlimit

theorem dueBy_of_step {s next : Batcher} {event : Event} (hstep : Step config s event next)
    (hreach : (machine config).Reachable s) (hmodel : 0 ≤ modelTime)
    (htimed : WellTimed config modelTime s.now s.point) (hopen : next.stopping = false)
    (hevent : ∀ elapsed, event ≠ .tick elapsed) {limit : Time} {envelope : RequestEnvelope}
    (haccepted : envelope ∈ s.acceptedLine) (h : DueBy config modelTime limit envelope s) :
    DueBy config modelTime limit envelope next := by
  have hline := line_of_reachable hreach
  have hnext := nextRoundEnd_of_step hstep hmodel htimed hline.slot hevent
  have hround : 0 ≤ config.roundTime modelTime := roundTime_nonneg hmodel
  rcases h with hdone | ⟨hactive, hlimit⟩ | ⟨hhand, hlimit⟩ | ⟨before, after, hitems, hlimit⟩
  · exact .inl (done_of_step hstep (hline.numbered envelope haccepted) hdone)
  · rcases activeBatch_kept_of_step hstep hline.sliced hactive with hdone | hkept | ⟨hcancel, _⟩
    · exact .inl hdone
    · have hbatch := LoopPoint.batching_of_activeBatch (List.ne_nil_of_mem hactive)
      exact .inr (.inl ⟨hkept, (roundEnd_of_step hstep hmodel htimed hevent hbatch).trans hlimit⟩)
    · have hstopping := stopping_of_step hstep ((closing_of_reachable hreach).cancel hcancel)
      exact absurd (hopen.symm.trans hstopping) nofun
  · have hkept := arriving_kept_of_step hstep hline.slot hhand
    rcases hnext with ⟨_, hle⟩ | ⟨_, _, _, hempty, _⟩
    · rcases hkept with hdone | hunsettled
      · exact .inl hdone
      · rw [unsettled, ← List.append_assoc, List.mem_append] at hunsettled
        rcases hunsettled with hstill | hactive
        · exact .inr (.inr (.inl ⟨hstill, hle.trans hlimit⟩))
        · have hend := (roundEnd_le_nextRoundEnd next hmodel).trans (hle.trans hlimit)
          exact .inr (.inl ⟨hactive, hend⟩)
    · rw [hempty] at hhand
      exact absurd hhand List.not_mem_nil
  · rcases hnext with ⟨⟨more, hmore⟩, hle⟩ | ⟨first, hfirst, harriving, _, hle⟩
    · refine .inr (.inr (.inr ⟨before, after ++ more, by simp [hmore, hitems], ?_⟩))
      exact (add_le_add_left hle _).trans hlimit
    · rw [hfirst] at hitems
      cases before with
      | nil =>
          -- it is the request that leaves the queue
          obtain ⟨rfl, _⟩ : first = envelope ∧ _ := by simpa using hitems
          refine .inr (.inr (.inl ⟨by simp [harriving], hle.trans ?_⟩))
          simpa using hlimit
      | cons head before =>
          obtain ⟨_, hrest⟩ : first = head ∧ next.queue.items = before ++ envelope :: after := by
            simpa using hitems
          refine .inr (.inr (.inr ⟨before, after, hrest, ?_⟩))
          rw [List.length_cons] at hlimit
          push_cast at hlimit ⊢
          linarith

/-- A request that is not settled is not overdue. -/
theorem now_le_of_dueBy {s : Batcher} {limit : Time} {envelope : RequestEnvelope}
    (hmodel : 0 ≤ modelTime) (htimed : WellTimed config modelTime s.now s.point)
    (h : DueBy config modelTime limit envelope s) : s.done envelope = true ∨ s.now ≤ limit := by
  have hround : 0 ≤ config.roundTime modelTime := roundTime_nonneg hmodel
  have hend : s.now ≤ s.roundEnd config modelTime :=
    le_add_of_nonneg_right (left_nonneg hmodel htimed)
  have hnext := @roundEnd_le_nextRoundEnd config modelTime s hmodel
  rcases h with hdone | ⟨_, hlimit⟩ | ⟨_, hlimit⟩ | ⟨before, after, _, hlimit⟩
  · exact .inl hdone
  · exact .inr (hend.trans hlimit)
  · exact .inr ((hend.trans hnext).trans hlimit)
  · have hwait : 0 ≤ config.roundTime modelTime * (before.length + 1 : ℕ) :=
      mul_nonneg hround (Nat.cast_nonneg _)
    exact .inr (by linarith)

theorem idle_of_enqueue {first accepted : Batcher} {requestId : String} {inputs : List String}
    {localDeadline : Time}
    (hstep : Step config first (.enqueue requestId inputs localDeadline) accepted) :
    accepted.idle = true := by
  cases hstep
  case acceptIdle => rfl
  all_goals assumption

/-- What `enqueue` leaves when it accepts. -/
theorem accepted_of_enqueue {first accepted : Batcher} {requestId : String} {inputs : List String}
    {localDeadline : Time} {future : ℕ}
    (h : first.enqueue requestId inputs localDeadline = (.ok future, accepted)) :
    future = first.nextFuture ∧ accepted.now = first.now ∧
      accepted.nextEnvelope = first.nextEnvelope ∧
      accepted.queue.items =
        first.queue.items ++ [first.newEnvelope requestId inputs localDeadline] ∧
      accepted.acceptedLine =
        first.acceptedLine ++ [first.newEnvelope requestId inputs localDeadline] := by
  simp only [enqueue, Queue.putNowait] at h
  split at h
  · simp at h
  · split at h
    · simp at h
    · rename_i queue hput
      simp only [Prod.mk.injEq, Except.ok.injEq] at h
      obtain ⟨rfl, rfl⟩ := h
      simp only [Option.ite_none_left_eq_some, Option.some.injEq] at hput
      obtain ⟨_, rfl⟩ := hput
      unfold start
      split <;> simp [acceptedLine, Observation.acceptedEnvelope, newEnvelope]

theorem dueBy_of_accepted {first accepted : Batcher} {requestId : String} {inputs : List String}
    {localDeadline : Time} {future : ℕ} (hmodel : 0 ≤ modelTime)
    (htimed : WellTimed config modelTime accepted.now accepted.point)
    (hidle : accepted.idle = true)
    (h : first.enqueue requestId inputs localDeadline = (.ok future, accepted)) :
    DueBy config modelTime
      (first.now + config.roundTime modelTime * (first.queueDepth + 2 : ℕ))
      (first.newEnvelope requestId inputs localDeadline) accepted := by
  obtain ⟨_, hnow, hheld, hitems, _⟩ := accepted_of_enqueue h
  refine .inr (.inr (.inr ⟨first.queue.items, [], hitems, ?_⟩))
  have hleft := left_le_roundTime hmodel htimed
  rw [nextRoundEnd, roundEnd, mayBeHeld_of_idle hidle, queueDepth_eq, hheld, ← hnow]
  push_cast
  linarith

/-- **No request waits for longer than those before it take.**  Let `enqueue` accept a request
while `queue_depth` requests are ahead of it.  If the clock of the loop is kept and the model
takes at most `modelTime`, then in every later state before `close` in which that many rounds
and two have passed, the request has been settled. -/
theorem settled_in_time {first accepted s : Batcher} {requestId : String} {inputs : List String}
    {localDeadline : Time} {future : ℕ} (hmodel : 0 ≤ modelTime)
    (hreach : (machine config).ReachableBy (OnTime modelTime) first) (hidle : first.idle = true)
    (haccepted : first.enqueue requestId inputs localDeadline = (.ok future, accepted))
    (hrun : ((machine config).startingAt accepted).ReachableBy (OnTime modelTime) s)
    (hopen : s.stopping = false)
    (hlate : first.now + config.roundTime modelTime * (first.queueDepth + 2 : ℕ) < s.now) :
    (s.futures future).done = true := by
  have hfuture := (accepted_of_enqueue haccepted).1
  have hlater : (machine config).ReachableBy (OnTime modelTime) s ∧
      first.newEnvelope requestId inputs localDeadline ∈ s.acceptedLine ∧
      (s.stopping = false → DueBy config modelTime
        (first.now + config.roundTime modelTime * (first.queueDepth + 2 : ℕ))
        (first.newEnvelope requestId inputs localDeadline) s) := by
    apply hrun.invariant
    · rintro accepted rfl
      have hevent :
          first.step config (.enqueue requestId inputs localDeadline) = some accepted := by
        simp [step, hidle, haccepted]
      have hontime : OnTime modelTime first (.enqueue requestId inputs localDeadline) := trivial
      have hnext := hreach.step hontime hevent
      refine ⟨hnext, ?_, fun _ => ?_⟩
      · rw [(accepted_of_enqueue haccepted).2.2.2.2]
        exact List.mem_append_right _ (List.mem_singleton_self _)
      · exact dueBy_of_accepted hmodel (wellTimed_of_reachable hmodel hnext)
          (idle_of_enqueue (step_cases hevent)) haccepted
    · rintro s event next _ ⟨hbefore, hmem, hdue⟩ hontime hevent
      have hstep := step_cases hevent
      refine ⟨hbefore.step hontime hevent, ?_, fun hopen => ?_⟩
      · rcases acceptedLine_of_step hstep with ⟨hsame, _⟩ | ⟨_, hnew, _⟩
        · rwa [hsame]
        · rw [hnew]
          exact List.mem_append_left _ hmem
      · have hbeforeOpen : s.stopping = false := by
          by_contra hstopping
          have hclosed := stopping_of_step hstep (Bool.of_not_eq_false hstopping)
          exact absurd (hopen.symm.trans hclosed) (by decide)
        have htimed := wellTimed_of_reachable hmodel hbefore
        by_cases htick : ∃ elapsed, event = .tick elapsed
        · obtain ⟨elapsed, rfl⟩ := htick
          cases hstep with
          | tick helapsed =>
              exact dueBy_of_tick hbefore.reachable hbeforeOpen hontime helapsed (hdue hbeforeOpen)
        · exact dueBy_of_step hstep hbefore.reachable hmodel htimed hopen
            (fun elapsed heq => htick ⟨elapsed, heq⟩) hmem (hdue hbeforeOpen)
  obtain ⟨hreachable, _, hdue⟩ := hlater
  rcases now_le_of_dueBy hmodel (wellTimed_of_reachable hmodel hreachable) (hdue hopen) with
    hdone | hnow
  · rw [hfuture]
    exact hdone
  · exact absurd hlate (not_lt.mpr hnow)

/-- The state a list of events leads to in a batcher whose model takes ten milliseconds. -/
def onTimeSample (first : Batcher) (events : List Event) : Batcher :=
  ((machine {}).restrict (OnTime (1 / 100))).after first events

/-- One request is in the batch that is being collected. -/
def untilCollecting : List Event :=
  [.enqueue "r0" ["a"] 1, .resume .started] ++ List.replicate 4 .run

/-- Another one joins it, and the model takes all its time. -/
def untilDelivered : List Event :=
  [.resume .item, .run, .run, .tick (5 / 1000), .resume .timeout] ++ List.replicate 4 .run
    ++ [.tick (1 / 100), .resume (.modelReturns ⟨[("positive", 1), ("positive", 1)], 0, 0, 0⟩)]
    ++ List.replicate 4 .run ++ [.tick 1]

theorem settled_in_time_delivered :
    let first := onTimeSample (initial {} 0) untilCollecting
    let accepted := (first.enqueue "r1" ["b"] 1).2
    ((onTimeSample accepted untilDelivered).futures 1).done = true := by
  intro first accepted
  have hreach : (machine {}).ReachableBy (OnTime (1 / 100)) first := by
    have hinitial : (machine {}).ReachableBy (OnTime (1 / 100)) (initial {} 0) := .initial ⟨0, rfl⟩
    exact hinitial.run_restrict (Machine.run_after (by decide +kernel))
  have haccepted : first.enqueue "r1" ["b"] 1 = (.ok 1, accepted) :=
    Prod.ext (by decide +kernel) rfl
  have hrun : ((machine {}).startingAt accepted).ReachableBy (OnTime (1 / 100))
      (onTimeSample accepted untilDelivered) :=
    Machine.reachableBy_of_restrict (Machine.run_after (by decide +kernel))
  exact settled_in_time (by decide +kernel) hreach (by decide +kernel) haccepted hrun
    (by decide +kernel) (by decide +kernel)

end Batcher
end ModelServer
