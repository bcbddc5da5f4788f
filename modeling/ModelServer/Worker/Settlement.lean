import ModelServer.Worker.Fifo

/-!
# Every future is settled once, and for a reason

`Justified` says, for each entry of the log, what must have happened before it:
a result only after a model call with that envelope and not past its deadline, a
`DeadlineExceededError` only past the deadline, an `InternalServerError` only
after the model call with that envelope raised, a model call only of envelopes
that were admitted in the same pass of `_process_batch`, and nothing is settled
twice.

The log alone does not carry the proof: `Evidence` ties the local variables of
the loop task to it, and `Unsettled` ties the futures to it.
-/

namespace ModelServer

open Asyncio Transition

namespace Observation

/-- The future an entry of the log settles. -/
def settledFuture : Observation → Option ℕ
  | resultSet envelope _ _ | exceptionSet envelope _ _ => some envelope.future
  | _ => none

/-- What `_process_batch` does between entering and calling the model. -/
def assembling : Observation → Bool
  | admitted .. | exceptionSet .. => true
  | _ => false

end Observation

namespace Batcher

open LoopPoint

variable {config : BatcherConfig}

/-- The futures that a log settles. -/
def settledFutures (log : List Observation) : List ℕ :=
  log.filterMap Observation.settledFuture

/-- At the end of `log` is a pass of `_process_batch` in which `envelope` was found
pending and in time. -/
def AdmittedInPass (log : List Observation) (envelope : RequestEnvelope) : Prop :=
  ∃ before reading pass, log = before ++ .admitted envelope reading true :: pass ∧
    reading ≤ envelope.localDeadline ∧ pass.all Observation.assembling = true

/-- `members` were handed to the model. -/
def Called (log : List Observation) (members : List RequestEnvelope) : Prop :=
  .modelCall members (members.flatMap RequestEnvelope.inputs) ∈ log

/-- What must come before an entry of the log. -/
def Justified (before : List Observation) : Observation → Prop
  | .admitted envelope reading pending => pending = true ∧ reading ≤ envelope.localDeadline
  | .modelCall members inputs =>
      inputs = members.flatMap RequestEnvelope.inputs ∧
        ∀ envelope ∈ members, AdmittedInPass before envelope
  | .modelReturned members | .modelRaised members => Called before members
  | .resultSet envelope _ reading =>
      reading ≤ envelope.localDeadline ∧
        (∃ members, Called before members ∧ envelope ∈ members) ∧
        envelope.future ∉ settledFutures before
  | .exceptionSet envelope error reading =>
      (error.cls = .deadlineExceededError → envelope.localDeadline < reading) ∧
        (error.cls = .internalServerError →
          ∃ members, .modelRaised members ∈ before ∧ Called before members ∧
            envelope ∈ members) ∧
        envelope.future ∉ settledFutures before
  | _ => True

/-! ## What the loop task knows -/

/-- The log bears out the local variables of the loop task. -/
def Evidence (log : List Observation) : LoopPoint → Prop
  | .assemble work _ =>
      work.flattenedInputs = work.validBatch.flatMap RequestEnvelope.inputs ∧
        ∀ envelope ∈ work.validBatch, AdmittedInPass log envelope
  | .awaitModel work => Called log work.validBatch
  | .failBatch todo =>
      ∃ members, .modelRaised members ∈ log ∧ Called log members ∧ todo ⊆ members
  | .deliver _ _ _ todo => ∃ members, Called log members ∧ todo.map Prod.fst ⊆ members
  | _ => True

theorem AdmittedInPass.append {log : List Observation} {envelope : RequestEnvelope}
    {observation : Observation} (h : AdmittedInPass log envelope)
    (hpass : observation.assembling = true) :
    AdmittedInPass (log ++ [observation]) envelope := by
  obtain ⟨before, reading, pass, rfl, htime, hall⟩ := h
  refine ⟨before, reading, pass ++ [observation], by simp, htime, ?_⟩
  simp [List.all_append, hall, hpass]

theorem Called.append {log : List Observation} {members : List RequestEnvelope}
    (h : Called log members) (observation : Observation) :
    Called (log ++ [observation]) members :=
  List.mem_append_left _ h

/-- Suspended or not, the evidence for the awaited model call outlives every further entry. -/
theorem Evidence.append_of_suspended {log : List Observation} {point : LoopPoint}
    (h : Evidence log point) (hsuspended : point.suspended = true) (observation : Observation) :
    Evidence (log ++ [observation]) point := by
  cases point with
  | awaitModel work => exact Called.append h observation
  | assemble | failBatch | deliver => simp [LoopPoint.suspended] at hsuspended
  | _ => trivial

theorem evidence_of_step {s next : Batcher} {event : Event} (hstep : Step config s event next)
    (hclosing : Closing s) (hsliced : s.point.Sliced) (h : Evidence s.log s.point) :
    Evidence next.log next.point := by
  cases hstep
  case acceptLive hidle _ _ _ => exact h.append_of_suspended (suspended_of_idle hidle) _
  case expireMember work envelope todo hpoint _ _ =>
    rw [point_of_loopTask hpoint] at h
    exact ⟨h.1, fun member hmem => (h.2 member hmem).append rfl⟩
  case admitMember work envelope todo hpoint _ htime =>
    rw [point_of_loopTask hpoint] at h
    refine ⟨by simp [h.1], fun member hmem => ?_⟩
    rcases List.mem_append.mp hmem with hold | hnew
    · exact (h.2 member hold).append rfl
    · rw [List.mem_singleton.mp hnew]
      exact ⟨s.log, s.now, [], rfl, htime, rfl⟩
  case submit work hpoint _ _ =>
    rw [point_of_loopTask hpoint] at h
    show Called _ _
    rw [Called, ← h.1]
    exact List.mem_append_right _ (List.mem_singleton_self _)
  case executorDown work hpoint _ hdown =>
    -- the executor is shut down only when there is no live loop task
    have hlive := (hclosing.down hdown).2
    simp [loopLive, hpoint] at hlive
  case modelReturns work output hpoint _ =>
    rw [point_of_loopTask hpoint] at h hsliced
    refine ⟨work.validBatch, Called.append h _, ?_⟩
    rw [List.map_fst_zip (Nat.le_of_eq (Eq.symm hsliced))]
    exact List.Subset.refl _
  case modelRaises work hpoint _ =>
    rw [point_of_loopTask hpoint] at h
    exact ⟨work.validBatch, List.mem_append_right _ (List.mem_singleton_self _),
      Called.append h _, List.Subset.refl _⟩
  case skipFailed envelope todo hpoint _ =>
    rw [point_of_loopTask hpoint] at h
    obtain ⟨members, hraised, hcalled, hsub⟩ := h
    exact ⟨members, hraised, hcalled, (List.cons_subset.mp hsub).2⟩
  case failMember envelope todo hpoint _ =>
    rw [point_of_loopTask hpoint] at h
    obtain ⟨members, hraised, hcalled, hsub⟩ := h
    exact ⟨members, List.mem_append_left _ hraised, hcalled.append _,
      (List.cons_subset.mp hsub).2⟩
  case skipDelivery hpoint _ =>
    rw [point_of_loopTask hpoint] at h
    obtain ⟨members, hcalled, hsub⟩ := h
    exact ⟨members, hcalled, (List.cons_subset.mp hsub).2⟩
  case lateDelivery hpoint _ _ | deliverResult hpoint _ _ _ =>
    rw [point_of_loopTask hpoint] at h
    obtain ⟨members, hcalled, hsub⟩ := h
    exact ⟨members, hcalled.append _, (List.cons_subset.mp hsub).2⟩
  all_goals simp_all [point, Evidence]

/-! ## Settled futures -/

/-- What the loop task has in hand has left the queue. -/
theorem inHand_of_step {s next : Batcher} {event : Event} (hstep : Step config s event next)
    (hline : Line s) (h : s.unsettled ⊆ s.dequeuedLine) :
    next.unsettled ⊆ next.dequeuedLine := by
  have hgrows : s.dequeuedLine ⊆ next.dequeuedLine := by
    rcases dequeuedLine_of_step hstep with hsame | ⟨_, hnew, _⟩
    · rw [hsame]
      exact List.Subset.refl _
    · rw [hnew]
      exact List.subset_append_left _ _
  have hchecked : s.point.arriving ⊆ s.dequeuedLine := fun envelope hmem =>
    h (List.mem_append_right _ (List.mem_append_left _ hmem))
  have hbatch : s.point.activeBatch ⊆ s.dequeuedLine := fun envelope hmem =>
    h (List.mem_append_right _ (List.mem_append_right _ hmem))
  have hhand : next.point.arriving ++ next.nextEnvelope.toList ⊆ next.dequeuedLine := by
    rcases hand_of_step hstep hline.slot with ⟨_, hhand | hhand⟩ | ⟨envelope, hnew, hhand⟩
    · rw [hhand]
      refine List.Subset.trans (List.append_subset.mpr ⟨hchecked, fun envelope hmem => ?_⟩) hgrows
      exact h (List.mem_append_left _ hmem)
    · rw [hhand]
      exact List.nil_subset _
    · rw [hhand, hnew]
      exact List.subset_append_right _ _
  have hactive : next.point.activeBatch ⊆ next.dequeuedLine := by
    refine List.Subset.trans ?_ hgrows
    rcases activeBatch_of_step hstep hline.sliced with
      hless | ⟨first, hpoint, hopened⟩ | ⟨batch, total, timer, envelope, hpoint, _, hjoined⟩
    · exact List.Subset.trans hless.subset hbatch
    · rw [hpoint] at hchecked
      rw [hopened]
      exact hchecked
    · rw [hpoint] at hchecked hbatch
      rw [hjoined]
      refine List.append_subset.mpr ⟨fun member hmem => hbatch ?_, hchecked⟩
      exact List.mem_append_left _ hmem
  obtain ⟨harriving, hheld⟩ := List.append_subset.mp hhand
  exact List.append_subset.mpr ⟨hheld, List.append_subset.mpr ⟨harriving, hactive⟩⟩

/-- The futures the log settles exist and are done. -/
def Settled (s : Batcher) : Prop :=
  ∀ envelope : RequestEnvelope, envelope.future ∈ settledFutures s.log →
    envelope.future < s.nextFuture ∧ s.done envelope = true

/-- Only a pending future of the loop task's own envelopes is settled. -/
theorem settledFutures_of_step {s next : Batcher} {event : Event}
    (hstep : Step config s event next) :
    settledFutures next.log = settledFutures s.log ∨
      ∃ envelope ∈ s.unsettled,
        settledFutures next.log = settledFutures s.log ++ [envelope.future] ∧
        s.done envelope = false ∧ next.done envelope = true := by
  cases hstep
  case expireFirst envelope hpoint hdone _ | expireNext envelope hpoint hdone _
      | expireMember envelope _ hpoint hdone _ | failMember envelope _ hpoint hdone
      | lateDelivery envelope _ _ hpoint hdone _ | deliverResult envelope _ _ _ hpoint hdone _ _ =>
    refine .inr ⟨envelope, ?_, ?_, hdone, ?_⟩
    · simp [unsettled, point_of_loopTask hpoint, arriving, activeBatch, gathered, executing]
    · simp [settledFutures, Observation.settledFuture]
    · simp [done_settle]
  case acceptLive | acceptIdle | itemFirst | itemNext | takeQueued | takeNext | modelReturns
      | modelRaises | admitMember | submit =>
    left
    simp [settledFutures, Observation.settledFuture, List.filterMap_cons]
  all_goals exact .inl rfl

theorem nextFuture_of_step {s next : Batcher} {event : Event}
    (hstep : Step config s event next) : s.nextFuture ≤ next.nextFuture := by
  rcases acceptedLine_of_step hstep with ⟨_, hle⟩ | ⟨_, _, _, hnext, _⟩
  · exact hle
  · omega

theorem settled_futures_of_step {s next : Batcher} {event : Event}
    (hstep : Step config s event next) (hline : Line s) (hknown : s.unsettled ⊆ s.dequeuedLine)
    (h : Settled s) : Settled next := by
  intro envelope hmem
  have hle := nextFuture_of_step hstep
  have hold : envelope.future ∈ settledFutures s.log →
      envelope.future < next.nextFuture ∧ next.done envelope = true := by
    intro hsettled
    obtain ⟨hfuture, hdone⟩ := h envelope hsettled
    exact ⟨hfuture.trans_le hle, done_of_step hstep hfuture hdone⟩
  rcases settledFutures_of_step hstep with hsame | ⟨settled, hunsettled, hnew, _, hdone⟩
  · exact hold (hsame ▸ hmem)
  · rw [hnew, List.mem_append, List.mem_singleton] at hmem
    rcases hmem with hmem | heq
    · exact hold hmem
    · have haccepted : settled ∈ s.acceptedLine := by
        rw [hline.line]
        exact List.mem_append_left _ (hknown hunsettled)
      have hfuture := hline.numbered settled haccepted
      refine ⟨by omega, ?_⟩
      rwa [done, heq]

/-! ## Every entry of the log is justified -/

theorem unsettled_log {s : Batcher} (h : Settled s) {envelope : RequestEnvelope}
    (hdone : s.done envelope = false) : envelope.future ∉ settledFutures s.log := by
  intro hmem
  have := (h envelope hmem).2
  simp [hdone] at this

/-- A step adds at most one entry to the log, and a justified one. -/
theorem log_of_step {s next : Batcher} {event : Event} (hstep : Step config s event next)
    (hevidence : Evidence s.log s.point) (hsettled : Settled s) :
    next.log = s.log ∨ ∃ observation, next.log = s.log ++ [observation] ∧
      Justified s.log observation := by
  cases hstep
  case acceptLive | acceptIdle | itemFirst | itemNext | takeQueued | takeNext =>
    exact .inr ⟨_, rfl, trivial⟩
  case modelReturns hpoint _ =>
    rw [point_of_loopTask hpoint] at hevidence
    exact .inr ⟨_, rfl, hevidence⟩
  case modelRaises hpoint _ =>
    rw [point_of_loopTask hpoint] at hevidence
    exact .inr ⟨_, rfl, hevidence⟩
  case expireFirst hdone hlate | expireNext hdone hlate | expireMember hdone hlate
      | lateDelivery hdone hlate =>
    exact .inr ⟨_, rfl, fun _ => hlate, nofun, unsettled_log hsettled hdone⟩
  case admitMember htime => exact .inr ⟨_, rfl, rfl, htime⟩
  case submit hpoint _ _ =>
    rw [point_of_loopTask hpoint] at hevidence
    exact .inr ⟨_, rfl, hevidence⟩
  case failMember hpoint hdone =>
    rw [point_of_loopTask hpoint] at hevidence
    obtain ⟨members, hraised, hcalled, hsub⟩ := hevidence
    exact .inr ⟨_, rfl, nofun, fun _ => ⟨members, hraised, hcalled, hsub List.mem_cons_self⟩,
      unsettled_log hsettled hdone⟩
  case deliverResult hpoint hdone htime _ =>
    rw [point_of_loopTask hpoint] at hevidence
    obtain ⟨members, hcalled, hsub⟩ := hevidence
    exact .inr ⟨_, rfl, htime, ⟨members, hcalled, hsub List.mem_cons_self⟩,
      unsettled_log hsettled hdone⟩
  all_goals exact .inl rfl

/-- The log is justified, and what the next entries will rest on is in place. -/
structure Account (s : Batcher) : Prop where
  evidence : Evidence s.log s.point
  known : s.unsettled ⊆ s.dequeuedLine
  settled : Settled s
  justified : Justifies Justified s.log

theorem account_of_reachable {s : Batcher} (hreach : (machine config).Reachable s) :
    Account s := by
  apply hreach.invariant
  · rintro s ⟨now, rfl⟩
    exact ⟨trivial, List.nil_subset _, nofun, .nil⟩
  · intro s event next hbefore h hevent
    have hstep := step_cases hevent
    have hline := line_of_reachable hbefore
    refine ⟨evidence_of_step hstep (closing_of_reachable hbefore) hline.sliced h.evidence,
      inHand_of_step hstep hline h.known,
      settled_futures_of_step hstep hline h.known h.settled, ?_⟩
    rcases log_of_step hstep h.evidence h.settled with hsame | ⟨observation, hnew, hjustified⟩
    · rw [hsame]
      exact h.justified
    · rw [hnew]
      exact h.justified.append_singleton hjustified

/-- **Every future is settled once, and for a reason.**  In every run no future that is
done is settled again, and each entry of the log is justified by those before it. -/
theorem settlement_sound {s : Batcher} (hreach : (machine config).Reachable s) :
    s.loopTask ≠ some (.finished .invalidState) ∧
      ∀ before observation after, s.log = before ++ observation :: after →
        Justified before observation :=
  ⟨(closing_of_reachable hreach).sound, (account_of_reachable hreach).justified⟩

/-- One request expires in the queue, the other is executed while `close` is waiting. -/
def expiryRun : List Event :=
  [.enqueue "r0" ["a"] 2, .enqueue "r1" ["b"] 0, .tick 1, .resume .started]
    ++ List.replicate 6 .run ++ [.close, .resume .cancelled] ++ List.replicate 3 .run
    ++ [.resume (.modelReturns ⟨[("ham", 1)], 0, 0, 0⟩)] ++ List.replicate 3 .run ++ [.closeReturn]

theorem settlement_sound_expiry :
    let s := sample {} expiryRun
    s.closed = true ∧ settledFutures s.log = [1, 0] ∧
      s.loopTask ≠ some (.finished .invalidState) ∧
      ∀ before observation after, s.log = before ++ observation :: after →
        Justified before observation :=
  ⟨by decide +kernel, by decide +kernel, settlement_sound (reachable_sample _ _)⟩

end Batcher
end ModelServer
