import ModelServer.Worker.Settlement

/-!
# Each request gets the predictions for its own inputs

The inputs of a batch are flattened into one list, and each request is cut out of
the model's answer at the offset its inputs had.  `Assembly.Aligned` says that
the offsets are those of the members that were kept, whatever was dropped.

For a model that computes `f` text by text, a future with a result then holds `f`
of the inputs of its own envelope: `predictions_of_result`.
-/

namespace ModelServer

open Asyncio Transition

/-- The flattened inputs and the slices belong to the members kept so far. -/
structure Assembly.Aligned (work : Assembly) : Prop where
  inputs : work.flattenedInputs = (work.validBatch.map RequestEnvelope.inputs).flatten
  slices : work.slices =
    Slices.offsets 0 ((work.validBatch.map RequestEnvelope.inputs).map List.length)
  idx : work.idx = ((work.validBatch.map RequestEnvelope.inputs).map List.length).sum

theorem Assembly.Aligned.snoc {work : Assembly} (h : work.Aligned) (envelope : RequestEnvelope) :
    Assembly.Aligned
      { work with
        validBatch := work.validBatch ++ [envelope]
        flattenedInputs := work.flattenedInputs ++ envelope.inputs
        slices := work.slices ++ [(work.idx, work.idx + envelope.inputs.length)]
        idx := work.idx + envelope.inputs.length } where
  inputs := by simp [h.inputs]
  slices := by
    simp only [List.map_append, List.map_singleton, Slices.offsets_append, ← h.slices, ← h.idx,
      Slices.offsets, Nat.zero_add]
  idx := by simp [h.idx]

/-- The slice of each member cuts out the answer to its own inputs. -/
theorem Assembly.Aligned.cut {work : Assembly} (h : work.Aligned) (f : String → String × ℚ)
    {envelope : RequestEnvelope} {sStart sEnd : ℕ}
    (hmem : (envelope, sStart, sEnd) ∈ work.validBatch.zip work.slices) :
    Slices.slice (work.flattenedInputs.map f) sStart sEnd = envelope.inputs.map f := by
  have hblock : (envelope.inputs, sStart, sEnd) ∈
      (work.validBatch.map RequestEnvelope.inputs).zip work.slices := by
    rw [List.zip_map_left]
    exact List.mem_map.mpr ⟨_, hmem, rfl⟩
  rw [h.slices] at hblock
  rw [h.inputs]
  exact Slices.slice_map_of_mem_zip f _ hblock

namespace Batcher

open LoopPoint

variable {config : BatcherConfig} {f : String → String × ℚ}

/-- The model returns `f` of each text it was given. -/
def PointwiseEvent (f : String → String × ℚ) (s : Batcher) : Event → Prop
  | .resume (.modelReturns output) =>
      ∀ work, s.loopTask = some (.awaitModel work) → output.preds = work.flattenedInputs.map f
  | _ => True

/-- What is still to be delivered is cut at the right places. -/
def Cut (f : String → String × ℚ) : LoopPoint → Prop
  | .assemble work _ | .awaitModel work => work.Aligned
  | .deliver _ output _ todo =>
      ∀ entry ∈ todo, Slices.slice output.preds entry.2.1 entry.2.2 = entry.1.inputs.map f
  | _ => True

theorem cut_of_step {s next : Batcher} {event : Event} (hstep : Step config s event next)
    (hmodel : PointwiseEvent f s event) (h : Cut f s.point) : Cut f next.point := by
  cases hstep
  case beginProcess => exact ⟨rfl, rfl, rfl⟩
  case admitMember envelope _ hpoint _ _ =>
    rw [point_of_loopTask hpoint] at h
    exact Assembly.Aligned.snoc h envelope
  case modelReturns work output hpoint _ =>
    rw [point_of_loopTask hpoint] at h
    intro entry hmem
    rw [hmodel work hpoint]
    exact Assembly.Aligned.cut h f hmem
  case skipDelivery hpoint _ | lateDelivery hpoint _ _ | deliverResult hpoint _ _ _ =>
    rw [point_of_loopTask hpoint] at h
    exact fun entry hmem => h entry (List.mem_cons_of_mem _ hmem)
  all_goals simp_all [point, Cut]

/-- The answers that have been given so far are right. -/
def Answered (f : String → String × ℚ) (s : Batcher) : Prop :=
  ∀ envelope ∈ s.acceptedLine, ∀ result, s.futures envelope.future = .result result →
    result.predictions = envelope.inputs.map f

/-- A step sets at most one result, and the one the slice of the envelope cuts out. -/
theorem result_of_step {s next : Batcher} {event : Event} (hstep : Step config s event next)
    (h : Cut f s.point) {future : ℕ} {result : BatcherResult}
    (hresult : next.futures future = .result result) :
    s.futures future = .result result ∧
        (future = s.nextFuture → next.nextFuture = s.nextFuture) ∨
      ∃ envelope ∈ s.unsettled, envelope.future = future ∧
        result.predictions = envelope.inputs.map f := by
  cases hstep
  case deliverResult work output endTime envelope slice todo _ hpoint _ _ hbuild =>
    rw [point_of_loopTask hpoint] at h
    rw [settle_futures, Function.update_apply] at hresult
    split at hresult
    · rename_i heq
      right
      refine ⟨envelope, ?_, heq.symm, ?_⟩
      · simp [unsettled, point_of_loopTask hpoint, arriving, activeBatch, gathered, executing]
      · cases hresult
        rw [hbuild]
        exact h (envelope, slice) List.mem_cons_self
    · exact .inl ⟨hresult, fun _ => rfl⟩
  case refuseFull | acceptLive | acceptIdle =>
    left
    simp only [createFuture_futures, accept_futures, Function.update_apply] at hresult
    split at hresult
    · simp at hresult
    · exact ⟨hresult, fun heq => absurd heq ‹_›⟩
  case cancelFuture cancelled _ _ =>
    left
    refine ⟨?_, fun _ => rfl⟩
    rw [cancelFuture_futures, Function.update_apply] at hresult
    split at hresult
    · rename_i heq
      rwa [Future.cancel_eq_result, ← heq] at hresult
    · exact hresult
  all_goals
    left
    simp_all [Function.update_apply]
    try grind

theorem answered_of_step {s next : Batcher} {event : Event} (hstep : Step config s event next)
    (hline : Line s) (hknown : s.unsettled ⊆ s.dequeuedLine) (hcut : Cut f s.point)
    (h : Answered f s) : Answered f next := by
  intro envelope hmem result hresult
  rcases result_of_step hstep hcut hresult with ⟨hold, hfresh⟩ | ⟨answered, hunsettled, heq, hcut⟩
  · rcases acceptedLine_of_step hstep with ⟨hsame, _⟩ | ⟨new, hnew, hfuture, hnext, _⟩
    · exact h envelope (hsame ▸ hmem) result hold
    · rw [hnew, List.mem_append, List.mem_singleton] at hmem
      rcases hmem with hmem | rfl
      · exact h envelope hmem result hold
      · have := hfresh hfuture
        omega
  · -- futures are numbered, so the envelope that was answered is this one
    have haccepted : answered ∈ next.acceptedLine := by
      have hknown := hknown hunsettled
      have hold : answered ∈ s.acceptedLine := hline.line ▸ List.mem_append_left _ hknown
      rcases acceptedLine_of_step hstep with ⟨hsame, _⟩ | ⟨_, hnew, _⟩
      · exact hsame ▸ hold
      · exact hnew ▸ List.mem_append_left _ hold
    have hdistinct := distinct_of_step hstep hline.numbered hline.distinct
    rwa [List.inj_on_of_nodup_map hdistinct haccepted hmem heq] at hcut

structure Delivery (f : String → String × ℚ) (s : Batcher) : Prop where
  cut : Cut f s.point
  answered : Answered f s

theorem delivery_of_reachable {s : Batcher}
    (hreach : (machine config).ReachableBy (PointwiseEvent f) s) : Delivery f s := by
  apply hreach.invariant
  · rintro s ⟨now, rfl⟩
    exact ⟨trivial, nofun⟩
  · intro s event next hbefore h hmodel hevent
    have hstep := step_cases hevent
    exact ⟨cut_of_step hstep hmodel h.cut,
      answered_of_step hstep (line_of_reachable hbefore.reachable)
        (account_of_reachable hbefore.reachable).known h.cut h.answered⟩

/-- With a model that computes `f` text by text, a result is `f` of the inputs of its own
envelope, whatever shared the batch. -/
theorem predictions_of_result {s : Batcher}
    (hreach : (machine config).ReachableBy (PointwiseEvent f) s) {envelope : RequestEnvelope}
    (hmem : envelope ∈ s.acceptedLine) {result : BatcherResult}
    (hresult : s.futures envelope.future = .result result) :
    result.predictions = envelope.inputs.map f :=
  (delivery_of_reachable hreach).answered envelope hmem result hresult

end Batcher
end ModelServer
