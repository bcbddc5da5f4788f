import ModelServer.Worker.Settlement

/-!
# A failing model call is isolated to its batch

From the moment the result of the model call is in, `_process_batch` runs to its
end without suspending.  Whether the call returned or raised, what follows
settles futures of the batch and does nothing else (`SettlesOnly`), so two runs
that part at the model call agree on everything outside the batch.  That no
future of the batch is left pending is an invariant of the whole of
`_process_batch` (`Kept`), and that the pending ones are failed is one of the
`for` of `except Exception` (`Failing`).
-/

namespace ModelServer

namespace LoopPoint

/-- `_process_batch` has been entered and has not returned. -/
def processing : LoopPoint → Bool
  | processBatch _ | assemble .. | awaitModel _ | failBatch _ | deliver .. => true
  | _ => false

/-- The two `for` loops behind the model call. -/
def settling : LoopPoint → Bool
  | failBatch _ | deliver .. => true
  | _ => false

theorem processing_of_settling {point : LoopPoint} (h : point.settling = true) :
    point.processing = true ∧ point.suspended = false := by
  cases point with
  | failBatch todo | deliver work output reading todo => exact ⟨rfl, rfl⟩
  | _ => simp [settling] at h

end LoopPoint

namespace Batcher

open Asyncio Transition LoopPoint

variable {config : BatcherConfig}

/-- The events before `_process_batch` returns. -/
def InProcess (s : Batcher) (_ : Event) : Prop := s.point.processing = true

theorem loopLive_of_processing {s : Batcher} (h : s.point.processing = true) :
    s.loopLive = true := by
  by_contra hlive
  rw [Bool.not_eq_true] at hlive
  rcases loopLive_eq_false_iff.mp hlive with htask | ⟨how, htask⟩ <;>
    simp [point, htask, processing] at h

/-! ## No future of the batch is lost -/

/-- Every member of `batch` is settled or still in the hands of the loop task, and
there is nothing else in its hands. -/
structure Kept (batch : List RequestEnvelope) (s : Batcher) : Prop where
  members : ∀ envelope ∈ batch, envelope.future < s.nextFuture
  settled : ∀ envelope ∈ batch, s.done envelope = true ∨ envelope ∈ s.point.activeBatch
  subset : s.point.activeBatch ⊆ batch

/-- In `_process_batch` nothing joins the batch. -/
theorem activeBatch_subset_of_step {s next : Batcher} {event : Event}
    (hstep : Step config s event next) (hprocessing : s.point.processing = true)
    (hsliced : s.point.Sliced) : next.point.activeBatch ⊆ s.point.activeBatch := by
  rcases activeBatch_of_step hstep hsliced with
    hless | ⟨first, hpoint, _⟩ | ⟨batch, total, timer, envelope, hpoint, _⟩
  · exact hless.subset
  · simp [hpoint, processing] at hprocessing
  · simp [hpoint, processing] at hprocessing

theorem kept_of_step {s next : Batcher} {event : Event} {batch : List RequestEnvelope}
    (hstep : Step config s event next) (hprocessing : s.point.processing = true)
    (hlive : next.loopLive = true) (hsliced : s.point.Sliced) (h : Kept batch s) :
    Kept batch next := by
  refine ⟨fun envelope hmem => ?_, fun envelope hmem => ?_, ?_⟩
  · exact (h.members envelope hmem).trans_le (nextFuture_of_step hstep)
  · rcases h.settled envelope hmem with hdone | hactive
    · exact .inl (done_of_step hstep (h.members envelope hmem) hdone)
    · rcases activeBatch_kept_of_step hstep hsliced hactive with hdone | hkept | ⟨_, _, hlost⟩
      · exact .inl hdone
      · exact .inr hkept
      · rw [hlost] at hlive
        cases hlive
  · exact List.Subset.trans (activeBatch_subset_of_step hstep hprocessing hsliced) h.subset

/-- The whole of `_process_batch` keeps the batch. -/
theorem kept_of_inProcess {s last : Batcher} {batch : List RequestEnvelope}
    (hreach : (machine config).Reachable s) (hkept : Kept batch s)
    (hrun : ((machine config).startingAt s).ReachableBy InProcess last) :
    last.loopLive = true → Kept batch last := by
  induction hrun with
  | initial h =>
      intro _
      rwa [h]
  | step hbefore hprocessing hevent ih =>
      intro hlive
      have hmiddle := hbefore.of_startingAt hreach
      have hbatch := ih (loopLive_of_processing hprocessing)
      exact kept_of_step (step_cases hevent) hprocessing hlive (line_of_reachable hmiddle).sliced
        hbatch

/-- Where `_process_batch` is entered, the whole batch is in hand. -/
theorem kept_of_processBatch {s : Batcher} {batch : List RequestEnvelope}
    (hreach : (machine config).Reachable s)
    (hbatch : s.loopTask = some (.processBatch batch)) : Kept batch s := by
  have hactive : s.point.activeBatch = batch := by
    rw [point_of_loopTask hbatch]
    exact List.append_nil batch
  refine ⟨fun envelope hmem => ?_, fun envelope hmem => .inr (hactive ▸ hmem),
    hactive ▸ List.Subset.refl _⟩
  have hline := line_of_reachable hreach
  have hdequeued : envelope ∈ s.dequeuedLine := by
    apply (account_of_reachable hreach).known
    rw [unsettled, hactive]
    exact List.mem_append_right _ (List.mem_append_right _ hmem)
  apply hline.numbered
  rw [hline.line]
  exact List.mem_append_left _ hdequeued

/-! ## What the rest of `_process_batch` touches -/

/-- From `s` to `next` no future was touched but those of `members`, and neither the
queue nor the held envelope. -/
structure SettlesOnly (members : List RequestEnvelope) (s next : Batcher) : Prop where
  queue : next.queue = s.queue
  nextEnvelope : next.nextEnvelope = s.nextEnvelope
  stopping : next.stopping = s.stopping
  outside : ∀ future ∉ members.map RequestEnvelope.future, next.futures future = s.futures future

namespace SettlesOnly

variable {members : List RequestEnvelope} {s middle next : Batcher}

theorem refl (members : List RequestEnvelope) (s : Batcher) : SettlesOnly members s s :=
  ⟨rfl, rfl, rfl, fun _ _ => rfl⟩

theorem trans (h : SettlesOnly members s middle) (h' : SettlesOnly members middle next) :
    SettlesOnly members s next where
  queue := h'.queue.trans h.queue
  nextEnvelope := h'.nextEnvelope.trans h.nextEnvelope
  stopping := h'.stopping.trans h.stopping
  outside future hmem := (h'.outside future hmem).trans (h.outside future hmem)

theorem mono {members' : List RequestEnvelope} (h : SettlesOnly members s next)
    (hsub : members ⊆ members') : SettlesOnly members' s next where
  queue := h.queue
  nextEnvelope := h.nextEnvelope
  stopping := h.stopping
  outside future hmem := h.outside future fun hold => hmem (List.map_subset _ hsub hold)

theorem settle {envelope : RequestEnvelope} (hmem : envelope ∈ members)
    (future : Future BatcherResult AppError) (observation : Observation) (point : LoopPoint) :
    SettlesOnly members s (s.settle envelope future observation point) where
  queue := rfl
  nextEnvelope := rfl
  stopping := rfl
  outside other hother := by
    apply Function.update_of_ne
    rintro rfl
    exact hother (List.mem_map_of_mem hmem)

end SettlesOnly

/-- One step of the loops behind the model call: it settles at most a member of the
batch, and either the loop goes on or `_process_batch` returns. -/
theorem settling_of_step {s next : Batcher} {event : Event} (hstep : Step config s event next)
    (hsettling : s.point.settling = true) :
    SettlesOnly s.point.activeBatch s next ∧
      (next.point.settling = true ∨ next.point = .loopHead) := by
  have hrunning := (processing_of_settling hsettling).2
  cases hstep
  case tick => exact ⟨⟨rfl, rfl, rfl, fun _ _ => rfl⟩, .inl hsettling⟩
  case failMember envelope todo hpoint _ =>
    refine ⟨.settle ?_ _ _ _, .inl rfl⟩
    rw [point_of_loopTask hpoint]
    exact List.mem_cons_self
  case lateDelivery hpoint _ _ | deliverResult hpoint _ _ _ =>
    refine ⟨.settle ?_ _ _ _, .inl rfl⟩
    rw [point_of_loopTask hpoint]
    exact List.mem_cons_self
  case skipFailed | skipDelivery => exact ⟨⟨rfl, rfl, rfl, fun _ _ => rfl⟩, .inl rfl⟩
  case failedAll | deliveredAll => exact ⟨⟨rfl, rfl, rfl, fun _ _ => rfl⟩, .inr rfl⟩
  case refuseStopping hidle _ | refuseFull hidle _ _ | acceptLive hidle _ _ _
      | acceptIdle hidle _ _ _ | cancelFuture hidle _ | closeLive hidle _ | closeIdle hidle _ =>
    simp [suspended_of_idle hidle] at hrunning
  all_goals
    rw [@point_of_loopTask s _ ‹_›] at hsettling
    cases hsettling

/-- The loops behind the model call settle nothing but members of the batch. -/
theorem settlesOnly_of_inProcess {s last : Batcher} {batch : List RequestEnvelope}
    (hreach : (machine config).Reachable s) (hsettling : s.point.settling = true)
    (hsub : s.point.activeBatch ⊆ batch)
    (hrun : ((machine config).startingAt s).ReachableBy InProcess last) :
    SettlesOnly batch s last ∧ (last.point.settling = true ∨ last.point = .loopHead) ∧
      last.point.activeBatch ⊆ batch := by
  induction hrun with
  | initial h =>
      subst h
      exact ⟨.refl _ _, .inl hsettling, hsub⟩
  | @step middle last event hbefore hprocessing hevent ih =>
      obtain ⟨hsettles, hplace, hsubset⟩ := ih
      have hstep := step_cases hevent
      have hmiddle := hbefore.of_startingAt hreach
      have hstill : middle.point.settling = true := by
        rcases hplace with h | h
        · exact h
        · simp [InProcess, h, processing] at hprocessing
      obtain ⟨hsettled, hnext⟩ := settling_of_step hstep hstill
      have hless := activeBatch_subset_of_step hstep hprocessing (line_of_reachable hmiddle).sliced
      exact ⟨hsettles.trans (hsettled.mono hsubset), hnext, List.Subset.trans hless hsubset⟩

/-! ## What becomes of the pending futures -/

/-- Of `members`, those that were pending in `first` are failed or still to be failed. -/
def Failing (members : List RequestEnvelope) (first s : Batcher) : Prop :=
  (s.point = .loopHead ∨ ∃ todo, s.point = .failBatch todo) ∧
    ∀ envelope ∈ members, first.done envelope = false →
      s.futures envelope.future = .exception inferenceFailed ∨
        s.done envelope = false ∧ envelope ∈ s.point.executing

theorem failing_of_step {s next first : Batcher} {event : Event}
    {members : List RequestEnvelope} (hstep : Step config s event next)
    (hprocessing : s.point.processing = true) (h : Failing members first s) :
    Failing members first next := by
  obtain ⟨hplace, hfailing⟩ := h
  have hloop : ∃ todo, s.point = .failBatch todo := by
    refine hplace.resolve_left fun hpoint => ?_
    simp [hpoint, processing] at hprocessing
  obtain ⟨todo, hpoint⟩ := hloop
  have hsettling : s.point.settling = true := by rw [hpoint]; rfl
  have hrunning := (processing_of_settling hsettling).2
  cases hstep
  case tick => exact ⟨hplace, hfailing⟩
  case skipFailed envelope todo hpoint hdone =>
    refine ⟨.inr ⟨todo, rfl⟩, fun member hmem hpending => ?_⟩
    rcases hfailing member hmem hpending with hfailed | ⟨hstill, hexecuting⟩
    · exact .inl hfailed
    · rw [point_of_loopTask hpoint] at hexecuting
      rcases List.mem_cons.mp hexecuting with rfl | hrest
      · simp [hdone] at hstill
      · exact .inr ⟨hstill, hrest⟩
  case failMember envelope todo hpoint hdone =>
    refine ⟨.inr ⟨todo, rfl⟩, fun member hmem hpending => ?_⟩
    by_cases hsame : member.future = envelope.future
    · left
      simp [hsame]
    · rcases hfailing member hmem hpending with hfailed | ⟨hstill, hexecuting⟩
      · left
        simpa [hsame] using hfailed
      · rw [point_of_loopTask hpoint] at hexecuting
        right
        refine ⟨by simpa [done_settle, hsame] using hstill, ?_⟩
        exact (List.mem_cons.mp hexecuting).resolve_left fun heq => hsame (heq ▸ rfl)
  case failedAll hpoint =>
    refine ⟨.inl rfl, fun member hmem hpending => ?_⟩
    rcases hfailing member hmem hpending with hfailed | ⟨_, hexecuting⟩
    · exact .inl hfailed
    · rw [point_of_loopTask hpoint] at hexecuting
      simp [executing] at hexecuting
  case refuseStopping hidle _ | refuseFull hidle _ _ | acceptLive hidle _ _ _
      | acceptIdle hidle _ _ _ | cancelFuture hidle _ | closeLive hidle _ | closeIdle hidle _ =>
    simp [suspended_of_idle hidle] at hrunning
  all_goals
    rw [@point_of_loopTask s _ ‹_›] at hpoint
    cases hpoint

theorem failing_of_inProcess {s last first : Batcher} {members : List RequestEnvelope}
    (h : Failing members first s)
    (hrun : ((machine config).startingAt s).ReachableBy InProcess last) :
    Failing members first last := by
  apply hrun.invariant
  · rintro middle rfl
    exact h
  · intro middle event next _ hmiddle hprocessing hevent
    exact failing_of_step (step_cases hevent) hprocessing hmiddle

/-! ## `_process_batch` returns -/

theorem step_run {s : Batcher} {point : LoopPoint} (hpoint : s.loopTask = some point)
    (hrunning : point.suspended = false) :
    (machine config).step s .run = some (s.advance config point) := by
  simp [machine, step, hpoint, hrunning]

/-- Where a future is settled only if it is pending, the loop task goes on. -/
theorem loopTask_setException {s : Batcher} {envelope : RequestEnvelope} {error : AppError}
    {next : LoopPoint} (hdone : s.done envelope = false) :
    (s.setException envelope error next).loopTask = some next := by
  rw [setException_of_pending hdone]
  rfl

theorem loopTask_setResult {s : Batcher} {envelope : RequestEnvelope} {result : BatcherResult}
    {next : LoopPoint} (hdone : s.done envelope = false) :
    (s.setResult envelope result next).loopTask = some next := by
  rw [setResult_of_pending hdone]
  rfl

theorem returns_of_failBatch (config : BatcherConfig) (todo : List RequestEnvelope)
    {s : Batcher} (hpoint : s.loopTask = some (.failBatch todo)) :
    ∃ last, (machine config).Run s (List.replicate (todo.length + 1) .run) last ∧
      last.loopTask = some .loopHead := by
  induction todo generalizing s with
  | nil =>
      refine ⟨s.goto .loopHead, ?_, rfl⟩
      rw [List.length_nil, List.replicate_one, Machine.run_singleton_iff, step_run hpoint rfl]
      rfl
  | cons envelope todo ih =>
      have hgoes : (s.advance config (.failBatch (envelope :: todo))).loopTask =
          some (.failBatch todo) := by
        simp only [advance]
        split
        · rfl
        · exact loopTask_setException (Bool.eq_false_of_not_eq_true ‹_›)
      obtain ⟨last, hrest, hlast⟩ := ih hgoes
      exact ⟨last, .cons (step_run hpoint rfl) hrest, hlast⟩

theorem returns_of_deliver (config : BatcherConfig) (work : Assembly) (output : ModelOutput)
    (endProcessTime : Time) (todo : List (RequestEnvelope × ℕ × ℕ)) {s : Batcher}
    (hpoint : s.loopTask = some (.deliver work output endProcessTime todo)) :
    ∃ last, (machine config).Run s (List.replicate (todo.length + 1) .run) last ∧
      last.loopTask = some .loopHead := by
  induction todo generalizing s with
  | nil =>
      refine ⟨s.goto .loopHead, ?_, rfl⟩
      rw [List.length_nil, List.replicate_one, Machine.run_singleton_iff, step_run hpoint rfl]
      rfl
  | cons head todo ih =>
      obtain ⟨envelope, slice⟩ := head
      have hgoes : (s.advance config (.deliver work output endProcessTime
          ((envelope, slice) :: todo))).loopTask =
            some (.deliver work output endProcessTime todo) := by
        simp only [advance]
        split
        · rfl
        · have hdone := Bool.eq_false_of_not_eq_true ‹_›
          split
          · exact loopTask_setException hdone
          · exact loopTask_setResult hdone
      obtain ⟨last, hrest, hlast⟩ := ih hgoes
      exact ⟨last, .cons (step_run hpoint rfl) hrest, hlast⟩

/-! ## Two runs that part at the model call -/

theorem eq_of_modelReturns {s next : Batcher} {work : Assembly} {output : ModelOutput}
    (hmodel : s.loopTask = some (.awaitModel work))
    (hevent : (machine config).step s (.resume (.modelReturns output)) = some next) :
    next = (s.observe (.modelReturned work.validBatch)).goto
      (.deliver work output s.now (work.validBatch.zip work.slices)) := by
  have hstep : Step config s (.resume (.modelReturns output)) next := step_cases hevent
  cases hstep
  case modelReturns hpoint _ =>
    obtain rfl : work = _ := by simpa [hmodel] using hpoint
    rfl

theorem eq_of_modelRaises {s next : Batcher} {work : Assembly}
    (hmodel : s.loopTask = some (.awaitModel work))
    (hevent : (machine config).step s (.resume .modelRaises) = some next) :
    next = (s.observe (.modelRaised work.validBatch)).goto (.failBatch work.validBatch) := by
  have hstep : Step config s (.resume .modelRaises) next := step_cases hevent
  cases hstep
  case modelRaises hpoint _ =>
    obtain rfl : work = _ := by simpa [hmodel] using hpoint
    rfl

/-- A model call that is not cancelled may return or raise. -/
theorem step_awaitModel (config : BatcherConfig) {s : Batcher} {work : Assembly}
    (hmodel : s.loopTask = some (.awaitModel work)) (hcancel : s.cancelRequested = false)
    (output : ModelOutput) :
    (∃ next, (machine config).step s (.resume (.modelReturns output)) = some next) ∧
      ∃ next, (machine config).step s (.resume .modelRaises) = some next := by
  simp [machine, step, hmodel, resume, hcancel]

theorem loopTask_of_loopHead {s : Batcher} (h : s.point = .loopHead) :
    s.loopTask = some .loopHead := by
  cases htask : s.loopTask with
  | none => simp [point, htask] at h
  | some point => rw [← h, point_of_loopTask htask]

/-- Where `_process_batch` returns to, once its model call is over. -/
theorem returned_of_inProcess {s middle next last : Batcher} {event : Event}
    {batch : List RequestEnvelope} (hreach : (machine config).Reachable s)
    (hbatch : s.loopTask = some (.processBatch batch))
    (hmiddle : ((machine config).startingAt s).ReachableBy InProcess middle)
    (hprocessing : middle.point.processing = true)
    (hevent : (machine config).step middle event = some next)
    (hsettling : next.point.settling = true)
    (hlast : ((machine config).startingAt next).ReachableBy InProcess last)
    (hended : last.point.processing = false) :
    SettlesOnly batch next last ∧ last.loopTask = some .loopHead ∧
      ∀ envelope ∈ batch, last.done envelope = true := by
  have hkept := kept_of_processBatch hreach hbatch
  have hnext : ((machine config).startingAt s).ReachableBy InProcess next :=
    hmiddle.step hprocessing hevent
  have hlive := loopLive_of_processing (processing_of_settling hsettling).1
  obtain ⟨hsettles, hplace, _⟩ := settlesOnly_of_inProcess (hnext.of_startingAt hreach) hsettling
    (kept_of_inProcess hreach hkept hnext hlive).subset hlast
  have hhead : last.point = .loopHead := by
    refine hplace.resolve_left fun hstill => ?_
    simp [(processing_of_settling hstill).1] at hended
  have htask := loopTask_of_loopHead hhead
  have hlastKept := kept_of_inProcess hreach hkept (hnext.trans hlast) (by simp [loopLive, htask])
  refine ⟨hsettles, htask, fun envelope hmem => ?_⟩
  refine (hlastKept.settled envelope hmem).resolve_right fun hactive => ?_
  simp [hhead, activeBatch, gathered, executing] at hactive

/-- **A failing model call is isolated to its batch.**  Take a batch that is about to be
executed and let its model call return in one run and raise in the other.  In both runs
`_process_batch` can return; and wherever it does, the loop is back at its head, nothing
outside the batch differs, what was pending among the executed envelopes has failed in
the second run, and no future of the batch is left pending in either. -/
theorem failure_isolated {s middle returned raised : Batcher} {batch : List RequestEnvelope}
    {work : Assembly} {output : ModelOutput} (hreach : (machine config).Reachable s)
    (hbatch : s.loopTask = some (.processBatch batch))
    (hmiddle : ((machine config).startingAt s).ReachableBy InProcess middle)
    (hmodel : middle.loopTask = some (.awaitModel work))
    (hreturned : (machine config).step middle (.resume (.modelReturns output)) = some returned)
    (hraised : (machine config).step middle (.resume .modelRaises) = some raised) :
    (∃ events good bad, (machine config).Run returned events good ∧
      (machine config).Run raised events bad ∧
      good.loopTask = some .loopHead ∧ bad.loopTask = some .loopHead) ∧
    ∀ good bad,
      ((machine config).startingAt returned).ReachableBy InProcess good →
      good.point.processing = false →
      ((machine config).startingAt raised).ReachableBy InProcess bad →
      bad.point.processing = false →
      good.loopTask = some .loopHead ∧ bad.loopTask = some .loopHead ∧
      good.stopping = bad.stopping ∧ good.queue = bad.queue ∧
      good.nextEnvelope = bad.nextEnvelope ∧
      (∀ future ∉ batch.map RequestEnvelope.future, good.futures future = bad.futures future) ∧
      (∀ envelope ∈ work.validBatch, middle.done envelope = false →
        bad.futures envelope.future = .exception inferenceFailed) ∧
      ∀ envelope ∈ batch, good.done envelope = true ∧ bad.done envelope = true := by
  have hprocessing : middle.point.processing = true := by
    rw [point_of_loopTask hmodel]
    rfl
  have hsliced : work.slices.length = work.validBatch.length := by
    have hall := (line_of_reachable (hmiddle.of_startingAt hreach)).sliced
    rwa [point_of_loopTask hmodel] at hall
  have hgoodStart := eq_of_modelReturns hmodel hreturned
  have hbadStart := eq_of_modelRaises hmodel hraised
  constructor
  · obtain ⟨good, hgood, hgoodHead⟩ := returns_of_deliver config work output middle.now
      (work.validBatch.zip work.slices) (congrArg loopTask hgoodStart)
    obtain ⟨bad, hbad, hbadHead⟩ := returns_of_failBatch config work.validBatch
      (congrArg loopTask hbadStart)
    rw [List.length_zip, hsliced, Nat.min_self] at hgood
    exact ⟨_, good, bad, hgood, hbad, hgoodHead, hbadHead⟩
  · intro good bad hgood hgoodEnded hbad hbadEnded
    subst hgoodStart hbadStart
    obtain ⟨hgoodSettles, hgoodHead, hgoodDone⟩ :=
      returned_of_inProcess hreach hbatch hmiddle hprocessing hreturned rfl hgood hgoodEnded
    obtain ⟨hbadSettles, hbadHead, hbadDone⟩ :=
      returned_of_inProcess hreach hbatch hmiddle hprocessing hraised rfl hbad hbadEnded
    have hfailing : Failing work.validBatch middle bad := by
      apply failing_of_inProcess _ hbad
      exact ⟨.inr ⟨work.validBatch, rfl⟩, fun envelope hmem hpending => .inr ⟨hpending, hmem⟩⟩
    refine ⟨hgoodHead, hbadHead, ?_, ?_, ?_, ?_, ?_, fun envelope hmem =>
      ⟨hgoodDone envelope hmem, hbadDone envelope hmem⟩⟩
    · exact hgoodSettles.stopping.trans hbadSettles.stopping.symm
    · exact hgoodSettles.queue.trans hbadSettles.queue.symm
    · exact hgoodSettles.nextEnvelope.trans hbadSettles.nextEnvelope.symm
    · intro future houtside
      exact (hgoodSettles.outside future houtside).trans (hbadSettles.outside future houtside).symm
    · intro envelope hmem hpending
      refine (hfailing.2 envelope hmem hpending).resolve_right fun hstill => ?_
      rw [point_of_loopTask hbadHead] at hstill
      simp [executing] at hstill

/-- A batch is at most a pair of requests. -/
def pairs : BatcherConfig := { maxBatchRequests := 2 }

/-- Two requests arrive, and fill a batch. -/
def pairRun : List Event :=
  [.enqueue "r0" ["a"] 1, .enqueue "r1" ["b", "c"] 1, .resume .started] ++ List.replicate 6 .run

/-- Its execution up to the model call, during which another request arrives. -/
def modelCallRun : List Event := List.replicate 4 .run ++ [.enqueue "r2" ["d"] 1]

/-- The two requests of the batch. -/
def pairedEnvelopes : List RequestEnvelope := [⟨"r0", ["a"], 1, 0, 0⟩, ⟨"r1", ["b", "c"], 1, 0, 1⟩]

/-- What the model returns for them. -/
def pairOutput : ModelOutput := ⟨[("ham", 1), ("spam", 1), ("ham", 1)], 0, 0, 0⟩

theorem failure_isolated_pair :
    ∃ returned raised,
      (machine pairs).step ((machine pairs).after (sample pairs pairRun) modelCallRun)
        (.resume (.modelReturns pairOutput)) = some returned ∧
      (machine pairs).step ((machine pairs).after (sample pairs pairRun) modelCallRun)
        (.resume .modelRaises) = some raised ∧
      (∃ events good bad, (machine pairs).Run returned events good ∧
        (machine pairs).Run raised events bad ∧
        good.loopTask = some .loopHead ∧ bad.loopTask = some .loopHead) ∧
      ∀ good bad,
        ((machine pairs).startingAt returned).ReachableBy InProcess good →
        good.point.processing = false →
        ((machine pairs).startingAt raised).ReachableBy InProcess bad →
        bad.point.processing = false →
        good.queue = bad.queue ∧ good.futures 2 = bad.futures 2 ∧
          bad.futures 0 = .exception inferenceFailed ∧
          bad.futures 1 = .exception inferenceFailed := by
  have hbatch : (sample pairs pairRun).loopTask = some (.processBatch pairedEnvelopes) := by
    decide +kernel
  have hprocessing : ∀ k < modelCallRun.length, ((machine pairs).after
      (sample pairs pairRun) (modelCallRun.take k)).point.processing = true := by
    decide +kernel
  have hmiddle : ((machine pairs).startingAt (sample pairs pairRun)).ReachableBy InProcess
      ((machine pairs).after (sample pairs pairRun) modelCallRun) :=
    Machine.reachableBy_after modelCallRun fun k hk _ => hprocessing k hk
  have hmodel : ((machine pairs).after (sample pairs pairRun) modelCallRun).loopTask =
      some (.awaitModel ⟨0, pairedEnvelopes, ["a", "b", "c"], [(0, 1), (1, 3)], 3⟩) := by
    decide +kernel
  have hcancel : ((machine pairs).after (sample pairs pairRun)
      modelCallRun).cancelRequested = false := by decide +kernel
  have hpending : ∀ envelope ∈ pairedEnvelopes,
      ((machine pairs).after (sample pairs pairRun) modelCallRun).done envelope = false := by
    decide +kernel
  obtain ⟨⟨returned, hreturned⟩, raised, hraised⟩ :=
    step_awaitModel pairs hmodel hcancel pairOutput
  obtain ⟨hreturns, hagree⟩ := failure_isolated (reachable_sample pairs pairRun) hbatch
    hmiddle hmodel hreturned hraised
  refine ⟨returned, raised, hreturned, hraised, hreturns, ?_⟩
  intro good bad hgood hgoodEnded hbad hbadEnded
  obtain ⟨_, _, _, hqueue, _, houtside, hfailed, _⟩ :=
    hagree good bad hgood hgoodEnded hbad hbadEnded
  have hfailedAll (envelope : RequestEnvelope) (hmem : envelope ∈ pairedEnvelopes) :
      bad.futures envelope.future = .exception inferenceFailed :=
    hfailed envelope hmem (hpending envelope hmem)
  exact ⟨hqueue, houtside 2 (by decide), hfailedAll ⟨"r0", ["a"], 1, 0, 0⟩ (by decide),
    hfailedAll ⟨"r1", ["b", "c"], 1, 0, 1⟩ (by decide)⟩

end Batcher
end ModelServer
