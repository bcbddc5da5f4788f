import ModelServer.Worker.Fifo

/-!
# What `close` leaves behind

`close` cancels the loop task where it is suspended.  Collecting a batch, the
loop task catches the cancellation, executes the batch and stops; anywhere else
it ends at once, and what is queued, held or being executed is never settled.

`Graceful` is the condition under which nothing is left behind: every pending
future belongs to the batch being collected.  `close_settles` says that it is
enough, over all runs, and that without it `close` can return with a pending
future.
-/

namespace ModelServer

open Asyncio Transition

namespace LoopPoint

/-- The batch being collected: the one that a cancellation lets through. -/
def collecting : LoopPoint → List RequestEnvelope
  | awaitNext batch _ _ => batch
  | _ => []

/-- The way of the last batch, if the model raises. -/
def windsDown : LoopPoint → Bool
  | processBatch _ | assemble .. | awaitModel _ | failBatch _ | loopHead | finished .returned =>
      true
  | _ => false

/-- How many steps there are left of it. -/
def remainingSteps : LoopPoint → ℕ
  | processBatch batch => 2 * batch.length + 5
  | assemble work todo => work.validBatch.length + 2 * todo.length + 4
  | awaitModel work => work.validBatch.length + 3
  | failBatch todo => todo.length + 2
  | loopHead => 1
  | _ => 0

end LoopPoint

namespace Batcher

open LoopPoint

variable {config : BatcherConfig}

/-- Every accepted future that is pending belongs to the batch being collected. -/
def Graceful (s : Batcher) : Prop :=
  ∀ envelope ∈ s.acceptedLine, s.done envelope = false → envelope ∈ s.point.collecting

instance (s : Batcher) : Decidable s.Graceful :=
  inferInstanceAs (Decidable (∀ envelope ∈ s.acceptedLine, _))

/-- `close` is called only where it is graceful. -/
def GracefulEvent (s : Batcher) : Event → Prop
  | .close => s.Graceful
  | _ => True

/-! ## A graceful `close` settles everything -/

/-- Once `close` has been called, a pending future belongs to a batch that will be
executed: no cancellation is under way, or one that lets the batch through. -/
def Rescued (s : Batcher) : Prop :=
  s.stopping = true → ∀ envelope ∈ s.acceptedLine, s.done envelope = false →
    envelope ∈ s.point.activeBatch ∧
      (s.cancelRequested = true → envelope ∈ s.point.collecting)

theorem activeBatch_of_collecting {point : LoopPoint} {envelope : RequestEnvelope}
    (h : envelope ∈ point.collecting) : envelope ∈ point.activeBatch := by
  cases point <;> simp_all [collecting, activeBatch, gathered]

theorem rescued_of_close {s next : Batcher} (hstep : Step config s .close next)
    (hgraceful : s.Graceful) : Rescued next := by
  intro _ envelope hmem hpending
  have hcollecting : envelope ∈ next.point.collecting := by
    cases hstep <;> exact hgraceful envelope hmem hpending
  exact ⟨activeBatch_of_collecting hcollecting, fun _ => hcollecting⟩

/-- A cancellation that is still under way has not reached the loop task. -/
theorem cancelRequested_of_step {s next : Batcher} {event : Event}
    (hstep : Step config s event next) (hclose : event ≠ .close)
    (hcancel : next.cancelRequested = true) :
    s.cancelRequested = true ∧ (next.point = s.point ∨ s.point.suspended = false) := by
  cases hstep
  case closeLive | closeIdle => exact absurd rfl hclose
  case tick | refuseStopping | refuseFull | acceptLive | cancelFuture | closeReturn =>
    exact ⟨hcancel, .inl rfl⟩
  case acceptIdle | cancelCreated | cancelFirst | cancelNext | cancelModel => cases hcancel
  case started hnone | itemFirst hnone _ | itemNext hnone _ | timeoutNext hnone
      | modelReturns hnone | modelRaises hnone =>
    exact absurd (hnone.symm.trans hcancel) Bool.false_ne_true
  all_goals
    have hrunning : s.point.suspended = false := by
      rw [@point_of_loopTask s _ ‹_›]
      rfl
    exact ⟨hcancel, .inr hrunning⟩

theorem collecting_of_not_suspended {point : LoopPoint} (h : point.suspended = false) :
    point.collecting = [] := by
  cases point with
  | awaitNext => cases h
  | _ => rfl

theorem rescued_of_step {s next : Batcher} {event : Event} (hstep : Step config s event next)
    (hline : Line s) (hevent : GracefulEvent s event) (h : Rescued s) :
    Rescued next := by
  by_cases hclose : event = .close
  · subst hclose
    exact rescued_of_close hstep hevent
  intro hstopping envelope hmem hpending
  have hbefore : s.stopping = true := by
    cases hstep <;> simp_all
  have haccepted : envelope ∈ s.acceptedLine :=
    acceptedLine_of_stopping hstep hbefore ▸ hmem
  have hold : s.done envelope = false := by
    by_contra hdone
    rw [Bool.not_eq_false] at hdone
    have := done_of_step hstep (hline.numbered envelope haccepted) hdone
    simp [hpending] at this
  obtain ⟨hactive, hcollecting⟩ := h hbefore envelope haccepted hold
  refine ⟨?_, fun hcancel => ?_⟩
  · rcases activeBatch_kept_of_step hstep hline.sliced hactive with
      hdone | hkept | ⟨hcancel, ⟨work, hpoint⟩, _⟩
    · rw [hpending] at hdone
      cases hdone
    · exact hkept
    · have hcollected := hcollecting hcancel
      rw [point_of_loopTask hpoint] at hcollected
      cases hcollected
  · obtain ⟨hearlier, hsame | hrunning⟩ := cancelRequested_of_step hstep hclose hcancel
    · rw [hsame]
      exact hcollecting hearlier
    · have hcollected := hcollecting hearlier
      rw [collecting_of_not_suspended hrunning] at hcollected
      cases hcollected

theorem rescued_of_reachable {s : Batcher}
    (hreach : (machine config).ReachableBy GracefulEvent s) : Rescued s := by
  apply hreach.invariant
  · rintro s ⟨now, rfl⟩
    exact nofun
  · intro s event next hbefore h hgraceful hevent
    exact rescued_of_step (step_cases hevent) (line_of_reachable hbefore.reachable) hgraceful h

/-- With the loop task gone, nothing is being executed. -/
theorem activeBatch_of_not_live {s : Batcher} (hlive : s.loopLive = false) :
    s.point.activeBatch = [] := by
  obtain ⟨_, hgathered, hexecuting⟩ := inHand_of_not_live hlive
  rw [activeBatch, hgathered, hexecuting, List.append_nil]

theorem settled_of_graceful {s : Batcher}
    (hreach : (machine config).ReachableBy GracefulEvent s) (hclosed : s.closed = true) :
    ∀ envelope ∈ s.acceptedLine, s.done envelope = true := by
  intro envelope hmem
  have hclosing := closing_of_reachable hreach.reachable
  obtain ⟨hstopping, hlive⟩ := hclosing.down (hclosing.closed hclosed)
  by_contra hdone
  rw [Bool.not_eq_true] at hdone
  have hactive := (rescued_of_reachable hreach hstopping envelope hmem hdone).1
  rw [activeBatch_of_not_live hlive] at hactive
  exact List.not_mem_nil hactive

/-! ## Otherwise `close` can return with a pending future

The batch that was being collected is executed; the model raises, so that the run is
short.  The futures of other envelopes are not touched. -/

/-- The loop task executes its last batch, which `spared` does not belong to. -/
structure WindingDown (spared : RequestEnvelope) (s : Batcher) : Prop where
  stopping : s.stopping = true
  cancel : s.cancelRequested = false
  place : s.point.windsDown = true
  apart : ∀ envelope ∈ s.point.activeBatch, spared.future ≠ envelope.future

/-- What the last batch leaves as it is. -/
def Untouched (spared : RequestEnvelope) (s next : Batcher) : Prop :=
  next.acceptedLine = s.acceptedLine ∧ next.closers = s.closers ∧ next.done spared = s.done spared

/-- The event that takes the last batch on. -/
def lastEvent (s : Batcher) : Event :=
  match s.point with
  | .awaitModel _ => .resume .modelRaises
  | _ => .run

theorem lastEvent_eq (s : Batcher) :
    s.lastEvent = .run ∨ s.lastEvent = .resume .modelRaises := by
  unfold lastEvent
  split
  · exact .inr rfl
  · exact .inl rfl

theorem windDown_of_step {spared : RequestEnvelope} {s next : Batcher}
    (hstep : Step config s s.lastEvent next) (h : WindingDown spared s) :
    WindingDown spared next ∧ Untouched spared s next ∧
      next.point.remainingSteps < s.point.remainingSteps := by
  obtain ⟨hstopping, hcancel, hplace, hapart⟩ := h
  have haccepted := acceptedLine_of_stopping hstep hstopping
  rcases lastEvent_eq s with hrun | hraises
  · rw [hrun] at hstep
    cases hstep
    case takeHeld hopen _ | takeQueued hopen _ _ | waitFirst hopen _ _ =>
      simp [hstopping] at hopen
    case beginProcess hpoint | skipMember hpoint _ | expireMember hpoint _ _
        | admitMember hpoint _ _ | nothingValid hpoint _ | executorDown hpoint _ _
        | submit hpoint _ _ | skipFailed hpoint _ | failMember hpoint _ | failedAll hpoint
        | stop hpoint _ =>
      rw [point_of_loopTask hpoint] at hapart ⊢
      refine ⟨⟨hstopping, hcancel, rfl, ?_⟩, ⟨haccepted, rfl, ?_⟩, ?_⟩
      · intro envelope hmem
        apply hapart
        simp only [activeBatch, gathered, executing, point_goto, point_settle, List.mem_append,
          List.mem_cons, List.not_mem_nil] at hmem ⊢
        tauto
      · first
        | rfl
        | refine (done_settle ..).trans (if_neg (hapart _ ?_))
          simp [activeBatch, gathered, executing]
      · simp only [remainingSteps, point_goto, point_settle, List.length_append, List.length_cons,
          List.length_nil]
        omega
    all_goals
      rw [@point_of_loopTask s _ ‹_›] at hplace
      cases hplace
  · rw [hraises] at hstep
    cases hstep
    case modelRaises hpoint _ =>
      rw [point_of_loopTask hpoint] at hapart ⊢
      exact ⟨⟨hstopping, hcancel, rfl, hapart⟩, ⟨haccepted, rfl, rfl⟩, Nat.lt_succ_self _⟩

theorem step_lastEvent {spared : RequestEnvelope} {s : Batcher} (h : WindingDown spared s)
    (hend : s.loopTask ≠ some (.finished .returned)) :
    ∃ next, s.step config s.lastEvent = some next := by
  have hplace := h.place
  have hcancel := h.cancel
  cases hpoint : s.loopTask with
  | none => simp [point, hpoint, windsDown] at hplace
  | some place =>
      rw [point_of_loopTask hpoint] at hplace
      cases place <;>
        simp_all [step, lastEvent, point, windsDown, resume, LoopPoint.suspended]

/-- The last batch can be executed to its end, and then the loop task returns. -/
theorem exists_windDown {spared : RequestEnvelope} {s : Batcher} (h : WindingDown spared s) :
    ∃ events last, Event.close ∉ events ∧ (machine config).Run s events last ∧
      last.loopTask = some (.finished .returned) ∧ Untouched spared s last := by
  induction hsteps : s.point.remainingSteps using Nat.strong_induction_on generalizing s with
  | _ steps ih =>
      by_cases hend : s.loopTask = some (.finished .returned)
      · exact ⟨[], s, List.not_mem_nil, by simp, hend, rfl, rfl, rfl⟩
      · obtain ⟨next, hnext⟩ : ∃ next, s.step config s.lastEvent = some next :=
          step_lastEvent h hend
        obtain ⟨hwinding, huntouched, hless⟩ := windDown_of_step (step_cases hnext) h
        obtain ⟨events, last, hclose, hrun, hlast, hrest⟩ :=
          ih next.point.remainingSteps (hsteps ▸ hless) hwinding rfl
        refine ⟨s.lastEvent :: events, last, ?_, .cons hnext hrun, hlast,
          hrest.1.trans huntouched.1, hrest.2.1.trans huntouched.2.1,
          hrest.2.2.trans huntouched.2.2⟩
        rw [List.mem_cons, not_or]
        refine ⟨?_, hclose⟩
        unfold lastEvent
        split <;> simp

/-- Once the loop task has ended, `close` returns, and settles nothing. -/
theorem exists_closeReturn {s last : Batcher} {envelope : RequestEnvelope} {events : List Event}
    {how : LoopEnd} (hclose : Event.close ∉ events)
    (hrun : (machine config).Run s (.close :: events) last)
    (hpoint : last.loopTask = some (.finished how)) (hsound : how ≠ .invalidState)
    (hclosers : 0 < last.closers) (hmem : envelope ∈ last.acceptedLine)
    (hpending : last.done envelope = false) :
    ∃ events last, Event.close ∉ events ∧ (machine config).Run s (.close :: events) last ∧
      last.closed = true ∧ ∃ envelope ∈ last.acceptedLine, last.done envelope = false := by
  have hreturn : last.step config .closeReturn = some last.closeReturn := by
    cases how with
    | returned | cancelled => simp [step, hpoint, hclosers]
    | invalidState => exact absurd rfl hsound
  refine ⟨events ++ [.closeReturn], last.closeReturn, by simp [hclose], ?_, rfl, envelope, hmem,
    hpending⟩
  rw [← List.cons_append]
  exact hrun.append (Machine.run_singleton_iff.mpr hreturn)

/-- An envelope that is not in the batch being collected has a future of its own. -/
theorem future_ne_of_gathered {s : Batcher} (hline : Line s) {envelope member : RequestEnvelope}
    (hmem : envelope ∈ s.acceptedLine) (hgathered : member ∈ s.point.gathered)
    (hapart : envelope ∉ s.point.gathered) : envelope.future ≠ member.future := by
  intro heq
  obtain ⟨placed, hdequeued, hsub⟩ := hline.placed
  have hmember : member ∈ s.acceptedLine := by
    rw [hline.line, hdequeued]
    have := hsub.subset (List.mem_append_right _ hgathered)
    simp [this]
  exact hapart (List.inj_on_of_nodup_map hline.distinct hmem hmember heq ▸ hgathered)

/-- Where the cancellation is not caught, it ends the loop task. -/
theorem exists_cancelled {s : Batcher} {point : LoopPoint} (hpoint : s.loopTask = some point)
    (hsuspended : point.suspended = true) (hcancel : s.cancelRequested = true)
    (hlive : s.loopLive = true) (hcatch : ∀ batch totalItems timer,
      point ≠ .awaitNext batch totalItems timer) :
    ∃ how, how ≠ LoopEnd.invalidState ∧ s.step config (.resume .cancelled) =
      some ({ s with cancelRequested := false }.goto (.finished how)) := by
  cases point with
  | created => exact ⟨.cancelled, by simp, by simp [step, hpoint, resume, hcancel]⟩
  | awaitFirst => exact ⟨.returned, by simp, by simp [step, hpoint, resume, hcancel]⟩
  | awaitModel work => exact ⟨.cancelled, by simp, by simp [step, hpoint, resume, hcancel]⟩
  | awaitNext batch totalItems timer => exact absurd rfl (hcatch _ _ _)
  | finished how => simp [loopLive, hpoint] at hlive
  | _ => simp [LoopPoint.suspended] at hsuspended

theorem pending_of_not_graceful {s : Batcher} (hreach : (machine config).Reachable s)
    (hidle : s.idle = true) (h : ¬ s.Graceful) :
    ∃ events last, Event.close ∉ events ∧ (machine config).Run s (.close :: events) last ∧
      last.closed = true ∧ ∃ envelope ∈ last.acceptedLine, last.done envelope = false := by
  simp only [Graceful, not_forall] at h
  obtain ⟨envelope, hmem, hpending, hcollecting⟩ := h
  have hclose : (machine config).step s .close = some s.close := by simp [machine, step, hidle]
  cases hlive : s.loopLive with
  | false =>
      rw [close, if_neg (by simp [hlive])] at hclose
      exact ⟨[], _, List.not_mem_nil, Machine.run_singleton_iff.mpr hclose, rfl, envelope, hmem,
        hpending⟩
  | true =>
      rw [close, if_pos hlive] at hclose
      obtain ⟨place, hplace⟩ : ∃ place, s.loopTask = some place := by
        cases htask : s.loopTask <;> simp_all [loopLive]
      have hsuspended : place.suspended = true := by
        simpa [point_of_loopTask hplace] using suspended_of_idle hidle
      set closing : Batcher :=
        { s with stopping := true, cancelRequested := true, closers := s.closers + 1 }
      have htask : closing.loopTask = some place := hplace
      by_cases hcatch : ∀ batch totalItems timer, place ≠ .awaitNext batch totalItems timer
      · obtain ⟨how, hsound, hcancelled⟩ : ∃ how, how ≠ LoopEnd.invalidState ∧
            closing.step config (.resume .cancelled) =
              some ({ closing with cancelRequested := false }.goto (.finished how)) :=
          exists_cancelled htask hsuspended rfl hlive hcatch
        have hrun : (machine config).Run s (.close :: [.resume .cancelled])
            ({ closing with cancelRequested := false }.goto (.finished how)) :=
          Machine.run_cons_iff.mpr ⟨closing, hclose, Machine.run_singleton_iff.mpr hcancelled⟩
        exact exists_closeReturn (by simp) hrun rfl hsound (Nat.succ_pos _) hmem hpending
      · push Not at hcatch
        obtain ⟨batch, totalItems, timer, rfl⟩ := hcatch
        have hpoint := point_of_loopTask hplace
        set winding : Batcher :=
          { closing with cancelRequested := false }.goto (.processBatch batch)
        have hcancelled : closing.step config (.resume .cancelled) = some winding := by
          rw [step, htask]
          rfl
        -- `envelope` does not belong to the batch, so it keeps its pending future
        have hwinding : WindingDown envelope winding := by
          refine ⟨rfl, rfl, rfl, fun member hmember => ?_⟩
          have hgathered : s.point.gathered = batch := by rw [hpoint, gathered]
          have hapart : envelope ∉ s.point.gathered := by
            rwa [hpoint] at hcollecting ⊢
          refine future_ne_of_gathered (line_of_reachable hreach) hmem ?_ hapart
          rw [hgathered]
          simpa [winding, point, activeBatch, gathered, executing] using hmember
        obtain ⟨events, last, hnoclose, hrun, hlast, haccepted, hclosers, hdone⟩ :
            ∃ events last, Event.close ∉ events ∧ (machine config).Run winding events last ∧
              last.loopTask = some (.finished .returned) ∧ Untouched envelope winding last :=
          exists_windDown hwinding
        have hclosed : (machine config).Run s (.close :: .resume .cancelled :: events) last :=
          Machine.run_cons_iff.mpr ⟨closing, hclose,
            Machine.run_cons_iff.mpr ⟨winding, hcancelled, hrun⟩⟩
        have hwaiting : 0 < last.closers := by
          rw [hclosers]
          exact Nat.succ_pos _
        exact exists_closeReturn (by simp [hnoclose]) hclosed hlast (by simp) hwaiting
          (haccepted ▸ hmem) (hdone.trans hpending)

/-- **What `close` settles.**  In every run in which each `close` is graceful, every
accepted future is done once a `close` has returned; and wherever `close` would not be
graceful, it can be called, and no other `close` after it, and return with a pending
future. -/
theorem close_settles (config : BatcherConfig) :
    (∀ s, (machine config).ReachableBy GracefulEvent s → s.closed = true →
      ∀ envelope ∈ s.acceptedLine, s.done envelope = true) ∧
    ∀ s, (machine config).Reachable s → s.idle = true → ¬ s.Graceful →
      ∃ events last, Event.close ∉ events ∧ (machine config).Run s (.close :: events) last ∧
        last.closed = true ∧ ∃ envelope ∈ last.acceptedLine, last.done envelope = false :=
  ⟨fun _ => settled_of_graceful, fun _ => pending_of_not_graceful⟩

/-- One request has been taken into a batch that is still being collected. -/
def collectingRun : List Event :=
  [.enqueue "r0" ["a"] 1, .resume .started] ++ List.replicate 4 .run

/-- The batch is executed, and the loop task and `close` return. -/
def closingRun : List Event :=
  [.resume .cancelled] ++ List.replicate 3 .run
    ++ [.resume (.modelReturns ⟨[("ham", 1)], 0, 0, 0⟩)] ++ List.replicate 3 .run ++ [.closeReturn]

theorem close_settles_collecting :
    let s := (machine {}).after (sample {} collectingRun).close closingRun
    s.closed = true ∧ s.acceptedLine.length = 1 ∧
      ∀ envelope ∈ s.acceptedLine, s.done envelope = true := by
  have hcollecting : (machine {}).ReachableBy GracefulEvent (sample {} collectingRun) :=
    reachableBy_sample _ _ (by simp [collectingRun, GracefulEvent])
  have hgraceful : GracefulEvent (sample {} collectingRun) .close := by
    show Graceful _
    decide +kernel
  have hclose : (sample {} collectingRun).step {} .close = some (sample {} collectingRun).close :=
    if_pos (by decide +kernel)
  have hclosing := (hcollecting.step hgraceful hclose).after closingRun
    (by simp [closingRun, GracefulEvent])
  exact ⟨by decide +kernel, by decide +kernel,
    (close_settles {}).1 _ hclosing (by decide +kernel)⟩

/-- The same request, with `close` called while the model is running. -/
def abandonedRun : List Event :=
  collectingRun ++ [.resume .timeout] ++ List.replicate 3 .run
    ++ [.close, .resume .cancelled, .closeReturn]

/-- `close` returns with the request pending. -/
theorem close_abandons_request :
    ¬ ∀ s, (machine {}).Reachable s → s.closed = true →
      ∀ envelope ∈ s.acceptedLine, s.done envelope = true := by
  intro hsettles
  have hdone := hsettles (sample {} abandonedRun) (reachable_sample _ _) (by decide +kernel)
  have hpending : ¬ ∀ envelope ∈ (sample {} abandonedRun).acceptedLine,
      (sample {} abandonedRun).done envelope = true := by decide +kernel
  exact hpending hdone

end Batcher
end ModelServer
