import Mathlib.Data.List.Nodup
import ModelServer.Worker.Steps

/-!
# The batcher is a lossless FIFO

An envelope moves from the queue through the slot `_next_envelope` or directly
into the batch being collected, from there into `valid_batch`, and leaves when
its future is settled.  `Line` says where every accepted envelope is:

* `line`: what was accepted has left the queue, in this order, or is still in it;
* `placed`: of what left the queue, at most the last envelope is held or being
  checked; the members of the model calls so far, followed by those of the batch
  being collected, are a subsequence of the rest;
* `settled`: before `close`, an envelope that left the queue and is neither held
  nor in the active batch has a done future.

Each is preserved by every branch of `Step`; `fifo_lossless` reads them off at
the suspension points.
-/

namespace ModelServer

/-! ## Which envelopes the loop task has in hand -/

namespace LoopPoint

/-- The envelope that has just left the queue or the slot and is still being checked. -/
def arriving : LoopPoint → List RequestEnvelope
  | checkFirst first | openBatch first => [first]
  | checkNext _ _ _ envelope => [envelope]
  | _ => []

/-- The members of the batch that has not been handed to the model yet. -/
def gathered : LoopPoint → List RequestEnvelope
  | collect batch _ _ | awaitNext batch _ _ | checkNext batch _ _ _ | processBatch batch => batch
  | assemble work todo => work.validBatch ++ todo
  | _ => []

/-- The members of the batch handed to the model whose futures are still to be settled. -/
def executing : LoopPoint → List RequestEnvelope
  | awaitModel work => work.validBatch
  | failBatch todo => todo
  | deliver _ _ _ todo => todo.map Prod.fst
  | _ => []

/-- The batch now being collected or executed. -/
def activeBatch (point : LoopPoint) : List RequestEnvelope :=
  point.gathered ++ point.executing

/-- Where a batch is being started or collected, the slot `_next_envelope` is empty. -/
def needsSlot : LoopPoint → Bool
  | awaitFirst | checkFirst _ | openBatch _ | collect .. | awaitNext .. | checkNext .. => true
  | _ => false

/-- One slice for each member of `valid_batch`. -/
def Sliced : LoopPoint → Prop
  | assemble work _ | awaitModel work => work.slices.length = work.validBatch.length
  | _ => True

end LoopPoint

/-! ## What the log says -/

namespace Observation

def acceptedEnvelope : Observation → Option RequestEnvelope
  | accepted envelope => some envelope
  | _ => none

def dequeuedEnvelope : Observation → Option RequestEnvelope
  | dequeued envelope => some envelope
  | _ => none

def calledMembers : Observation → Option (List RequestEnvelope)
  | modelCall members _ => some members
  | _ => none

end Observation

namespace Batcher

open Asyncio LoopPoint

variable {config : BatcherConfig}

/-- The envelopes `enqueue` accepted, in this order. -/
def acceptedLine (s : Batcher) : List RequestEnvelope :=
  s.log.filterMap Observation.acceptedEnvelope

/-- The envelopes that left the queue, in this order. -/
def dequeuedLine (s : Batcher) : List RequestEnvelope :=
  s.log.filterMap Observation.dequeuedEnvelope

/-- The members of the successive model calls. -/
def modelCalls (s : Batcher) : List (List RequestEnvelope) :=
  s.log.filterMap Observation.calledMembers

/-- Where the loop task stands; a task that does not exist has not started. -/
def point (s : Batcher) : LoopPoint := s.loopTask.getD .created

/-- What left the queue and may still have a pending future. -/
def unsettled (s : Batcher) : List RequestEnvelope :=
  s.nextEnvelope.toList ++ (s.point.arriving ++ s.point.activeBatch)

theorem point_of_loopTask {s : Batcher} {point : LoopPoint} (h : s.loopTask = some point) :
    s.point = point := by
  simp [Batcher.point, h]

theorem suspended_of_idle {s : Batcher} (hidle : s.idle = true) : s.point.suspended = true := by
  unfold idle at hidle
  split at hidle
  · simp [point, *, LoopPoint.suspended]
  · rwa [point_of_loopTask ‹_›]

@[simp] theorem point_goto (s : Batcher) (point : LoopPoint) : (s.goto point).point = point := rfl

@[simp] theorem point_settle (s : Batcher) (envelope : RequestEnvelope)
    (future : Future BatcherResult AppError) (observation : Observation) (point : LoopPoint) :
    (s.settle envelope future observation point).point = point := rfl

@[simp] theorem point_dequeue (s : Batcher) (envelope : RequestEnvelope)
    (rest : List RequestEnvelope) (point : LoopPoint) :
    (s.dequeue envelope rest point).point = point := rfl

/-- Without a live loop task nothing is in hand. -/
theorem inHand_of_not_live {s : Batcher} (hlive : s.loopLive = false) :
    s.point.arriving = [] ∧ s.point.gathered = [] ∧ s.point.executing = [] := by
  rcases loopLive_eq_false_iff.mp hlive with h | ⟨how, h⟩ <;>
    simp [point, h, arriving, gathered, executing]

theorem arriving_of_not_needsSlot {point : LoopPoint} (h : point.needsSlot ≠ true) :
    point.arriving = [] := by
  cases point with
  | checkFirst _ | openBatch _ | checkNext _ _ _ _ => exact absurd rfl h
  | _ => rfl

/-! ## What a step does to the line -/

/-- An envelope joins the line at its end, it leaves the queue at its head and is
checked next, or everything stays where it is. -/
inductive LineStep (s : Batcher) : Event → Batcher → Prop
  | keeps {event : Event} {next : Batcher} (haccepted : next.acceptedLine = s.acceptedLine)
      (hdequeued : next.dequeuedLine = s.dequeuedLine)
      (hitems : next.queue.items = s.queue.items) (hfuture : s.nextFuture ≤ next.nextFuture) :
      LineStep s event next
  | accepts {requestId : String} {inputs : List String} {localDeadline : Time} {next : Batcher}
      (haccepted : next.acceptedLine =
        s.acceptedLine ++ [s.newEnvelope requestId inputs localDeadline])
      (hdequeued : next.dequeuedLine = s.dequeuedLine)
      (hitems : next.queue.items =
        s.queue.items ++ [s.newEnvelope requestId inputs localDeadline])
      (hfuture : next.nextFuture = s.nextFuture + 1) (hstopping : s.stopping = false) :
      LineStep s (.enqueue requestId inputs localDeadline) next
  | dequeues {event : Event} {next : Batcher} {envelope : RequestEnvelope}
      (haccepted : next.acceptedLine = s.acceptedLine)
      (hdequeued : next.dequeuedLine = s.dequeuedLine ++ [envelope])
      (hitems : s.queue.items = envelope :: next.queue.items)
      (hfuture : next.nextFuture = s.nextFuture) (harriving : next.point.arriving = [envelope]) :
      LineStep s event next

theorem lineStep_of_step {s next : Batcher} {event : Event} (hstep : Step config s event next) :
    LineStep s event next := by
  cases hstep
  case refuseFull => exact .keeps rfl rfl rfl (Nat.le_succ _)
  case acceptLive hstopping _ _ | acceptIdle hstopping _ _ =>
    exact .accepts (by simp [acceptedLine, Observation.acceptedEnvelope])
      (by simp [dequeuedLine, Observation.dequeuedEnvelope, List.filterMap_cons]) rfl rfl hstopping
  case itemFirst hitems | itemNext hitems | takeQueued hitems | takeNext hitems =>
    exact .dequeues (by simp [acceptedLine, Observation.acceptedEnvelope, List.filterMap_cons])
      (by simp [dequeuedLine, Observation.dequeuedEnvelope]) hitems rfl rfl
  case modelReturns | modelRaises | expireFirst | expireNext | expireMember | admitMember | submit
      | failMember | lateDelivery | deliverResult =>
    exact .keeps (by simp [acceptedLine, Observation.acceptedEnvelope, List.filterMap_cons])
      (by simp [dequeuedLine, Observation.dequeuedEnvelope, List.filterMap_cons]) rfl le_rfl
  all_goals exact .keeps rfl rfl rfl le_rfl

/-- `enqueue` is the only step that accepts anything. -/
theorem acceptedLine_of_step {s next : Batcher} {event : Event}
    (hstep : Step config s event next) :
    next.acceptedLine = s.acceptedLine ∧ s.nextFuture ≤ next.nextFuture ∨
      ∃ envelope, next.acceptedLine = s.acceptedLine ++ [envelope] ∧
        envelope.future = s.nextFuture ∧ next.nextFuture = s.nextFuture + 1 ∧
        s.stopping = false := by
  cases lineStep_of_step hstep with
  | keeps haccepted _ _ hfuture => exact .inl ⟨haccepted, hfuture⟩
  | accepts haccepted _ _ hfuture hstopping =>
      exact .inr ⟨_, haccepted, rfl, hfuture, hstopping⟩
  | dequeues haccepted _ _ hfuture _ => exact .inl ⟨haccepted, hfuture.ge⟩

/-- What `enqueue` accepts is the envelope it has just made. -/
theorem enqueued_of_step {s next : Batcher} {event : Event} (hstep : Step config s event next) :
    next.acceptedLine = s.acceptedLine ∨ ∃ requestId inputs localDeadline,
      event = .enqueue requestId inputs localDeadline ∧
        next.acceptedLine = s.acceptedLine ++ [s.newEnvelope requestId inputs localDeadline] := by
  cases lineStep_of_step hstep with
  | keeps haccepted _ _ _ | dequeues haccepted _ _ _ _ => exact .inl haccepted
  | accepts haccepted _ _ _ _ => exact .inr ⟨_, _, _, rfl, haccepted⟩

theorem acceptedLine_of_stopping {s next : Batcher} {event : Event}
    (hstep : Step config s event next) (hstopping : s.stopping = true) :
    next.acceptedLine = s.acceptedLine := by
  rcases acceptedLine_of_step hstep with ⟨hsame, _⟩ | ⟨_, _, _, _, hopen⟩
  · exact hsame
  · simp [hstopping] at hopen

/-- The only envelope a step takes from the queue is the one it goes on to check. -/
theorem dequeuedLine_of_step {s next : Batcher} {event : Event}
    (hstep : Step config s event next) :
    next.dequeuedLine = s.dequeuedLine ∨
      ∃ envelope, next.dequeuedLine = s.dequeuedLine ++ [envelope] ∧
        next.point.arriving = [envelope] := by
  cases lineStep_of_step hstep with
  | keeps _ hdequeued _ _ | accepts _ hdequeued _ _ _ => exact .inl hdequeued
  | dequeues _ hdequeued _ _ harriving => exact .inr ⟨_, hdequeued, harriving⟩

/-! ## The line -/

/-- Where every accepted envelope is. -/
structure Line (s : Batcher) : Prop where
  line : s.acceptedLine = s.dequeuedLine ++ s.queue.items
  numbered : ∀ envelope ∈ s.acceptedLine, envelope.future < s.nextFuture
  distinct : (s.acceptedLine.map RequestEnvelope.future).Nodup
  placed : ∃ placed, s.dequeuedLine = placed ++ (s.point.arriving ++ s.nextEnvelope.toList) ∧
    (s.modelCalls.flatten ++ s.point.gathered).Sublist placed
  slot : s.point.needsSlot = true → s.nextEnvelope = none
  sliced : s.point.Sliced
  settled : s.stopping = false →
    ∀ envelope ∈ s.dequeuedLine, s.done envelope = true ∨ envelope ∈ s.unsettled

theorem line_of_step {s next : Batcher} {event : Event} (hstep : Step config s event next)
    (hline : s.acceptedLine = s.dequeuedLine ++ s.queue.items) :
    next.acceptedLine = next.dequeuedLine ++ next.queue.items := by
  cases lineStep_of_step hstep with
  | keeps haccepted hdequeued hitems _ => rw [haccepted, hdequeued, hitems, hline]
  | accepts haccepted hdequeued hitems _ _ =>
      rw [haccepted, hdequeued, hitems, hline, List.append_assoc]
  | dequeues haccepted hdequeued hitems _ _ =>
      rw [haccepted, hdequeued, hline, hitems, List.append_assoc, List.singleton_append]

theorem numbered_of_step {s next : Batcher} {event : Event} (hstep : Step config s event next)
    (hnumbered : ∀ envelope ∈ s.acceptedLine, envelope.future < s.nextFuture) :
    ∀ envelope ∈ next.acceptedLine, envelope.future < next.nextFuture := by
  intro envelope hmem
  rcases acceptedLine_of_step hstep with ⟨hsame, hle⟩ | ⟨new, hnew, hfuture, hnext, _⟩
  · exact (hnumbered envelope (hsame ▸ hmem)).trans_le hle
  · rw [hnew, List.mem_append, List.mem_singleton] at hmem
    rcases hmem with hold | rfl
    · have := hnumbered envelope hold
      omega
    · omega

theorem distinct_of_step {s next : Batcher} {event : Event} (hstep : Step config s event next)
    (hnumbered : ∀ envelope ∈ s.acceptedLine, envelope.future < s.nextFuture)
    (hdistinct : (s.acceptedLine.map RequestEnvelope.future).Nodup) :
    (next.acceptedLine.map RequestEnvelope.future).Nodup := by
  rcases acceptedLine_of_step hstep with ⟨hsame, _⟩ | ⟨new, hnew, hfuture, _⟩
  · rwa [hsame]
  · rw [hnew, List.map_append, List.map_singleton]
    refine List.Nodup.append hdistinct (List.nodup_singleton _) ?_
    intro future hold hlast
    obtain ⟨envelope, hmem, rfl⟩ := List.mem_map.mp hold
    have := hnumbered envelope hmem
    rw [List.mem_singleton] at hlast
    omega

theorem slot_of_step {s next : Batcher} {event : Event} (hstep : Step config s event next)
    (hslot : s.point.needsSlot = true → s.nextEnvelope = none) :
    next.point.needsSlot = true → next.nextEnvelope = none := by
  cases hstep
  all_goals simp_all [point, needsSlot]

theorem sliced_of_step {s next : Batcher} {event : Event} (hstep : Step config s event next)
    (hsliced : s.point.Sliced) : next.point.Sliced := by
  cases hstep
  all_goals simp_all [point, Sliced]

/-! ## What a step does to the envelopes in hand -/

/-- Between the queue and a batch an envelope stays, is let go, or has just left the queue. -/
theorem hand_of_step {s next : Batcher} {event : Event} (hstep : Step config s event next)
    (hslot : s.point.needsSlot = true → s.nextEnvelope = none) :
    next.dequeuedLine = s.dequeuedLine ∧
        (next.point.arriving ++ next.nextEnvelope.toList =
            s.point.arriving ++ s.nextEnvelope.toList ∨
          next.point.arriving ++ next.nextEnvelope.toList = []) ∨
      ∃ envelope, next.dequeuedLine = s.dequeuedLine ++ [envelope] ∧
        next.point.arriving ++ next.nextEnvelope.toList = [envelope] := by
  have hnext := slot_of_step hstep hslot
  rcases dequeuedLine_of_step hstep with hsame | ⟨envelope, hdequeued, harriving⟩
  · refine .inl ⟨hsame, ?_⟩
    cases hstep
    case itemFirst | itemNext | takeQueued | takeNext =>
      simp [dequeuedLine, Observation.dequeuedEnvelope] at hsame
    case acceptIdle hlive =>
      left
      rw [(inHand_of_not_live hlive).1]
      rfl
    case holdNext hpoint _ _ _ =>
      left
      rw [point_of_loopTask hpoint] at hslot ⊢
      rw [hslot rfl]
      rfl
    case skipFirst hpoint _ | expireFirst hpoint _ _ | openBatch hpoint | skipNext hpoint _
        | expireNext hpoint _ _ | joinNext hpoint _ _ _ =>
      right
      rw [point_of_loopTask hpoint] at hslot
      exact congrArg Option.toList (hslot rfl)
    case takeHeld hpoint _ hheld =>
      left
      rw [point_of_loopTask hpoint, hheld]
      rfl
    all_goals
      left
      first | rfl | rw [@point_of_loopTask s _ ‹_›]; rfl
  · have hnone : next.nextEnvelope = none := by
      apply hnext
      by_contra hneeds
      simp [arriving_of_not_needsSlot hneeds] at harriving
    refine .inr ⟨envelope, hdequeued, ?_⟩
    rw [harriving, hnone]
    rfl

theorem modelCalls_of_step {s next : Batcher} {event : Event} (hstep : Step config s event next) :
    next.modelCalls = s.modelCalls ∨ ∃ work, s.point = .assemble work [] ∧
      next.point = .awaitModel work ∧ next.modelCalls = s.modelCalls ++ [work.validBatch] := by
  cases hstep
  case submit work hpoint _ _ =>
    refine .inr ⟨work, point_of_loopTask hpoint, rfl, ?_⟩
    simp [modelCalls, Observation.calledMembers]
  case acceptLive | acceptIdle | itemFirst | itemNext | takeQueued | takeNext | modelReturns
      | modelRaises | expireFirst | expireNext | expireMember | admitMember | failMember
      | lateDelivery | deliverResult =>
    left
    simp [modelCalls, Observation.calledMembers, List.filterMap_cons]
  all_goals exact .inl rfl

/-- An envelope that is being checked joins the batch, or the batch gets no larger. -/
theorem gathered_of_step {s next : Batcher} {event : Event} (hstep : Step config s event next) :
    next.point.gathered.Sublist s.point.gathered ∨
      ∃ envelope, s.point.arriving = [envelope] ∧ next.point.arriving = [] ∧
        s.point.needsSlot = true ∧ next.nextEnvelope = s.nextEnvelope ∧
        next.point.gathered = s.point.gathered ++ [envelope] := by
  cases hstep
  case openBatch first hpoint =>
    rw [point_of_loopTask hpoint]
    exact .inr ⟨first, rfl, rfl, rfl, rfl, rfl⟩
  case joinNext batch total timer envelope hpoint _ _ _ =>
    rw [point_of_loopTask hpoint]
    exact .inr ⟨envelope, rfl, rfl, rfl, rfl, rfl⟩
  case acceptIdle => exact .inl (List.nil_sublist _)
  case skipMember hpoint _ | expireMember hpoint _ _ =>
    rw [point_of_loopTask hpoint]
    left
    exact (List.Sublist.refl _).append (List.sublist_cons_self _ _)
  case admitMember work envelope todo hpoint _ _ =>
    rw [point_of_loopTask hpoint]
    left
    simp [gathered]
  all_goals
    left
    first
    | exact List.Sublist.refl _
    | rw [@point_of_loopTask s _ ‹_›]; exact List.nil_sublist _
    | rw [@point_of_loopTask s _ ‹_›]; exact List.Sublist.refl _

/-- A batch is opened by one envelope and joined by others, and else it only gets smaller. -/
theorem activeBatch_of_step {s next : Batcher} {event : Event} (hstep : Step config s event next)
    (hsliced : s.point.Sliced) :
    next.point.activeBatch.Sublist s.point.activeBatch ∨
      (∃ first, s.point = .openBatch first ∧ next.point.activeBatch = [first]) ∨
      ∃ batch total timer envelope, s.point = .checkNext batch total timer envelope ∧
        (total + envelope.inputs.length : ℤ) ≤ config.maxBatchItems ∧
        next.point.activeBatch = batch ++ [envelope] := by
  cases hstep
  case acceptIdle => exact .inl (List.nil_sublist _)
  case openBatch first hpoint => exact .inr (.inl ⟨first, point_of_loopTask hpoint, rfl⟩)
  case joinNext batch total timer envelope hpoint _ _ hfits =>
    have hgathered : (collect (batch ++ [envelope]) (total + envelope.inputs.length)
        timer).activeBatch = batch ++ [envelope] := List.append_nil _
    exact .inr (.inr ⟨batch, total, timer, envelope, point_of_loopTask hpoint, hfits, hgathered⟩)
  case modelReturns work output hpoint _ =>
    left
    rw [point_of_loopTask hpoint] at hsliced ⊢
    have hmembers : (work.validBatch.zip work.slices).map Prod.fst = work.validBatch :=
      List.map_fst_zip (Eq.ge hsliced)
    simp [activeBatch, gathered, executing, hmembers]
  all_goals
    left
    simp_all [point, activeBatch, gathered, executing]

/-- The members of the batch are handed to the model, or they are gathered. -/
theorem executed_of_step {s next : Batcher} {event : Event} (hstep : Step config s event next) :
    (next.modelCalls.flatten ++ next.point.gathered).Sublist
        (s.modelCalls.flatten ++ s.point.gathered) ∨
      ∃ envelope, s.point.arriving = [envelope] ∧ next.point.arriving = [] ∧
        s.point.needsSlot = true ∧ next.nextEnvelope = s.nextEnvelope ∧
        next.modelCalls.flatten ++ next.point.gathered =
          s.modelCalls.flatten ++ s.point.gathered ++ [envelope] := by
  rcases modelCalls_of_step hstep with hcalls | ⟨work, hpoint, hnext, hcalls⟩
  · rw [hcalls]
    rcases gathered_of_step hstep with
      hless | ⟨envelope, harriving, hnone, hneeds, hheld, hjoined⟩
    · exact .inl ((List.Sublist.refl _).append hless)
    · rw [hjoined, ← List.append_assoc]
      exact .inr ⟨envelope, harriving, hnone, hneeds, hheld, rfl⟩
  · left
    rw [hcalls, hpoint, hnext]
    simp [gathered]

/-- The envelope being checked is placed when it joins the batch or is dropped, and
dropping a member of a batch leaves a subsequence. -/
theorem placed_of_step {s next : Batcher} {event : Event} (hstep : Step config s event next)
    (hslot : s.point.needsSlot = true → s.nextEnvelope = none)
    (hplaced : ∃ placed, s.dequeuedLine =
        placed ++ (s.point.arriving ++ s.nextEnvelope.toList) ∧
      (s.modelCalls.flatten ++ s.point.gathered).Sublist placed) :
    ∃ placed, next.dequeuedLine = placed ++ (next.point.arriving ++ next.nextEnvelope.toList) ∧
      (next.modelCalls.flatten ++ next.point.gathered).Sublist placed := by
  obtain ⟨placed, hdequeued, hsub⟩ := hplaced
  have hwhole : placed.Sublist s.dequeuedLine := by
    rw [hdequeued]
    exact List.sublist_append_left _ _
  rcases executed_of_step hstep with
    hless | ⟨envelope, harriving, hnone, hneeds, hheld, hjoined⟩
  · rcases hand_of_step hstep hslot with ⟨hsame, hhand | hhand⟩ | ⟨envelope, hnew, hhand⟩
    · exact ⟨placed, by rw [hsame, hhand, hdequeued], hless.trans hsub⟩
    · refine ⟨s.dequeuedLine, ?_, hless.trans (hsub.trans hwhole)⟩
      rw [hsame, hhand, List.append_nil]
    · exact ⟨s.dequeuedLine, by rw [hnew, hhand], hless.trans (hsub.trans hwhole)⟩
  · have hslot := hslot hneeds
    have hsame : next.dequeuedLine = s.dequeuedLine := by
      rcases dequeuedLine_of_step hstep with hsame | ⟨_, _, harrives⟩
      · exact hsame
      · simp [hnone] at harrives
    rw [harriving, hslot] at hdequeued
    refine ⟨placed ++ [envelope], ?_, ?_⟩
    · rw [hsame, hdequeued, hnone, hheld, hslot]
      simp
    · rw [hjoined]
      exact hsub.append (List.Sublist.refl [envelope])

/-! ## Every envelope that is let go is settled -/

/-- A batch loses a member only when its future is done, or when the model call is
cancelled. -/
theorem activeBatch_kept_of_step {s next : Batcher} {event : Event}
    (hstep : Step config s event next) (hsliced : s.point.Sliced)
    {envelope : RequestEnvelope} (hmem : envelope ∈ s.point.activeBatch) :
    next.done envelope = true ∨ envelope ∈ next.point.activeBatch ∨
      s.cancelRequested = true ∧ (∃ work, s.loopTask = some (.awaitModel work)) ∧
        next.loopLive = false := by
  cases hstep
  case tick | refuseStopping | refuseFull | acceptLive | cancelFuture | closeLive | closeIdle =>
    exact .inr (.inl hmem)
  case acceptIdle hlive =>
    obtain ⟨_, hgathered, hexecuting⟩ := inHand_of_not_live hlive
    simp [activeBatch, hgathered, hexecuting] at hmem
  case cancelModel work hpoint hcancel => exact .inr (.inr ⟨hcancel, ⟨work, hpoint⟩, rfl⟩)
  case modelReturns work output hpoint _ =>
    simp only [point_of_loopTask hpoint, activeBatch, gathered, executing, Sliced,
      List.nil_append] at hmem hsliced
    right
    left
    simpa [activeBatch, gathered, executing, List.map_fst_zip hsliced.ge] using hmem
  -- one member is passed over or settled, and the others are kept
  case skipMember member todo hpoint hdone | skipFailed member todo hpoint hdone
      | skipDelivery member _ todo hpoint hdone =>
    by_cases hself : envelope = member
    · exact .inl (hself ▸ hdone)
    · rw [point_of_loopTask hpoint] at hmem
      exact .inr (.inl (by simpa [activeBatch, gathered, executing, hself] using hmem))
  case expireMember member todo hpoint _ _ | failMember member todo hpoint _
      | lateDelivery member _ todo hpoint _ _ | deliverResult member _ todo _ hpoint _ _ _ =>
    by_cases hself : envelope = member
    · exact .inl (by simp [done_settle, hself])
    · rw [point_of_loopTask hpoint] at hmem
      exact .inr (.inl (by simpa [activeBatch, gathered, executing, hself] using hmem))
  case joinNext hpoint _ _ _ =>
    rw [point_of_loopTask hpoint] at hmem
    simp only [activeBatch, gathered, executing, List.append_nil] at hmem
    exact .inr (.inl (by simp [activeBatch, gathered, executing, hmem]))
  -- the batch is kept
  case itemNext hpoint _ _ | timeoutNext hpoint _ | cancelNext hpoint _ | modelRaises hpoint _
      | batchFull hpoint _ | timerOver hpoint _ _ | takeNext hpoint _ _ _ | waitNext hpoint _ _ _
      | skipNext hpoint _ | expireNext hpoint _ _ | holdNext hpoint _ _ _ | beginProcess hpoint
      | admitMember hpoint _ _ | executorDown hpoint _ _ | submit hpoint _ _ =>
    rw [point_of_loopTask hpoint] at hmem
    exact .inr (.inl (by simpa [activeBatch, gathered, executing] using hmem))
  -- there is no batch
  case nothingValid hpoint hvalid =>
    simp [point_of_loopTask hpoint, activeBatch, gathered, executing, hvalid] at hmem
  all_goals
    rw [point_of_loopTask ‹_›] at hmem
    cases hmem

/-- The envelope that is held or being checked stays in hand until its future is done. -/
theorem arriving_kept_of_step {s next : Batcher} {event : Event}
    (hstep : Step config s event next)
    (hslot : s.point.needsSlot = true → s.nextEnvelope = none) {envelope : RequestEnvelope}
    (hmem : envelope ∈ s.nextEnvelope.toList ++ s.point.arriving) :
    next.done envelope = true ∨ envelope ∈ next.unsettled := by
  cases hstep
  case tick | refuseStopping | refuseFull | acceptLive | cancelFuture | closeLive | closeIdle =>
    right
    rw [unsettled, ← List.append_assoc]
    exact List.mem_append_left _ hmem
  case acceptIdle hlive =>
    rw [(inHand_of_not_live hlive).1, List.append_nil] at hmem
    exact .inr (List.mem_append_left _ hmem)
  -- the envelope being checked is passed over or settled
  case skipFirst member hpoint hdone | skipNext member hpoint hdone =>
    rw [point_of_loopTask hpoint] at hmem hslot
    simp only [hslot rfl, Option.toList_none, List.nil_append, arriving, List.mem_singleton] at hmem
    exact .inl (hmem ▸ hdone)
  case expireFirst member hpoint _ _ | expireNext member hpoint _ _ =>
    rw [point_of_loopTask hpoint] at hmem hslot
    simp only [hslot rfl, Option.toList_none, List.nil_append, arriving, List.mem_singleton] at hmem
    exact .inl (by simp [done_settle, hmem])
  -- it is kept
  case keepFirst member hpoint _ _ | openBatch member hpoint | holdNext member hpoint _ _ _
      | joinNext member hpoint _ _ _ =>
    rw [point_of_loopTask hpoint] at hmem hslot
    simp only [hslot rfl, Option.toList_none, List.nil_append, arriving, List.mem_singleton] at hmem
    exact .inr (by simp [unsettled, arriving, activeBatch, gathered, executing, hmem])
  case takeHeld first hpoint _ hheld =>
    rw [point_of_loopTask hpoint] at hmem
    simp only [hheld, Option.toList_some, arriving, List.append_nil, List.mem_singleton] at hmem
    exact .inr (by simp [unsettled, arriving, hmem])
  -- what is held is left alone
  all_goals
    rw [point_of_loopTask ‹_›] at hmem
    simp only [arriving, List.append_nil] at hmem
    exact .inr (List.mem_append_left _ hmem)

theorem stopping_of_step {s next : Batcher} {event : Event} (hstep : Step config s event next)
    (hstopping : s.stopping = true) : next.stopping = true := by
  cases hstep
  case closeLive | closeIdle => rfl
  all_goals exact hstopping

/-- Before `close`, the loop task lets go of an envelope only when its future is done. -/
theorem unsettled_of_step {s next : Batcher} {event : Event} (hstep : Step config s event next)
    (hclosing : Closing s) (h : Line s) (hopen : next.stopping = false)
    {envelope : RequestEnvelope} (hmem : envelope ∈ s.unsettled) :
    next.done envelope = true ∨ envelope ∈ next.unsettled := by
  rw [unsettled, ← List.append_assoc, List.mem_append] at hmem
  rcases hmem with harriving | hactive
  · exact arriving_kept_of_step hstep h.slot harriving
  · rcases activeBatch_kept_of_step hstep h.sliced hactive with hdone | hkept | ⟨hcancel, _⟩
    · exact .inl hdone
    · exact .inr (List.mem_append_right _ (List.mem_append_right _ hkept))
    · rw [stopping_of_step hstep (hclosing.cancel hcancel)] at hopen
      cases hopen

theorem settled_of_step {s next : Batcher} {event : Event} (hstep : Step config s event next)
    (hclosing : Closing s) (h : Line s) (hopen : next.stopping = false) :
    ∀ envelope ∈ next.dequeuedLine, next.done envelope = true ∨ envelope ∈ next.unsettled := by
  intro envelope hmem
  have hold : envelope ∈ s.dequeuedLine ∨ envelope ∈ next.unsettled := by
    rcases dequeuedLine_of_step hstep with hsame | ⟨taken, htaken, harriving⟩
    · exact .inl (hsame ▸ hmem)
    · rw [htaken, List.mem_append, List.mem_singleton] at hmem
      refine hmem.imp_right fun heq => ?_
      simp [unsettled, harriving, heq]
  have hbefore : s.stopping = false := by
    cases hstep <;> simp_all
  rcases hold with hold | hnow
  · rcases h.settled hbefore envelope hold with hdone | hunsettled
    · refine .inl (done_of_step hstep (h.numbered envelope ?_) hdone)
      rw [h.line]
      exact List.mem_append_left _ hold
    · exact unsettled_of_step hstep hclosing h hopen hunsettled
  · exact .inr hnow

theorem line_of_reachable {s : Batcher} (hreach : (machine config).Reachable s) : Line s := by
  apply hreach.invariant
  · rintro s ⟨now, rfl⟩
    exact ⟨rfl, nofun, List.nodup_nil, ⟨[], rfl, List.Sublist.refl _⟩, nofun, trivial,
      fun _ => nofun⟩
  · intro s event next hbefore h hevent
    have hstep := step_cases hevent
    exact ⟨line_of_step hstep h.line, numbered_of_step hstep h.numbered,
      distinct_of_step hstep h.numbered h.distinct, placed_of_step hstep h.slot h.placed,
      slot_of_step hstep h.slot, sliced_of_step hstep h.sliced,
      settled_of_step hstep (closing_of_reachable hbefore) h⟩

/-! ## At the suspension points -/

/-- At a suspension point no envelope is in the middle of being checked. -/
theorem arriving_of_idle {s : Batcher} (hidle : s.idle = true) : s.point.arriving = [] := by
  have hsuspended := suspended_of_idle hidle
  cases h : s.point <;> simp_all [LoopPoint.suspended, arriving]

/-- **The batcher is a lossless FIFO.**  At every suspension point before `close`, the
accepted envelopes are what was dequeued, what is held and what is queued, in this
order; what was dequeued and is not in the active batch is settled; and the envelopes
handed to the successive model calls are, in order and without duplicates, among what
was dequeued. -/
theorem fifo_lossless {s : Batcher} (hreach : (machine config).Reachable s)
    (hidle : s.idle = true) (hopen : s.stopping = false) :
    ∃ taken, s.dequeuedLine = taken ++ s.nextEnvelope.toList ∧
      s.acceptedLine = taken ++ s.nextEnvelope.toList ++ s.queue.items ∧
      (∀ envelope ∈ taken, envelope ∉ s.point.activeBatch → s.done envelope = true) ∧
      s.modelCalls.flatten.Sublist taken ∧ s.modelCalls.flatten.Nodup := by
  have h := line_of_reachable hreach
  have harriving := arriving_of_idle hidle
  obtain ⟨taken, hdequeued, hsub⟩ := h.placed
  rw [harriving, List.nil_append] at hdequeued
  have hcalls : s.modelCalls.flatten.Sublist taken := (List.sublist_append_left _ _).trans hsub
  have haccepted : s.acceptedLine = taken ++ s.nextEnvelope.toList ++ s.queue.items := by
    rw [h.line, hdequeued]
  have hnodup : s.acceptedLine.Nodup := List.Nodup.of_map _ h.distinct
  rw [haccepted, List.append_assoc] at hnodup
  refine ⟨taken, hdequeued, haccepted, ?_, hcalls, hcalls.nodup (List.Nodup.of_append_left hnodup)⟩
  intro envelope hmem hactive
  have hline : envelope ∈ s.dequeuedLine := hdequeued ▸ List.mem_append_left _ hmem
  rcases h.settled hopen envelope hline with hdone | hunsettled
  · exact hdone
  · -- an envelope is dequeued once, so it cannot be held as well
    have hheld : envelope ∉ s.nextEnvelope.toList := fun hheld =>
      List.disjoint_of_nodup_append hnodup hmem (List.mem_append_left _ hheld)
    simp only [unsettled, harriving, List.nil_append, List.mem_append] at hunsettled
    exact absurd hunsettled (not_or.mpr ⟨hheld, hactive⟩)

/-- Two requests that do not fit into one batch of two items. -/
def heldRun : List Event :=
  [.enqueue "r0" ["a"] 1, .enqueue "r1" ["b", "c"] 1, .resume .started] ++ List.replicate 8 .run

/-- The second request is held while the first one is executed. -/
theorem fifo_lossless_held :
    let s := sample { maxBatchItems := 2 } heldRun
    s.nextEnvelope.isSome = true ∧ s.modelCalls ≠ [] ∧
      ∃ taken, s.dequeuedLine = taken ++ s.nextEnvelope.toList ∧
        s.acceptedLine = taken ++ s.nextEnvelope.toList ++ s.queue.items ∧
        (∀ envelope ∈ taken, envelope ∉ s.point.activeBatch → s.done envelope = true) ∧
        s.modelCalls.flatten.Sublist taken ∧ s.modelCalls.flatten.Nodup :=
  ⟨by decide +kernel, by decide +kernel,
    fifo_lossless (reachable_sample _ _) (by decide +kernel) (by decide +kernel)⟩

end Batcher
end ModelServer
