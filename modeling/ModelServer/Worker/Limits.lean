import ModelServer.Worker.Answers

/-!
# What a batcher holds at once

Three limits of `Batcher.__init__` bound what a batcher holds: the queue, the
requests of a batch and the texts of a batch.

* `Limited`: the active batch is within `max_batch_requests`, and within
  `max_batch_items` unless it is a single request, because the first envelope of a
  batch is taken without a check.  While more envelopes are collected there is
  room for one, which is why the slot `_next_envelope` and the batch together
  respect `max_batch_requests` as well.
* `Admission`: the queue is within its capacity, with one place to spare while an
  envelope taken from it may still move to the slot.

`enqueue` looks at the queue alone, so that `queue_depth`, which counts the slot,
exceeds the capacity by one exactly if an `enqueue` finds the slot taken and one
place left in the queue.
-/

namespace ModelServer

open Asyncio Transition

/-- How many texts the members of a batch have. -/
def totalItems (batch : List RequestEnvelope) : ℕ :=
  (batch.flatMap RequestEnvelope.inputs).length

@[simp] theorem totalItems_singleton (envelope : RequestEnvelope) :
    totalItems [envelope] = envelope.inputs.length := by
  simp [totalItems]

@[simp] theorem totalItems_append (batch more : List RequestEnvelope) :
    totalItems (batch ++ more) = totalItems batch + totalItems more := by
  simp [totalItems]

theorem totalItems_le_of_sublist {part batch : List RequestEnvelope} (h : part.Sublist batch) :
    totalItems part ≤ totalItems batch := by
  unfold totalItems
  induction h with
  | slnil => exact le_rfl
  | cons envelope _ ih | cons_cons envelope _ ih =>
      simp only [List.flatMap_cons, List.length_append]
      omega

theorem length_inputs_le_totalItems {envelope : RequestEnvelope} {batch : List RequestEnvelope}
    (hmem : envelope ∈ batch) : envelope.inputs.length ≤ totalItems batch := by
  rw [← totalItems_singleton]
  exact totalItems_le_of_sublist (List.singleton_sublist.mpr hmem)

/-- A batch within the limits, where a single request is always allowed. -/
structure BatcherConfig.Fits (config : BatcherConfig) (batch : List RequestEnvelope) : Prop where
  requests : (batch.length : ℤ) ≤ max 1 config.maxBatchRequests
  items : (totalItems batch : ℤ) ≤ config.maxBatchItems ∨ batch.length ≤ 1

namespace BatcherConfig.Fits

variable {config : BatcherConfig}

theorem nil : config.Fits [] := ⟨by simp, .inr (by simp)⟩

theorem singleton (envelope : RequestEnvelope) : config.Fits [envelope] :=
  ⟨by simp, .inr (by simp)⟩

theorem of_sublist {part batch : List RequestEnvelope} (h : config.Fits batch)
    (hpart : part.Sublist batch) : config.Fits part := by
  have hlength := hpart.length_le
  have hitems := totalItems_le_of_sublist hpart
  refine ⟨?_, ?_⟩
  · have := h.requests
    omega
  · rcases h.items with h | h
    · left; omega
    · right; omega

/-- A batch with room for `envelope` takes it. -/
theorem snoc {batch : List RequestEnvelope} {envelope : RequestEnvelope}
    (hroom : (batch.length : ℤ) < config.maxBatchRequests)
    (hfits : (totalItems batch + envelope.inputs.length : ℤ) ≤ config.maxBatchItems) :
    config.Fits (batch ++ [envelope]) := by
  refine ⟨?_, .inl ?_⟩
  · simp only [List.length_append, List.length_singleton]
    omega
  · simpa using hfits

/-- The texts of a batch are too many only if those of one of its members are. -/
theorem totalItems_le_iff {batch : List RequestEnvelope} (h : config.Fits batch)
    (hitems : 0 ≤ config.maxBatchItems) :
    (totalItems batch : ℤ) ≤ config.maxBatchItems ↔
      ∀ envelope ∈ batch, (envelope.inputs.length : ℤ) ≤ config.maxBatchItems := by
  constructor
  · intro hle envelope hmem
    have := length_inputs_le_totalItems hmem
    omega
  · intro hall
    rcases h.items with hle | hone
    · exact hle
    · match batch, hone with
      | [], _ => simpa [totalItems] using hitems
      | [envelope], _ => simpa using hall envelope List.mem_cons_self

end BatcherConfig.Fits

namespace Batcher

open LoopPoint

variable {config : BatcherConfig}

/-! ## The batch -/

/-- `total_items` is what its name says, and more envelopes are awaited or looked at only
while the batch has room for one more request. -/
def Counted (config : BatcherConfig) : LoopPoint → Prop
  | .collect batch total _ => total = totalItems batch
  | .awaitNext batch total _ | .checkNext batch total _ _ =>
      total = totalItems batch ∧ (batch.length : ℤ) < config.maxBatchRequests
  | _ => True

structure Limited (config : BatcherConfig) (s : Batcher) : Prop where
  counted : Counted config s.point
  active : config.Fits s.point.activeBatch
  called : ∀ members inputs, .modelCall members inputs ∈ s.log → config.Fits members

theorem counted_of_step {s next : Batcher} {event : Event} (hstep : Step config s event next)
    (h : Counted config s.point) : Counted config next.point := by
  cases hstep
  all_goals simp_all [point, Counted]

theorem active_of_step {s next : Batcher} {event : Event} (hstep : Step config s event next)
    (hsliced : s.point.Sliced) (hcounted : Counted config s.point)
    (h : config.Fits s.point.activeBatch) : config.Fits next.point.activeBatch := by
  rcases activeBatch_of_step hstep hsliced with
    hless | ⟨first, _, hopened⟩ | ⟨batch, total, timer, envelope, hpoint, hfits, hjoined⟩
  · exact h.of_sublist hless
  · rw [hopened]
    exact .singleton first
  · rw [hpoint] at hcounted
    obtain ⟨rfl, hroom⟩ := hcounted
    rw [hjoined]
    exact .snoc hroom hfits

theorem called_of_step {s next : Batcher} {event : Event} (hstep : Step config s event next)
    (hactive : config.Fits s.point.activeBatch)
    (h : ∀ members inputs, .modelCall members inputs ∈ s.log → config.Fits members) :
    ∀ members inputs, .modelCall members inputs ∈ next.log → config.Fits members := by
  cases hstep
  case submit work hpoint _ _ =>
    intro members inputs hmem
    rcases List.mem_append.mp hmem with hold | hnew
    · exact h members inputs hold
    · obtain ⟨rfl, _⟩ : members = work.validBatch ∧ _ := by simpa using hnew
      simpa [point_of_loopTask hpoint, activeBatch, gathered, executing] using hactive
  all_goals simpa using h

theorem limited_of_reachable {s : Batcher} (hreach : (machine config).Reachable s) :
    Limited config s := by
  apply hreach.invariant
  · rintro s ⟨now, rfl⟩
    exact ⟨trivial, .nil, fun _ _ hmem => absurd hmem List.not_mem_nil⟩
  · intro s event next hbefore h hevent
    have hstep := step_cases hevent
    have hsliced := (line_of_reachable hbefore).sliced
    exact ⟨counted_of_step hstep h.counted, active_of_step hstep hsliced h.counted h.active,
      called_of_step hstep h.active h.called⟩

/-! ## The queue and the slot -/

/-- How many envelopes taken from the queue may still move to the slot. -/
def mayBeHeld : LoopPoint → ℕ
  | .checkNext .. => 1
  | _ => 0

/-- How full the queue and the slot can be. -/
structure Admission (config : BatcherConfig) (s : Batcher) : Prop where
  maxsize : s.queue.maxsize = config.queueCapacity
  queued : (s.queue.items.length + mayBeHeld s.point : ℤ) ≤ config.queueCapacity
  unsettled : (s.unsettled.length : ℤ) ≤ max 1 config.maxBatchRequests

theorem queue_lt_of_not_full {s : Batcher} (hcapacity : 1 ≤ s.queue.maxsize)
    (hroom : s.queue.full = false) : (s.queue.items.length : ℤ) < s.queue.maxsize := by
  have hnot : ¬ (0 < s.queue.maxsize ∧ s.queue.maxsize ≤ s.queue.qsize) :=
    of_decide_eq_false hroom
  unfold Queue.qsize at hnot
  omega

theorem mayBeHeld_of_idle {s : Batcher} (hidle : s.idle = true) : mayBeHeld s.point = 0 := by
  have hsuspended := suspended_of_idle hidle
  cases h : s.point <;> simp_all [LoopPoint.suspended, mayBeHeld]

theorem maxsize_of_step {s next : Batcher} {event : Event} (hstep : Step config s event next) :
    next.queue.maxsize = s.queue.maxsize := by
  cases hstep <;> rfl

theorem queueDepth_eq (s : Batcher) :
    s.queueDepth = s.queue.items.length + s.nextEnvelope.toList.length := by
  unfold queueDepth Queue.qsize
  cases s.nextEnvelope <;> rfl

/-- `enqueue` puts one envelope into a queue with room for it.  Any other step takes envelopes
from the queue or the slot, or moves the one that is checked into the slot. -/
theorem filling_of_step {s next : Batcher} {event : Event} (hstep : Step config s event next) :
    (∃ requestId inputs localDeadline, event = .enqueue requestId inputs localDeadline ∧
        s.stopping = false ∧ s.queue.full = false ∧ mayBeHeld next.point = 0 ∧
        next.queue.items.length = s.queue.items.length + 1 ∧
        next.nextEnvelope = s.nextEnvelope) ∨
      next.queue.items.length + mayBeHeld next.point ≤
          s.queue.items.length + mayBeHeld s.point ∧
        next.queueDepth ≤ max s.queueDepth (s.queue.items.length + mayBeHeld s.point) := by
  cases hstep
  case acceptLive hidle hstopping hroom _ =>
    exact .inl ⟨_, _, _, rfl, hstopping, hroom, mayBeHeld_of_idle hidle, by simp, rfl⟩
  case acceptIdle hstopping hroom _ =>
    exact .inl ⟨_, _, _, rfl, hstopping, hroom, rfl, by simp, rfl⟩
  case tick | refuseStopping | refuseFull | cancelFuture | closeLive | closeIdle | closeReturn =>
    exact .inr ⟨le_rfl, le_max_left _ _⟩
  case takeHeld hheld =>
    refine .inr ⟨Nat.add_le_add_left (Nat.zero_le _) _, le_max_of_le_left ?_⟩
    simp [queueDepth_eq]
  case itemFirst hitems | itemNext hitems | takeQueued hitems | takeNext hitems =>
    right
    simp only [queueDepth_eq, dequeue_queue_items, dequeue_nextEnvelope, point_dequeue, hitems,
      List.length_cons, mayBeHeld]
    omega
  case holdNext hpoint _ _ _ =>
    refine .inr ⟨Nat.add_le_add_left (Nat.zero_le _) _, le_max_of_le_right ?_⟩
    simp [queueDepth_eq, mayBeHeld, point_of_loopTask hpoint]
  -- the loop task goes on, and leaves the queue and the slot as they are
  all_goals exact .inr ⟨Nat.add_le_add_left (Nat.zero_le _) _, le_max_left _ _⟩

theorem queued_of_step {s next : Batcher} {event : Event} (hstep : Step config s event next)
    (hcapacity : 1 ≤ config.queueCapacity) (h : Admission config s) :
    (next.queue.items.length + mayBeHeld next.point : ℤ) ≤ config.queueCapacity := by
  have hmaxsize := h.maxsize
  have hqueued := h.queued
  rcases filling_of_step hstep with ⟨_, _, _, _, _, hroom, hnone, hlength, _⟩ | ⟨hless, _⟩
  · have hlt := queue_lt_of_not_full (hmaxsize ▸ hcapacity) hroom
    omega
  · omega

/-- What is being checked and the batch fit, because an envelope is looked at only while
there is room for it. -/
theorem length_inHand_le {point : LoopPoint} (hcounted : Counted config point)
    (hactive : config.Fits point.activeBatch) :
    (point.arriving.length + point.activeBatch.length : ℤ) ≤ max 1 config.maxBatchRequests := by
  have hrequests := hactive.requests
  cases point with
  | checkFirst first | openBatch first => simp [arriving, activeBatch, gathered, executing]
  | checkNext batch total timer envelope =>
      have hroom : (batch.length : ℤ) < config.maxBatchRequests := hcounted.2
      simp only [arriving, activeBatch, gathered, executing, List.append_nil, List.length_singleton]
      omega
  | _ => simpa [arriving] using hrequests

/-- The slot is filled from a batch that had room for one more request. -/
theorem nextEnvelope_of_step {s next : Batcher} {event : Event} (hstep : Step config s event next) :
    next.nextEnvelope = s.nextEnvelope ∨ next.nextEnvelope = none ∨
      ∃ batch total timer envelope, s.point = .checkNext batch total timer envelope ∧
        next.point = .processBatch batch := by
  cases hstep
  case takeHeld => exact .inr (.inl rfl)
  case holdNext batch total timer envelope hpoint _ _ _ =>
    exact .inr (.inr ⟨batch, total, timer, envelope, point_of_loopTask hpoint, rfl⟩)
  all_goals exact .inl rfl

/-- While the slot is taken the batch does not grow. -/
theorem unsettled_length_of_step {s next : Batcher} {event : Event}
    (hstep : Step config s event next) (hsliced : s.point.Sliced)
    (hslot : s.point.needsSlot = true → s.nextEnvelope = none)
    (hcounted : Counted config s.point) (hnext : config.Fits next.point.activeBatch)
    (h : (s.unsettled.length : ℤ) ≤ max 1 config.maxBatchRequests) :
    (next.unsettled.length : ℤ) ≤ max 1 config.maxBatchRequests := by
  unfold unsettled at h ⊢
  simp only [List.length_append] at h ⊢
  cases hheld : next.nextEnvelope with
  | none =>
      have hinHand := length_inHand_le (counted_of_step hstep hcounted) hnext
      simp only [Option.toList_none, List.length_nil]
      omega
  | some held =>
      have harriving : next.point.arriving = [] := by
        apply arriving_of_not_needsSlot
        intro hneeds
        simp [slot_of_step hstep hslot hneeds] at hheld
      rw [harriving]
      simp only [Option.toList_some, List.length_singleton, List.length_nil]
      rcases nextEnvelope_of_step hstep with
        hsame | hnone | ⟨batch, total, timer, envelope, hpoint, hprocess⟩
      · have hbefore : s.nextEnvelope = some held := hsame.symm.trans hheld
        rw [hbefore] at h hslot
        simp only [Option.toList_some, List.length_singleton] at h
        rcases activeBatch_of_step hstep hsliced with
          hless | ⟨first, hpoint, _⟩ | ⟨batch, total, timer, envelope, hpoint, _⟩
        · have hlength := hless.length_le
          omega
        · simp [hpoint, needsSlot] at hslot
        · simp [hpoint, needsSlot] at hslot
      · simp [hnone] at hheld
      · rw [hpoint] at hcounted
        have hroom : (batch.length : ℤ) < config.maxBatchRequests := hcounted.2
        simp only [hprocess, activeBatch, gathered, executing, List.append_nil]
        omega

theorem admission_of_reachable {s : Batcher} (hcapacity : 1 ≤ config.queueCapacity)
    (hreach : (machine config).Reachable s) : Admission config s := by
  apply hreach.invariant
  · rintro s ⟨now, rfl⟩
    exact ⟨rfl, by simp [initial, point, mayBeHeld]; omega,
      by simp [initial, unsettled, point, activeBatch, gathered, executing, arriving]⟩
  · intro s event next hbefore h hevent
    have hstep := step_cases hevent
    have hline := line_of_reachable hbefore
    have hnext := limited_of_reachable (hbefore.next hevent)
    exact ⟨(maxsize_of_step hstep).trans h.maxsize, queued_of_step hstep hcapacity h,
      unsettled_length_of_step hstep hline.sliced hline.slot
        (limited_of_reachable hbefore).counted hnext.active h.unsettled⟩

/-- **Bounded admission.**  The queue, the slot and the batch that is collected or executed
together hold at most `queue_capacity` envelopes and one batch more. -/
theorem admission_le {s : Batcher} (hcapacity : 1 ≤ config.queueCapacity)
    (hreach : (machine config).Reachable s) (hidle : s.idle = true) :
    (s.queue.items.length + s.nextEnvelope.toList.length + s.point.activeBatch.length : ℤ) ≤
      config.queueCapacity + max 1 config.maxBatchRequests := by
  have h := admission_of_reachable hcapacity hreach
  have hqueued := h.queued
  have hunsettled := h.unsettled
  simp only [unsettled, arriving_of_idle hidle, List.nil_append, List.length_append] at hunsettled
  omega

/-- One place in the queue, and two requests that do not fit into one batch. -/
def narrow : BatcherConfig := { queueCapacity := 1, maxBatchItems := 2 }

/-- The first request is executed, and the second one held. -/
def narrowRun : List Event :=
  [.enqueue "r0" ["a"] 1, .resume .started] ++ List.replicate 4 .run ++
    [.enqueue "r1" ["b", "c"] 1, .resume .item] ++ List.replicate 4 .run

/-- One request is executed, one held, one queued. -/
theorem admission_le_narrow :
    let s := sample narrow (narrowRun ++ [.enqueue "r2" ["d"] 1])
    s.point.activeBatch.length = 1 ∧ s.nextEnvelope.isSome = true ∧ s.queue.items.length = 1 ∧
      (s.queue.items.length + s.nextEnvelope.toList.length + s.point.activeBatch.length : ℤ) ≤
        narrow.queueCapacity + max 1 narrow.maxBatchRequests :=
  ⟨by decide +kernel, by decide +kernel, by decide +kernel,
    admission_le (by decide) (reachable_sample _ _) (by decide +kernel)⟩

/-! ## `queue_depth` -/

/-- `enqueue` does not find the slot taken and a single place left in the queue. -/
def LeavesRoom (config : BatcherConfig) (s : Batcher) : Event → Prop
  | .enqueue _ _ _ =>
      s.stopping = false → s.nextEnvelope.isSome = true →
        (s.queue.items.length + 1 : ℤ) ≠ config.queueCapacity
  | _ => True

theorem queueDepth_of_step {s next : Batcher} {event : Event} (hstep : Step config s event next)
    (hcapacity : 1 ≤ config.queueCapacity) (hadmission : Admission config s)
    (hroom : LeavesRoom config s event) (h : (s.queueDepth : ℤ) ≤ config.queueCapacity) :
    (next.queueDepth : ℤ) ≤ config.queueCapacity := by
  have hmaxsize := hadmission.maxsize
  have hqueued := hadmission.queued
  rcases filling_of_step hstep with
    ⟨_, _, _, rfl, hstopping, hfull, _, hlength, hslot⟩ | ⟨_, hless⟩
  · have hlt := queue_lt_of_not_full (hmaxsize ▸ hcapacity) hfull
    have hroom := hroom hstopping
    rw [queueDepth_eq, hlength, hslot]
    cases hheld : s.nextEnvelope with
    | none =>
        simp only [Option.toList_none, List.length_nil]
        omega
    | some held =>
        have hlast := hroom (by simp [hheld])
        simp only [Option.toList_some, List.length_singleton]
        omega
  · omega

/-- An `enqueue` that does not leave room makes `queue_depth` exceed the capacity. -/
theorem queueDepth_of_not_leavesRoom {s next : Batcher} {event : Event}
    (hstep : Step config s event next) (hmaxsize : s.queue.maxsize = config.queueCapacity)
    (hroom : ¬ LeavesRoom config s event) :
    (next.queueDepth : ℤ) = config.queueCapacity + 1 := by
  rw [queueDepth_eq]
  cases hstep
  case acceptLive | acceptIdle =>
    simp only [LeavesRoom, Classical.not_imp, not_not] at hroom
    obtain ⟨_, hheld, hlast⟩ := hroom
    obtain ⟨held, hheld⟩ := Option.isSome_iff_exists.mp hheld
    simp only [accept_queue_items, accept_nextEnvelope, hheld, Option.toList_some,
      List.length_append, List.length_singleton]
    omega
  case refuseStopping hstopping => simp [LeavesRoom, hstopping] at hroom
  case refuseFull hfull =>
    have hle : 0 < s.queue.maxsize ∧ s.queue.maxsize ≤ s.queue.items.length :=
      of_decide_eq_true hfull
    simp only [LeavesRoom, Classical.not_imp, not_not] at hroom
    omega
  all_goals exact absurd trivial hroom

/-- `queue_depth` stays within the capacity in the runs in which every `enqueue` leaves
room, and an `enqueue` that does not leave room makes it exceed the capacity by one. -/
theorem queueDepth_le_capacity (hcapacity : 1 ≤ config.queueCapacity) :
    (∀ s, (machine config).ReachableBy (LeavesRoom config) s →
      (s.queueDepth : ℤ) ≤ config.queueCapacity) ∧
    ∀ s event next, (machine config).Reachable s → s.step config event = some next →
      ¬ LeavesRoom config s event → (next.queueDepth : ℤ) = config.queueCapacity + 1 := by
  refine ⟨fun s hreach => ?_, fun s event next hreach hevent hroom => ?_⟩
  · apply hreach.invariant
    · rintro s ⟨now, rfl⟩
      rw [queueDepth_eq]
      simp only [initial, List.length_nil, Option.toList_none]
      omega
    · intro s event next hbefore h hroom hevent
      exact queueDepth_of_step (step_cases hevent) hcapacity
        (admission_of_reachable hcapacity hbefore.reachable) hroom h
  · exact queueDepth_of_not_leavesRoom (step_cases hevent)
      (admission_of_reachable hcapacity hreach).maxsize hroom

theorem queueDepth_le_capacity_narrow :
    (1 : ℤ) ≤ narrow.queueCapacity ∧ (sample narrow narrowRun).queueDepth = 1 ∧
      (∀ s, (machine narrow).ReachableBy (LeavesRoom narrow) s →
        (s.queueDepth : ℤ) ≤ narrow.queueCapacity) ∧
      ∀ s event next, (machine narrow).Reachable s → s.step narrow event = some next →
        ¬ LeavesRoom narrow s event → (next.queueDepth : ℤ) = narrow.queueCapacity + 1 :=
  ⟨by decide, by decide +kernel, queueDepth_le_capacity (by decide)⟩

/-- A third request is admitted, because the queue itself is empty. -/
theorem queueDepth_exceeds_capacity :
    ¬ ∀ config : BatcherConfig, 1 ≤ config.queueCapacity →
      ∀ s, (machine config).Reachable s → (s.queueDepth : ℤ) ≤ config.queueCapacity := by
  intro h
  have hle := h narrow (by decide) _
    (reachable_sample narrow (narrowRun ++ [.enqueue "r2" ["d"] 1]))
  have hdepth : (sample narrow (narrowRun ++ [.enqueue "r2" ["d"] 1])).queueDepth = 2 := by
    decide +kernel
  rw [hdepth] at hle
  exact absurd hle (by decide)

end Batcher

/-! ## The batches of a worker -/

namespace Servicer

variable {config : WorkerConfig}

/-- The inputs of a request that passes the checks of `Predict` have the property `P`. -/
def Admits (config : WorkerConfig) (P : List String → Prop) (s : Servicer) : Event → Prop
  | .predict id timeRemaining => ∀ handler remaining, s.handlers[id]? = some handler →
      checkRequest config s.state handler.request timeRemaining = .ok remaining →
        P handler.request.inputs
  | _ => True

theorem length_inputs_of_checkRequest {state : WorkerState} {request : PredictRequest}
    {timeRemaining : Option Time} {remaining : Time}
    (h : checkRequest config state request timeRemaining = .ok remaining) :
    request.inputs.length ≤ 8 := by
  unfold checkRequest at h
  split at h
  · simp at h
  · split at h
    · simp at h
    · rename_i hinputs
      simp only [not_or, not_lt] at hinputs
      exact hinputs.2

/-- What a worker has accepted has passed the checks of `Predict`. -/
structure Checked (P : List String → Prop) (s : Servicer) : Prop where
  running : ∀ id handler, s.running = some id → s.handlers[id]? = some handler →
    P handler.request.inputs
  envelopes : ∀ envelope ∈ s.batcher.acceptedLine, P envelope.inputs

theorem running_of_step {P : List String → Prop} {s next : Servicer} {event : Event}
    (hstep : Step config s event next) (hadmits : Admits config P s event)
    (h : ∀ id handler, s.running = some id → s.handlers[id]? = some handler →
      P handler.request.inputs) :
    ∀ id handler, next.running = some id → next.handlers[id]? = some handler →
      P handler.request.inputs := by
  intro id handler hrunning hhandler
  cases hstep with
  | @admits id' admitted _ remaining hrest hadmitted _ hcheck =>
      obtain rfl : id' = id := by simpa using hrunning
      have hlt := (List.getElem?_eq_some_iff.mp hadmitted).1
      obtain rfl : _ = handler := by simpa [hlt] using hhandler
      exact hadmits admitted remaining hadmitted hcheck
  | receive hrest | ready hrest _ | drain hrest _ | close hrest _ _ =>
      simp [(atRest_iff.mp hrest).2] at hrunning
  | tick _ | batch _ _ _ => exact h id handler hrunning hhandler
  | _ => simp at hrunning

/-- An envelope is accepted for the running handler only. -/
theorem accepted_of_step {s next : Servicer} {event : Event} (hstep : Step config s event next)
    (hexclusive : Exclusive s) {envelope : RequestEnvelope}
    (hmem : envelope ∈ next.batcher.acceptedLine) :
    envelope ∈ s.batcher.acceptedLine ∨ ∃ id handler, s.running = some id ∧
      s.handlers[id]? = some handler ∧ envelope.inputs = handler.request.inputs := by
  cases hstep with
  | tick hbatcher | close _ _ hbatcher =>
      rcases Batcher.enqueued_of_step (Batcher.step_cases hbatcher) with
        hsame | ⟨_, _, _, hevent, _⟩
      · exact .inl (hsame ▸ hmem)
      · cases hevent
  | batch hinner _ hbatcher =>
      rcases Batcher.enqueued_of_step (Batcher.step_cases hbatcher) with hsame | ⟨_, _, _, rfl, _⟩
      · exact .inl (hsame ▸ hmem)
      · cases event <;> simp [Event.inner] at hinner
  | @accepted id future handler batcher hrunning hhandler henqueue
  | @refused id handler error batcher hrunning hhandler henqueue =>
      have hidle := hexclusive (by simp [hrunning])
      have hbatcher : s.batcher.step config.toBatcherConfig (.enqueue handler.request.requestId
          handler.request.inputs handler.localDeadline) = some batcher := by
        simp [Batcher.step, hidle, henqueue]
      rcases Batcher.enqueued_of_step (Batcher.step_cases hbatcher) with
        hsame | ⟨requestId, inputs, localDeadline, hevent, hnew⟩
      · exact .inl (hsame ▸ hmem)
      · replace hmem : envelope ∈ batcher.acceptedLine := hmem
        rw [hnew, List.mem_append, List.mem_singleton] at hmem
        refine hmem.imp_right fun heq => ⟨id, handler, hrunning, hhandler, ?_⟩
        simp only [Batcher.Event.enqueue.injEq] at hevent
        rw [heq, hevent.2.1]
        rfl
  | _ => exact .inl hmem

theorem checked_of_reachable {P : List String → Prop} {s : Servicer}
    (hreach : (machine config).ReachableBy (Admits config P) s) : Checked P s := by
  apply hreach.invariant
  · rintro s ⟨now, rfl⟩
    exact ⟨by simp [initial], fun _ hmem => absurd hmem List.not_mem_nil⟩
  · intro s event next hbefore h hadmits hevent
    have hstep := step_cases hevent
    refine ⟨running_of_step hstep hadmits h.running, fun envelope hmem => ?_⟩
    rcases accepted_of_step hstep (exclusive_of_reachable hbefore.reachable) hmem with
      hold | ⟨id, handler, hrunning, hhandler, hinputs⟩
    · exact h.envelopes envelope hold
    · rw [hinputs]
      exact h.running id handler hrunning hhandler

/-- The members of a model call have been accepted. -/
theorem accepted_of_modelCall {s : Batcher} (hline : Batcher.Line s)
    {members : List RequestEnvelope} {inputs : List String}
    (hcall : .modelCall members inputs ∈ s.log) : members ⊆ s.acceptedLine := by
  intro envelope hmem
  obtain ⟨placed, hdequeued, hsub⟩ := hline.placed
  have hcalls : members ∈ s.modelCalls :=
    List.mem_filterMap.mpr ⟨_, hcall, rfl⟩
  have hplaced : envelope ∈ placed :=
    hsub.subset (List.mem_append_left _ (List.mem_flatten.mpr ⟨members, hcalls, hmem⟩))
  rw [hline.line, hdequeued]
  simp [hplaced]

/-- The texts of a model call are those of its members. -/
theorem inputs_of_modelCall {s : Batcher} (haccount : Batcher.Account s)
    {members : List RequestEnvelope} {inputs : List String}
    (hcall : .modelCall members inputs ∈ s.log) :
    inputs = members.flatMap RequestEnvelope.inputs := by
  obtain ⟨before, after, hlog⟩ := List.append_of_mem hcall
  exact (haccount.justified before _ after hlog).1

/-- Every call of the model so far is within the limits of a batch. -/
def WithinLimits (config : WorkerConfig) (s : Servicer) : Prop :=
  ∀ members inputs, .modelCall members inputs ∈ s.batcher.log →
    (members.length : ℤ) ≤ config.maxBatchRequests ∧ (inputs.length : ℤ) ≤ config.maxBatchItems

/-- A model call has at most `max_batch_requests` members, and at most `max_batch_items`
texts if each of its members alone has. -/
theorem withinLimits_of_admits {s : Servicer} (hrequests : 1 ≤ config.maxBatchRequests)
    (hitems : 1 ≤ config.maxBatchItems)
    (hreach : (machine config).ReachableBy
      (Admits config fun inputs => (inputs.length : ℤ) ≤ config.maxBatchItems) s) :
    WithinLimits config s := by
  intro members inputs hcall
  have hbatcher := (attended_of_reachable hreach.reachable).batcher
  have hfits := (Batcher.limited_of_reachable hbatcher).called members inputs hcall
  have hinputs := inputs_of_modelCall (Batcher.account_of_reachable hbatcher) hcall
  refine ⟨by have := hfits.requests; omega, ?_⟩
  have htotal := (hfits.totalItems_le_iff (by omega)).mpr fun envelope hmem => by
    have haccepted := accepted_of_modelCall (Batcher.line_of_reachable hbatcher) hcall hmem
    exact (checked_of_reachable hreach).envelopes envelope haccepted
  rwa [totalItems, ← hinputs] at htotal

/-- A request with as many inputs as `Predict` admits. -/
def largeRequest (config : WorkerConfig) : PredictRequest where
  requestId := "r0"
  inputs := List.replicate 8 "a"
  modelVersion := config.modelVersion

/-- The request arrives at an idle worker. -/
def arrivalRun (config : WorkerConfig) : List Event :=
  [.ready, .receive (largeRequest config), .predict 0 (some 1), .enqueue]

/-- It is accepted, and the loop task is created. -/
theorem accepted_of_arrivalRun (config : WorkerConfig) :
    ∃ s, (machine config).Run (initial config 0) (arrivalRun config) s ∧ s.running = none ∧
      s.batcher =
        { (Batcher.initial config.toBatcherConfig 0).accept
            ((Batcher.initial config.toBatcherConfig 0).newEnvelope "r0"
              (List.replicate 8 "a") 1) with
          loopTask := some .created } := by
  have hroom : ({ maxsize := config.queueCapacity } : Queue RequestEnvelope).full = false :=
    decide_eq_false (by simp only [Queue.qsize, List.length_nil]; omega)
  have htime : ¬ (1 : Time) ≤ 0 := by decide
  simp [Machine.Run, Machine.exec, machine, arrivalRun, step, atRest, initial, Batcher.initial,
    Batcher.idle, guard, checkRequest, largeRequest, Batcher.enqueue, Queue.putNowait, hroom,
    Batcher.start, Batcher.loopLive, htime, Batcher.accept, Batcher.newEnvelope]

/-- The request arrives at an idle worker and is handed to the model. -/
def largeRun (config : WorkerConfig) : List Event :=
  arrivalRun config ++ .wake .started :: List.replicate 7 .run

/-- The loop task has taken it, and is about to look for a second request. -/
theorem collected_of_accepted {s : Servicer} (hrunning : s.running = none)
    (hbatcher : s.batcher =
      { (Batcher.initial config.toBatcherConfig 0).accept
          ((Batcher.initial config.toBatcherConfig 0).newEnvelope "r0"
            (List.replicate 8 "a") 1) with
        loopTask := some .created }) :
    ∃ middle, (machine config).Run s (.wake .started :: List.replicate 3 .run) middle ∧
      middle.batcher.executorDown = false ∧ middle.batcher.now = 0 ∧
      middle.batcher.futures 0 = .pending ∧ ∃ deadlineTimer, middle.batcher.loopTask =
        some (.collect [(Batcher.initial config.toBatcherConfig 0).newEnvelope "r0"
          (List.replicate 8 "a") 1] 8 deadlineTimer) := by
  have htime : ¬ (1 : Time) < 0 := by decide
  simp [Machine.Run, Machine.exec, machine, step, hrunning, guard, batch, hbatcher,
    Batcher.initial, Batcher.newEnvelope, Batcher.step, Batcher.resume, Batcher.advance,
    LoopPoint.suspended, Batcher.done, htime]

/-- A batch that is full with one envelope is handed to the model. -/
theorem modelCall_of_collected {s : Servicer} {envelope : RequestEnvelope} {totalItems : ℕ}
    {deadlineTimer : Time} (hdown : s.batcher.executorDown = false)
    (hpoint : s.batcher.loopTask = some (.collect [envelope] totalItems deadlineTimer))
    (hdone : (s.batcher.futures envelope.future).done = false)
    (htime : s.batcher.now ≤ envelope.localDeadline) (hitems : config.maxBatchItems ≤ totalItems) :
    ∃ last, (machine config).Run s (List.replicate 4 .run) last ∧
      .modelCall [envelope] envelope.inputs ∈ last.batcher.log := by
  have hstop : ¬ (1 < config.maxBatchRequests ∧ (totalItems : ℤ) < config.maxBatchItems) := by
    omega
  have hlate : ¬ envelope.localDeadline < s.batcher.now := not_lt.mpr htime
  simp [Machine.Run, Machine.exec, machine, step, batch, hpoint, Batcher.step, Batcher.advance,
    LoopPoint.suspended, Batcher.done, hdone, hlate, hstop, hdown]

/-- With a limit below 8 the request is a batch of its own, because it is not checked. -/
theorem modelCall_of_largeRun (hitems : config.maxBatchItems < 8) :
    ∃ s, (machine config).Run (initial config 0) (largeRun config) s ∧
      ∃ members, .modelCall members (List.replicate 8 "a") ∈ s.batcher.log := by
  obtain ⟨s, hrun, hrunning, hbatcher⟩ := accepted_of_arrivalRun config
  obtain ⟨middle, htaken, hdown, hnow, hfuture, deadlineTimer, hpoint⟩ :=
    collected_of_accepted hrunning hbatcher
  have hdone : (middle.batcher.futures 0).done = false := by
    rw [hfuture]
    rfl
  have htime : middle.batcher.now ≤ 1 := by
    rw [hnow]
    exact zero_le_one
  obtain ⟨last, hlast, hcall⟩ := modelCall_of_collected hdown hpoint hdone htime hitems.le
  exact ⟨last, hrun.append (htaken.append hlast), _, hcall⟩

theorem exceeds_of_lt (hitems : config.maxBatchItems < 8) :
    ∃ s, (machine config).Reachable s ∧ ¬ WithinLimits config s := by
  obtain ⟨s, hrun, members, hcall⟩ := modelCall_of_largeRun hitems
  have hinitial : (machine config).Reachable (initial config 0) := .initial ⟨0, rfl⟩
  refine ⟨s, Machine.Reachable.run hinitial hrun, fun hwithin => ?_⟩
  have htexts := (hwithin members _ hcall).2
  rw [List.length_replicate] at htexts
  omega

/-- The model calls are within the limits of a batch in the runs in which every request
that `Predict` admits has at most `max_batch_items` inputs, and in all runs exactly if
`max_batch_items` is at least 8. -/
theorem withinLimits_iff (hrequests : 1 ≤ config.maxBatchRequests)
    (hitems : 1 ≤ config.maxBatchItems) :
    (∀ s, (machine config).ReachableBy
        (Admits config fun inputs => (inputs.length : ℤ) ≤ config.maxBatchItems) s →
      WithinLimits config s) ∧
    ((∀ s, (machine config).Reachable s → WithinLimits config s) ↔ 8 ≤ config.maxBatchItems) := by
  refine ⟨fun s => withinLimits_of_admits hrequests hitems, fun hall => ?_,
    fun hle s hreach => ?_⟩
  · by_contra hlt
    obtain ⟨s, hreach, hexceeds⟩ := exceeds_of_lt (not_le.mp hlt)
    exact hexceeds (hall s hreach)
  · refine withinLimits_of_admits hrequests hitems (hreach.mono fun s event _ => ?_)
    cases event with
    | predict id timeRemaining =>
        intro handler remaining _ hcheck
        have hlength := length_inputs_of_checkRequest hcheck
        omega
    | _ => trivial

theorem withinLimits_iff_default :
    let config : WorkerConfig := {}
    (1 : ℤ) ≤ config.maxBatchRequests ∧ (1 : ℤ) ≤ config.maxBatchItems ∧
    (∀ s, (machine config).ReachableBy
        (Admits config fun inputs => (inputs.length : ℤ) ≤ config.maxBatchItems) s →
      WithinLimits config s) ∧
    ((∀ s, (machine config).Reachable s → WithinLimits config s) ↔ 8 ≤ config.maxBatchItems) :=
  ⟨by decide, by decide, withinLimits_iff (by decide) (by decide)⟩

/-- A batch of eight texts where four are the limit. -/
theorem withinLimits_exceeded :
    ¬ ∀ config : WorkerConfig, 1 ≤ config.maxBatchRequests → 1 ≤ config.maxBatchItems →
      ∀ s, (machine config).Reachable s → WithinLimits config s := by
  intro h
  have hsmall : ({ maxBatchItems := 4 } : WorkerConfig).maxBatchItems < 8 := by decide
  obtain ⟨s, hreach, hexceeds⟩ := exceeds_of_lt hsmall
  exact hexceeds (h { maxBatchItems := 4 } (by decide) (by decide) s hreach)

end Servicer
end ModelServer
