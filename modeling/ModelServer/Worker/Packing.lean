import ModelServer.Library.Greedy
import ModelServer.Worker.Limits

/-!
# Batches are packed greedily

What waits in the queue when the loop task first runs, and is left alone, is
executed in the greedy partition of that list: each batch is the longest prefix
of what remains with at most `max_batch_requests` envelopes and at most
`max_batch_items` texts.

`waiting` is what remains, in order: the batch being formed, the envelope being
checked, the slot and the queue.  No step changes it but the model call, which
takes a whole batch off its front (`waiting_of_step`).  `Formed` says why this
batch is the longest one that fits: the loop stopped at a limit, or the next
envelope was found not to fit, or there was no next one.

Left alone, the loop task gets through the whole list, provided that a batch has its timer
or is full with its first envelope while more is waiting (`Unhurried`): without a delay the
timer is over as soon as it is set.
-/

namespace ModelServer

open Asyncio Transition

/-- A batch of at most `max_batch_requests` envelopes and at most `max_batch_items` texts. -/
def BatcherConfig.Within (config : BatcherConfig) (batch : List RequestEnvelope) : Prop :=
  (batch.length : ℤ) ≤ config.maxBatchRequests ∧ (totalItems batch : ℤ) ≤ config.maxBatchItems

theorem BatcherConfig.prefixClosed_within (config : BatcherConfig) :
    Greedy.PrefixClosed config.Within := by
  intro short long hstarts hlong
  have hlength := hstarts.length_le
  have hitems := totalItems_le_of_sublist hstarts.sublist
  obtain ⟨hrequests, htexts⟩ := hlong
  exact ⟨by omega, by omega⟩

namespace Batcher

open LoopPoint

variable {config : BatcherConfig}

/-- What has been accepted and not been handed to the model, in order. -/
def waiting (s : Batcher) : List RequestEnvelope :=
  s.point.gathered ++ (s.point.arriving ++ (s.nextEnvelope.toList ++ s.queue.items))

/-- A batch has its timer, or needs none while more is waiting: it is full with its first
envelope. -/
def Unhurried (config : BatcherConfig) (list : List RequestEnvelope) : Prop :=
  0 < config.maxBatchDelayMs ∨ config.maxBatchRequests = 1 ∨
    ∀ envelope ∈ list.dropLast, config.maxBatchItems ≤ envelope.inputs.length

/-- Nothing is enqueued, no client whose envelope is waiting gives up, no such envelope
passes its deadline, and the timer of a batch is not over when more envelopes are
looked for and there are some. -/
def Undisturbed (config : BatcherConfig) (s : Batcher) : Event → Prop
  | .tick elapsed => ∀ envelope ∈ s.waiting, s.now + elapsed ≤ envelope.localDeadline
  | .enqueue _ _ _ => s.stopping = true ∨ s.queue.full = true
  | .cancelFuture future => ∀ envelope ∈ s.waiting, envelope.future ≠ future
  | .run => ∀ batch total deadlineTimer,
      s.loopTask = some (.collect batch total deadlineTimer) →
        (batch.length : ℤ) < config.maxBatchRequests ∧ (total : ℤ) < config.maxBatchItems →
          s.queue.items ≠ [] → s.now < deadlineTimer
  | _ => True

/-- A live, unexpired envelope that fits into a batch of its own. -/
structure Packable (config : BatcherConfig) (s : Batcher) (envelope : RequestEnvelope) : Prop where
  live : s.done envelope = false
  unexpired : s.now ≤ envelope.localDeadline
  nonempty : 1 ≤ envelope.inputs.length
  small : (envelope.inputs.length : ℤ) ≤ config.maxBatchItems

/-- What is known of the batch being formed, with `rest` behind it. -/
def Formed (config : BatcherConfig) (rest : List RequestEnvelope) : LoopPoint → Prop
  | .awaitFirst => rest = []
  | .collect batch _ _ | .checkNext batch _ _ _ => batch ≠ [] ∧ config.Within batch
  | .awaitNext batch _ _ => batch ≠ [] ∧ config.Within batch ∧ rest = []
  | .processBatch batch => Greedy.Longest config.Within batch rest
  | .assemble work todo => Greedy.Longest config.Within (work.validBatch ++ todo) rest
  | _ => True

/-- `list` has been executed up to what is waiting, and will be executed in the batches
that the greedy partition of what is waiting consists of. -/
structure Packing (config : BatcherConfig) (list : List RequestEnvelope) (s : Batcher) : Prop where
  packable : ∀ envelope ∈ s.waiting, Packable config s envelope
  formed : Formed config (s.nextEnvelope.toList ++ s.queue.items) s.point
  blocks : ∀ blocks, Greedy.Partition config.Within s.waiting blocks →
    Greedy.Partition config.Within list (s.modelCalls ++ blocks)

/-! ## Nobody waits twice -/

/-- What is being executed has been handed to the model. -/
theorem called_of_executing {log : List Observation} {point : LoopPoint}
    (hevidence : Evidence log point) {executed : RequestEnvelope}
    (hmem : executed ∈ point.executing) : ∃ members, Called log members ∧ executed ∈ members := by
  cases point with
  | awaitModel work => exact ⟨work.validBatch, hevidence, hmem⟩
  | failBatch todo =>
      obtain ⟨members, _, hcalled, hsub⟩ := hevidence
      exact ⟨members, hcalled, hsub hmem⟩
  | deliver _ _ _ todo =>
      obtain ⟨members, hcalled, hsub⟩ := hevidence
      exact ⟨members, hcalled, hsub hmem⟩
  | _ => exact absurd hmem List.not_mem_nil

/-- What is being executed and what waits are different envelopes. -/
theorem future_ne_of_executing {s : Batcher} (hline : Line s) (haccount : Account s)
    {envelope executed : RequestEnvelope} (hwaiting : envelope ∈ s.waiting)
    (hexecuted : executed ∈ s.point.executing) : envelope.future ≠ executed.future := by
  obtain ⟨placed, hdequeued, hsub⟩ := hline.placed
  obtain ⟨members, hcalled, hmember⟩ := called_of_executing haccount.evidence hexecuted
  have hcalls : members ∈ s.modelCalls := List.mem_filterMap.mpr ⟨_, hcalled, rfl⟩
  have hexecuted : executed ∈ s.modelCalls.flatten :=
    List.mem_flatten.mpr ⟨members, hcalls, hmember⟩
  have hall : (s.modelCalls.flatten ++ s.waiting).Sublist s.acceptedLine := by
    rw [hline.line, hdequeued]
    simp only [waiting, ← List.append_assoc]
    exact ((hsub.append_right _).append_right _).append_right _
  have hnodup := (hall.map RequestEnvelope.future).nodup hline.distinct
  rw [List.map_append] at hnodup
  intro heq
  exact List.disjoint_of_nodup_append hnodup (List.mem_map_of_mem hexecuted)
    (heq ▸ List.mem_map_of_mem hwaiting)

/-! ## One step -/

/-- Only a model call changes what is waiting, and it takes the batch off its front. -/
theorem waiting_of_step {s next : Batcher} {event : Event} (hstep : Step config s event next)
    (hundisturbed : Undisturbed config s event) (hclosing : Closing s)
    (hslot : s.point.needsSlot = true → s.nextEnvelope = none)
    (hpackable : ∀ envelope ∈ s.waiting, Packable config s envelope)
    (hformed : Formed config (s.nextEnvelope.toList ++ s.queue.items) s.point) :
    next.waiting = s.waiting ∧ next.modelCalls = s.modelCalls ∨
      ∃ batch, s.waiting = batch ++ next.waiting ∧ next.modelCalls = s.modelCalls ++ [batch] ∧
        Greedy.Longest config.Within batch next.waiting := by
  cases hstep
  case submit work hpoint _ _ =>
    right
    simp only [point_of_loopTask hpoint, Formed, List.append_nil] at hformed
    refine ⟨work.validBatch, ?_, ?_, ?_⟩
    · simp [waiting, point_of_loopTask hpoint, gathered, arriving]
    · simp [modelCalls, Observation.calledMembers]
    · simpa [waiting, gathered, arriving] using hformed
  all_goals left
  case acceptLive hstopping hroom _ | acceptIdle hstopping hroom _ =>
    simp [Undisturbed, hstopping, hroom] at hundisturbed
  -- nothing that waits is done or expired
  case skipFirst envelope hpoint hdone | skipNext envelope hpoint hdone
      | skipMember envelope _ hpoint hdone =>
    have hlive := (hpackable envelope (by simp [waiting, point_of_loopTask hpoint, gathered,
      arriving])).live
    simp [hdone] at hlive
  case expireFirst envelope hpoint _ hlate | expireNext envelope hpoint _ hlate
      | expireMember envelope _ hpoint _ hlate =>
    have hunexpired := (hpackable envelope (by simp [waiting, point_of_loopTask hpoint, gathered,
      arriving])).unexpired
    exact absurd hlate (not_lt.mpr hunexpired)
  case nothingValid hpoint hvalid =>
    simp only [point_of_loopTask hpoint, Formed, hvalid] at hformed
    exact absurd rfl hformed.ne_nil
  case executorDown hpoint _ hdown =>
    have hlive := (hclosing.down hdown).2
    simp [loopLive, hpoint] at hlive
  case itemFirst hpoint _ hitems | itemNext hpoint _ hitems | takeNext hpoint _ _ hitems
      | takeQueued hpoint _ hnone hitems =>
    refine ⟨?_, by simp [modelCalls, Observation.calledMembers, List.filterMap_cons]⟩
    rw [point_of_loopTask hpoint] at hslot
    have hheld : s.nextEnvelope = none := by first | exact hslot rfl | exact hnone
    simp [waiting, point_of_loopTask hpoint, gathered, arriving, hheld, hitems]
  case takeHeld hpoint _ hheld =>
    exact ⟨by simp [waiting, point_of_loopTask hpoint, gathered, arriving, hheld], rfl⟩
  case holdNext hpoint _ _ _ =>
    rw [point_of_loopTask hpoint] at hslot
    exact ⟨by simp [waiting, point_of_loopTask hpoint, gathered, arriving, hslot rfl], rfl⟩
  case openBatch hpoint | joinNext hpoint _ _ _ | beginProcess hpoint =>
    exact ⟨by simp [waiting, point_of_loopTask hpoint, gathered, arriving], rfl⟩
  case admitMember hpoint _ _ | modelReturns hpoint _ | modelRaises hpoint _
      | failMember hpoint _ | lateDelivery hpoint _ _ | deliverResult hpoint _ _ _ =>
    refine ⟨?_, by simp [modelCalls, Observation.calledMembers, List.filterMap_cons]⟩
    simp [waiting, point_of_loopTask hpoint, gathered, arriving]
  all_goals
    refine ⟨?_, rfl⟩
    first | rfl | rw [waiting, waiting, @point_of_loopTask s _ ‹_›]; rfl

/-- What waits stays as it is: only futures of what is executed are settled. -/
theorem packable_of_step {s next : Batcher} {event : Event} (hstep : Step config s event next)
    (hundisturbed : Undisturbed config s event)
    (hother : ∀ envelope ∈ s.waiting, ∀ executed ∈ s.point.executing,
      envelope.future ≠ executed.future)
    (hpackable : ∀ envelope ∈ s.waiting, Packable config s envelope) :
    ∀ envelope ∈ s.waiting, Packable config next envelope := by
  intro envelope hmem
  obtain ⟨hlive, hunexpired, hnonempty, hsmall⟩ := hpackable envelope hmem
  refine ⟨?_, ?_, hnonempty, hsmall⟩
  · cases hstep
    case acceptLive hstopping hroom _ | acceptIdle hstopping hroom _ =>
      simp [Undisturbed, hstopping, hroom] at hundisturbed
    case refuseFull =>
      simp only [done, createFuture_futures, Function.update_apply]
      split
      · rfl
      · exact hlive
    case cancelFuture =>
      rw [done_cancelFuture, if_neg (hundisturbed envelope hmem)]
      exact hlive
    case expireFirst late hpoint _ hlate | expireNext late hpoint _ hlate
        | expireMember late _ hpoint _ hlate =>
      have hunexpired := (hpackable late (by simp [waiting, point_of_loopTask hpoint, gathered,
        arriving])).unexpired
      exact absurd hlate (not_lt.mpr hunexpired)
    case failMember executed _ hpoint _ | lateDelivery executed _ _ hpoint _ _
        | deliverResult executed _ _ _ hpoint _ _ _ =>
      have hne := hother envelope hmem executed (by simp [point_of_loopTask hpoint, executing])
      rw [done_settle, if_neg hne]
      exact hlive
    all_goals exact hlive
  · cases hstep
    case tick => exact hundisturbed envelope hmem
    all_goals exact hunexpired

/-- The batch that is handed over is the longest one that fits. -/
theorem formed_of_step {s next : Batcher} {event : Event} (hstep : Step config s event next)
    (hrequests : 1 ≤ config.maxBatchRequests) (hundisturbed : Undisturbed config s event)
    (hslot : s.point.needsSlot = true → s.nextEnvelope = none)
    (hcounted : Counted config s.point)
    (hpackable : ∀ envelope ∈ s.waiting, Packable config s envelope)
    (hformed : Formed config (s.nextEnvelope.toList ++ s.queue.items) s.point) :
    Formed config (next.nextEnvelope.toList ++ next.queue.items) next.point := by
  cases hstep
  case acceptLive hstopping hroom _ | acceptIdle hstopping hroom _ =>
    simp [Undisturbed, hstopping, hroom] at hundisturbed
  case openBatch first hpoint =>
    have hsmall := (hpackable first (by simp [waiting, point_of_loopTask hpoint, gathered,
      arriving])).small
    exact ⟨by simp, by simpa using hrequests, by simpa using hsmall⟩
  case timeoutNext hpoint _ | cancelNext hpoint _ =>
    -- an envelope is awaited only while nothing is queued
    rw [point_of_loopTask hpoint] at hformed
    obtain ⟨hne, hwithin, hrest⟩ := hformed
    exact hrest ▸ Greedy.Longest.of_nil hne hwithin
  case batchFull batch total _ hpoint hlimits =>
    simp only [point_of_loopTask hpoint, Counted, needsSlot, forall_const] at hcounted hslot
    rw [point_of_loopTask hpoint] at hformed
    show Greedy.Longest config.Within batch (s.nextEnvelope.toList ++ s.queue.items)
    rw [hslot, Option.toList_none, List.nil_append]
    cases hitems : s.queue.items with
    | nil => exact .of_nil hformed.1 hformed.2
    | cons envelope rest =>
        refine .of_not_fits config.prefixClosed_within hformed.1 hformed.2 fun hwithin => ?_
        have hnonempty := (hpackable envelope (by simp [waiting, hitems])).nonempty
        simp only [BatcherConfig.Within, List.length_append, List.length_singleton,
          totalItems_append, totalItems_singleton] at hwithin
        omega
  case timerOver batch total deadlineTimer hpoint hlimits htimer =>
    simp only [point_of_loopTask hpoint, needsSlot, forall_const] at hslot
    rw [point_of_loopTask hpoint] at hformed
    show Greedy.Longest config.Within batch (s.nextEnvelope.toList ++ s.queue.items)
    rw [hslot, Option.toList_none, List.nil_append]
    have hitems : s.queue.items = [] := by
      by_contra hne
      have hlt := hundisturbed batch total deadlineTimer hpoint hlimits hne
      exact absurd htimer (not_le.mpr (sub_pos.mpr hlt))
    exact hitems ▸ .of_nil hformed.1 hformed.2
  case holdNext batch total _ envelope hpoint _ _ hover =>
    simp only [point_of_loopTask hpoint, Counted] at hcounted
    rw [point_of_loopTask hpoint] at hformed
    refine .of_not_fits config.prefixClosed_within hformed.1 hformed.2 fun hwithin => ?_
    simp only [BatcherConfig.Within, totalItems_append, totalItems_singleton] at hwithin
    omega
  case joinNext batch total _ envelope hpoint _ _ hfits =>
    simp only [point_of_loopTask hpoint, Counted] at hcounted
    refine ⟨by simp, ?_, ?_⟩
    · simp only [List.length_append, List.length_singleton]
      omega
    · simp only [totalItems_append, totalItems_singleton]
      omega
  case skipMember envelope _ hpoint hdone =>
    have hlive := (hpackable envelope (by simp [waiting, point_of_loopTask hpoint, gathered])).live
    simp [hdone] at hlive
  case expireMember envelope _ hpoint _ hlate =>
    have hunexpired :=
      (hpackable envelope (by simp [waiting, point_of_loopTask hpoint, gathered])).unexpired
    exact absurd hlate (not_lt.mpr hunexpired)
  all_goals
    clear hpackable hcounted hundisturbed
    simp_all [point, Formed, needsSlot]

theorem packing_of_step {list : List RequestEnvelope} {s next : Batcher} {event : Event}
    (hreach : (machine config).Reachable s) (hstep : Step config s event next)
    (hrequests : 1 ≤ config.maxBatchRequests) (hundisturbed : Undisturbed config s event)
    (h : Packing config list s) : Packing config list next := by
  have hline := line_of_reachable hreach
  have hother : ∀ envelope ∈ s.waiting, ∀ executed ∈ s.point.executing,
      envelope.future ≠ executed.future := by
    intro envelope hwaiting executed hexecuted
    exact future_ne_of_executing hline (account_of_reachable hreach) hwaiting hexecuted
  have hpackable := packable_of_step hstep hundisturbed hother h.packable
  have hformed := formed_of_step hstep hrequests hundisturbed hline.slot
    (limited_of_reachable hreach).counted h.packable h.formed
  rcases waiting_of_step hstep hundisturbed (closing_of_reachable hreach) hline.slot h.packable
    h.formed with ⟨hwaiting, hcalls⟩ | ⟨batch, hwaiting, hcalls, hlongest⟩
  · refine ⟨hwaiting ▸ hpackable, hformed, ?_⟩
    rw [hwaiting, hcalls]
    exact h.blocks
  · refine ⟨fun envelope hmem => hpackable envelope ?_, hformed, fun blocks hblocks => ?_⟩
    · rw [hwaiting]
      exact List.mem_append_right _ hmem
    · have hall := h.blocks (batch :: blocks) (hwaiting ▸ .cons hlongest hblocks)
      rwa [hcalls, List.append_assoc]

/-! ## Runs -/

/-- Before the loop task runs nothing is held, and the model has not been called. -/
def OnlyQueued (s : Batcher) : Prop :=
  s.loopTask = none ∨ s.loopTask = some .created → s.nextEnvelope = none ∧ s.modelCalls = []

theorem onlyQueued_of_step {s next : Batcher} {event : Event} (hstep : Step config s event next)
    (hclosing : Closing s) (h : OnlyQueued s) : OnlyQueued next := by
  unfold OnlyQueued at *
  rcases modelCalls_of_step hstep with hcalls | ⟨work, _, hnext, _⟩
  · rw [hcalls]
    clear hcalls
    cases hstep
    case tick | refuseStopping | refuseFull | acceptLive | cancelFuture | closeLive | closeIdle
        | closeReturn => exact h
    case acceptIdle hstopping _ hlive =>
      rcases loopLive_eq_false_iff.mp hlive with hnone | ⟨how, hend⟩
      · exact fun _ => h (.inl hnone)
      · simp [hclosing.finished how hend] at hstopping
    all_goals
      rintro (htask | htask)
      · cases htask
      · cases htask
  · rintro (htask | htask)
    · simp [point, htask] at hnext
    · simp [point, htask] at hnext

theorem onlyQueued_of_reachable {s : Batcher} (hreach : (machine config).Reachable s) :
    OnlyQueued s := by
  apply hreach.invariant
  · rintro s ⟨now, rfl⟩
    exact fun _ => ⟨rfl, rfl⟩
  · intro s event next hbefore h hevent
    exact onlyQueued_of_step (step_cases hevent) (closing_of_reachable hbefore) h

theorem packing_of_created {s : Batcher} (hqueued : OnlyQueued s)
    (hcreated : s.loopTask = some .created)
    (hlist : ∀ envelope ∈ s.queue.items, Packable config s envelope) :
    Packing config s.queue.items s := by
  obtain ⟨hheld, hcalls⟩ := hqueued (.inr hcreated)
  have hwaiting : s.waiting = s.queue.items := by
    simp [waiting, point_of_loopTask hcreated, gathered, arriving, hheld]
  refine ⟨hwaiting ▸ hlist, ?_, ?_⟩
  · rw [point_of_loopTask hcreated]
    trivial
  · rw [hwaiting, hcalls]
    exact fun blocks hblocks => hblocks

theorem packing_of_startingAt {first s : Batcher} (hreach : (machine config).Reachable first)
    (hrequests : 1 ≤ config.maxBatchRequests) (hcreated : first.loopTask = some .created)
    (hlist : ∀ envelope ∈ first.queue.items, Packable config first envelope)
    (hrun : ((machine config).startingAt first).ReachableBy (Undisturbed config) s) :
    Packing config first.queue.items s := by
  apply hrun.invariant
  · rintro s rfl
    exact packing_of_created (onlyQueued_of_reachable hreach) hcreated hlist
  · intro s event next hbefore h hundisturbed hevent
    exact packing_of_step (hbefore.of_startingAt hreach) (step_cases hevent) hrequests
      hundisturbed h

/-! ## The way to the next `get` -/

/-- How far the loop task is from waiting for a first envelope, if it is left alone. -/
def rank (s : Batcher) : ℕ :=
  40 * (s.nextEnvelope.toList.length + s.queue.items.length) +
    match s.point with
    | .created => 2
    | .loopHead => 1
    | .awaitFirst | .finished _ => 0
    | .checkFirst _ => 40
    | .openBatch _ => 39
    | .collect batch _ _ => 5 * batch.length + 8
    | .awaitNext batch _ _ => 5 * batch.length + 7
    | .checkNext batch _ _ _ => 5 * batch.length + 47
    | .processBatch batch => 5 * batch.length + 6
    | .assemble work todo => 3 * work.validBatch.length + 5 * todo.length + 5
    | .awaitModel work => 3 * work.validBatch.length + 3
    | .failBatch todo => 3 * todo.length + 2
    | .deliver _ _ _ todo => 3 * todo.length + 2

/-- The loop task goes on. -/
def Forward : Event → Prop
  | .run | .resume .started | .resume .timeout | .resume (.modelReturns _) => True
  | _ => False

theorem rank_of_step {s next : Batcher} {event : Event} (hstep : Step config s event next)
    (hforward : Forward event) : next.rank < s.rank := by
  cases hstep
  case tick | refuseStopping | refuseFull | acceptLive | acceptIdle | cancelFuture | closeLive
      | closeIdle | closeReturn | cancelCreated | itemFirst | cancelFirst | itemNext | cancelNext
      | modelRaises | cancelModel => cases hforward
  all_goals
    have hpoint := @point_of_loopTask s _ ‹_›
    simp [rank, *]
    try omega

/-- The timer of the batch being collected is not over, or does not matter any more. -/
def Timely (config : BatcherConfig) (s : Batcher) : Prop :=
  match s.point with
  | .collect batch total deadlineTimer =>
      (batch.length : ℤ) < config.maxBatchRequests ∧ (total : ℤ) < config.maxBatchItems →
        s.queue.items ≠ [] → s.now < deadlineTimer
  | .checkNext _ _ deadlineTimer _ => s.now < deadlineTimer
  | _ => True

/-- What is executed and what waits is the list. -/
theorem Packing.flatten {list : List RequestEnvelope} {s : Batcher}
    (hrequests : 1 ≤ config.maxBatchRequests) (h : Packing config list s) :
    s.modelCalls.flatten ++ s.waiting = list := by
  obtain ⟨blocks, hblocks⟩ := Greedy.exists_partition config.prefixClosed_within
    fun envelope hmem =>
      ⟨by simpa using hrequests, by simpa using (h.packable envelope hmem).small⟩
  rw [← (h.blocks blocks hblocks).flatten_eq, List.flatten_append, hblocks.flatten_eq]

theorem timely_of_step {list : List RequestEnvelope} {s next : Batcher} {event : Event}
    (hstep : Step config s event next) (hunhurried : Unhurried config list)
    (hrequests : 1 ≤ config.maxBatchRequests) (hpacking : Packing config list s)
    (hforward : Forward event) (h : Timely config s) : Timely config next := by
  cases hstep
  case openBatch first hpoint =>
    show ((1 : ℕ) : ℤ) < config.maxBatchRequests ∧
      (first.inputs.length : ℤ) < config.maxBatchItems → s.queue.items ≠ [] →
        s.now < s.now + (config.maxBatchDelayMs : ℚ) / 1000
    rintro ⟨hmore, hroom⟩ hqueued
    rcases hunhurried with hdelay | hone | hfull
    · have hpositive : (0 : ℚ) < (config.maxBatchDelayMs : ℚ) / 1000 :=
        div_pos (Rat.intCast_pos.mpr hdelay) (by decide)
      exact lt_add_of_pos_right s.now hpositive
    · omega
    · -- there is more to come, so the first envelope is not the last one of the list
      have hwaiting : s.waiting = [first] ++ (s.nextEnvelope.toList ++ s.queue.items) := by
        simp [waiting, point_of_loopTask hpoint, gathered, arriving]
      have hlast : first ∈ list.dropLast := by
        rw [← hpacking.flatten hrequests, hwaiting, ← List.append_assoc,
          List.dropLast_append_of_ne_nil (by simp [hqueued])]
        simp
      exact absurd (hfull first hlast) (not_le.mpr hroom)
  all_goals simp_all [Timely, point, Forward]

theorem timely_of_idle (config : BatcherConfig) {s : Batcher} (hidle : s.idle = true) :
    Timely config s := by
  have hsuspended := suspended_of_idle hidle
  unfold Timely
  cases h : s.point <;> simp_all [LoopPoint.suspended]

/-- The loop task, left alone, is not stuck before it waits for a first envelope. -/
theorem exists_forward (config : BatcherConfig) {s : Batcher} (hclosing : Closing s)
    (hopen : s.stopping = false) (htimely : Timely config s) (htask : s.loopTask ≠ none)
    (hawait : s.loopTask ≠ some .awaitFirst) :
    ∃ event next, Forward event ∧ Undisturbed config s event ∧ s.step config event = some next := by
  obtain ⟨point, hpoint⟩ := Option.ne_none_iff_exists'.mp htask
  have hcancel : s.cancelRequested = false := by
    by_contra hcancel
    simp [hclosing.cancel (by simpa using hcancel)] at hopen
  cases point with
  | created =>
      exact ⟨.resume .started, s.goto .loopHead, trivial, trivial,
        by simp [step, hpoint, resume, hcancel]⟩
  | awaitFirst => exact absurd hpoint hawait
  | awaitNext batch _ _ =>
      exact ⟨.resume .timeout, s.goto (.processBatch batch), trivial, trivial,
        by simp [step, hpoint, resume, hcancel]⟩
  | awaitModel work =>
      exact ⟨.resume (.modelReturns ⟨[], 0, 0, 0⟩), _, trivial, trivial,
        by simp [step, hpoint, resume, hcancel]; rfl⟩
  | finished how => simp [hclosing.finished how hpoint] at hopen
  | collect batch total deadlineTimer =>
      refine ⟨.run, _, trivial, ?_, by simp [step, hpoint, LoopPoint.suspended]; rfl⟩
      intro batch' total' deadlineTimer' hcollect
      rw [Timely, point_of_loopTask hcollect] at htimely
      exact htimely
  | _ =>
      refine ⟨.run, _, trivial, ?_, by simp [step, hpoint, LoopPoint.suspended]; rfl⟩
      simp [Undisturbed, hpoint]

theorem stopping_of_forward {s next : Batcher} {event : Event} (hstep : Step config s event next)
    (hforward : Forward event) : next.stopping = s.stopping := by
  cases hstep
  all_goals first | rfl | exact hforward.elim

theorem loopTask_of_step {s next : Batcher} {event : Event} (hstep : Step config s event next)
    (htask : s.loopTask ≠ none) : next.loopTask ≠ none := by
  cases hstep
  all_goals simp_all

/-- Left alone, the loop task comes to wait for a first envelope; the induction is on `rank`. -/
theorem exists_awaitFirst {list : List RequestEnvelope} (hunhurried : Unhurried config list)
    (hrequests : 1 ≤ config.maxBatchRequests) {s : Batcher}
    (hreach : (machine config).Reachable s) (hpacking : Packing config list s)
    (hopen : s.stopping = false) (htimely : Timely config s) (htask : s.loopTask ≠ none) :
    ∃ last, ((machine config).startingAt s).ReachableBy (Undisturbed config) last ∧
      last.loopTask = some .awaitFirst := by
  induction hrank : s.rank using Nat.strongRecOn generalizing s with
  | _ rank ih =>
      by_cases hawait : s.loopTask = some .awaitFirst
      · exact ⟨s, .initial rfl, hawait⟩
      · obtain ⟨event, next, hforward, hundisturbed, hevent⟩ :=
          exists_forward config (closing_of_reachable hreach) hopen htimely htask hawait
        have hstep := step_cases hevent
        obtain ⟨last, hlast, hlastAwaits⟩ := ih next.rank (hrank ▸ rank_of_step hstep hforward)
          (hreach.next hevent) (packing_of_step hreach hstep hrequests hundisturbed hpacking)
          ((stopping_of_forward hstep hforward).trans hopen)
          (timely_of_step hstep hunhurried hrequests hpacking hforward htimely)
          (loopTask_of_step hstep htask) rfl
        have hnext : ((machine config).startingAt s).ReachableBy (Undisturbed config) next :=
          .step (.initial rfl) hundisturbed hevent
        exact ⟨last, hnext.trans hlast, hlastAwaits⟩

/-- What has been executed is the beginning of the greedy partition, and all of it when the
loop task waits for a first envelope. -/
theorem modelCalls_of_packing {list : List RequestEnvelope} {batches : List (List RequestEnvelope)}
    {s : Batcher} (hrequests : 1 ≤ config.maxBatchRequests) (h : Packing config list s)
    (hbatches : Greedy.Partition config.Within list batches) :
    s.modelCalls <+: batches ∧ (s.loopTask = some .awaitFirst → s.modelCalls = batches) := by
  constructor
  · obtain ⟨blocks, hblocks⟩ := Greedy.exists_partition config.prefixClosed_within
      fun envelope hmem =>
        ⟨by simpa using hrequests, by simpa using (h.packable envelope hmem).small⟩
    rw [hbatches.unique (h.blocks blocks hblocks)]
    exact List.prefix_append _ _
  · intro hawait
    have hrest : s.nextEnvelope.toList ++ s.queue.items = [] := by
      simpa [point_of_loopTask hawait, Formed] using h.formed
    have hwaiting : s.waiting = [] := by
      simpa [waiting, point_of_loopTask hawait, gathered, arriving] using hrest
    simpa using (h.blocks [] (hwaiting ▸ .nil)).unique hbatches

/-- **Batches are packed greedily.**  From the moment the loop task first runs, the batches
executed are the first ones of the greedy partition of what was queued then, and when it
waits for a first envelope again they are all of them.  Unless the worker is closed it comes
to that; without a delay, if every batch is full with its first envelope until the last. -/
theorem batches_greedy {first s : Batcher} (hreach : (machine config).Reachable first)
    (hrequests : 1 ≤ config.maxBatchRequests) (hcreated : first.loopTask = some .created)
    (hlist : ∀ envelope ∈ first.queue.items, Packable config first envelope)
    (hrun : ((machine config).startingAt first).ReachableBy (Undisturbed config) s) :
    ∃ batches, Greedy.Partition config.Within first.queue.items batches ∧
      batches.flatten = first.queue.items ∧ s.modelCalls <+: batches ∧
      (s.loopTask = some .awaitFirst → s.modelCalls = batches) ∧
      (Unhurried config first.queue.items → s.stopping = false → s.idle = true →
        ∃ last, ((machine config).startingAt s).ReachableBy (Undisturbed config) last ∧
          last.loopTask = some .awaitFirst ∧ last.modelCalls = batches) := by
  obtain ⟨batches, hbatches⟩ := Greedy.exists_partition config.prefixClosed_within
    fun envelope hmem => ⟨by simpa using hrequests, by simpa using (hlist envelope hmem).small⟩
  have hpacking : ∀ last,
      ((machine config).startingAt first).ReachableBy (Undisturbed config) last →
        Packing config first.queue.items last := by
    intro last
    exact packing_of_startingAt hreach hrequests hcreated hlist
  obtain ⟨hstarts, hall⟩ := modelCalls_of_packing hrequests (hpacking s hrun) hbatches
  refine ⟨batches, hbatches, hbatches.flatten_eq, hstarts, hall, fun hunhurried hopen hidle => ?_⟩
  have htask : s.loopTask ≠ none := by
    apply hrun.invariant
    · rintro s rfl
      simp [hcreated]
    · intro s event next _ h _ hevent
      exact loopTask_of_step (step_cases hevent) h
  obtain ⟨last, hlast, hawait⟩ := exists_awaitFirst hunhurried hrequests
    (hrun.of_startingAt hreach) (hpacking s hrun) hopen (timely_of_idle config hidle) htask
  have hexecuted := modelCalls_of_packing hrequests (hpacking last (hrun.trans hlast)) hbatches
  exact ⟨last, hlast, hawait, hexecuted.2 hawait⟩

/-- Three requests, of which the last one does not fit into one batch with the others. -/
def queuedRun : List Event :=
  [.enqueue "r0" ["a"] 1, .enqueue "r1" ["b"] 1, .enqueue "r2" ["c", "d"] 1]

def threeItems : BatcherConfig := { maxBatchItems := 3 }

theorem packable_queuedRun :
    ∀ envelope ∈ (sample threeItems queuedRun).queue.items,
      Packable threeItems (sample threeItems queuedRun) envelope := by
  have hall : ∀ envelope ∈ (sample threeItems queuedRun).queue.items,
      (sample threeItems queuedRun).done envelope = false ∧
        (sample threeItems queuedRun).now ≤ envelope.localDeadline ∧
          1 ≤ envelope.inputs.length ∧ (envelope.inputs.length : ℤ) ≤ threeItems.maxBatchItems := by
    decide +kernel
  intro envelope hmem
  obtain ⟨hlive, hunexpired, hnonempty, hsmall⟩ := hall envelope hmem
  exact ⟨hlive, hunexpired, hnonempty, hsmall⟩

theorem batches_greedy_queuedRun :
    let first := sample threeItems queuedRun
    first.loopTask = some .created ∧ first.queue.items.length = 3 ∧
      ∃ batches, Greedy.Partition threeItems.Within first.queue.items batches ∧
        batches.flatten = first.queue.items ∧ first.modelCalls <+: batches ∧
        (first.loopTask = some .awaitFirst → first.modelCalls = batches) ∧
        (Unhurried threeItems first.queue.items → first.stopping = false → first.idle = true →
          ∃ last,
            ((machine threeItems).startingAt first).ReachableBy (Undisturbed threeItems) last ∧
            last.loopTask = some .awaitFirst ∧ last.modelCalls = batches) := by
  have hcreated : (sample threeItems queuedRun).loopTask = some .created := by decide +kernel
  exact ⟨hcreated, by decide +kernel,
    batches_greedy (reachable_sample _ _) (by decide) hcreated packable_queuedRun (.initial rfl)⟩

/-- The first two requests are one batch, and the third one, held back, is the next. -/
example :
    ((sample threeItems (queuedRun ++ [.resume .started] ++ List.replicate 11 .run ++
      [.resume (.modelReturns ⟨[], 0, 0, 0⟩)] ++ List.replicate 7 .run ++
        [.resume .timeout] ++ List.replicate 3 .run)).modelCalls.map
          (List.map RequestEnvelope.requestId)) = [["r0", "r1"], ["r2"]] := by
  decide +kernel

end Batcher
end ModelServer
