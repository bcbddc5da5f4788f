import ModelServer.Worker.Batcher

/-!
# Everything a batcher can do

`Step` has one constructor for each branch of the batcher's code that can be
taken, with what the branch tested and the state it leaves.  `step_cases` says
that there is nothing else: in particular the `InvalidStateError` of a future
settled twice never happens, because each `set_result` and `set_exception`
follows a test of the same future within one step.

Three facts that every invariant of the batcher rests on are proved here from
`Step`: a future that is done stays done, only `close` makes the loop task end,
and the executor is shut down only after that.
-/

namespace ModelServer.Batcher

open Asyncio

variable {config : BatcherConfig}

/-- The envelope `enqueue` makes. -/
def newEnvelope (s : Batcher) (requestId : String) (inputs : List String)
    (localDeadline : Time) : RequestEnvelope :=
  { requestId, inputs, localDeadline, enqueueTime := s.now, future := s.nextFuture }

/-- `loop.create_future()`. -/
@[simps]
def createFuture (s : Batcher) : Batcher :=
  { s with
    futures := Function.update s.futures s.nextFuture .pending
    nextFuture := s.nextFuture + 1 }

/-- `enqueue` puts `envelope` into the queue. -/
@[simps]
def accept (s : Batcher) (envelope : RequestEnvelope) : Batcher :=
  { s with
    futures := Function.update s.futures s.nextFuture .pending
    nextFuture := s.nextFuture + 1
    queue := { s.queue with items := s.queue.items ++ [envelope] }
    log := s.log ++ [.accepted envelope] }

/-- What a batcher can do. -/
inductive Step (config : BatcherConfig) : Batcher → Event → Batcher → Prop
  | tick {s : Batcher} {elapsed : Time} (helapsed : 0 ≤ elapsed) :
      Step config s (.tick elapsed) { s with now := s.now + elapsed }
  -- the clients
  | refuseStopping {s : Batcher} {requestId : String} {inputs : List String}
      {localDeadline : Time} (hidle : s.idle = true) (hstopping : s.stopping = true) :
      Step config s (.enqueue requestId inputs localDeadline) s
  | refuseFull {s : Batcher} {requestId : String} {inputs : List String} {localDeadline : Time}
      (hidle : s.idle = true) (hstopping : s.stopping = false) (hfull : s.queue.full = true) :
      Step config s (.enqueue requestId inputs localDeadline) s.createFuture
  | acceptLive {s : Batcher} {requestId : String} {inputs : List String} {localDeadline : Time}
      (hidle : s.idle = true) (hstopping : s.stopping = false) (hroom : s.queue.full = false)
      (hlive : s.loopLive = true) :
      Step config s (.enqueue requestId inputs localDeadline)
        (s.accept (s.newEnvelope requestId inputs localDeadline))
  | acceptIdle {s : Batcher} {requestId : String} {inputs : List String} {localDeadline : Time}
      (hidle : s.idle = true) (hstopping : s.stopping = false) (hroom : s.queue.full = false)
      (hlive : s.loopLive = false) :
      Step config s (.enqueue requestId inputs localDeadline)
        { s.accept (s.newEnvelope requestId inputs localDeadline) with
          loopTask := some .created, cancelRequested := false }
  | cancelFuture {s : Batcher} {future : ℕ} (hidle : s.idle = true)
      (hfuture : future < s.nextFuture) :
      Step config s (.cancelFuture future) (s.cancelFuture future)
  | closeLive {s : Batcher} (hidle : s.idle = true) (hlive : s.loopLive = true) :
      Step config s .close
        { s with stopping := true, cancelRequested := true, closers := s.closers + 1 }
  | closeIdle {s : Batcher} (hidle : s.idle = true) (hlive : s.loopLive = false) :
      Step config s .close { s with stopping := true, executorDown := true, closed := true }
  | closeReturn {s : Batcher} {how : LoopEnd} (hpoint : s.loopTask = some (.finished how))
      (hclosers : 0 < s.closers) :
      Step config s .closeReturn s.closeReturn
  -- the loop task is resumed
  | started {s : Batcher} (hpoint : s.loopTask = some .created)
      (hcancel : s.cancelRequested = false) :
      Step config s (.resume .started) (s.goto .loopHead)
  | cancelCreated {s : Batcher} (hpoint : s.loopTask = some .created)
      (hcancel : s.cancelRequested = true) :
      Step config s (.resume .cancelled)
        ({ s with cancelRequested := false }.goto (.finished .cancelled))
  | itemFirst {s : Batcher} {first : RequestEnvelope} {rest : List RequestEnvelope}
      (hpoint : s.loopTask = some .awaitFirst) (hcancel : s.cancelRequested = false)
      (hitems : s.queue.items = first :: rest) :
      Step config s (.resume .item) (s.dequeue first rest (.checkFirst first))
  | cancelFirst {s : Batcher} (hpoint : s.loopTask = some .awaitFirst)
      (hcancel : s.cancelRequested = true) :
      Step config s (.resume .cancelled)
        ({ s with cancelRequested := false }.goto (.finished .returned))
  | itemNext {s : Batcher} {batch : List RequestEnvelope} {totalItems : ℕ}
      {deadlineTimer : Time} {envelope : RequestEnvelope} {rest : List RequestEnvelope}
      (hpoint : s.loopTask = some (.awaitNext batch totalItems deadlineTimer))
      (hcancel : s.cancelRequested = false) (hitems : s.queue.items = envelope :: rest) :
      Step config s (.resume .item)
        (s.dequeue envelope rest (.checkNext batch totalItems deadlineTimer envelope))
  | timeoutNext {s : Batcher} {batch : List RequestEnvelope} {totalItems : ℕ}
      {deadlineTimer : Time}
      (hpoint : s.loopTask = some (.awaitNext batch totalItems deadlineTimer))
      (hcancel : s.cancelRequested = false) :
      Step config s (.resume .timeout) (s.goto (.processBatch batch))
  | cancelNext {s : Batcher} {batch : List RequestEnvelope} {totalItems : ℕ}
      {deadlineTimer : Time}
      (hpoint : s.loopTask = some (.awaitNext batch totalItems deadlineTimer))
      (hcancel : s.cancelRequested = true) :
      Step config s (.resume .cancelled)
        ({ s with cancelRequested := false }.goto (.processBatch batch))
  | modelReturns {s : Batcher} {work : Assembly} {output : ModelOutput}
      (hpoint : s.loopTask = some (.awaitModel work)) (hcancel : s.cancelRequested = false) :
      Step config s (.resume (.modelReturns output))
        ((s.observe (.modelReturned work.validBatch)).goto
          (.deliver work output s.now (work.validBatch.zip work.slices)))
  | modelRaises {s : Batcher} {work : Assembly}
      (hpoint : s.loopTask = some (.awaitModel work)) (hcancel : s.cancelRequested = false) :
      Step config s (.resume .modelRaises)
        ((s.observe (.modelRaised work.validBatch)).goto (.failBatch work.validBatch))
  | cancelModel {s : Batcher} {work : Assembly} (hpoint : s.loopTask = some (.awaitModel work))
      (hcancel : s.cancelRequested = true) :
      Step config s (.resume .cancelled)
        ({ s with cancelRequested := false }.goto (.finished .cancelled))
  -- `_run_loop`: the first envelope
  | stop {s : Batcher} (hpoint : s.loopTask = some .loopHead) (hstopping : s.stopping = true) :
      Step config s .run (s.goto (.finished .returned))
  | takeHeld {s : Batcher} {first : RequestEnvelope} (hpoint : s.loopTask = some .loopHead)
      (hstopping : s.stopping = false) (hheld : s.nextEnvelope = some first) :
      Step config s .run ({ s with nextEnvelope := none }.goto (.checkFirst first))
  | takeQueued {s : Batcher} {first : RequestEnvelope} {rest : List RequestEnvelope}
      (hpoint : s.loopTask = some .loopHead) (hstopping : s.stopping = false)
      (hheld : s.nextEnvelope = none) (hitems : s.queue.items = first :: rest) :
      Step config s .run (s.dequeue first rest (.checkFirst first))
  | waitFirst {s : Batcher} (hpoint : s.loopTask = some .loopHead)
      (hstopping : s.stopping = false) (hheld : s.nextEnvelope = none)
      (hitems : s.queue.items = []) :
      Step config s .run (s.goto .awaitFirst)
  | skipFirst {s : Batcher} {first : RequestEnvelope}
      (hpoint : s.loopTask = some (.checkFirst first)) (hdone : s.done first = true) :
      Step config s .run (s.goto .loopHead)
  | expireFirst {s : Batcher} {first : RequestEnvelope}
      (hpoint : s.loopTask = some (.checkFirst first)) (hdone : s.done first = false)
      (hlate : first.localDeadline < s.now) :
      Step config s .run
        (s.settle first (.exception expiredInQueue) (.exceptionSet first expiredInQueue s.now)
          .loopHead)
  | keepFirst {s : Batcher} {first : RequestEnvelope}
      (hpoint : s.loopTask = some (.checkFirst first)) (hdone : s.done first = false)
      (htime : s.now ≤ first.localDeadline) :
      Step config s .run (s.goto (.openBatch first))
  | openBatch {s : Batcher} {first : RequestEnvelope}
      (hpoint : s.loopTask = some (.openBatch first)) :
      Step config s .run
        (s.goto (.collect [first] first.inputs.length
          (s.now + (config.maxBatchDelayMs : ℚ) / 1000)))
  -- `_run_loop`: the rest of the batch
  | batchFull {s : Batcher} {batch : List RequestEnvelope} {totalItems : ℕ}
      {deadlineTimer : Time}
      (hpoint : s.loopTask = some (.collect batch totalItems deadlineTimer))
      (hlimits : ¬ ((batch.length : ℤ) < config.maxBatchRequests ∧
        (totalItems : ℤ) < config.maxBatchItems)) :
      Step config s .run (s.goto (.processBatch batch))
  | timerOver {s : Batcher} {batch : List RequestEnvelope} {totalItems : ℕ}
      {deadlineTimer : Time}
      (hpoint : s.loopTask = some (.collect batch totalItems deadlineTimer))
      (hlimits : (batch.length : ℤ) < config.maxBatchRequests ∧
        (totalItems : ℤ) < config.maxBatchItems)
      (htimer : deadlineTimer - s.now ≤ 0) :
      Step config s .run (s.goto (.processBatch batch))
  | takeNext {s : Batcher} {batch : List RequestEnvelope} {totalItems : ℕ}
      {deadlineTimer : Time} {envelope : RequestEnvelope} {rest : List RequestEnvelope}
      (hpoint : s.loopTask = some (.collect batch totalItems deadlineTimer))
      (hlimits : (batch.length : ℤ) < config.maxBatchRequests ∧
        (totalItems : ℤ) < config.maxBatchItems)
      (htimer : ¬ deadlineTimer - s.now ≤ 0) (hitems : s.queue.items = envelope :: rest) :
      Step config s .run
        (s.dequeue envelope rest (.checkNext batch totalItems deadlineTimer envelope))
  | waitNext {s : Batcher} {batch : List RequestEnvelope} {totalItems : ℕ}
      {deadlineTimer : Time}
      (hpoint : s.loopTask = some (.collect batch totalItems deadlineTimer))
      (hlimits : (batch.length : ℤ) < config.maxBatchRequests ∧
        (totalItems : ℤ) < config.maxBatchItems)
      (htimer : ¬ deadlineTimer - s.now ≤ 0) (hitems : s.queue.items = []) :
      Step config s .run (s.goto (.awaitNext batch totalItems deadlineTimer))
  | skipNext {s : Batcher} {batch : List RequestEnvelope} {totalItems : ℕ}
      {deadlineTimer : Time} {envelope : RequestEnvelope}
      (hpoint : s.loopTask = some (.checkNext batch totalItems deadlineTimer envelope))
      (hdone : s.done envelope = true) :
      Step config s .run (s.goto (.collect batch totalItems deadlineTimer))
  | expireNext {s : Batcher} {batch : List RequestEnvelope} {totalItems : ℕ}
      {deadlineTimer : Time} {envelope : RequestEnvelope}
      (hpoint : s.loopTask = some (.checkNext batch totalItems deadlineTimer envelope))
      (hdone : s.done envelope = false) (hlate : envelope.localDeadline < s.now) :
      Step config s .run
        (s.settle envelope (.exception expiredInQueue)
          (.exceptionSet envelope expiredInQueue s.now)
          (.collect batch totalItems deadlineTimer))
  | holdNext {s : Batcher} {batch : List RequestEnvelope} {totalItems : ℕ}
      {deadlineTimer : Time} {envelope : RequestEnvelope}
      (hpoint : s.loopTask = some (.checkNext batch totalItems deadlineTimer envelope))
      (hdone : s.done envelope = false) (htime : s.now ≤ envelope.localDeadline)
      (hover : config.maxBatchItems < totalItems + envelope.inputs.length) :
      Step config s .run ({ s with nextEnvelope := some envelope }.goto (.processBatch batch))
  | joinNext {s : Batcher} {batch : List RequestEnvelope} {totalItems : ℕ}
      {deadlineTimer : Time} {envelope : RequestEnvelope}
      (hpoint : s.loopTask = some (.checkNext batch totalItems deadlineTimer envelope))
      (hdone : s.done envelope = false) (htime : s.now ≤ envelope.localDeadline)
      (hfits : totalItems + envelope.inputs.length ≤ config.maxBatchItems) :
      Step config s .run
        (s.goto (.collect (batch ++ [envelope]) (totalItems + envelope.inputs.length)
          deadlineTimer))
  -- `_process_batch`: which envelopes are executed
  | beginProcess {s : Batcher} {batch : List RequestEnvelope}
      (hpoint : s.loopTask = some (.processBatch batch)) :
      Step config s .run (s.goto (.assemble ⟨s.now, [], [], [], 0⟩ batch))
  | skipMember {s : Batcher} {work : Assembly} {envelope : RequestEnvelope}
      {todo : List RequestEnvelope} (hpoint : s.loopTask = some (.assemble work (envelope :: todo)))
      (hdone : s.done envelope = true) :
      Step config s .run (s.goto (.assemble work todo))
  | expireMember {s : Batcher} {work : Assembly} {envelope : RequestEnvelope}
      {todo : List RequestEnvelope} (hpoint : s.loopTask = some (.assemble work (envelope :: todo)))
      (hdone : s.done envelope = false) (hlate : envelope.localDeadline < s.now) :
      Step config s .run
        (s.settle envelope (.exception expiredBeforeExecution)
          (.exceptionSet envelope expiredBeforeExecution s.now) (.assemble work todo))
  | admitMember {s : Batcher} {work : Assembly} {envelope : RequestEnvelope}
      {todo : List RequestEnvelope} (hpoint : s.loopTask = some (.assemble work (envelope :: todo)))
      (hdone : s.done envelope = false) (htime : s.now ≤ envelope.localDeadline) :
      Step config s .run
        ((s.observe (.admitted envelope s.now true)).goto
          (.assemble
            { work with
              validBatch := work.validBatch ++ [envelope]
              flattenedInputs := work.flattenedInputs ++ envelope.inputs
              slices := work.slices ++ [(work.idx, work.idx + envelope.inputs.length)]
              idx := work.idx + envelope.inputs.length } todo))
  | nothingValid {s : Batcher} {work : Assembly}
      (hpoint : s.loopTask = some (.assemble work [])) (hvalid : work.validBatch = []) :
      Step config s .run (s.goto .loopHead)
  | executorDown {s : Batcher} {work : Assembly}
      (hpoint : s.loopTask = some (.assemble work [])) (hvalid : work.validBatch ≠ [])
      (hdown : s.executorDown = true) :
      Step config s .run (s.goto (.failBatch work.validBatch))
  | submit {s : Batcher} {work : Assembly} (hpoint : s.loopTask = some (.assemble work []))
      (hvalid : work.validBatch ≠ []) (hdown : s.executorDown = false) :
      Step config s .run
        ((s.observe (.modelCall work.validBatch work.flattenedInputs)).goto (.awaitModel work))
  -- `_process_batch`: settling the futures
  | skipFailed {s : Batcher} {envelope : RequestEnvelope} {todo : List RequestEnvelope}
      (hpoint : s.loopTask = some (.failBatch (envelope :: todo)))
      (hdone : s.done envelope = true) :
      Step config s .run (s.goto (.failBatch todo))
  | failMember {s : Batcher} {envelope : RequestEnvelope} {todo : List RequestEnvelope}
      (hpoint : s.loopTask = some (.failBatch (envelope :: todo)))
      (hdone : s.done envelope = false) :
      Step config s .run
        (s.settle envelope (.exception inferenceFailed)
          (.exceptionSet envelope inferenceFailed s.now) (.failBatch todo))
  | failedAll {s : Batcher} (hpoint : s.loopTask = some (.failBatch [])) :
      Step config s .run (s.goto .loopHead)
  | skipDelivery {s : Batcher} {work : Assembly} {output : ModelOutput} {endProcessTime : Time}
      {envelope : RequestEnvelope} {slice : ℕ × ℕ} {todo : List (RequestEnvelope × ℕ × ℕ)}
      (hpoint : s.loopTask = some (.deliver work output endProcessTime ((envelope, slice) :: todo)))
      (hdone : s.done envelope = true) :
      Step config s .run (s.goto (.deliver work output endProcessTime todo))
  | lateDelivery {s : Batcher} {work : Assembly} {output : ModelOutput} {endProcessTime : Time}
      {envelope : RequestEnvelope} {slice : ℕ × ℕ} {todo : List (RequestEnvelope × ℕ × ℕ)}
      (hpoint : s.loopTask = some (.deliver work output endProcessTime ((envelope, slice) :: todo)))
      (hdone : s.done envelope = false) (hlate : envelope.localDeadline < s.now) :
      Step config s .run
        (s.settle envelope (.exception expiredAfterExecution)
          (.exceptionSet envelope expiredAfterExecution s.now)
          (.deliver work output endProcessTime todo))
  | deliverResult {s : Batcher} {work : Assembly} {output : ModelOutput} {endProcessTime : Time}
      {envelope : RequestEnvelope} {slice : ℕ × ℕ} {todo : List (RequestEnvelope × ℕ × ℕ)}
      {result : BatcherResult}
      (hpoint : s.loopTask = some (.deliver work output endProcessTime ((envelope, slice) :: todo)))
      (hdone : s.done envelope = false) (htime : s.now ≤ envelope.localDeadline)
      (hresult : result = buildResult work output endProcessTime envelope slice.1 slice.2) :
      Step config s .run
        (s.settle envelope (.result result) (.resultSet envelope result s.now)
          (.deliver work output endProcessTime todo))
  | deliveredAll {s : Batcher} {work : Assembly} {output : ModelOutput} {endProcessTime : Time}
      (hpoint : s.loopTask = some (.deliver work output endProcessTime [])) :
      Step config s .run (s.goto .loopHead)

/-! ## There is nothing else -/

theorem setException_of_pending {s : Batcher} {envelope : RequestEnvelope} {error : AppError}
    {next : LoopPoint} (hdone : s.done envelope = false) :
    s.setException envelope error next =
      s.settle envelope (.exception error) (.exceptionSet envelope error s.now) next := by
  have hpending : s.futures envelope.future = .pending := Future.done_eq_false_iff.mp hdone
  simp [setException, hpending]

theorem setResult_of_pending {s : Batcher} {envelope : RequestEnvelope} {result : BatcherResult}
    {next : LoopPoint} (hdone : s.done envelope = false) :
    s.setResult envelope result next =
      s.settle envelope (.result result) (.resultSet envelope result s.now) next := by
  have hpending : s.futures envelope.future = .pending := Future.done_eq_false_iff.mp hdone
  simp [setResult, hpending]

private theorem step_of_enqueue {s : Batcher} {requestId : String} {inputs : List String}
    {localDeadline : Time} (hidle : s.idle = true) :
    Step config s (.enqueue requestId inputs localDeadline)
      (s.enqueue requestId inputs localDeadline).2 := by
  by_cases hstopping : s.stopping = true
  · rw [enqueue, if_pos hstopping]
    exact .refuseStopping hidle hstopping
  · rw [enqueue, if_neg hstopping]
    rw [Bool.not_eq_true] at hstopping
    cases hfull : s.queue.full with
    | true =>
        simp only [Queue.putNowait, hfull, if_true]
        exact .refuseFull hidle hstopping hfull
    | false =>
        simp only [Queue.putNowait, hfull]
        cases hlive : s.loopLive with
        | true =>
            convert Step.acceptLive hidle hstopping hfull hlive using 1
            exact if_pos hlive
        | false =>
            convert Step.acceptIdle hidle hstopping hfull hlive using 1
            exact if_neg (Bool.not_eq_true _ ▸ hlive)

private theorem step_of_close {s : Batcher} (hidle : s.idle = true) :
    Step config s .close s.close := by
  unfold close
  split
  · exact .closeLive hidle ‹_›
  · exact .closeIdle hidle (Bool.eq_false_of_not_eq_true ‹_›)

private theorem step_of_resume {s next : Batcher} {wakeup : Wakeup} {point : LoopPoint}
    (hpoint : s.loopTask = some point) (hresume : s.resume wakeup point = some next) :
    Step config s (.resume wakeup) next := by
  cases point with
  | created =>
      simp only [resume] at hresume
      split at hresume <;> simp only [Option.some.injEq, reduceCtorEq] at hresume <;> subst hresume
      · exact .started hpoint ‹_›
      · exact .cancelCreated hpoint ‹_›
  | awaitFirst =>
      simp only [resume] at hresume
      split at hresume <;> simp only [Option.some.injEq, reduceCtorEq] at hresume <;> subst hresume
      · exact .itemFirst hpoint ‹_› ‹_›
      · exact .cancelFirst hpoint ‹_›
  | awaitNext batch totalItems deadlineTimer =>
      simp only [resume] at hresume
      split at hresume <;> simp only [Option.some.injEq, reduceCtorEq] at hresume <;> subst hresume
      · exact .itemNext hpoint ‹_› ‹_›
      · exact .timeoutNext hpoint ‹_›
      · exact .cancelNext hpoint ‹_›
  | awaitModel work =>
      simp only [resume] at hresume
      split at hresume <;> simp only [Option.some.injEq, reduceCtorEq] at hresume <;> subst hresume
      · exact .modelReturns hpoint ‹_›
      · exact .modelRaises hpoint ‹_›
      · exact .cancelModel hpoint ‹_›
  | _ => simp [resume] at hresume

private theorem step_of_loopHead {s : Batcher} (hpoint : s.loopTask = some .loopHead) :
    Step config s .run (s.advance config .loopHead) := by
  by_cases hstopping : s.stopping = true
  · rw [advance, if_pos hstopping]
    exact .stop hpoint hstopping
  · rw [advance, if_neg hstopping]
    rw [Bool.not_eq_true] at hstopping
    cases hheld : s.nextEnvelope with
    | some first => exact .takeHeld hpoint hstopping hheld
    | none =>
        cases hitems : s.queue.items with
        | nil => exact .waitFirst hpoint hstopping hheld hitems
        | cons first rest => exact .takeQueued hpoint hstopping hheld hitems

private theorem step_of_collect {s : Batcher} {batch : List RequestEnvelope} {totalItems : ℕ}
    {deadlineTimer : Time} (hpoint : s.loopTask = some (.collect batch totalItems deadlineTimer)) :
    Step config s .run (s.advance config (.collect batch totalItems deadlineTimer)) := by
  simp only [advance]
  split
  · rename_i hlimits
    split
    · exact .timerOver hpoint hlimits ‹_›
    · split
      · exact .takeNext hpoint hlimits ‹_› ‹_›
      · exact .waitNext hpoint hlimits ‹_› ‹_›
  · exact .batchFull hpoint ‹_›

private theorem step_of_checkNext {s : Batcher} {batch : List RequestEnvelope} {totalItems : ℕ}
    {deadlineTimer : Time} {envelope : RequestEnvelope}
    (hpoint : s.loopTask = some (.checkNext batch totalItems deadlineTimer envelope)) :
    Step config s .run (s.advance config (.checkNext batch totalItems deadlineTimer envelope)) := by
  simp only [advance]
  cases hdone : s.done envelope with
  | true => exact .skipNext hpoint hdone
  | false =>
      simp only [Bool.false_eq_true, if_false]
      split
      · rw [setException_of_pending hdone]
        exact .expireNext hpoint hdone ‹_›
      · split
        · exact .holdNext hpoint hdone (not_lt.mp ‹_›) ‹_›
        · exact .joinNext hpoint hdone (not_lt.mp ‹_›) (not_lt.mp ‹_›)

private theorem step_of_assemble {s : Batcher} {work : Assembly} {todo : List RequestEnvelope}
    (hpoint : s.loopTask = some (.assemble work todo)) :
    Step config s .run (s.advance config (.assemble work todo)) := by
  cases todo with
  | cons envelope todo =>
      simp only [advance]
      cases hdone : s.done envelope with
      | true => exact .skipMember hpoint hdone
      | false =>
          simp only [Bool.false_eq_true, if_false]
          split
          · rw [setException_of_pending hdone]
            exact .expireMember hpoint hdone ‹_›
          · exact .admitMember hpoint hdone (not_lt.mp ‹_›)
  | nil =>
      simp only [advance]
      split
      · exact .nothingValid hpoint (List.isEmpty_iff.mp ‹_›)
      · rename_i hvalid
        rw [List.isEmpty_iff] at hvalid
        split
        · exact .executorDown hpoint hvalid ‹_›
        · exact .submit hpoint hvalid (Bool.eq_false_of_not_eq_true ‹_›)

private theorem step_of_failBatch {s : Batcher} {todo : List RequestEnvelope}
    (hpoint : s.loopTask = some (.failBatch todo)) :
    Step config s .run (s.advance config (.failBatch todo)) := by
  cases todo with
  | nil => exact .failedAll hpoint
  | cons envelope todo =>
      simp only [advance]
      cases hdone : s.done envelope with
      | true => exact .skipFailed hpoint hdone
      | false =>
          simp only [Bool.false_eq_true, if_false]
          rw [setException_of_pending hdone]
          exact .failMember hpoint hdone

private theorem step_of_deliver {s : Batcher} {work : Assembly} {output : ModelOutput}
    {endProcessTime : Time} {todo : List (RequestEnvelope × ℕ × ℕ)}
    (hpoint : s.loopTask = some (.deliver work output endProcessTime todo)) :
    Step config s .run (s.advance config (.deliver work output endProcessTime todo)) := by
  cases todo with
  | nil => exact .deliveredAll hpoint
  | cons head todo =>
      obtain ⟨envelope, sStart, sEnd⟩ := head
      simp only [advance]
      cases hdone : s.done envelope with
      | true => exact .skipDelivery hpoint hdone
      | false =>
          simp only [Bool.false_eq_true, if_false]
          split
          · rw [setException_of_pending hdone]
            exact .lateDelivery hpoint hdone ‹_›
          · rw [setResult_of_pending hdone]
            exact .deliverResult hpoint hdone (not_lt.mp ‹_›) rfl

private theorem step_of_advance {s : Batcher} {point : LoopPoint}
    (hpoint : s.loopTask = some point) (hrunning : point.suspended = false) :
    Step config s .run (s.advance config point) := by
  cases point with
  | loopHead => exact step_of_loopHead hpoint
  | checkFirst first =>
      simp only [advance]
      cases hdone : s.done first with
      | true => exact .skipFirst hpoint hdone
      | false =>
          simp only [Bool.false_eq_true, if_false]
          split
          · rw [setException_of_pending hdone]
            exact .expireFirst hpoint hdone ‹_›
          · exact .keepFirst hpoint hdone (not_lt.mp ‹_›)
  | openBatch first => exact .openBatch hpoint
  | collect batch totalItems deadlineTimer => exact step_of_collect hpoint
  | checkNext batch totalItems deadlineTimer envelope => exact step_of_checkNext hpoint
  | processBatch batch => exact .beginProcess hpoint
  | assemble work todo => exact step_of_assemble hpoint
  | failBatch todo => exact step_of_failBatch hpoint
  | deliver work output endProcessTime todo => exact step_of_deliver hpoint
  | _ => simp [LoopPoint.suspended] at hrunning

/-- **The inversion lemma.**  Every event that can happen is one of the branches of `Step`. -/
theorem step_cases {s next : Batcher} {event : Event} (hstep : s.step config event = some next) :
    Step config s event next := by
  cases event with
  | tick elapsed =>
      simp only [step, Option.ite_none_right_eq_some, Option.some.injEq] at hstep
      obtain ⟨helapsed, rfl⟩ := hstep
      exact .tick helapsed
  | enqueue requestId inputs localDeadline =>
      simp only [step, Option.ite_none_right_eq_some, Option.some.injEq] at hstep
      obtain ⟨hidle, rfl⟩ := hstep
      exact step_of_enqueue hidle
  | cancelFuture future =>
      simp only [step, Option.ite_none_right_eq_some, Option.some.injEq] at hstep
      obtain ⟨⟨hidle, hfuture⟩, rfl⟩ := hstep
      exact .cancelFuture hidle hfuture
  | close =>
      simp only [step, Option.ite_none_right_eq_some, Option.some.injEq] at hstep
      obtain ⟨hidle, rfl⟩ := hstep
      exact step_of_close hidle
  | closeReturn =>
      simp only [step] at hstep
      split at hstep
      all_goals
        simp only [Option.ite_none_right_eq_some, Option.some.injEq, reduceCtorEq] at hstep
        try obtain ⟨hclosers, rfl⟩ := hstep
        try exact .closeReturn ‹_› hclosers
  | resume wakeup =>
      simp only [step, Option.bind_eq_some_iff] at hstep
      obtain ⟨point, hpoint, hresume⟩ := hstep
      exact step_of_resume hpoint hresume
  | run =>
      simp only [step] at hstep
      split at hstep
      · simp at hstep
      · rename_i point hpoint
        cases hsuspended : point.suspended with
        | true => simp [hsuspended] at hstep
        | false =>
            simp only [hsuspended, Bool.false_eq_true, if_false, Option.some.injEq] at hstep
            subst hstep
            exact step_of_advance hpoint hsuspended

/-! ## Futures stay settled -/

@[simp] theorem done_goto (s : Batcher) (point : LoopPoint) (envelope : RequestEnvelope) :
    (s.goto point).done envelope = s.done envelope := rfl

@[simp] theorem done_observe (s : Batcher) (observation : Observation)
    (envelope : RequestEnvelope) : (s.observe observation).done envelope = s.done envelope := rfl

theorem done_settle (s : Batcher) (settled envelope : RequestEnvelope)
    (future : Future BatcherResult AppError) (observation : Observation) (next : LoopPoint) :
    (s.settle settled future observation next).done envelope =
      if envelope.future = settled.future then future.done else s.done envelope := by
  simp only [done, settle_futures, Function.update_apply]
  split <;> rfl

theorem done_cancelFuture (s : Batcher) (future : ℕ) (envelope : RequestEnvelope) :
    (s.cancelFuture future).done envelope =
      if envelope.future = future then true else s.done envelope := by
  simp only [done, cancelFuture_futures, Function.update_apply]
  split <;> simp

/-- A future that is done stays done. -/
theorem done_of_step {s next : Batcher} {event : Event} {envelope : RequestEnvelope}
    (hstep : Step config s event next) (hfuture : envelope.future < s.nextFuture)
    (hdone : s.done envelope = true) : next.done envelope = true := by
  have hfresh : envelope.future ≠ s.nextFuture := hfuture.ne
  cases hstep
  case refuseFull | acceptLive | acceptIdle => simpa [done, hfresh] using hdone
  case cancelFuture => simp [done_cancelFuture, hdone]
  all_goals first | exact hdone | simp [done_settle, hdone]

/-! ## Closing -/

theorem loopLive_eq_false_iff {s : Batcher} :
    s.loopLive = false ↔ s.loopTask = none ∨ ∃ how, s.loopTask = some (.finished how) := by
  unfold loopLive
  split <;> simp_all

/-- Only `close` cancels the loop task, and only `close` makes it end.  The executor
is shut down when there is no loop task left. -/
structure Closing (s : Batcher) : Prop where
  cancel : s.cancelRequested = true → s.stopping = true
  finished : ∀ how, s.loopTask = some (.finished how) → s.stopping = true
  sound : s.loopTask ≠ some (.finished .invalidState)
  down : s.executorDown = true → s.stopping = true ∧ s.loopLive = false
  closed : s.closed = true → s.executorDown = true

/-- A loop task that goes on leaves the flags alone, but it may take note of the
cancellation. -/
theorem Closing.of_live {s next : Batcher} (h : Closing s) (hlive : s.loopLive = true)
    (hnext : next.loopLive = true)
    (hcancel : next.cancelRequested = true → s.cancelRequested = true)
    (hstopping : next.stopping = s.stopping) (hdown : next.executorDown = s.executorDown)
    (hclosed : next.closed = s.closed) : Closing next := by
  have hgoes : ∀ how, next.loopTask ≠ some (.finished how) := by
    intro how hfinished
    simp [loopLive, hfinished] at hnext
  refine ⟨?_, fun how hfinished => absurd hfinished (hgoes how), hgoes _, ?_, ?_⟩
  · rw [hstopping]
    exact fun hrequested => h.cancel (hcancel hrequested)
  · rw [hdown]
    intro hshut
    simp [(h.down hshut).2] at hlive
  · rw [hclosed, hdown]
    exact h.closed

/-- The loop task ends because of `close`. -/
theorem Closing.goto_finished {s : Batcher} (h : Closing s) {how : LoopEnd}
    (hsound : how ≠ .invalidState) (hlive : s.loopLive = true) (hstopping : s.stopping = true) :
    Closing ({ s with cancelRequested := false }.goto (.finished how)) := by
  refine ⟨nofun, fun _ _ => hstopping, by simpa using hsound, fun hdown => ?_, h.closed⟩
  simp [(h.down hdown).2] at hlive

theorem closing_of_step {s next : Batcher} {event : Event} (hstep : Step config s event next)
    (h : Closing s) : Closing next := by
  cases hstep
  case tick | refuseStopping | refuseFull | acceptLive | cancelFuture =>
    exact ⟨h.cancel, h.finished, h.sound, h.down, h.closed⟩
  case acceptIdle hstopping _ _ =>
    have hup : s.executorDown ≠ true := by
      intro hdown
      simp [(h.down hdown).1] at hstopping
    exact ⟨nofun, nofun, nofun, fun hdown => absurd hdown hup, h.closed⟩
  case closeLive hlive =>
    refine ⟨fun _ => rfl, fun _ _ => rfl, h.sound, fun hdown => ?_, h.closed⟩
    simp [(h.down hdown).2] at hlive
  case closeIdle hlive =>
    exact ⟨fun _ => rfl, fun _ _ => rfl, h.sound, fun _ => ⟨rfl, hlive⟩, fun _ => rfl⟩
  case closeReturn how hpoint _ =>
    have hlive : s.loopLive = false := by simp [loopLive, hpoint]
    exact ⟨h.cancel, h.finished, h.sound, fun _ => ⟨h.finished how hpoint, hlive⟩, fun _ => rfl⟩
  case stop hpoint hstopping =>
    refine ⟨h.cancel, fun _ _ => hstopping, nofun, fun hdown => ?_, h.closed⟩
    have hlive := (h.down hdown).2
    simp [loopLive, hpoint] at hlive
  case cancelCreated hpoint hcancel | cancelFirst hpoint hcancel | cancelModel hpoint hcancel =>
    exact h.goto_finished nofun (by simp [loopLive, hpoint]) (h.cancel hcancel)
  case cancelNext hpoint _ =>
    exact h.of_live (by simp [loopLive, hpoint]) rfl nofun rfl rfl rfl
  all_goals exact h.of_live (by simp [loopLive, *]) rfl id rfl rfl rfl

theorem closing_of_reachable {s : Batcher} (hreach : (machine config).Reachable s) :
    Closing s := by
  refine hreach.invariant ?_ fun s event next _ h hstep => closing_of_step (step_cases hstep) h
  rintro s ⟨now, rfl⟩
  exact ⟨nofun, nofun, nofun, nofun, nofun⟩

end ModelServer.Batcher
