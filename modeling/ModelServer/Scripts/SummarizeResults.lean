import Mathlib
import ModelServer.Library.Dictionary
import ModelServer.Library.Rounding
import ModelServer.Scripts.Percentile

/-!
# `summarize_results.py`

`summarize_trial` over the records that have been read from the trial file and the
rows of the resource file, which are none where there is no such file.  All numbers
are exact.

The counts of a summary are counts of one list of records, seen from different
sides; `Summary.Same` is the equality of summaries as dictionaries.
-/

namespace ModelServer

/-- A record of `benchmark.py`; what no summary reads is left out. -/
structure Record where
  startedNs : ℤ
  durationMs : ℚ
  httpStatus : ℤ
  workerId : Option String := none
  attempts : ℤ := 1
  queueMs : ℚ := 0
  inferenceMs : ℚ := 0
  deriving DecidableEq, Repr

structure ResourceRow where
  cpuPercent : ℚ
  memoryBytes : ℚ

structure Summary where
  totalRequests : ℕ
  successCount : ℕ
  durationSec : ℚ
  attemptedThroughput : ℚ
  successfulThroughput : ℚ
  p50LatencyMs : ℚ
  p95LatencyMs : ℚ
  p99LatencyMs : ℚ
  statusCounts : Dict String ℕ
  workerCounts : Dict String ℕ
  retriesCount : ℕ
  p50QueueMs : ℚ
  p95QueueMs : ℚ
  p50InferenceMs : ℚ
  p95InferenceMs : ℚ
  avgCpuPercent : ℚ
  peakMemMb : ℚ

/-! ## `summarize_trial` -/

def successfulRecords (records : List Record) : List Record :=
  records.filter fun r => r.httpStatus = 200

/-- Of a list that is not empty. -/
def minStartNs (records : List Record) : ℤ := (records.map Record.startedNs).min?.getD 0

def maxStartNs (records : List Record) : ℤ := (records.map Record.startedNs).max?.getD 0

def totalSec (records : List Record) : ℚ :=
  max (1 / 1000) ((maxStartNs records - minStartNs records : ℤ) / 10 ^ 9)

def attemptedThroughput (records : List Record) : ℚ := records.length / totalSec records

def successfulThroughput (records : List Record) : ℚ :=
  (successfulRecords records).length / totalSec records

/-- `str(r["http_status"])`. -/
def statusKey (r : Record) : String := toString r.httpStatus

/-- `r.get("worker_id") or "unknown"`. -/
def workerKey (r : Record) : String :=
  match r.workerId with
  | none => "unknown"
  | some workerId => if workerId = "" then "unknown" else workerId

def avgCpu (rows : List ResourceRow) : ℚ :=
  if rows = [] then 0 else (rows.map ResourceRow.cpuPercent).sum / rows.length

def peakMemMb (rows : List ResourceRow) : ℚ :=
  if rows = [] then 0
  else (rows.map ResourceRow.memoryBytes).max?.getD 0 / (1024 * 1024)

/-- `round(percentile(..), 2)` of a field of the successful records. -/
def roundedPercentile (field : Record → ℚ) (records : List Record) (pct : ℚ) : ℚ :=
  Rounding.roundTo 2 (percentile ((successfulRecords records).map field) pct)

/-- The error is the dictionary with this text under `"error"`. -/
def summarizeTrial (records : List Record) (rows : List ResourceRow) : Except String Summary :=
  if records = [] then .error "No records found"
  else
    .ok
      { totalRequests := records.length
        successCount := (successfulRecords records).length
        durationSec := Rounding.roundTo 2 (totalSec records)
        attemptedThroughput := Rounding.roundTo 2 (attemptedThroughput records)
        successfulThroughput := Rounding.roundTo 2 (successfulThroughput records)
        p50LatencyMs := roundedPercentile Record.durationMs records (50 / 100)
        p95LatencyMs := roundedPercentile Record.durationMs records (95 / 100)
        p99LatencyMs := roundedPercentile Record.durationMs records (99 / 100)
        statusCounts := Dict.tally statusKey records
        workerCounts := Dict.tally workerKey (successfulRecords records)
        retriesCount := records.countP fun r => 1 < r.attempts
        p50QueueMs := roundedPercentile Record.queueMs records (50 / 100)
        p95QueueMs := roundedPercentile Record.queueMs records (95 / 100)
        p50InferenceMs := roundedPercentile Record.inferenceMs records (50 / 100)
        p95InferenceMs := roundedPercentile Record.inferenceMs records (95 / 100)
        avgCpuPercent := Rounding.roundTo 2 (avgCpu rows)
        peakMemMb := Rounding.roundTo 2 (peakMemMb rows) }

/-! ## Starts -/

variable {records records' : List Record}

theorem minStartNs_le {r : Record} (h : r ∈ records) : minStartNs records ≤ r.startedNs := by
  have hmem : r.startedNs ∈ records.map Record.startedNs := List.mem_map_of_mem h
  obtain ⟨least, hleast⟩ := Option.isSome_iff_exists.mp (List.isSome_min?_of_mem hmem)
  rw [minStartNs, hleast, Option.getD_some]
  exact (List.min?_eq_some_iff.mp hleast).2 _ hmem

theorem le_maxStartNs {r : Record} (h : r ∈ records) : r.startedNs ≤ maxStartNs records := by
  have hmem : r.startedNs ∈ records.map Record.startedNs := List.mem_map_of_mem h
  obtain ⟨greatest, hgreatest⟩ := Option.isSome_iff_exists.mp (List.isSome_max?_of_mem hmem)
  rw [maxStartNs, hgreatest, Option.getD_some]
  exact (List.max?_eq_some_iff.mp hgreatest).2 _ hmem

theorem totalSec_pos (records : List Record) : 0 < totalSec records :=
  lt_max_of_lt_left (by norm_num)

theorem totalSec_of_perm (h : records.Perm records') : totalSec records = totalSec records' := by
  have hstarts := h.map Record.startedNs
  have hmin : minStartNs records = minStartNs records' := by
    rw [minStartNs, minStartNs, List.getD_min?_eq_untopD_minimum,
      List.getD_min?_eq_untopD_minimum, hstarts.minimum_eq]
  have hmax : maxStartNs records = maxStartNs records' := by
    rw [maxStartNs, maxStartNs, List.getD_max?_eq_unbotD_maximum,
      List.getD_max?_eq_unbotD_maximum, hstarts.maximum_eq]
  rw [totalSec, totalSec, hmin, hmax]

/-! ## Counts -/

/-- No two statuses have the same text. -/
theorem statusKey_eq_iff {r : Record} {status : ℤ} :
    statusKey r = toString status ↔ r.httpStatus = status :=
  Int.repr_inj

theorem getD_statusCounts (records : List Record) (status : ℤ) :
    ((Dict.tally statusKey records).get? (toString status)).getD 0 =
      records.countP fun r => r.httpStatus = status := by
  rw [Dict.getD_tally]
  simp only [statusKey_eq_iff]

theorem length_successfulRecords (records : List Record) :
    (successfulRecords records).length = records.countP fun r => r.httpStatus = 200 :=
  List.countP_eq_length_filter.symm

theorem getD_workerCounts (records : List Record) (workerId : String) :
    ((Dict.tally workerKey (successfulRecords records)).get? workerId).getD 0 =
      records.countP fun r => r.httpStatus = 200 ∧ workerKey r = workerId := by
  rw [Dict.getD_tally, successfulRecords, List.countP_filter]
  simp only [Bool.decide_and, Bool.and_comm]

theorem successfulRecords_of_perm (h : records.Perm records') :
    (successfulRecords records).Perm (successfulRecords records') :=
  h.filter _

theorem successfulThroughput_le (records : List Record) :
    successfulThroughput records ≤ attemptedThroughput records := by
  have hlength : (successfulRecords records).length ≤ records.length := List.length_filter_le _ _
  have hpos := totalSec_pos records
  unfold successfulThroughput attemptedThroughput
  gcongr

theorem roundedPercentile_mono (field : Record → ℚ) (records : List Record) {low high : ℚ}
    (h : low ≤ high) : roundedPercentile field records low ≤ roundedPercentile field records high :=
  Rounding.roundTo_mono 2 (percentile_mono _ h)

theorem roundedPercentile_of_perm (field : Record → ℚ) (h : records.Perm records') (pct : ℚ) :
    roundedPercentile field records pct = roundedPercentile field records' pct := by
  rw [roundedPercentile, percentile_of_perm ((successfulRecords_of_perm h).map field) pct,
    roundedPercentile]

/-! ## Summaries -/

/-- Equal, the two maps as maps. -/
def Summary.Same (summary summary' : Summary) : Prop :=
  summary.statusCounts.Same summary'.statusCounts ∧
    summary.workerCounts.Same summary'.workerCounts ∧
    { summary with statusCounts := .empty, workerCounts := .empty } =
      { summary' with statusCounts := .empty, workerCounts := .empty }

/-- The counts are those of the records: all of them, the ones with each status, and among
the successful ones those of each worker. -/
structure Summary.Counts (records : List Record) (summary : Summary) : Prop where
  total : summary.totalRequests = records.length
  success : summary.successCount = records.countP fun r => r.httpStatus = 200
  statuses : ∀ status : ℤ, (summary.statusCounts.get? (toString status)).getD 0 =
    records.countP fun r => r.httpStatus = status
  workers : ∀ workerId, (summary.workerCounts.get? workerId).getD 0 =
    records.countP fun r => r.httpStatus = 200 ∧ workerKey r = workerId

theorem counts_of_summarizeTrial {rows : List ResourceRow} {summary : Summary}
    (h : summarizeTrial records rows = .ok summary) : summary.Counts records := by
  unfold summarizeTrial at h
  split at h
  · cases h
  · obtain rfl := Except.ok.inj h
    exact
      { total := rfl
        success := length_successfulRecords records
        statuses := getD_statusCounts records
        workers := getD_workerCounts records }

/-- The counts agree, and the percentiles are in order. -/
structure Summary.Consistent (summary : Summary) : Prop where
  total : summary.statusCounts.values.sum = summary.totalRequests
  success : (summary.statusCounts.get? "200").getD 0 = summary.successCount
  workers : summary.workerCounts.values.sum = summary.successCount
  throughput : summary.successfulThroughput ≤ summary.attemptedThroughput
  latency : summary.p50LatencyMs ≤ summary.p95LatencyMs ∧
    summary.p95LatencyMs ≤ summary.p99LatencyMs
  queue : summary.p50QueueMs ≤ summary.p95QueueMs
  inference : summary.p50InferenceMs ≤ summary.p95InferenceMs

theorem consistent_of_summarizeTrial {rows : List ResourceRow} {summary : Summary}
    (h : summarizeTrial records rows = .ok summary) : summary.Consistent := by
  have hcounts := counts_of_summarizeTrial h
  unfold summarizeTrial at h
  split at h
  · cases h
  · obtain rfl := Except.ok.inj h
    exact
      { total := Dict.sum_tally statusKey records
        success := (hcounts.statuses 200).trans hcounts.success.symm
        workers := Dict.sum_tally workerKey (successfulRecords records)
        throughput := Rounding.roundTo_mono 2 (successfulThroughput_le records)
        latency := ⟨roundedPercentile_mono _ _ (by norm_num),
          roundedPercentile_mono _ _ (by norm_num)⟩
        queue := roundedPercentile_mono _ _ (by norm_num)
        inference := roundedPercentile_mono _ _ (by norm_num) }

theorem same_of_perm {rows : List ResourceRow} {summary summary' : Summary}
    (hperm : records.Perm records') (h : summarizeTrial records rows = .ok summary)
    (h' : summarizeTrial records' rows = .ok summary') : summary.Same summary' := by
  have hsuccess := successfulRecords_of_perm hperm
  unfold summarizeTrial at h h'
  split at h
  · cases h
  · split at h'
    · cases h'
    · obtain rfl := Except.ok.inj h
      obtain rfl := Except.ok.inj h'
      refine ⟨Dict.tally_same_of_perm _ hperm, Dict.tally_same_of_perm _ hsuccess, ?_⟩
      simp only [attemptedThroughput, successfulThroughput, hperm.length_eq, hsuccess.length_eq,
        totalSec_of_perm hperm, roundedPercentile_of_perm _ hperm, hperm.countP_eq]

/-- **A summary conserves the counts and ignores the order of the records.** -/
theorem summary_conserves (records : List Record) (h : records ≠ []) (rows : List ResourceRow) :
    ∃ summary, summarizeTrial records rows = .ok summary ∧ summary.Consistent ∧
      summary.Counts records ∧ ∀ records', records'.Perm records → ∃ summary',
        summarizeTrial records' rows = .ok summary' ∧ summary'.Same summary := by
  obtain ⟨summary, hsummary⟩ : ∃ summary, summarizeTrial records rows = .ok summary :=
    ⟨_, if_neg h⟩
  refine ⟨summary, hsummary, consistent_of_summarizeTrial hsummary,
    counts_of_summarizeTrial hsummary, fun records' hperm => ?_⟩
  have h' : records' ≠ [] := fun hnil => h (List.nil_perm.mp (hnil ▸ hperm))
  obtain ⟨summary', hsummary'⟩ : ∃ summary', summarizeTrial records' rows = .ok summary' :=
    ⟨_, if_neg h'⟩
  exact ⟨summary', hsummary', same_of_perm hperm hsummary' hsummary⟩

/-- Two answers of different workers, and a connection that failed. -/
def sampleRecords : List Record :=
  [{ startedNs := 5 * 10 ^ 8, durationMs := 30, httpStatus := 200, workerId := some "worker-2",
     attempts := 2, queueMs := 4, inferenceMs := 9 },
    { startedNs := 0, durationMs := 500, httpStatus := 0 },
    { startedNs := 10 ^ 9, durationMs := 20, httpStatus := 200, workerId := some "worker-1",
      queueMs := 3, inferenceMs := 8 }]

theorem summary_conserves_sample :
    ∃ summary, summarizeTrial sampleRecords [] = .ok summary ∧ summary.Consistent ∧
      summary.Counts sampleRecords ∧
      ∃ summary', summarizeTrial sampleRecords.reverse [] = .ok summary' ∧
        summary'.Same summary := by
  obtain ⟨summary, hsummary, hconsistent, hcounts, hperm⟩ :=
    summary_conserves sampleRecords (by decide) []
  exact ⟨summary, hsummary, hconsistent, hcounts, hperm _ (List.reverse_perm sampleRecords)⟩

example : ((summarizeTrial sampleRecords []).toOption.map fun summary =>
    (summary.attemptedThroughput, summary.p50LatencyMs, summary.statusCounts.items)) =
      some (3, 20, [("200", 2), ("0", 1)]) := by
  decide +kernel

end ModelServer
