import ModelServer.Scripts.SummarizeResults

/-!
# The throughput of a trial

`total_sec` ends with the last start, and what is still running then is left out.  So
the throughput is overstated, except in two kinds of trials: those that are over
within the millisecond that `total_sec` is at least (`Brief`), and those in which
nothing is running any more when the last request starts, not even that one
(`Quiet`).
-/

namespace ModelServer

/-- When the request ends, in nanoseconds. -/
def completionNs (r : Record) : ℚ := r.startedNs + r.durationMs * 10 ^ 6

/-- From the first start to the last completion, of a list that is not empty. -/
def elapsedSec (records : List Record) : ℚ :=
  ((records.map completionNs).max?.getD 0 - minStartNs records) / 10 ^ 9

/-- The request ends within `total_sec` of the first start. -/
def Covered (records : List Record) (r : Record) : Prop :=
  (completionNs r - minStartNs records) / 10 ^ 9 ≤ totalSec records

instance (records : List Record) (r : Record) : Decidable (Covered records r) :=
  inferInstanceAs (Decidable (_ ≤ _))

/-- Every request is covered, and so no throughput is more than it was. -/
structure NeverOverstated (records : List Record) : Prop where
  covered : ∀ r ∈ records, Covered records r
  attempted : 0 < elapsedSec records →
    attemptedThroughput records ≤ records.length / elapsedSec records
  successful : 0 < elapsedSec records →
    successfulThroughput records ≤ (successfulRecords records).length / elapsedSec records

/-- Every request ends within a millisecond of every start. -/
def Brief (records : List Record) : Prop :=
  ∀ r ∈ records, ∀ other ∈ records, completionNs r ≤ other.startedNs + 10 ^ 6

/-- Every request has ended when one of them starts. -/
def Quiet (records : List Record) : Prop :=
  ∃ last ∈ records, ∀ r ∈ records, completionNs r ≤ last.startedNs

variable {records : List Record}

theorem exists_minStartNs (h : records ≠ []) : ∃ r ∈ records, r.startedNs = minStartNs records := by
  have hne : records.map Record.startedNs ≠ [] := by simpa using h
  obtain ⟨least, hleast⟩ := Option.isSome_iff_exists.mp (List.isSome_min?_of_ne_nil hne)
  rw [minStartNs, hleast, Option.getD_some]
  exact List.mem_map.mp (List.min?_mem hleast)

theorem exists_maxStartNs (h : records ≠ []) : ∃ r ∈ records, r.startedNs = maxStartNs records := by
  have hne : records.map Record.startedNs ≠ [] := by simpa using h
  obtain ⟨greatest, hgreatest⟩ := Option.isSome_iff_exists.mp (List.isSome_max?_of_ne_nil hne)
  rw [maxStartNs, hgreatest, Option.getD_some]
  exact List.mem_map.mp (List.max?_mem hgreatest)

/-! ## What is covered -/

/-- `total_sec` covers a millisecond, or up to the last start. -/
theorem covered_iff {r : Record} :
    Covered records r ↔
      completionNs r ≤ minStartNs records + 10 ^ 6 ∨ completionNs r ≤ maxStartNs records := by
  have hfloor : (completionNs r - minStartNs records) / 10 ^ 9 ≤ 1 / 1000 ↔
      completionNs r ≤ minStartNs records + 10 ^ 6 := by
    rw [div_le_iff₀ (by norm_num), sub_le_iff_le_add']
    norm_num
  rw [Covered, totalSec, le_max_iff, hfloor, div_le_div_iff_of_pos_right (by norm_num),
    Int.cast_sub, sub_le_sub_iff_right]

theorem brief_iff (h : records ≠ []) :
    Brief records ↔ ∀ r ∈ records, completionNs r ≤ minStartNs records + 10 ^ 6 := by
  constructor
  · intro hbrief r hr
    obtain ⟨first, hfirst, hstart⟩ := exists_minStartNs h
    rw [← hstart]
    exact hbrief r hr first hfirst
  · intro hcovered r hr other hother
    have hstart : (minStartNs records : ℚ) ≤ other.startedNs := by
      exact_mod_cast minStartNs_le hother
    exact (hcovered r hr).trans (add_le_add_left hstart _)

theorem quiet_iff (h : records ≠ []) :
    Quiet records ↔ ∀ r ∈ records, completionNs r ≤ maxStartNs records := by
  constructor
  · rintro ⟨last, hlast, hquiet⟩ r hr
    have hstart : (last.startedNs : ℚ) ≤ maxStartNs records := by
      exact_mod_cast le_maxStartNs hlast
    exact (hquiet r hr).trans hstart
  · intro hcovered
    obtain ⟨last, hlast, hstart⟩ := exists_maxStartNs h
    refine ⟨last, hlast, fun r hr => ?_⟩
    rw [hstart]
    exact hcovered r hr

theorem covered_all_iff (h : records ≠ []) :
    (∀ r ∈ records, Covered records r) ↔ Brief records ∨ Quiet records := by
  rw [brief_iff h, quiet_iff h]
  simp only [covered_iff]
  constructor
  · intro hcovered
    -- the later of the two ends covers everything
    rcases le_total ((minStartNs records : ℚ) + 10 ^ 6) (maxStartNs records : ℚ) with
      hlast | hlast
    · exact .inr fun r hr => (hcovered r hr).elim (·.trans hlast) id
    · exact .inl fun r hr => (hcovered r hr).elim id (·.trans hlast)
  · rintro (hbrief | hquiet) r hr
    · exact .inl (hbrief r hr)
    · exact .inr (hquiet r hr)

/-! ## Throughput -/

theorem elapsedSec_le (h : records ≠ []) (hcovered : ∀ r ∈ records, Covered records r) :
    elapsedSec records ≤ totalSec records := by
  have hne : records.map completionNs ≠ [] := by simpa using h
  obtain ⟨greatest, hgreatest⟩ := Option.isSome_iff_exists.mp (List.isSome_max?_of_ne_nil hne)
  obtain ⟨r, hr, hlast⟩ := List.mem_map.mp (List.max?_mem hgreatest)
  rw [elapsedSec, hgreatest, Option.getD_some, ← hlast]
  exact hcovered r hr

theorem neverOverstated_of_covered (h : records ≠ [])
    (hcovered : ∀ r ∈ records, Covered records r) : NeverOverstated records where
  covered := hcovered
  attempted hpos :=
    div_le_div_of_nonneg_left (Nat.cast_nonneg _) hpos (elapsedSec_le h hcovered)
  successful hpos :=
    div_le_div_of_nonneg_left (Nat.cast_nonneg _) hpos (elapsedSec_le h hcovered)

/-- **The throughput is overstated** in all but brief and quiet trials. -/
theorem neverOverstated_iff (records : List Record) (h : records ≠ []) :
    NeverOverstated records ↔ Brief records ∨ Quiet records := by
  rw [← covered_all_iff h]
  exact ⟨NeverOverstated.covered, neverOverstated_of_covered h⟩

/-- A request of two tenths of a millisecond, and one that starts when it has ended. -/
def briefTrial : List Record :=
  [{ startedNs := 0, durationMs := 2 / 10, httpStatus := 200 },
    { startedNs := 200000, durationMs := 3 / 10, httpStatus := 200 }]

theorem neverOverstated_brief : NeverOverstated briefTrial := by
  refine (neverOverstated_iff briefTrial (by decide)).mpr (.inl ?_)
  unfold Brief
  decide +kernel

/-- One client sends two requests, each of which takes 0.4 seconds. -/
def twoInARow : List Record :=
  [{ startedNs := 0, durationMs := 400, httpStatus := 200 },
    { startedNs := 400000000, durationMs := 400, httpStatus := 200 }]

/-- Five requests a second are reported where there were two and a half. -/
theorem overstated_twoInARow :
    ¬NeverOverstated twoInARow ∧ attemptedThroughput twoInARow = 5 ∧
      twoInARow.length / elapsedSec twoInARow = 5 / 2 := by
  refine ⟨fun h => ?_, by decide +kernel, by decide +kernel⟩
  have huncovered : ¬∀ r ∈ twoInARow, Covered twoInARow r := by decide +kernel
  exact huncovered h.covered

end ModelServer
