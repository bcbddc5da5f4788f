import Mathlib.Data.String.Basic
import ModelServer.Library.Rotation
import ModelServer.Gateway.Scheduler

/-!
# When a tied worker is served

Selections and releases in any order, from any registry and any cursor.  The
cursor of `select_worker` is an index into the list of the candidates: a call
moves it on to the place of the next candidate in its own list
(`nextPlace_of_cursor`), and the list of the next call may be another one.

Where the same number is the place of the next candidate there as well
(`Turn.InOrder`), the workers are served in the order of their ids, and each
call brings a waiting candidate nearer (`distance_lt_of_inOrder`).  So a worker
that is a candidate in as many successful calls in a row as there are workers is
selected: `tied_worker_selected`.  Otherwise it can be passed over.
-/

namespace ModelServer

open Transition

namespace Turn

/-- The candidate at the cursor. -/
def due (turn : Turn) : Option String :=
  turn.candidates[turn.cursor % turn.candidates.length]?

/-- The cursor that `select_worker` leaves. -/
def nextCursor (turn : Turn) : ℕ := (turn.cursor + 1) % turn.candidates.length

/-- The place of the candidate after the one that is due is, reduced to the list of the next
call, the place of the candidate after it there. -/
def InOrder (turn next : Turn) : Prop :=
  ∀ served ∈ turn.due,
    Rotation.nextPlace turn.candidates served % next.candidates.length =
      Rotation.nextPlace next.candidates served

instance : DecidableRel InOrder := fun turn _ =>
  inferInstanceAs (Decidable (∀ served ∈ turn.due, _))

end Turn

namespace Scheduler

variable {config : GatewayConfig}

inductive Event
  | select (excludeIds : Finset String)
  | release (workerId : String)

/-- A call of `select_worker` that raises changes nothing. -/
def step (config : GatewayConfig) (s : Scheduler) : Event → Scheduler
  | .select excludeIds =>
      match s.selectWorker config excludeIds with
      | .ok (_, next) => next
      | .error _ => s
  | .release workerId => s.releaseWorker workerId

/-- Any registry and any cursor. -/
def machine (config : GatewayConfig) : Machine Scheduler Event where
  Initial s := s.turns = []
  step s event := some (s.step config event)

/-- A step is a selection, or it leaves the cursor and the record alone. -/
theorem step_cases (config : GatewayConfig) (s : Scheduler) (event : Event) :
    (∃ excludeIds selected, Selects config s excludeIds selected (s.step config event)) ∨
      (s.step config event).registry.ids = s.registry.ids ∧
        (s.step config event).cursor = s.cursor ∧ (s.step config event).turns = s.turns := by
  cases event with
  | select excludeIds =>
      simp only [step]
      split
      · rename_i selected next hselect
        exact .inl ⟨excludeIds, selected, selectWorker_spec hselect⟩
      · exact .inr ⟨rfl, rfl, rfl⟩
  | release workerId =>
      right
      simp only [step, releaseWorker]
      split <;> exact ⟨rfl, rfl, rfl⟩

/-! ## The record of the turns -/

theorem sortedLT_candidates (s : Scheduler) (excludeIds : Finset String) :
    (s.candidates config excludeIds).SortedLT := by
  refine List.sortedLT_iff_nodup_and_sortedLE.mpr ⟨?_, ?_⟩
  · rw [candidates, (List.perm_insertionSort _ _).nodup_iff]
    exact ((s.registry.nodup.filter _).filter _).filter _
  · exact List.sortedLE_insertionSort

theorem candidates_subset (s : Scheduler) (excludeIds : Finset String) :
    s.candidates config excludeIds ⊆ s.registry.ids :=
  fun _ hmem => (mem_eligible.mp (mem_candidates.mp hmem).1).1

/-- A turn returns the candidate at the cursor; the candidates are configured workers in
the order of their ids. -/
structure Fair (ids : List String) (turn : Turn) : Prop where
  due : turn.due = some turn.selected
  sorted : turn.candidates.SortedLT
  configured : turn.candidates ⊆ ids

theorem Fair.selected_mem {ids : List String} {turn : Turn} (h : Fair ids turn) :
    turn.selected ∈ ids :=
  h.configured (List.mem_of_getElem? h.due)

/-- Each turn is fair and finds the cursor that the turn before it has left. -/
structure Recorded (s : Scheduler) : Prop where
  fair : ∀ turn ∈ s.turns, Fair s.registry.ids turn
  linked : s.turns.IsChain fun turn next => next.cursor = turn.nextCursor
  last : ∀ turn ∈ s.turns.getLast?, s.cursor = turn.nextCursor

theorem Recorded.of_selects {s next : Scheduler} {excludeIds : Finset String} {selected : String}
    (h : Recorded s) (hselects : Selects config s excludeIds selected next) : Recorded next := by
  have hids : next.registry.ids = s.registry.ids := by
    rw [hselects.registry, WorkerRegistry.setNode_ids]
  refine ⟨?_, ?_, ?_⟩
  · intro turn hmem
    rw [hselects.turns, List.mem_append, List.mem_singleton] at hmem
    rw [hids]
    rcases hmem with hold | rfl
    · exact h.fair turn hold
    · exact ⟨hselects.inTurn, sortedLT_candidates s excludeIds, candidates_subset s excludeIds⟩
  · rw [hselects.turns]
    refine h.linked.append (List.isChain_singleton _) ?_
    rintro turn hlast _ ⟨⟩
    exact h.last turn hlast
  · rw [hselects.turns, List.getLast?_concat]
    rintro _ ⟨⟩
    exact hselects.cursor

theorem recorded_of_reachable {s : Scheduler} (hreach : (machine config).Reachable s) :
    Recorded s := by
  apply hreach.invariant
  · intro s hinitial
    have hturns : s.turns = [] := hinitial
    exact ⟨by simp [hturns], by simp [hturns], by simp [hturns]⟩
  · intro s event next _ h hstep
    obtain rfl := Option.some.inj hstep
    rcases step_cases config s event with ⟨_, _, hselects⟩ | ⟨hids, hcursor, hturns⟩
    · exact h.of_selects hselects
    · refine ⟨?_, ?_, ?_⟩
      · rw [hids, hturns]
        exact h.fair
      · rw [hturns]
        exact h.linked
      · rw [hcursor, hturns]
        exact h.last

/-! ## Whose turn it is -/

/-- The cursor moves on to the place of the candidate after the one served. -/
theorem nextPlace_of_cursor {ids : List String} {turn : Turn} (h : Fair ids turn) :
    turn.nextCursor = Rotation.nextPlace turn.candidates turn.selected :=
  Rotation.add_one_mod_length h.sorted h.due

/-- In order means that the next call finds the cursor at the place of the candidate after
the one served. -/
theorem inOrder_iff {ids : List String} {turn next : Turn} (hturn : Fair ids turn)
    (hcursor : next.cursor = turn.nextCursor) :
    turn.InOrder next ↔ next.cursor % next.candidates.length =
      Rotation.nextPlace next.candidates turn.selected := by
  rw [hcursor, nextPlace_of_cursor hturn, Turn.InOrder, hturn.due]
  simp

/-- Called in order, `select_worker` brings a waiting candidate nearer. -/
theorem distance_lt_of_inOrder {ids : List String} {turn next : Turn} (hturn : Fair ids turn)
    (hnext : Fair ids next) (hcursor : next.cursor = turn.nextCursor)
    (horder : turn.InOrder next) {workerId : String} (hcandidate : workerId ∈ next.candidates)
    (hwaiting : turn.selected ≠ workerId) :
    Rotation.distance ids next.selected workerId <
      Rotation.distance ids turn.selected workerId := by
  have hselected : next.candidates[Rotation.nextPlace next.candidates turn.selected]? =
      some next.selected := by
    rw [← (inOrder_iff hturn hcursor).mp horder]
    exact hnext.due
  exact Rotation.distance_next_lt hnext.sorted.sortedLE hnext.configured hturn.selected_mem
    hcandidate hwaiting hselected

/-- **A tied worker is served.**  In every run, if a worker is a candidate in as many
successful selections in a row as there are workers, and from each of them to the next the
cursor keeps its place in the order of the ids, then one of them returns it. -/
theorem tied_worker_selected {s : Scheduler} (hreach : (machine config).Reachable s)
    {before window after : List Turn} (hturns : s.turns = before ++ window ++ after)
    (hlength : window.length = s.registry.ids.length) {workerId : String}
    (hworker : workerId ∈ s.registry.ids)
    (hcandidate : ∀ turn ∈ window, workerId ∈ turn.candidates)
    (horder : window.IsChain Turn.InOrder) :
    ∃ turn ∈ window, turn.selected = workerId := by
  have hrecorded := recorded_of_reachable hreach
  have hfair (turn : Turn) (hmem : turn ∈ window) : Fair s.registry.ids turn :=
    hrecorded.fair turn (by simp [hturns, hmem])
  have hlinks : window.IsChain fun turn next => next.cursor = turn.nextCursor :=
    (hturns ▸ hrecorded.linked).left_of_append.right_of_append
  set distances := window.map fun turn => Rotation.distance s.registry.ids turn.selected workerId
    with hdistances
  have hchain : distances.IsChain fun before after => before = 0 ∨ after < before := by
    rw [hdistances, List.isChain_map, List.isChain_iff_forall_rel_of_append_cons_cons]
    intro turn next _ _ hsplit
    have hlinked := List.isChain_iff_forall_rel_of_append_cons_cons.mp hlinks hsplit
    have hordered := List.isChain_iff_forall_rel_of_append_cons_cons.mp horder hsplit
    have hturn : turn ∈ window := by simp [hsplit]
    have hnext : next ∈ window := by simp [hsplit]
    by_cases hserved : turn.selected = workerId
    · left
      rw [hserved, Rotation.distance_self hworker]
    · right
      exact distance_lt_of_inOrder (hfair turn hturn) (hfair next hnext) hlinked hordered
        (hcandidate next hnext) hserved
  have hlengths : distances.length = s.registry.ids.length := by
    rw [hdistances, List.length_map, hlength]
  have hne : distances ≠ [] := by
    rw [← List.length_pos_iff, hlengths]
    exact List.length_pos_of_mem hworker
  have hfirst : distances.head hne < distances.length := by
    rw [hlengths]
    obtain ⟨turn, _, hhead⟩ := List.mem_map.mp (List.head_mem hne)
    rw [← hhead]
    exact Rotation.distance_lt hworker turn.selected
  have hzero : 0 ∈ distances := Rotation.zero_mem hne hchain hfirst
  obtain ⟨turn, hmem, hdistance⟩ := List.mem_map.mp hzero
  exact ⟨turn, hmem,
    Rotation.eq_of_distance_eq_zero (hfair turn hmem).selected_mem hworker hdistance⟩

/-- Healthy workers without a request. -/
def idle (ids : List String) (nodup : ids.Nodup) (cursor : ℕ) : Scheduler where
  registry :=
    { ids := ids
      nodup := nodup
      node := fun workerId => { address := workerId, state := .healthy } }
  cursor := cursor

theorem reachable_idle (ids : List String) (nodup : ids.Nodup) (cursor : ℕ)
    (events : List Event) :
    (machine config).Reachable ((machine config).after (idle ids nodup cursor) events) := by
  have hinitial : (machine config).Initial (idle ids nodup cursor) := rfl
  exact (Machine.Reachable.initial hinitial).after events

/-- Four workers, the third of them busy at the first selection of the last four. -/
def sampleFour : Scheduler :=
  (machine {}).after (idle ["w1", "w2", "w3", "w4"] (by decide) 0)
    [.select {"w1", "w2", "w4"}, .select ∅, .release "w1", .release "w3", .select ∅,
      .release "w2", .select ∅, .release "w3", .select ∅]

theorem tied_worker_selected_four :
    let s := sampleFour
    (s.turns.map fun turn => turn.candidates.length) = [1, 3, 4, 4, 4] ∧
      s.turns.map Turn.selected = ["w3", "w1", "w2", "w3", "w4"] ∧
      ∃ turn ∈ s.turns.drop 1, turn.selected = "w4" := by
  have hturns : sampleFour.turns = sampleFour.turns.take 1 ++ sampleFour.turns.drop 1 ++ [] := by
    rw [List.append_nil, List.take_append_drop]
  exact ⟨by decide, by decide,
    tied_worker_selected (reachable_idle _ _ _ _) hturns (by decide) (by decide) (by decide)
      (by decide)⟩

/-- Two requests overlap, then both are over. -/
def overlapping : Scheduler :=
  (machine {}).after (idle ["w1", "w2", "w3"] (by decide) 1)
    [.select ∅, .select ∅, .release "w2", .release "w1", .select ∅]

/-- The third worker is a candidate each time and is passed over: in the list of two
candidates the cursor starts again. -/
theorem tied_worker_passed_over :
    ¬ ∀ s, (machine {}).Reachable s → ∀ before window after : List Turn,
      s.turns = before ++ window ++ after → window.length = s.registry.ids.length →
      ∀ workerId ∈ s.registry.ids, (∀ turn ∈ window, workerId ∈ turn.candidates) →
      ∃ turn ∈ window, turn.selected = workerId := by
  intro hserved
  have hturns : overlapping.turns = [] ++ overlapping.turns ++ [] := by simp
  have hturn := hserved _ (reachable_idle _ _ _ _) _ _ _ hturns (by decide) "w3" (by decide)
    (by decide)
  exact absurd hturn (by decide)

end Scheduler
end ModelServer
