import Mathlib.Data.List.Basic
import Mathlib.Data.List.Induction

/-!
# Machines, runs and invariants

A `Machine` is a partial transition function driven by events: which events
happen, and in which order, is up to the environment, and an event that cannot
happen in a state has no successor there.  Everything a concurrent program can
do is then the set of runs of one machine, and "for every interleaving" is a
quantifier over lists of events.

* `exec` runs a list of events and is computable, so that a concrete run can be
  evaluated; `Run` is the statement that it succeeds.
* `ReachableBy Allowed` are the states of the runs all of whose events are
  `Allowed` where they happen; `Reachable` puts no restriction.
* `ReachableBy.invariant`, `Run.preserves` and `Run.history` are the induction rules
  that invariants of states, of runs and of histories are proved with.
* `Justifies` says of a log that each entry is justified by those before it.
* `Simulation` says that one machine does nothing that another does not allow;
  `Simulation.reachable` and `Simulation.run` carry its runs over.
-/

namespace Transition

/-- A partial machine driven by events. -/
structure Machine (State Event : Type*) where
  /-- The states a run may start in. -/
  Initial : State → Prop
  /-- The state after an event, or `none` where the event cannot happen. -/
  step : State → Event → Option State

namespace Machine

variable {State Event : Type*} {m : Machine State Event}

/-- Run a list of events, failing at the first one that cannot happen. -/
def exec (m : Machine State Event) : State → List Event → Option State
  | state, [] => some state
  | state, event :: events => (m.step state event).bind fun next => m.exec next events

/-- `events` can happen in this order from `first`, and they end in `last`. -/
def Run (m : Machine State Event) (first : State) (events : List Event) (last : State) : Prop :=
  m.exec first events = some last

/-- Where a list of events leads; `first` itself if one of them cannot happen. -/
def after (m : Machine State Event) (first : State) (events : List Event) : State :=
  (m.exec first events).getD first

/-- The states of the runs all of whose events are `Allowed` where they happen. -/
inductive ReachableBy (m : Machine State Event) (Allowed : State → Event → Prop) : State → Prop
  | initial {state : State} : m.Initial state → ReachableBy m Allowed state
  | step {state next : State} {event : Event} : ReachableBy m Allowed state →
      Allowed state event → m.step state event = some next → ReachableBy m Allowed next

/-- The states of all runs. -/
def Reachable (m : Machine State Event) : State → Prop :=
  m.ReachableBy fun _ _ => True

/-- The same machine, started in `first`. -/
def startingAt (m : Machine State Event) (first : State) : Machine State Event :=
  { m with Initial := fun state => state = first }

/-! ## Runs -/

@[simp] theorem run_nil_iff {first last : State} : m.Run first [] last ↔ first = last := by
  simp [Run, exec]

theorem run_cons_iff {first last : State} {event : Event} {events : List Event} :
    m.Run first (event :: events) last ↔
      ∃ next, m.step first event = some next ∧ m.Run next events last := by
  simp [Run, exec, Option.bind_eq_some_iff]

theorem run_append_iff {first last : State} {before after : List Event} :
    m.Run first (before ++ after) last ↔
      ∃ middle, m.Run first before middle ∧ m.Run middle after last := by
  induction before generalizing first with
  | nil => simp
  | cons event before ih =>
      simp only [List.cons_append, run_cons_iff, ih]
      constructor
      · rintro ⟨next, hstep, middle, hbefore, hafter⟩
        exact ⟨middle, ⟨next, hstep, hbefore⟩, hafter⟩
      · rintro ⟨middle, ⟨next, hstep, hbefore⟩, hafter⟩
        exact ⟨next, hstep, middle, hbefore, hafter⟩

theorem run_singleton_iff {first last : State} {event : Event} :
    m.Run first [event] last ↔ m.step first event = some last := by
  simp [run_cons_iff]

theorem Run.cons {first next last : State} {event : Event} {events : List Event}
    (hstep : m.step first event = some next) (hrun : m.Run next events last) :
    m.Run first (event :: events) last :=
  run_cons_iff.mpr ⟨next, hstep, hrun⟩

theorem Run.append {first middle last : State} {before after : List Event}
    (hbefore : m.Run first before middle) (hafter : m.Run middle after last) :
    m.Run first (before ++ after) last :=
  run_append_iff.mpr ⟨middle, hbefore, hafter⟩

/-- Where a machine may start plays no part in its runs. -/
theorem run_startingAt_iff {origin first last : State} {events : List Event} :
    (m.startingAt origin).Run first events last ↔ m.Run first events last := by
  induction events generalizing first with
  | nil => simp only [run_nil_iff]
  | cons event events ih =>
      simp only [run_cons_iff, ih]
      rfl

theorem run_after {first : State} {events : List Event} (h : (m.exec first events).isSome) :
    m.Run first events (m.after first events) := by
  obtain ⟨last, hlast⟩ := Option.isSome_iff_exists.mp h
  simp [Run, after, hlast]

/-- The second part of a run starts where the first one leads. -/
theorem run_after_append {first : State} {before later : List Event}
    (h : (m.exec first (before ++ later)).isSome) :
    m.Run (m.after first before) later (m.after first (before ++ later)) := by
  obtain ⟨middle, hbefore, hlater⟩ := run_append_iff.mp (run_after h)
  have hmiddle : m.after first before = middle := by
    unfold after
    rw [show m.exec first before = some middle from hbefore, Option.getD_some]
  rwa [hmiddle]

/-- **The run rule.**  What every event of a run preserves holds at its end. -/
theorem Run.preserves {Inv : State → Prop} {first last : State} {events : List Event}
    (hrun : m.Run first events last) (hfirst : Inv first)
    (hstep : ∀ state event next, event ∈ events → Inv state →
      m.step state event = some next → Inv next) :
    Inv last := by
  induction events generalizing first with
  | nil => exact run_nil_iff.mp hrun ▸ hfirst
  | cons event events ih =>
      obtain ⟨next, hnext, hrest⟩ := run_cons_iff.mp hrun
      refine ih hrest (hstep _ _ _ List.mem_cons_self hfirst hnext) ?_
      intro state event' next' hmem
      exact hstep state event' next' (List.mem_cons_of_mem _ hmem)

/-- **The history rule.**  What relates the events so far to the state, and is preserved
by every step, relates the events of a run to its end. -/
theorem Run.history {Inv : List Event → State → Prop} {first last : State} {events : List Event}
    (hrun : m.Run first events last) (hfirst : Inv [] first)
    (hstep : ∀ history state event next, Inv history state →
      m.step state event = some next → Inv (history ++ [event]) next) :
    Inv events last := by
  induction events using List.reverseRecOn generalizing last with
  | nil => exact run_nil_iff.mp hrun ▸ hfirst
  | append_singleton events event ih =>
      obtain ⟨middle, hbefore, hlast⟩ := run_append_iff.mp hrun
      exact hstep _ _ _ _ (ih hbefore) (run_singleton_iff.mp hlast)

/-! ## Reachable states -/

/-- **The invariant rule.**  What holds initially and is preserved by every
allowed event holds in every reachable state.  The step may use that the state
it starts from is reachable, so invariants can be proved one after another. -/
theorem ReachableBy.invariant {Allowed : State → Event → Prop} {Inv : State → Prop}
    {state : State} (hreach : m.ReachableBy Allowed state)
    (hinitial : ∀ state, m.Initial state → Inv state)
    (hstep : ∀ state event next, m.ReachableBy Allowed state → Inv state →
      Allowed state event → m.step state event = some next → Inv next) :
    Inv state := by
  induction hreach with
  | initial h => exact hinitial _ h
  | step hbefore hallowed h ih => exact hstep _ _ _ hbefore ih hallowed h

theorem ReachableBy.mono {Allowed Allowed' : State → Event → Prop} {state : State}
    (hreach : m.ReachableBy Allowed state)
    (hle : ∀ state event, Allowed state event → Allowed' state event) :
    m.ReachableBy Allowed' state := by
  induction hreach with
  | initial h => exact .initial h
  | step _ hallowed h ih => exact .step ih (hle _ _ hallowed) h

theorem ReachableBy.reachable {Allowed : State → Event → Prop} {state : State}
    (hreach : m.ReachableBy Allowed state) : m.Reachable state :=
  hreach.mono fun _ _ _ => trivial

/-- The run rule for restricted runs. -/
theorem ReachableBy.run {Allowed : State → Event → Prop} {first last : State}
    {events : List Event} (hreach : m.ReachableBy Allowed first) (hrun : m.Run first events last)
    (hallowed : ∀ event ∈ events, ∀ state, Allowed state event) : m.ReachableBy Allowed last :=
  hrun.preserves hreach fun state event _ hmem hbefore hstep =>
    .step hbefore (hallowed event hmem state) hstep

theorem ReachableBy.after {Allowed : State → Event → Prop} {first : State}
    (hreach : m.ReachableBy Allowed first) (events : List Event)
    (hallowed : ∀ event ∈ events, ∀ state, Allowed state event) :
    m.ReachableBy Allowed (m.after first events) := by
  unfold Machine.after
  cases hexec : m.exec first events with
  | none => exact hreach
  | some last => exact hreach.run hexec hallowed

/-- The run rule where each event is `Allowed` in the state it happens in. -/
theorem reachableBy_after {Allowed : State → Event → Prop} {first : State} (events : List Event)
    (hallowed : ∀ k < events.length, ∀ event, Allowed (m.after first (events.take k)) event) :
    (m.startingAt first).ReachableBy Allowed (m.after first events) := by
  induction events using List.reverseRecOn with
  | nil => exact .initial rfl
  | append_singleton events event ih =>
      have hbefore : (m.startingAt first).ReachableBy Allowed (m.after first events) := by
        refine ih fun k hk event' => ?_
        have htake := hallowed k (by rw [List.length_append]; omega) event'
        rwa [List.take_append_of_le_length (Nat.le_of_lt hk)] at htake
      have hlast := hallowed events.length (by simp) event
      rw [List.take_left] at hlast
      cases hexec : m.exec first (events ++ [event]) with
      | none =>
          rw [after, hexec]
          exact .initial rfl
      | some last =>
          have hrun := run_after_append (Option.isSome_of_eq_some hexec)
          exact hbefore.step hlast (run_singleton_iff.mp hrun)

/-- What is reached from a reachable state is reachable. -/
theorem ReachableBy.of_startingAt {Allowed : State → Event → Prop} {first state : State}
    (hreach : (m.startingAt first).ReachableBy Allowed state) (hfirst : m.Reachable first) :
    m.Reachable state := by
  induction hreach with
  | initial h => exact h ▸ hfirst
  | step _ _ h ih => exact ReachableBy.step ih trivial h

/-- What is reached from a state that is reached from `first` is reached from `first`. -/
theorem ReachableBy.trans {Allowed : State → Event → Prop} {first middle last : State}
    (hmiddle : (m.startingAt first).ReachableBy Allowed middle)
    (hlast : (m.startingAt middle).ReachableBy Allowed last) :
    (m.startingAt first).ReachableBy Allowed last := by
  induction hlast with
  | initial h => exact h ▸ hmiddle
  | step _ hallowed h ih => exact ih.step hallowed h

theorem Reachable.initial {state : State} (h : m.Initial state) : m.Reachable state :=
  ReachableBy.initial h

theorem Reachable.next {state next : State} {event : Event} (hreach : m.Reachable state)
    (hstep : m.step state event = some next) : m.Reachable next :=
  ReachableBy.step hreach trivial hstep

/-- The invariant rule for the unrestricted runs. -/
theorem Reachable.invariant {Inv : State → Prop} {state : State} (hreach : m.Reachable state)
    (hinitial : ∀ state, m.Initial state → Inv state)
    (hstep : ∀ state event next, m.Reachable state → Inv state →
      m.step state event = some next → Inv next) :
    Inv state :=
  ReachableBy.invariant hreach hinitial fun state event next hr hi _ =>
    hstep state event next hr hi

theorem Reachable.run {first last : State} {events : List Event} (hreach : m.Reachable first)
    (hrun : m.Run first events last) : m.Reachable last :=
  ReachableBy.run hreach hrun fun _ _ _ => trivial

theorem Reachable.after {first : State} (hreach : m.Reachable first) (events : List Event) :
    m.Reachable (m.after first events) :=
  ReachableBy.after hreach events fun _ _ _ => trivial

/-! ## Simulation -/

/-- Every event of `concrete` is a finite run of `abstract`, seen through `abs`. -/
structure Simulation {State' Event' : Type*} (concrete : Machine State Event)
    (abstract : Machine State' Event') where
  /-- What a concrete state stands for. -/
  abs : State → State'
  /-- The abstract events one concrete event amounts to. -/
  emit : State → Event → List Event'
  initial : ∀ state, concrete.Initial state → abstract.Initial (abs state)
  step : ∀ state event next, concrete.Reachable state → concrete.step state event = some next →
    abstract.Run (abs state) (emit state event) (abs next)

namespace Simulation

variable {State' Event' : Type*} {abstract : Machine State' Event'}

/-- The abstract events a concrete run amounts to. -/
def trace (sim : Simulation m abstract) : State → List Event → List Event'
  | _, [] => []
  | state, event :: events =>
      match m.step state event with
      | none => []
      | some next => sim.emit state event ++ sim.trace next events

/-- A run of the concrete machine is a run of the abstract one. -/
theorem run (sim : Simulation m abstract) {first last : State} {events : List Event}
    (hreach : m.Reachable first) (hrun : m.Run first events last) :
    abstract.Run (sim.abs first) (sim.trace first events) (sim.abs last) := by
  induction events generalizing first with
  | nil =>
      rw [run_nil_iff] at hrun
      simp [trace, hrun]
  | cons event events ih =>
      obtain ⟨next, hnext, hrest⟩ := run_cons_iff.mp hrun
      simp only [trace, hnext]
      exact (sim.step _ _ _ hreach hnext).append (ih (hreach.next hnext) hrest)

/-- A reachable state of the concrete machine stands for a reachable abstract one. -/
theorem reachable (sim : Simulation m abstract) {state : State} (hreach : m.Reachable state) :
    abstract.Reachable (sim.abs state) := by
  induction hreach with
  | initial h => exact .initial (sim.initial _ h)
  | step hbefore _ hstep ih => exact Reachable.run ih (sim.step _ _ _ hbefore hstep)

end Simulation
end Machine

/-! ## Logs -/

/-- Every entry of `log` is justified by the entries before it. -/
def Justifies {Entry : Type*} (Justified : List Entry → Entry → Prop) (log : List Entry) : Prop :=
  ∀ before entry after, log = before ++ entry :: after → Justified before entry

namespace Justifies

variable {Entry : Type*} {Justified : List Entry → Entry → Prop} {log : List Entry}

theorem nil : Justifies Justified [] := by
  intro before entry after h
  simp at h

/-- A log stays justified when a justified entry is added. -/
theorem append_singleton {entry : Entry} (h : Justifies Justified log)
    (hentry : Justified log entry) : Justifies Justified (log ++ [entry]) := by
  intro before entry' after hsplit
  rcases List.eq_nil_or_concat after with rfl | ⟨after, last, rfl⟩
  · obtain ⟨rfl, hlast⟩ := List.append_inj' hsplit rfl
    rw [List.singleton_inj] at hlast
    rwa [← hlast]
  · rw [List.concat_eq_append, ← List.cons_append, ← List.append_assoc] at hsplit
    exact h before entry' after (List.append_inj' hsplit rfl).1

end Justifies
end Transition
