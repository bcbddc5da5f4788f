import ModelServer.Library.Machine

/-!
# Restricted machines

An assumption on the environment is a predicate on events in states, and the runs that
keep to it are those of the machine that refuses all other events.  Where the predicate
can be decided, such a run can be evaluated like any other.
-/

namespace Transition.Machine

variable {State Event : Type*} {m : Machine State Event} {Allowed : State → Event → Prop}

/-- The machine that refuses the events that are not `Allowed` where they would happen. -/
def restrict (m : Machine State Event) (Allowed : State → Event → Prop)
    [∀ state event, Decidable (Allowed state event)] : Machine State Event where
  Initial := m.Initial
  step state event := if Allowed state event then m.step state event else none

variable [∀ state event, Decidable (Allowed state event)]

theorem restrict_step_iff {state next : State} {event : Event} :
    (m.restrict Allowed).step state event = some next ↔
      Allowed state event ∧ m.step state event = some next := by
  simp [restrict]

/-- The restricted machine reaches what is reached by allowed events. -/
theorem reachable_restrict_iff {state : State} :
    (m.restrict Allowed).Reachable state ↔ m.ReachableBy Allowed state := by
  constructor
  · intro hreach
    induction hreach with
    | initial h => exact .initial h
    | step _ _ hstep ih =>
        obtain ⟨hallowed, hnext⟩ := restrict_step_iff.mp hstep
        exact .step ih hallowed hnext
  · intro hreach
    induction hreach with
    | initial h => exact .initial h
    | step _ hallowed hstep ih => exact .step ih trivial (restrict_step_iff.mpr ⟨hallowed, hstep⟩)

theorem ReachableBy.run_restrict {first last : State} {events : List Event}
    (hreach : m.ReachableBy Allowed first) (hrun : (m.restrict Allowed).Run first events last) :
    m.ReachableBy Allowed last :=
  reachable_restrict_iff.mp ((reachable_restrict_iff.mpr hreach).run hrun)

/-- What the restricted machine reaches from `first`. -/
theorem reachableBy_of_restrict {first last : State} {events : List Event}
    (hrun : (m.restrict Allowed).Run first events last) :
    (m.startingAt first).ReachableBy Allowed last := by
  have hfirst : (m.startingAt first).ReachableBy Allowed first := .initial rfl
  refine hrun.preserves hfirst fun state event next _ h hstep => ?_
  obtain ⟨hallowed, hnext⟩ := restrict_step_iff.mp hstep
  exact h.step hallowed hnext

end Transition.Machine
