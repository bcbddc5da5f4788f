import Mathlib.Algebra.BigOperators.Group.List.Basic
import Mathlib.Algebra.GroupWithZero.Nat
import ModelServer.Library.Machine

/-!
# Potentials

A `Potential` of a machine pays for its work: each event that is `work` takes at
least one from the level of the state, and only the events with a `supply` add to
it.  The level of the first state and what the environment supplies then bound the
work of every run (`Potential.run`), whatever the order of the events.

Without supply the work comes to an end: `Potential.exists_quiescent` leads from
every reachable state, by work alone, to one where no work is left to do.
-/

namespace Transition.Machine

variable {State Event : Type*} {m : Machine State Event}

/-- No event that is `work` can happen. -/
def Quiescent (m : Machine State Event) (work : Event → Bool) (state : State) : Prop :=
  ∀ event, work event = true → m.step state event = none

structure Potential (m : Machine State Event) where
  work : Event → Bool
  level : State → ℕ
  /-- What an event adds to the level at most. -/
  supply : Event → ℕ
  step : ∀ state event next, m.Reachable state → m.step state event = some next →
    level next + (if work event then 1 else 0) ≤ level state + supply event

namespace Potential

/-- What a list of events supplies. -/
def supplied (p : Potential m) (events : List Event) : ℕ := (events.map p.supply).sum

theorem supplied_of_none (p : Potential m) (hsupply : ∀ event, p.supply event = 0)
    (events : List Event) : p.supplied events = 0 := by
  rw [supplied, List.sum_eq_zero]
  simpa using fun event _ => hsupply event

/-- The supply of a run in which all sources give the same. -/
theorem supplied_eq (p : Potential m) {source : Event → Bool} {amount : ℕ}
    (hsupply : ∀ event, p.supply event = if source event then amount else 0)
    (events : List Event) : p.supplied events = amount * events.countP source := by
  induction events with
  | nil => rfl
  | cons event events ih =>
      simp only [supplied, List.map_cons, List.sum_cons, List.countP_cons] at ih ⊢
      rw [ih, hsupply, Nat.mul_add, Nat.add_comm]
      cases source event <;> simp

/-- **The potential rule.**  Level and supply pay for the work of a run. -/
theorem run (p : Potential m) {first last : State} {events : List Event}
    (hreach : m.Reachable first) (hrun : m.Run first events last) :
    p.level last + events.countP p.work ≤ p.level first + p.supplied events := by
  induction events generalizing first with
  | nil =>
      rw [run_nil_iff.mp hrun]
      simp [supplied]
  | cons event events ih =>
      obtain ⟨next, hnext, hrest⟩ := run_cons_iff.mp hrun
      have hone := p.step _ _ _ hreach hnext
      have hall := ih (hreach.next hnext) hrest
      simp only [supplied, List.countP_cons, List.map_cons, List.sum_cons] at hall ⊢
      omega

/-- Work that supplies nothing leads to a state where none is left. -/
theorem exists_quiescent (p : Potential m)
    (hsupply : ∀ event, p.work event = true → p.supply event = 0) {state : State}
    (hreach : m.Reachable state) :
    ∃ events last, m.Run state events last ∧ (∀ event ∈ events, p.work event = true) ∧
      m.Quiescent p.work last := by
  induction hlevel : p.level state using Nat.strongRecOn generalizing state with
  | _ level ih =>
      by_cases hquiet : m.Quiescent p.work state
      · exact ⟨[], state, run_nil_iff.mpr rfl, by simp, hquiet⟩
      · simp only [Quiescent, not_forall] at hquiet
        obtain ⟨event, hwork, hsome⟩ := hquiet
        obtain ⟨next, hnext⟩ := Option.ne_none_iff_exists'.mp hsome
        have hless : p.level next < level := by
          have hone := p.step _ _ _ hreach hnext
          simp only [hwork, if_true, hsupply event hwork] at hone
          omega
        obtain ⟨events, last, hrun, hall, hlast⟩ := ih _ hless (hreach.next hnext) rfl
        exact ⟨event :: events, last, .cons hnext hrun, by simpa [hwork] using hall, hlast⟩

end Potential
end Transition.Machine
