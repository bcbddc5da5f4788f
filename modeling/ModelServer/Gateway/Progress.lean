import Mathlib.Algebra.Order.BigOperators.Group.List
import Mathlib.Algebra.Order.Ring.Nat
import ModelServer.Gateway.Reservations
import ModelServer.Library.Progress

/-!
# Every call of `predict` ends

`CallPoint.rank` is the number of steps a call still has before it at most, with both
attempts, and every step of a call lowers it.  A new call brings seventeen, so that all
calls together take no more than seventeen steps for each call there is, whatever the
pollers and the clock do.

No call is ever stuck either: the lock is free whenever a call wants it, so a call that
has not ended can go on or is waiting for an RPC.  Both together make `calls_end`.
-/

namespace ModelServer

open Asyncio Transition

def Section.rank : Section → ℕ
  | .select .first _ => 14
  | .select .second _ => 6
  | .release _ (.next .first) => 9
  | .release _ _ => 1

/-- The steps a call still has before it at most. -/
def CallPoint.rank : CallPoint → ℕ
  | .start => 17
  | .budget .first => 16
  | .budget .second => 8
  | .acquire part | .lockWait part => part.rank + 1
  | .critical part => part.rank
  | .dispatch .first _ _ => 13
  | .dispatch .second _ _ => 5
  | .awaitRpc .first _ => 12
  | .awaitRpc .second _ => 4
  | .retryCheck .first _ => 11
  | .retryCheck .second _ => 3
  | .finished _ => 0

theorem Section.rank_le (part : Section) : part.rank ≤ 14 := by
  unfold rank
  split <;> omega

theorem CallPoint.rank_le (point : CallPoint) : point.rank ≤ 17 := by
  unfold rank
  split
  case h_4 part | h_5 part | h_6 part =>
    have := part.rank_le
    omega
  all_goals omega

namespace Gateway

variable {config : GatewayConfig}

/-- A step of a call. -/
def Event.ofCall : Event → Bool
  | .tick _ | .call .. | .probe .. => false
  | _ => true

def Event.isCall : Event → Bool
  | .call .. => true
  | _ => false

/-- What all calls together still have before them. -/
def rank (g : Gateway) : ℕ := (g.calls.map fun call => call.point.rank).sum

theorem rank_of_callStep {s next : Shared} {id : ℕ} {call moved : Call} {event : Event}
    (hmove : CallStep config s id call event next moved)
    (hwait : ∀ part, call.point ≠ .lockWait part)
    (hlock : ∀ part, call.point = .acquire part → s.lock.acquire ≠ none) :
    event.ofCall = true ∧ moved.point.rank < call.point.rank := by
  cases hmove
  case blocked part _ hpoint hblocked => exact absurd hblocked (hlock part hpoint)
  case granted hpoint _ | cancelWait hpoint => exact absurd hpoint (hwait _)
  case budget attempt _ hpoint _ | selects attempt _ _ _ _ hpoint _ | sends attempt _ _ _ hpoint
      | dispatchFails attempt _ _ _ hpoint | rpcSuccess attempt _ _ _ hpoint
      | rpcUnavailable attempt _ _ _ hpoint | rpcStatus attempt _ _ _ _ _ hpoint _ _
      | rpcForeign attempt _ _ hpoint | cancelRpc attempt _ _ hpoint | noBudget attempt _ hpoint _
      | selectFails attempt _ _ _ hpoint _ | givesUp attempt _ _ hpoint _ =>
    cases attempt <;> simp [hpoint, CallPoint.rank, Section.rank, Event.ofCall]
  case retries hpoint hfirst _ => simp [hpoint, hfirst, CallPoint.rank, Section.rank, Event.ofCall]
  case acquired hpoint _ => simp [hpoint, CallPoint.rank, Event.ofCall]
  all_goals simp_all [CallPoint.rank, Section.rank, Event.ofCall]

/-- A call that is about to acquire the lock finds it free. -/
theorem Orderly.acquires {g : Gateway} (h : Orderly g) {id : ℕ} {call : Call} {part : Section}
    (hcall : g.calls[id]? = some call) (hpoint : call.point = .acquire part) : g.lock.Free := by
  refine ⟨?_, h.waiters⟩
  by_contra hlocked
  rw [Bool.not_eq_false] at hlocked
  obtain ⟨holder, held, _, hrunning, hheld, hcritical⟩ := h.locked hlocked
  have hself : g.running = some id := by
    by_contra hother
    have hsuspended := h.rests id call hcall hother
    simp [hpoint, CallPoint.suspended] at hsuspended
  obtain rfl : id = holder := Option.some.inj (hself.symm.trans hrunning)
  obtain rfl := Option.some.inj (hcall.symm.trans hheld)
  exact CallPoint.noConfusion (hpoint.symm.trans hcritical)

/-- A step of a call takes from the rank, and a new call brings its own. -/
theorem rank_of_step {g next : Gateway} {event : Event} (hstep : Step config g event next)
    (h : Orderly g) : next.rank + (if event.ofCall then 1 else 0) ≤
      g.rank + if event.isCall then 17 else 0 := by
  cases hstep with
  | tick _ | probe _ _ => simp [rank, Event.ofCall]
  | call _ => simp [rank, Event.ofCall, Event.isCall, newCall, CallPoint.rank]
  | @move event id call moved s hcall hmove =>
      have hlock : ∀ part, call.point = .acquire part → g.lock.acquire ≠ none := by
        intro part hpoint
        rw [Lock.acquire_of_free (h.acquires hcall hpoint)]
        exact Option.some_ne_none _
      obtain ⟨hevent, hless⟩ :=
        rank_of_callStep hmove (fun part => h.noWait id call part hcall) hlock
      have hsum := sum_map_set (fun call => call.point.rank) hcall moved
      simp only [hevent, if_true, rank, store]
      omega

/-- What pays for the steps of the calls. -/
def budgetOfCalls (config : GatewayConfig) : Machine.Potential (machine config) where
  work := Event.ofCall
  level := rank
  supply event := if event.isCall then 17 else 0
  step _ _ _ hreach hstep :=
    rank_of_step (step_of_reachable hreach hstep) (orderly_of_reachable hreach)

theorem supply_of_ofCall (event : Event) (h : event.ofCall = true) :
    (budgetOfCalls config).supply event = 0 := by
  cases event with
  | call => cases h
  | _ => rfl

theorem rank_le (g : Gateway) : g.rank ≤ 17 * g.calls.length := by
  have hsum : g.rank ≤ (g.calls.map fun call => call.point.rank).length • 17 := by
    apply List.sum_le_card_nsmul
    simpa using fun call _ => call.point.rank_le
  rwa [List.length_map, Nat.nsmul_eq_mul, Nat.mul_comm] at hsum

/-- A call that has not ended can go on, or another call is running and can. -/
theorem exists_step_of_unfinished {g : Gateway} (h : Orderly g) {id : ℕ} {call : Call}
    (hcall : g.calls[id]? = some call) (hpoint : ∀ outcome, call.point ≠ .finished outcome) :
    ∃ event next, event.ofCall = true ∧ g.step config event = some next := by
  cases hrunning : g.running with
  | some running =>
      obtain ⟨current, hcurrent, _⟩ := h.runs running hrunning
      exact ⟨.run, _, rfl, by simp [step, hrunning, hcurrent]; rfl⟩
  | none =>
      have hsuspended := h.rests id call hcall (by simp [hrunning])
      cases hplace : call.point with
      | start => exact ⟨.start id, _, rfl, by simp [step, guard, hrunning, hcall, hplace]; rfl⟩
      | awaitRpc attempt worker =>
          exact ⟨.rpcResult id .foreign, _, rfl,
            by simp [step, guard, hrunning, hcall, hplace]; rfl⟩
      | lockWait part => exact absurd hplace (h.noWait id call part hcall)
      | finished outcome => exact absurd hplace (hpoint outcome)
      | _ => simp [hplace, CallPoint.suspended] at hsuspended

/-- Every call has ended, the lock is free and nothing is reserved. -/
structure Drained (g : Gateway) : Prop where
  finished : ∀ call ∈ g.calls, ∃ outcome, call.point = .finished outcome
  free : g.lock.Free
  idle : ∀ worker, g.outstanding worker = 0

theorem drained_of_quiescent {g : Gateway} (hreach : (machine config).Reachable g)
    (hquiet : (machine config).Quiescent Event.ofCall g) : Drained g := by
  have horderly := orderly_of_reachable hreach
  have hfinished : ∀ call ∈ g.calls, ∃ outcome, call.point = .finished outcome := by
    intro call hmem
    by_contra hnone
    rw [not_exists] at hnone
    obtain ⟨id, hcall⟩ := List.mem_iff_getElem?.mp hmem
    obtain ⟨event, next, hwork, hstep⟩ :
        ∃ event next, event.ofCall = true ∧ g.step config event = some next :=
      exists_step_of_unfinished horderly hcall hnone
    have hstuck : g.step config event = none := hquiet event hwork
    exact absurd (hstuck.symm.trans hstep) nofun
  refine ⟨hfinished, horderly.free ?_, fun worker => ?_⟩
  · by_contra hrunning
    obtain ⟨id, hsome⟩ := Option.ne_none_iff_exists'.mp hrunning
    obtain ⟨call, hcall, hsuspended⟩ := horderly.runs id hsome
    obtain ⟨outcome, hpoint⟩ := hfinished call (List.mem_of_getElem? hcall)
    simp [hpoint, CallPoint.suspended] at hsuspended
  · have h := reservations_of_reachable hreach
    have hnone : ∀ call ∈ g.calls, call.reserved.count worker = 0 := by
      intro call hmem
      obtain ⟨outcome, hpoint⟩ := hfinished call hmem
      simp [(h.holding call hmem).reserved, hpoint, CallPoint.holding]
    rw [h.exact, reservations]
    apply List.sum_eq_zero
    simpa using hnone

/-- **Every call ends.**  In every run the calls together take at most seventeen steps for each
call there is; where none of them can take one, all have ended and have given back what they had
reserved; and from every reachable state they can come to that by their own steps, once
their RPCs are answered. -/
theorem calls_end {first last : Gateway} {events : List Event}
    (hreach : (machine config).Reachable first) (hrun : (machine config).Run first events last) :
    last.rank + events.countP Event.ofCall ≤ first.rank + 17 * events.countP Event.isCall ∧
      first.rank ≤ 17 * first.calls.length ∧
      ((machine config).Quiescent Event.ofCall last → Drained last) ∧
      ∃ more final, (machine config).Run last more final ∧
        (∀ event ∈ more, event.ofCall = true) ∧ Drained final := by
  have hlast := hreach.run hrun
  have hpaid := (budgetOfCalls config).run hreach hrun
  rw [(budgetOfCalls config).supplied_eq fun _ => rfl] at hpaid
  obtain ⟨more, final, hmore, hwork, hquiet⟩ :=
    (budgetOfCalls config).exists_quiescent supply_of_ofCall hlast
  exact ⟨hpaid, rank_le first, drained_of_quiescent hlast, more, final, hmore, hwork,
    drained_of_quiescent (hlast.run hmore) hquiet⟩

/-- Both calls are waiting for their RPCs. -/
theorem calls_end_busy :
    let g := sample {} busyRun
    g.rank = 24 ∧
      g.rank + busyRun.countP Event.ofCall ≤
        (initial {} 0).rank + 17 * busyRun.countP Event.isCall ∧
      (initial {} 0).rank ≤ 17 * (initial {} 0).calls.length ∧
      ((machine {}).Quiescent Event.ofCall g → Drained g) ∧
      ∃ more final, (machine {}).Run g more final ∧
        (∀ event ∈ more, event.ofCall = true) ∧ Drained final :=
  ⟨by decide +kernel, calls_end (.initial ⟨0, rfl⟩) (Machine.run_after (by decide +kernel))⟩

end Gateway
end ModelServer
