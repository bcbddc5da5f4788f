import Mathlib.Tactic.Linarith
import Mathlib.Tactic.Ring
import ModelServer.Gateway.Budget
import ModelServer.Gateway.Stopping
import ModelServer.Library.Restriction

/-!
# How soon a failure is detected

A poller takes a round for each probe: it sleeps for the interval and then waits for the
answer, at most for the timeout.  If the event loop keeps to these times, then every
`roundTime` brings one outcome for each worker.

What a worker needs is counted in rounds: `toEject` is the number of bad outcomes after
which it is out, `toAdmit` the number of compatible replies after which it is healthy.
`Health.CountsDown` is what both have in common, and `needed_eq_zero_of_late` is the
argument: a count that every outcome lowers is zero after as many rounds.
-/

namespace ModelServer

open Transition

/-! ## Counting outcomes -/

namespace Health

variable {config : GatewayConfig}

/-- As long as all events are `good`, a probe lowers the count and nothing raises it. -/
structure CountsDown (config : GatewayConfig) (good : HealthEvent → Bool) (needed : Health → ℕ) :
    Prop where
  probe : ∀ health event, good event = true → event ≠ .unavailable →
    needed (health.next config event) ≤ needed health - 1
  unavailable : ∀ health, good .unavailable = true →
    needed (health.next config .unavailable) ≤ needed health

theorem CountsDown.next {good : HealthEvent → Bool} {needed : Health → ℕ}
    (h : CountsDown config good needed) (health : Health) {event : HealthEvent}
    (hgood : good event = true) : needed (health.next config event) ≤ needed health := by
  by_cases hprobe : event = .unavailable
  · subst hprobe
    exact h.unavailable health hgood
  · exact (h.probe health event hgood hprobe).trans (Nat.sub_le _ 1)

/-- Failed probes until the worker is not healthy any more. -/
def toEject (config : GatewayConfig) (health : Health) : ℕ :=
  if health.state = .healthy then
    (max 1 (config.healthFailureThreshold - health.consecutiveFailures)).toNat
  else 0

/-- Compatible replies until the worker is healthy. -/
def toAdmit (config : GatewayConfig) (health : Health) : ℕ :=
  match health.state with
  | .healthy | .draining => 0
  | .starting => 1
  | .unhealthy => (max 1 (config.healthRecoveryThreshold - health.consecutiveSuccesses)).toNat

theorem counts_toEject : CountsDown config (fun event => event ≠ .compatible) (toEject config) := by
  refine ⟨fun health event hgood hprobe => ?_, fun health _ => ?_⟩
  · cases event with
    | compatible => simp at hgood
    | unavailable => exact absurd rfl hprobe
    | draining => simp [toEject, next]
    | failed =>
        by_cases hhealthy : health.state = .healthy
        · by_cases hejected : config.healthFailureThreshold ≤ health.consecutiveFailures + 1
          · simp [toEject, next, hhealthy, hejected]
          · simp only [toEject, next, hhealthy, hejected, and_false, if_false, if_true]
            omega
        · simp [toEject, next, hhealthy]
  · by_cases hhealthy : health.state = .healthy <;> simp [toEject, next, hhealthy]

theorem counts_toAdmit : CountsDown config (fun event => event = .compatible) (toAdmit config) := by
  refine ⟨fun health event hgood _ => ?_, fun _ hgood => by simp at hgood⟩
  obtain rfl : event = .compatible := by simpa using hgood
  cases hstate : health.state with
  | starting | healthy | draining => simp [toAdmit, next, hstate]
  | unhealthy =>
      by_cases hreached : config.healthRecoveryThreshold ≤ health.consecutiveSuccesses + 1
      · simp [toAdmit, next, hstate, hreached]
      · simp only [toAdmit, next, hstate, hreached, if_false]
        push_cast
        omega

/-- A worker that has just become healthy has no failures behind it. -/
theorem failures_nonneg {health : Health} (hreach : (machine config).Reachable health) :
    health.state = .healthy ∨ health.state = .starting → 0 ≤ health.consecutiveFailures := by
  apply hreach.invariant
  · rintro health rfl _
    exact le_rfl
  · intro health event after _ h hevent hstate
    obtain rfl := Option.some.inj hevent
    cases event with
    | compatible | draining => simp [next]
    | failed =>
        have hbefore : health.state = .healthy ∨ health.state = .starting := by
          by_cases hhealthy : health.state = .healthy
          · exact .inl hhealthy
          · simpa [next, hhealthy] using hstate
        have hcount := h hbefore
        simp only [next]
        omega
    | unavailable =>
        by_cases hhealthy : health.state = .healthy
        · simp [next, hhealthy] at hstate
        · rw [next, if_neg hhealthy] at hstate ⊢
          exact h hstate

theorem toEject_le {health : Health} (hreach : (machine config).Reachable health) :
    (toEject config health : ℤ) ≤ max 1 config.healthFailureThreshold := by
  by_cases hhealthy : health.state = .healthy
  · have hcount := failures_nonneg hreach (.inl hhealthy)
    simp only [toEject, hhealthy, if_true]
    omega
  · simp [toEject, hhealthy]

theorem toAdmit_le (health : Health) :
    (toAdmit config health : ℤ) ≤ max 1 config.healthRecoveryThreshold := by
  cases hstate : health.state <;> simp only [toAdmit, hstate] <;> omega

end Health

/-! ## The pace of the pollers -/

namespace PollConfig

/-- `config.health_interval_ms / 1000.0`. -/
def interval (config : PollConfig) : Time := (config.healthIntervalMs : ℚ) / 1000

/-- `config.health_timeout_ms / 1000.0`. -/
def timeout (config : PollConfig) : Time := (config.healthTimeoutMs : ℚ) / 1000

def roundTime (config : PollConfig) : Time := config.interval + config.timeout

variable {config : PollConfig}

theorem interval_nonneg (h : 0 ≤ config.healthIntervalMs) : 0 ≤ config.interval :=
  div_nonneg (by exact_mod_cast h) (by norm_num)

theorem timeout_nonneg (h : 0 ≤ config.healthTimeoutMs) : 0 ≤ config.timeout :=
  div_nonneg (by exact_mod_cast h) (by norm_num)

end PollConfig

namespace Poller

/-- When the poller goes on at the latest. -/
def due (config : PollConfig) (poller : Poller) : Time :=
  match poller.point with
  | .created | .finished => poller.since
  | .awaitStatus => poller.since + config.timeout
  | .sleeping => poller.since + config.interval

/-- When the next probe of the poller ends at the latest. -/
def nextOutcome (config : PollConfig) (poller : Poller) : Time :=
  match poller.point with
  | .created | .awaitStatus | .finished => poller.since + config.timeout
  | .sleeping => poller.since + config.roundTime

end Poller

namespace Polled

variable {config : PollConfig}

def now (s : Polled) : Time := s.gateway.now

/-- A poller whose time has come goes on before more time passes. -/
def OnTime (config : PollConfig) (s : Polled) : Event → Prop
  | .gateway (.tick elapsed) =>
      ∀ poller ∈ s.pollers.pollers, poller.live = true → s.now + elapsed ≤ poller.due config
  | _ => True

instance (s : Polled) (event : Event) : Decidable (OnTime config s event) := by
  unfold OnTime
  split <;> infer_instance

def Event.stops : Event → Bool
  | .pollers .stop => true
  | _ => false

/-- What an event means for the health of one worker. -/
def verdicts (config : PollConfig) (worker : String) (s : Polled) (event : Event) :
    List HealthEvent :=
  (s.inner event).flatMap (s.gateway.verdicts config.toGatewayConfig worker)

/-- The pollers are on time, `stop` is not called, and all that happens to the health of the
worker is `good`. -/
def Watched (config : PollConfig) (good : HealthEvent → Bool) (worker : String) (s : Polled)
    (event : Event) : Prop :=
  OnTime config s event ∧ event.stops = false ∧
    ∀ verdict ∈ s.verdicts config worker event, good verdict = true

instance (good : HealthEvent → Bool) (worker : String) (s : Polled) (event : Event) :
    Decidable (Watched config good worker s event) :=
  inferInstanceAs (Decidable (_ ∧ _ ∧ _))

/-! ## What the pollers keep to -/

def WellTimed (config : PollConfig) (s : Polled) : Prop :=
  ∀ poller ∈ s.pollers.pollers, poller.since ≤ s.now ∧
    (poller.live = true → s.now ≤ poller.due config)

/-- An event is one event of the gateway at most. -/
theorem inner_cases (s : Polled) (event : Event) :
    s.inner event = [] ∨ ∃ inner, s.inner event = [inner] := by
  cases event with
  | gateway event => exact .inr ⟨event, rfl⟩
  | stubFails => exact .inr ⟨.dispatchFails, rfl⟩
  | pollers event =>
      cases hprobe : s.pollers.probed event with
      | none => exact .inl (by simp [inner, hprobe])
      | some probed => exact .inr ⟨.probe probed.1 probed.2, by simp [inner, hprobe]⟩

theorem health_of_step {s next : Polled} {event : Event} (hreach : (machine config).Reachable s)
    (hstep : s.step config event = some next) (worker : String) :
    (Health.machine config.toGatewayConfig).Run (s.gateway.health worker)
      (s.verdicts config worker event) (next.gateway.health worker) := by
  have hgateway := gateway_of_reachable hreach
  have hrun : (Gateway.machine config.toGatewayConfig).Run s.gateway (s.inner event) next.gateway :=
    (simulation config).step s event next hreach hstep
  rcases s.inner_cases event with hnone | ⟨inner, hone⟩
  · rw [hnone, Machine.run_nil_iff] at hrun
    simp only [verdicts, hnone, List.flatMap_nil, hrun]
    exact Machine.run_nil_iff.mpr rfl
  · rw [hone, Machine.run_singleton_iff] at hrun
    simp only [verdicts, hone, List.flatMap_singleton]
    exact Gateway.health_of_step (Gateway.step_of_reachable hgateway hrun)
      (Gateway.reservations_of_reachable hgateway) worker

/-- Good events do not raise the count. -/
theorem needed_of_step {good : HealthEvent → Bool} {needed : Health → ℕ}
    (hcounts : Health.CountsDown config.toGatewayConfig good needed) {s next : Polled}
    {event : Event} (hreach : (machine config).Reachable s)
    (hstep : s.step config event = some next) {worker : String}
    (hgood : ∀ verdict ∈ s.verdicts config worker event, good verdict = true) :
    needed (next.gateway.health worker) ≤ needed (s.gateway.health worker) := by
  have hkept : ∀ (health : Health) (verdict : HealthEvent) (after : Health),
      verdict ∈ s.verdicts config worker event →
      needed health ≤ needed (s.gateway.health worker) →
      (Health.machine config.toGatewayConfig).step health verdict = some after →
      needed after ≤ needed (s.gateway.health worker) := by
    intro health verdict after hmem hbefore hevent
    obtain rfl := Option.some.inj hevent
    exact (hcounts.next health (hgood verdict hmem)).trans hbefore
  refine (health_of_step hreach hstep worker).preserves ?_ hkept
  exact le_rfl

theorem wellTimed_store {p : Pollers} {now : Time} {id : ℕ} {poller : Poller}
    (h : ∀ other ∈ p.pollers, other.since ≤ now ∧ (other.live = true → now ≤ other.due config))
    (hpoller : poller.since ≤ now ∧ (poller.live = true → now ≤ poller.due config)) :
    ∀ other ∈ (p.store id poller).pollers,
      other.since ≤ now ∧ (other.live = true → now ≤ other.due config) := by
  intro other hmem
  rcases List.mem_or_eq_of_mem_set hmem with hold | rfl
  · exact h other hold
  · exact hpoller

theorem pollers_dispatch (p : Pollers) (worker : Option String) :
    (p.dispatch worker).pollers = p.pollers := by
  cases worker <;> rfl

theorem wellTimed_joinTasks {ids : List String} {p : Pollers} {now : Time} (tasks : List ℕ)
    (h : ∀ other ∈ p.pollers, other.since ≤ now ∧ (other.live = true → now ≤ other.due config)) :
    ∀ other ∈ (p.joinTasks ids tasks).pollers,
      other.since ≤ now ∧ (other.live = true → now ≤ other.due config) := by
  rcases Pollers.joinTasks_cases ids p tasks with
    ⟨_, task, poller, _, _, _, hpoller, _, hjoin⟩ | ⟨_, hjoin⟩ <;> rw [hjoin]
  · have hmoved : poller.cancel.since ≤ now ∧
        (poller.cancel.live = true → now ≤ poller.cancel.due config) :=
      h poller (List.mem_of_getElem? hpoller)
    exact wellTimed_store h hmoved
  · rw [Pollers.pollers_closeWorkers]
    exact h

theorem wellTimed_of_step (hinterval : 0 ≤ config.interval) (htimeout : 0 ≤ config.timeout)
    {s next : Polled} {event : Event} (hreach : (machine config).Reachable s)
    (hstep : Step config s event next) (hontime : OnTime config s event)
    (h : WellTimed config s) : WellTimed config next := by
  have hgateway := gateway_of_reachable hreach
  have hnow : ∀ inner, (∀ elapsed, inner ≠ .tick elapsed) →
      s.gateway.step config.toGatewayConfig inner = some next.gateway → next.now = s.now :=
    fun inner hother hmoved =>
      Gateway.now_of_step (Gateway.step_of_reachable hgateway hmoved) hother
  cases hstep with
  | @gateway event gateway _ hmoved =>
      by_cases htick : ∃ elapsed, event = .tick elapsed
      · obtain ⟨elapsed, rfl⟩ := htick
        cases Gateway.step_of_reachable hgateway hmoved with
        | tick helapsed =>
            intro poller hmem
            have hlater : s.now ≤ s.now + elapsed := le_add_of_nonneg_right helapsed
            exact ⟨(h poller hmem).1.trans hlater, hontime poller hmem⟩
        | move _ hcall => cases hcall
      · have hsame := hnow event (fun elapsed heq => htick ⟨elapsed, heq⟩) hmoved
        unfold WellTimed
        rw [hsame, pollers_dispatch]
        exact h
  | stubFails hmoved =>
      unfold WellTimed
      rw [hnow .dispatchFails (by simp) hmoved]
      exact h
  | @pollers _ after _ hpollers =>
      cases hpollers with
      | start _ _ =>
          intro poller hmem
          rcases List.mem_append.mp hmem with hold | hnew
          · exact h poller hold
          · obtain ⟨worker, _, rfl⟩ := List.mem_map.mp hnew
            exact ⟨le_rfl, fun _ => le_rfl⟩
      | ends _ hpoller _ _ _ | cancelled _ hpoller _ _ =>
          exact wellTimed_store h ⟨(h _ (List.mem_of_getElem? hpoller)).1, by simp [Poller.live]⟩
      | asks _ _ _ _ _ =>
          exact wellTimed_store h ⟨le_rfl, fun _ => le_add_of_nonneg_right htimeout⟩
      | probe _ _ _ hmoved =>
          have hsame : after.now = s.gateway.now := hnow _ (by simp) hmoved
          have hkept : ∀ poller ∈ s.pollers.pollers, poller.since ≤ after.now ∧
              (poller.live = true → after.now ≤ poller.due config) := by
            rw [hsame]
            exact h
          exact wellTimed_store hkept ⟨le_rfl, fun _ => le_add_of_nonneg_right hinterval⟩
      | stop _ _ =>
          have hkept : ∀ poller ∈ ({ s.pollers with stopping := true } : Pollers).pollers,
              poller.since ≤ s.now ∧ (poller.live = true → s.now ≤ poller.due config) := h
          exact wellTimed_joinTasks _ hkept
      | joined _ _ _ _ => exact wellTimed_joinTasks _ h
      | @closed worker rest _ _ =>
          have hsame := (s.pollers.closed worker).pollers_closeWorkers rest
          unfold WellTimed
          simp only [hsame]
          exact h

theorem wellTimed_of_reachable (hinterval : 0 ≤ config.interval) (htimeout : 0 ≤ config.timeout)
    {s : Polled} (hreach : (machine config).ReachableBy (OnTime config) s) :
    WellTimed config s := by
  apply hreach.invariant
  · rintro s ⟨now, rfl⟩ poller hmem
    exact absurd hmem List.not_mem_nil
  · intro s event next hbefore h hontime hevent
    exact wellTimed_of_step hinterval htimeout hbefore.reachable (step_cases hevent) hontime h

/-! ## Counting down -/

section Counting

variable {good : HealthEvent → Bool} {needed : Health → ℕ} {worker : String} {limit : Time}
  {own : ℕ}

/-- This poller of the worker is at work, and the outcomes that are needed come by `limit`. -/
def DueBy (config : PollConfig) (needed : Health → ℕ) (worker : String) (limit : Time) (own : ℕ)
    (s : Polled) : Prop :=
  ∃ poller : Poller, s.pollers.pollers[own]? = some poller ∧ poller.worker = worker ∧
    poller.live = true ∧ (0 < needed (s.gateway.health worker) →
      poller.nextOutcome config +
        config.roundTime * (needed (s.gateway.health worker) - 1 : ℕ) ≤ limit)

theorem roundTime_nonneg (hinterval : 0 ≤ config.interval) (htimeout : 0 ≤ config.timeout) :
    0 ≤ config.roundTime :=
  add_nonneg hinterval htimeout

/-- The count does not grow, and the poller goes on. -/
theorem DueBy.mono (hround : 0 ≤ config.roundTime) {s next : Polled}
    (h : DueBy config needed worker limit own s)
    (hneeded : needed (next.gateway.health worker) ≤ needed (s.gateway.health worker))
    (hpollers : ∀ poller : Poller, s.pollers.pollers[own]? = some poller → poller.live = true →
      ∃ moved : Poller, next.pollers.pollers[own]? = some moved ∧ moved.worker = poller.worker ∧
        moved.live = true ∧ moved.nextOutcome config ≤ poller.nextOutcome config) :
    DueBy config needed worker limit own next := by
  obtain ⟨poller, hpoller, hworker, hlive, hlimit⟩ := h
  obtain ⟨moved, hmoved, hsame, hmovedLive, hsooner⟩ := hpollers poller hpoller hlive
  refine ⟨moved, hmoved, hsame.trans hworker, hmovedLive, fun hpositive => ?_⟩
  have hfewer : needed (next.gateway.health worker) - 1 ≤ needed (s.gateway.health worker) - 1 :=
    Nat.sub_le_sub_right hneeded 1
  calc moved.nextOutcome config +
        config.roundTime * (needed (next.gateway.health worker) - 1 : ℕ)
    _ ≤ poller.nextOutcome config +
        config.roundTime * (needed (s.gateway.health worker) - 1 : ℕ) :=
        add_le_add hsooner (mul_le_mul_of_nonneg_left (Nat.cast_le.mpr hfewer) hround)
    _ ≤ limit := hlimit (lt_of_lt_of_le hpositive hneeded)

/-- A poller is due before its next outcome. -/
theorem due_le_nextOutcome (htimeout : 0 ≤ config.timeout) (poller : Poller) :
    poller.due config ≤ poller.nextOutcome config := by
  cases hpoint : poller.point <;> simp only [Poller.due, Poller.nextOutcome, hpoint,
    PollConfig.roundTime] <;> linarith

/-- A poller at the head of its loop asks in time. -/
theorem asks_in_time {poller : Poller} {now : Time} (hhead : poller.atHead = true)
    (hdue : now ≤ poller.due config) :
    (poller.suspend .awaitStatus now).nextOutcome config ≤ poller.nextOutcome config := by
  cases hpoint : poller.point <;> simp_all [Poller.atHead, Poller.due, Poller.nextOutcome,
    Poller.suspend, PollConfig.roundTime]
  linarith

/-- While the application is up, no live poller is to be cancelled. -/
theorem not_cancelled_of_up {s : Polled} (hreach : (machine config).Reachable s)
    (hup : s.pollers.lifespan = .up) {id : ℕ} {poller : Poller}
    (hpoller : s.pollers.pollers[id]? = some poller) (hlive : poller.live = true) :
    s.pollers.stopping = false ∧ poller.cancelRequested = false := by
  cases staffed_of_reachable hreach with
  | joining hstate _ _ _ | idle hstate _ _ => simp [hup] at hstate
  | up _ hposted hstopping _ hall =>
      obtain ⟨other, hother, _, hcancel⟩ := hall id (hposted.live id poller hpoller hlive)
      obtain rfl := Option.some.inj (hpoller.symm.trans hother)
      exact ⟨hstopping, hcancel⟩

/-- The probe that was waited for takes one from the count, and the next one comes a round
later. -/
theorem dueBy_of_probe (hcounts : Health.CountsDown config.toGatewayConfig good needed)
    (hround : 0 ≤ config.roundTime) (htimeout : 0 ≤ config.timeout) {s next : Polled}
    {poller : Poller} {verdict : HealthEvent} (hgood : good verdict = true)
    (hverdict : verdict ≠ .unavailable)
    (hhealth : next.gateway.health worker =
      (s.gateway.health worker).next config.toGatewayConfig verdict)
    (hworker : poller.worker = worker) (hdue : s.now ≤ poller.due config)
    (hmoved : next.pollers.pollers[own]? = some (poller.suspend .sleeping s.now))
    (hlimit : 0 < needed (s.gateway.health worker) → poller.nextOutcome config +
      config.roundTime * (needed (s.gateway.health worker) - 1 : ℕ) ≤ limit) :
    DueBy config needed worker limit own next := by
  refine ⟨_, hmoved, hworker, rfl, fun hpositive => ?_⟩
  have hless := hcounts.probe (s.gateway.health worker) verdict hgood hverdict
  rw [← hhealth] at hless
  have hcount : needed (next.gateway.health worker) - 1 + 1 ≤
      needed (s.gateway.health worker) - 1 := by omega
  calc (poller.suspend .sleeping s.now).nextOutcome config +
        config.roundTime * (needed (next.gateway.health worker) - 1 : ℕ)
    _ = s.now + config.roundTime * (needed (next.gateway.health worker) - 1 + 1 : ℕ) := by
        simp only [Poller.nextOutcome, Poller.suspend_point, Poller.suspend_since]
        push_cast
        ring
    _ ≤ poller.nextOutcome config +
        config.roundTime * (needed (s.gateway.health worker) - 1 : ℕ) :=
        add_le_add (hdue.trans (due_le_nextOutcome htimeout poller))
          (mul_le_mul_of_nonneg_left (Nat.cast_le.mpr hcount) hround)
    _ ≤ limit := hlimit (by omega)

theorem dueBy_of_step (hcounts : Health.CountsDown config.toGatewayConfig good needed)
    (hround : 0 ≤ config.roundTime) (htimeout : 0 ≤ config.timeout) {s next : Polled}
    {event : Event} (hreach : (machine config).Reachable s)
    (hevent : s.step config event = some next) (hup : s.pollers.lifespan = .up)
    (htimed : WellTimed config s) (hwatched : Watched config good worker s event)
    (h : DueBy config needed worker limit own s) :
    next.pollers.lifespan = .up ∧ DueBy config needed worker limit own next := by
  obtain ⟨_, hstop, hgood⟩ := hwatched
  have hneeded := needed_of_step hcounts hreach hevent hgood
  have hkept : ∀ p : Pollers, p.pollers[own]? = s.pollers.pollers[own]? → ∀ poller : Poller,
      s.pollers.pollers[own]? = some poller → poller.live = true →
      ∃ moved : Poller, p.pollers[own]? = some moved ∧ moved.worker = poller.worker ∧
        moved.live = true ∧ moved.nextOutcome config ≤ poller.nextOutcome config :=
    fun p hp poller hpoller hlive => ⟨poller, hp.trans hpoller, rfl, hlive, le_rfl⟩
  cases step_cases hevent with
  | @gateway event _ _ _ =>
      have hsame := pollers_dispatch s.pollers (s.gateway.dispatched event)
      refine ⟨?_, h.mono hround hneeded (hkept _ (congrArg (fun list => list[own]?) hsame))⟩
      cases s.gateway.dispatched event <;> exact hup
  | stubFails _ => exact ⟨hup, h.mono hround hneeded (hkept _ rfl)⟩
  | @pollers cause after _ hpollers =>
      cases hpollers with
      | start _ hstate | joined _ hstate _ _ | closed _ hstate => simp [hup] at hstate
      | stop _ _ => cases hstop
      | ends _ hpoller hhead _ hstopping =>
          have hopen := (not_cancelled_of_up hreach hup hpoller (Pollers.live_of_atHead hhead)).1
          simp [hopen] at hstopping
      | cancelled _ hpoller hlive hcancel =>
          have hnone := (not_cancelled_of_up hreach hup hpoller hlive).2
          simp [hnone] at hcancel
      | @asks id asking _ hpoller hhead _ _ =>
          refine ⟨hup, ?_⟩
          by_cases heq : own = id
          · subst heq
            refine h.mono hround hneeded fun poller hown hlive => ?_
            obtain rfl := Option.some.inj (hpoller.symm.trans hown)
            have hdue := (htimed asking (List.mem_of_getElem? hpoller)).2 hlive
            exact ⟨_, Pollers.getElem?_store_self hpoller _, rfl, rfl, asks_in_time hhead hdue⟩
          · exact h.mono hround hneeded (hkept _ (Pollers.getElem?_store_of_ne heq _))
      | @probe _ id probing outcome _ hpoller hpoint _ hgateway =>
          refine ⟨hup, ?_⟩
          by_cases heq : own = id
          · subst heq
            have hnow : after.now = s.now :=
              Gateway.now_of_step (Gateway.step_of_reachable (gateway_of_reachable hreach) hgateway)
                (by simp)
            obtain ⟨poller, hown, hworker, hlive, hlimit⟩ := h
            obtain rfl := Option.some.inj (hpoller.symm.trans hown)
            have hverdicts : s.verdicts config worker (.pollers cause) =
                [outcome.verdict config.toGatewayConfig] := by
              have hprobed : s.pollers.probed cause = some (probing.worker, outcome) := by
                rcases hpoint with ⟨_, _, rfl, rfl⟩ | ⟨_, rfl⟩ <;> simp [Pollers.probed, hpoller]
              simp [verdicts, inner, hprobed, Gateway.verdicts, hworker]
            have hhealth := health_of_step hreach hevent worker
            rw [hverdicts, Machine.run_singleton_iff] at hhealth
            refine dueBy_of_probe hcounts hround htimeout (hgood _ (by simp [hverdicts]))
              (outcome.verdict_ne_unavailable _) (Option.some.inj hhealth).symm hworker
              ((htimed probing (List.mem_of_getElem? hpoller)).2 hlive) ?_ hlimit
            rw [← hnow]
            exact Pollers.getElem?_store_self hpoller _
          · exact h.mono hround hneeded (hkept _ (Pollers.getElem?_store_of_ne heq _))

/-- Each worker has a poller, which brings the next outcome within a round. -/
theorem exists_dueBy (needed : Health → ℕ) {s : Polled} (hreach : (machine config).Reachable s)
    (htimed : WellTimed config s) (hinterval : 0 ≤ config.interval)
    (hup : s.pollers.lifespan = .up) (hworker : worker ∈ s.ids) :
    ∃ own, DueBy config needed worker
      (s.now + config.roundTime * (needed (s.gateway.health worker) : ℕ)) own s := by
  cases staffed_of_reachable hreach with
  | joining hstate _ _ _ | idle hstate _ _ => simp [hup] at hstate
  | @up old _ hposted _ htasks hall =>
      rw [← hposted.workers] at hworker
      obtain ⟨poller, hmem, hpollerWorker⟩ := List.mem_map.mp hworker
      obtain ⟨index, hpoller⟩ := List.mem_iff_getElem?.mp hmem
      have hindex : index < s.ids.length := by
        rw [← hposted.workers, List.length_map]
        exact (List.getElem?_eq_some_iff.mp hpoller).1
      rw [List.getElem?_drop] at hpoller
      have htask : old + index ∈ s.pollers.tasks := by
        rw [htasks, List.mem_range'_1]
        omega
      obtain ⟨other, hother, hlive, _⟩ := hall (old + index) htask
      obtain rfl := Option.some.inj (hpoller.symm.trans hother)
      refine ⟨old + index, poller, hpoller, hpollerWorker, hlive, fun hpositive => ?_⟩
      have hnext : poller.nextOutcome config ≤ s.now + config.roundTime := by
        have hsince := (htimed poller (List.mem_of_getElem? hpoller)).1
        cases hpoint : poller.point <;>
          simp only [Poller.nextOutcome, hpoint, PollConfig.roundTime] <;> linarith
      obtain ⟨count, hcount⟩ := Nat.exists_eq_succ_of_ne_zero hpositive.ne'
      rw [hcount, Nat.succ_sub_one]
      push_cast
      linarith

/-- **The pace.**  A count that every outcome lowers is zero after as many rounds. -/
theorem needed_eq_zero_of_late (hcounts : Health.CountsDown config.toGatewayConfig good needed)
    (hinterval : 0 ≤ config.interval) (htimeout : 0 ≤ config.timeout) {first last : Polled}
    (hreach : (machine config).ReachableBy (OnTime config) first)
    (hup : first.pollers.lifespan = .up) (hworker : worker ∈ first.ids)
    (hrun : ((machine config).startingAt first).ReachableBy (Watched config good worker) last)
    (hlate : first.now + config.roundTime * (needed (first.gateway.health worker) : ℕ) < last.now) :
    needed (last.gateway.health worker) = 0 := by
  have hround := roundTime_nonneg hinterval htimeout
  obtain ⟨own, hfirst⟩ := exists_dueBy needed hreach.reachable
    (wellTimed_of_reachable hinterval htimeout hreach) hinterval hup hworker
  have hlater : (machine config).ReachableBy (OnTime config) last ∧
      last.pollers.lifespan = .up ∧ DueBy config needed worker
        (first.now + config.roundTime * (needed (first.gateway.health worker) : ℕ)) own last := by
    apply hrun.invariant
    · rintro _ rfl
      exact ⟨hreach, hup, hfirst⟩
    · intro s event next _ ⟨hbefore, hup, hdue⟩ hwatched hevent
      have htimed := wellTimed_of_reachable hinterval htimeout hbefore
      exact ⟨hbefore.step hwatched.1 hevent, dueBy_of_step hcounts hround htimeout hbefore.reachable
        hevent hup htimed hwatched hdue⟩
  obtain ⟨hreachable, _, poller, hpoller, _, hlive, hlimit⟩ := hlater
  by_contra hpositive
  have hdue : last.now ≤ poller.due config :=
    (wellTimed_of_reachable hinterval htimeout hreachable poller (List.mem_of_getElem? hpoller)).2
      hlive
  have hrest : 0 ≤ config.roundTime * (needed (last.gateway.health worker) - 1 : ℕ) :=
    mul_nonneg hround (Nat.cast_nonneg _)
  have hnext := due_le_nextOutcome htimeout poller
  have hend := hlimit (Nat.pos_of_ne_zero hpositive)
  linarith

end Counting

/-! ## Out in time, and back in time -/

/-- **A failure is detected in time.**  Let the application be up and its pollers on time.  If
no probe of a worker gets a compatible reply, then it is not healthy any more after as many
rounds of interval and timeout as the failure threshold says, whatever else happens. -/
theorem ejected_in_time (hinterval : 0 ≤ config.healthIntervalMs)
    (htimeout : 0 ≤ config.healthTimeoutMs) {first last : Polled} {worker : String}
    (hreach : (machine config).ReachableBy (OnTime config) first)
    (hup : first.pollers.lifespan = .up) (hworker : worker ∈ first.ids)
    (hrun : ((machine config).startingAt first).ReachableBy
      (Watched config (fun event => event ≠ .compatible) worker) last)
    (hlate : first.now + config.roundTime * (max 1 config.healthFailureThreshold : ℤ) < last.now) :
    (last.gateway.health worker).state ≠ .healthy := by
  have hinterval' := PollConfig.interval_nonneg hinterval
  have htimeout' := PollConfig.timeout_nonneg htimeout
  have hhealth : (Health.machine config.toGatewayConfig).Reachable (first.gateway.health worker) :=
    (Gateway.healthSimulation config.toGatewayConfig worker).reachable
      (gateway_of_reachable hreach.reachable)
  have hbound : ((first.gateway.health worker).toEject config.toGatewayConfig : ℚ) ≤
      (max 1 config.healthFailureThreshold : ℤ) := by
    exact_mod_cast Health.toEject_le hhealth
  have hzero : (last.gateway.health worker).toEject config.toGatewayConfig = 0 := by
    refine needed_eq_zero_of_late Health.counts_toEject hinterval' htimeout' hreach hup hworker
      hrun ?_
    have hround := mul_le_mul_of_nonneg_left hbound (roundTime_nonneg hinterval' htimeout')
    linarith
  intro hhealthy
  simp only [Health.toEject, hhealthy, if_true] at hzero
  omega

def oneWorker : PollConfig := { workers := [("worker-1", "worker-1:50051")] }

/-- The state a list of events leads to from time 0, with a poller that is on time. -/
def onTimeSample (events : List Event) : Polled :=
  ((machine oneWorker).restrict (OnTime oneWorker)).after (initial oneWorker 0) events

/-- The poller asks again and gets its answer at the last moment. -/
def nextRound (outcome : ProbeOutcome) : List Event :=
  [.gateway (.tick 1), .pollers (.poll 0), .gateway (.tick (1 / 4)), .pollers (.outcome 0 outcome)]

/-- The first reply makes the worker healthy. -/
def untilHealthy : List Event :=
  [.pollers .start, .pollers (.poll 0), .pollers (.outcome 0 (.reply (sampleReply .ready)))]

/-- Three probes fail, and then some time passes. -/
def untilEjected : List Event :=
  nextRound .rpcFailed ++ nextRound .rpcFailed ++ nextRound .rpcFailed ++ [.gateway (.tick 1)]

theorem onTimeSample_untilHealthy :
    (machine oneWorker).ReachableBy (OnTime oneWorker) (onTimeSample untilHealthy) := by
  have hinitial : (machine oneWorker).ReachableBy (OnTime oneWorker) (initial oneWorker 0) :=
    .initial ⟨0, rfl⟩
  exact hinitial.run_restrict (Machine.run_after (by decide +kernel))

theorem ejected_in_time_silent :
    ((onTimeSample untilHealthy).gateway.health "worker-1").state = .healthy ∧
      ((((machine oneWorker).restrict
          (Watched oneWorker (fun event => event ≠ .compatible) "worker-1")).after
        (onTimeSample untilHealthy) untilEjected).gateway.health "worker-1").state ≠ .healthy := by
  refine ⟨by decide +kernel, ?_⟩
  exact ejected_in_time (by decide) (by decide) onTimeSample_untilHealthy (by decide +kernel)
    (by decide +kernel) (Machine.reachableBy_of_restrict (Machine.run_after (by decide +kernel)))
    (by decide +kernel)

/-- Compatible replies do not make a worker drain. -/
theorem notDraining_of_step {s next : Polled} {event : Event}
    (hreach : (machine config).Reachable s) (hstep : s.step config event = some next)
    {worker : String}
    (hgood : ∀ verdict ∈ s.verdicts config worker event, decide (verdict = .compatible) = true)
    (h : (s.gateway.health worker).state ≠ .draining) :
    (next.gateway.health worker).state ≠ .draining := by
  have hkept : ∀ (health : Health) (verdict : HealthEvent) (after : Health),
      verdict ∈ s.verdicts config worker event → health.state ≠ .draining →
      (Health.machine config.toGatewayConfig).step health verdict = some after →
      after.state ≠ .draining := by
    intro health verdict after hmem hbefore hevent
    obtain rfl := Option.some.inj hevent
    obtain rfl : verdict = .compatible := by simpa using hgood verdict hmem
    cases hstate : health.state with
    | draining => exact absurd hstate hbefore
    | starting | healthy => simp [Health.next, hstate]
    | unhealthy =>
        simp only [Health.next, hstate]
        split <;> simp
  exact (health_of_step hreach hstep worker).preserves h hkept

/-- **A worker comes back in time.**  Let the application be up and its pollers on time, and
let the worker not have been seen draining.  If all its probes get compatible replies and no
prediction ends with `UNAVAILABLE`, then it is healthy after as many rounds as the recovery
threshold says. -/
theorem admitted_in_time (hinterval : 0 ≤ config.healthIntervalMs)
    (htimeout : 0 ≤ config.healthTimeoutMs) {first last : Polled} {worker : String}
    (hreach : (machine config).ReachableBy (OnTime config) first)
    (hup : first.pollers.lifespan = .up) (hworker : worker ∈ first.ids)
    (hdraining : (first.gateway.health worker).state ≠ .draining)
    (hrun : ((machine config).startingAt first).ReachableBy
      (Watched config (fun event => event = .compatible) worker) last)
    (hlate : first.now + config.roundTime * (max 1 config.healthRecoveryThreshold : ℤ) < last.now) :
    (last.gateway.health worker).state = .healthy := by
  have hinterval' := PollConfig.interval_nonneg hinterval
  have htimeout' := PollConfig.timeout_nonneg htimeout
  have hbound : ((first.gateway.health worker).toAdmit config.toGatewayConfig : ℚ) ≤
      (max 1 config.healthRecoveryThreshold : ℤ) := by
    exact_mod_cast Health.toAdmit_le _
  have hzero : (last.gateway.health worker).toAdmit config.toGatewayConfig = 0 := by
    refine needed_eq_zero_of_late Health.counts_toAdmit hinterval' htimeout' hreach hup hworker
      hrun ?_
    have hround := mul_le_mul_of_nonneg_left hbound (roundTime_nonneg hinterval' htimeout')
    linarith
  have hlast : (machine config).Reachable last ∧
      (last.gateway.health worker).state ≠ .draining := by
    apply hrun.invariant
    · rintro _ rfl
      exact ⟨hreach.reachable, hdraining⟩
    · intro s event next _ h hwatched hevent
      exact ⟨h.1.next hevent, notDraining_of_step h.1 hevent hwatched.2.2 h.2⟩
  cases hstate : (last.gateway.health worker).state with
  | healthy => rfl
  | draining => exact absurd hstate hlast.2
  | starting | unhealthy =>
      simp only [Health.toAdmit, hstate] at hzero
      omega

/-- The worker answers again, twice in a row, and then some time passes. -/
def untilAdmitted : List Event :=
  nextRound (.reply (sampleReply .ready)) ++ nextRound (.reply (sampleReply .ready)) ++
    [.gateway (.tick 1)]

theorem admitted_in_time_answering :
    let first := onTimeSample (untilHealthy ++ nextRound .rpcFailed ++ nextRound .rpcFailed ++
      nextRound .rpcFailed)
    (first.gateway.health "worker-1").state = .unhealthy ∧
      ((((machine oneWorker).restrict
          (Watched oneWorker (fun event => event = .compatible) "worker-1")).after
        first untilAdmitted).gateway.health "worker-1").state = .healthy := by
  refine ⟨by decide +kernel, ?_⟩
  have hinitial : (machine oneWorker).ReachableBy (OnTime oneWorker) (initial oneWorker 0) :=
    .initial ⟨0, rfl⟩
  exact admitted_in_time (by decide) (by decide)
    (hinitial.run_restrict (Machine.run_after (by decide +kernel))) (by decide +kernel)
    (by decide +kernel) (by decide +kernel)
    (Machine.reachableBy_of_restrict (Machine.run_after (by decide +kernel))) (by decide +kernel)

end Polled
end ModelServer
