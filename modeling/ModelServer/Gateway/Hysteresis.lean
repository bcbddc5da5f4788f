import ModelServer.Gateway.HealthHistory

/-!
# What the two counters count

The counters of a node are read off its history.  While it is healthy,
`consecutive_failures` are the failed probes since its last compatible one
(`Counts`).  While it is unhealthy, `consecutive_successes` are the compatible
probes since it last left `HEALTHY` or last failed a probe (`Rebuilt`): between
these only compatible probes and late `UNAVAILABLE` predictions have happened,
and the latter change nothing.  Stale values cannot be met, because `UNHEALTHY` is
only entered with no success and `HEALTHY` only with no failure.

`hysteresis_exact` adds which event each change of state happens on.
-/

namespace ModelServer

open Transition

namespace Health

variable {config : GatewayConfig}

/-- The health after a history. -/
def stateAfter (config : GatewayConfig) (history : List HealthEvent) : Health :=
  history.foldl (fun health event => health.next config event) {}

@[simp] theorem stateAfter_append (history : List HealthEvent) (event : HealthEvent) :
    stateAfter config (history ++ [event]) = (stateAfter config history).next config event := by
  simp [stateAfter]

/-- After `history`, the worker fails a probe or leaves `HEALTHY`. -/
def Resets (config : GatewayConfig) (history : List HealthEvent) (event : HealthEvent) : Prop :=
  event = .failed ∨ (stateAfter config history).state = .healthy ∧
    (stateAfter config (history ++ [event])).state ≠ .healthy

/-- `after` is what has happened since the worker last left `HEALTHY` or failed a probe. -/
def SinceReset (config : GatewayConfig) (history after : List HealthEvent) : Prop :=
  ∃ before event, history = before ++ event :: after ∧ Resets config before event ∧
    ∀ middle later rest, after = middle ++ later :: rest →
      ¬ Resets config (before ++ event :: middle) later

theorem sinceReset_nil {history : List HealthEvent} {event : HealthEvent}
    (h : Resets config history event) : SinceReset config (history ++ [event]) [] :=
  ⟨history, event, rfl, h, fun middle later rest heq => by simp at heq⟩

theorem SinceReset.append {history after : List HealthEvent} {event : HealthEvent}
    (h : SinceReset config history after) (hevent : ¬ Resets config history event) :
    SinceReset config (history ++ [event]) (after ++ [event]) := by
  obtain ⟨before, reset, rfl, hreset, hafter⟩ := h
  refine ⟨before, reset, by simp, hreset, fun middle later rest hsplit => ?_⟩
  rcases List.eq_nil_or_concat rest with rfl | ⟨rest, last, rfl⟩
  · obtain ⟨rfl, hlast⟩ := List.append_inj' hsplit rfl
    rw [List.singleton_inj] at hlast
    rwa [← hlast]
  · rw [List.concat_eq_append, ← List.cons_append, ← List.append_assoc] at hsplit
    exact hafter middle later rest (List.append_inj' hsplit rfl).1

/-- While the worker is unhealthy, `consecutive_successes` counts the compatible probes
since the last reset, and nothing else has changed anything since. -/
def Rebuilt (config : GatewayConfig) (history : List HealthEvent) (health : Health) : Prop :=
  health.state = .unhealthy → ∃ after, SinceReset config history after ∧
    (∀ event ∈ after, event = .compatible ∨ event = .unavailable) ∧
    health.consecutiveSuccesses = after.count .compatible ∧
    (health.consecutiveSuccesses : ℤ) < config.healthRecoveryThreshold

/-- How the counters, the state and the history go together. -/
structure Counters (config : GatewayConfig) (history : List HealthEvent) (health : Health) :
    Prop where
  here : health = stateAfter config history
  exclusive : health.consecutiveFailures = 0 ∨ health.consecutiveSuccesses = 0
  counts : Counts config history health
  rebuilt : Rebuilt config history health
  starting : health.state = .starting → .compatible ∉ history

theorem exclusive_next {health : Health} (event : HealthEvent)
    (h : health.consecutiveFailures = 0 ∨ health.consecutiveSuccesses = 0) :
    (health.next config event).consecutiveFailures = 0 ∨
      (health.next config event).consecutiveSuccesses = 0 := by
  cases event with
  | compatible => exact .inl rfl
  | failed => exact .inr rfl
  | draining => exact .inl rfl
  | unavailable =>
      simp only [next]
      split
      · exact .inr rfl
      · exact h

/-- An unhealthy worker that stays unhealthy without failing a probe is not reset. -/
theorem not_resets_of_unhealthy {history : List HealthEvent} {event : HealthEvent}
    (hstate : (stateAfter config history).state = .unhealthy) (hevent : event ≠ .failed) :
    ¬ Resets config history event := by
  rintro (hfailed | ⟨hhealthy, _⟩)
  · exact hevent hfailed
  · simp [hstate] at hhealthy

theorem rebuilt_of_step (hrecovery : 1 ≤ config.healthRecoveryThreshold)
    {history : List HealthEvent} {health : Health} (event : HealthEvent)
    (hhere : health = stateAfter config history) (h : Rebuilt config history health) :
    Rebuilt config (history ++ [event]) (health.next config event) := by
  intro hunhealthy
  cases event with
  | draining => simp [next] at hunhealthy
  | failed =>
      -- the count starts again
      refine ⟨[], sinceReset_nil (.inl rfl), by simp, rfl, ?_⟩
      simp only [next]
      omega
  | unavailable =>
      by_cases hhealthy : health.state = .healthy
      · have hleft : Resets config history .unavailable := by
          rw [hhere] at hhealthy
          exact .inr ⟨hhealthy, by simp [next, hhealthy]⟩
        refine ⟨[], sinceReset_nil hleft, by simp, ?_, ?_⟩
        · simp [next, hhealthy]
        · simp only [next, hhealthy, if_true]
          omega
      · have hsame : health.next config .unavailable = health := by simp [next, hhealthy]
        rw [hsame] at hunhealthy ⊢
        obtain ⟨after, hsince, hafter, hcount, hfew⟩ := h hunhealthy
        refine ⟨after ++ [.unavailable],
          hsince.append (not_resets_of_unhealthy (hhere ▸ hunhealthy) (by simp)), ?_, ?_, hfew⟩
        · intro event hmem
          rcases List.mem_append.mp hmem with hold | hnew
          · exact hafter event hold
          · exact .inr (List.mem_singleton.mp hnew)
        · simpa [List.count_append] using hcount
  | compatible =>
      have hbefore : health.state = .unhealthy ∧
          ¬ config.healthRecoveryThreshold ≤ health.consecutiveSuccesses + 1 := by
        cases hstate : health.state <;> simp_all [next]
      obtain ⟨hstate, hreached⟩ := hbefore
      obtain ⟨after, hsince, hafter, hcount, _⟩ := h hstate
      refine ⟨after ++ [.compatible],
        hsince.append (not_resets_of_unhealthy (hhere ▸ hstate) (by simp)), ?_, ?_, ?_⟩
      · intro event hmem
        rcases List.mem_append.mp hmem with hold | hnew
        · exact hafter event hold
        · exact .inl (List.mem_singleton.mp hnew)
      · simp [next, hcount, List.count_append]
      · simp only [next]
        push_cast
        omega

/-- A worker is starting only until its first compatible probe. -/
theorem starting_of_step {history : List HealthEvent} {health : Health} (event : HealthEvent)
    (h : health.state = .starting → .compatible ∉ history)
    (hstarting : (health.next config event).state = .starting) :
    .compatible ∉ history ++ [event] := by
  have hbefore : health.state = .starting ∧ event ≠ .compatible := by
    cases event <;> simp only [next] at hstarting <;> cases hstate : health.state <;>
      simp_all <;> split at hstarting <;> simp_all
  simp [h hbefore.1, hbefore.2.symm]

theorem counters_of_run (hrecovery : 1 ≤ config.healthRecoveryThreshold)
    {history : List HealthEvent} {health : Health}
    (hrun : (machine config).Run {} history health) : Counters config history health := by
  refine hrun.history ⟨rfl, .inl rfl, nofun, nofun, by simp⟩ ?_
  intro history health event next h hstep
  obtain rfl := Option.some.inj hstep
  exact ⟨by rw [stateAfter_append, ← h.here], exclusive_next event h.exclusive,
    counts_of_step event h.counts, rebuilt_of_step hrecovery event h.here h.rebuilt,
    starting_of_step event h.starting⟩

end Health

/-! ## When the state changes -/

namespace Health

variable {config : GatewayConfig}

theorem leaves_healthy_iff {health : Health} {event : HealthEvent}
    (hstate : health.state = .healthy) :
    (health.next config event).state ≠ .healthy ↔
      event = .failed ∧ config.healthFailureThreshold ≤ health.consecutiveFailures + 1 ∨
        event = .unavailable ∨ event = .draining := by
  cases event <;> simp [next, hstate]

theorem enters_healthy_iff {health : Health} {event : HealthEvent}
    (hstate : health.state = .unhealthy) :
    (health.next config event).state = .healthy ↔
      event = .compatible ∧ config.healthRecoveryThreshold ≤ health.consecutiveSuccesses + 1 := by
  cases event <;> simp [next, hstate]

theorem starts_healthy_iff {health : Health} {event : HealthEvent}
    (hstate : health.state = .starting) :
    (health.next config event).state = .healthy ↔ event = .compatible := by
  cases event <;> simp [next, hstate]

end Health

namespace WorkerNode

variable {config : GatewayConfig}

/-- The history of a node is a run of the abstract machine. -/
theorem health_of_run {first last : WorkerNode} {events : List Event}
    (hrun : (machine config).Run first events last) :
    (Health.machine config).Run first.toHealth (events.map (Event.verdict config))
      last.toHealth := by
  induction events generalizing first with
  | nil => simpa using congrArg toHealth (Machine.run_nil_iff.mp hrun)
  | cons event events ih =>
      obtain ⟨next, hstep, hrest⟩ := Machine.run_cons_iff.mp hrun
      obtain rfl := Option.some.inj hstep
      have hnext := ih hrest
      rw [toHealth_step] at hnext
      exact .cons rfl hnext

/-- What the counters of a node count, and which events change its state. -/
structure Exact (config : GatewayConfig) (history : List HealthEvent) (worker : WorkerNode) :
    Prop where
  exclusive : worker.consecutiveFailures = 0 ∨ worker.consecutiveSuccesses = 0
  /-- `after` is what has happened since the last compatible probe. -/
  healthy : worker.state = .healthy → ∃ before after,
    history = before ++ .compatible :: after ∧ .compatible ∉ after ∧
    worker.consecutiveFailures = after.count .failed ∧
    worker.consecutiveFailures < config.healthFailureThreshold ∧
    ∀ event, (worker.step config event).state ≠ .healthy ↔
      event.verdict config = .failed ∧
          ((after ++ [HealthEvent.failed]).count .failed : ℤ) = config.healthFailureThreshold ∨
        event.verdict config = .unavailable ∨ event.verdict config = .draining
  /-- `after` is what has happened since it last left `HEALTHY` or failed a probe. -/
  unhealthy : worker.state = .unhealthy → ∃ after, Health.SinceReset config history after ∧
    (∀ event ∈ after, event = .compatible ∨ event = .unavailable) ∧
    worker.consecutiveSuccesses = after.count .compatible ∧
    (worker.consecutiveSuccesses : ℤ) < config.healthRecoveryThreshold ∧
    ∀ event, (worker.step config event).state = .healthy ↔
      event.verdict config = .compatible ∧
        ((after ++ [HealthEvent.compatible]).count .compatible : ℤ) = config.healthRecoveryThreshold
  starting : worker.state = .starting → .compatible ∉ history ∧
    ∀ event, (worker.step config event).state = .healthy ↔ event.verdict config = .compatible

/-- **The health hysteresis is exact.** -/
theorem hysteresis_exact (hfailure : 1 ≤ config.healthFailureThreshold)
    (hrecovery : 1 ≤ config.healthRecoveryThreshold) {address : String} {events : List Event}
    {worker : WorkerNode} (hrun : (machine config).Run { address } events worker) :
    Exact config (events.map (Event.verdict config)) worker := by
  have h := Health.counters_of_run hrecovery (health_of_run hrun)
  refine ⟨h.exclusive, fun hstate => ?_, fun hstate => ?_, fun hstate => ?_⟩
  · obtain ⟨before, after, hhistory, hfailed, hcount, hfew⟩ := h.counts hstate
    have hall : after.count .failed = after.length := List.count_eq_length.mpr fun event hmem =>
      (hfailed event hmem).symm
    refine ⟨before, after, hhistory, fun hmem => absurd (hfailed _ hmem) (by simp), ?_, ?_, ?_⟩
    · rw [hall]
      exact hcount
    · omega
    · intro event
      rw [toHealth_step, Health.leaves_healthy_iff hstate, List.count_append, hall]
      simp only [List.count_singleton_self]
      constructor <;> rintro (⟨hevent, hreached⟩ | hother)
      · exact .inl ⟨hevent, by push_cast; omega⟩
      · exact .inr hother
      · exact .inl ⟨hevent, by push_cast at hreached; omega⟩
      · exact .inr hother
  · obtain ⟨after, hsince, hafter, hcount, hfew⟩ := h.rebuilt hstate
    refine ⟨after, hsince, hafter, hcount, hfew, fun event => ?_⟩
    rw [toHealth_step, Health.enters_healthy_iff hstate, List.count_append, ← hcount]
    simp only [List.count_singleton_self]
    constructor <;> rintro ⟨hevent, hreached⟩
    · exact ⟨hevent, by push_cast; omega⟩
    · exact ⟨hevent, by push_cast at hreached; omega⟩
  · exact ⟨h.starting hstate, fun event => by
      rw [toHealth_step, Health.starts_healthy_iff hstate]⟩

/-- A worker starts, is ejected by a failed prediction, and has answered once since. -/
def ejectedEvents : List Event :=
  [.probe 0 .rpcFailed, .probe 1 (.reply (sampleReply .ready)), .unavailable,
    .probe 2 (.reply (sampleReply .ready)), .unavailable]

theorem hysteresis_exact_ejected :
    let worker := (machine {}).after { address := "worker-1:50051" } ejectedEvents
    (1 : ℤ) ≤ GatewayConfig.healthFailureThreshold {} ∧
      (1 : ℤ) ≤ GatewayConfig.healthRecoveryThreshold {} ∧
      worker.state = .unhealthy ∧ worker.consecutiveSuccesses = 1 ∧
      Exact {} (ejectedEvents.map (Event.verdict {})) worker :=
  ⟨by decide, by decide, by decide, by decide,
    hysteresis_exact (by decide) (by decide) (Machine.run_after (by decide))⟩

end WorkerNode
end ModelServer
