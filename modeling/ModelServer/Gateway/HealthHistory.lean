import ModelServer.Gateway.Health

/-!
# What a healthy worker has done lately

Two facts about the runs of the health state machine, read off the sequence of
its events.  A healthy worker has given a compatible reply, and since then only
fewer failed probes than the failure threshold (`healthy_of_run`).  A worker that
is healthy some time after an `UNAVAILABLE` prediction has given enough
compatible replies in a row since then (`recovered_of_run`), where an unhealthy
worker keeps the successes it already had: its credit.
-/

namespace ModelServer

open Transition

namespace Health

variable {config : GatewayConfig}

/-- The events that come from probes. -/
def probes (events : List HealthEvent) : List HealthEvent :=
  events.filter (· ≠ .unavailable)

@[simp] theorem probes_append_unavailable (events : List HealthEvent) :
    probes (events ++ [.unavailable]) = probes events := by
  simp [probes]

theorem probes_append {event : HealthEvent} (events : List HealthEvent)
    (h : event ≠ .unavailable) : probes (events ++ [event]) = probes events ++ [event] := by
  simp [probes, h]

/-- The worker has left `STARTING`. -/
def Started (health : Health) : Prop := health.state ≠ .starting

/-- `STARTING` is not entered again. -/
theorem started_of_run {first last : Health} {events : List HealthEvent}
    (hrun : (machine config).Run first events last) (h : Started first) : Started last := by
  refine hrun.preserves h ?_
  intro health event next _ hstarted hstep
  unfold Started at hstarted ⊢
  obtain rfl := Option.some.inj hstep
  cases event with
  | compatible =>
      cases hstate : health.state with
      | unhealthy =>
          simp only [Health.next, hstate]
          split <;> simp
      | _ => simp_all [Health.next]
  | failed =>
      simp only [Health.next]
      split <;> simp_all
  | draining => simp [Health.next]
  | unavailable =>
      simp only [Health.next]
      split <;> simp_all

/-! ## Since the last compatible reply -/

/-- A compatible reply, and after it only failed probes, fewer than the threshold. -/
def RecentlyCompatible (config : GatewayConfig) (events : List HealthEvent) : Prop :=
  ∃ before after, events = before ++ .compatible :: after ∧ (∀ event ∈ after, event = .failed) ∧
    (after.length : ℤ) < max 1 config.healthFailureThreshold

/-- While the worker is healthy, `consecutive_failures` counts the probes since then. -/
def Counts (config : GatewayConfig) (events : List HealthEvent) (health : Health) : Prop :=
  health.state = .healthy → ∃ before after, events = before ++ .compatible :: after ∧
    (∀ event ∈ after, event = .failed) ∧ health.consecutiveFailures = after.length ∧
    (after.length : ℤ) < max 1 config.healthFailureThreshold

theorem counts_of_step {events : List HealthEvent} {health : Health} (event : HealthEvent)
    (h : Counts config events health) :
    Counts config (events ++ [event]) (health.next config event) := by
  intro hhealthy
  cases event with
  | compatible => exact ⟨events, [], rfl, by simp, rfl, by simp⟩
  | draining => simp [Health.next] at hhealthy
  | unavailable =>
      simp only [next] at hhealthy
      split at hhealthy
      · cases hhealthy
      · exact absurd hhealthy ‹_›
  | failed =>
      have hbefore : health.state = .healthy ∧
          ¬ config.healthFailureThreshold ≤ health.consecutiveFailures + 1 := by
        simp only [next] at hhealthy
        split at hhealthy
        · cases hhealthy
        · rename_i hkept
          exact ⟨hhealthy, fun hreached => hkept ⟨hhealthy, hreached⟩⟩
      obtain ⟨before, after, rfl, hfailed, hcount, _⟩ := h hbefore.1
      refine ⟨before, after ++ [.failed], by simp, ?_, ?_, ?_⟩
      · intro event hmem
        rcases List.mem_append.mp hmem with hold | hnew
        · exact hfailed event hold
        · exact List.mem_singleton.mp hnew
      · simp [next, hcount]
      · have := hbefore.2
        simp only [List.length_append, List.length_singleton, Nat.cast_add, Nat.cast_one]
        omega

theorem healthy_of_run {events : List HealthEvent} {health : Health}
    (hrun : (machine config).Run {} events health) (hhealthy : health.state = .healthy) :
    RecentlyCompatible config events := by
  have hcounts : Counts config events health := by
    refine hrun.history (fun h => absurd h nofun) ?_
    intro history health event next h hstep
    obtain rfl := Option.some.inj hstep
    exact counts_of_step event h
  obtain ⟨before, after, hevents, hfailed, _, hfew⟩ := hcounts hhealthy
  exact ⟨before, after, hevents, hfailed, hfew⟩

/-! ## Since an `UNAVAILABLE` prediction -/

/-- Among the probes are enough compatible replies in a row.  A row that begins at once is
given credit. -/
def Recovered (config : GatewayConfig) (credit : ℕ) (probes : List HealthEvent) : Prop :=
  ∃ before row after, probes = before ++ row ++ after ∧ (∀ event ∈ row, event = .compatible) ∧
    config.healthRecoveryThreshold ≤ row.length + (if before = [] then credit else 0 : ℕ)

/-- The successes an unhealthy worker already has when a prediction fails. -/
def credit (health : Health) : ℕ :=
  if health.state = .unhealthy then health.consecutiveSuccesses else 0

/-- The compatible replies at the end of the probes account for the successes. -/
def Streak (credit : ℕ) (probes : List HealthEvent) (successes : ℕ) : Prop :=
  ∃ before row, probes = before ++ row ∧ (∀ event ∈ row, event = .compatible) ∧
    successes ≤ row.length + (if before = [] then credit else 0)

/-- Until enough compatible replies have come, the worker is not healthy. -/
def Quarantined (config : GatewayConfig) (credit : ℕ) (events : List HealthEvent)
    (health : Health) : Prop :=
  Recovered config credit (probes events) ∨
    health.state = .unhealthy ∧ Streak credit (probes events) health.consecutiveSuccesses ∨
    health.state = .draining

theorem Recovered.append {credit : ℕ} {probes : List HealthEvent}
    (h : Recovered config credit probes) (event : HealthEvent) :
    Recovered config credit (probes ++ [event]) := by
  obtain ⟨before, row, after, rfl, hrow, hlength⟩ := h
  exact ⟨before, row, after ++ [event], by simp, hrow, hlength⟩

theorem Streak.compatible {credit successes : ℕ} {probes : List HealthEvent}
    (h : Streak credit probes successes) :
    Streak credit (probes ++ [.compatible]) (successes + 1) := by
  obtain ⟨before, row, rfl, hrow, hlength⟩ := h
  refine ⟨before, row ++ [.compatible], by simp, ?_, ?_⟩
  · intro event hmem
    rcases List.mem_append.mp hmem with hold | hnew
    · exact hrow event hold
    · exact List.mem_singleton.mp hnew
  · simp only [List.length_append, List.length_singleton]
    omega

theorem Streak.recovered {credit successes : ℕ} {probes : List HealthEvent}
    (h : Streak credit probes successes) (hreached : config.healthRecoveryThreshold ≤ successes) :
    Recovered config credit probes := by
  obtain ⟨before, row, rfl, hrow, hlength⟩ := h
  exact ⟨before, row, [], by simp, hrow, by omega⟩

theorem quarantined_of_step {credit : ℕ} {events : List HealthEvent} {health : Health}
    (event : HealthEvent) (h : Quarantined config credit events health) :
    Quarantined config credit (events ++ [event]) (health.next config event) := by
  by_cases hevent : event = .unavailable
  · -- a late failure finds the worker unhealthy or draining, and changes nothing
    subst hevent
    rw [Quarantined, probes_append_unavailable]
    rcases h with hrecovered | ⟨hstate, hstreak⟩ | hstate
    · exact .inl hrecovered
    · have hsame : health.next config .unavailable = health := by simp [next, hstate]
      exact .inr (.inl (hsame.symm ▸ ⟨hstate, hstreak⟩))
    · have hsame : health.next config .unavailable = health := by simp [next, hstate]
      exact .inr (.inr (hsame.symm ▸ hstate))
  rw [Quarantined, probes_append events hevent]
  rcases h with hrecovered | ⟨hstate, hstreak⟩ | hstate
  · exact .inl (hrecovered.append event)
  · cases event with
    | unavailable => exact absurd rfl hevent
    | draining => exact .inr (.inr rfl)
    | failed =>
        have hstays : (health.next config .failed).state = .unhealthy := by simp [next, hstate]
        refine .inr (.inl ⟨hstays, probes events ++ [.failed], [], by simp, by simp, ?_⟩)
        simp [next]
    | compatible =>
        have hlonger := hstreak.compatible
        by_cases hreached : config.healthRecoveryThreshold ≤ health.consecutiveSuccesses + 1
        · exact .inl (hlonger.recovered (by exact_mod_cast hreached))
        · exact .inr (.inl ⟨by simp [next, hstate, hreached], hlonger⟩)
  · cases event with
    | unavailable => exact absurd rfl hevent
    | draining => exact .inr (.inr rfl)
    | failed => exact .inr (.inr (by simp [next, hstate]))
    | compatible => exact .inr (.inr (by simp [next, hstate]))

theorem quarantined_unavailable {health : Health} (hstarted : Started health) :
    Quarantined config health.credit [] (health.next config .unavailable) := by
  cases hstate : health.state with
  | starting => exact absurd hstate hstarted
  | healthy => exact .inr (.inl (by simp [next, hstate, Streak, probes]))
  | unhealthy => exact .inr (.inl (by simp [next, hstate, Streak, probes, credit]))
  | draining => exact .inr (.inr (by simp [next, hstate]))

theorem recovered_of_run {health last : Health} {events : List HealthEvent}
    (hstarted : Started health)
    (hrun : (machine config).Run (health.next config .unavailable) events last)
    (hhealthy : last.state = .healthy) : Recovered config health.credit (probes events) := by
  have hquarantined : Quarantined config health.credit events last := by
    refine hrun.history (quarantined_unavailable hstarted) ?_
    intro history health event next h hstep
    obtain rfl := Option.some.inj hstep
    exact quarantined_of_step event h
  rcases hquarantined with hrecovered | ⟨hstate, _⟩ | hstate
  · exact hrecovered
  · simp [hhealthy] at hstate
  · simp [hhealthy] at hstate

end Health
end ModelServer
