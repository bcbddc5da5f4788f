import ModelServer.Library.Machine
import ModelServer.Gateway.Registry

/-!
# The health state machine of a worker

What a probe or a failed prediction does to the health of a worker depends only
on a verdict: the reply was compatible, the probe failed or its reply was
incompatible, the worker is draining, or a prediction ended with `UNAVAILABLE`.
`Health.next` is the transition function of this abstract machine, and
`WorkerNode.simulation` says that the code's nodes do nothing else.

Every state but `DRAINING` is left again by compatible replies:
`healthy_after_replies_iff`.
-/

namespace ModelServer

open Transition

/-! ## The abstract machine -/

inductive HealthEvent
  | compatible
  /-- The probe failed, or its reply was incompatible. -/
  | failed
  | draining
  /-- A prediction ended with `UNAVAILABLE`. -/
  | unavailable
  deriving DecidableEq, Repr

namespace Health

def next (config : GatewayConfig) (health : Health) : HealthEvent → Health
  | .compatible =>
      { state :=
          match health.state with
          | .starting => .healthy
          | .unhealthy =>
              if config.healthRecoveryThreshold ≤ health.consecutiveSuccesses + 1 then .healthy
              else .unhealthy
          | state => state
        consecutiveFailures := 0
        consecutiveSuccesses := health.consecutiveSuccesses + 1 }
  | .failed =>
      { state :=
          if health.state = .healthy ∧
              config.healthFailureThreshold ≤ health.consecutiveFailures + 1 then .unhealthy
          else health.state
        consecutiveFailures := health.consecutiveFailures + 1
        consecutiveSuccesses := 0 }
  | .draining => { state := .draining, consecutiveFailures := 0, consecutiveSuccesses := 0 }
  | .unavailable =>
      if health.state = .healthy then
        { state := .unhealthy
          consecutiveFailures := config.healthFailureThreshold
          consecutiveSuccesses := 0 }
      else health

def machine (config : GatewayConfig) : Machine Health HealthEvent where
  Initial health := health = {}
  step health event := some (health.next config event)

end Health

/-- What the outcome of a probe means for the health of the worker. -/
def ProbeOutcome.verdict (config : GatewayConfig) : ProbeOutcome → HealthEvent
  | .reply resp =>
      if resp.state = .draining then .draining
      else if WorkerNode.compatible config resp then .compatible
      else .failed
  | .rpcFailed => .failed

theorem ProbeOutcome.verdict_ne_unavailable (config : GatewayConfig) (outcome : ProbeOutcome) :
    outcome.verdict config ≠ .unavailable := by
  cases outcome with
  | rpcFailed => exact nofun
  | reply resp =>
      simp only [verdict]
      split_ifs <;> exact nofun

/-! ## The nodes of the registry refine it -/

namespace WorkerNode

variable {config : GatewayConfig}

/-- What can happen to the health of a node. -/
inductive Event
  | probe (now : Time) (outcome : ProbeOutcome)
  | unavailable

def step (config : GatewayConfig) (worker : WorkerNode) : Event → WorkerNode
  | .probe now outcome => worker.pollHealth config now outcome
  | .unavailable => worker.markUnhealthy config

def machine (config : GatewayConfig) : Machine WorkerNode Event where
  Initial worker := ∃ address, worker = { address }
  step worker event := some (worker.step config event)

def Event.verdict (config : GatewayConfig) : Event → HealthEvent
  | .probe _ outcome => outcome.verdict config
  | .unavailable => .unavailable

theorem toHealth_recordProbeFailure (worker : WorkerNode) :
    (worker.recordProbeFailure config).toHealth = worker.toHealth.next config .failed := by
  by_cases hejected : worker.state = .healthy ∧
      config.healthFailureThreshold ≤ worker.consecutiveFailures + 1
  · simp [recordProbeFailure, Health.next, hejected]
  · simp [recordProbeFailure, Health.next, hejected]

theorem toHealth_pollHealth (worker : WorkerNode) (now : Time) (outcome : ProbeOutcome) :
    (worker.pollHealth config now outcome).toHealth =
      worker.toHealth.next config (outcome.verdict config) := by
  cases outcome with
  | rpcFailed => exact toHealth_recordProbeFailure worker
  | reply resp =>
      by_cases hdraining : resp.state = .draining
      · simp [pollHealth, ProbeOutcome.verdict, hdraining, Health.next]
      · by_cases hcompatible : compatible config resp = true
        · simp only [pollHealth, ProbeOutcome.verdict, hdraining, hcompatible, if_true, if_false,
            Health.next]
          cases hstate : worker.state <;> simp
          split <;> simp_all
        · simp only [pollHealth, ProbeOutcome.verdict, hdraining, hcompatible, if_false]
          exact toHealth_recordProbeFailure worker

theorem toHealth_markUnhealthy (worker : WorkerNode) :
    (worker.markUnhealthy config).toHealth = worker.toHealth.next config .unavailable := by
  unfold markUnhealthy Health.next
  split <;> rfl

/-- **A node does what the abstract machine does.** -/
theorem toHealth_step (worker : WorkerNode) (event : Event) :
    (worker.step config event).toHealth = worker.toHealth.next config (event.verdict config) := by
  cases event with
  | probe now outcome => exact toHealth_pollHealth worker now outcome
  | unavailable => exact toHealth_markUnhealthy worker

def simulation (config : GatewayConfig) :
    Machine.Simulation (machine config) (Health.machine config) where
  abs := toHealth
  emit _ event := [event.verdict config]
  initial := by
    rintro worker ⟨address, rfl⟩
    rfl
  step := by
    intro worker event next _ hstep
    obtain rfl := Option.some.inj hstep
    rw [Machine.run_singleton_iff, toHealth_step]
    rfl

end WorkerNode

/-! ## Coming back -/

namespace Health

variable {config : GatewayConfig}

/-- The health after `count` compatible replies in a row. -/
def afterCompatible (config : GatewayConfig) (health : Health) (count : ℕ) : Health :=
  (fun health => next config health .compatible)^[count] health

theorem healthy_afterCompatible {health : Health} (h : health.state = .healthy) (count : ℕ) :
    (health.afterCompatible config count).state = .healthy := by
  induction count generalizing health with
  | zero => exact h
  | succ count ih => exact ih (by simp [next, h])

theorem draining_afterCompatible {health : Health} (h : health.state = .draining) (count : ℕ) :
    (health.afterCompatible config count).state = .draining := by
  induction count generalizing health with
  | zero => exact h
  | succ count ih => exact ih (by simp [next, h])

/-- Enough compatible replies lead from every other state back to `HEALTHY`. -/
theorem recovered_afterCompatible {health : Health} {count : ℕ} (hcount : 0 < count)
    (hthreshold : config.healthRecoveryThreshold ≤ health.consecutiveSuccesses + count)
    (h : health.state ≠ .draining) : (health.afterCompatible config count).state = .healthy := by
  induction count generalizing health with
  | zero => omega
  | succ count ih =>
      have hnext : health.afterCompatible config (count + 1) =
          (health.next config .compatible).afterCompatible config count := rfl
      rw [hnext]
      cases hstate : health.state with
      | draining => exact absurd hstate h
      | healthy => exact healthy_afterCompatible (by simp [next, hstate]) count
      | starting => exact healthy_afterCompatible (by simp [next, hstate]) count
      | unhealthy =>
          by_cases hreached : config.healthRecoveryThreshold ≤ health.consecutiveSuccesses + 1
          · exact healthy_afterCompatible (by simp [next, hstate, hreached]) count
          · -- one more success, and still unhealthy
            apply ih
            · push_cast at hthreshold
              omega
            · simp only [next]
              push_cast at hthreshold ⊢
              omega
            · simp [next, hstate, hreached]

end Health

namespace WorkerNode

variable {config : GatewayConfig}

/-- The poller gets these replies, one after another. -/
def pollReplies (config : GatewayConfig) (worker : WorkerNode)
    (replies : List (Time × StatusResponse)) : WorkerNode :=
  replies.foldl (fun worker reply => worker.pollHealth config reply.1 (.reply reply.2)) worker

theorem toHealth_pollReplies {worker : WorkerNode} {replies : List (Time × StatusResponse)}
    (hready : ∀ reply ∈ replies, compatible config reply.2 = true ∧ reply.2.state = .ready) :
    (worker.pollReplies config replies).toHealth =
      worker.toHealth.afterCompatible config replies.length := by
  induction replies generalizing worker with
  | nil => rfl
  | cons reply replies ih =>
      obtain ⟨hcompatible, hstate⟩ := hready reply List.mem_cons_self
      have hverdict : (ProbeOutcome.reply reply.2).verdict config = .compatible := by
        simp [ProbeOutcome.verdict, hstate, hcompatible]
      calc (worker.pollReplies config (reply :: replies)).toHealth
        _ = ((worker.pollHealth config reply.1 (.reply reply.2)).pollReplies config
            replies).toHealth := rfl
        _ = (worker.toHealth.next config .compatible).afterCompatible config replies.length := by
            rw [ih fun other hmem => hready other (List.mem_cons_of_mem _ hmem),
              toHealth_pollHealth, hverdict]

/-- **Which workers come back.**  After as many compatible replies in a row as the
recovery threshold asks for, a worker is healthy unless it had been seen draining. -/
theorem healthy_after_replies_iff {worker : WorkerNode} {replies : List (Time × StatusResponse)}
    (hthreshold : 1 ≤ config.healthRecoveryThreshold)
    (hlength : (replies.length : ℤ) = config.healthRecoveryThreshold)
    (hready : ∀ reply ∈ replies, compatible config reply.2 = true ∧ reply.2.state = .ready) :
    (worker.pollReplies config replies).state = .healthy ↔ worker.state ≠ .draining := by
  rw [toHealth_pollReplies hready]
  constructor
  · intro hhealthy hdraining
    rw [Health.draining_afterCompatible hdraining] at hhealthy
    exact HealthState.noConfusion hhealthy
  · exact Health.recovered_afterCompatible (by omega) (by omega)

/-- Two replies one second apart. -/
def twoReplies : List (Time × StatusResponse) := [(1, sampleReply .ready), (2, sampleReply .ready)]

theorem healthy_after_two_replies :
    let worker := WorkerNode.markUnhealthy {} { address := "worker-1:50051", state := .healthy }
    worker.state = .unhealthy ∧
      ((worker.pollReplies {} twoReplies).state = .healthy ↔ worker.state ≠ .draining) :=
  ⟨by decide, healthy_after_replies_iff (by decide) (by decide) (by decide)⟩

/-- A worker that has been seen draining and is then restarted. -/
def restartedWorker : WorkerNode :=
  WorkerNode.pollHealth {} 0 { address := "worker-1:50051" } (.reply (sampleReply .draining))

/-- It can answer as often as the recovery threshold asks for, and stays out. -/
theorem restarted_worker_stays_out :
    ¬ ∀ worker, (machine {}).Reachable worker → ∀ replies : List (Time × StatusResponse),
      (replies.length : ℤ) = GatewayConfig.healthRecoveryThreshold {} →
      (∀ reply ∈ replies, compatible {} reply.2 = true ∧ reply.2.state = .ready) →
      (worker.pollReplies {} replies).state = .healthy := by
  intro hrecovers
  have hfresh : (machine {}).Reachable { address := "worker-1:50051" } := .initial ⟨_, rfl⟩
  have hdraining : (machine {}).step { address := "worker-1:50051" }
      (.probe 0 (.reply (sampleReply .draining))) = some restartedWorker := rfl
  have hhealthy := hrecovers restartedWorker (hfresh.next hdraining) twoReplies (by decide)
    (by decide)
  have hstuck : (restartedWorker.pollReplies {} twoReplies).state = .draining := by decide
  rw [hstuck] at hhealthy
  exact HealthState.noConfusion hhealthy

end WorkerNode
end ModelServer
