import ModelServer.Gateway.Budget
import ModelServer.Library.Restriction

/-!
# `predict` answers within its timeout

Each RPC is sent with all that is left of the deadline as its timeout, at the reading it
was computed with, so both RPCs of a call have to end at the deadline of the call
(`expiry_of_sent`).  If gRPC keeps to the timeouts, no call is waiting for an RPC once its
deadline is over; and a call has nothing else to wait for.  The steps of the calls
themselves take no time here: it passes only while every call is suspended.
-/

namespace ModelServer

open Asyncio Transition

/-- In `await stub.Predict(..)`. -/
def CallPoint.waiting : CallPoint → Bool
  | .awaitRpc .. => true
  | _ => false

namespace Gateway

variable {config : GatewayConfig}

/-- Time passes only while every call is suspended, and gRPC ends an RPC within its timeout. -/
def Punctual (g : Gateway) : Event → Prop
  | .tick elapsed => g.running = none ∧
      ∀ call ∈ g.calls, call.point.waiting = true →
        ∀ rpc ∈ call.sent.getLast?, g.now + elapsed ≤ rpc.sentAt + rpc.timeout
  | _ => True

instance (g : Gateway) (event : Event) : Decidable (Punctual g event) := by
  cases event <;> unfold Punctual <;> infer_instance

theorem Punctual.quiet {g : Gateway} {event : Event} (h : Punctual g event) : Quiet g event := by
  cases event with
  | tick _ => exact h.1
  | _ => trivial

/-- Every RPC of a call has to end at the deadline of the call. -/
theorem expiry_of_sent {g : Gateway} (hreach : (machine config).ReachableBy Quiet g) {call : Call}
    (hcall : call ∈ g.calls) {rpc : SentRpc} (hrpc : rpc ∈ call.sent) :
    rpc.sentAt + rpc.timeout = call.gatewayDeadline := by
  have hprompt : rpc.budgetAt = rpc.sentAt := (prompt_of_reachable hreach).sent call hcall rpc hrpc
  have htimeout : rpc.timeout = call.gatewayDeadline - rpc.budgetAt :=
    ((protocol_of_reachable hreach.reachable call hcall).sent.sound rpc hrpc).timeout
  rw [htimeout, hprompt]
  exact add_sub_cancel _ _

/-- No call waits for an RPC after its deadline. -/
def InTime (g : Gateway) : Prop :=
  ∀ call ∈ g.calls, ∀ attempt worker, call.point = .awaitRpc attempt worker →
    g.now ≤ call.gatewayDeadline

/-- Only the sending of an RPC makes a call wait for one. -/
theorem inTime_of_callStep {s next : Shared} {id : ℕ} {call moved : Call} {event : Event}
    (hmove : CallStep config s id call event next moved) (hshape : Shape config call call.point)
    (hbudget : s.running = some id → call.point.budgeted → call.budgetAt = s.now)
    {attempt : Attempt} {worker : String} (hpoint : moved.point = .awaitRpc attempt worker) :
    next.now ≤ moved.gatewayDeadline := by
  cases hmove
  case sends remaining hrunning hdispatch =>
    have hnow : call.budgetAt = s.now := hbudget hrunning (by rw [hdispatch]; trivial)
    rw [hdispatch] at hshape
    obtain ⟨_, hremaining, hpositive, _⟩ := hshape
    rw [hremaining, hnow] at hpositive
    exact (sub_pos.mp hpositive).le
  all_goals cases hpoint

theorem inTime_of_step {g next : Gateway} {event : Event} (hstep : Step config g event next)
    (hreach : (machine config).ReachableBy Quiet g) (hpunctual : Punctual g event)
    (h : InTime g) : InTime next := by
  cases hstep with
  | tick _ =>
      intro call hmem attempt worker hpoint
      have hshape := (protocol_of_reachable hreach.reachable call hmem).shape
      rw [hpoint] at hshape
      obtain ⟨before, rpc, hsent, _⟩ := hshape
      have hlast : rpc ∈ call.sent.getLast? := by simp [hsent]
      rw [← expiry_of_sent hreach hmem (List.mem_of_getLast? hlast)]
      exact hpunctual.2 call hmem (by rw [hpoint]; rfl) rpc hlast
  | call _ =>
      intro call hmem attempt worker hpoint
      rcases List.mem_append.mp hmem with hold | hnew
      · exact h call hold attempt worker hpoint
      · rw [List.mem_singleton.mp hnew] at hpoint
        cases hpoint
  | probe _ _ => exact h
  | @move event id call moved s hcall hmove =>
      intro other hmem attempt worker hpoint
      rcases List.mem_or_eq_of_mem_set hmem with hold | rfl
      · have hnow : s.now = g.now := now_of_callStep hmove
        rw [show (g.store id (s, moved)).now = g.now from hnow]
        exact h other hold attempt worker hpoint
      · have hcall' := List.mem_of_getElem? hcall
        exact inTime_of_callStep hmove (protocol_of_reachable hreach.reachable call hcall').shape
          (fun hrunning => (prompt_of_reachable hreach).budget id call hrunning hcall) hpoint

theorem quiet_of_punctual {g : Gateway} (hreach : (machine config).ReachableBy Punctual g) :
    (machine config).ReachableBy Quiet g :=
  hreach.mono fun _ _ h => h.quiet

theorem inTime_of_reachable {g : Gateway} (hreach : (machine config).ReachableBy Punctual g) :
    InTime g := by
  apply hreach.invariant
  · rintro g ⟨now, rfl⟩ call hmem
    exact absurd hmem List.not_mem_nil
  · intro g event next hbefore h hpunctual hevent
    exact inTime_of_step (step_of_reachable hbefore.reachable hevent) (quiet_of_punctual hbefore)
      hpunctual h

/-- A call that has started and is not running has ended or waits for an RPC. -/
theorem finished_of_late {g : Gateway} (hreach : (machine config).ReachableBy Punctual g) {id : ℕ}
    {call : Call} (hcall : g.calls[id]? = some call) (hstarted : call.point ≠ .start)
    (hrest : g.running ≠ some id) (hlate : call.gatewayDeadline < g.now) :
    ∃ outcome, call.point = .finished outcome := by
  have horderly := orderly_of_reachable hreach.reachable
  have hsuspended := horderly.rests id call hcall hrest
  cases hpoint : call.point with
  | start => exact absurd hpoint hstarted
  | awaitRpc attempt worker =>
      have hintime := inTime_of_reachable hreach call (List.mem_of_getElem? hcall) _ _ hpoint
      exact absurd hlate (not_lt.mpr hintime)
  | lockWait part => exact absurd hpoint (horderly.noWait id call part hcall)
  | finished outcome => exact ⟨outcome, rfl⟩
  | _ => simp [hpoint, CallPoint.suspended] at hsuspended

/-- The call has taken its first step and has this deadline. -/
def Begun (id : ℕ) (deadline : Time) (g : Gateway) : Prop :=
  ∃ call, g.calls[id]? = some call ∧ call.point ≠ .start ∧ call.gatewayDeadline = deadline

theorem begun_of_start {g begun : Gateway} {id : ℕ} {call : Call}
    (hreach : (machine config).Reachable g) (hcall : g.calls[id]? = some call)
    (hstart : g.step config (.start id) = some begun) :
    Begun id (g.now + (call.timeoutMs : ℚ) / 1000) begun := by
  cases step_of_reachable hreach hstart with
  | move hfound hmove =>
      cases hmove with
      | start _ _ =>
          obtain rfl := Option.some.inj (hcall.symm.trans hfound)
          exact ⟨_, getElem?_store_self hcall, by simp, rfl⟩

theorem begun_of_step {g next : Gateway} {event : Event} (hstep : Step config g event next)
    {id : ℕ} {deadline : Time} (h : Begun id deadline g) : Begun id deadline next := by
  obtain ⟨call, hcall, hstarted, hdeadline⟩ := h
  obtain ⟨moved, hmoved, hkept⟩ := kept_of_step hstep hcall
  exact ⟨moved, hmoved, hkept.started hstarted, (hkept.deadline hstarted).trans hdeadline⟩

/-- **`predict` answers in time.**  Let a call take its first step in the state `before`.  If
time passes only while every call is suspended, and gRPC ends every RPC within its timeout,
then in every later state in which the call is not running and more than `timeout_ms` have
passed, it has ended, whatever happened in between. -/
theorem answers_in_time {before begun g : Gateway} {id : ℕ} {call : Call}
    (hreach : (machine config).ReachableBy Punctual before) (hcall : before.calls[id]? = some call)
    (hstart : before.step config (.start id) = some begun)
    (hrun : ((machine config).startingAt begun).ReachableBy Punctual g)
    (hrest : g.running ≠ some id) (hlate : before.now + (call.timeoutMs : ℚ) / 1000 < g.now) :
    ∃ ended outcome, g.calls[id]? = some ended ∧ ended.point = .finished outcome := by
  have hbegun := begun_of_start hreach.reachable hcall hstart
  have hallowed : Punctual before (.start id) := trivial
  have hlater : (machine config).ReachableBy Punctual g ∧
      Begun id (before.now + (call.timeoutMs : ℚ) / 1000) g := by
    apply hrun.invariant
    · rintro _ rfl
      exact ⟨hreach.step hallowed hstart, hbegun⟩
    · intro s event next _ h hpunctual hevent
      exact ⟨h.1.step hpunctual hevent,
        begun_of_step (step_of_reachable h.1.reachable hevent) h.2⟩
  obtain ⟨hreachable, ended, hended, hstarted, hdeadline⟩ := hlater
  obtain ⟨outcome, hpoint⟩ := finished_of_late hreachable hended hstarted hrest (hdeadline ▸ hlate)
  exact ⟨ended, outcome, hended, hpoint⟩

/-- The state a list of punctual events leads to from time 0. -/
def punctualSample (events : List Event) : Gateway :=
  ((machine {}).restrict Punctual).after (initial {} 0) events

/-- A call is about to start. -/
def untilStart : List Event :=
  [.probe "worker-1" (.reply (sampleReply .ready)), .call "r0" ["a"] "tinybert-sst2-v1" 1000]

/-- Its RPC takes all the time it has, and one more second passes. -/
def untilLate : List Event :=
  List.replicate 4 .run ++
    [.tick 1, .rpcResult 0 (.status .deadlineExceeded none), .run, .run, .tick 1]

theorem answers_in_time_late :
    ∃ ended outcome, (punctualSample (untilStart ++ [.start 0] ++ untilLate)).calls[0]? =
      some ended ∧ ended.point = .finished outcome := by
  have hreach : (machine {}).ReachableBy Punctual (punctualSample untilStart) := by
    have hinitial : (machine {}).ReachableBy Punctual (initial {} 0) := .initial ⟨0, rfl⟩
    exact hinitial.run_restrict (Machine.run_after (by decide +kernel))
  have hfirst : ((machine {}).restrict Punctual).Run (punctualSample untilStart) [.start 0]
      (punctualSample (untilStart ++ [.start 0])) :=
    Machine.run_after_append (by decide +kernel)
  have hstart : (punctualSample untilStart).step {} (.start 0) =
      some (punctualSample (untilStart ++ [.start 0])) :=
    (Machine.restrict_step_iff.mp (Machine.run_singleton_iff.mp hfirst)).2
  have hrun : ((machine {}).startingAt (punctualSample (untilStart ++ [.start 0]))).ReachableBy
      Punctual (punctualSample (untilStart ++ [.start 0] ++ untilLate)) :=
    Machine.reachableBy_of_restrict (Machine.run_after_append (by decide +kernel))
  obtain ⟨call, hcall, htimeout⟩ : ∃ call, (punctualSample untilStart).calls[0]? = some call ∧
      call.timeoutMs = 1000 :=
    Option.map_eq_some_iff.mp (by decide +kernel)
  refine answers_in_time hreach hcall hstart hrun (by decide +kernel) ?_
  rw [htimeout]
  decide +kernel

end Gateway
end ModelServer
