import ModelServer.Gateway.Stopping

/-!
# The channels of the workers

`get_stub` opens the channel of a worker for its poller or for a call, and `stop` closes
the channels of all workers once its pollers have ended.  A call that dispatches after
that opens one again; without calls none is left (`channels_closed`).
-/

namespace ModelServer

open Transition

namespace Pollers

variable {ids : List String} {p : Pollers}

/-- The channels that `stop` still has to close are all that are open. -/
def Tidy (p : Pollers) : Prop :=
  match p.lifespan with
  | .up | .joining .. => True
  | .closing worker rest => ∀ other, p.channel other = true → other ∈ worker :: rest
  | .down => ∀ other, p.channel other = false

theorem tidy_closeWorkers {names : List String}
    (h : ∀ worker, p.channel worker = true → worker ∈ names) : (p.closeWorkers names).Tidy := by
  rcases p.closeWorkers_cases names with
    ⟨passed, worker, later, rfl, hpassed, hclose⟩ | ⟨hall, hclose⟩
  · rw [hclose]
    intro other hopen
    rcases List.mem_append.mp (h other hopen) with hmem | hmem
    · exact absurd (hopen.symm.trans (hpassed other hmem)) (by decide)
    · exact hmem
  · rw [hclose]
    intro other
    by_contra hopen
    have hopen' := Bool.of_not_eq_false hopen
    exact hopen (hall other (h other hopen'))

theorem tidy_joinTasks (h : ∀ worker, p.channel worker = true → worker ∈ ids) (tasks : List ℕ) :
    (p.joinTasks ids tasks).Tidy := by
  rcases joinTasks_cases ids p tasks with ⟨_, _, _, _, _, _, _, _, hjoin⟩ | ⟨_, hjoin⟩ <;>
    rw [hjoin]
  · trivial
  · exact @tidy_closeWorkers { p with tasks := [] } ids h

theorem channel_closeWorkers (p : Pollers) (names : List String) :
    (p.closeWorkers names).channel = p.channel := by
  rcases p.closeWorkers_cases names with ⟨_, _, _, _, _, hclose⟩ | ⟨_, hclose⟩ <;> rw [hclose]

theorem channel_joinTasks (ids : List String) (p : Pollers) (tasks : List ℕ) :
    (p.joinTasks ids tasks).channel = p.channel := by
  rcases joinTasks_cases ids p tasks with ⟨_, _, _, _, _, _, _, _, hjoin⟩ | ⟨_, hjoin⟩ <;>
    rw [hjoin]
  · rfl
  · exact channel_closeWorkers _ ids

end Pollers

namespace Polled

variable {config : PollConfig}

/-- Only workers of the registry have channels. -/
def Known (s : Polled) : Prop := ∀ worker, s.pollers.channel worker = true → worker ∈ s.ids

/-- A call dispatches to a registered worker. -/
theorem mem_ids_of_dispatched {s : Polled} (hreach : (machine config).Reachable s)
    {event : Gateway.Event} {worker : String} (h : s.gateway.dispatched event = some worker) :
    worker ∈ s.ids := by
  have hdispatching : s.gateway.dispatching = some worker := by
    cases event <;> simp_all [Gateway.dispatched]
  simp only [Gateway.dispatching, Option.bind_eq_bind, Option.bind_eq_some_iff] at hdispatching
  obtain ⟨id, _, call, hcall, hpoint⟩ := hdispatching
  have hholding := (Gateway.reservations_of_reachable (gateway_of_reachable hreach)).holding call
    (List.mem_of_getElem? hcall)
  refine hholding.registered worker ?_
  rw [hholding.reserved]
  split at hpoint
  · rename_i hdispatch
    obtain rfl := Option.some.inj hpoint
    simp [hdispatch, CallPoint.holding]
  · cases hpoint

theorem known_of_reachable {s : Polled} (hreach : (machine config).Reachable s) : s.Known := by
  apply hreach.invariant
  · rintro s ⟨now, rfl⟩ worker hopen
    cases hopen
  · intro s event next hbefore h hevent
    have hstep := step_cases hevent
    have hstaffed := staffed_of_reachable hbefore
    have hids := ids_of_step hbefore hstep
    have hget : ∀ worker ∈ s.ids, ∀ other,
        (s.pollers.getStub worker).channel other = true → other ∈ s.ids := by
      intro worker hmem other hopen
      rw [Pollers.getStub_channel, Function.update_apply] at hopen
      split at hopen
      · rename_i heq
        exact heq ▸ hmem
      · exact h other hopen
    unfold Known
    rw [hids]
    cases hstep with
    | @gateway event _ _ _ =>
        cases hworker : s.gateway.dispatched event with
        | none => exact h
        | some worker => exact hget worker (mem_ids_of_dispatched hbefore hworker)
    | stubFails _ => exact h
    | pollers hpollers =>
        cases hpollers with
        | asks _ hpoller hhead _ _ =>
            exact hget _ (hstaffed.worker_mem hpoller (Pollers.live_of_atHead hhead))
        | start _ _ | ends _ _ _ _ _ | probe _ _ _ _ | cancelled _ _ _ _ => exact h
        | stop _ _ | joined _ _ _ _ =>
            intro other hopen
            rw [Pollers.channel_joinTasks] at hopen
            exact h other hopen
        | @closed worker _ _ _ =>
            intro other hopen
            rw [Pollers.channel_closeWorkers, Pollers.closed_channel,
              Function.update_apply] at hopen
            split at hopen
            · cases hopen
            · exact h other hopen

/-- Every call has ended. -/
def Idle (s : Polled) : Prop := ∀ call ∈ s.gateway.calls, ∃ outcome, call.point = .finished outcome

theorem Idle.running {s : Polled} (h : s.Idle) (hreach : (machine config).Reachable s) :
    s.gateway.running = none := by
  have horderly := Gateway.orderly_of_reachable (gateway_of_reachable hreach)
  by_contra hrunning
  obtain ⟨id, hsome⟩ := Option.ne_none_iff_exists'.mp hrunning
  obtain ⟨call, hcall, hsuspended⟩ := horderly.runs id hsome
  obtain ⟨outcome, hpoint⟩ := h call (List.mem_of_getElem? hcall)
  simp [hpoint, CallPoint.suspended] at hsuspended

/-- A call that has ended takes no step. -/
theorem idle_of_gatewayStep {s : Polled} (h : s.Idle) {event : Gateway.Event} {gateway : Gateway}
    (hstep : Gateway.Step config.toGatewayConfig s.gateway event gateway)
    (hcall : event.isCall = false) : gateway.calls = s.gateway.calls := by
  cases hstep with
  | tick _ | probe _ _ => rfl
  | call _ => cases hcall
  | move hfound hmove =>
      obtain ⟨outcome, hpoint⟩ := h _ (List.mem_of_getElem? hfound)
      obtain ⟨_, hless⟩ := Gateway.rank_of_callStep hmove (by simp [hpoint]) (by simp [hpoint])
      simp [hpoint, CallPoint.rank] at hless

def Event.isCall : Event → Bool
  | .gateway event => event.isCall
  | _ => false

theorem idle_of_step {s next : Polled} {event : Event} (hreach : (machine config).Reachable s)
    (hstep : Step config s event next) (hcall : event.isCall = false) (h : s.Idle) : next.Idle := by
  have hmoved : ∀ inner, inner.isCall = false →
      s.gateway.step config.toGatewayConfig inner = some next.gateway → next.Idle := by
    intro inner hinner hgateway
    have hsame := idle_of_gatewayStep h
      (Gateway.step_of_reachable (gateway_of_reachable hreach) hgateway) hinner
    unfold Idle
    rw [hsame]
    exact h
  cases hstep with
  | gateway _ hgateway => exact hmoved _ hcall hgateway
  | stubFails hgateway => exact hmoved _ rfl hgateway
  | pollers hpollers =>
      rcases Pollers.probed_of_step hpollers with ⟨_, rfl⟩ | ⟨_, _, _, hgateway⟩
      · exact h
      · exact hmoved _ rfl hgateway

theorem tidy_of_step {s next : Polled} {event : Event} (hreach : (machine config).Reachable s)
    (hstep : Step config s event next) (hidle : s.Idle) (h : s.pollers.Tidy) :
    next.pollers.Tidy := by
  cases hstep with
  | @gateway event _ _ _ =>
      have hturn := hidle.running hreach
      have hnone : s.gateway.dispatched event = none := by
        cases event <;> simp [Gateway.dispatched, Gateway.dispatching, hturn]
      rw [hnone]
      exact h
  | stubFails _ => exact h
  | pollers hpollers =>
      cases hpollers with
      | start _ _ => trivial
      | asks _ hpoller hhead _ hopen =>
          -- a poller asks only while the application is up
          cases staffed_of_reachable hreach with
          | up hstate _ _ _ _ => simp [Pollers.Tidy, hstate]
          | joining _ _ hstopping _ => simp [hopen] at hstopping
          | idle _ _ hdone =>
              have hlive := Pollers.live_of_atHead hhead
              have hnone := hdone _ (List.mem_of_getElem? hpoller)
              exact absurd (hlive.symm.trans hnone) (by decide)
      | ends _ _ _ _ _ | probe _ _ _ _ | cancelled _ _ _ _ => exact h
      | stop _ _ =>
          have hknown : ∀ worker, ({ s.pollers with stopping := true } : Pollers).channel worker =
              true → worker ∈ s.ids := known_of_reachable hreach
          exact Pollers.tidy_joinTasks hknown _
      | joined _ _ _ _ => exact Pollers.tidy_joinTasks (known_of_reachable hreach) _
      | @closed worker rest _ hclosing =>
          simp only [Pollers.Tidy, hclosing] at h
          refine Pollers.tidy_closeWorkers fun other hopen => ?_
          rw [Pollers.closed_channel, Function.update_apply] at hopen
          split at hopen
          · cases hopen
          · rename_i hother
            exact (List.mem_cons.mp (h other hopen)).resolve_left hother

/-- **`stop` leaves no channel open.**  If every call has ended while the application is up and
none comes after that, then no worker has a channel when `stop` has returned. -/
theorem channels_closed {first last : Polled} {events : List Event}
    (hreach : (machine config).Reachable first) (hup : first.pollers.lifespan = .up)
    (hidle : first.Idle) (hrun : (machine config).Run first events last)
    (hcalls : ∀ event ∈ events, event.isCall = false) (hdown : last.pollers.lifespan = .down)
    (worker : String) : last.pollers.channel worker = false := by
  have hkept : ∀ (s : Polled) (event : Event) (next : Polled), event ∈ events →
      (machine config).Reachable s ∧ s.Idle ∧ s.pollers.Tidy →
      (machine config).step s event = some next →
      (machine config).Reachable next ∧ next.Idle ∧ next.pollers.Tidy := by
    intro s event next hmem ⟨hbefore, hidle, htidy⟩ hevent
    have hstep := step_cases hevent
    exact ⟨hbefore.next hevent, idle_of_step hbefore hstep (hcalls event hmem) hidle,
      tidy_of_step hbefore hstep hidle htidy⟩
  obtain ⟨_, _, htidy⟩ := hrun.preserves ⟨hreach, hidle, by simp [Pollers.Tidy, hup]⟩ hkept
  simp only [Pollers.Tidy, hdown] at htidy
  exact htidy worker

/-- `stop`, from its call to its return. -/
def wholeStop : List Event :=
  [.pollers .stop, .pollers (.cancelled 0), .pollers .joined, .pollers (.cancelled 1),
    .pollers .joined, .pollers (.cancelled 2), .pollers .joined, .pollers (.cancelled 3),
    .pollers .joined, .pollers .closed, .pollers .closed]

theorem channels_closed_sleeping :
    (sample untilSleeping).pollers.channel "worker-2" = true ∧
      (sample (untilSleeping ++ wholeStop)).pollers.channel "worker-2" = false := by
  refine ⟨by decide +kernel, ?_⟩
  have hidle : (sample untilSleeping).Idle := by
    have hnone : (sample untilSleeping).gateway.calls.isEmpty = true := by decide +kernel
    intro call hmem
    rw [List.isEmpty_iff.mp hnone] at hmem
    exact absurd hmem List.not_mem_nil
  have hrun : (machine {}).Run (sample untilSleeping) wholeStop
      (sample (untilSleeping ++ wholeStop)) := Machine.run_after_append (by decide +kernel)
  exact channels_closed (reachable_sample untilSleeping) (by decide +kernel) hidle hrun (by decide)
    (by decide +kernel) "worker-2"

end Polled
end ModelServer
