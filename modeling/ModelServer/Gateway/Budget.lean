import ModelServer.Gateway.Retry

/-!
# The budget of an RPC is that of the moment it is sent

Between computing `remaining` and sending the RPC with it as its timeout `predict`
awaits `select_worker`.  The lock is free then, so this `await` does not suspend, and
if time passes only between the steps of the calls, the clock still shows the same
reading when the RPC is sent.
-/

namespace ModelServer

open Asyncio Transition

/-- Between the computation of `remaining` and the RPC. -/
def CallPoint.budgeted : CallPoint → Prop
  | .acquire (.select ..) | .critical (.select ..) | .dispatch .. => True
  | _ => False

namespace Gateway

variable {config : GatewayConfig}

/-- Time passes only while every call is suspended. -/
def Quiet (g : Gateway) : Event → Prop
  | .tick _ => g.running = none
  | _ => True

theorem now_of_callStep {s next : Shared} {id : ℕ} {call moved : Call} {event : Event}
    (hmove : CallStep config s id call event next moved) : next.now = s.now := by
  cases hmove <;> rfl

theorem now_of_step {g next : Gateway} {event : Event} (hstep : Step config g event next)
    (hevent : ∀ elapsed, event ≠ .tick elapsed) : next.now = g.now := by
  cases hstep with
  | tick _ => exact absurd rfl (hevent _)
  | call _ | probe _ _ => rfl
  | move _ hmove => exact now_of_callStep hmove

/-- The budget of a running call has been computed just now, and each RPC was sent at the
reading its budget was computed with. -/
structure Prompt (g : Gateway) : Prop where
  budget : ∀ id call, g.running = some id → g.calls[id]? = some call → call.point.budgeted →
    call.budgetAt = g.now
  sent : ∀ call ∈ g.calls, ∀ rpc ∈ call.sent, rpc.budgetAt = rpc.sentAt

theorem budget_of_callStep {s next : Shared} {id : ℕ} {call moved : Call} {event : Event}
    (hmove : CallStep config s id call event next moved)
    (hwait : ∀ part, call.point ≠ .lockWait part)
    (h : s.running = some id → call.point.budgeted → call.budgetAt = s.now)
    (hbudgeted : moved.point.budgeted) : moved.budgetAt = next.now := by
  cases hmove
  case budget => rfl
  case acquired part _ hrunning hpoint _ =>
    cases part with
    | select _ _ => exact h hrunning (by rw [hpoint]; trivial)
    | release _ _ => exact hbudgeted.elim
  case selects hrunning hpoint _ => exact h hrunning (by rw [hpoint]; trivial)
  case granted hpoint _ => exact absurd hpoint (hwait _)
  all_goals exact hbudgeted.elim

theorem sent_of_callStep {s next : Shared} {id : ℕ} {call moved : Call} {event : Event}
    (hmove : CallStep config s id call event next moved)
    (h : s.running = some id → call.point.budgeted → call.budgetAt = s.now)
    (hsent : ∀ rpc ∈ call.sent, rpc.budgetAt = rpc.sentAt) :
    ∀ rpc ∈ moved.sent, rpc.budgetAt = rpc.sentAt := by
  cases hmove
  case sends hrunning hpoint =>
    intro rpc hmem
    rcases List.mem_append.mp hmem with hold | hnew
    · exact hsent rpc hold
    · rw [List.mem_singleton.mp hnew]
      exact h hrunning (by rw [hpoint]; trivial)
  all_goals exact hsent

theorem prompt_of_step {g next : Gateway} {event : Event} (hstep : Step config g event next)
    (horderly : Orderly g) (hquiet : Quiet g event) (h : Prompt g) : Prompt next := by
  cases hstep with
  | tick _ =>
      refine ⟨fun id call hrunning => ?_, h.sent⟩
      have hnone : g.running = none := hquiet
      have hsome : g.running = some id := hrunning
      simp [hnone] at hsome
  | call hrunning =>
      refine ⟨fun id call hsome => ?_, fun call hmem => ?_⟩
      · simp [hrunning] at hsome
      · rcases List.mem_append.mp hmem with hold | hnew
        · exact h.sent call hold
        · rw [List.mem_singleton.mp hnew]
          intro rpc hrpc
          exact absurd hrpc List.not_mem_nil
  | probe _ _ => exact ⟨h.budget, h.sent⟩
  | @move event id call moved s hcall hmove =>
      have hbudget := fun hrunning => h.budget id call hrunning hcall
      have hwait := fun part => horderly.noWait id call part hcall
      refine ⟨fun index other hrunning hother hbudgeted => ?_, fun other hmem => ?_⟩
      · rcases getElem?_store hother with ⟨rfl, rfl⟩ | ⟨hne, _⟩
        · exact budget_of_callStep hmove hwait hbudget hbudgeted
        · have hsome : s.running = some index := hrunning
          rcases (running_of_callStep hmove).2 with ⟨hself, _⟩ | ⟨hnone, _⟩
          · exact absurd (Option.some.inj (hsome.symm.trans hself)) hne
          · simp [hnone] at hsome
      · rcases List.mem_or_eq_of_mem_set hmem with hold | rfl
        · exact h.sent other hold
        · exact sent_of_callStep hmove hbudget (h.sent call (List.mem_of_getElem? hcall))

theorem prompt_of_reachable {g : Gateway} (hreach : (machine config).ReachableBy Quiet g) :
    Prompt g := by
  apply hreach.invariant
  · rintro g ⟨now, rfl⟩
    exact ⟨by simp [initial], fun call hmem => absurd hmem List.not_mem_nil⟩
  · intro g event next hbefore h hquiet hevent
    exact prompt_of_step (step_of_reachable hbefore.reachable hevent)
      (orderly_of_reachable hbefore.reachable) hquiet h

/-! ## The deadline of a call stays what it is -/

/-- What a later state of a call has kept. -/
structure Kept (call moved : Call) : Prop where
  sent : call.sent <+: moved.sent
  started : call.point ≠ .start → moved.point ≠ .start
  deadline : call.point ≠ .start → moved.gatewayDeadline = call.gatewayDeadline

theorem Kept.refl (call : Call) : Kept call call := ⟨List.prefix_refl _, id, fun _ => rfl⟩

theorem kept_of_callStep {s next : Shared} {id : ℕ} {call moved : Call} {event : Event}
    (hmove : CallStep config s id call event next moved) : Kept call moved := by
  cases hmove
  case start hpoint =>
    exact ⟨List.prefix_refl _, fun hne => absurd hpoint hne, fun hne => absurd hpoint hne⟩
  case sends => exact ⟨List.prefix_append _ _, fun _ => by simp, fun _ => rfl⟩
  all_goals exact ⟨List.prefix_refl _, fun _ => by simp, fun _ => rfl⟩

theorem kept_of_step {g next : Gateway} {event : Event} (hstep : Step config g event next)
    {id : ℕ} {call : Call} (hcall : g.calls[id]? = some call) :
    ∃ moved, next.calls[id]? = some moved ∧ Kept call moved := by
  cases hstep with
  | tick _ | probe _ _ => exact ⟨call, hcall, .refl call⟩
  | call _ =>
      have hid := (List.getElem?_eq_some_iff.mp hcall).1
      exact ⟨call, (List.getElem?_append_left hid).trans hcall, .refl call⟩
  | @move event index other moved s hother hmove =>
      by_cases heq : index = id
      · subst heq
        obtain rfl := Option.some.inj (hother.symm.trans hcall)
        exact ⟨moved, getElem?_store_self hcall, kept_of_callStep hmove⟩
      · exact ⟨call, (List.getElem?_set_ne heq).trans hcall, .refl call⟩

end Gateway
end ModelServer
