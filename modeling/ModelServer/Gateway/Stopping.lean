import Mathlib.Algebra.Order.BigOperators.Group.List
import Mathlib.Algebra.Order.Ring.Nat
import ModelServer.Gateway.Pollers
import ModelServer.Gateway.Progress
import ModelServer.Library.Sums

/-!
# One poller for each worker, and none after `stop`

While the application is up the tasks of the registry are one live poller for each
worker, in the order of the workers (`Staffed`).  `stop` waits for one of them after
another, those that are left being still at work, and then for the channels.

What it has to wait for is bounded: `Pollers.ahead` counts the steps of the pollers and of
`stop` that are left, and nothing that happens meanwhile adds to them.
-/

namespace ModelServer

open Transition

namespace Pollers

/-! ## The loops of `stop` -/

/-- The tasks that are done. -/
def Done (p : Pollers) (tasks : List ℕ) : Prop :=
  ∀ id ∈ tasks, ∀ poller, p.pollers[id]? = some poller → poller.live = false

/-- `stop` either waits for a channel that is open, or has closed them all. -/
theorem closeWorkers_cases (p : Pollers) (workers : List String) :
    (∃ passed worker later, workers = passed ++ worker :: later ∧
        (∀ other ∈ passed, p.channel other = false) ∧
        p.closeWorkers workers = { p with lifespan := .closing worker later }) ∨
      (∀ other ∈ workers, p.channel other = false) ∧
        p.closeWorkers workers = { p with lifespan := .down } := by
  induction workers with
  | nil => exact .inr ⟨by simp, rfl⟩
  | cons worker workers ih =>
      cases hopen : p.channel worker with
      | true => exact .inl ⟨[], worker, workers, rfl, by simp, by simp [closeWorkers, hopen]⟩
      | false =>
          have hpass : p.closeWorkers (worker :: workers) = p.closeWorkers workers := by
            simp [closeWorkers, hopen]
          rw [hpass]
          rcases ih with ⟨passed, other, later, hsplit, hpassed, hclose⟩ | ⟨hall, hclose⟩
          · exact .inl ⟨worker :: passed, other, later, by rw [hsplit]; rfl,
              by simpa [hopen] using hpassed, hclose⟩
          · exact .inr ⟨by simpa [hopen] using hall, hclose⟩

theorem pollers_closeWorkers (p : Pollers) (workers : List String) :
    (p.closeWorkers workers).pollers = p.pollers := by
  rcases p.closeWorkers_cases workers with ⟨_, _, _, _, _, hclose⟩ | ⟨_, hclose⟩ <;> rw [hclose]

/-- `stop` either waits for a task that is not done, or goes on with the channels. -/
theorem joinTasks_cases (ids : List String) (p : Pollers) (tasks : List ℕ) :
    (∃ passed task poller later, tasks = passed ++ task :: later ∧ p.Done passed ∧
        p.pollers[task]? = some poller ∧ poller.live = true ∧
        p.joinTasks ids tasks =
          { p.store task poller.cancel with lifespan := .joining task later }) ∨
      p.Done tasks ∧ p.joinTasks ids tasks = { p with tasks := [] }.closeWorkers ids := by
  induction tasks with
  | nil => exact .inr ⟨by simp [Done], rfl⟩
  | cons task tasks ih =>
      by_cases hlive : ∃ poller, p.pollers[task]? = some poller ∧ poller.live = true
      · obtain ⟨poller, hpoller, hlive⟩ := hlive
        exact .inl ⟨[], task, poller, tasks, rfl, by simp [Done], hpoller, hlive,
          by simp [joinTasks, hpoller, hlive]⟩
      · have hdone : ∀ poller, p.pollers[task]? = some poller → poller.live = false :=
          fun poller hpoller => Bool.of_not_eq_true fun h => hlive ⟨poller, hpoller, h⟩
        have hpass : p.joinTasks ids (task :: tasks) = p.joinTasks ids tasks := by
          cases hpoller : p.pollers[task]? with
          | none => simp [joinTasks, hpoller]
          | some poller => simp [joinTasks, hpoller, hdone poller hpoller]
        rw [hpass]
        rcases ih with ⟨passed, other, poller, later, hsplit, hpassed, hjoin⟩ | ⟨hall, hjoin⟩
        · exact .inl ⟨task :: passed, other, poller, later, by rw [hsplit]; rfl,
            List.forall_mem_cons.mpr ⟨hdone, hpassed⟩, hjoin⟩
        · exact .inr ⟨List.forall_mem_cons.mpr ⟨hdone, hall⟩, hjoin⟩

/-! ## The tasks that are left -/

/-- The pollers of the workers are the tasks from number `old` on, and only `tasks` may still
be at work. -/
structure Posted (ids : List String) (old : ℕ) (tasks : List ℕ) (p : Pollers) : Prop where
  workers : (p.pollers.drop old).map Poller.worker = ids
  live : ∀ id poller, p.pollers[id]? = some poller → poller.live = true → id ∈ tasks
  fresh : ∀ id ∈ tasks, old ≤ id

/-- What the tasks are like, by where the application stands. -/
inductive Staffed (ids : List String) (p : Pollers) : Prop
  | up {old : ℕ} (hstate : p.lifespan = .up) (hposted : Posted ids old p.tasks p)
      (hstopping : p.stopping = false) (htasks : p.tasks = List.range' old ids.length)
      (hlive : ∀ id ∈ p.tasks, ∃ poller, p.pollers[id]? = some poller ∧ poller.live = true ∧
        poller.cancelRequested = false)
  | joining {old task : ℕ} {rest : List ℕ} (hstate : p.lifespan = .joining task rest)
      (hposted : Posted ids old (task :: rest) p) (hstopping : p.stopping = true)
      (hcancel : ∃ poller, p.pollers[task]? = some poller ∧ poller.cancelRequested = true)
  | idle (hstate : p.lifespan = .down ∨ ∃ worker rest, p.lifespan = .closing worker rest)
      (htasks : p.tasks = []) (hdone : ∀ poller ∈ p.pollers, poller.live = false)

variable {ids : List String} {old : ℕ} {tasks : List ℕ} {p : Pollers}

theorem Posted.done (h : Posted ids old [] p) : ∀ poller ∈ p.pollers, poller.live = false := by
  intro poller hmem
  obtain ⟨id, hpoller⟩ := List.mem_iff_getElem?.mp hmem
  by_contra hlive
  exact absurd (h.live id poller hpoller (Bool.of_not_eq_false hlive)) List.not_mem_nil

/-- The tasks of an earlier time are done. -/
theorem Posted.done_of_take (h : Posted ids old tasks p) :
    ∀ poller ∈ p.pollers.take old, poller.live = false := by
  intro poller hmem
  obtain ⟨id, hpoller⟩ := List.mem_iff_getElem?.mp hmem
  have hless : id < old := by
    have hlength := (List.getElem?_eq_some_iff.mp hpoller).1
    rw [List.length_take] at hlength
    omega
  rw [List.getElem?_take_of_lt hless] at hpoller
  by_contra hlive
  have htask := h.live id poller hpoller (Bool.of_not_eq_false hlive)
  exact absurd (h.fresh id htask) (Nat.not_le_of_lt hless)

/-- The tasks that are done no longer count. -/
theorem Posted.pass {passed : List ℕ} (h : Posted ids old (passed ++ tasks) p)
    (hpassed : p.Done passed) : Posted ids old tasks p := by
  refine ⟨h.workers, fun id poller hpoller hlive => ?_, fun id hmem => ?_⟩
  · rcases List.mem_append.mp (h.live id poller hpoller hlive) with hmem | hmem
    · exact absurd (hlive.symm.trans (hpassed id hmem poller hpoller)) (by decide)
    · exact hmem
  · exact h.fresh id (List.mem_append_right _ hmem)

theorem getElem?_store {id other : ℕ} {moved stored : Poller}
    (h : (p.store id moved).pollers[other]? = some stored) :
    other = id ∧ stored = moved ∨ other ≠ id ∧ p.pollers[other]? = some stored := by
  rw [store_pollers] at h
  by_cases heq : id = other
  · subst heq
    have hindex : id < p.pollers.length := by
      simpa using (List.getElem?_eq_some_iff.mp h).1
    rw [List.getElem?_set_self hindex] at h
    exact .inl ⟨rfl, (Option.some.inj h).symm⟩
  · rw [List.getElem?_set_ne heq] at h
    exact .inr ⟨Ne.symm heq, h⟩

theorem getElem?_store_self {id : ℕ} {poller : Poller} (h : p.pollers[id]? = some poller)
    (moved : Poller) : (p.store id moved).pollers[id]? = some moved :=
  List.getElem?_set_self (List.getElem?_eq_some_iff.mp h).1

theorem getElem?_store_of_ne {id other : ℕ} (h : other ≠ id) (moved : Poller) :
    (p.store id moved).pollers[other]? = p.pollers[other]? :=
  List.getElem?_set_ne (Ne.symm h)

theorem Posted.worker_mem (h : Posted ids old tasks p) {id : ℕ} {poller : Poller}
    (hpoller : p.pollers[id]? = some poller) (hlive : poller.live = true) :
    poller.worker ∈ ids := by
  have hold : old ≤ id := h.fresh id (h.live id poller hpoller hlive)
  have hdrop : (p.pollers.drop old)[id - old]? = some poller := by
    rw [List.getElem?_drop, Nat.add_sub_cancel' hold, hpoller]
  rw [← h.workers]
  exact List.mem_map_of_mem (List.mem_of_getElem? hdrop)

/-- A task that takes a step is not at work again if it was done. -/
theorem Posted.store (h : Posted ids old tasks p) {id : ℕ} {poller moved : Poller}
    (hpoller : p.pollers[id]? = some poller) (hworker : moved.worker = poller.worker)
    (hlive : poller.live = true) : Posted ids old tasks (p.store id moved) := by
  refine ⟨?_, fun other stored hstored hstoredLive => ?_, h.fresh⟩
  · calc ((p.pollers.set id moved).drop old).map Poller.worker
      _ = ((p.pollers.set id moved).map Poller.worker).drop old := List.map_drop
      _ = (p.pollers.map Poller.worker).drop old := by
          rw [map_set_of_eq Poller.worker hpoller hworker]
      _ = (p.pollers.drop old).map Poller.worker := List.map_drop.symm
      _ = ids := h.workers
  · rcases getElem?_store hstored with ⟨rfl, _⟩ | ⟨_, hbefore⟩
    · exact h.live other poller hpoller hlive
    · exact h.live other stored hbefore hstoredLive

/-- A live poller is that of a registered worker. -/
theorem Staffed.worker_mem (h : Staffed ids p) {id : ℕ} {poller : Poller}
    (hpoller : p.pollers[id]? = some poller) (hlive : poller.live = true) :
    poller.worker ∈ ids := by
  cases h with
  | up _ hposted _ _ _ | joining _ hposted _ _ => exact hposted.worker_mem hpoller hlive
  | idle _ _ hdone =>
      exact absurd (hlive.symm.trans (hdone poller (List.mem_of_getElem? hpoller))) (by decide)

/-- A live task takes a step that leaves its cancellation alone; it may end unless the
application is up. -/
theorem Staffed.store (h : Staffed ids p) {id : ℕ} {poller moved : Poller}
    (hpoller : p.pollers[id]? = some poller) (hworker : moved.worker = poller.worker)
    (hlive : poller.live = true) (hcancel : moved.cancelRequested = poller.cancelRequested)
    (hup : p.stopping = false → poller.cancelRequested = false → moved.live = true) :
    Staffed ids (p.store id moved) := by
  cases h with
  | up hstate hposted hstopping htasks hall =>
      refine .up hstate (hposted.store hpoller hworker hlive) hstopping htasks fun other hmem => ?_
      obtain ⟨stored, hstored, hstoredLive, hstoredCancel⟩ := hall other hmem
      by_cases heq : other = id
      · subst heq
        obtain rfl := Option.some.inj (hpoller.symm.trans hstored)
        exact ⟨moved, getElem?_store_self hpoller moved, hup hstopping hstoredCancel,
          hcancel.trans hstoredCancel⟩
      · exact ⟨stored, (getElem?_store_of_ne heq moved).trans hstored, hstoredLive, hstoredCancel⟩
  | @joining _ task _ hstate hposted hstopping hcancelled =>
      refine .joining hstate (hposted.store hpoller hworker hlive) hstopping ?_
      obtain ⟨stored, hstored, hstoredCancel⟩ := hcancelled
      by_cases heq : task = id
      · subst heq
        obtain rfl := Option.some.inj (hpoller.symm.trans hstored)
        exact ⟨moved, getElem?_store_self hpoller moved, hcancel.trans hstoredCancel⟩
      · exact ⟨stored, (getElem?_store_of_ne heq moved).trans hstored, hstoredCancel⟩
  | idle _ _ hdone =>
      exact absurd (hlive.symm.trans (hdone poller (List.mem_of_getElem? hpoller))) (by decide)

/-- The channels play no part in it. -/
theorem Staffed.getStub (h : Staffed ids p) (worker : String) : Staffed ids (p.getStub worker) := by
  cases h with
  | up hstate hposted hstopping htasks hlive =>
      exact .up hstate ⟨hposted.workers, hposted.live, hposted.fresh⟩ hstopping htasks hlive
  | joining hstate hposted hstopping hcancel =>
      exact .joining hstate ⟨hposted.workers, hposted.live, hposted.fresh⟩ hstopping hcancel
  | idle hstate htasks hdone => exact .idle hstate htasks hdone

theorem staffed_closeWorkers (htasks : p.tasks = [])
    (hdone : ∀ poller ∈ p.pollers, poller.live = false) (workers : List String) :
    Staffed ids (p.closeWorkers workers) := by
  rcases p.closeWorkers_cases workers with ⟨_, worker, later, _, _, hclose⟩ | ⟨_, hclose⟩
  · rw [hclose]
    exact .idle (.inr ⟨worker, later, rfl⟩) htasks hdone
  · rw [hclose]
    exact .idle (.inl rfl) htasks hdone

theorem Posted.joinTasks (h : Posted ids old tasks p) (hstopping : p.stopping = true) :
    Staffed ids (p.joinTasks ids tasks) := by
  rcases joinTasks_cases ids p tasks with
    ⟨passed, task, poller, later, rfl, hpassed, hpoller, hlive, hjoin⟩ | ⟨hall, hjoin⟩
  · rw [hjoin]
    have hposted : Posted ids old (task :: later) (p.store task poller.cancel) :=
      (h.pass hpassed).store hpoller rfl hlive
    exact .joining rfl ⟨hposted.workers, hposted.live, hposted.fresh⟩ hstopping
      ⟨poller.cancel, getElem?_store_self hpoller poller.cancel, rfl⟩
  · rw [hjoin]
    have hposted : Posted ids old [] p := by
      rw [← List.append_nil tasks] at h
      exact h.pass hall
    have hcleared : ({ p with tasks := [] } : Pollers).tasks = [] := rfl
    exact staffed_closeWorkers hcleared hposted.done ids

theorem mem_tasks_startTasks (htasks : p.tasks = []) (now : Time) {id : ℕ} :
    id ∈ (p.startTasks ids now).tasks ↔
      p.pollers.length ≤ id ∧ id < (p.startTasks ids now).pollers.length := by
  simp [startTasks, htasks, List.mem_range'_1]

theorem staffed_startTasks (htasks : p.tasks = [])
    (hdone : ∀ poller ∈ p.pollers, poller.live = false) (now : Time) :
    Staffed ids (p.startTasks ids now) := by
  have hposted :
      Posted ids p.pollers.length (p.startTasks ids now).tasks (p.startTasks ids now) := by
    refine ⟨by simp [startTasks, Function.comp_def], fun id poller hpoller hlive => ?_,
      fun id hmem => ((mem_tasks_startTasks htasks now).mp hmem).1⟩
    rw [mem_tasks_startTasks htasks]
    refine ⟨?_, (List.getElem?_eq_some_iff.mp hpoller).1⟩
    by_contra hold
    rw [startTasks, List.getElem?_append_left (Nat.lt_of_not_le hold)] at hpoller
    exact absurd (hlive.symm.trans (hdone poller (List.mem_of_getElem? hpoller))) (by decide)
  refine .up rfl hposted rfl (by simp [startTasks, htasks]) fun id hmem => ?_
  obtain ⟨hold, hlength⟩ := (mem_tasks_startTasks htasks now).mp hmem
  obtain ⟨poller, hpoller⟩ : ∃ poller, (p.startTasks ids now).pollers[id]? = some poller :=
    ⟨_, List.getElem?_eq_getElem hlength⟩
  refine ⟨poller, hpoller, ?_⟩
  rw [startTasks, List.getElem?_append_right hold, List.getElem?_map] at hpoller
  obtain ⟨worker, _, hcreated⟩ := Option.map_eq_some_iff.mp hpoller
  rw [← hcreated]
  exact ⟨rfl, rfl⟩

variable {config : PollConfig}

theorem live_of_atHead {poller : Poller} (h : poller.atHead = true) : poller.live = true := by
  cases hpoint : poller.point <;> simp_all [Poller.atHead, Poller.live]

theorem staffed_of_step {g gateway : Gateway} {pollers : Pollers} {event : Event}
    (hstep : Step config g p event gateway pollers)
    (hids : gateway.scheduler.registry.ids = g.scheduler.registry.ids)
    (h : Staffed g.scheduler.registry.ids p) :
    Staffed gateway.scheduler.registry.ids pollers := by
  rw [hids]
  cases hstep with
  | start _ hdown =>
      cases h with
      | up hstate _ _ _ _ | joining hstate _ _ _ => simp [hdown] at hstate
      | idle _ htasks hdone => exact staffed_startTasks htasks hdone _
  | ends _ hpoller hhead _ hstopping =>
      exact h.store hpoller rfl (live_of_atHead hhead) rfl fun hopen => by simp [hopen] at hstopping
  | asks _ hpoller hhead _ _ =>
      exact (h.store hpoller (by rfl) (live_of_atHead hhead) (by rfl) fun _ _ => rfl).getStub _
  | probe hpoller hpoint _ _ =>
      refine h.store hpoller rfl ?_ rfl fun _ _ => rfl
      rcases hpoint with ⟨hhead, _⟩ | ⟨hpoint, _⟩
      · exact live_of_atHead hhead
      · simp [Poller.live, hpoint]
  | cancelled _ hpoller hpollerLive hcancel =>
      exact h.store hpoller rfl hpollerLive rfl fun _ hnone => by simp [hnone] at hcancel
  | stop _ hup =>
      cases h with
      | up _ hposted _ _ _ =>
          have hmoved : Posted g.scheduler.registry.ids _ p.tasks { p with stopping := true } :=
            ⟨hposted.workers, hposted.live, hposted.fresh⟩
          exact hmoved.joinTasks rfl
      | joining hstate _ _ _ => simp [hup] at hstate
      | idle hstate _ _ => simp [hup] at hstate
  | joined _ hjoining hpoller hdone =>
      cases h with
      | up hstate _ _ _ _ => simp [hjoining] at hstate
      | idle hstate _ _ => simp [hjoining] at hstate
      | @joining _ task rest hstate hposted hstopping _ =>
          obtain ⟨rfl, rfl⟩ := Lifespan.joining.inj (hjoining.symm.trans hstate)
          have hpassed : p.Done [_] := fun id hmem poller hother => by
            obtain rfl := List.mem_singleton.mp hmem
            obtain rfl := Option.some.inj (hpoller.symm.trans hother)
            exact hdone
          exact (hposted.pass hpassed).joinTasks hstopping
  | closed _ hclosing =>
      cases h with
      | up hstate _ _ _ _ | joining hstate _ _ _ => simp [hclosing] at hstate
      | idle _ htasks hdone =>
          exact @staffed_closeWorkers _ (p.closed _) htasks hdone _

end Pollers

theorem Gateway.ids_of_step {config : GatewayConfig} {g next : Gateway} {event : Gateway.Event}
    (hstep : Gateway.Step config g event next) :
    next.scheduler.registry.ids = g.scheduler.registry.ids := by
  cases hstep with
  | tick _ | call _ | probe _ _ => rfl
  | move _ hmove => exact ids_of_callStep hmove

namespace Polled

variable {config : PollConfig}

/-- The workers, in the order of the registry. -/
def ids (s : Polled) : List String := s.gateway.scheduler.registry.ids

theorem ids_of_step {s next : Polled} {event : Event} (hreach : (machine config).Reachable s)
    (hstep : Step config s event next) : next.ids = s.ids := by
  have hmoved : ∀ inner, s.gateway.step config.toGatewayConfig inner = some next.gateway →
      next.ids = s.ids := fun inner h =>
    Gateway.ids_of_step (Gateway.step_of_reachable (gateway_of_reachable hreach) h)
  cases hstep with
  | gateway _ hgateway | stubFails hgateway => exact hmoved _ hgateway
  | pollers hpollers =>
      rcases Pollers.probed_of_step hpollers with ⟨_, rfl⟩ | ⟨_, _, _, hgateway⟩
      · rfl
      · exact hmoved _ hgateway

theorem staffed_of_reachable {s : Polled} (hreach : (machine config).Reachable s) :
    s.pollers.Staffed s.ids := by
  apply hreach.invariant
  · rintro s ⟨now, rfl⟩
    exact .idle (.inl rfl) rfl (by simp [initial])
  · intro s event next hbefore h hevent
    have hstep := step_cases hevent
    have hids := ids_of_step hbefore hstep
    cases hstep with
    | @gateway event _ _ _ =>
        rw [hids]
        cases s.gateway.dispatched event with
        | none => exact h
        | some worker => exact h.getStub worker
    | stubFails _ =>
        rw [hids]
        exact h
    | pollers hpollers => exact Pollers.staffed_of_step hpollers hids h

/-! ## One poller for each worker -/

/-- The workers of the live pollers. -/
def polled (s : Polled) : List String := (s.pollers.pollers.filter Poller.live).map Poller.worker

theorem polled_of_posted {s : Polled} {old : ℕ} {tasks : List ℕ}
    (h : s.pollers.Posted s.ids old tasks) :
    s.polled = ((s.pollers.pollers.drop old).filter Poller.live).map Poller.worker := by
  have hold : (s.pollers.pollers.take old).filter Poller.live = [] := by
    rw [List.filter_eq_nil_iff]
    intro poller hmem hlive
    exact absurd (hlive.symm.trans (h.done_of_take poller hmem)) (by decide)
  calc s.polled
    _ = ((s.pollers.pollers.take old ++ s.pollers.pollers.drop old).filter Poller.live).map
          Poller.worker := by rw [List.take_append_drop, polled]
    _ = ((s.pollers.pollers.drop old).filter Poller.live).map Poller.worker := by
          rw [List.filter_append, hold, List.nil_append]

theorem sublist_of_posted {s : Polled} {old : ℕ} {tasks : List ℕ}
    (h : s.pollers.Posted s.ids old tasks) : s.polled.Sublist s.ids := by
  rw [polled_of_posted h, ← h.workers]
  exact List.filter_sublist.map Poller.worker

theorem polled_eq_nil_iff {s : Polled} :
    s.polled = [] ↔ ∀ poller ∈ s.pollers.pollers, poller.live = false := by
  simp [polled, List.filter_eq_nil_iff]

/-- Only a live poller probes. -/
theorem live_of_probe {s next : Polled} {event : Event} (hstep : Step config s event next)
    (hother : ∀ inner, event ≠ .gateway inner) {worker : String} {outcome : ProbeOutcome}
    (hprobe : .probe worker outcome ∈ s.inner event) :
    ∃ poller ∈ s.pollers.pollers, poller.live = true := by
  cases hstep with
  | gateway _ _ => exact absurd rfl (hother _)
  | stubFails _ => simp [inner] at hprobe
  | pollers hpollers =>
      cases hpollers with
      | @probe _ _ poller _ _ hpoller hpoint _ _ =>
          refine ⟨poller, List.mem_of_getElem? hpoller, ?_⟩
          rcases hpoint with ⟨hhead, _⟩ | ⟨hpoint, _⟩
          · exact Pollers.live_of_atHead hhead
          · simp [Poller.live, hpoint]
      | _ => simp [inner, Pollers.probed] at hprobe

/-- **One poller for each worker.**  In every reachable state no worker has two live pollers,
and while the application is up each one has one; before `start` and after `stop` there is
none, and then no event changes the health of a worker by a probe. -/
theorem one_poller_each {s : Polled} (hreach : (machine config).Reachable s) :
    s.polled.Sublist s.ids ∧ s.polled.Nodup ∧
      (s.pollers.lifespan = .up → s.polled = s.ids) ∧
      (s.pollers.lifespan = .down → s.polled = [] ∧
        ∀ event next, s.step config event = some next → ∀ worker outcome,
          .probe worker outcome ∉ s.inner event) := by
  have hsublist : s.polled.Sublist s.ids := by
    cases staffed_of_reachable hreach with
    | up _ hposted _ _ _ | joining _ hposted _ _ => exact sublist_of_posted hposted
    | idle _ _ hdone =>
        rw [polled_eq_nil_iff.mpr hdone]
        exact List.nil_sublist _
  refine ⟨hsublist, hsublist.nodup s.gateway.scheduler.registry.nodup, fun hup => ?_,
    fun hdown => ?_⟩
  · cases staffed_of_reachable hreach with
    | joining hstate _ _ _ | idle hstate _ _ => simp [hup] at hstate
    | @up old _ hposted _ htasks hlive =>
        have hall : ∀ poller ∈ s.pollers.pollers.drop old, poller.live = true := by
          intro poller hmem
          obtain ⟨index, hpoller⟩ := List.mem_iff_getElem?.mp hmem
          have hindex : index < s.ids.length := by
            have hlength := (List.getElem?_eq_some_iff.mp hpoller).1
            rwa [← hposted.workers, List.length_map]
          rw [List.getElem?_drop] at hpoller
          have htask : old + index ∈ s.pollers.tasks := by
            rw [htasks, List.mem_range'_1]
            omega
          obtain ⟨other, hother, hotherLive, _⟩ := hlive (old + index) htask
          exact Option.some.inj (hpoller.symm.trans hother) ▸ hotherLive
        rw [polled_of_posted hposted, List.filter_eq_self.mpr hall, hposted.workers]
  · cases staffed_of_reachable hreach with
    | up hstate _ _ _ _ | joining hstate _ _ _ => simp [hdown] at hstate
    | idle _ _ hdone =>
        refine ⟨polled_eq_nil_iff.mpr hdone, fun event next hevent worker outcome hprobe => ?_⟩
        have hstep := step_cases hevent
        have hother : ∀ inner, event ≠ .gateway inner := by
          rintro inner rfl
          cases hstep with
          | gateway hnone _ => exact hnone worker outcome (List.mem_singleton.mp hprobe).symm
        obtain ⟨poller, hmem, hlive⟩ := live_of_probe hstep hother hprobe
        exact absurd (hlive.symm.trans (hdone poller hmem)) (by decide)

theorem one_poller_each_sleeping :
    let s := sample untilSleeping
    s.pollers.lifespan = .up ∧ s.polled = ["worker-1", "worker-2", "worker-3", "worker-4"] ∧
      s.polled.Sublist s.ids ∧ s.polled.Nodup ∧
      (s.pollers.lifespan = .up → s.polled = s.ids) ∧
      (s.pollers.lifespan = .down → s.polled = [] ∧
        ∀ event next, s.step {} event = some next → ∀ worker outcome,
          .probe worker outcome ∉ s.inner event) :=
  ⟨by decide +kernel, by decide +kernel, one_poller_each (reachable_sample untilSleeping)⟩

end Polled

/-! ## What `stop` has to wait for -/

/-- The steps a poller may still take once it is to end. -/
def Poller.ahead (poller : Poller) : ℕ :=
  match poller.point with
  | .created | .sleeping => 1
  | .awaitStatus => 2
  | .finished => 0

/-- The awaits of `stop` that may still come, with this number of workers. -/
def Lifespan.ahead (workers : ℕ) : Lifespan → ℕ
  | .down | .up => 0
  | .joining _ rest => rest.length + 1 + workers
  | .closing _ rest => rest.length + 1

theorem Poller.ahead_le (poller : Poller) : poller.ahead ≤ 2 := by
  unfold ahead
  split <;> omega

theorem Poller.ahead_of_done {poller : Poller} (h : poller.live = false) : poller.ahead = 0 := by
  have hpoint : poller.point = .finished := by simpa [live] using h
  simp [ahead, hpoint]

theorem Poller.ahead_pos {poller : Poller} (h : poller.live = true) : 0 < poller.ahead := by
  cases hpoint : poller.point <;> simp_all [live, ahead]

namespace Pollers

variable {config : PollConfig} {ids : List String} {p : Pollers}

/-- The steps of the pollers and of `stop` that are left. -/
def ahead (workers : ℕ) (p : Pollers) : ℕ :=
  (p.pollers.map Poller.ahead).sum + p.lifespan.ahead workers

def Event.ofStop : Event → Bool
  | .start | .stop => false
  | _ => true

/-- Only the pollers of the workers have steps left. -/
theorem sum_ahead_of_posted {old : ℕ} {tasks : List ℕ} (h : p.Posted ids old tasks) :
    (p.pollers.map Poller.ahead).sum ≤ 2 * ids.length := by
  have hold : ((p.pollers.take old).map Poller.ahead).sum = 0 := by
    apply List.sum_eq_zero
    intro count hmem
    obtain ⟨poller, hpoller, rfl⟩ := List.mem_map.mp hmem
    exact Poller.ahead_of_done (h.done_of_take poller hpoller)
  have hnew : ((p.pollers.drop old).map Poller.ahead).sum ≤
      ((p.pollers.drop old).map Poller.ahead).length • 2 := by
    apply List.sum_le_card_nsmul
    intro count hmem
    obtain ⟨poller, _, rfl⟩ := List.mem_map.mp hmem
    exact poller.ahead_le
  have hlength : ((p.pollers.drop old).map Poller.ahead).length = ids.length := by
    rw [← h.workers, List.length_map, List.length_map]
  calc (p.pollers.map Poller.ahead).sum
    _ = ((p.pollers.take old).map Poller.ahead).sum +
          ((p.pollers.drop old).map Poller.ahead).sum := by
        rw [← List.sum_append, ← List.map_append, List.take_append_drop]
    _ ≤ 2 * ids.length := by
        rw [hlength, Nat.nsmul_eq_mul] at hnew
        omega

theorem ahead_store {id : ℕ} {poller : Poller} (h : p.pollers[id]? = some poller)
    (moved : Poller) (workers : ℕ) :
    (p.store id moved).ahead workers + poller.ahead = p.ahead workers + moved.ahead := by
  have hsum := sum_map_set Poller.ahead h moved
  simp only [ahead, store_pollers, store_lifespan]
  omega

theorem ahead_closeWorkers (p : Pollers) (names : List String) (workers : ℕ) :
    (p.closeWorkers names).ahead workers ≤ (p.pollers.map Poller.ahead).sum + names.length := by
  rcases p.closeWorkers_cases names with ⟨passed, worker, later, rfl, _, hclose⟩ | ⟨_, hclose⟩ <;>
    rw [hclose]
  · simp [ahead, Lifespan.ahead]
  · simp [ahead, Lifespan.ahead]

theorem stopping_closeWorkers (p : Pollers) (names : List String) :
    (p.closeWorkers names).stopping = p.stopping := by
  rcases p.closeWorkers_cases names with ⟨_, _, _, _, _, hclose⟩ | ⟨_, hclose⟩ <;> rw [hclose]

theorem stopping_joinTasks (ids : List String) (p : Pollers) (tasks : List ℕ) :
    (p.joinTasks ids tasks).stopping = p.stopping := by
  rcases joinTasks_cases ids p tasks with ⟨_, _, _, _, _, _, _, _, hjoin⟩ | ⟨_, hjoin⟩ <;>
    rw [hjoin]
  · rfl
  · exact stopping_closeWorkers _ ids

theorem ahead_joinTasks (p : Pollers) (tasks : List ℕ) :
    (p.joinTasks ids tasks).ahead ids.length ≤
      (p.pollers.map Poller.ahead).sum + tasks.length + ids.length := by
  rcases joinTasks_cases ids p tasks with
    ⟨passed, task, poller, later, rfl, _, hpoller, _, hjoin⟩ | ⟨_, hjoin⟩ <;> rw [hjoin]
  · have hsame : (p.pollers.set task poller.cancel).map Poller.ahead = p.pollers.map Poller.ahead :=
      map_set_of_eq Poller.ahead hpoller rfl
    simp only [ahead, store_pollers, hsame, Lifespan.ahead, List.length_append, List.length_cons]
    omega
  · have hclose := ({ p with tasks := [] } : Pollers).ahead_closeWorkers ids ids.length
    simp only at hclose
    omega

/-- Each step of a poller or of `stop` takes from what is left. -/
theorem ahead_of_step {g gateway : Gateway} {pollers : Pollers} {event : Event}
    (hstep : Step config g p event gateway pollers) (h : p.Staffed g.scheduler.registry.ids)
    (hstopping : p.stopping = true) (hstart : event ≠ .start) :
    pollers.stopping = true ∧ event.ofStop = true ∧
      pollers.ahead g.scheduler.registry.ids.length + 1 ≤
        p.ahead g.scheduler.registry.ids.length := by
  cases hstep with
  | start _ _ => exact absurd rfl hstart
  | stop _ hup =>
      cases h with
      | up _ _ hopen _ _ => simp [hstopping] at hopen
      | joining hstate _ _ _ | idle hstate _ _ => simp [hup] at hstate
  | asks _ _ _ _ hopen => simp [hstopping] at hopen
  | @ends id poller _ hpoller hhead _ _ =>
      have hpoint : 0 < poller.ahead := by
        cases hpoint : poller.point <;> simp_all [Poller.atHead, Poller.ahead]
      have hmoved := ahead_store hpoller poller.finish g.scheduler.registry.ids.length
      exact ⟨hstopping, rfl, by simp [Poller.ahead] at hmoved hpoint ⊢; omega⟩
  | @cancelled id poller _ hpoller hlive _ =>
      have hpoint := Poller.ahead_pos hlive
      have hmoved := ahead_store hpoller poller.finish g.scheduler.registry.ids.length
      exact ⟨hstopping, rfl, by simp [Poller.ahead] at hmoved hpoint ⊢; omega⟩
  | @probe event id poller _ next hpoller hpoint _ _ =>
      rcases hpoint with ⟨_, hopen, _⟩ | ⟨hpoint, rfl⟩
      · simp [hstopping] at hopen
      · have hmoved := ahead_store hpoller (poller.suspend .sleeping gateway.now)
          g.scheduler.registry.ids.length
        exact ⟨hstopping, rfl, by simp [Poller.ahead, hpoint] at hmoved ⊢; omega⟩
  | @joined task rest _ _ hjoining _ _ =>
      have hleft := @ahead_joinTasks g.scheduler.registry.ids p rest
      exact ⟨(stopping_joinTasks _ p rest).trans hstopping, rfl,
        by simp only [ahead, hjoining, Lifespan.ahead] at hleft ⊢; omega⟩
  | @closed worker rest _ hclosing =>
      have hleft := (p.closed worker).ahead_closeWorkers rest g.scheduler.registry.ids.length
      exact ⟨(stopping_closeWorkers _ rest).trans hstopping, rfl,
        by simp only [ahead, hclosing, Lifespan.ahead, closed_pollers] at hleft ⊢; omega⟩

/-- A poller of `stop` that is not done can end, and `stop` can go on once it has. -/
theorem exists_step_of_stopping (config : PollConfig) {g : Gateway} (hturn : g.running = none)
    (h : p.Staffed g.scheduler.registry.ids) (hstopping : p.stopping = true)
    (hdown : p.lifespan ≠ .down) :
    ∃ event next, event.ofStop = true ∧ p.step config g event = some next := by
  cases h with
  | up _ _ hopen _ _ => simp [hstopping] at hopen
  | @joining old task rest hstate hposted _ hcancel =>
      obtain ⟨poller, hpoller, hcancelled⟩ := hcancel
      cases hlive : poller.live with
      | true =>
          exact ⟨.cancelled task, _, rfl,
            by simp [step, guard, hturn, hpoller, hlive, hcancelled]; rfl⟩
      | false =>
          exact ⟨.joined, _, rfl, by simp [step, guard, hturn, hstate, hpoller, hlive]; rfl⟩
  | idle hstate _ _ =>
      rcases hstate with hstate | ⟨worker, rest, hstate⟩
      · exact absurd hstate hdown
      · exact ⟨.closed, _, rfl, by simp [step, guard, hturn, hstate]; rfl⟩

end Pollers

namespace Polled

variable {config : PollConfig}

def Event.ofStop : Event → Bool
  | .pollers event => event.ofStop
  | _ => false

def Event.starts : Event → Bool
  | .pollers .start => true
  | _ => false

def ahead (s : Polled) : ℕ := s.pollers.ahead s.ids.length

/-- The gateway while its application goes down: it is not started again. -/
def goingDown (config : PollConfig) : Machine Polled Event where
  Initial s := (machine config).Reachable s ∧ s.pollers.stopping = true
  step s event := if event.starts then none else s.step config event

theorem goingDown_step {s next : Polled} {event : Event}
    (hstep : (goingDown config).step s event = some next) :
    event ≠ .pollers .start ∧ s.step config event = some next := by
  simp only [goingDown, Option.ite_none_left_eq_some] at hstep
  obtain ⟨hstarts, hevent⟩ := hstep
  refine ⟨?_, hevent⟩
  rintro rfl
  exact hstarts rfl

/-- A run without another start is a run of going down. -/
theorem goingDown_run {first last : Polled} {events : List Event}
    (hrun : (machine config).Run first events last)
    (hstart : ∀ event ∈ events, event.starts = false) :
    (goingDown config).Run first events last := by
  induction events generalizing first with
  | nil => exact Machine.run_nil_iff.mpr (Machine.run_nil_iff.mp hrun)
  | cons event events ih =>
      obtain ⟨next, hevent, hrest⟩ := Machine.run_cons_iff.mp hrun
      have hnext : (goingDown config).step first event = some next := by
        simp only [goingDown, hstart event List.mem_cons_self, Bool.false_eq_true, if_false]
        exact hevent
      exact .cons hnext (ih hrest fun event hmem => hstart event (List.mem_cons_of_mem _ hmem))

theorem stopping_of_step {s next : Polled} {event : Event} (hstep : Step config s event next)
    (hstaffed : s.pollers.Staffed s.ids) (hstopping : s.pollers.stopping = true)
    (hstart : event ≠ .pollers .start) : next.pollers.stopping = true := by
  cases hstep with
  | @gateway event _ _ _ => cases hworker : s.gateway.dispatched event <;> exact hstopping
  | stubFails _ => exact hstopping
  | pollers hpollers =>
      exact (Pollers.ahead_of_step hpollers hstaffed hstopping fun h => hstart (h ▸ rfl)).1

/-- Going down it does what it could do anyway. -/
theorem reachable_of_goingDown {s : Polled} (hreach : (goingDown config).Reachable s) :
    (machine config).Reachable s ∧ s.pollers.stopping = true := by
  apply hreach.invariant
  · exact fun s h => h
  · intro s event next _ h hevent
    obtain ⟨hstart, hstep⟩ := goingDown_step hevent
    exact ⟨h.1.next hstep,
      stopping_of_step (step_cases hstep) (staffed_of_reachable h.1) h.2 hstart⟩

theorem ahead_of_step {s next : Polled} {event : Event} (hreach : (machine config).Reachable s)
    (hstep : Step config s event next) (hstopping : s.pollers.stopping = true)
    (hstart : event ≠ .pollers .start) :
    next.ahead + (if event.ofStop then 1 else 0) ≤ s.ahead := by
  have hids := ids_of_step hreach hstep
  simp only [ahead, hids]
  cases hstep with
  | @gateway event _ _ _ =>
      cases hworker : s.gateway.dispatched event <;>
        simp [Event.ofStop, Pollers.dispatch, Pollers.ahead]
  | stubFails _ => simp [Event.ofStop]
  | @pollers event _ _ hpollers =>
      obtain ⟨_, hwork, hless⟩ := Pollers.ahead_of_step hpollers (staffed_of_reachable hreach)
        hstopping fun h => hstart (h ▸ rfl)
      rw [if_pos (show Event.ofStop (.pollers event) = true from hwork)]
      exact hless

/-- What pays for the steps of the pollers and of `stop`. -/
def stepsOfStop (config : PollConfig) : Machine.Potential (goingDown config) where
  work := Event.ofStop
  level := ahead
  supply _ := 0
  step s event next hreach hevent := by
    obtain ⟨hreachable, hstopping⟩ := reachable_of_goingDown hreach
    obtain ⟨hstart, hstep⟩ := goingDown_step hevent
    exact ahead_of_step hreachable (step_cases hstep) hstopping hstart

/-- `stop` has returned, and the tasks have ended. -/
structure Stopped (s : Polled) : Prop where
  down : s.pollers.lifespan = .down
  cleared : s.pollers.tasks = []
  ended : ∀ poller ∈ s.pollers.pollers, poller.live = false

theorem stopped_of_quiescent {s : Polled} (hreach : (goingDown config).Reachable s)
    (hturn : s.gateway.running = none)
    (hquiet : (goingDown config).Quiescent Event.ofStop s) : Stopped s := by
  obtain ⟨hreachable, hstopping⟩ := reachable_of_goingDown hreach
  have hstaffed := staffed_of_reachable hreachable
  have hdown : s.pollers.lifespan = .down := by
    by_contra hdown
    obtain ⟨event, next, hwork, hstep⟩ :=
      Pollers.exists_step_of_stopping config hturn hstaffed hstopping hdown
    have hnone : (goingDown config).step s (.pollers event) = none := hquiet (.pollers event) hwork
    have hsome : (goingDown config).step s (.pollers event) = some ⟨next.1, next.2⟩ := by
      cases event <;> simp_all [goingDown, step, Event.starts, Pollers.Event.ofStop]
    exact absurd (hnone.symm.trans hsome) (by simp)
  cases hstaffed with
  | up hstate _ _ _ _ | joining hstate _ _ _ => simp [hdown] at hstate
  | idle _ htasks hdone => exact ⟨hdown, htasks, hdone⟩

/-- The pollers leave the calls alone. -/
theorem running_of_step {s next : Polled} {event : Event} (hreach : (machine config).Reachable s)
    (hstep : Step config s event next) (hwork : event.ofStop = true) :
    next.gateway.running = s.gateway.running := by
  cases hstep with
  | gateway _ _ | stubFails _ => cases hwork
  | pollers hpollers =>
      rcases Pollers.probed_of_step hpollers with ⟨_, rfl⟩ | ⟨_, _, _, hgateway⟩
      · rfl
      · cases Gateway.step_of_reachable (gateway_of_reachable hreach) hgateway with
        | probe _ _ => rfl
        | move _ hmove => cases hmove

theorem running_of_run {first last : Polled} {events : List Event}
    (hreach : (goingDown config).Reachable first)
    (hrun : (goingDown config).Run first events last)
    (hwork : ∀ event ∈ events, event.ofStop = true) :
    last.gateway.running = first.gateway.running := by
  induction events generalizing first with
  | nil => rw [Machine.run_nil_iff.mp hrun]
  | cons event events ih =>
      obtain ⟨next, hevent, hrest⟩ := Machine.run_cons_iff.mp hrun
      have hone := running_of_step (reachable_of_goingDown hreach).1
        (step_cases (goingDown_step hevent).2) (hwork event List.mem_cons_self)
      have hall := ih (hreach.next hevent) hrest fun event hmem =>
        hwork event (List.mem_cons_of_mem _ hmem)
      exact hall.trans hone

theorem ahead_of_stop {before first : Polled} (hreach : (machine config).Reachable before)
    (hstop : before.step config (.pollers .stop) = some first) :
    (goingDown config).Reachable first ∧ first.ahead ≤ 4 * before.ids.length := by
  have hfirst := reachable_of_step hreach hstop
  have hids := ids_of_step hreach (step_cases hstop)
  have hstaffed := staffed_of_reachable hreach
  cases step_cases hstop with
  | pollers hpollers =>
      cases hpollers with
      | probe _ hpoint _ _ => rcases hpoint with ⟨_, _, hevent, _⟩ | ⟨_, hevent⟩ <;> cases hevent
      | stop _ hup =>
          refine ⟨.initial ⟨hfirst, Pollers.stopping_joinTasks _ _ _⟩, ?_⟩
          cases hstaffed with
          | joining hstate _ _ _ | idle hstate _ _ => simp [hup] at hstate
          | @up old _ hposted _ htasks _ =>
              have hleft := @Pollers.ahead_joinTasks before.ids
                { before.pollers with stopping := true } before.pollers.tasks
              have hsum := Pollers.sum_ahead_of_posted hposted
              have hlength : before.pollers.tasks.length = before.ids.length := by
                rw [htasks, List.length_range']
              simp only [ahead, hids]
              simp only [hlength] at hleft
              exact hleft.trans (by omega)

/-- **`stop` returns.**  From the call of `stop` until the next `start` the pollers and `stop`
itself take at most four steps for each worker, whatever the calls do meanwhile; while no
call is in the middle of a step, `stop` has returned where they can take none, no task being
left and none at work, and they can come to that by their own steps. -/
theorem stop_ends {before first last : Polled} {events : List Event}
    (hreach : (machine config).Reachable before)
    (hstop : before.step config (.pollers .stop) = some first)
    (hrun : (goingDown config).Run first events last) :
    last.ahead + events.countP Event.ofStop ≤ 4 * before.ids.length ∧
      (last.gateway.running = none →
        ((goingDown config).Quiescent Event.ofStop last → Stopped last) ∧
        ∃ more final, (goingDown config).Run last more final ∧
          (∀ event ∈ more, event.ofStop = true) ∧ Stopped final) := by
  obtain ⟨hfirst, hbound⟩ := ahead_of_stop hreach hstop
  have hlast := hfirst.run hrun
  have hpaid : last.ahead + events.countP Event.ofStop ≤ first.ahead := by
    have hpaid := (stepsOfStop config).run hfirst hrun
    rwa [(stepsOfStop config).supplied_of_none fun _ => rfl] at hpaid
  refine ⟨hpaid.trans hbound, fun hturn => ⟨stopped_of_quiescent hlast hturn, ?_⟩⟩
  · obtain ⟨more, final, hmore, hwork, hquiet⟩ :=
      (stepsOfStop config).exists_quiescent (fun _ _ => rfl) hlast
    have hfinal := (running_of_run hlast hmore hwork).trans hturn
    exact ⟨more, final, hmore, hwork, stopped_of_quiescent (hlast.run hmore) hfinal hquiet⟩

/-- The second poller gets its answer while `stop` waits for the first one. -/
def untilJoined : List Event :=
  [.pollers (.outcome 1 .rpcFailed), .pollers (.cancelled 0), .pollers .joined]

theorem stop_ends_joined :
    let before := sample untilSleeping
    let last := sample (untilSleeping ++ [.pollers .stop] ++ untilJoined)
    last.pollers.lifespan = .joining 1 [2, 3] ∧
      last.ahead + untilJoined.countP Event.ofStop ≤ 4 * before.ids.length ∧
      (last.gateway.running = none →
        ((goingDown {}).Quiescent Event.ofStop last → Stopped last) ∧
        ∃ more final, (goingDown {}).Run last more final ∧
          (∀ event ∈ more, event.ofStop = true) ∧ Stopped final) := by
  have hstop : (machine {}).Run (sample untilSleeping) [.pollers .stop]
      (sample (untilSleeping ++ [.pollers .stop])) := Machine.run_after_append (by decide +kernel)
  have hrun : (goingDown {}).Run (sample (untilSleeping ++ [.pollers .stop])) untilJoined
      (sample (untilSleeping ++ [.pollers .stop] ++ untilJoined)) :=
    goingDown_run (Machine.run_after_append (by decide +kernel)) (by decide)
  exact ⟨by decide +kernel, stop_ends (reachable_sample untilSleeping)
    (Machine.run_singleton_iff.mp hstop) hrun⟩

end Polled
end ModelServer
