import Mathlib.Data.Int.Notation
import Mathlib.Data.List.Basic

/-!
# The primitives of an asyncio event loop

One event loop runs one coroutine at a time, and only an `await` that suspends
lets another one run.  The three primitives below are what such coroutines
share; each operation is the part of it that runs without suspending.

* `Future` is settled at most once: `setResult` and `setException` have no
  result on a settled future, where asyncio raises `InvalidStateError`, and
  `cancel` leaves a settled future alone.
* `Queue.putNowait` fails on a full queue.  As in asyncio a `maxsize` that is
  not positive means no bound.
* `Lock.acquire` succeeds without suspending exactly if the lock is free and no
  earlier task is waiting for it.
-/

namespace Asyncio

/-! ## Futures -/

inductive Future (α ε : Type*)
  | pending
  | result (value : α)
  | exception (error : ε)
  | cancelled
  deriving DecidableEq, Repr

namespace Future

variable {α ε : Type*}

def done : Future α ε → Bool
  | pending => false
  | _ => true

/-- `None` where asyncio raises `InvalidStateError`. -/
def setResult (future : Future α ε) (value : α) : Option (Future α ε) :=
  if future.done then none else some (result value)

/-- `None` where asyncio raises `InvalidStateError`. -/
def setException (future : Future α ε) (error : ε) : Option (Future α ε) :=
  if future.done then none else some (exception error)

def cancel (future : Future α ε) : Future α ε :=
  if future.done then future else cancelled

@[simp] theorem done_pending : (pending : Future α ε).done = false := rfl
@[simp] theorem done_result (value : α) : (result value : Future α ε).done = true := rfl
@[simp] theorem done_exception (error : ε) : (exception error : Future α ε).done = true := rfl
@[simp] theorem done_cancelled : (cancelled : Future α ε).done = true := rfl

theorem done_eq_false_iff {future : Future α ε} : future.done = false ↔ future = pending := by
  cases future <;> simp

@[simp] theorem done_cancel (future : Future α ε) : future.cancel.done = true := by
  cases future <;> rfl

theorem cancel_eq_result {future : Future α ε} {value : α} :
    future.cancel = result value ↔ future = result value := by
  cases future <;> simp [cancel]

@[simp] theorem setResult_pending (value : α) :
    (pending : Future α ε).setResult value = some (result value) := rfl

@[simp] theorem setException_pending (error : ε) :
    (pending : Future α ε).setException error = some (exception error) := rfl

end Future

/-! ## Bounded queues -/

structure Queue (α : Type*) where
  maxsize : ℤ
  items : List α := []

namespace Queue

variable {α : Type*}

def qsize (queue : Queue α) : ℕ := queue.items.length

def full (queue : Queue α) : Bool := decide (0 < queue.maxsize ∧ queue.maxsize ≤ queue.qsize)

/-- `None` where asyncio raises `QueueFull`. -/
def putNowait (queue : Queue α) (item : α) : Option (Queue α) :=
  if queue.full then none else some { queue with items := queue.items ++ [item] }

end Queue

/-! ## Locks -/

structure Lock (Task : Type*) where
  locked : Bool := false
  waiters : List Task := []

namespace Lock

variable {Task : Type*}

/-- A lock that nobody holds and nobody waits for. -/
def Free (lock : Lock Task) : Prop := lock.locked = false ∧ lock.waiters = []

/-- The lock once acquired, or `none` where `acquire` has to suspend. -/
def acquire (lock : Lock Task) : Option (Lock Task) :=
  if lock.locked = false ∧ lock.waiters.isEmpty then some { lock with locked := true } else none

/-- `task` starts waiting. -/
def enqueue (lock : Lock Task) (task : Task) : Lock Task :=
  { lock with waiters := lock.waiters ++ [task] }

/-- The first waiter is resumed and takes the lock. -/
def grant [DecidableEq Task] (lock : Lock Task) (task : Task) : Option (Lock Task) :=
  if lock.locked = false ∧ lock.waiters.head? = some task then
    some { locked := true, waiters := lock.waiters.tail }
  else none

/-- `task` is cancelled while it waits. -/
def abandon [DecidableEq Task] (lock : Lock Task) (task : Task) : Lock Task :=
  { lock with waiters := lock.waiters.erase task }

def release (lock : Lock Task) : Lock Task := { lock with locked := false }

/-- On a free lock `acquire` does not suspend. -/
theorem acquire_of_free {lock : Lock Task} (h : lock.Free) :
    lock.acquire = some { lock with locked := true } := by
  simp [acquire, h.1, h.2]

end Lock
end Asyncio
