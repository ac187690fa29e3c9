import Mathlib.Logic.Basic

/-!
# A notification with at most one waiter

`notify_one` wakes the waiter if one is registered, and otherwise leaves a
single permit behind. A waiter that was woken but has not run yet still counts:
a second `notify_one` meanwhile finds nobody registered and leaves a permit.
Dropping a woken waiter gives its wake-up back as a permit.

No signal is lost: after `notifyOne` there is one (`signalled_notifyOne`), and
a poll returns exactly when there is (`poll_fst`).
-/

namespace MqttScion.Lib

/-- Whether a permit is stored and what the waiter's state is. -/
inductive Notify
  | empty
  | permit
  | waiting
  | woken
  | wokenPermit
  deriving DecidableEq, Repr

namespace Notify

def notifyOne : Notify → Notify
  | .empty => .permit
  | .permit => .permit
  | .waiting => .woken
  | .woken => .wokenPermit
  | .wokenPermit => .wokenPermit

/-- Poll the waiter: whether it returns, and the state afterwards. The first
poll takes a stored permit or registers. -/
def poll : Notify → Bool × Notify
  | .empty => (false, .waiting)
  | .permit => (true, .empty)
  | .waiting => (false, .waiting)
  | .woken => (true, .empty)
  | .wokenPermit => (true, .permit)

/-- The waiter's future is dropped. -/
def dropWaiter : Notify → Notify
  | .waiting => .empty
  | .woken => .permit
  | .wokenPermit => .permit
  | n => n

/-- The next poll returns. -/
def signalled : Notify → Bool
  | .empty => false
  | .waiting => false
  | _ => true

@[simp] theorem signalled_notifyOne (n : Notify) : n.notifyOne.signalled = true := by
  cases n <;> rfl

@[simp] theorem poll_fst (n : Notify) : n.poll.1 = n.signalled := by
  cases n <;> rfl

/-- A poll takes a signal, and brings none. -/
theorem signalled_of_poll {n : Notify} (h : n.poll.2.signalled = true) : n.signalled = true := by
  cases n with
  | empty => exact h
  | waiting => exact h
  | _ => rfl

end Notify

end MqttScion.Lib
