namespace SerialBus

inductive Lifecycle
  | none
  | init
  | busy
  | done
  | error
  deriving DecidableEq, Repr

inductive Milestone
  | initialized
  | launched
  | completed
  | aborted
  | settled
  deriving DecidableEq, Repr

namespace Lifecycle

def isBusy : Lifecycle → Bool
  | busy => true
  | _ => false

def canLaunch : Lifecycle → Bool
  | init | done | error => true
  | _ => false

theorem isBusy_iff (s : Lifecycle) : s.isBusy = true ↔ s = busy := by
  cases s <;> simp [isBusy]

theorem isBusy_eq_false_iff (s : Lifecycle) : s.isBusy = false ↔ s ≠ busy := by
  cases s <;> simp [isBusy]

/-- The state after a milestone; one that does not apply changes nothing. -/
def next : Lifecycle → Milestone → Lifecycle
  | busy, .initialized => busy
  | _, .initialized => init
  | init, .launched | done, .launched | error, .launched => busy
  | busy, .completed => done
  | busy, .aborted => error
  | done, .settled | error, .settled => init
  | s, _ => s

theorem next_launched (s : Lifecycle) (free : s.canLaunch = true) : s.next .launched = busy := by
  revert free
  cases s <;> decide

end Lifecycle

end SerialBus
