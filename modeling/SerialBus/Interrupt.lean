import SerialBus.Host.Switches
import SerialBus.Peripheral

namespace SerialBus

structure Interrupt where
  events : Events := .empty
  faults : Faults := .empty
  deriving DecidableEq, Repr

namespace Interrupt

inductive Call
  | event (id : PeripheralId) (events : Events)
  | fault (id : PeripheralId) (faults : Faults)
  deriving DecidableEq, Repr

def isEmpty (i : Interrupt) : Bool := i.events.isEmpty && i.faults.isEmpty

/-- Read the cause of the pending interrupt and acknowledge it. Latched faults are cleared
    before the interrupt itself, so that they do not raise it again at once. -/
def take {β : Type} [RegisterBlock β] (h : Host β) : Interrupt × Host β :=
  let (pending, h) := h.intrPending
  let (events, h) : Events × Host β :=
    if Intr.event.isSet pending then h.pendingEvents else (.empty, h)
  let (faults, h) : Faults × Host β :=
    if Intr.error.isSet pending then
      let (faults, h) := h.faults
      (faults, h.acknowledgeFaults)
    else (.empty, h)
  let h := if pending ≠ 0 then h.acknowledgeIntr pending else h
  ({ events, faults }, h)

def calls (i : Interrupt) (id : PeripheralId) : List Call :=
  (if i.faults.isEmpty then [] else [.fault id i.faults]) ++
    (if i.events.isEmpty then [] else [.event id i.events])

end Interrupt

end SerialBus
