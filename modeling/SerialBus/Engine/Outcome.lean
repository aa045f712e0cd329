import SerialBus.Engine.Feed
import SerialBus.Host.Switches

namespace SerialBus.Engine

variable {β : Type} [RegisterBlock β]

def quiesce (e : Engine β) : Engine β :=
  { e with host := e.host.disableEvents.setEventIntr false }

def release (e : Engine β) : Buffers × Engine β :=
  let buffers := match e.running with
    | some t => t.buffers
    | none => {}
  (buffers, { e with running := none, cursors := {}, callbacks := {} })

def complete (e : Engine β) : Engine β :=
  let e := (e.quiesce.emptyRx).reach .completed
  let onDone := e.callbacks.onDone
  let (buffers, e) := e.release
  let e := match onDone with
    | some routine => e.notify (.done routine e.id buffers)
    | none => e.park { outcome := .ok (), buffers }
  e.reach .settled

def abort (e : Engine β) (faults : Faults) : Engine β :=
  let e := e.quiesce.reach .aborted
  let onError := e.callbacks.onError
  let (buffers, e) := e.release
  let e := match onError with
    | some routine => e.notify (.failed routine e.id faults buffers)
    | none => e.park { outcome := .error faults, buffers }
  e.reach .settled

end SerialBus.Engine
