import SerialBus.Engine.Outcome

namespace SerialBus.Engine

variable {β : Type} [RegisterBlock β]

def notifyTxWatermark (e : Engine β) : Engine β :=
  match e.callbacks.onTxWatermark, e.running with
  | some routine, some t => e.notify (.txWatermark routine e.id t.buffers e.cursors)
  | _, _ => e

def notifyRxWatermark (e : Engine β) : Engine β :=
  match e.callbacks.onRxWatermark, e.running with
  | some routine, some t => e.notify (.rxWatermark routine e.id t.buffers e.cursors)
  | _, _ => e

def serveQueues (e : Engine β) (events : Events) : Engine β :=
  let e := if events.contains Events.txWatermark then e.fillTx.notifyTxWatermark else e
  if events.contains Events.rxWatermark then e.emptyRx.notifyRxWatermark else e

/-- Drive the running transaction on; without one, events mean nothing. -/
def onEvent (e : Engine β) (events : Events) : Engine β :=
  if e.state.isBusy = false then e
  else if events.contains Events.ready = false then e.serveQueues events
  else if e.cursors.segment < e.segmentCount then
    match e.issueNext with
    | (.ok (), e) => e.serveQueues events
    | (.error err, e) =>
      if err.isTransient then e.serveQueues events else e.abort Faults.cmdInvalid
  else if events.contains Events.idle then e.complete
  else e.serveQueues events

def onFault (e : Engine β) (faults : Faults) : Engine β :=
  if e.state.isBusy then e.abort faults else e

end SerialBus.Engine
