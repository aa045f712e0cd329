import SerialBus.Board.Settings
import SerialBus.Engine.Outcome
import SerialBus.Handle
import SerialBus.Host.Condition
import SerialBus.Host.Control

namespace SerialBus.Engine

variable {β : Type} [RegisterBlock β]

def drivingEvents : Events :=
  Events.idle.union (Events.ready.union (Events.txWatermark.union Events.rxWatermark))

def slaveError : HostError → TransferError
  | .csidInvalid => .slaveCsidInvalid
  | e => .host e

/-- Choose a slave's options and chip select; what is already there is not written again. -/
def selectSlave (host : Host β) (slave : Slave) (divider : UInt16) :
    Except HostError Unit × Host β :=
  let csid : Word := slave.csid.toBitVec.setWidth 32
  let wanted := ChipOptions.ofSlave slave divider
  match host.chipOptions csid with
  | (.error e, host) => (.error e, host)
  | (.ok current, host) =>
    Host.andThen (if current = wanted then (.ok (), host) else host.setChipOptions csid wanted)
      fun host =>
        let (now, host) := host.csid
        if now = csid then (.ok (), host) else host.setCsid csid

def setSlave (e : Engine β) (h : Handle) : Except TransferError Unit × Engine β :=
  let (s, host) := e.host.status
  if s.isActive then (.error .notIdle, { e with host })
  else
    match selectSlave host h.slave h.divider with
    | (.ok (), host) => (.ok (), { e with host })
    | (.error err, host) => (.error (slaveError err), { e with host })

def prepare (host : Host β) (settings : Settings) : Except HostError Unit × Host β :=
  let l := host.limits
  Host.andThen (host.setTxWatermark (settings.txWatermark l)) fun host =>
    Host.andThen (host.setRxWatermark (settings.rxWatermark l)) fun host =>
      host.setEventsEnabled drivingEvents true

def start (e : Engine β) (t : Transaction) (callbacks : Callbacks) : Engine β :=
  let e := { e.reach .launched with running := some t, callbacks, cursors := {} }
  let e := e.fillTx
  let host := e.host.setEventIntr true
  let wait := Wait.spin (RegisterBlock.patience host.block)
  -- a block that is still not ready is left to the ready event
  { e with host := (wait.poll (Host.look .ready) host).2 }

/-- Start a transaction that has been checked. If the block refuses its first segment for good,
    the buffers come back and the engine is as before. -/
def launch (e : Engine β) (settings : Settings) (t : Transaction) (callbacks : Callbacks) :
    Except Failure Unit × Engine β :=
  match prepare e.host settings with
  | (.error err, host) => (.error ⟨.host err, t.buffers⟩, { e with host })
  | (.ok (), host) =>
    match ({ e with host }.start t callbacks).issueNext with
    | (.ok (), e) => (.ok (), e)
    | (.error err, e) =>
      if err.isTransient then (.ok (), e)
      else
        let (buffers, e) := (e.quiesce.reach .aborted).release
        (.error ⟨.host err, buffers⟩, e.reach .settled)

end SerialBus.Engine
