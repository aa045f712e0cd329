import SerialBus.Controller.Basic
import SerialBus.Host.Control
import SerialBus.Host.Switches

namespace SerialBus.Controller

variable {β : Type} [RegisterBlock β]

def enableHost (host : Host β) : Except HostError Unit × Host β :=
  Host.andThen ((host.setEnable true).setOutputEnable true |>.setFaultsEnabled
    Faults.interrupting true) fun host => (.ok (), (host.setErrorIntr true).status.2)

def init (c : Controller β) (id : PeripheralId) (slave : Slave) :
    Except TransferError Handle × Controller β :=
  let e := c.engine id
  match slave.validate e.host.limits.lines c.settings.clock with
  | .error err => (.error (.ofSlave err), c)
  | .ok divider =>
    match enableHost e.host with
    | (.error err, host) => (.error (.host err), c.setEngine id { e with host })
    | (.ok (), host) =>
      (.ok { id := some id, isInit := true, slave := slave.realized c.settings.clock divider,
             divider },
        c.setEngine id ({ e with host }.reach .initialized))

def initIndex (c : Controller β) (index : Nat) (slave : Slave) :
    Except TransferError Handle × Controller β :=
  match PeripheralId.ofIndex? index with
  | none => (.error .indexInvalid, c)
  | some id => c.init id slave

/-- The handle that takes the place of `h`, which must not be in use. -/
def initInto (c : Controller β) (h : Handle) (id : PeripheralId) (slave : Slave) :
    Except TransferError Handle × Controller β :=
  if h.isInit then (.error .alreadyInit, c) else c.init id slave

def deinit (_ : Handle) : Handle := .blank

/-- Reset the hardware of a block. The engine is not told. -/
def reset (c : Controller β) (h : Handle) : Except TransferError Unit × Controller β :=
  match h.check with
  | .error e => (.error e, c)
  | .ok id =>
    let ((), c) := c.onHost id fun host => ((), host.softReset)
    (.ok (), c)

end SerialBus.Controller
