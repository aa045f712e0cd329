import SerialBus.Board.Basic
import SerialBus.Engine.Basic
import SerialBus.Handle

namespace SerialBus

structure Controller (β : Type) where
  engines : Trio (Engine β)
  settings : Settings

namespace Controller

variable {α β : Type}

def new (blocks : Trio β) (board : Board) : Except ConfigError (Controller β) := do
  board.validate
  return {
    engines := .ofFn fun id => { id, host := ⟨blocks.get id, board.hosts.get id⟩ }
    settings := board.settings }

def ofSettings (blocks : Trio β) (settings : Settings) : Except ConfigError (Controller β) :=
  new blocks { settings }

def engine (c : Controller β) (id : PeripheralId) : Engine β := c.engines.get id

def setEngine (c : Controller β) (id : PeripheralId) (e : Engine β) : Controller β :=
  { c with engines := c.engines.set id e }

def onHost (c : Controller β) (id : PeripheralId) (f : Host β → α × Host β) : α × Controller β :=
  let e := c.engine id
  let (a, host) := f e.host
  (a, c.setEngine id { e with host })

def stateOf (c : Controller β) (h : Handle) : Except TransferError Lifecycle :=
  h.check.map fun id => (c.engine id).state

def runtime (c : Controller β) (id : PeripheralId) : Engine.Runtime := (c.engine id).runtime

/-- The outcome of the last transaction that nobody was told about. -/
def takeCompletion (c : Controller β) (h : Handle) :
    Except TransferError (Option Completion) × Controller β :=
  match h.check with
  | .error e => (.error e, c)
  | .ok id =>
    let (done, e) := (c.engine id).takeCompletion
    (.ok done, c.setEngine id e)

end Controller

end SerialBus
