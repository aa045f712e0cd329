import SerialBus.Controller.Basic
import SerialBus.Engine.Launch

namespace SerialBus.Controller

variable {β : Type} [RegisterBlock β]

def checkSubmit (c : Controller β) (h : Handle) (t : Transaction) :
    Except TransferError PeripheralId := do
  let id ← h.check
  let state := (c.engine id).state
  if state.isBusy then throw .busy
  if state.canLaunch = false then throw .notInit
  t.validate
  return id

def submit (c : Controller β) (h : Handle) (t : Transaction) (callbacks : Callbacks) :
    Except Failure Unit × Controller β :=
  match c.checkSubmit h t with
  | .error err => (.error ⟨err, t.buffers⟩, c)
  | .ok id =>
    match (c.engine id).setSlave h with
    | (.error err, e) => (.error ⟨err, t.buffers⟩, c.setEngine id e)
    | (.ok (), e) =>
      let (result, e) := e.launch c.settings t callbacks
      (result, c.setEngine id e)

def transmit (c : Controller β) (h : Handle) (tx : Buffer) (len : UInt32)
    (callbacks : Callbacks) : Except Failure Unit × Controller β :=
  c.submit h (.tx tx len) callbacks

def receive (c : Controller β) (h : Handle) (rx : Buffer) (len : UInt32)
    (callbacks : Callbacks) : Except Failure Unit × Controller β :=
  c.submit h (.rx rx len) callbacks

def transceive (c : Controller β) (h : Handle) (tx rx : Buffer) (len : UInt32)
    (callbacks : Callbacks) : Except Failure Unit × Controller β :=
  c.submit h (.bidir tx rx len) callbacks

def execute (c : Controller β) (h : Handle) (segments : List Segment) (tx rx : Option Buffer)
    (callbacks : Callbacks) : Except Failure Unit × Controller β :=
  match Transaction.generic segments tx rx with
  | .error failure => (.error failure, c)
  | .ok t => c.submit h t callbacks

end SerialBus.Controller
