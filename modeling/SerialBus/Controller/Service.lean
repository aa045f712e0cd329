import SerialBus.Controller.Basic
import SerialBus.Engine.Drive
import SerialBus.Interrupt

namespace SerialBus.Controller

variable {β : Type} [RegisterBlock β]

def onEvent (c : Controller β) (id : PeripheralId) (events : Events) : Controller β :=
  c.setEngine id ((c.engine id).onEvent events)

def onFault (c : Controller β) (id : PeripheralId) (faults : Faults) : Controller β :=
  c.setEngine id ((c.engine id).onFault faults)

def answer (c : Controller β) : Interrupt.Call → Controller β
  | .event id events => c.onEvent id events
  | .fault id faults => c.onFault id faults

/-- Serve the interrupt of a block; nothing happens if none is pending. -/
def handleIrq (c : Controller β) (id : PeripheralId) : Controller β :=
  let (irq, c) := c.onHost id Interrupt.take
  (irq.calls id).foldl answer c

def moveBlock (c : Controller β) (id : PeripheralId) (move : β → β) : Controller β :=
  (c.onHost id fun h => ((), { h with block := move h.block })).2

def serve (line : β → Bool) (c : Controller β) (id : PeripheralId) : Controller β :=
  if line (c.engine id).host.block then c.handleIrq id else c

/-- Serve, and let the hardware make its `n`-th move, until the transaction of a block has ended
    or `limit` moves are made; the moves are counted from `n`. -/
def pumpFrom (line : β → Bool) (move : Nat → β → β) (id : PeripheralId) :
    Nat → Nat → Controller β → Nat × Controller β
  | n, limit, c =>
    let c := c.serve line id
    match limit with
    | 0 => (n, c)
    | limit + 1 =>
      if (c.engine id).state.isBusy then
        pumpFrom line move id (n + 1) limit (c.moveBlock id (move (n + 1)))
      else (n, c)

def pump (line : β → Bool) (move : Nat → β → β) (id : PeripheralId) (limit : Nat)
    (c : Controller β) : Nat × Controller β :=
  pumpFrom line move id 0 limit c

end SerialBus.Controller
