import SerialBus.Command
import SerialBus.Events
import SerialBus.Simulator.Basic

namespace SerialBus.Simulator

def decode (s : Simulator) (raw : Word) : Entry where
  raw := raw
  csid := s.csid
  len := Command.lenField.get raw + 1
  csaat := Command.csaatField.isSet raw
  speed := Command.speedField.get raw
  direction := Command.directionField.get raw

def pushCommand (s : Simulator) (raw : Word) : Simulator :=
  let e := s.decode raw
  if s.build.cmdDepth ≤ s.queue.length then s.raise Faults.cmdBusy.bits
  else if e.speed = 3 ∨ (e.direction = 3 ∧ e.speed ≠ 0) then s.raise Faults.cmdInvalid.bits
  else if s.build.lines ≤ e.csid.toNat then s.raise Faults.csidInvalid.bits
  else { s with accepted := s.accepted ++ [e], queue := s.queue ++ [e] }

def pushData (s : Simulator) (w : Word) : Simulator :=
  if s.build.txDepth ≤ s.tx.length then s.raise Faults.overflow.bits
  else { s with tx := s.tx ++ [w] }

/-- Take the oldest received word; with none there, zero is read and the fault latched. -/
def popData (s : Simulator) : Word × Simulator :=
  match s.rx with
  | w :: rest => (w, { s with rx := rest })
  | [] => (0, s.raise Faults.underflow.bits)

def softReset (s : Simulator) : Simulator :=
  { s with
    tx := [], rx := [], queue := [], current := none
    txStall := false, rxStall := false, resets := s.resets + 1 }

def isRunning (s : Simulator) : Bool :=
  Control.enable.isSet s.control && !Control.reset.isSet s.control

def takeUp (s : Simulator) : Simulator :=
  match s.current, s.queue with
  | none, e :: rest => { s with current := some ⟨e, e.len⟩, queue := rest }
  | _, _ => s

def shift (s : Simulator) (a : Active) : Shift × Simulator :=
  let sent := if a.entry.usesTx then s.tx.head? else none
  let received :=
    if a.entry.usesRx then
      some ((s.miso.head?.or (if s.loopback then sent else none)).getD 0)
    else none
  let left := a.remaining - a.entry.perTick
  ({ entry := a.entry, sent, received },
    { s with
      tx := if a.entry.usesTx then s.tx.tail else s.tx
      sent := s.sent ++ sent.toList
      miso := if a.entry.usesRx then s.miso.tail else s.miso
      rx := s.rx ++ received.toList
      txStall := false
      rxStall := false
      current := if left = 0 then none else some { a with remaining := left } })

/-- One step of the bus, with what it moved. A step that moves nothing may still take up a
    command or note a stall. -/
def step (s : Simulator) : Option Shift × Simulator :=
  if s.isRunning = false then (none, s)
  else
    let s := s.takeUp
    match s.current with
    | none => (none, s)
    | some a =>
      if a.entry.usesTx ∧ s.tx = [] then (none, { s with txStall := true })
      else if a.entry.usesRx ∧ s.build.rxDepth ≤ s.rx.length then
        (none, { s with rxStall := true })
      else
        let (moved, s) := s.shift a
        (some moved, s)

def tick (s : Simulator) : Bool × Simulator :=
  let (moved, s) := s.step
  (moved.isSome, s)

/-- Step until nothing moves, at most `limit` times; the count is of steps that moved. -/
def run : Nat → Simulator → Nat × Simulator
  | 0, s => (0, s)
  | limit + 1, s =>
    match s.tick with
    | (true, s) => let (n, s) := run limit s; (n + 1, s)
    | (false, s) => (0, s)

end SerialBus.Simulator
