import SerialBus.Engine.Basic
import SerialBus.Host.Queue

namespace SerialBus.Engine

variable {β : Type} [RegisterBlock β]

/-- Queue the segment under the cursor, which moves on only if it was taken. -/
def issueNext (e : Engine β) : Except HostError Unit × Engine β :=
  match e.running.bind fun t => t.segments[e.cursors.segment]? with
  | none => (.ok (), e)
  | some s =>
    let isLast := e.segmentCount ≤ e.cursors.segment + 1
    match e.host.setCommand (.ofSegment s !isLast) with
    | (.ok (), host) =>
      (.ok (), { e with host, cursors := { e.cursors with segment := e.cursors.segment + 1 } })
    | (.error err, host) => (.error err, { e with host })

def unsent (e : Engine β) : List Word :=
  match e.running with
  | none => []
  | some t =>
    match t.buffers.tx with
    | none => []
    | some tx => (tx.words.take t.buffers.txLen).drop e.cursors.tx

def fillTx (e : Engine β) : Engine β :=
  let (n, host) := e.host.writeWords e.unsent
  { e with host, cursors := { e.cursors with tx := e.cursors.tx + n } }

def emptyRx (e : Engine β) : Engine β :=
  match e.running with
  | none => e
  | some t =>
    match t.buffers.rx with
    | none => e
    | some rx =>
      let (ws, host) := e.host.readWords (min t.buffers.rxLen rx.size - e.cursors.rx)
      { e with
        host
        running := some
          { t with buffers := { t.buffers with rx := some (rx.store e.cursors.rx ws) } }
        cursors := { e.cursors with rx := e.cursors.rx + ws.length } }

end SerialBus.Engine
