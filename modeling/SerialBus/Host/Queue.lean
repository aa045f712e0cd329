import SerialBus.Command
import SerialBus.Host.Basic

namespace SerialBus.Host

variable {β : Type} [RegisterBlock β]

def checkQueue (h : Host β) : Except HostError Unit × Host β :=
  let (s, h) := h.status
  if h.limits.cmdDepth.toNat ≤ s.cmdLevel then (.error .commandFull, h)
  else if s.isReady = false then (.error .notReady, h)
  else (.ok (), h)

def queueWord (h : Host β) (w : Word) : Except HostError Unit × Host β :=
  match h.checkQueue with
  | (.ok (), h) => (.ok (), h.write .command w)
  | (.error e, h) => (.error e, h)

def setCommand (h : Host β) (c : Command) : Except HostError Unit × Host β :=
  match c.validate with
  | .error e => (.error e, h)
  | .ok () => h.queueWord c.toWord

def setCommandWord (h : Host β) (w : Word) : Except HostError Unit × Host β :=
  if Command.codesAllowed (Command.directionField.get w) (Command.speedField.get w) then
    h.queueWord w
  else (.error .speedInvalid, h)

def writeWord (h : Host β) (w : Word) : Except HostError Unit × Host β :=
  let (s, h) := h.status
  if s.tx.isFull then (.error .txQueueFull, h)
  else (.ok (), h.write .txData w)

def writeByte (h : Host β) (b : Byte) : Except HostError Unit × Host β :=
  let (s, h) := h.status
  if s.tx.isFull then (.error .txQueueFull, h)
  else (.ok (), { h with block := RegisterBlock.writeByte .txData b h.block })

def readWord (h : Host β) : Except HostError Word × Host β :=
  let (s, h) := h.status
  if s.rx.isEmpty then (.error .rxQueueEmpty, h)
  else
    let (w, h) := h.read .rxData
    (.ok w, h)

def writeWords (h : Host β) : List Word → Nat × Host β
  | [] => (0, h)
  | w :: rest =>
    match h.writeWord w with
    | (.ok (), h) => let (n, h) := h.writeWords rest; (n + 1, h)
    | (.error _, h) => (0, h)

def readWords (h : Host β) : Nat → List Word × Host β
  | 0 => ([], h)
  | n + 1 =>
    match h.readWord with
    | (.ok w, h) => let (ws, h) := h.readWords n; (w :: ws, h)
    | (.error _, h) => ([], h)

end SerialBus.Host
