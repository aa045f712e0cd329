import SerialBus.Controller.Transfer
import SerialBus.Wait

namespace SerialBus.Blocking

variable {β ω : Type} [RegisterBlock β]

/-- The outcome of the transaction of a handle once it no longer runs. That there is none then
    means that someone else took it. -/
def collect (c : Controller β) (h : Handle) :
    Option (Except TransferError Completion) × Controller β :=
  match c.stateOf h with
  | .error e => (some (.error e), c)
  | .ok state =>
    if state.isBusy then (none, c)
    else
      match c.takeCompletion h with
      | (.ok (some done), c) => (some (.ok done), c)
      | (.ok none, c) => (some (.error .busy), c)
      | (.error e, c) => (some (.error e), c)

def result : Option (Except TransferError Completion) → Except Failure Buffers
  | some (.ok ⟨.ok (), buffers⟩) => .ok buffers
  | some (.ok ⟨.error faults, buffers⟩) => .error ⟨.hardware faults, buffers⟩
  | some (.error e) => .error ⟨e, {}⟩
  | none => .error ⟨.busy, {}⟩

def run (w : Wait (Controller β × ω)) (h : Handle) (t : Transaction) (s : Controller β × ω) :
    Except Failure Buffers × Controller β × ω :=
  let (c, o) := s
  match c.submit h t {} with
  | (.error failure, c) => (.error failure, c, o)
  | (.ok (), c) =>
    let (collected, s) := w.poll (fun (c, o) => let (r, c) := collect c h; (r, c, o)) (c, o)
    (result collected, s)

def transmit (w : Wait (Controller β × ω)) (h : Handle) (tx : Buffer) (len : UInt32)
    (s : Controller β × ω) : Except Failure Buffers × Controller β × ω :=
  run w h (.tx tx len) s

def receive (w : Wait (Controller β × ω)) (h : Handle) (rx : Buffer) (len : UInt32)
    (s : Controller β × ω) : Except Failure Buffers × Controller β × ω :=
  run w h (.rx rx len) s

def transceive (w : Wait (Controller β × ω)) (h : Handle) (tx rx : Buffer) (len : UInt32)
    (s : Controller β × ω) : Except Failure Buffers × Controller β × ω :=
  run w h (.bidir tx rx len) s

def execute (w : Wait (Controller β × ω)) (h : Handle) (segments : List Segment)
    (tx rx : Option Buffer) (s : Controller β × ω) : Except Failure Buffers × Controller β × ω :=
  match Transaction.generic segments tx rx with
  | .error failure => (.error failure, s)
  | .ok t => run w h t s

end SerialBus.Blocking
