import SerialBus.Simulator.Basic
import SerialBus.Status

namespace SerialBus.Simulator

def isActive (s : Simulator) : Bool :=
  s.current.isSome || !s.queue.isEmpty

def status (s : Simulator) : Word :=
  (0 : Word)
    |> Status.txLevelField.put s.tx.length
    |> Status.rxLevelField.put s.rx.length
    |> Status.cmdLevelField.put s.queue.length
    |> Status.rxWatermarkField.putBit (Control.rxWatermark.get s.control ≤ s.rx.length)
    |> Status.byteOrderField.putBit s.build.bigEndian
    |> Status.rxStallField.putBit s.rxStall
    |> Status.rxEmptyField.putBit s.rx.isEmpty
    |> Status.rxFullField.putBit (s.build.rxDepth ≤ s.rx.length)
    |> Status.txWatermarkField.putBit (s.tx.length < Control.txWatermark.get s.control)
    |> Status.txStallField.putBit s.txStall
    |> Status.txEmptyField.putBit s.tx.isEmpty
    |> Status.txFullField.putBit (s.build.txDepth ≤ s.tx.length)
    |> Status.activeField.putBit s.isActive
    |> Status.readyField.putBit (s.queue.length < s.build.cmdDepth)

def eventLevels (s : Simulator) : Word :=
  let w := s.status
  (0 : Word)
    |> EventEnable.rxFull.putBit (Status.rxFullField.isSet w)
    |> EventEnable.txEmpty.putBit (Status.txEmptyField.isSet w)
    |> EventEnable.rxWatermark.putBit (Status.rxWatermarkField.isSet w)
    |> EventEnable.txWatermark.putBit (Status.txWatermarkField.isSet w)
    |> EventEnable.ready.putBit (Status.readyField.isSet w)
    |> EventEnable.idle.putBit (!Status.activeField.isSet w)

/-- Latched interrupts and the two lines that follow their causes. -/
def intrState (s : Simulator) : Word :=
  let fault := if s.errorStatus &&& s.errorEnable ≠ 0 then Intr.error.flag else 0
  let event := if s.eventLevels &&& s.eventEnable ≠ 0 then Intr.event.flag else 0
  s.intrLatched ||| fault ||| event

def irqPending (s : Simulator) : Bool :=
  s.intrState &&& s.intrEnable != 0

end SerialBus.Simulator
