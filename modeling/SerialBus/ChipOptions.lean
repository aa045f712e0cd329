import SerialBus.Slave
import SerialBus.Word

namespace SerialBus

structure ChipOptions where
  clkdiv : UInt16 := 0
  idle : UInt8 := 0
  trail : UInt8 := 0
  lead : UInt8 := 0
  fullCycle : Bool := false
  cpha : Bool := false
  cpol : Bool := false
  deriving DecidableEq, Repr

namespace ChipOptions

def clkdivField : Field := ⟨0, 16⟩

def idleField : Field := ⟨16, 4⟩

def trailField : Field := ⟨20, 4⟩

def leadField : Field := ⟨24, 4⟩

def fullCycleField : Field := ⟨29, 1⟩

def cphaField : Field := ⟨30, 1⟩

def cpolField : Field := ⟨31, 1⟩

def ofSlave (s : Slave) (clkdiv : UInt16) : ChipOptions where
  clkdiv := clkdiv
  idle := s.idle
  trail := s.trail
  lead := s.lead
  fullCycle := s.fullCycle
  cpha := s.phase = .second
  cpol := s.polarity = .idleHigh

def toWord (o : ChipOptions) : Word :=
  (0 : Word)
    |> clkdivField.put o.clkdiv.toNat
    |> idleField.put o.idle.toNat
    |> trailField.put o.trail.toNat
    |> leadField.put o.lead.toNat
    |> fullCycleField.putBit o.fullCycle
    |> cphaField.putBit o.cpha
    |> cpolField.putBit o.cpol

def ofWord (w : Word) : ChipOptions where
  clkdiv := UInt16.ofNat (clkdivField.get w)
  idle := UInt8.ofNat (idleField.get w)
  trail := UInt8.ofNat (trailField.get w)
  lead := UInt8.ofNat (leadField.get w)
  fullCycle := fullCycleField.isSet w
  cpha := cphaField.isSet w
  cpol := cpolField.isSet w

end ChipOptions

end SerialBus
