import SerialBus.Host.Error
import SerialBus.Segment
import SerialBus.Word

namespace SerialBus

structure Command where
  direction : Direction
  speed : Speed
  len : UInt32
  csaat : Bool := false
  deriving DecidableEq, Repr

namespace Command

def lenField : Field := ⟨0, 24⟩

def csaatField : Field := ⟨24, 1⟩

def speedField : Field := ⟨25, 2⟩

def directionField : Field := ⟨27, 2⟩

def codesAllowed (direction speed : Nat) : Bool :=
  speed ≤ Speed.quad.code && (direction != Direction.bidir.code || speed == Speed.standard.code)

def ofSegment (s : Segment) (csaat : Bool) : Command :=
  { direction := s.direction, speed := s.speed, len := s.len, csaat }

def validate (c : Command) : Except HostError Unit :=
  if c.len = 0 ∨ Segment.maxLen < c.len then .error .lengthInvalid
  else if c.direction.allows c.speed = false then .error .speedInvalid
  else .ok ()

def toWord (c : Command) : Word :=
  (0 : Word)
    |> lenField.put (c.len - 1).toNat
    |> csaatField.putBit c.csaat
    |> speedField.put c.speed.code
    |> directionField.put c.direction.code

def ofWord? (w : Word) : Option Command := do
  let speed ← Speed.ofCode? (speedField.get w)
  let direction ← Direction.ofCode? (directionField.get w)
  return { direction, speed, len := UInt32.ofNat (lenField.get w + 1), csaat := csaatField.isSet w }

end Command

end SerialBus
