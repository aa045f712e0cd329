namespace SerialBus

inductive ClockError
  | zero
  | tooLow
  | tooHigh
  deriving DecidableEq, Repr

namespace Clock

def dividerSteps : Nat := 65536

def ceilDiv (a b : Nat) : Nat := (a + (b - 1)) / b

def minFrequency (sys : UInt32) : UInt32 :=
  UInt32.ofNat (ceilDiv sys.toNat (2 * dividerSteps))

def maxFrequency (sys : UInt32) : UInt32 := sys / 2

def divider (sys freq : UInt32) : Except ClockError UInt16 :=
  if sys = 0 ∨ freq = 0 then .error .zero
  else if sys.toNat < 2 * freq.toNat then .error .tooHigh
  else if 2 * freq.toNat * dividerSteps < sys.toNat then .error .tooLow
  else .ok (UInt16.ofNat (ceilDiv sys.toNat (2 * freq.toNat) - 1))

def realized (sys : UInt32) (d : UInt16) : UInt32 :=
  UInt32.ofNat (sys.toNat / (2 * (d.toNat + 1)))

end Clock

end SerialBus
