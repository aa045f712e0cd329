import SerialBus.Clock

namespace SerialBus

inductive Polarity
  | idleLow
  | idleHigh
  deriving DecidableEq, Repr

inductive Phase
  | first
  | second
  deriving DecidableEq, Repr

inductive Mode
  | mode0
  | mode1
  | mode2
  | mode3
  deriving DecidableEq, Repr

namespace Mode

def polarity : Mode → Polarity
  | mode0 | mode1 => .idleLow
  | mode2 | mode3 => .idleHigh

def phase : Mode → Phase
  | mode0 | mode2 => .first
  | mode1 | mode3 => .second

def of : Polarity → Phase → Mode
  | .idleLow, .first => mode0
  | .idleLow, .second => mode1
  | .idleHigh, .first => mode2
  | .idleHigh, .second => mode3

theorem of_polarity_phase (m : Mode) : of m.polarity m.phase = m := by
  cases m <;> rfl

end Mode

/-- A device: its chip-select line, clock rate, mode and chip-select timing in half cycles. -/
structure Slave where
  csid : UInt8 := 0
  freq : UInt32 := 0
  polarity : Polarity := .idleLow
  phase : Phase := .first
  idle : UInt8 := 0
  lead : UInt8 := 0
  trail : UInt8 := 0
  fullCycle : Bool := false
  deriving DecidableEq, Repr

inductive SlaveError
  | csidInvalid
  | frequency (cause : ClockError)
  | timingInvalid
  deriving DecidableEq, Repr

namespace Slave

def timingMax : UInt8 := 15

def withMode (s : Slave) (m : Mode) : Slave :=
  { s with polarity := m.polarity, phase := m.phase }

def mode (s : Slave) : Mode := .of s.polarity s.phase

/-- The divider for the slave on a host with `lines` chip selects. The line is checked before
    the timing and the timing before the rate. -/
def validate (s : Slave) (lines : UInt8) (sys : UInt32) : Except SlaveError UInt16 :=
  if lines ≤ s.csid then .error .csidInvalid
  else if timingMax < s.idle ∨ timingMax < s.lead ∨ timingMax < s.trail then .error .timingInvalid
  else (Clock.divider sys s.freq).mapError .frequency

def realized (s : Slave) (sys : UInt32) (d : UInt16) : Slave :=
  { s with freq := Clock.realized sys d }

end Slave

end SerialBus
