namespace SerialBus

inductive ConfigError
  | zeroClock
  | linesInvalid
  | depthInvalid
  | watermarkExceeds
  | unreadable
  deriving DecidableEq, Repr

/-- Chip-select lines and queue depths of one host block, as its driver knows them. -/
structure Limits where
  lines : UInt8 := 2
  txDepth : UInt8 := 72
  rxDepth : UInt8 := 64
  cmdDepth : UInt8 := 4
  deriving DecidableEq, Repr

namespace Limits

def maxLines : UInt8 := 2

def maxCmdDepth : UInt8 := 15

def validate (l : Limits) : Except ConfigError Unit :=
  if l.lines = 0 ∨ maxLines < l.lines then .error .linesInvalid
  else if l.txDepth = 0 ∨ l.rxDepth = 0 ∨ l.cmdDepth = 0 ∨ maxCmdDepth < l.cmdDepth then
    .error .depthInvalid
  else .ok ()

end Limits

end SerialBus
