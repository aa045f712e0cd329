namespace SerialBus

inductive HostError
  | watermarkExceeds
  | csidInvalid
  | commandFull
  | speedInvalid
  | lengthInvalid
  | txQueueFull
  | rxQueueEmpty
  | notReady
  | eventInvalid
  | errorInvalid
  deriving DecidableEq, Repr

/-- The same request can succeed once the hardware has moved on. -/
def HostError.isTransient : HostError → Bool
  | commandFull | notReady | txQueueFull | rxQueueEmpty => true
  | _ => false

end SerialBus
