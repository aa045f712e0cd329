import SerialBus.Register

namespace SerialBus

namespace Simulator

structure Build where
  lines : Nat := 2
  txDepth : Nat := 72
  rxDepth : Nat := 64
  cmdDepth : Nat := 4
  bigEndian : Bool := false
  deriving DecidableEq, Repr

/-- A command as the block decoded it, with the chip select chosen when it was written. -/
structure Entry where
  raw : Word
  csid : Word
  len : Nat
  csaat : Bool
  speed : Nat
  direction : Nat
  deriving DecidableEq, Repr

/-- The command being carried out and how much of its length is left. -/
structure Active where
  entry : Entry
  remaining : Nat
  deriving DecidableEq, Repr

structure Shift where
  entry : Entry
  sent : Option Word
  received : Option Word
  deriving DecidableEq, Repr

namespace Entry

def usesTx (e : Entry) : Bool := e.direction == 2 || e.direction == 3

def usesRx (e : Entry) : Bool := e.direction == 1 || e.direction == 3

/-- Length that one tick works off: a word of four bytes, or eight cycles with no data. -/
def perTick (e : Entry) : Nat := if e.direction = 0 then 8 else 4

end Entry

end Simulator

structure Simulator where
  build : Simulator.Build
  control : Word := 0
  options : List Word
  csid : Word := 0
  intrEnable : Word := 0
  intrLatched : Word := 0
  errorEnable : Word := 0
  errorStatus : Word := 0
  eventEnable : Word := 0
  tx : List Word := []
  rx : List Word := []
  queue : List Simulator.Entry := []
  current : Option Simulator.Active := none
  txStall : Bool := false
  rxStall : Bool := false
  miso : List Word := []
  loopback : Bool := false
  sent : List Word := []
  accepted : List Simulator.Entry := []
  writes : List (Register × Word) := []
  alerts : Nat := 0
  resets : Nat := 0
  deriving DecidableEq, Repr

namespace Simulator

def fresh (build : Build) : Simulator :=
  { build, options := List.replicate build.lines 0 }

def raise (s : Simulator) (bits : Word) : Simulator :=
  { s with errorStatus := s.errorStatus ||| bits }

-- The far end of the bus. What is received comes from a script, then from what is sent if the
-- lines are looped back, then it is zero.

def pushMiso (s : Simulator) (ws : List Word) : Simulator :=
  { s with miso := s.miso ++ ws }

def setLoopback (s : Simulator) (on : Bool) : Simulator :=
  { s with loopback := on }

def writesTo (s : Simulator) (r : Register) : Nat :=
  s.writes.countP fun (reg, _) => reg = r

end Simulator

end SerialBus
