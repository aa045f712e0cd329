import SerialBus.Peripheral
import SerialBus.Transfer.Buffers

namespace SerialBus

/-- How far a running transaction has come: segments issued, words queued and words taken. -/
structure Cursors where
  segment : Nat := 0
  tx : Nat := 0
  rx : Nat := 0
  deriving DecidableEq, Repr

/-- A client's routine, known by where it is. -/
structure Routine where
  address : Nat
  deriving DecidableEq, Repr

structure Callbacks where
  onDone : Option Routine := none
  onTxWatermark : Option Routine := none
  onRxWatermark : Option Routine := none
  onError : Option Routine := none
  deriving DecidableEq, Repr

inductive Notice
  | done (routine : Routine) (id : PeripheralId) (buffers : Buffers)
  | failed (routine : Routine) (id : PeripheralId) (faults : Faults) (buffers : Buffers)
  | txWatermark (routine : Routine) (id : PeripheralId) (buffers : Buffers) (cursors : Cursors)
  | rxWatermark (routine : Routine) (id : PeripheralId) (buffers : Buffers) (cursors : Cursors)
  deriving DecidableEq, Repr

/-- How a transaction ended, kept for a client that gave no routine. -/
structure Completion where
  outcome : Except Faults Unit
  buffers : Buffers

end SerialBus
