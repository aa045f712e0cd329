import SerialBus.Host.Basic
import SerialBus.Lifecycle
import SerialBus.Transfer.Notice
import SerialBus.Transfer.Transaction

namespace SerialBus

structure Engine (β : Type) where
  id : PeripheralId
  host : Host β
  state : Lifecycle := .none
  running : Option Transaction := none
  cursors : Cursors := {}
  callbacks : Callbacks := {}
  parked : Option Completion := none
  -- routines called so far, the oldest first
  notices : List Notice := []
  -- completions parked so far, the oldest first, whatever became of them
  parkings : List Completion := []

namespace Engine

variable {β : Type}

structure Runtime where
  state : Lifecycle
  cursors : Cursors
  segments : Nat
  isParked : Bool
  deriving DecidableEq, Repr

def segmentCount (e : Engine β) : Nat :=
  match e.running with
  | some t => t.segments.length
  | none => 0

def runtime (e : Engine β) : Runtime where
  state := e.state
  cursors := e.cursors
  segments := e.segmentCount
  isParked := e.parked.isSome

def reach (e : Engine β) (m : Milestone) : Engine β :=
  { e with state := e.state.next m }

def notify (e : Engine β) (n : Notice) : Engine β :=
  { e with notices := e.notices ++ [n] }

def park (e : Engine β) (c : Completion) : Engine β :=
  { e with parked := some c, parkings := e.parkings ++ [c] }

def takeCompletion (e : Engine β) : Option Completion × Engine β :=
  (e.parked, { e with parked := none })

end Engine

end SerialBus
