import SerialBus.Peripheral
import SerialBus.Transfer.Error

namespace SerialBus

structure Handle where
  id : Option PeripheralId := none
  isInit : Bool := false
  -- the slave, with the rate it really gets
  slave : Slave := {}
  divider : UInt16 := 0
  deriving DecidableEq, Repr

namespace Handle

def blank : Handle := {}

def check (h : Handle) : Except TransferError PeripheralId :=
  match h.id with
  | none => .error .indexInvalid
  | some id => if h.isInit then .ok id else .error .notInit

end Handle

end SerialBus
