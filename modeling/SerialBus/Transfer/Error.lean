import SerialBus.Events
import SerialBus.Host.Error
import SerialBus.Segment
import SerialBus.Slave

namespace SerialBus

inductive TransferError
  -- no such block, or a handle that refers to none
  | indexInvalid
  | notInit
  | alreadyInit
  -- a transaction is running on the block
  | busy
  -- the hardware is in the middle of a command
  | notIdle
  | slaveCsidInvalid
  | slaveFreqInvalid
  | slaveInvalid
  | segmentInvalid
  -- a length that is zero, too long, or more than its buffer holds
  | lengthInvalid
  | host (cause : HostError)
  | hardware (faults : Faults)
  deriving DecidableEq, Repr

namespace TransferError

def ofSlave : SlaveError → TransferError
  | .csidInvalid => slaveCsidInvalid
  | .frequency _ => slaveFreqInvalid
  | .timingInvalid => slaveInvalid

def ofSegment (_ : SegmentError) : TransferError := segmentInvalid

inductive Kind
  | overrun
  | chipSelectFault
  | other
  deriving DecidableEq, Repr

def kind : TransferError → Kind
  | hardware faults =>
    if faults.intersects (Faults.overflow.union Faults.underflow) then .overrun
    else if faults.contains Faults.csidInvalid then .chipSelectFault
    else .other
  | _ => .other

end TransferError

end SerialBus
