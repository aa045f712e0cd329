import SerialBus.Host.Condition
import SerialBus.Host.Control
import SerialBus.Host.Queue
import SerialBus.Host.Switches

namespace SerialBus

namespace Host

/-- The requests that are checked before the block is touched. -/
inductive Checked
  | setEventsEnabled (events : Events) (on : Bool)
  | setFaultsEnabled (faults : Faults) (on : Bool)
  | setTxWatermark (level : UInt8)
  | setRxWatermark (level : UInt8)
  | setCsid (csid : Word)
  | chipOptions (csid : Word)
  | setChipOptions (csid : Word) (o : ChipOptions)
  | setCommand (c : Command)
  | setCommandWord (w : Word)
  | writeWord (w : Word)
  | writeByte (b : Byte)
  | readWord
  deriving DecidableEq, Repr

/-- The requests that cannot be refused. A wait for a condition looks at it again and again. -/
inductive Plain
  | eventsEnabled
  | disableEvents
  | faultsEnabled
  | faults
  | acknowledgeFaults
  | testErrorIntr (on : Bool)
  | testEventIntr (on : Bool)
  | testFatalAlert
  | status
  | look (c : Condition)
  | softReset
  | setEnable (on : Bool)
  | setOutputEnable (on : Bool)
  | csid
  | setEventIntr (on : Bool)
  | setErrorIntr (on : Bool)
  | eventIntrEnabled
  | errorIntrEnabled
  | eventIntrPending
  | errorIntrPending
  | intrPending
  | acknowledgeIntr (bits : Word)
  | pendingEvents
  deriving DecidableEq, Repr

inductive Operation
  | checked (q : Checked)
  | plain (q : Plain)
  deriving DecidableEq, Repr

inductive Turn (μ : Type)
  | call (o : Operation)
  | move (m : μ)
  deriving DecidableEq, Repr

theorem mapped_of_lines {β : Type} (h : Host β) {line : Word} (inside : ¬ h.lines ≤ line.toNat) :
    line.toNat < Register.optionLines :=
  Nat.lt_of_lt_of_le (Nat.not_le.mp inside) (Nat.min_le_right _ _)

variable {β μ : Type} [RegisterBlock β]

def Checked.perform (h : Host β) : Checked → Except HostError Unit × Host β
  | setEventsEnabled events on => h.setEventsEnabled events on
  | setFaultsEnabled faults on => h.setFaultsEnabled faults on
  | setTxWatermark level => h.setTxWatermark level
  | setRxWatermark level => h.setRxWatermark level
  | setCsid csid => h.setCsid csid
  | chipOptions csid => let (options, h) := h.chipOptions csid; (options.map fun _ => (), h)
  | setChipOptions csid o => h.setChipOptions csid o
  | setCommand c => h.setCommand c
  | setCommandWord w => h.setCommandWord w
  | writeWord w => h.writeWord w
  | writeByte b => h.writeByte b
  | readWord => let (w, h) := h.readWord; (w.map fun _ => (), h)

def Plain.perform (h : Host β) : Plain → Host β
  | eventsEnabled => h.eventsEnabled.2
  | disableEvents => h.disableEvents
  | faultsEnabled => h.faultsEnabled.2
  | faults => h.faults.2
  | acknowledgeFaults => h.acknowledgeFaults
  | testErrorIntr on => h.testErrorIntr on
  | testEventIntr on => h.testEventIntr on
  | testFatalAlert => h.testFatalAlert
  | status => h.status.2
  | look c => (h.look c).2
  | softReset => h.softReset
  | setEnable on => h.setEnable on
  | setOutputEnable on => h.setOutputEnable on
  | csid => h.csid.2
  | setEventIntr on => h.setEventIntr on
  | setErrorIntr on => h.setErrorIntr on
  | eventIntrEnabled => h.eventIntrEnabled.2
  | errorIntrEnabled => h.errorIntrEnabled.2
  | eventIntrPending => h.eventIntrPending.2
  | errorIntrPending => h.errorIntrPending.2
  | intrPending => h.intrPending.2
  | acknowledgeIntr bits => h.acknowledgeIntr bits
  | pendingEvents => h.pendingEvents.2

def turn (env : μ → β → β) (h : Host β) : Turn μ → Host β
  | .call (.checked q) => (q.perform h).2
  | .call (.plain q) => q.perform h
  | .move m => { h with block := env m h.block }

def turns (env : μ → β → β) (h : Host β) (ts : List (Turn μ)) : Host β := ts.foldl (turn env) h

end Host

end SerialBus
