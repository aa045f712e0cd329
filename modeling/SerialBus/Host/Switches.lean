import SerialBus.Host.Basic

namespace SerialBus.Host

variable {β : Type} [RegisterBlock β]

def eventsEnabled (h : Host β) : Events × Host β :=
  let (w, h) := h.read .eventEnable
  (.truncate w, h)

def setEventsEnabled (h : Host β) (events : Events) (on : Bool) : Except HostError Unit × Host β :=
  if FlagSet.all.contains events then
    (.ok (), h.modify .eventEnable fun w => if on then w ||| events.bits else w &&& ~~~events.bits)
  else (.error .eventInvalid, h)

def disableEvents (h : Host β) : Host β := h.write .eventEnable 0

def faultsEnabled (h : Host β) : Faults × Host β :=
  let (w, h) := h.read .errorEnable
  (.truncate w, h)

def setFaultsEnabled (h : Host β) (faults : Faults) (on : Bool) : Except HostError Unit × Host β :=
  if Faults.interrupting.contains faults then
    (.ok (), h.modify .errorEnable fun w => if on then w ||| faults.bits else w &&& ~~~faults.bits)
  else (.error .errorInvalid, h)

def faults (h : Host β) : Faults × Host β :=
  let (w, h) := h.read .errorStatus
  (.truncate w, h)

def acknowledgeFaults (h : Host β) : Host β :=
  h.write .errorStatus (FlagSet.all : Faults).bits

def setEventIntr (h : Host β) (on : Bool) : Host β :=
  h.modify .intrEnable (Intr.event.putBit on)

def setErrorIntr (h : Host β) (on : Bool) : Host β :=
  h.modify .intrEnable (Intr.error.putBit on)

def eventIntrEnabled (h : Host β) : Bool × Host β :=
  let (w, h) := h.read .intrEnable
  (Intr.event.isSet w, h)

def errorIntrEnabled (h : Host β) : Bool × Host β :=
  let (w, h) := h.read .intrEnable
  (Intr.error.isSet w, h)

def eventIntrPending (h : Host β) : Bool × Host β :=
  let (w, h) := h.read .intrState
  (Intr.event.isSet w, h)

def errorIntrPending (h : Host β) : Bool × Host β :=
  let (w, h) := h.read .intrState
  (Intr.error.isSet w, h)

def intrPending (h : Host β) : Word × Host β :=
  let (state, h) := h.read .intrState
  let (enable, h) := h.read .intrEnable
  (state &&& enable, h)

def acknowledgeIntr (h : Host β) (bits : Word) : Host β :=
  h.write .intrState bits

def pendingEvents (h : Host β) : Events × Host β :=
  let (s, h) := h.status
  let (enabled, h) := h.eventsEnabled
  (s.events.inter enabled, h)

def testErrorIntr (h : Host β) (on : Bool) : Host β :=
  h.write .intrTest (Intr.error.only on.toNat)

def testEventIntr (h : Host β) (on : Bool) : Host β :=
  h.write .intrTest (Intr.event.only on.toNat)

def testFatalAlert (h : Host β) : Host β :=
  h.write .alertTest AlertTest.fatalFault.flag

end SerialBus.Host
