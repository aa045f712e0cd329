import SerialBus.FlagSet

namespace SerialBus

abbrev Events := FlagSet ["RXFULL", "TXEMPTY", "RXWM", "TXWM", "READY", "IDLE"]

namespace Events

def rxFull : Events := ⟨0x01⟩

def txEmpty : Events := ⟨0x02⟩

def rxWatermark : Events := ⟨0x04⟩

def txWatermark : Events := ⟨0x08⟩

def ready : Events := ⟨0x10⟩

def idle : Events := ⟨0x20⟩

end Events

abbrev Faults :=
  FlagSet ["CMDBUSY", "OVERFLOW", "UNDERFLOW", "CMDINVAL", "CSIDINVAL", "ACCESSINVAL"]

namespace Faults

def cmdBusy : Faults := ⟨0x01⟩

def overflow : Faults := ⟨0x02⟩

def underflow : Faults := ⟨0x04⟩

def cmdInvalid : Faults := ⟨0x08⟩

def csidInvalid : Faults := ⟨0x10⟩

def accessInvalid : Faults := ⟨0x20⟩

def interrupting : Faults := ⟨0x1f⟩

end Faults

end SerialBus
