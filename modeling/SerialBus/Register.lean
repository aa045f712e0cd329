import SerialBus.Word

namespace SerialBus

inductive Register
  | intrState
  | intrEnable
  | intrTest
  | alertTest
  | control
  | status
  | configOpts (line : Nat)
  | csid
  | command
  | rxData
  | txData
  | errorEnable
  | errorStatus
  | eventEnable
  deriving DecidableEq, Repr

namespace Register

def optionLines : Nat := 2

def offset : Register → Nat
  | intrState => 0x00
  | intrEnable => 0x04
  | intrTest => 0x08
  | alertTest => 0x0c
  | control => 0x10
  | status => 0x14
  | configOpts line => 0x18 + 4 * line
  | csid => 0x20
  | command => 0x24
  | rxData => 0x28
  | txData => 0x2c
  | errorEnable => 0x30
  | errorStatus => 0x34
  | eventEnable => 0x38

end Register

namespace Intr

def error : Field := ⟨0, 1⟩

def event : Field := ⟨1, 1⟩

end Intr

namespace AlertTest

def fatalFault : Field := ⟨0, 1⟩

end AlertTest

namespace Control

def rxWatermark : Field := ⟨0, 8⟩

def txWatermark : Field := ⟨8, 8⟩

def outputEnable : Field := ⟨29, 1⟩

def reset : Field := ⟨30, 1⟩

def enable : Field := ⟨31, 1⟩

end Control

namespace EventEnable

def rxFull : Field := ⟨0, 1⟩

def txEmpty : Field := ⟨1, 1⟩

def rxWatermark : Field := ⟨2, 1⟩

def txWatermark : Field := ⟨3, 1⟩

def ready : Field := ⟨4, 1⟩

def idle : Field := ⟨5, 1⟩

end EventEnable

/-- A block that answers register accesses; any access may change it. -/
class RegisterBlock (β : Type) where
  read : Register → β → Word × β
  write : Register → Word → β → β
  -- A narrow write; a block without one takes the byte as a word.
  writeByte : Register → Byte → β → β := fun r b s => write r (b.setWidth 32) s
  /-- How many more looks a caller takes at a block that was not ready at the first. That is as good
      as a wait without bound, where the block becomes ready within so many. -/
  patience : β → Nat := fun _ => 0

end SerialBus
