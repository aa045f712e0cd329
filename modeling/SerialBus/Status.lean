import SerialBus.Events
import SerialBus.Packing

namespace SerialBus

structure Status where
  bits : Word
  deriving DecidableEq, Repr

structure Channel where
  isEmpty : Bool
  isFull : Bool
  atWatermark : Bool
  isStalled : Bool
  deriving DecidableEq, Repr

namespace Status

def txLevelField : Field := ⟨0, 8⟩

def rxLevelField : Field := ⟨8, 8⟩

def cmdLevelField : Field := ⟨16, 4⟩

def rxWatermarkField : Field := ⟨20, 1⟩

def byteOrderField : Field := ⟨22, 1⟩

def rxStallField : Field := ⟨23, 1⟩

def rxEmptyField : Field := ⟨24, 1⟩

def rxFullField : Field := ⟨25, 1⟩

def txWatermarkField : Field := ⟨26, 1⟩

def txStallField : Field := ⟨27, 1⟩

def txEmptyField : Field := ⟨28, 1⟩

def txFullField : Field := ⟨29, 1⟩

def activeField : Field := ⟨30, 1⟩

def readyField : Field := ⟨31, 1⟩

def txLevel (s : Status) : Nat := txLevelField.get s.bits

def rxLevel (s : Status) : Nat := rxLevelField.get s.bits

def cmdLevel (s : Status) : Nat := cmdLevelField.get s.bits

def isActive (s : Status) : Bool := activeField.isSet s.bits

def isReady (s : Status) : Bool := readyField.isSet s.bits

def byteOrder (s : Status) : ByteOrder := .ofBit (byteOrderField.isSet s.bits)

def tx (s : Status) : Channel where
  isEmpty := txEmptyField.isSet s.bits
  isFull := txFullField.isSet s.bits
  atWatermark := txWatermarkField.isSet s.bits
  isStalled := txStallField.isSet s.bits

def rx (s : Status) : Channel where
  isEmpty := rxEmptyField.isSet s.bits
  isFull := rxFullField.isSet s.bits
  atWatermark := rxWatermarkField.isSet s.bits
  isStalled := rxStallField.isSet s.bits

def events (s : Status) : Events :=
  (FlagSet.empty : Events)
    |>.set Events.rxFull s.rx.isFull
    |>.set Events.txEmpty s.tx.isEmpty
    |>.set Events.rxWatermark s.rx.atWatermark
    |>.set Events.txWatermark s.tx.atWatermark
    |>.set Events.ready s.isReady
    |>.set Events.idle (!s.isActive)

end Status

end SerialBus
