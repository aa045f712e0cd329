import SerialBus.Board.Limits
import SerialBus.Packing

namespace SerialBus

structure Settings where
  clock : UInt32 := 100000000
  txOverride : Option UInt8 := none
  rxOverride : Option UInt8 := none
  byteOrder : ByteOrder := .little
  deriving DecidableEq, Repr

namespace Settings

def txWatermark (s : Settings) (l : Limits) : UInt8 :=
  s.txOverride.getD (l.txDepth / 4)

def rxWatermark (s : Settings) (l : Limits) : UInt8 :=
  s.rxOverride.getD (UInt8.ofNat (l.rxDepth.toNat - 12))

def validate (s : Settings) (l : Limits) : Except ConfigError Unit :=
  if s.clock = 0 then .error .zeroClock
  else if l.txDepth < s.txWatermark l ∨ l.rxDepth < s.rxWatermark l then .error .watermarkExceeds
  else .ok ()

end Settings

end SerialBus
