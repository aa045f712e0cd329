import SerialBus.Register

namespace SerialBus

structure MemoryBlock where
  words : List Word
  deriving DecidableEq, Repr

namespace MemoryBlock

def size : Nat := 15

def ofWords (ws : List Word) : MemoryBlock :=
  ⟨(ws ++ List.replicate size 0).take size⟩

def load (m : MemoryBlock) (r : Register) : Word :=
  m.words.getD (r.offset / 4) 0

def store (m : MemoryBlock) (r : Register) (w : Word) : MemoryBlock :=
  ⟨m.words.set (r.offset / 4) w⟩

def poke (m : MemoryBlock) (index : Nat) (w : Word) : MemoryBlock :=
  ⟨m.words.set index w⟩

def readRegister (r : Register) (m : MemoryBlock) : Word :=
  match r with
  | .intrTest | .alertTest | .command | .txData => 0
  | .configOpts line => if line < Register.optionLines then m.load r else 0
  | r => m.load r

def writeRegister (r : Register) (w : Word) (m : MemoryBlock) : MemoryBlock :=
  match r with
  | .status | .rxData => m
  | .configOpts line => if line < Register.optionLines then m.store r w else m
  | r => m.store r w

def writeByteRegister (r : Register) (b : Byte) (m : MemoryBlock) : MemoryBlock :=
  match r with
  | .txData => m.store .txData ((⟨0, 8⟩ : Field).put b.toNat (m.load .txData))
  | r => writeRegister r (b.setWidth 32) m

instance : RegisterBlock MemoryBlock where
  read r m := (readRegister r m, m)
  write := writeRegister
  writeByte := writeByteRegister

end MemoryBlock

end SerialBus
