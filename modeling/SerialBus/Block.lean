import SerialBus.MemoryBlock
import SerialBus.Simulator.Access

namespace SerialBus

inductive Block
  | simulated (s : Simulator)
  | memory (m : MemoryBlock)
  deriving DecidableEq, Repr

namespace Block

def irqPending : Block → Bool
  | simulated s => s.irqPending
  | memory m => m.readRegister .intrState &&& m.readRegister .intrEnable != 0

instance : RegisterBlock Block where
  read r
    | simulated s => let (w, s) := RegisterBlock.read r s; (w, simulated s)
    | memory m => let (w, m) := RegisterBlock.read r m; (w, memory m)
  write r w
    | simulated s => simulated (RegisterBlock.write r w s)
    | memory m => memory (RegisterBlock.write r w m)
  writeByte r b
    | simulated s => simulated (RegisterBlock.writeByte r b s)
    | memory m => memory (RegisterBlock.writeByte r b m)
  patience
    | simulated s => RegisterBlock.patience s
    | memory m => RegisterBlock.patience m

end Block

end SerialBus
