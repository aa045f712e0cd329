import SerialBus.Transfer.Error
import SerialBus.Word

namespace SerialBus

/-- Words lent by a caller. The address tells buffers with the same words apart. -/
structure Buffer where
  address : Nat := 0
  words : List Word
  deriving DecidableEq, Repr

namespace Buffer

def size (b : Buffer) : Nat := b.words.length

def store (b : Buffer) (start : Nat) (ws : List Word) : Buffer :=
  { b with words := b.words.take start ++ ws ++ b.words.drop (start + ws.length) }

theorem size_store (b : Buffer) (start : Nat) (ws : List Word) (h : start + ws.length ≤ b.size) :
    (b.store start ws).size = b.size := by
  simp only [size] at h
  simp only [store, size, List.length_append, List.length_take, List.length_drop]
  omega

theorem take_store (b : Buffer) (start : Nat) (ws : List Word) (h : start ≤ b.size) :
    (b.store start ws).words.take start = b.words.take start := by
  simp only [size] at h
  simp [store, h]

end Buffer

/-- Both buffers of a transaction and how many of their words it moves. -/
structure Buffers where
  tx : Option Buffer := none
  txLen : Nat := 0
  rx : Option Buffer := none
  rxLen : Nat := 0
  deriving DecidableEq, Repr

namespace Buffers

def fits (buffer : Option Buffer) (len : Nat) : Bool :=
  len == 0 || buffer.any fun b => len ≤ b.size

def check (b : Buffers) : Except TransferError Unit :=
  if fits b.tx b.txLen && fits b.rx b.rxLen then .ok () else .error .lengthInvalid

end Buffers

structure Failure where
  error : TransferError
  buffers : Buffers
  deriving DecidableEq, Repr

end SerialBus
