import SerialBus.Board.Limits
import SerialBus.Host.Error
import SerialBus.Register
import SerialBus.Status

namespace SerialBus

structure Host (β : Type) where
  block : β
  limits : Limits
  deriving DecidableEq, Repr

namespace Host

variable {β : Type} [RegisterBlock β]

def read (h : Host β) (r : Register) : Word × Host β :=
  let (w, block) := RegisterBlock.read r h.block
  (w, { h with block })

def write (h : Host β) (r : Register) (w : Word) : Host β :=
  { h with block := RegisterBlock.write r w h.block }

def modify (h : Host β) (r : Register) (f : Word → Word) : Host β :=
  let (w, h) := h.read r
  h.write r (f w)

def status (h : Host β) : Status × Host β :=
  let (w, h) := h.read .status
  (⟨w⟩, h)

@[simp] theorem limits_read (h : Host β) (r : Register) : (h.read r).2.limits = h.limits := rfl

@[simp] theorem limits_write (h : Host β) (r : Register) (w : Word) :
    (h.write r w).limits = h.limits := rfl

@[simp] theorem limits_modify (h : Host β) (r : Register) (f : Word → Word) :
    (h.modify r f).limits = h.limits := rfl

@[simp] theorem limits_status (h : Host β) : h.status.2.limits = h.limits := rfl

def andThen (r : Except HostError Unit × Host β)
    (next : Host β → Except HostError Unit × Host β) : Except HostError Unit × Host β :=
  match r with
  | (.ok (), h) => next h
  | (.error e, h) => (.error e, h)

end Host

end SerialBus
