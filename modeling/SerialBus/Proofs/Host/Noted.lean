import SerialBus.Proofs.Host.Image
import SerialBus.Proofs.Host.Steady

namespace SerialBus

inductive Access
  | read (r : Register)
  | write (r : Register) (w : Word)
  | writeByte (r : Register) (b : Byte)
  deriving DecidableEq, Repr

def Access.command? : Access → Option Word
  | write .command w => some w
  | writeByte .command b => some (b.setWidth 32)
  | _ => none

/-- A block with the notes of its accesses, the oldest first. -/
structure Noted {α : Type} (note : Access → Option α) (β : Type) where
  block : β
  notes : List α := []
  deriving DecidableEq, Repr

namespace Noted

variable {α β μ : Type} {note : Access → Option α}

def jot (n : Noted note β) (a : Access) : List α :=
  match note a with
  | some x => n.notes ++ [x]
  | none => n.notes

def lift (env : μ → β → β) (m : μ) (n : Noted note β) : Noted note β :=
  { n with block := env m n.block }

instance [RegisterBlock β] : RegisterBlock (Noted note β) where
  read r n :=
    let (w, block) := RegisterBlock.read r n.block
    (w, { block, notes := n.jot (.read r) })
  write r w n := { block := RegisterBlock.write r w n.block, notes := n.jot (.write r w) }
  writeByte r b n :=
    { block := RegisterBlock.writeByte r b n.block, notes := n.jot (.writeByte r b) }
  patience n := RegisterBlock.patience n.block

theorem image [RegisterBlock β] : Image (block : Noted note β → β) where
  read _ _ := rfl
  write _ _ _ := rfl
  patience _ := rfl

theorem steady_commands [RegisterBlock β] (ws : List Word) :
    Host.Steady fun h : Host (Noted Access.command? β) => h.block.notes = ws where
  read _ _ same := same
  write r _ _ plain same := by
    cases r with
    | command => cases plain
    | _ => exact same
  control _ _ _ same := same
  faults _ same := same

theorem notes_writeCommand [RegisterBlock β] (h : Host (Noted Access.command? β)) (w : Word) :
    (h.write .command w).block.notes = h.block.notes ++ [w] := rfl

end Noted

end SerialBus
