import SerialBus.Proofs.Host.Image
import SerialBus.Proofs.Run.Simulated
import SerialBus.Simulator.Access

namespace SerialBus

structure Unlogged where
  block : Simulator

namespace Unlogged

def of (s : Simulator) : Unlogged := ⟨{ s with writes := [] }⟩

instance : RegisterBlock Unlogged where
  read r u := Prod.map id of (RegisterBlock.read r u.block)
  write r w u := of (RegisterBlock.write r w u.block)
  patience u := RegisterBlock.patience u.block

def apply (m : Simulator.Move) (u : Unlogged) : Unlogged := of (Simulator.apply m u.block)

theorem of_eq_iff (s t : Simulator) : of s = of t ↔ t = { s with writes := t.writes } := by
  constructor
  · intro same
    have block : ({ s with writes := [] } : Simulator) = { t with writes := [] } :=
      congrArg Unlogged.block same
    cases s
    cases t
    simp only [Simulator.mk.injEq] at block ⊢
    simp only [block, and_self]
  · intro same
    rw [same]
    rfl

theorem of_popData (s : Simulator) :
    Prod.map id of (of s).block.popData = Prod.map id of s.popData := by
  have queue : (of s).block.rx = s.rx := rfl
  unfold Simulator.popData
  rw [queue]
  cases s.rx <;> rfl

theorem of_pushCommand (s : Simulator) (ws : List (Register × Word)) (w : Word) :
    of ({ s with writes := ws }.pushCommand w) = of (s.pushCommand w) := by
  unfold Simulator.pushCommand
  simp only [apply_ite of]
  rfl

theorem of_pushData (s : Simulator) (ws : List (Register × Word)) (w : Word) :
    of ({ s with writes := ws }.pushData w) = of (s.pushData w) := by
  unfold Simulator.pushData
  simp only [apply_ite of]
  rfl

theorem image : Image of where
  patience _ := rfl
  read r s := by
    cases r with
    | rxData => exact of_popData s
    | _ => rfl
  write r w s := by
    change of (Simulator.applyWrite r w _) = of (Simulator.applyWrite r w _)
    cases r with
    | command => exact (of_pushCommand s _ w).trans (of_pushCommand s _ w).symm
    | txData => exact (of_pushData s _ w).trans (of_pushData s _ w).symm
    | control =>
      simp only [Simulator.applyWrite]
      split <;> rfl
    | alertTest =>
      simp only [Simulator.applyWrite]
      split <;> rfl
    | _ => rfl

theorem of_takeUp (s : Simulator) : (of s).block.takeUp = (of s.takeUp).block := by
  have current : (of s).block.current = s.current := rfl
  have queue : (of s).block.queue = s.queue := rfl
  unfold Simulator.takeUp
  rw [current, queue]
  cases s.current <;> cases s.queue <;> rfl

theorem of_step (s : Simulator) : of (of s).block.step.2 = of s.step.2 := by
  have running : (of s).block.isRunning = s.isRunning := rfl
  unfold Simulator.step
  rw [running, of_takeUp]
  split
  · rfl
  · generalize s.takeUp = t
    have current : (of t).block.current = t.current := rfl
    simp only [current]
    cases t.current with
    | none => rfl
    | some a =>
      simp only [apply_ite Prod.snd, apply_ite of]
      rfl

theorem apply_of (m : Simulator.Move) (s : Simulator) :
    apply m (of s) = of (Simulator.apply m s) := by
  cases m with
  | tick => exact of_step s
  | _ => rfl

end Unlogged

end SerialBus
