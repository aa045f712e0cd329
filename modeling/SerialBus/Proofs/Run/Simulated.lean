import SerialBus.Proofs.Run.Projection
import SerialBus.Proofs.Transfer.Totals

namespace SerialBus

namespace Simulator

/-- What happens to a block from outside its driver. -/
inductive Move
  | tick
  | inject (bits : Word)
  | pushMiso (ws : List Word)
  | setLoopback (on : Bool)
  deriving DecidableEq, Repr

def apply : Move → Simulator → Simulator
  | .tick, s => s.tick.2
  | .inject bits, s => s.raise bits
  | .pushMiso ws, s => s.pushMiso ws
  | .setLoopback on, s => s.setLoopback on

end Simulator

namespace Stimulus

/-- Neither a reset of the hardware nor a call past the interrupt handler. -/
def undisturbed : Stimulus Simulator.Move → Bool
  | .reset | .event _ | .fault _ => false
  | _ => true

def honest : Stimulus Simulator.Move → Bool
  | .event _ | .fault _ => false
  | _ => true

theorem honest_of_undisturbed (st : Stimulus Simulator.Move) (undisturbed : st.undisturbed = true) :
    st.honest = true := by
  cases st with
  | reset | event | fault => cases undisturbed
  | _ => rfl

theorem unreset_of_undisturbed (st : Stimulus Simulator.Move)
    (undisturbed : st.undisturbed = true) : st ≠ .reset := by
  rintro rfl
  cases undisturbed

def faultless : Stimulus Simulator.Move → Bool
  | .move (.inject _) => false
  | st => st.undisturbed

theorem undisturbed_of_faultless (st : Stimulus Simulator.Move) (faultless : st.faultless = true) :
    st.undisturbed = true := by
  cases st with
  | move m => rfl
  | _ => exact faultless

end Stimulus

namespace Action

def undisturbed : Action Simulator.Move → Bool
  | .reset _ | .onEvent .. | .onFault .. => false
  | _ => true

def honest : Action Simulator.Move → Bool
  | .onEvent .. | .onFault .. => false
  | _ => true

theorem honest_of_undisturbed (a : Action Simulator.Move) (undisturbed : a.undisturbed = true) :
    a.honest = true := by
  cases a with
  | reset | onEvent | onFault => cases undisturbed
  | _ => rfl

def faultless : Action Simulator.Move → Bool
  | .move _ (.inject _) => false
  | a => a.undisturbed

/-- An action that brings no fault with it and asks for a transaction only if that was built from
    its segments. -/
structure Orderly (a : Action Simulator.Move) : Prop where
  faultless : a.faultless = true
  constructed : ∀ r, a.request? = some r → r.transaction.Constructed

theorem Orderly.of_faultless {a : Action Simulator.Move} (faultless : a.faultless = true)
    (other : ∀ h t callbacks, a ≠ .submit h t callbacks) : a.Orderly := by
  refine ⟨faultless, fun r request => ?_⟩
  cases a with
  | submit h t callbacks => exact absurd rfl (other h t callbacks)
  | transmit h tx len callbacks =>
    cases request
    exact .inl ⟨tx, len, rfl⟩
  | receive h rx len callbacks =>
    cases request
    exact .inr (.inl ⟨rx, len, rfl⟩)
  | transceive h tx rx len callbacks =>
    cases request
    exact .inr (.inr (.inl ⟨tx, rx, len, rfl⟩))
  | execute h segments tx rx callbacks =>
    simp only [request?] at request
    cases built : Transaction.generic segments tx rx with
    | error failure =>
      rw [built] at request
      cases request
    | ok t =>
      rw [built] at request
      cases request
      exact .inr (.inr (.inr ⟨segments, tx, rx, built⟩))
  | _ => cases request

theorem undisturbed_stimulus {a : Action Simulator.Move} (allowed : a.undisturbed = true)
    {id : PeripheralId} {st : Stimulus Simulator.Move} (stimulus : a.stimulus? id = some st) :
    st.undisturbed = true := by
  have kind := Controller.kind?_of_stimulus a stimulus
  cases a with
  | reset | onEvent | onFault => cases allowed
  | execute =>
    obtain ⟨r, -, rfl⟩ := Option.map_eq_some_iff.mp kind
    rfl
  | _ =>
    cases kind
    rfl

theorem honest_stimulus {a : Action Simulator.Move} (honest : a.honest = true)
    {id : PeripheralId} {st : Stimulus Simulator.Move} (stimulus : a.stimulus? id = some st) :
    st.honest = true := by
  have kind := Controller.kind?_of_stimulus a stimulus
  cases a with
  | onEvent | onFault => cases honest
  | execute =>
    obtain ⟨r, -, rfl⟩ := Option.map_eq_some_iff.mp kind
    rfl
  | _ =>
    cases kind
    rfl

theorem undisturbed_of_faultless {a : Action Simulator.Move} (faultless : a.faultless = true) :
    a.undisturbed = true := by
  cases a with
  | move id m => rfl
  | _ => exact faultless

theorem faultless_stimulus {a : Action Simulator.Move} (allowed : a.faultless = true)
    {id : PeripheralId} {st : Stimulus Simulator.Move} (stimulus : a.stimulus? id = some st) :
    st.faultless = true := by
  have undisturbed := undisturbed_stimulus (undisturbed_of_faultless allowed) stimulus
  cases st with
  | move m =>
    cases m with
    | inject bits =>
      have kind := Controller.kind?_of_stimulus a stimulus
      cases a with
      | move other m =>
        cases kind
        cases allowed
      | execute =>
        obtain ⟨r, -, same⟩ := Option.map_eq_some_iff.mp kind
        cases same
      | _ => cases kind
    | _ => rfl
  | _ => exact undisturbed

end Action

namespace Engine

def answered (e : Engine Simulator) : Stimulus Simulator.Move → List Word
  | .move .tick => e.host.block.answer.toList
  | _ => []

theorem answered_interrupt (e : Engine Simulator) : e.answered .interrupt = [] := rfl

theorem answered_inject (e : Engine Simulator) (bits : Word) :
    e.answered (.move (.inject bits)) = [] := rfl

end Engine

namespace Controller

/-- The words that the bus gives to the commands of a block during a run. -/
def answers (id : PeripheralId) :
    Controller Simulator → List (Action Simulator.Move) → List Word
  | _, [] => []
  | c, a :: as =>
    (match a.stimulus? id with
      | some st => (c.engine id).answered st
      | none => []) ++ answers id (c.act Simulator.apply a) as

end Controller

end SerialBus
