import SerialBus.Proofs.Engine.Request
import SerialBus.Proofs.Engine.Steady
import SerialBus.Proofs.Run.Simulated

namespace SerialBus.Engine

open Simulator (Move)

variable {settings : Settings} {limits : Limits} {e : Engine Simulator}

/-- The block with the slave chosen for the transaction that the stimulus launches, if it launches
    one. -/
def chosen (settings : Settings) (e : Engine Simulator) : Stimulus Move → Simulator
  | .submit r =>
    if (e.submit settings r).1.isOk then (e.selecting r.handle).host.block else e.host.block
  | _ => e.host.block

theorem chosen_of_unlaunched (st : Stimulus Move)
    (refused : ∀ r, st = .submit r → (e.submit settings r).1.isOk = false) :
    e.chosen settings st = e.host.block := by
  cases st with
  | submit r => simp only [chosen, refused r rfl, Bool.false_eq_true, if_false]
  | _ => rfl

theorem adheres_command (s : Simulator) (w : Word) (h : Host Simulator)
    (adheres : s.Adheres h.block) : s.Adheres (h.write .command w).block :=
  adheres.trans (h.block.adheres_writeRegister .command w rfl)

theorem adheres_submit (sound : Sound settings limits) (same : e.host.limits = limits)
    (r : Request) : (e.chosen settings (.submit r)).Adheres (e.submit settings r).2.host.block := by
  simp only [chosen]
  unfold submit
  cases checked : e.checkLaunch r.transaction with
  | error err => exact .refl _
  | ok _ =>
    obtain ⟨free, valid⟩ := e.checkLaunch_eq_ok r.transaction checked
    rcases e.setSlave_cases r.handle with ⟨err, refused⟩ | ⟨selected, -, -⟩
    · rw [refused]
      exact .refl _
    · -- nothing after the choice of the slave refuses the request
      obtain ⟨f, launched, -⟩ :=
        launch_ok (e.selecting r.handle) sound r.transaction r.callbacks same free valid
      have adheres := firm_launch (Host.firm_adheres (e.selecting r.handle).host.block)
        (adheres_command _) settings r.transaction r.callbacks (.refl _)
      rw [launched] at adheres
      simp only [selected, launched]
      exact adheres

theorem adheres_respond (sound : Sound settings limits) (same : e.host.limits = limits)
    (st : Stimulus Move) :
    (e.chosen settings st).Adheres (e.respond Simulator.apply settings st).host.block := by
  have moves (m : Move) (h : Host Simulator) (adheres : e.host.block.Adheres h.block) :
      e.host.block.Adheres (Simulator.apply m h.block) := by
    cases m with
    | tick => exact adheres.trans h.block.adheres_step
    | inject | pushMiso | setLoopback => exact adheres.trans (.of_same rfl rfl rfl rfl rfl)
  have kept (unasked : ∀ r, st ≠ .submit r) :
      e.host.block.Adheres (e.respond Simulator.apply settings st).host.block :=
    firm_respond (P := fun h => e.host.block.Adheres h.block) (Host.firm_adheres e.host.block)
      (adheres_command _) Simulator.apply moves settings st (.refl _)
      fun r asked => (unasked r asked).elim
  cases st with
  | submit r => exact adheres_submit sound same r
  | _ => exact kept fun r asked => by cases asked

end SerialBus.Engine
