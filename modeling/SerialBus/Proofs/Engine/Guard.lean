import SerialBus.Proofs.Engine.Image
import SerialBus.Proofs.Engine.Steady
import SerialBus.Proofs.Engine.Switching
import SerialBus.Proofs.Simulator.Unlogged

namespace SerialBus

open Simulator (Move)

def Stimulus.isCall {μ : Type} : Stimulus μ → Bool
  | .bind _ | .take | .submit _ => true
  | _ => false

namespace Host

theorem steady_outputEnable :
    Steady fun h : Host Simulator => Control.outputEnable.isSet h.block.control = true where
  read r h set := by
    have same := (h.block.readRegister_keeps r).1
    exact (congrArg Control.outputEnable.isSet same).trans set
  write r w h plain set := by
    have same := (h.block.writeRegister_keeps r w plain).1
    exact (congrArg Control.outputEnable.isSet same).trans set
  control f h adjusts set := by
    have stored : (h.modify .control f).block.control = f h.block.control :=
      congrArg Simulator.Switches.control
        (h.block.switches_writeControl (f h.block.control)).2
    simp only [stored]
    cases adjusts with
    | outputEnable => exact Field.isSet_putBit_self _ (by decide) rfl true _
    | enable =>
      rw [Field.isSet_putBit_of_disjoint _ _ (by decide) (by decide)]
      exact set
    | reset | txWatermark | rxWatermark =>
      rw [Field.isSet_put_of_disjoint _ _ (by decide) (by decide)]
      exact set
  faults _ set := set

theorem outputEnable_enableHost (h : Host Simulator) :
    Control.outputEnable.isSet (Controller.enableHost h).2.block.control = true := by
  have set (g : Host Simulator) :
      Control.outputEnable.isSet (g.setOutputEnable true).block.control = true := by
    have stored : (g.setOutputEnable true).block.control =
        Control.outputEnable.putBit true g.block.control :=
      congrArg Simulator.Switches.control (g.block.switches_writeControl _).2
    rw [stored]
    exact Field.isSet_putBit_self _ (by decide) rfl true _
  exact steady_outputEnable.firm.enableHost_of_on (set (h.setEnable true))

theorem enableHost_again (h : Host Simulator) (on : h.block.On)
    (down : Control.reset.isSet h.block.control = false)
    (output : Control.outputEnable.isSet h.block.control = true) :
    ∃ ws, Controller.enableHost h =
      (.ok (), { h with block := { h.block with writes := ws } }) := by
  have enable := Control.enable.putBit_of_isSet (by decide) rfl _ on.enable
  have outputEnable := Control.outputEnable.putBit_of_isSet (by decide) rfl _ output
  have line := Intr.error.putBit_of_isSet (by decide) rfl _ on.line
  have faults := FlagSet.or_of_contains _ _ on.faults
  have all : Faults.interrupting.contains Faults.interrupting = true := by decide
  have first := h.modify_control (Control.enable.putBit true) (by rw [enable]; exact down)
  rw [enable] at first
  have second := modify_control { h with block := h.block.withControl h.block.control }
    (Control.outputEnable.putBit true) (by
      change Control.reset.isSet (Control.outputEnable.putBit true h.block.control) = false
      rw [outputEnable]
      exact down)
  change modify _ _ _ = { h with
    block := (h.block.withControl h.block.control).withControl
      (Control.outputEnable.putBit true h.block.control) } at second
  rw [outputEnable] at second
  simp only [Controller.enableHost, setEnable, setOutputEnable, first, second, setFaultsEnabled,
    all, if_true, andThen]
  refine ⟨h.block.writes ++ [(.control, h.block.control)] ++ [(.control, h.block.control)] ++
    [(.errorEnable, h.block.errorEnable)] ++ [(.intrEnable, h.block.intrEnable)], ?_⟩
  simp only [setErrorIntr, modify, read, write, status, RegisterBlock.read, RegisterBlock.write,
    Simulator.readRegister, Simulator.writeRegister, Simulator.applyWrite, Simulator.withControl,
    faults, line]

end Host

namespace Engine

variable {settings : Settings} {limits : Limits} {build : Simulator.Build} {e d : Engine Simulator}

structure Guarded (settings : Settings) (limits : Limits) (build : Simulator.Build)
    (e : Engine Simulator) : Prop extends Switched settings limits build e where
  output : e.state ≠ .none → Control.outputEnable.isSet e.host.block.control = true

theorem Guarded.respond (guarded : Guarded settings limits build e)
    (sound : Sound settings limits) (st : Stimulus Move) :
    Guarded settings limits build (e.respond Simulator.apply settings st) := by
  refine ⟨guarded.toSwitched.respond sound st, fun bound => ?_⟩
  by_cases fresh : e.state = .none
  case neg =>
    refine steady_respond Host.steady_outputEnable ?_ Simulator.apply ?_ settings st
      (guarded.output fresh)
    · intro w h set
      have same : (h.write .command w).block.control = h.block.control :=
        congrArg Simulator.Switches.control (Simulator.switches_pushCommand _ w).2
      rw [same]
      exact set
    · intro m h set
      cases m with
      | tick =>
        have same : h.block.step.2.control = h.block.control :=
          congrArg Simulator.Registers.control h.block.registers_step
        change Control.outputEnable.isSet h.block.step.2.control = true
        rw [same]
        exact set
      | _ => exact set
  -- a block that is not bound becomes so by a successful bind alone
  have free : e.state ≠ .busy := by
    rw [fresh]
    exact Lifecycle.noConfusion
  cases st with
  | bind slave =>
    have set := e.host.outputEnable_enableHost
    simp only [Engine.respond, Engine.bind] at bound ⊢
    split at bound
    · exact absurd fresh bound
    · split at bound
      · exact absurd fresh bound
      · rename_i step
        rw [step] at set
        exact set
  | submit r =>
    have refused : e.checkLaunch r.transaction = .error .notInit := by
      simp only [checkLaunch, fresh]
      rfl
    simp only [Engine.respond, Engine.submit, refused] at bound
    exact absurd fresh bound
  | interrupt =>
    have idle := drive_of_free { e with host := (Interrupt.take e.host).2 }
      (Interrupt.take e.host).1 free
    simp only [Engine.respond, Engine.handleIrq, idle] at bound
    exact absurd fresh bound
  | event events =>
    simp only [Engine.respond, e.onEvent_of_free events free] at bound
    exact absurd fresh bound
  | fault faults =>
    simp only [Engine.respond, e.onFault_of_free faults free] at bound
    exact absurd fresh bound
  | reset | take | move => exact absurd fresh bound

/-- The engines differ in nothing but the parked completion and the record of what was written to
    their blocks. -/
def Alike (e d : Engine Simulator) : Prop :=
  ∃ parked writes,
    d = { e with parked, host := { e.host with block := { e.host.block with writes } } }

theorem Alike.refl (e : Engine Simulator) : Alike e e := ⟨e.parked, e.host.block.writes, rfl⟩

theorem alike_iff (e d : Engine Simulator) :
    Alike e d ↔ d.map Unlogged.of none = e.map Unlogged.of none := by
  constructor
  · rintro ⟨parked, writes, rfl⟩
    rfl
  · intro same
    have block : Unlogged.of d.host.block = Unlogged.of e.host.block :=
      congrArg (fun g : Engine Unlogged => g.host.block) same
    have limits : d.host.limits = e.host.limits :=
      congrArg (fun g : Engine Unlogged => g.host.limits) same
    refine ⟨d.parked, d.host.block.writes, ?_⟩
    rw [← (Unlogged.of_eq_iff _ _).mp block.symm]
    simp only [← limits]
    cases e
    cases d
    simp only [map, Engine.mk.injEq] at same ⊢
    simp only [same, and_self]

theorem Alike.trans {f : Engine Simulator} (first : Alike e d) (second : Alike d f) :
    Alike e f := by
  rw [alike_iff] at *
  exact second.trans first

theorem Alike.busy (alike : Alike e d) (busy : e.state = .busy) : d.state = .busy := by
  obtain ⟨parked, writes, rfl⟩ := alike
  exact busy

theorem Guarded.alike_of_call (guarded : Guarded settings limits build e) (busy : e.state = .busy)
    (st : Stimulus Move) (call : st.isCall = true) :
    Alike e (e.respond Simulator.apply settings st) := by
  cases st with
  | bind slave =>
    have bound : e.state ≠ .none := by
      rw [busy]
      exact Lifecycle.noConfusion
    obtain ⟨writes, again⟩ := e.host.enableHost_again (guarded.on bound) guarded.reset
      (guarded.output bound)
    simp only [Engine.respond, Engine.bind, again]
    split
    · exact .refl e
    · refine ⟨e.parked, writes, ?_⟩
      simp only [reach, busy, Lifecycle.next]
  | take => exact ⟨none, e.host.block.writes, rfl⟩
  | submit r =>
    have refused : e.checkLaunch r.transaction = .error .busy := by
      simp only [checkLaunch, busy]
      rfl
    simp only [Engine.respond, Engine.submit, refused]
    exact .refl e
  | _ => cases call

theorem Alike.respond (alike : Alike e d) (settings : Settings) (st : Stimulus Move) :
    Alike (e.respond Simulator.apply settings st) (d.respond Simulator.apply settings st) ∧
      ((e.respond Simulator.apply settings st).parkings ≠ e.parkings →
        (d.respond Simulator.apply settings st).parked =
          (e.respond Simulator.apply settings st).parked) := by
  have images := (alike_iff e d).mp alike
  have before : d.parkings = e.parkings :=
    congrArg (fun g : Engine Unlogged => g.parkings) images
  obtain ⟨p, first, own⟩ :=
    mirrors_respond Unlogged.image none e Unlogged.apply_of settings st
  obtain ⟨q, second, other⟩ :=
    mirrors_respond Unlogged.image none d Unlogged.apply_of settings st
  rw [images, first] at second
  have parked : p = q := congrArg (fun g : Engine Unlogged => g.parked) second
  have parkings : (e.respond Simulator.apply settings st).parkings =
      (d.respond Simulator.apply settings st).parkings :=
    congrArg (fun g : Engine Unlogged => g.parkings) second
  refine ⟨(alike_iff _ _).mpr ?_, fun new => ?_⟩
  · exact (congrArg (fun g : Engine Unlogged => { g with parked := none }) second).symm
  · rw [← own (.inr new), ← other (.inr (by rw [← parkings, before]; exact new)), parked]

end Engine

end SerialBus
