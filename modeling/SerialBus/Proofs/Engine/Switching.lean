import SerialBus.Proofs.Engine.Course

namespace SerialBus

open Simulator (Move)

namespace Simulator

structure Silent (s : Simulator) : Prop where
  events : s.eventEnable = 0
  line : Intr.event.isSet s.intrEnable = false

theorem Silent.of_switches {s t : Simulator} (silent : s.Silent)
    (same : t.switches = s.switches) : t.Silent := by
  have intrEnable : t.intrEnable = s.intrEnable := congrArg Switches.intrEnable same
  have eventEnable : t.eventEnable = s.eventEnable := congrArg Switches.eventEnable same
  exact ⟨by rw [eventEnable]; exact silent.events, by rw [intrEnable]; exact silent.line⟩

end Simulator

namespace Engine

variable {settings : Settings} {limits : Limits} {build : Simulator.Build} {e f : Engine Simulator}

/-- The block is set up, and its events are off while no transaction runs. -/
structure Switched (settings : Settings) (limits : Limits) (build : Simulator.Build)
    (e : Engine Simulator) : Prop extends Wired settings limits build e where
  silent : e.state ≠ .busy → e.host.block.Silent

theorem silent_quietHost (e : Engine Simulator) : e.quietHost.block.Silent := by
  have line := Field.isSet_putBit_self Intr.event (by decide) rfl false e.host.block.intrEnable
  exact ⟨rfl, line⟩

theorem silent_abort (e : Engine Simulator) (faults : Faults) (busy : e.state = .busy) :
    (e.abort faults).host.block.Silent := by
  rw [e.abort_eq faults busy, (tell_same _ _).2.2]
  exact e.silent_quietHost

theorem silent_complete (e : Engine Simulator) (busy : e.state = .busy) :
    e.complete.host.block.Silent := by
  have keeps := (feeds_emptyRx e.quiesce).toKeeps
  rw [e.complete_eq busy, (tell_same _ _).2.2]
  exact e.silent_quietHost.of_switches keeps.switches

theorem Switched.of_busy (wired : Wired settings limits build e) (busy : e.state = .busy) :
    Switched settings limits build e :=
  ⟨wired, fun free => absurd busy free⟩

theorem Switched.keeps (switched : Switched settings limits build e) (keeps : Keeps e f) :
    Switched settings limits build f := by
  refine ⟨switched.toWired.keeps keeps, fun free => ?_⟩
  rw [keeps.state] at free
  exact (switched.silent free).of_switches keeps.switches

theorem Switched.onFault (switched : Switched settings limits build e) (faults : Faults) :
    Switched settings limits build (e.onFault faults) := by
  by_cases busy : e.state = .busy
  · rw [e.onFault_of_busy faults busy]
    exact ⟨switched.abort busy faults, fun _ => e.silent_abort faults busy⟩
  · rw [e.onFault_of_free faults busy]
    exact switched

theorem Switched.onEvent (switched : Switched settings limits build e) (events : Events) :
    Switched settings limits build (e.onEvent events) := by
  by_cases busy : e.state = .busy
  case neg =>
    rw [e.onEvent_of_free events busy]
    exact switched
  refine ⟨switched.toWired.onEvent busy events, fun free => ?_⟩
  have issued := (keeps_issueNext e).state.trans busy
  rcases e.onEvent_cases events busy with ⟨served, -⟩ | ⟨served, -⟩ | ⟨aborted, -⟩ | ⟨completed, -⟩
  · rw [served, (feeds_serveQueues e events).state] at free
    exact absurd busy free
  · rw [served, (feeds_serveQueues _ events).state] at free
    exact absurd issued free
  · rw [aborted]
    exact silent_abort _ _ issued
  · rw [completed]
    exact e.silent_complete busy

theorem Switched.handleIrq (switched : Switched settings limits build e) :
    Switched settings limits build e.handleIrq := by
  have spec := e.host.block.acknowledged_spec
  have keeps : Keeps e e.acknowledged :=
    ⟨rfl, congrArg Simulator.Lanes.build spec.lanes, spec.switches, rfl⟩
  rw [e.handleIrq_eq]
  exact drive_keeps (fun _ faults switched => switched.onFault faults)
    (fun _ events switched => switched.onEvent events) _ _ (switched.keeps keeps)

theorem Switched.bind (switched : Switched settings limits build e) (slave : Slave) :
    Switched settings limits build (e.bind settings slave) := by
  refine ⟨switched.toWired.bind slave, ?_⟩
  rcases switched.bind_cases slave with same | ⟨block, bound, -, -, -, line, events, -⟩
  · rw [same]
    exact switched.silent
  · rw [bound]
    intro free
    have before : e.state ≠ .busy := by
      intro busy
      rw [busy] at free
      exact free rfl
    have silent := switched.silent before
    exact ⟨events.trans silent.events, line.trans silent.line⟩

theorem Switched.submit (switched : Switched settings limits build e)
    (sound : Sound settings limits) (r : Request) :
    Switched settings limits build (e.submit settings r).2 := by
  rcases submit_spec switched.toWired sound r with ⟨failure, refused⟩ |
    ⟨f, accepted, -, -, launched⟩
  · rw [refused]
    exact switched
  · rw [accepted]
    exact .of_busy launched.wired launched.busy

theorem Switched.softReset (switched : Switched settings limits build e) :
    Switched settings limits build { e with host := e.host.softReset } := by
  obtain ⟨block, softReset, -, switches⟩ := e.host.softReset_spec
  simp only [Simulator.switches, Simulator.Switches.mk.injEq] at switches
  obtain ⟨-, -, intrEnable, -, eventEnable⟩ := switches
  refine ⟨switched.toWired.softReset, fun free => ?_⟩
  have silent := switched.silent free
  rw [softReset]
  exact ⟨eventEnable.trans silent.events, by rw [intrEnable]; exact silent.line⟩

theorem Switched.respond (switched : Switched settings limits build e)
    (sound : Sound settings limits) (st : Stimulus Move) :
    Switched settings limits build (e.respond Simulator.apply settings st) := by
  cases st with
  | bind slave => exact switched.bind slave
  | reset => exact switched.softReset
  | take => exact switched.keeps ⟨rfl, rfl, rfl, rfl⟩
  | submit r => exact switched.submit sound r
  | interrupt => exact switched.handleIrq
  | event events => exact switched.onEvent events
  | fault faults => exact switched.onFault faults
  | move m =>
    cases m with
    | tick =>
      exact switched.keeps ⟨rfl, e.host.block.build_step,
        Simulator.switches_of_registers e.host.block.registers_step, rfl⟩
    | inject bits => exact switched.keeps ⟨rfl, rfl, rfl, rfl⟩
    | pushMiso ws => exact switched.keeps ⟨rfl, rfl, rfl, rfl⟩
    | setLoopback on => exact switched.keeps ⟨rfl, rfl, rfl, rfl⟩

end Engine

end SerialBus
