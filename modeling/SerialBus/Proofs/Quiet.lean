import SerialBus.Proofs.Engine.Steady
import SerialBus.Proofs.Resets

namespace SerialBus

open Simulator (Move)

theorem Field.flag_and_of_not_isSet (f : Field) (fits : f.Fits) (single : f.width = 1) (w : Word)
    (down : f.isSet w = false) : f.flag &&& w = 0 := by
  rw [isSet_eq_getLsbD f single] at down
  rw [flag_eq_twoPow f fits single, BitVec.twoPow_and, down]
  rfl

namespace Simulator

/-- No interrupt was raised for a test, and no fault is enabled that cannot interrupt. -/
structure Untested (s : Simulator) : Prop where
  latched : s.intrLatched = 0
  faults : s.errorEnable &&& Faults.interrupting.bits = s.errorEnable

/-- With the fault interrupt on, none of the faults that are enabled is latched. -/
def Hushed (s : Simulator) : Prop :=
  Intr.error.isSet s.intrEnable = true → s.errorStatus &&& s.errorEnable = 0

variable {s t : Simulator}

theorem Untested.of_same (untested : s.Untested) (latched : t.intrLatched = s.intrLatched)
    (enabled : t.errorEnable = s.errorEnable) : t.Untested :=
  ⟨latched.trans untested.latched, by rw [enabled]; exact untested.faults⟩

theorem Untested.of_registers (untested : s.Untested) (same : t.registers = s.registers) :
    t.Untested :=
  untested.of_same (congrArg Registers.intrLatched same) (congrArg Registers.errorEnable same)

theorem Hushed.of_same (hushed : s.Hushed) (errorStatus : t.errorStatus = s.errorStatus)
    (errorEnable : t.errorEnable = s.errorEnable)
    (line : Intr.error.isSet t.intrEnable = Intr.error.isSet s.intrEnable) : t.Hushed := by
  rw [Hushed, errorStatus, errorEnable, line]
  exact hushed

theorem Hushed.of_switches (hushed : s.Hushed) (errorStatus : t.errorStatus = s.errorStatus)
    (same : t.switches = s.switches) : t.Hushed :=
  hushed.of_same errorStatus (congrArg Switches.errorEnable same)
    (congrArg (fun w => Intr.error.isSet w.intrEnable) same)

theorem irqPending_of_hushed (untested : s.Untested) (silent : s.Silent) (hushed : s.Hushed) :
    s.irqPending = false := by
  have noEvent : s.eventLevels &&& s.eventEnable = 0 := by
    rw [silent.events]
    exact BitVec.and_zero
  have raised : s.intrState =
      if s.errorStatus &&& s.errorEnable ≠ 0 then Intr.error.flag else 0 := by
    simp [intrState, untested.latched, noEvent]
  have none : s.intrState &&& s.intrEnable = 0 := by
    rw [raised]
    cases line : Intr.error.isSet s.intrEnable with
    | true =>
      rw [if_neg (not_not_intro (hushed line))]
      exact BitVec.zero_and
    | false =>
      split
      · exact Intr.error.flag_and_of_not_isSet (by decide) rfl _ line
      · exact BitVec.zero_and
  simp [irqPending, none]

theorem errorStatus_acknowledged (s : Simulator) :
    s.acknowledged.errorStatus =
      if Intr.error.isSet s.pending then s.errorStatus &&& ~~~(FlagSet.all : Faults).bits
      else s.errorStatus := by
  rw [acknowledged_eq]

theorem hushed_acknowledged (untested : s.Untested) : s.acknowledged.Hushed := by
  have switches := s.acknowledged_spec.switches
  have enabled : s.acknowledged.errorEnable = s.errorEnable :=
    congrArg Switches.errorEnable switches
  have line : s.acknowledged.intrEnable = s.intrEnable := congrArg Switches.intrEnable switches
  unfold Hushed
  rw [line, enabled, errorStatus_acknowledged]
  intro on
  cases shown : Intr.error.isSet s.pending with
  | true =>
    have apart : ~~~(FlagSet.all : Faults).bits &&& Faults.interrupting.bits = 0 := by decide
    calc (s.errorStatus &&& ~~~(FlagSet.all : Faults).bits) &&& s.errorEnable
        = (s.errorStatus &&& s.errorEnable) &&&
            (~~~(FlagSet.all : Faults).bits &&& Faults.interrupting.bits) := by
          rw [← untested.faults]
          ac_rfl
      _ = 0 := by
        rw [apart]
        exact BitVec.and_zero
  | false =>
    rw [pending, Field.isSet_and _ rfl, intrState_error, on, Bool.and_true, Bool.or_eq_false_iff,
      decide_eq_false_iff_not, not_not] at shown
    exact shown.2

end Simulator

namespace Host

theorem steady_untested : Steady fun h : Host Simulator => h.block.Untested where
  read r h untested := by
    cases r with
    | rxData =>
      change h.block.popData.2.Untested
      unfold Simulator.popData
      split <;> exact untested.of_same rfl rfl
    | _ => exact untested
  write r w h plain untested := by
    cases r with
    | command | control | errorEnable | intrTest | alertTest => cases plain
    | intrState =>
      refine ⟨?_, untested.faults⟩
      change h.block.intrLatched &&& ~~~w = 0
      rw [untested.latched]
      exact BitVec.zero_and
    | txData =>
      change (Simulator.pushData _ w).Untested
      unfold Simulator.pushData
      split <;> exact untested.of_same rfl rfl
    | _ => exact untested.of_same rfl rfl
  control f h _ untested := by
    change (Simulator.writeRegister .control _ h.block).Untested
    simp only [Simulator.writeRegister, Simulator.applyWrite]
    split <;> exact untested.of_same rfl rfl
  faults h untested := by
    refine ⟨untested.latched, ?_⟩
    change (h.block.errorEnable ||| _) &&& _ = h.block.errorEnable ||| _
    rw [BitVec.and_or_distrib_right, untested.faults, BitVec.and_self]

theorem untested_command (w : Word) (h : Host Simulator) (untested : h.block.Untested) :
    (h.write .command w).block.Untested := by
  change (Simulator.pushCommand _ w).Untested
  rcases Simulator.pushCommand_cases { h.block with writes := h.block.writes ++ [(.command, w)] } w
    with ⟨bits, pushed⟩ | pushed
  · rw [pushed]
    exact untested.of_same rfl rfl
  · rw [pushed]
    exact untested.of_same rfl rfl

theorem setCommand_of_error (h : Host Simulator) (c : Command) (err : HostError)
    (refused : (h.setCommand c).1 = .error err) : (h.setCommand c).2 = h := by
  unfold setCommand queueWord at *
  split at refused
  · rfl
  · rcases h.checkQueue_cases with ⟨full, -, checked, -⟩ | ⟨checked, -⟩
    · rw [checked]
    · rw [checked] at refused
      cases refused

end Host

namespace Engine

variable {settings : Settings} {limits : Limits} {build : Simulator.Build} {e : Engine Simulator}

theorem untested_respond (e : Engine Simulator) (settings : Settings) (st : Stimulus Move)
    (untested : e.host.block.Untested) :
    (e.respond Simulator.apply settings st).host.block.Untested := by
  refine steady_respond Host.steady_untested Host.untested_command Simulator.apply ?_ settings st
    untested
  intro m h before
  cases m with
  | tick => exact before.of_registers h.block.registers_step
  | inject | pushMiso | setLoopback => exact before.of_same rfl rfl

theorem issueNext_of_error (e : Engine Simulator) (err : HostError)
    (refused : e.issueNext.1 = .error err) : e.issueNext.2 = e := by
  unfold issueNext at *
  split at refused
  · cases refused
  · rename_i g found
    simp only at refused ⊢
    split at refused
    · cases refused
    · rename_i err host step
      have same := e.host.setCommand_of_error _ err (congrArg Prod.fst step)
      rw [step] at same
      simp only at same ⊢
      rw [same]

-- However a call of the handler ends a transaction, it ends with no fault left to interrupt.

theorem hushed_quietHost (e : Engine Simulator) (hushed : e.host.block.Hushed) :
    e.quietHost.block.Hushed :=
  hushed.of_same rfl rfl (quietLine _)

theorem hushed_abort (e : Engine Simulator) (faults : Faults) (busy : e.state = .busy)
    (hushed : e.host.block.Hushed) : (e.abort faults).host.block.Hushed := by
  rw [e.abort_eq faults busy, (tell_same _ _).2.2]
  exact e.hushed_quietHost hushed

theorem hushed_complete (e : Engine Simulator) (busy : e.state = .busy)
    (hushed : e.host.block.Hushed) : e.complete.host.block.Hushed := by
  have feeds := feeds_emptyRx e.quiesce
  rw [e.complete_eq busy, (tell_same _ _).2.2]
  exact (e.hushed_quietHost hushed).of_switches feeds.errorStatus feeds.switches

theorem hushed_onEvent (e : Engine Simulator) (events : Events) (busy : e.state = .busy)
    (hushed : e.host.block.Hushed) (free : (e.onEvent events).state ≠ .busy) :
    (e.onEvent events).host.block.Hushed := by
  -- of the four ends of the routine two leave the transaction running, which `free` excludes
  rcases e.onEvent_cases events busy with ⟨served, -⟩ | ⟨served, -⟩ | ⟨aborted, -, err, refused, -⟩ |
    ⟨completed, -⟩
  · rw [served, (feeds_serveQueues e events).state] at free
    exact absurd busy free
  · rw [served, (feeds_serveQueues _ events).state, (keeps_issueNext e).state] at free
    exact absurd busy free
  · rw [aborted, e.issueNext_of_error err refused]
    exact e.hushed_abort _ busy hushed
  · rw [completed]
    exact e.hushed_complete busy hushed

theorem hushed_handleIrq (e : Engine Simulator) (untested : e.host.block.Untested)
    (free : e.handleIrq.state ≠ .busy) : e.handleIrq.host.block.Hushed := by
  have hushed : e.acknowledged.host.block.Hushed := Simulator.hushed_acknowledged untested
  rw [e.handleIrq_eq] at free ⊢
  by_cases busy : e.acknowledged.state = .busy
  · rw [drive_eq _ _ busy] at free ⊢
    split
    · rename_i none
      rw [if_pos none] at free
      exact hushed_onEvent _ _ busy hushed free
    · exact hushed_abort _ _ busy hushed
  · rw [drive_of_free _ _ busy]
    exact hushed

/-- No transaction runs on the block, and nothing is left that could raise its line. -/
structure Quiet (settings : Settings) (limits : Limits) (build : Simulator.Build)
    (e : Engine Simulator) : Prop extends Switched settings limits build e where
  free : e.state ≠ .busy
  untested : e.host.block.Untested
  hushed : e.host.block.Hushed

theorem Quiet.irqPending (quiet : Quiet settings limits build e) :
    e.host.block.irqPending = false :=
  Simulator.irqPending_of_hushed quiet.untested (quiet.silent quiet.free) quiet.hushed

end Engine

/-- A client binds a slave or asks for a transaction, or the hardware latches a fault. -/
def Stimulus.rouses : Stimulus Move → Bool
  | .bind _ | .submit _ | .move (.inject _) => true
  | _ => false

namespace Engine

variable {settings : Settings} {limits : Limits} {build : Simulator.Build} {e : Engine Simulator}

theorem Quiet.respond (quiet : Quiet settings limits build e) (sound : Sound settings limits)
    (st : Stimulus Move) (calm : st.rouses = false) :
    Quiet settings limits build (e.respond Simulator.apply settings st) := by
  have switched := quiet.toSwitched.respond sound st
  have untested := e.untested_respond settings st quiet.untested
  have kept (free : (e.respond Simulator.apply settings st).state ≠ .busy)
      (hushed : (e.respond Simulator.apply settings st).host.block.Hushed) :
      Quiet settings limits build (e.respond Simulator.apply settings st) :=
    ⟨switched, free, untested, hushed⟩
  cases st with
  | bind | submit => cases calm
  | take => exact kept quiet.free quiet.hushed
  | reset =>
    obtain ⟨block, softReset, -, switches⟩ := e.host.softReset_spec
    have errorStatus := e.host.softReset_lanes.2.2
    refine kept quiet.free (quiet.hushed.of_same errorStatus ?_ ?_)
    · change e.host.softReset.block.errorEnable = _
      rw [softReset]
      exact congrArg Simulator.Switches.errorEnable switches
    · change Intr.error.isSet e.host.softReset.block.intrEnable = _
      rw [softReset]
      exact congrArg (fun w => Intr.error.isSet w.intrEnable) switches
  | interrupt =>
    have free : e.handleIrq.state ≠ .busy := by
      rw [e.handleIrq_of_free quiet.free]
      exact quiet.free
    exact kept free (e.hushed_handleIrq quiet.untested free)
  | event events =>
    have still : e.respond Simulator.apply settings (.event events) = e :=
      e.onEvent_of_free events quiet.free
    rw [still]
    exact quiet
  | fault faults =>
    have still : e.respond Simulator.apply settings (.fault faults) = e :=
      e.onFault_of_free faults quiet.free
    rw [still]
    exact quiet
  | move m =>
    cases m with
    | inject => cases calm
    | pushMiso | setLoopback => exact kept quiet.free (quiet.hushed.of_switches rfl rfl)
    | tick =>
      have registers := e.host.block.registers_step
      exact kept quiet.free (quiet.hushed.of_switches
        (congrArg Simulator.Registers.errorStatus registers)
        (Simulator.switches_of_registers registers))

end Engine

namespace Controller

variable {c : Controller Simulator} {builds : PeripheralId → Simulator.Build} {board : Board}
  {allowed : Action Move → Prop}

theorem untested_of_reached
    (reached : Reached Simulator.apply allowed (freshBlocks builds) board c) (id : PeripheralId) :
    (c.block id).Untested := by
  obtain ⟨first, as, built, -, rfl⟩ := reached
  refine first.engine_run (P := fun e => e.host.block.Untested) Simulator.apply as id ?_
    fun _ _ st _ e untested => e.untested_respond first.settings st untested
  rw [(new_eq_ok _ board first built).2.2, freshBlocks, Trio.get_ofFn]
  exact ⟨rfl, BitVec.zero_and⟩

/-- After a call of the handler that leaves its block without a running transaction, the interrupt
    line of the block is down. It stays down, and the block stays free, through steps of the bus,
    resets, further calls of the handler and all else but a call that binds a slave or asks for a
    transaction, and a fault of the hardware. -/
theorem no_storm_after_service
    (reached : Reached Simulator.apply (fun _ => True) (freshBlocks builds) board c)
    (id : PeripheralId)
    (free : ((c.act Simulator.apply (.handleIrq id)).engine id).state ≠ .busy)
    (as : List (Action Move)) (calm : ∀ a ∈ as, ∀ st, a.stimulus? id = some st → st.rouses = false) :
    let last := (c.act Simulator.apply (.handleIrq id)).run Simulator.apply as
    (last.engine id).state ≠ .busy ∧ (last.block id).irqPending = false := by
  intro last
  obtain ⟨sound, switched⟩ := switched_of_reached reached id
  have served : (c.act Simulator.apply (.handleIrq id)).engine id = (c.engine id).handleIrq := by
    rw [engine_act]
    simp [Action.stimulus?, Engine.respond]
  rw [served] at free
  have untested := untested_of_reached reached id
  have first : Engine.Quiet c.settings (board.hosts.get id) (builds id)
      ((c.act Simulator.apply (.handleIrq id)).engine id) := by
    rw [served]
    exact ⟨switched.handleIrq, free, (c.engine id).untested_respond c.settings .interrupt untested,
      (c.engine id).hushed_handleIrq untested free⟩
  have quiet := engine_run Simulator.apply _ as id first fun a member st stimulus e quiet => by
    rw [settings_act]
    exact quiet.respond sound st (calm a member st stimulus)
  exact ⟨quiet.free, quiet.irqPending⟩

def sentOff : Controller Simulator :=
  bench.run Simulator.apply
    [.init .host { freq := 10000000 }, .transmit benchHandle { words := [1, 2] } 8 {},
      .move .host .tick, .move .host .tick]

theorem no_storm_after_service_sentOff :
    (sentOff.engine .host).state = .busy ∧ (sentOff.block .host).irqPending = true ∧
      let last := (sentOff.act Simulator.apply (.handleIrq .host)).run Simulator.apply
        [.move .host .tick, .reset benchHandle, .handleIrq .host]
      (last.engine .host).state ≠ .busy ∧ (last.block .host).irqPending = false := by
  refine ⟨by decide +kernel, by decide +kernel, ?_⟩
  have reached : Reached Simulator.apply (fun _ => True) (freshBlocks fun _ => {}) {} sentOff :=
    ⟨bench, _, rfl, fun _ _ => trivial, rfl⟩
  refine no_storm_after_service reached .host (by decide +kernel) _ ?_
  intro a member st stimulus
  simp only [List.mem_cons, List.not_mem_nil, or_false] at member
  rcases member with rfl | rfl | rfl <;> cases stimulus <;> rfl

end Controller

end SerialBus
