import SerialBus.Controller.Binding
import SerialBus.Engine.Launch
import SerialBus.Proofs.Host.Steady
import SerialBus.Proofs.Simulator.Condition
import SerialBus.Proofs.Simulator.Traffic
import SerialBus.Simulator.Access

namespace SerialBus

namespace Simulator

/-- The registers that the driver sets and the block only reads. -/
structure Switches where
  control : Word
  csid : Word
  intrEnable : Word
  errorEnable : Word
  eventEnable : Word

def switches (s : Simulator) : Switches where
  control := s.control
  csid := s.csid
  intrEnable := s.intrEnable
  errorEnable := s.errorEnable
  eventEnable := s.eventEnable

theorem switches_of_registers {s t : Simulator} (same : t.registers = s.registers) :
    t.switches = s.switches := by
  simp only [registers, Registers.mk.injEq] at same
  obtain ⟨control, -, csid, intrEnable, -, errorEnable, -, eventEnable⟩ := same
  rw [switches, switches, control, csid, intrEnable, errorEnable, eventEnable]

theorem switches_pushCommand (s : Simulator) (w : Word) :
    (s.pushCommand w).build = s.build ∧ (s.pushCommand w).switches = s.switches := by
  rcases s.pushCommand_cases w with ⟨bits, pushed⟩ | pushed
  · rw [pushed]
    exact ⟨rfl, rfl⟩
  · rw [pushed]
    exact ⟨rfl, rfl⟩

theorem readRegister_keeps (r : Register) (s : Simulator) :
    (readRegister r s).2.control = s.control ∧ (readRegister r s).2.sent = s.sent := by
  cases r with
  | rxData =>
    simp only [readRegister, popData]
    split <;> exact ⟨rfl, rfl⟩
  | _ => exact ⟨rfl, rfl⟩

theorem writeRegister_keeps (r : Register) (w : Word) (s : Simulator) (plain : r.isPlain = true) :
    (writeRegister r w s).control = s.control ∧ (writeRegister r w s).sent = s.sent := by
  cases r with
  | command | control | errorEnable | intrTest | alertTest => cases plain
  | txData =>
    simp only [writeRegister, applyWrite, pushData]
    split <;> exact ⟨rfl, rfl⟩
  | _ => exact ⟨rfl, rfl⟩

theorem sent_pushCommand (s : Simulator) (w : Word) : (s.pushCommand w).sent = s.sent := by
  rcases s.pushCommand_cases w with ⟨bits, pushed⟩ | pushed
  · rw [pushed]
    rfl
  · rw [pushed]

structure On (s : Simulator) : Prop where
  enable : Control.enable.isSet s.control = true
  faults : (⟨s.errorEnable⟩ : Faults).contains Faults.interrupting = true
  line : Intr.error.isSet s.intrEnable = true

structure Prepared (settings : Settings) (limits : Limits) (s : Simulator) : Prop where
  txLevel : Control.txWatermark.get s.control = (settings.txWatermark limits).toNat
  rxLevel : Control.rxWatermark.get s.control = (settings.rxWatermark limits).toNat
  idle : EventEnable.idle.isSet s.eventEnable = true
  ready : EventEnable.ready.isSet s.eventEnable = true
  txWatermark : EventEnable.txWatermark.isSet s.eventEnable = true
  rxWatermark : EventEnable.rxWatermark.isSet s.eventEnable = true

theorem On.of_selected {s t : Simulator} {line : Word} (on : s.On)
    (same : t.switches = { s.switches with csid := line }) : t.On := by
  simp only [switches, Switches.mk.injEq] at same
  obtain ⟨control, -, intrEnable, errorEnable, -⟩ := same
  exact ⟨by rw [control]; exact on.enable, by rw [errorEnable]; exact on.faults,
    by rw [intrEnable]; exact on.line⟩

theorem On.of_switches {s t : Simulator} (on : s.On) (same : t.switches = s.switches) : t.On :=
  on.of_selected same

theorem Prepared.of_switches {settings : Settings} {limits : Limits} {s t : Simulator}
    (prepared : Prepared settings limits s) (same : t.switches = s.switches) :
    Prepared settings limits t := by
  simp only [switches, Switches.mk.injEq] at same
  obtain ⟨control, -, -, -, eventEnable⟩ := same
  exact ⟨by rw [control]; exact prepared.txLevel, by rw [control]; exact prepared.rxLevel,
    by rw [eventEnable]; exact prepared.idle, by rw [eventEnable]; exact prepared.ready,
    by rw [eventEnable]; exact prepared.txWatermark,
    by rw [eventEnable]; exact prepared.rxWatermark⟩

def withControl (s : Simulator) (w : Word) : Simulator :=
  { s with control := w, writes := s.writes ++ [(.control, w)] }

theorem switches_writeControl (s : Simulator) (w : Word) :
    (writeRegister .control w s).build = s.build ∧
      (writeRegister .control w s).switches = { s.switches with control := w } := by
  simp only [writeRegister, applyWrite]
  split <;> exact ⟨rfl, rfl⟩

structure Untouched (s t : Simulator) : Prop where
  lanes : t.lanes = s.lanes
  errorStatus : t.errorStatus = s.errorStatus
  reset : Control.reset.isSet s.control = false → Control.reset.isSet t.control = false

theorem Untouched.refl (s : Simulator) : Untouched s s := ⟨rfl, rfl, id⟩

theorem Untouched.trans {s t u : Simulator} (first : Untouched s t) (second : Untouched t u) :
    Untouched s u :=
  ⟨second.lanes.trans first.lanes, second.errorStatus.trans first.errorStatus,
    fun down => second.reset (first.reset down)⟩

end Simulator

namespace Host

variable (h : Host Simulator)

theorem modify_control (f : Word → Word) (down : Control.reset.isSet (f h.block.control) = false) :
    h.modify .control f = { h with block := h.block.withControl (f h.block.control) } := by
  have written : RegisterBlock.write .control (f h.block.control) h.block =
      h.block.withControl (f h.block.control) := by
    simp only [RegisterBlock.write, Simulator.writeRegister, Simulator.applyWrite, down,
      Bool.false_eq_true, if_false, Simulator.withControl]
  rw [← written]
  rfl

theorem spin_look (c : Condition) (n : Nat) : ((Wait.spin n).poll (Host.look c) h).2 = h := by
  unfold Wait.poll Wait.spin
  simp only
  induction n with
  | zero =>
    unfold Wait.pollFrom
    split
    · rename_i a s looked
      exact (congrArg Prod.snd looked).symm
    · rename_i s looked
      exact (congrArg Prod.snd looked).symm
  | succ n ih =>
    unfold Wait.pollFrom
    split
    · rename_i a s looked
      exact (congrArg Prod.snd looked).symm
    · rename_i s looked
      have same : s = h := (congrArg Prod.snd looked).symm
      subst same
      exact ih

theorem enableHost_spec (down : Control.reset.isSet h.block.control = false) :
    ∃ block, Controller.enableHost h = (.ok (), { h with block }) ∧
      Simulator.Untouched h.block block ∧ block.On ∧ block.csid = h.block.csid ∧
      Intr.event.isSet block.intrEnable = Intr.event.isSet h.block.intrEnable ∧
      block.eventEnable = h.block.eventEnable ∧
      ∀ settings limits, Simulator.Prepared settings limits h.block →
        Simulator.Prepared settings limits block := by
  have enabled := h.modify_control (Control.enable.putBit true)
    (by rw [Field.isSet_putBit_of_disjoint _ _ (by decide) (by decide), down])
  have reset : Control.reset.isSet
      (Control.outputEnable.putBit true (Control.enable.putBit true h.block.control)) = false := by
    simp (disch := decide) only [Field.isSet_putBit_of_disjoint, down]
  have output := modify_control
    { h with block := h.block.withControl (Control.enable.putBit true h.block.control) }
    (Control.outputEnable.putBit true) reset
  have all : Faults.interrupting.contains Faults.interrupting = true := by decide
  refine ⟨RegisterBlock.write .intrEnable (Intr.error.putBit true h.block.intrEnable)
    (RegisterBlock.write .errorEnable (h.block.errorEnable ||| Faults.interrupting.bits)
      ((h.block.withControl (Control.enable.putBit true h.block.control)).withControl
        (Control.outputEnable.putBit true (Control.enable.putBit true h.block.control)))),
    ?_, ⟨rfl, rfl, fun _ => reset⟩, ⟨?_, ?_, ?_⟩, rfl, ?_, rfl, ?_⟩
  · simp only [Controller.enableHost, setEnable, setOutputEnable, enabled, output,
      setFaultsEnabled, all, if_true, andThen]
    rfl
  · change Control.enable.isSet
      (Control.outputEnable.putBit true (Control.enable.putBit true h.block.control)) = true
    simp (disch := decide) only [Field.isSet_putBit_of_disjoint, Field.isSet_putBit_self]
  · exact FlagSet.contains_or h.block.errorEnable Faults.interrupting
  · exact Field.isSet_putBit_self _ (by decide) rfl _ _
  · exact Field.isSet_putBit_of_disjoint _ _ (by decide) (by decide) _ _
  · intro settings limits prepared
    refine ⟨?_, ?_, prepared.idle, prepared.ready, prepared.txWatermark, prepared.rxWatermark⟩
    · change Control.txWatermark.get
        (Control.outputEnable.putBit true (Control.enable.putBit true h.block.control)) = _
      simp (disch := decide) only [Field.get_putBit_of_disjoint, prepared.txLevel]
    · change Control.rxWatermark.get
        (Control.outputEnable.putBit true (Control.enable.putBit true h.block.control)) = _
      simp (disch := decide) only [Field.get_putBit_of_disjoint, prepared.rxLevel]

theorem softReset_spec :
    ∃ block, h.softReset = { h with block } ∧ block.build = h.block.build ∧
      block.switches = { h.block.switches with
        control := Control.reset.put 0 (Control.reset.put 1 h.block.control) } := by
  let raised := Simulator.writeRegister .control (Control.reset.put 1 h.block.control) h.block
  obtain ⟨build, switches⟩ := h.block.switches_writeControl (Control.reset.put 1 h.block.control)
  have control : raised.control = Control.reset.put 1 h.block.control :=
    congrArg Simulator.Switches.control switches
  obtain ⟨final, down⟩ := raised.switches_writeControl (Control.reset.put 0 raised.control)
  refine ⟨Simulator.writeRegister .control (Control.reset.put 0 raised.control) raised, rfl,
    final.trans build, ?_⟩
  rw [down, control, switches]

theorem softReset_lanes :
    h.softReset.block.lanes =
        { h.block.lanes with tx := [], rx := [], queue := [], current := none } ∧
      h.softReset.block.csid = h.block.csid ∧
      h.softReset.block.errorStatus = h.block.errorStatus := by
  have raised : Control.reset.isSet (Control.reset.put 1 h.block.control) = true :=
    Field.isSet_putBit_self Control.reset (by decide) rfl true _
  have lowered (w : Word) : Control.reset.isSet (Control.reset.put 0 w) = false :=
    Field.isSet_putBit_self Control.reset (by decide) rfl false _
  simp only [softReset, modify, read, write, RegisterBlock.read, RegisterBlock.write,
    Simulator.readRegister, Simulator.writeRegister, Simulator.applyWrite, raised, lowered, if_true,
    Bool.false_eq_true, if_false]
  exact ⟨rfl, rfl, rfl⟩

theorem prepare_spec (settings : Settings) (down : Control.reset.isSet h.block.control = false)
    (txFits : ¬ h.limits.txDepth < settings.txWatermark h.limits)
    (rxFits : ¬ h.limits.rxDepth < settings.rxWatermark h.limits) :
    ∃ block, Engine.prepare h settings = (.ok (), { h with block }) ∧
      Simulator.Untouched h.block block ∧ (h.block.On → block.On) ∧ block.csid = h.block.csid ∧
      Simulator.Prepared settings h.limits block := by
  let tx := (settings.txWatermark h.limits).toNat
  let rx := (settings.rxWatermark h.limits).toNat
  have txSmall : tx < 2 ^ Control.txWatermark.width := (settings.txWatermark h.limits).toNat_lt
  have rxSmall : rx < 2 ^ Control.rxWatermark.width := (settings.rxWatermark h.limits).toNat_lt
  have first := h.modify_control (Control.txWatermark.put tx)
    (by rw [Field.isSet_put_of_disjoint _ _ (by decide) (by decide), down])
  have reset : Control.reset.isSet
      (Control.rxWatermark.put rx (Control.txWatermark.put tx h.block.control)) = false := by
    simp (disch := decide) only [Field.isSet_put_of_disjoint, down]
  have second := modify_control
    { h with block := h.block.withControl (Control.txWatermark.put tx h.block.control) }
    (Control.rxWatermark.put rx) reset
  have all : (FlagSet.all : Events).contains Engine.drivingEvents = true := by decide
  have driven (f : Field) (single : f.width = 1)
      (among : f.isSet Engine.drivingEvents.bits = true) :
      f.isSet (h.block.eventEnable ||| Engine.drivingEvents.bits) = true := by
    rw [Field.isSet_or f single, among, Bool.or_true]
  refine ⟨RegisterBlock.write .eventEnable (h.block.eventEnable ||| Engine.drivingEvents.bits)
    ((h.block.withControl (Control.txWatermark.put tx h.block.control)).withControl
      (Control.rxWatermark.put rx (Control.txWatermark.put tx h.block.control))),
    ?_, ⟨rfl, rfl, fun _ => reset⟩, ?_, rfl, ?_⟩
  · simp only [Engine.prepare, setTxWatermark, txFits, if_false, andThen, tx, first, setRxWatermark,
      rxFits, rx, second, setEventsEnabled, all, if_true]
    rfl
  · intro on
    refine ⟨?_, on.faults, on.line⟩
    change Control.enable.isSet
      (Control.rxWatermark.put rx (Control.txWatermark.put tx h.block.control)) = true
    simp (disch := decide) only [Field.isSet_put_of_disjoint, on.enable]
  · refine ⟨?_, ?_, ?_, ?_, ?_, ?_⟩
    · change Control.txWatermark.get
        (Control.rxWatermark.put rx (Control.txWatermark.put tx h.block.control)) = tx
      rw [Field.get_put_of_disjoint _ _ (by decide) (by decide),
        Field.get_put_of_lt _ (by decide) _ txSmall]
    · change Control.rxWatermark.get
        (Control.rxWatermark.put rx (Control.txWatermark.put tx h.block.control)) = rx
      rw [Field.get_put_of_lt _ (by decide) _ rxSmall]
    · exact driven EventEnable.idle rfl (by decide)
    · exact driven EventEnable.ready rfl (by decide)
    · exact driven EventEnable.txWatermark rfl (by decide)
    · exact driven EventEnable.rxWatermark rfl (by decide)

end Host

end SerialBus
