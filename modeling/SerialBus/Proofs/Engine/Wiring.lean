import SerialBus.Proofs.Engine.Outcome
import SerialBus.Proofs.Simulator.Driver
import SerialBus.Proofs.Simulator.Interrupts

namespace SerialBus

structure Sound (settings : Settings) (limits : Limits) : Prop where
  limited : limits.validate = .ok ()
  fitting : settings.validate limits = .ok ()

namespace Sound

variable {settings : Settings} {limits : Limits}

theorem of_board (board : Board) (valid : board.validate = .ok ()) (id : PeripheralId) :
    Sound board.settings (board.hosts.get id) := by
  have each (l : Limits)
      (checked : (do l.validate; board.settings.validate l : Except ConfigError Unit) = .ok ()) :
      Sound board.settings l := by
    cases limits : l.validate with
    | error err =>
      simp only [limits, Bind.bind, Except.bind] at checked
      cases checked
    | ok _ =>
      simp only [limits, Bind.bind, Except.bind] at checked
      exact ⟨limits, checked⟩
  have all : ∀ l ∈ board.hosts.toList, Sound board.settings l := by
    unfold Board.validate at valid
    generalize board.hosts.toList = ls at valid
    induction ls with
    | nil => simp
    | cons l rest ih =>
      rw [List.forM_eq_forM, List.forM_cons] at valid
      cases first : (do l.validate; board.settings.validate l : Except ConfigError Unit) with
      | error err =>
        rw [first] at valid
        cases valid
      | ok _ =>
        rw [first] at valid
        intro x member
        rcases List.mem_cons.mp member with rfl | later
        · exact each x first
        · exact ih valid x later
  apply all
  cases id <;> simp [Trio.toList, Trio.get]

theorem depths (sound : Sound settings limits) :
    0 < limits.txDepth.toNat ∧ 0 < limits.rxDepth.toNat ∧ 0 < limits.cmdDepth.toNat := by
  have valid := sound.limited
  unfold Limits.validate at valid
  split at valid
  · cases valid
  · split at valid
    · cases valid
    · rename_i depths
      simp only [not_or] at depths
      refine ⟨?_, ?_, ?_⟩
      · exact Nat.pos_of_ne_zero fun zero => depths.1 (UInt8.toNat_inj.mp zero)
      · exact Nat.pos_of_ne_zero fun zero => depths.2.1 (UInt8.toNat_inj.mp zero)
      · exact Nat.pos_of_ne_zero fun zero => depths.2.2.1 (UInt8.toNat_inj.mp zero)

theorem watermarks (sound : Sound settings limits) :
    ¬ limits.txDepth < settings.txWatermark limits ∧
      ¬ limits.rxDepth < settings.rxWatermark limits := by
  have valid := sound.fitting
  unfold Settings.validate at valid
  split at valid
  · cases valid
  · split at valid
    · cases valid
    · rename_i fits
      exact not_or.mp fits

end Sound

namespace Engine

variable {settings : Settings} {limits : Limits} {build : Simulator.Build} {e f : Engine Simulator}

/-- How the block of an engine is set up in each state of the engine. -/
structure Wired (settings : Settings) (limits : Limits) (build : Simulator.Build)
    (e : Engine Simulator) : Prop where
  host : e.host.limits = limits
  sized : e.host.block.build = build
  reset : Control.reset.isSet e.host.block.control = false
  on : e.state ≠ .none → e.host.block.On
  prepared : e.state = .busy → Simulator.Prepared settings limits e.host.block
  line : e.state = .busy → Intr.event.isSet e.host.block.intrEnable = true

/-- Serving a transaction changes no switch and no state. -/
structure Keeps (e f : Engine Simulator) : Prop where
  limits : f.host.limits = e.host.limits
  build : f.host.block.build = e.host.block.build
  switches : f.host.block.switches = e.host.block.switches
  state : f.state = e.state

theorem Keeps.trans {g : Engine Simulator} (first : Keeps e f) (second : Keeps f g) : Keeps e g :=
  ⟨second.limits.trans first.limits, second.build.trans first.build,
    second.switches.trans first.switches, second.state.trans first.state⟩

theorem Wired.on_of_busy (wired : Wired settings limits build e) (busy : e.state = .busy) :
    e.host.block.On := by
  apply wired.on
  rw [busy]
  exact Lifecycle.noConfusion

theorem Wired.keeps (wired : Wired settings limits build e) (keeps : Keeps e f) :
    Wired settings limits build f := by
  have switches := keeps.switches
  refine ⟨keeps.limits.trans wired.host, keeps.build.trans wired.sized, ?_, ?_, ?_, ?_⟩
  · rw [show f.host.block.control = e.host.block.control from
      congrArg Simulator.Switches.control switches]
    exact wired.reset
  · rw [keeps.state]
    exact fun some => (wired.on some).of_switches switches
  · rw [keeps.state]
    exact fun busy => (wired.prepared busy).of_switches switches
  · rw [keeps.state, show f.host.block.intrEnable = e.host.block.intrEnable from
      congrArg Simulator.Switches.intrEnable switches]
    exact wired.line

structure Feeds (e f : Engine Simulator) : Prop extends Keeps e f where
  errorStatus : f.host.block.errorStatus = e.host.block.errorStatus
  queue : f.host.block.queue = e.host.block.queue
  current : f.host.block.current = e.host.block.current
  segment : f.cursors.segment = e.cursors.segment

theorem Feeds.refl (e : Engine Simulator) : Feeds e e := ⟨⟨rfl, rfl, rfl, rfl⟩, rfl, rfl, rfl, rfl⟩

theorem Feeds.trans {g : Engine Simulator} (first : Feeds e f) (second : Feeds f g) : Feeds e g :=
  ⟨first.toKeeps.trans second.toKeeps, second.errorStatus.trans first.errorStatus,
    second.queue.trans first.queue, second.current.trans first.current,
    second.segment.trans first.segment⟩

theorem feeds_fillTx (e : Engine Simulator) : Feeds e e.fillTx := by
  simp only [fillTx, Host.writeWords_eq]
  exact ⟨⟨rfl, rfl, rfl, rfl⟩, rfl, rfl, rfl, rfl⟩

theorem feeds_emptyRx (e : Engine Simulator) : Feeds e e.emptyRx := by
  unfold emptyRx
  split
  · exact .refl e
  · split
    · exact .refl e
    · simp only [Host.readWords_eq]
      exact ⟨⟨rfl, rfl, rfl, rfl⟩, rfl, rfl, rfl, rfl⟩

theorem feeds_notifyTxWatermark (e : Engine Simulator) : Feeds e e.notifyTxWatermark := by
  rw [e.notifyTxWatermark_frame]
  exact ⟨⟨rfl, rfl, rfl, rfl⟩, rfl, rfl, rfl, rfl⟩

theorem feeds_notifyRxWatermark (e : Engine Simulator) : Feeds e e.notifyRxWatermark := by
  rw [e.notifyRxWatermark_frame]
  exact ⟨⟨rfl, rfl, rfl, rfl⟩, rfl, rfl, rfl, rfl⟩

theorem feeds_serveQueues (e : Engine Simulator) (events : Events) :
    Feeds e (e.serveQueues events) := by
  unfold serveQueues
  simp only
  split <;> split
  · exact (e.feeds_fillTx.trans (feeds_notifyTxWatermark _)).trans
      ((feeds_emptyRx _).trans (feeds_notifyRxWatermark _))
  · exact e.feeds_emptyRx.trans (feeds_notifyRxWatermark _)
  · exact e.feeds_fillTx.trans (feeds_notifyTxWatermark _)
  · exact .refl e

theorem keeps_issueNext (e : Engine Simulator) : Keeps e e.issueNext.2 := by
  have queued (c : Command) : (e.host.setCommand c).2.limits = e.host.limits ∧
      (e.host.setCommand c).2.block.build = e.host.block.build ∧
      (e.host.setCommand c).2.block.switches = e.host.block.switches := by
    unfold Host.setCommand Host.queueWord
    split
    · exact ⟨rfl, rfl, rfl⟩
    · rcases e.host.checkQueue_cases with ⟨err, -, refused, -⟩ | ⟨taken, -⟩
      · rw [refused]
        exact ⟨rfl, rfl, rfl⟩
      · rw [taken]
        exact ⟨rfl, Simulator.switches_pushCommand _ _⟩
  unfold issueNext
  split
  · exact ⟨rfl, rfl, rfl, rfl⟩
  · rename_i g found
    simp only
    obtain ⟨limits, build, switches⟩ :=
      queued (.ofSegment g !decide (e.segmentCount ≤ e.cursors.segment + 1))
    rcases step : e.host.setCommand
      (.ofSegment g !decide (e.segmentCount ≤ e.cursors.segment + 1)) with ⟨result, host⟩
    rw [step] at limits build switches
    cases result with
    | ok _ => exact ⟨limits, build, switches, rfl⟩
    | error err => exact ⟨limits, build, switches, rfl⟩

theorem Wired.of_free (wired : Wired settings limits build e) (busy : e.state = .busy)
    (free : f.state = .init) (host : f.host.limits = e.host.limits)
    (same : f.host.block.build = e.host.block.build)
    (control : f.host.block.control = e.host.block.control)
    (errorEnable : f.host.block.errorEnable = e.host.block.errorEnable)
    (line : Intr.error.isSet f.host.block.intrEnable = Intr.error.isSet e.host.block.intrEnable) :
    Wired settings limits build f := by
  have on := wired.on_of_busy busy
  refine ⟨host.trans wired.host, same.trans wired.sized, ?_, ?_, ?_, ?_⟩
  · rw [control]
    exact wired.reset
  · intro _
    exact ⟨by rw [control]; exact on.enable, by rw [errorEnable]; exact on.faults,
      by rw [line]; exact on.line⟩
  · intro busy
    rw [free] at busy
    cases busy
  · intro busy
    rw [free] at busy
    cases busy

theorem quietLine (w : Word) : Intr.error.isSet (Intr.event.putBit false w) = Intr.error.isSet w :=
  Field.isSet_putBit_of_disjoint _ _ (by decide) (by decide) _ _

theorem Wired.abort (wired : Wired settings limits build e) (busy : e.state = .busy)
    (faults : Faults) : Wired settings limits build (e.abort faults) := by
  have host : (e.abort faults).host = e.quietHost := by
    rw [e.abort_eq faults busy]
    exact (tell_same _ _).2.2
  refine wired.of_free busy (e.state_abort faults busy)
    ?_ ?_ ?_ ?_ ?_ <;> rw [host]
  · rfl
  · rfl
  · rfl
  · rfl
  · exact quietLine _

theorem Wired.complete (wired : Wired settings limits build e) (busy : e.state = .busy) :
    Wired settings limits build e.complete := by
  have host : e.complete.host = e.drained.host := by
    rw [e.complete_eq busy]
    exact (tell_same _ _).2.2
  have keeps := (feeds_emptyRx e.quiesce).toKeeps
  refine wired.of_free busy (e.state_complete busy)
    ?_ ?_ ?_ ?_ ?_ <;> rw [host]
  · exact keeps.limits
  · exact keeps.build
  · exact congrArg Simulator.Switches.control keeps.switches
  · exact congrArg Simulator.Switches.errorEnable keeps.switches
  · rw [show e.drained.host.block.intrEnable = e.quiesce.host.block.intrEnable from
      congrArg Simulator.Switches.intrEnable keeps.switches]
    exact quietLine _

theorem Wired.onEvent (wired : Wired settings limits build e) (busy : e.state = .busy)
    (events : Events) : Wired settings limits build (e.onEvent events) := by
  have issued := keeps_issueNext e
  rcases e.onEvent_cases events busy with ⟨served, -⟩ | ⟨served, -⟩ | ⟨aborted, -⟩ | ⟨completed, -⟩
  · rw [served]
    exact wired.keeps (feeds_serveQueues e events).toKeeps
  · rw [served]
    exact wired.keeps (issued.trans (feeds_serveQueues _ events).toKeeps)
  · rw [aborted]
    exact (wired.keeps issued).abort (issued.state.trans busy) _
  · rw [completed]
    exact wired.complete busy

theorem Wired.drive (wired : Wired settings limits build e) (irq : Interrupt) :
    Wired settings limits build (e.drive irq) := by
  by_cases busy : e.state = .busy
  · rw [e.drive_eq irq busy]
    split
    · exact wired.onEvent busy irq.events
    · exact wired.abort busy irq.faults
  · rw [e.drive_of_free irq busy]
    exact wired

def acknowledged (e : Engine Simulator) : Engine Simulator :=
  { e with host := { e.host with block := e.host.block.acknowledged } }

theorem handleIrq_eq (e : Engine Simulator) :
    e.handleIrq = e.acknowledged.drive ⟨e.host.block.shownEvents, e.host.block.shownFaults⟩ := by
  simp only [handleIrq, Simulator.take_eq]
  rfl

theorem handleIrq_of_free (e : Engine Simulator) (free : e.state ≠ .busy) :
    e.handleIrq = e.acknowledged := by
  rw [e.handleIrq_eq]
  exact drive_of_free e.acknowledged _ free

theorem Wired.handleIrq (wired : Wired settings limits build e) :
    Wired settings limits build e.handleIrq := by
  rw [e.handleIrq_eq]
  exact (wired.keeps (f := e.acknowledged)
    ⟨rfl, congrArg Simulator.Lanes.build e.host.block.acknowledged_spec.lanes,
      e.host.block.acknowledged_spec.switches, rfl⟩).drive _

theorem Wired.bind_cases (wired : Wired settings limits build e) (slave : Slave) :
    e.bind settings slave = e ∨
      ∃ block, e.bind settings slave =
          { e with host := { e.host with block }, state := e.state.next .initialized } ∧
        Simulator.Untouched e.host.block block ∧ block.On ∧ block.csid = e.host.block.csid ∧
        Intr.event.isSet block.intrEnable = Intr.event.isSet e.host.block.intrEnable ∧
        block.eventEnable = e.host.block.eventEnable ∧
        (Simulator.Prepared settings limits e.host.block →
          Simulator.Prepared settings limits block) := by
  unfold Engine.bind
  split
  · exact .inl rfl
  · obtain ⟨block, enabled, untouched, on, csid, line, events, prepared⟩ :=
      e.host.enableHost_spec wired.reset
    refine .inr ⟨block, ?_, untouched, on, csid, line, events, prepared settings limits⟩
    rw [enabled]
    rfl

theorem busy_of_initialized (s : Lifecycle) (busy : s.next .initialized = .busy) : s = .busy := by
  revert busy
  cases s <;> simp [Lifecycle.next]

theorem Wired.bind (wired : Wired settings limits build e) (slave : Slave) :
    Wired settings limits build (e.bind settings slave) := by
  rcases wired.bind_cases slave with same | ⟨block, bound, untouched, on, -, line, -, prepared⟩
  · rw [same]
    exact wired
  · rw [bound]
    refine ⟨wired.host, (congrArg Simulator.Lanes.build untouched.lanes).trans wired.sized,
      untouched.reset wired.reset, fun _ => on, ?_, ?_⟩
    · exact fun busy => prepared (wired.prepared (busy_of_initialized _ busy))
    · exact fun busy => line.trans (wired.line (busy_of_initialized _ busy))

theorem Wired.softReset (wired : Wired settings limits build e) :
    Wired settings limits build { e with host := e.host.softReset } := by
  obtain ⟨block, softReset, sized, switches⟩ := e.host.softReset_spec
  simp only [Simulator.switches, Simulator.Switches.mk.injEq] at switches
  obtain ⟨control, -, intrEnable, errorEnable, eventEnable⟩ := switches
  rw [softReset]
  refine ⟨wired.host, sized.trans wired.sized, ?_, fun some => ?_, fun busy => ?_, ?_⟩
  · change Control.reset.isSet block.control = false
    have down := Control.reset.get_put_self (by decide) 0
      (Control.reset.put 1 e.host.block.control)
    rw [control, Field.isSet, down]
    rfl
  · have on := wired.on some
    refine ⟨?_, by rw [errorEnable]; exact on.faults, by rw [intrEnable]; exact on.line⟩
    rw [control]
    simp (disch := decide) only [Field.isSet_put_of_disjoint, on.enable]
  · have prepared := wired.prepared busy
    refine ⟨?_, ?_, by rw [eventEnable]; exact prepared.idle,
      by rw [eventEnable]; exact prepared.ready, by rw [eventEnable]; exact prepared.txWatermark,
      by rw [eventEnable]; exact prepared.rxWatermark⟩
    · rw [control]
      simp (disch := decide) only [Field.get_put_of_disjoint, prepared.txLevel]
    · rw [control]
      simp (disch := decide) only [Field.get_put_of_disjoint, prepared.rxLevel]
  · change e.state = .busy → Intr.event.isSet block.intrEnable = true
    rw [intrEnable]
    exact wired.line

end Engine

end SerialBus
