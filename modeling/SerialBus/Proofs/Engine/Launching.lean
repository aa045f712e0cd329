import SerialBus.Proofs.Engine.Flow
import SerialBus.Proofs.Engine.Wiring
import SerialBus.Proofs.Simulator.Selection

namespace SerialBus

namespace Simulator

theorem not_clear_of_csidInvalid (s : Simulator) (w : Word)
    (latched : s.errorStatus = w ||| Faults.csidInvalid.bits) : ¬ s.Clear := by
  intro clear
  rw [Clear, latched] at clear
  have bit := congrArg (fun w => w.getLsbD 4) clear
  simp [Faults.csidInvalid, Faults.interrupting] at bit

theorem clear_of_zero (s : Simulator) (zero : s.errorStatus = 0) : s.Clear := by
  rw [Clear, zero]
  exact BitVec.zero_and

theorem Clear.of_errorStatus {s t : Simulator} (clear : s.Clear)
    (same : t.errorStatus = s.errorStatus) : t.Clear := by
  rw [Clear, same]
  exact clear

end Simulator

namespace Engine

variable {settings : Settings} {limits : Limits} {build : Simulator.Build} {r : Request}
  {e : Engine Simulator}

/-- The transaction of `r` is under way, unless a fault is latched. -/
def Underway (base : Simulator) (r : Request) (received : List Word) (e : Engine Simulator) :
    Prop :=
  e.host.block.Clear →
    Flow base r r.handle.slave.line received e ∧
      (0 < base.build.cmdDepth → 0 < e.cursors.segment)

structure Launched (settings : Settings) (limits : Limits) (build : Simulator.Build) (r : Request)
    (e f : Engine Simulator) : Prop where
  wired : Wired settings limits build f
  busy : f.state = .busy
  line : r.handle.slave.line.toNat < limits.lines.toNat
  tally : Tally e.host.block r {} [] f
  underway : Underway e.host.block r [] f
  errorStatus : r.handle.slave.line.toNat < build.lines →
    f.host.block.errorStatus = e.host.block.errorStatus

theorem Flow.begin (r : Request) (e : Engine Simulator) (block : Simulator)
    (valid : r.transaction.validate = .ok ()) (inactive : e.host.block.isActive = false)
    (lanes : block.lanes = e.host.block.lanes) :
    Flow e.host.block r block.csid []
      (e.launchedWith r.transaction r.callbacks { e.host with block } {}) := by
  simp only [Simulator.lanes, Simulator.Lanes.mk.injEq] at lanes
  obtain ⟨build, tx, rx, queue, current, sent, accepted⟩ := lanes
  have owed (p : Simulator.Entry → Bool) : block.owed p = 0 := by
    apply owed_of_inactive
    rw [Simulator.isActive, queue, current]
    exact inactive
  have idle : block.current = none ∧ block.queue = [] := by
    rw [queue, current]
    simpa [Simulator.isActive] using inactive
  exact
    { busy := rfl
      running := by
        simp only [launchedWith, List.take_zero, Buffers.filled_nil]
      callbacks := rfl
      valid := valid
      build := build
      select := rfl
      line := fun some => absurd some (Nat.lt_irrefl 0)
      segment := Nat.zero_le _
      tx := Nat.zero_le _
      rx := Nat.zero_le _
      rxAll := Nat.zero_le _
      accepted := by simp [launchedWith, accepted]
      sent := by simp [launchedWith, sent, tx]
      kept := by simp [launchedWith, rx]
      sending := by simp [launchedWith, owed, sent]
      receiving := by simp [launchedWith, owed]
      pace := by simp [launchedWith, owed]
      loaded := by
        refine ⟨?_, ?_⟩
        · intro a current
          rw [show (e.launchedWith r.transaction r.callbacks { e.host with block } {}).host.block =
            block from rfl, idle.1] at current
          cases current
        · intro x member
          rw [show (e.launchedWith r.transaction r.callbacks { e.host with block } {}).host.block =
            block from rfl, idle.2] at member
          cases member }

def selecting (e : Engine Simulator) (h : Handle) : Engine Simulator :=
  { e with host := { e.host with block := e.host.block.select h.slave h.divider } }

theorem setSlave_cases (e : Engine Simulator) (h : Handle) :
    (∃ err, e.setSlave h = (.error err, e)) ∨
      e.setSlave h = (.ok (), e.selecting h) ∧ e.host.block.isActive = false ∧
        h.slave.line.toNat < e.host.lines := by
  have status : e.host.status = (⟨e.host.block.status⟩, e.host) := rfl
  simp only [setSlave, status, Simulator.status_isActive]
  cases active : e.host.block.isActive with
  | true => exact .inl ⟨.notIdle, rfl⟩
  | false =>
    simp only [Bool.false_eq_true, if_false]
    rcases e.host.selectSlave_cases h.slave h.divider with ⟨err, refused⟩ | ⟨selected, line⟩
    · rw [refused]
      exact .inl ⟨slaveError err, rfl⟩
    · rw [selected]
      exact .inr ⟨rfl, trivial, line⟩

theorem start_eq (e : Engine Simulator) (t : Transaction) (callbacks : Callbacks)
    (free : e.state.canLaunch = true) :
    e.start t callbacks =
      { (e.launchedWith t callbacks e.host {}).fillTx with
        host := (e.launchedWith t callbacks e.host {}).fillTx.host.setEventIntr true } := by
  have busy := e.state.next_launched free
  simp only [start, Host.spin_look, launchedWith, reach, busy]

theorem Flow.of_start (r : Request) (e : Engine Simulator) (block : Simulator)
    (valid : r.transaction.validate = .ok ()) (free : e.state.canLaunch = true)
    (inactive : e.host.block.isActive = false) (lanes : block.lanes = e.host.block.lanes) :
    Flow e.host.block r block.csid []
      ({ e with host := { e.host with block } }.start r.transaction r.callbacks) := by
  rw [start_eq { e with host := { e.host with block } } r.transaction r.callbacks free]
  exact (Flow.begin r e block valid inactive lanes).fillTx.of_lanes rfl rfl rfl rfl rfl rfl

theorem Wired.of_start (e : Engine Simulator) (t : Transaction) (callbacks : Callbacks)
    (free : e.state.canLaunch = true) (host : e.host.limits = limits)
    (sized : e.host.block.build = build)
    (down : Control.reset.isSet e.host.block.control = false) (on : e.host.block.On)
    (prepared : Simulator.Prepared settings limits e.host.block) :
    Wired settings limits build (e.start t callbacks) := by
  have keeps := (feeds_fillTx (e.launchedWith t callbacks e.host {})).toKeeps
  rw [e.start_eq t callbacks free]
  generalize (e.launchedWith t callbacks e.host {}).fillTx = f at keeps
  have switches : f.host.block.switches = e.host.block.switches := keeps.switches
  have on' := on.of_switches switches
  have prepared' := prepared.of_switches switches
  refine ⟨keeps.limits.trans host, keeps.build.trans sized, ?_, ?_, ?_, ?_⟩
  · change Control.reset.isSet f.host.block.control = false
    rw [show f.host.block.control = e.host.block.control from
      congrArg Simulator.Switches.control switches]
    exact down
  · intro _
    refine ⟨on'.enable, on'.faults, ?_⟩
    change Intr.error.isSet (Intr.event.putBit true f.host.block.intrEnable) = true
    rw [Field.isSet_putBit_of_disjoint _ _ (by decide) (by decide)]
    exact on'.line
  · intro _
    exact ⟨prepared'.txLevel, prepared'.rxLevel, prepared'.idle, prepared'.ready,
      prepared'.txWatermark, prepared'.rxWatermark⟩
  · intro _
    exact Field.isSet_putBit_self Intr.event (by decide) rfl true f.host.block.intrEnable

structure Started (settings : Settings) (limits : Limits) (build : Simulator.Build) (r : Request)
    (e f : Engine Simulator) : Prop where
  wired : Wired settings limits build f
  flow : Flow e.host.block r r.handle.slave.line [] f
  segment : f.cursors.segment = 0
  queue : f.host.block.queue = []
  errorStatus : f.host.block.errorStatus = e.host.block.errorStatus

theorem start_spec (wired : Wired settings limits build e) (r : Request) (ready : Simulator)
    (valid : r.transaction.validate = .ok ()) (free : e.state.canLaunch = true)
    (inactive : e.host.block.isActive = false)
    (untouched : Simulator.Untouched e.host.block ready) (on : ready.On)
    (prepared : Simulator.Prepared settings limits ready)
    (select : ready.csid = r.handle.slave.line) :
    Started settings limits build r e
      ({ e with host := { e.host with block := ready } }.start r.transaction r.callbacks) := by
  have flow := Flow.of_start r e ready valid free inactive untouched.lanes
  have starts := Wired.of_start { e with host := { e.host with block := ready } } r.transaction
    r.callbacks free wired.host
    ((congrArg Simulator.Lanes.build untouched.lanes).trans wired.sized)
    (untouched.reset wired.reset) on prepared
  rw [select] at flow
  have begun := start_eq { e with host := { e.host with block := ready } } r.transaction r.callbacks
    free
  refine ⟨starts, flow, ?_, ?_, ?_⟩ <;> rw [begun, fillTx_eq]
  · rfl
  · have idle : e.host.block.queue = [] := by
      simp only [Simulator.isActive, Bool.or_eq_false_iff, Bool.not_eq_false',
        List.isEmpty_iff] at inactive
      exact inactive.2
    exact (congrArg Simulator.Lanes.queue untouched.lanes).trans idle
  · exact untouched.errorStatus

theorem Started.left {f : Engine Simulator} (started : Started settings limits build r e f) :
    f.cursors.segment < r.transaction.segments.length := by
  obtain ⟨some, -, -⟩ := r.transaction.validate_eq_ok started.flow.valid
  rw [started.segment]
  exact List.length_pos_iff.mpr some

theorem Started.first {f : Engine Simulator} (started : Started settings limits build r e f)
    (sound : Sound settings limits) :
    (f.issueNext.1 = .ok () ∨ ∃ err, f.issueNext.1 = .error err ∧ err.isTransient = true) ∧
      Underway e.host.block r [] f.issueNext.2 ∧
      (r.handle.slave.line.toNat < e.host.block.build.lines →
        f.issueNext.2.host.block.errorStatus = e.host.block.errorStatus) := by
  have flow := started.flow
  rcases flow.issueNext_cases started.left with ⟨err, transient, refused, full⟩ | ⟨taken, issued⟩ |
    ⟨taken, line, errorStatus⟩
  · rw [refused]
    refine ⟨.inr ⟨err, rfl, transient⟩, fun _ => ⟨flow, fun room => ?_⟩,
      fun _ => started.errorStatus⟩
    -- an empty queue refuses a command only if it has no depth at all
    have depth := sound.depths.2.2
    rw [started.queue, flow.build, started.wired.host] at full
    simp only [List.length_nil, Nat.le_zero_eq] at full
    omega
  · refine ⟨.inl taken, fun _ => ⟨issued.flow, fun _ => ?_⟩,
      fun _ => issued.errorStatus.trans started.errorStatus⟩
    rw [issued.cursor]
    exact Nat.succ_pos _
  · refine ⟨.inl taken, fun clear => ?_, fun inside => ?_⟩
    · exact absurd clear (Simulator.not_clear_of_csidInvalid _ _ errorStatus)
    · exact absurd inside (Nat.not_lt.mpr line)

theorem launch_spec (wired : Wired settings limits build e) (sound : Sound settings limits)
    (r : Request) (block : Simulator) (valid : r.transaction.validate = .ok ())
    (free : e.state.canLaunch = true) (inactive : e.host.block.isActive = false)
    (untouched : Simulator.Untouched e.host.block block)
    (switches : block.switches = { e.host.block.switches with csid := r.handle.slave.line })
    (line : r.handle.slave.line.toNat < limits.lines.toNat) :
    ∃ f, launch { e with host := { e.host with block } } settings r.transaction r.callbacks =
        (.ok (), f) ∧
      Launched settings limits build r e f := by
  have select : block.csid = r.handle.slave.line := congrArg Simulator.Switches.csid switches
  have before := wired.on (by
    intro none
    rw [none] at free
    cases free)
  have on : block.On := before.of_selected switches
  obtain ⟨txFits, rxFits⟩ := sound.watermarks
  rw [← wired.host] at txFits rxFits
  obtain ⟨ready, prepared, kept, still, csid, levels⟩ :=
    Host.prepare_spec { e.host with block } settings (untouched.reset wired.reset) txFits rxFits
  rw [wired.host] at levels
  have started := start_spec wired r ready valid free inactive (untouched.trans kept) (still on)
    levels (csid.trans select)
  obtain ⟨g, begun⟩ : ∃ g, { e with host := { e.host with block := ready } }.start
    r.transaction r.callbacks = g := ⟨_, rfl⟩
  rw [begun] at started
  obtain ⟨result, underway, errorStatus⟩ := started.first sound
  have issued := keeps_issueNext g
  have tally := started.flow.ledger.tally.issueNext started.left
  refine ⟨g.issueNext.2, ?_, started.wired.keeps issued, issued.state.trans started.flow.busy, line,
    tally, underway, fun inside => errorStatus (by rw [wired.sized]; exact inside)⟩
  simp only [launch, prepared, begun]
  rcases step : g.issueNext with ⟨outcome, f⟩
  rw [step] at result
  cases outcome with
  | ok _ => rfl
  | error err =>
    rcases result with accepted | ⟨other, refused, transient⟩
    · cases accepted
    · cases refused
      simp only [transient, if_true]

theorem submit_spec (wired : Wired settings limits build e) (sound : Sound settings limits)
    (r : Request) :
    (∃ failure, e.submit settings r = (.error failure, e)) ∨
      ∃ f, e.submit settings r = (.ok (), f) ∧ e.state.canLaunch = true ∧
        e.host.block.isActive = false ∧ Launched settings limits build r e f := by
  unfold submit
  cases checked : e.checkLaunch r.transaction with
  | error err => exact .inl ⟨_, rfl⟩
  | ok _ =>
    obtain ⟨free, valid⟩ := e.checkLaunch_eq_ok r.transaction checked
    rcases e.setSlave_cases r.handle with ⟨err, refused⟩ | ⟨selected, inactive, line⟩
    · rw [refused]
      exact .inl ⟨_, rfl⟩
    · have inside : r.handle.slave.line.toNat < limits.lines.toNat := by
        rw [← wired.host]
        exact Nat.lt_of_lt_of_le line (Nat.min_le_left _ _)
      obtain ⟨f, launched, spec⟩ :=
        launch_spec wired sound r _ valid free inactive (e.host.block.untouched_select _ _)
          (e.host.block.switches_select _ _) inside
      rw [selected]
      exact .inr ⟨f, launched, free, inactive, spec⟩

end Engine

end SerialBus
