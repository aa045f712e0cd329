import SerialBus.Proofs.Host.Steady
import SerialBus.Proofs.Simulator.Driver

namespace SerialBus.Host

variable {β : Type} [RegisterBlock β] (h : Host β)

theorem limits_setCommand (c : Command) : (h.setCommand c).2.limits = h.limits := by
  unfold setCommand
  split
  · rfl
  · rcases h.queueWord_cases c.toWord with ⟨err, -, refused⟩ | taken
    · rw [refused, limits_status]
    · rw [taken, limits_write, limits_status]

theorem writeWords_le (ws : List Word) : (h.writeWords ws).1 ≤ ws.length := by
  induction ws generalizing h with
  | nil => exact Nat.le_refl 0
  | cons w rest ih =>
    rcases written : h.writeWord w with ⟨result, g⟩
    cases result with
    | ok _ =>
      simp only [writeWords, written]
      exact Nat.succ_le_succ (ih g)
    | error err =>
      simp only [writeWords, written]
      exact Nat.zero_le _

theorem limits_take : (Interrupt.take h).2.limits = h.limits :=
  (steady_limits h.limits).firm.take rfl

theorem enableHost_ok :
    ∃ host, Controller.enableHost h = (.ok (), host) ∧ host.limits = h.limits := by
  have all : Faults.interrupting.contains Faults.interrupting = true := by decide
  simp only [Controller.enableHost, setFaultsEnabled, all, if_true, andThen]
  exact ⟨_, rfl, rfl⟩

theorem prepare_ok (settings : Settings)
    (tx : ¬ h.limits.txDepth < settings.txWatermark h.limits)
    (rx : ¬ h.limits.rxDepth < settings.rxWatermark h.limits) :
    ∃ host, Engine.prepare h settings = (.ok (), host) ∧ host.limits = h.limits := by
  have all : (FlagSet.all : Events).contains Engine.drivingEvents = true := by decide
  have second : ∀ g : Host β, g.limits = h.limits →
      g.setRxWatermark (settings.rxWatermark h.limits) =
        (.ok (), g.modify .control
          (Control.rxWatermark.put (settings.rxWatermark h.limits).toNat)) := by
    intro g same
    simp only [setRxWatermark, same, rx, if_false]
  simp only [Engine.prepare, setTxWatermark, tx, if_false, andThen, second _ (h.limits_modify _ _),
    setEventsEnabled, all, if_true]
  exact ⟨_, rfl, rfl⟩

theorem selectSlave_of_line (slave : Slave) (divider : UInt16)
    (line : (slave.csid.toBitVec.setWidth 32 : Word).toNat < h.lines) :
    ∃ host, Engine.selectSlave h slave divider = (.ok (), host) ∧ host.limits = h.limits := by
  simp only [Engine.selectSlave]
  generalize (slave.csid.toBitVec.setWidth 32 : Word) = csid at line
  have inside : ∀ g : Host β, g.limits = h.limits → ¬ g.lines ≤ csid.toNat := by
    intro g same
    rw [lines, same]
    exact Nat.not_le.mpr line
  have read : h.chipOptions csid =
      (.ok (.ofWord (h.read (.configOpts csid.toNat)).1), (h.read (.configOpts csid.toNat)).2) := by
    rw [chipOptions, if_neg (inside h rfl)]
  have options : ∀ g : Host β, g.limits = h.limits → ∀ current wanted : ChipOptions,
      ∃ f : Host β, (if current = wanted then (.ok (), g) else g.setChipOptions csid wanted) =
        ((.ok (), f) : Except HostError Unit × Host β) ∧ f.limits = h.limits := by
    intro g same current wanted
    split
    · exact ⟨g, rfl, same⟩
    · rw [setChipOptions, if_neg (inside g same)]
      exact ⟨_, rfl, same⟩
  have chosen : ∀ g : Host β, g.limits = h.limits →
      ∃ f : Host β, (if g.csid.1 = csid then (.ok (), g.csid.2) else g.csid.2.setCsid csid) =
        ((.ok (), f) : Except HostError Unit × Host β) ∧ f.limits = h.limits := by
    intro g same
    split
    · exact ⟨_, rfl, same⟩
    · rw [setCsid, if_neg (inside g.csid.2 same)]
      exact ⟨_, rfl, same⟩
  obtain ⟨f, set, first⟩ := options (h.read (.configOpts csid.toNat)).2 rfl
    (.ofWord (h.read (.configOpts csid.toNat)).1) (.ofSlave slave divider)
  simp only [read, set, andThen]
  exact chosen f first

theorem selectSlave_of_no_line (slave : Slave) (divider : UInt16)
    (line : h.lines ≤ (slave.csid.toBitVec.setWidth 32 : Word).toNat) :
    Engine.selectSlave h slave divider = (.error .csidInvalid, h) := by
  simp only [Engine.selectSlave, chipOptions, line, if_true]

theorem setCommand_transient (g : Segment) (csaat : Bool) (valid : g.validate = .ok ())
    (err : HostError) (refused : (h.setCommand (.ofSegment g csaat)).1 = .error err) :
    err.isTransient = true := by
  have accepted : (Command.ofSegment g csaat).validate = .ok () := by
    obtain ⟨allowed, nonzero, bound⟩ := g.valid_parts valid
    simp [Command.validate, Command.ofSegment, allowed, nonzero, UInt32.not_lt.mpr bound]
  simp only [setCommand, accepted] at refused
  rcases h.queueWord_cases (Command.ofSegment g csaat).toWord with ⟨_, transient, full⟩ | taken
  · rw [full] at refused
    cases refused
    exact transient
  · rw [taken] at refused
    cases refused

end SerialBus.Host
