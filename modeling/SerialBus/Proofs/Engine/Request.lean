import SerialBus.Proofs.Engine.Launching
import SerialBus.Proofs.Engine.Record

namespace SerialBus.Engine

variable {β : Type} [RegisterBlock β] {settings : Settings} {limits : Limits} {e : Engine β}

inductive Submitted (limits : Limits) (r : Request) (e : Engine β) :
    Except Failure Unit × Engine β → Prop
  | refused (err : TransferError) (checked : e.checkLaunch r.transaction = .error err) :
    Submitted limits r e (.error ⟨err, r.transaction.buffers⟩, e)
  | active (checked : e.checkLaunch r.transaction = .ok ())
      (active : e.host.status.1.isActive = true) :
    Submitted limits r e
      (.error ⟨.notIdle, r.transaction.buffers⟩, { e with host := e.host.status.2 })
  | unselected (checked : e.checkLaunch r.transaction = .ok ())
      (line : limits.lines.toNat ≤ r.handle.slave.line.toNat) :
    Submitted limits r e
      (.error ⟨.slaveCsidInvalid, r.transaction.buffers⟩, { e with host := e.host.status.2 })
  | launched (checked : e.checkLaunch r.transaction = .ok ())
      (inactive : e.host.status.1.isActive = false) (f : Engine β) (going : Going limits f) :
    Submitted limits r e (.ok (), f)

omit [RegisterBlock β] in
theorem lines_of_sound (sound : Sound settings limits) (h : Host β) (same : h.limits = limits) :
    h.lines = limits.lines.toNat := by
  have valid := sound.limited
  unfold Limits.validate at valid
  split at valid
  · cases valid
  · rename_i lines
    have bound : ¬ Limits.maxLines < limits.lines := fun many => lines (.inr many)
    have two : limits.lines.toNat ≤ 2 := UInt8.le_iff_toNat_le.mp (UInt8.not_lt.mp bound)
    rw [Host.lines, same]
    exact Nat.min_eq_left two

theorem Going.of_start (e : Engine β) (t : Transaction) (callbacks : Callbacks)
    (same : e.host.limits = limits) (free : e.state.canLaunch = true)
    (valid : t.validate = .ok ()) : Going limits (e.start t callbacks) := by
  have busy := e.state.next_launched free
  have within : ({} : Cursors).Within t :=
    Cursors.within_of_valid {} t valid (Nat.zero_le _) (Nat.zero_le _) (Nat.zero_le _)
  have begun : Going limits
      { e.reach .launched with running := some t, callbacks, cursors := {} } :=
    ⟨same, busy, t, rfl, valid, within⟩
  exact begun.fillTx.of_host _ ((Host.steady_limits _).firm.spin _ _ rfl)

theorem launch_ok (e : Engine β) (sound : Sound settings limits) (t : Transaction)
    (callbacks : Callbacks) (same : e.host.limits = limits) (free : e.state.canLaunch = true)
    (valid : t.validate = .ok ()) :
    ∃ f, e.launch settings t callbacks = (.ok (), f) ∧ Going limits f := by
  obtain ⟨tx, rx⟩ := sound.watermarks
  rw [← same] at tx rx
  obtain ⟨host, prepared, kept⟩ := e.host.prepare_ok settings tx rx
  have started := Going.of_start { e with host } t callbacks (kept.trans same) free valid
  obtain ⟨g, begun⟩ : ∃ g, { e with host }.start t callbacks = g := ⟨_, rfl⟩
  rw [begun] at started
  -- the first segment is valid, so its command can be refused for now but not for good
  obtain ⟨going, transient⟩ := started.issueNext
  simp only [launch, prepared, begun]
  rcases step : g.issueNext with ⟨result, f⟩
  rw [step] at going transient
  cases result with
  | ok _ => exact ⟨f, rfl, going⟩
  | error err =>
    have later := transient err rfl
    simp only [later, if_true]
    exact ⟨f, rfl, going⟩

theorem submit_answer (sound : Sound settings limits) (same : e.host.limits = limits)
    (r : Request) : Submitted limits r e (e.submit settings r) := by
  unfold submit
  cases checked : e.checkLaunch r.transaction with
  | error err => exact .refused err checked
  | ok _ =>
    obtain ⟨free, valid⟩ := e.checkLaunch_eq_ok r.transaction checked
    simp only [setSlave]
    by_cases active : e.host.status.1.isActive = true
    · simp only [active, if_true]
      exact .active checked active
    · simp only [active, Bool.false_eq_true, if_false]
      have looked : e.host.status.2.limits = limits := same
      have lines := lines_of_sound sound e.host.status.2 looked
      by_cases line : limits.lines.toNat ≤ r.handle.slave.line.toNat
      · have refused := e.host.status.2.selectSlave_of_no_line r.handle.slave r.handle.divider
          (by rw [lines]; exact line)
        simp only [refused, slaveError]
        exact .unselected checked line
      · obtain ⟨host, selected, kept⟩ := e.host.status.2.selectSlave_of_line r.handle.slave
          r.handle.divider (by rw [lines]; exact Nat.lt_of_not_le line)
        obtain ⟨f, launched, going⟩ := launch_ok { e with host } sound r.transaction r.callbacks
          (kept.trans looked) free valid
        simp only [selected, launched]
        exact .launched checked (Bool.eq_false_iff.mpr active) f going

end SerialBus.Engine
