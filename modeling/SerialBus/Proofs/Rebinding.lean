import SerialBus.Proofs.Clock
import SerialBus.Proofs.Engine.Steady
import SerialBus.Proofs.Run.Course
import SerialBus.Proofs.Run.Recorded

namespace SerialBus

open Simulator (Move)

namespace Slave

variable {s : Slave} {lines : UInt8}

structure Placed (s : Slave) (lines : UInt8) : Prop where
  line : ¬lines ≤ s.csid
  timing : ¬(timingMax < s.idle ∨ timingMax < s.lead ∨ timingMax < s.trail)

theorem Placed.realized (placed : s.Placed lines) (sys : UInt32) (d : UInt16) :
    (s.realized sys d).Placed lines := ⟨placed.line, placed.timing⟩

theorem Placed.validate (placed : s.Placed lines) (sys : UInt32) :
    s.validate lines sys = (Clock.divider sys s.freq).mapError .frequency := by
  rw [Slave.validate, if_neg placed.line, if_neg placed.timing]

theorem placed_of_validate (sys : UInt32) (d : UInt16) (valid : s.validate lines sys = .ok d) :
    s.Placed lines ∧ Clock.divider sys s.freq = .ok d := by
  have placed : s.Placed lines := by
    unfold validate at valid
    split at valid
    · cases valid
    rename_i line
    split at valid
    · cases valid
    rename_i timing
    exact ⟨line, timing⟩
  refine ⟨placed, ?_⟩
  rw [placed.validate] at valid
  cases found : Clock.divider sys s.freq with
  | error e =>
    rw [found] at valid
    cases valid
  | ok e =>
    rw [found] at valid
    cases valid
    rfl

end Slave

namespace Controller

variable {β μ : Type} [RegisterBlock β]

theorem limits_run (env : μ → β → β) (c : Controller β) (as : List (Action μ))
    (id : PeripheralId) :
    ((c.run env as).engine id).host.limits = (c.engine id).host.limits := by
  apply engine_run (P := fun e => e.host.limits = (c.engine id).host.limits) env c as id rfl
  intro _ _ st _ e same
  exact Engine.steady_respond (Host.steady_limits _) (fun _ _ same => same) env
    (fun _ _ same => same) c.settings st same

theorem init_realized (c : Controller β) (id : PeripheralId) (s : Slave) (d : UInt16)
    (placed : s.Placed (c.engine id).host.limits.lines) :
    (c.init id (s.realized c.settings.clock d)).1 =
      match Clock.divider c.settings.clock (Clock.realized c.settings.clock d) with
      | .error _ => .error .slaveFreqInvalid
      | .ok e =>
        let slave := s.realized c.settings.clock e
        .ok { id := some id, isInit := true, slave, divider := e } := by
  rw [init_answer, (placed.realized c.settings.clock d).validate]
  simp only [Slave.realized]
  cases Clock.divider c.settings.clock (Clock.realized c.settings.clock d) <;> rfl

/-- The slave of a handle, bound again at once or after a run, gives the same handle exactly if the
    divider divides the clock without a rest. Else it gives a slower one, or none if the rate fell
    below the lowest. -/
theorem rebinding_stable_iff (env : μ → β → β) (c : Controller β) (id : PeripheralId)
    (slave : Slave) (h : Handle) (bound : (c.init id slave).1 = .ok h) (as : List (Action μ)) :
    let sys := c.settings.clock
    let again := (((c.init id slave).2.run env as).init id h.slave).1
    (again = .ok h ↔ 2 * (h.divider.toNat + 1) ∣ sys.toNat) ∧
      (Clock.divider sys h.slave.freq = .ok h.divider ↔
        2 * (h.divider.toNat + 1) ∣ sys.toNat) ∧
      (again = .error .slaveFreqInvalid ↔ h.slave.freq < Clock.minFrequency sys) ∧
      ∀ later, again = .ok later → later ≠ h →
        h.divider < later.divider ∧ later.slave = h.slave.realized sys later.divider ∧
          later.slave.freq ≤ h.slave.freq := by
  intro sys again
  obtain ⟨d, valid, rfl⟩ := c.init_eq_ok id slave h bound
  obtain ⟨placed, found⟩ := Slave.placed_of_validate sys d valid
  have ticking : sys ≠ 0 := (not_or.mp (Clock.isLeast_of_found found).1).1
  have answer : again = match Clock.divider sys (Clock.realized sys d) with
      | .error _ => .error .slaveFreqInvalid
      | .ok e =>
        let slave := slave.realized sys e
        .ok { id := some id, isInit := true, slave, divider := e } := by
    -- the lines and the clock are the same after the run
    have kept := limits_run env c (.init id slave :: as) id
    have told := (c.run env (.init id slave :: as)).init_realized id slave d (by rwa [kept])
    rw [settings_run] at told
    exact told
  have stable := Clock.divider_realized_eq_iff ticking d
  have reached := Clock.divider_realized_isOk_iff ticking d
  refine ⟨?_, stable, ?_, ?_⟩
  · rw [← stable, answer]
    cases Clock.divider sys (Clock.realized sys d) with
    | error err => exact ⟨fun same => (nomatch same), fun same => (nomatch same)⟩
    | ok e =>
      constructor
      · intro same
        exact congrArg Except.ok (congrArg Handle.divider (Except.ok.inj same))
      · intro same
        rw [Except.ok.inj same]
  · change _ ↔ Clock.realized sys d < Clock.minFrequency sys
    rw [← UInt32.not_le, ← reached, answer]
    cases Clock.divider sys (Clock.realized sys d) with
    | error err => exact ⟨fun _ => Bool.false_ne_true, fun _ => rfl⟩
    | ok e => exact ⟨fun same => (nomatch same), fun refused => absurd rfl refused⟩
  · intro later accepted other
    rw [answer] at accepted
    cases slower : Clock.divider sys (Clock.realized sys d) with
    | error err =>
      rw [slower] at accepted
      cases accepted
    | ok e =>
      rw [slower] at accepted
      cases accepted
      obtain ⟨steps, rate⟩ := Clock.le_of_divider_realized ticking slower
      refine ⟨UInt16.lt_of_le_of_ne steps ?_, rfl, rate⟩
      rintro rfl
      exact other rfl

theorem rebinding_stable_iff_rounded :
    let slave : Slave := { freq := 20000000 }
    let h : Handle :=
      { id := some .host, isInit := true, slave := { freq := 16666666 }, divider := 2 }
    let later : Handle :=
      { id := some .host, isInit := true, slave := { freq := 12500000 }, divider := 3 }
    (bench.init .host slave).1 = .ok h ∧
      ((bench.init .host slave).2.init .host h.slave).1 = .ok later ∧
      later.slave.freq ≤ h.slave.freq ∧
      ¬2 * (h.divider.toNat + 1) ∣ bench.settings.clock.toNat := by
  intro slave h later
  have bound : (bench.init .host slave).1 = .ok h := by decide +kernel
  have again : ((bench.init .host slave).2.init .host h.slave).1 = .ok later := by decide +kernel
  have other : later ≠ h := by decide
  obtain ⟨stable, -, -, slower⟩ :=
    rebinding_stable_iff Simulator.apply bench .host slave h bound []
  refine ⟨bound, again, (slower later again other).2.2, fun even => other ?_⟩
  have same := again.symm.trans (stable.mpr even)
  exact Except.ok.inj same

theorem not_every_rebinding_stable :
    ¬∀ (c : Controller Simulator) (id : PeripheralId) (slave : Slave) (h : Handle),
      (c.init id slave).1 = .ok h →
        ∃ again, ((c.init id slave).2.init id h.slave).1 = .ok again ∧
          again.divider = h.divider ∧ again.slave = h.slave := by
  intro stable
  let h : Handle :=
    { id := some .host, isInit := true, slave := { freq := 16666666 }, divider := 2 }
  obtain ⟨again, accepted, same, -⟩ := stable bench .host { freq := 20000000 } h (by decide +kernel)
  have slower : ((bench.init .host { freq := 20000000 }).2.init .host h.slave).1.map
      Handle.divider = .ok 3 := by decide +kernel
  rw [accepted] at slower
  have three : again.divider = 3 := Except.ok.inj slower
  rw [three] at same
  exact absurd same (by decide)

end Controller

end SerialBus
