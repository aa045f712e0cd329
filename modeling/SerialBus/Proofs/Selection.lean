import SerialBus.Proofs.Engine.Selecting
import SerialBus.Proofs.Resets

namespace SerialBus

open Simulator (Move)

/-- From `base` to `s` one transaction was launched, with the handle `h`: its slave is chosen, by
    the writes that were missing, and what was accepted since carries its chip select. -/
structure Simulator.Under (base : Simulator) (h : Handle) (s : Simulator) : Prop
    extends Selected s h.slave h.divider where
  line : h.slave.line.toNat < s.options.length
  choices : s.choices = base.choices ++ base.missing h.slave h.divider
  accepted : ∃ es, s.accepted = base.accepted ++ es ∧ ∀ x ∈ es, x.csid = h.slave.line

theorem Simulator.Adheres.under {base s : Simulator} {h : Handle}
    (adheres : (base.select h.slave h.divider).Adheres s) (timed : h.slave.Timed)
    (line : h.slave.line.toNat < base.options.length) : base.Under h s := by
  have chosen : (base.select h.slave h.divider).Selected h.slave h.divider :=
    selected_select timed line
  obtain ⟨es, accepted, own⟩ := adheres.accepted
  refine ⟨adheres.selected chosen, ?_, ?_, es, ?_, fun x member => (own x member).trans chosen.csid⟩
  · rw [adheres.options, select_eq]
    split
    · exact line
    · rw [List.length_set]
      exact line
  · rw [adheres.choices, choices_select]
  · rw [accepted, select_eq]

theorem Host.steady_options (n : Nat) :
    Steady fun h : Host Simulator => h.block.options.length = n where
  read r h same := by
    rw [show (h.read r).2.block.options = h.block.options from
      (h.block.adheres_readRegister r).options]
    exact same
  write r w h plain same := by
    cases chosen : r.selects with
    | false =>
      rw [show (h.write r w).block.options = h.block.options from
        (h.block.adheres_writeRegister r w chosen).options]
      exact same
    | true =>
      cases r with
      | configOpts line => exact (List.length_set ..).trans same
      | csid => exact same
      | _ => cases chosen
  control f h _ same := by
    rw [show (h.modify .control f).block.options = h.block.options from
      (h.block.adheres_writeRegister .control _ rfl).options]
    exact same
  faults _ same := same

theorem Engine.options_respond {n : Nat} (e : Engine Simulator) (settings : Settings)
    (st : Stimulus Move) (start : e.host.block.options.length = n) :
    (e.respond Simulator.apply settings st).host.block.options.length = n := by
  refine steady_respond (Host.steady_options n) ?_ Simulator.apply ?_ settings st start
  · intro w h same
    rw [show (h.write .command w).block.options = h.block.options from
      (h.block.adheres_writeRegister .command w rfl).options]
    exact same
  · intro m h same
    cases m with
    | tick =>
      rw [show (Simulator.apply .tick h.block).options = h.block.options from
        h.block.adheres_step.options]
      exact same
    | _ => exact same

namespace Controller

section Handles

variable {β μ : Type} [RegisterBlock β]

theorem timed_of_given (env : μ → β → β) (c : Controller β) (as : List (Action μ)) (h : Handle)
    (given : h ∈ c.handles env as) : h.slave.Timed := by
  induction as generalizing c with
  | nil => cases given
  | cons a as ih =>
    rcases List.mem_append.mp given with now | later
    · obtain ⟨id, slave, -, accepted⟩ := c.issued?_eq_some a h (by simpa using now)
      obtain ⟨divider, valid, rfl⟩ := c.init_eq_ok id slave h accepted
      obtain ⟨idle, lead, trail⟩ := slave.timed_of_validate _ _ _ valid
      exact ⟨idle, lead, trail⟩
    · exact ih (c.act env a) later

theorem launched?_of_busy (env : μ → β → β) {c : Controller β} {id : PeripheralId} (a : Action μ)
    (busy : (c.engine id).state = .busy) : c.launched? id a = none := by
  cases launched : c.launched? id a with
  | none => rfl
  | some r =>
    have accepted := engine_launched env launched
    simp only [Engine.submit, Engine.checkLaunch, busy, Lifecycle.isBusy, if_true] at accepted
    cases accepted

end Handles

variable {c : Controller Simulator} {limits : PeripheralId → Limits} {id : PeripheralId}

theorem Kept.adheres_act (kept : Kept limits c) (a : Action Move)
    (idle : c.launched? id a = none) :
    (c.block id).Adheres ((c.act Simulator.apply a).block id) := by
  rw [launched?_eq] at idle
  simp only [block, engine_act]
  cases stimulus : a.stimulus? id with
  | none => exact .refl _
  | some st =>
    have unlaunched : (c.engine id).chosen c.settings st = (c.engine id).host.block := by
      refine Engine.chosen_of_unlaunched st fun r asked => ?_
      rw [stimulus, asked] at idle
      simpa using idle
    have adheres := Engine.adheres_respond (kept.sound id) (kept.recorded id).host st
    rw [unlaunched] at adheres
    exact adheres

theorem Kept.adheres_launched (kept : Kept limits c) {a : Action Move} {r : Request}
    (launched : c.launched? id a = some r) :
    ((c.block id).select r.handle.slave r.handle.divider).Adheres
      ((c.act Simulator.apply a).block id) := by
  have accepted := engine_launched Simulator.apply launched
  have adheres := Engine.adheres_submit (kept.sound id) (kept.recorded id).host r
  simp only [Engine.chosen, accepted, Except.isOk, Except.toBool, if_true] at adheres
  exact adheres

theorem Kept.adheres_run (kept : Kept limits c) (as : List (Action Move))
    (busy : BusyThrough Simulator.apply id c as) :
    (c.block id).Adheres ((c.run Simulator.apply as).block id) := by
  induction as generalizing c with
  | nil => exact .refl _
  | cons a as ih =>
    have first := kept.adheres_act a (launched?_of_busy Simulator.apply a busy.1)
    exact first.trans (ih (kept.run Simulator.apply [a]) busy.2)

theorem Kept.adheres_own (kept : Kept limits c) (h : Handle)
    (selected : (c.block id).Selected h.slave h.divider) (as : List (Action Move))
    (own : ∀ q, Report.launched q ∈ c.journal Simulator.apply id as → q.handle = h) :
    (c.block id).Adheres ((c.run Simulator.apply as).block id) := by
  induction as generalizing c with
  | nil => exact .refl _
  | cons a as ih =>
    have first : (c.block id).Adheres ((c.act Simulator.apply a).block id) := by
      cases launched : c.launched? id a with
      | none => exact kept.adheres_act a launched
      | some q =>
        have same : q.handle = h := own q (by simp [journal, launched])
        have adheres := kept.adheres_launched launched
        rw [same, Simulator.select_of_selected selected] at adheres
        exact adheres
    have next : Kept limits (c.act Simulator.apply a) := kept.run Simulator.apply [a]
    refine first.trans (ih next (first.selected selected) fun q later => ?_)
    exact own q (List.mem_append_right _ later)

/-- A transaction whose handle was given out runs under the settings of the slave of this handle:
    from its launch to its end the chip select is the line of the slave, the options of this line
    read back as its settings, and each command that is accepted carries this line. The launch
    writes the options and the chip select only where the block holds others, and nothing else
    writes either; so as long as only transactions with this handle are launched on the block,
    neither is written again. -/
theorem transactions_run_under_own_slave (builds : PeripheralId → Simulator.Build) (board : Board)
    (lines : ∀ id, (board.hosts.get id).lines.toNat ≤ (builds id).lines)
    (first : Controller Simulator) (built : Controller.new (freshBlocks builds) board = .ok first)
    (as : List (Action Move)) (id : PeripheralId) (call : Action Move) (r : Request)
    (given : r.handle ∈ first.handles Simulator.apply as)
    (launched : (first.run Simulator.apply as).launched? id call = some r) :
    let c := first.run Simulator.apply as
    let d := c.act Simulator.apply call
    (∀ during, BusyThrough Simulator.apply id d during →
        (c.block id).Under r.handle ((d.run Simulator.apply during).block id) ∧
          ∀ last, (c.block id).Under r.handle
            (((d.run Simulator.apply during).act Simulator.apply last).block id)) ∧
      ∀ later, (∀ q, Report.launched q ∈ d.journal Simulator.apply id later →
          q.handle = r.handle) →
        ((d.run Simulator.apply later).block id).choices = (d.block id).choices := by
  intro c d
  have kept : Kept board.hosts.get c := (kept_new _ board built).run Simulator.apply as
  have next : Kept board.hosts.get d := kept.run Simulator.apply [call]
  have timed := first.timed_of_given Simulator.apply as r.handle given
  have line : r.handle.slave.line.toNat < (c.block id).options.length := by
    have wired := (switched_run builds board built as id).toWired
    rw [← settings_run Simulator.apply first as] at wired
    obtain ⟨-, -, begun⟩ := launched_of_wired (kept.sound id) wired launched
    have length : (c.block id).options.length = (builds id).lines := by
      refine first.engine_run (P := fun e => e.host.block.options.length = (builds id).lines)
        Simulator.apply as id ?_ fun _ _ st _ e same => e.options_respond first.settings st same
      rw [(new_eq_ok _ board first built).2.2, freshBlocks, Trio.get_ofFn]
      exact List.length_replicate
    rw [length]
    exact Nat.lt_of_lt_of_le begun.line (lines id)
  have chosen := kept.adheres_launched launched
  refine ⟨fun during busy => ?_, fun later own => ?_⟩
  · have through := chosen.trans (next.adheres_run during busy)
    have after : Kept board.hosts.get (d.run Simulator.apply during) :=
      next.run Simulator.apply during
    refine ⟨through.under timed line, fun last => ?_⟩
    have idle := launched?_of_busy Simulator.apply last busy.after
    exact (through.trans (after.adheres_act last idle)).under timed line
  · exact (next.adheres_own r.handle (chosen.under timed line).toSelected later own).choices

theorem transactions_run_under_own_slave_pair :
    let near : Handle :=
      { id := some .host, isInit := true, slave := { freq := 10000000 }, divider := 4 }
    let far : Slave := { csid := 1, freq := 5000000, idle := 3, lead := 15, trail := 1 }
    let transfer (h : Handle) : Action Move := .transmit h { words := [1, 2] } 8 {}
    let service : List (Action Move) := [.move .host .tick, .move .host .tick, .handleIrq .host]
    let as := [.init .host { freq := 10000000 }, .init .host far,
      transfer { id := some .host, isInit := true, slave := far, divider := 9 }] ++ service
    let c := bench.run Simulator.apply as
    let d := c.act Simulator.apply (transfer near)
    let later := service ++ [transfer near]
    (c.block .host).csid = 1 ∧ (c.block .host).Under near (d.block .host) ∧
      ((d.run Simulator.apply later).engine .host).state = .busy ∧
      ((d.run Simulator.apply later).block .host).choices = (d.block .host).choices := by
  intro near far transfer service as c d later
  have launched : c.launched? .host (transfer near) =
      some ⟨near, .tx { words := [1, 2] } 8, {}⟩ := by
    decide +kernel
  obtain ⟨runs, again⟩ := transactions_run_under_own_slave (fun _ => {}) {}
    (fun id => by cases id <;> decide) bench rfl as .host (transfer near) _ (by decide +kernel)
    launched
  have own : ((d.journal Simulator.apply .host later).filterMap Report.launch?).all
      (·.handle = near) = true := by
    decide +kernel
  refine ⟨by decide +kernel, (runs [] (by decide +kernel)).1, by decide +kernel, ?_⟩
  refine again later fun q launch => ?_
  exact of_decide_eq_true (List.all_eq_true.mp own q (List.mem_filterMap.mpr ⟨_, launch, rfl⟩))

end Controller

end SerialBus
