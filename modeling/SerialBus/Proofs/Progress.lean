import SerialBus.Proofs.Engine.Progress
import SerialBus.Proofs.Run.Course

namespace SerialBus.Controller

open Simulator (Move)

variable {c : Controller Simulator} {limits : PeripheralId → Limits}
  {builds : PeripheralId → Simulator.Build} {id : PeripheralId} {base : Simulator} {r : Request}
  {received : List Word}

theorem engine_serve (c : Controller Simulator) (id : PeripheralId) :
    (c.serve Simulator.irqPending id).engine id = (c.engine id).serve := by
  unfold Controller.serve Engine.serve
  split
  · rw [Controller.handleIrq_eq, engine_setEngine, if_pos rfl]
  · rfl

theorem serve_cases (c : Controller Simulator) (id : PeripheralId) :
    c.serve Simulator.irqPending id = c.act Simulator.apply (.handleIrq id) ∨
      c.serve Simulator.irqPending id = c := by
  unfold Controller.serve
  split
  · exact .inl rfl
  · exact .inr rfl

theorem Sane.serve (sane : Sane limits builds c) (id : PeripheralId) :
    Sane limits builds (c.serve Simulator.irqPending id) := by
  rcases c.serve_cases id with served | same
  · rw [served]
    exact sane.act (.handleIrq id) rfl
  · rw [same]
    exact sane

theorem settings_serve (c : Controller Simulator) (id : PeripheralId) :
    (c.serve Simulator.irqPending id).settings = c.settings := by
  rcases c.serve_cases id with served | same
  · rw [served, settings_act]
  · rw [same]

def ticked (c : Controller Simulator) (id : PeripheralId) : Controller Simulator :=
  c.act Simulator.apply (.move id .tick)

theorem engine_ticked (c : Controller Simulator) (id : PeripheralId) :
    (c.ticked id).engine id = (c.engine id).ticked := by
  rw [ticked, engine_act]
  simp only [Action.stimulus?, if_true]
  rfl

theorem pumpFrom_eq (id : PeripheralId) (n limit : Nat) (c : Controller Simulator) :
    c.pumpFrom Simulator.irqPending (fun _ s => s.tick.2) id n limit =
      match limit with
      | 0 => (n, c.serve Simulator.irqPending id)
      | limit + 1 =>
        if ((c.serve Simulator.irqPending id).engine id).state.isBusy then
          ((c.serve Simulator.irqPending id).ticked id).pumpFrom Simulator.irqPending
            (fun _ s => s.tick.2) id (n + 1) limit
        else (n, c.serve Simulator.irqPending id) := by
  cases limit <;> rfl

theorem Sane.served (sane : Sane limits builds c) (busy : (c.engine id).state = .busy)
    (underway : Engine.Underway base r received (c.engine id)) (covered : Engine.Covered base r)
    (roomy : Engine.Roomy (limits id) (builds id))
    (watermark : 0 < (c.settings.txWatermark (limits id)).toNat) :
    ((c.serve Simulator.irqPending id).engine id).state ≠ .busy ∨
      Engine.Served base r r.handle.slave.line received (c.engine id)
          ((c.serve Simulator.irqPending id).engine id) ∧
        ((c.serve Simulator.irqPending id).block id).tick.1 = true := by
  have running := ((sane.serve id).wired id).running
  rw [engine_serve] at running
  rw [block, engine_serve]
  rcases (sane.wired id).served (sane.sound id) busy underway roomy watermark with ended | served
  · exact .inl ended
  · exact .inr ⟨served, served.flow.tick_of_fed served.fed covered (running served.flow.busy)⟩

theorem Sane.ticked (sane : Sane limits builds c) (id : PeripheralId) :
    Sane limits builds (c.ticked id) :=
  sane.act (.move id .tick) rfl

theorem pumpFrom_of_ended (n limit : Nat) (c : Controller Simulator)
    (ended : ((c.serve Simulator.irqPending id).engine id).state ≠ .busy) :
    c.pumpFrom Simulator.irqPending (fun _ s => s.tick.2) id n limit =
      (n, c.serve Simulator.irqPending id) := by
  have free := (Lifecycle.isBusy_eq_false_iff _).mpr ended
  rw [pumpFrom_eq]
  cases limit with
  | zero => rfl
  | succ limit => simp only [free, Bool.false_eq_true, if_false]

theorem Sane.pumpFrom_ends (sane : Sane limits builds c) (busy : (c.engine id).state = .busy)
    (underway : Engine.Underway base r received (c.engine id)) (covered : Engine.Covered base r)
    (roomy : Engine.Roomy (limits id) (builds id))
    (watermark : 0 < (c.settings.txWatermark (limits id)).toNat) (left n limit : Nat)
    (enough : Engine.Flow base r r.handle.slave.line received (c.engine id) →
      (c.engine id).left r r.handle.slave.line ≤ left) (allowed : left ≤ limit) :
    ((c.pumpFrom Simulator.irqPending (fun _ s => s.tick.2) id n limit).2.engine id).state ≠ .busy ∧
      (c.pumpFrom Simulator.irqPending (fun _ s => s.tick.2) id n limit).1 ≤ n + left := by
  -- each round leaves one step less; a tick may answer one more word
  induction left generalizing c received n limit with
  | zero =>
    rcases sane.served busy underway covered roomy watermark with ended | ⟨served, moved⟩
    · rw [pumpFrom_of_ended n limit c ended]
      exact ⟨ended, Nat.le_refl n⟩
    · have one := served.flow.left_ticked moved
      have same := served.left
      have bound := enough served.before
      omega
  | succ left ih =>
    rcases sane.served busy underway covered roomy watermark with ended | ⟨served, moved⟩
    · rw [pumpFrom_of_ended n limit c ended]
      exact ⟨ended, Nat.le_add_right n _⟩
    · obtain ⟨more, rfl⟩ : ∃ more, limit = more + 1 := ⟨limit - 1, by omega⟩
      have isBusy : ((c.serve Simulator.irqPending id).engine id).state.isBusy = true :=
        (Lifecycle.isBusy_iff _).mpr served.flow.busy
      have one := served.flow.left_ticked moved
      have same := served.left
      have bound := enough served.before
      have next := ih ((sane.serve id).ticked id) (by rw [engine_ticked]; exact served.flow.busy)
        (by rw [engine_ticked]; exact fun _ => ⟨served.flow.ticked, served.begun⟩)
        (by rw [Controller.ticked, settings_act, settings_serve]; exact watermark) (n + 1) more
        (by rw [engine_ticked]; intro _; omega) (by omega)
      rw [pumpFrom_eq]
      simp only [isBusy, if_true]
      exact ⟨next.1, by omega⟩

/-- Each transaction that started on empty queues and whose lengths cover what its segments move,
    as those of constructed ones do, ends: once its interrupt was served it has ended or the next
    step of the bus moves, and the loop of both takes at most the steps of its segments. -/
theorem transactions_end (builds : PeripheralId → Simulator.Build) (board : Board)
    (reached : Reached Simulator.apply (fun a => a.undisturbed = true) (freshBlocks builds) board c)
    (roomy : Engine.Roomy (board.hosts.get id) (builds id))
    (watermark : 0 < (board.settings.txWatermark (board.hosts.get id)).toNat)
    (r : Request) (call : Action Move) (during : List (Action Move))
    (launched : c.launched? id call = some r)
    (running : BusyThrough Simulator.apply id (c.act Simulator.apply call) during)
    (undisturbed : ∀ a ∈ call :: during, a.undisturbed = true)
    (tx : (c.block id).tx = []) (rx : (c.block id).rx = [])
    (sends : r.transaction.txWords ≤ r.transaction.buffers.txLen)
    (receives : r.transaction.rxWords ≤ r.transaction.buffers.rxLen + (builds id).rxDepth) :
    let d := c.run Simulator.apply (call :: during)
    let served := d.serve Simulator.irqPending id
    ((served.engine id).state ≠ .busy ∨ (served.block id).tick.1 = true) ∧
      ∀ limit, r.transaction.ticks ≤ limit →
        ((d.pump Simulator.irqPending (fun _ s => s.tick.2) id limit).2.engine id).state ≠ .busy ∧
          (d.pump Simulator.irqPending (fun _ s => s.tick.2) id limit).1 ≤ r.transaction.ticks := by
  intro d served
  have sane := sane_of_reached reached
  have first := undisturbed call List.mem_cons_self
  have middle : ∀ a ∈ during, a.undisturbed = true := fun a member =>
    undisturbed a (List.mem_cons_of_mem call member)
  have sized : (c.block id).build = builds id := (sane.wired id).sized
  have covered : Engine.Covered (c.block id) r := ⟨tx, rx, sends, by rw [sized]; exact receives⟩
  have watermark' : 0 < (d.settings.txWatermark (board.hosts.get id)).toNat := by
    rw [settings_run, settings_of_reached reached]
    exact watermark
  obtain ⟨-, -, started⟩ := sane.launched call r launched
  obtain ⟨underway, busy⟩ :=
    (sane.act call first).underway_run started.underway during middle running
  have sane' : Sane board.hosts.get builds d := (sane.act call first).run during middle
  refine ⟨?_, fun limit enough => ?_⟩
  · rcases sane'.served busy underway covered roomy watermark' with ended | ⟨-, moved⟩
    · exact .inl ended
    · exact .inr moved
  · obtain ⟨ended, count⟩ := sane'.pumpFrom_ends busy underway covered roomy watermark'
      r.transaction.ticks 0 limit (fun flow => flow.left_le) enough
    exact ⟨ended, by rw [Nat.zero_add] at count; exact count⟩

theorem transactions_end_bench :
    let c := bench.run Simulator.apply [.init .host { freq := 10000000 }]
    let call : Action Move := .transmit benchHandle { words := [1, 2] } 8 {}
    let d := c.run Simulator.apply [call, .move .host .tick]
    ((d.serve Simulator.irqPending .host).engine .host).state = .busy ∧
      ((d.serve Simulator.irqPending .host).block .host).tick.1 = true ∧
      ((d.pump Simulator.irqPending (fun _ s => s.tick.2) .host 2).2.engine .host).state ≠ .busy ∧
      (d.pump Simulator.irqPending (fun _ s => s.tick.2) .host 2).1 ≤ 2 := by
  intro c call d
  have reached : Reached Simulator.apply (fun a => a.undisturbed = true) (freshBlocks fun _ => {})
      {} c :=
    ⟨bench, _, rfl, by simp [Action.undisturbed], rfl⟩
  have launched : c.launched? .host call = some ⟨benchHandle, .tx { words := [1, 2] } 8, {}⟩ := by
    decide +kernel
  obtain ⟨moves, ends⟩ := transactions_end (fun _ => {}) {} reached
    ⟨by decide, by decide, by decide⟩ (by decide) _ call [.move .host .tick] launched
    (by decide +kernel) (by simp [call, Action.undisturbed]) rfl rfl (by decide) (by decide)
  have busy : ((d.serve Simulator.irqPending .host).engine .host).state = .busy := by
    decide +kernel
  exact ⟨busy, moves.resolve_left fun ended => ended busy, ends 2 (by decide)⟩

/-- A transaction may ask its segments to send more words than it has, and then waits for ever. -/
theorem not_every_transaction_moves :
    ¬ ∀ (c : Controller Simulator) (r : Request) (call : Action Move) (during : List (Action Move)),
      Reached Simulator.apply (fun a => a.faultless = true) (freshBlocks fun _ => {}) {} c →
      c.launched? .host call = some r →
      BusyThrough Simulator.apply .host (c.act Simulator.apply call) during →
      (∀ a ∈ call :: during, a.faultless = true) →
      (c.block .host).tx = [] → (c.block .host).rx = [] →
      let served := (c.run Simulator.apply (call :: during)).serve Simulator.irqPending .host
      (served.engine .host).state ≠ .busy ∨ (served.block .host).tick.1 = true := by
  intro moves
  have stalled := moves (bench.run Simulator.apply [.init .host { freq := 10000000 }])
    ⟨benchHandle, ⟨[⟨.txOnly, .standard, 4⟩], {}⟩, {}⟩
    (.submit benchHandle ⟨[⟨.txOnly, .standard, 4⟩], {}⟩ {}) []
    ⟨bench, _, rfl, by simp [Action.faultless, Action.undisturbed], rfl⟩ (by decide +kernel)
    (by decide +kernel) (by simp [Action.faultless, Action.undisturbed]) rfl rfl
  revert stalled
  decide +kernel

end SerialBus.Controller
