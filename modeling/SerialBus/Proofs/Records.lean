import SerialBus.Proofs.Engine.Switching
import SerialBus.Proofs.Run.Course
import SerialBus.Proofs.Run.Recorded

namespace SerialBus

open Simulator (Move)

namespace Engine

variable {β : Type} {limits : Limits} {e : Engine β}

/-- Between two calls a block is not bound, free or busy. What runs on it is stored, and the
    cursors stay within that; nothing of a transaction is left on a block that is not busy. -/
structure Tidy (e : Engine β) : Prop where
  state : e.state = .none ∨ e.state = .init ∨ e.state = .busy
  stored : e.running.isSome = true ↔ e.state = .busy
  within : ∀ t, e.running = some t → e.cursors.Within t
  clear : e.state ≠ .busy → e.cursors = {} ∧ e.callbacks = {}

theorem Recorded.tidy (recorded : Recorded limits e) : e.Tidy := by
  rcases recorded with resting | going
  · have running := resting.running
    refine ⟨?_, ⟨fun stored => ?_, fun busy => ?_⟩, fun t stored => ?_, fun _ => ?_⟩
    · exact resting.state.imp_right .inl
    · rw [running] at stored
      cases stored
    · exact absurd busy resting.free
    · rw [running] at stored
      cases stored
    · exact ⟨resting.cursors, resting.callbacks⟩
  · obtain ⟨t, running, -, within⟩ := going.running
    refine ⟨.inr (.inr going.state), ⟨fun _ => going.state, fun _ => ?_⟩, fun u stored => ?_,
      fun free => absurd going.state free⟩
    · rw [running]
      rfl
    · rw [running] at stored
      cases stored
      exact within

/-- The events that drive a transaction are on while one runs, and otherwise none is. -/
structure Tuned (e : Engine Simulator) : Prop where
  idle : e.state = .busy → EventEnable.idle.isSet e.host.block.eventEnable = true
  ready : e.state = .busy → EventEnable.ready.isSet e.host.block.eventEnable = true
  txWatermark : e.state = .busy → EventEnable.txWatermark.isSet e.host.block.eventEnable = true
  rxWatermark : e.state = .busy → EventEnable.rxWatermark.isSet e.host.block.eventEnable = true
  line : e.state = .busy → Intr.event.isSet e.host.block.intrEnable = true
  silent : e.state ≠ .busy → e.host.block.Silent

theorem Switched.tuned {settings : Settings} {build : Simulator.Build} {e : Engine Simulator}
    (switched : Switched settings limits build e) : e.Tuned :=
  ⟨fun busy => (switched.prepared busy).idle, fun busy => (switched.prepared busy).ready,
    fun busy => (switched.prepared busy).txWatermark,
    fun busy => (switched.prepared busy).rxWatermark, switched.line, switched.silent⟩

end Engine

namespace Controller

theorem switched_new {c : Controller Simulator} (builds : PeripheralId → Simulator.Build)
    (board : Board) (built : Controller.new (freshBlocks builds) board = .ok c)
    (id : PeripheralId) :
    Engine.Switched c.settings (board.hosts.get id) (builds id) (c.engine id) := by
  obtain ⟨-, -, engines⟩ := new_eq_ok _ board c built
  refine ⟨(sane_new builds board built).wired id, fun _ => ?_⟩
  rw [engines, freshBlocks, Trio.get_ofFn]
  exact ⟨rfl, Intr.event.isSet_zero⟩

theorem switched_run {c : Controller Simulator} (builds : PeripheralId → Simulator.Build)
    (board : Board) (built : Controller.new (freshBlocks builds) board = .ok c)
    (as : List (Action Move)) (id : PeripheralId) :
    Engine.Switched c.settings (board.hosts.get id) (builds id)
      ((c.run Simulator.apply as).engine id) := by
  have sound := (sane_new builds board built).sound id
  exact engine_run Simulator.apply c as id (switched_new builds board built id)
    fun _ _ st _ _ switched => switched.respond sound st

/-- After every run, over any registers, the record of each block is tidy, and a block for which a
    handle was given out is bound; over blocks that run, the driving events are on exactly while a
    transaction runs. -/
theorem records_kept :
    (∀ (β μ : Type) [RegisterBlock β] (env : μ → β → β) (blocks : Trio β) (board : Board)
      (first : Controller β) (as : List (Action μ)), Controller.new blocks board = .ok first →
      (∀ id, ((first.run env as).engine id).Tidy) ∧
        ∀ h ∈ first.handles env as, ∃ id, h.check = .ok id ∧
          ((first.run env as).engine id).state ≠ .none) ∧
      ∀ (builds : PeripheralId → Simulator.Build) (board : Board) (first : Controller Simulator)
        (as : List (Action Move)), Controller.new (freshBlocks builds) board = .ok first →
        ∀ id, ((first.run Simulator.apply as).engine id).Tuned := by
  refine ⟨fun β μ _ env blocks board first as built => ?_, fun builds board first as built id => ?_⟩
  · have kept := kept_new blocks board built
    refine ⟨fun id => ((kept.run env as).recorded id).tidy, fun h given => ?_⟩
    obtain ⟨id, usable⟩ := kept.usable env as h given
    exact ⟨id, usable.check, usable.bound⟩
  · exact (switched_run builds board built as id).tuned

theorem records_kept_bench :
    let as : List (Action Move) :=
      [.init .host { freq := 10000000 }, .transmit benchHandle { words := [1, 2] } 8 {},
        .reset benchHandle, .onEvent .host Events.txWatermark]
    let e := (bench.run Simulator.apply as).engine .host
    e.state = .busy ∧ e.Tidy ∧ e.Tuned ∧ ((bench.handles Simulator.apply as).length = 1) ∧
      ∀ h ∈ bench.handles Simulator.apply as, ∃ id, h.check = .ok id ∧
        ((bench.run Simulator.apply as).engine id).state ≠ .none := by
  intro as e
  obtain ⟨any, simulated⟩ := records_kept
  obtain ⟨tidy, handles⟩ :=
    any Simulator Move Simulator.apply (freshBlocks fun _ => {}) {} bench as rfl
  have tuned := simulated (fun _ => {}) {} bench as rfl .host
  have busy : e.state = .busy := by decide +kernel
  exact ⟨busy, tidy .host, tuned, by decide +kernel, handles⟩

end Controller

end SerialBus
