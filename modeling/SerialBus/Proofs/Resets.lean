import SerialBus.Proofs.Engine.Steady
import SerialBus.Proofs.Records

namespace SerialBus

open Simulator (Move)

namespace Action

def ordinary : Action Move → Bool
  | .init .. | .reset _ | .handleIrq _ | .move _ .tick => true
  | a => a.request?.isSome

end Action

theorem Host.steady_sent (ws : List Word) :
    Host.Steady fun h : Host Simulator => ws <+: h.block.sent where
  read r h sent := by
    rw [show (h.read r).2.block.sent = h.block.sent from (h.block.readRegister_keeps r).2]
    exact sent
  write r w h plain sent := by
    rw [show (h.write r w).block.sent = h.block.sent from
      (h.block.writeRegister_keeps r w plain).2]
    exact sent
  control f h adjusts sent := by
    change ws <+: (Simulator.writeRegister .control _ h.block).sent
    simp only [Simulator.writeRegister, Simulator.applyWrite]
    split <;> exact sent
  faults _ sent := sent

namespace Engine

theorem sent_respond (e : Engine Simulator) (settings : Settings) (st : Stimulus Move) :
    e.host.block.sent <+: (e.respond Simulator.apply settings st).host.block.sent := by
  refine steady_respond (Host.steady_sent e.host.block.sent) ?_ Simulator.apply ?_ settings st
    (List.prefix_refl _)
  · intro w h sent
    rw [show (h.write .command w).block.sent = h.block.sent from Simulator.sent_pushCommand _ w]
    exact sent
  · intro m h sent
    cases m with
    | tick => exact sent.trans h.block.sent_step
    | _ => exact sent

end Engine

namespace Controller

variable {c : Controller Simulator} {id : PeripheralId}

theorem switched_of_reached {builds : PeripheralId → Simulator.Build} {board : Board}
    {allowed : Action Move → Prop}
    (reached : Reached Simulator.apply allowed (freshBlocks builds) board c) (id : PeripheralId) :
    Sound c.settings (board.hosts.get id) ∧
      Engine.Switched c.settings (board.hosts.get id) (builds id) (c.engine id) := by
  obtain ⟨first, as, built, -, rfl⟩ := reached
  rw [settings_run]
  exact ⟨(sane_new builds board built).sound id, switched_run builds board built as id⟩

theorem sent_run (c : Controller Simulator) (id : PeripheralId) (as : List (Action Move)) :
    (c.block id).sent <+: ((c.run Simulator.apply as).block id).sent :=
  c.engine_run (P := fun e => (c.block id).sent <+: e.host.block.sent) Simulator.apply as id
    (List.prefix_refl _) fun _ _ st _ e grown => grown.trans (e.sent_respond c.settings st)

/-- A transaction that ends as a success, whatever resets fell into it. Its commands were accepted.
    The words that it sent are words that lay in the transmit queue at its launch followed by its
    own, in their order, and the words that it stored are words that lay in the receive queue
    followed by those that the bus gave to its commands. What is missing from the words of its
    segments is exactly what the commands that resets dropped had still to move. So where both
    queues were empty at its launch and resets dropped no such command, all its words were sent and
    all received. -/
theorem success_accounts_for_resets (builds : PeripheralId → Simulator.Build) (board : Board)
    (reached : Reached Simulator.apply (fun _ => True) (freshBlocks builds) board c)
    (r : Request) (call last : Action Move) (during : List (Action Move))
    (course : Course Simulator.apply id c r call during last)
    (honest : ∀ a ∈ during ++ [last], a.honest = true) (b : Buffers)
    (success : ((c.run Simulator.apply (call :: during)).engine id).told
        (((c.run Simulator.apply (call :: during)).act Simulator.apply last).engine id) =
      [.success id r.callbacks b]) :
    let t := r.transaction
    let received := (c.act Simulator.apply call).answers id (during ++ [last])
    let lost := (c.act Simulator.apply call).losses id (during ++ [last])
    let final := ((c.run Simulator.apply (call :: during)).act Simulator.apply last).block id
    final.accepted = (c.block id).accepted ++ t.entries r.handle.slave.line ∧
      (∃ own, final.sent = (c.block id).sent ++ own ∧
        own.Sublist ((c.block id).tx ++ t.buffers.outgoing) ∧
        own.length + lost.unsent = t.txWords) ∧
      received.length + lost.unreceived = t.rxWords ∧
      (∃ got, b = t.buffers.filled got ∧ got.Sublist ((c.block id).rx ++ received) ∧
        got.length = min t.buffers.rxLen ((c.block id).rx.length + received.length - lost.rx)) ∧
      ((c.block id).tx = [] → t.txWords = t.buffers.txLen → lost.unsent = 0 →
        final.sent = (c.block id).sent ++ t.buffers.outgoing) ∧
      ((c.block id).rx = [] → t.rxWords = t.buffers.rxLen → lost.unreceived = 0 →
        received.length = t.buffers.rxLen ∧
          (lost.rx = 0 → b = t.buffers.filled received)) := by
  intro t received lost final
  have place := id_of_reached id reached (call :: during)
  obtain ⟨sound, switched⟩ := switched_of_reached reached id
  rcases course_accounted sound switched.toWired course honest with accounted | failed
  · have named (d : Buffers) (told : ((c.run Simulator.apply (call :: during)).engine id).told
        (((c.run Simulator.apply (call :: during)).act Simulator.apply last).engine id) =
          [.success ((c.run Simulator.apply (call :: during)).engine id).id r.callbacks d]) :
        b = d := by
      rw [place] at told
      exact Report.success_inj (List.singleton_inj.mp (success.symm.trans told))
    have grown : (c.block id).sent <+: final.sent := by
      have grown := c.sent_run id (call :: during ++ [last])
      rw [run, List.foldl_append] at grown
      exact grown
    obtain ⟨got, told, count, kept⟩ := accounted.told
    refine ⟨accounted.accepted, accounted.sent_own grown, accounted.count,
      ⟨got, named _ told, kept.sublist_left, count⟩, accounted.sent_all grown,
      fun rx totals none => ?_⟩
    obtain ⟨all, whole⟩ := accounted.received_all rx totals none
    exact ⟨all, fun kept => named _ (whole kept)⟩
  · obtain ⟨callbacks, faults, d, told⟩ := failed.told
    exact absurd (List.singleton_inj.mp (success.symm.trans told))
      (Report.success_ne_failure _ _ _ _ _ _ _)

def cutCall : Action Move := .transmit benchHandle { words := [1, 2] } 8 {}

def cut : List (Action Move) := [.move .host .tick, .reset benchHandle]

theorem cut_course : Course Simulator.apply .host fitted
    ⟨benchHandle, .tx { words := [1, 2] } 8, {}⟩ cutCall cut (.handleIrq .host) :=
  ⟨by decide +kernel, by decide +kernel, by decide +kernel⟩

theorem cut_honest : ∀ a ∈ cut ++ [.handleIrq .host], a.honest = true := by
  simp [cut, Action.honest]

theorem cut_success :
    ((fitted.run Simulator.apply (cutCall :: cut)).engine .host).told
        (((fitted.run Simulator.apply (cutCall :: cut)).act Simulator.apply
          (.handleIrq .host)).engine .host) =
      [.success .host {} ⟨some { words := [1, 2] }, 2, none, 0⟩] := by
  obtain ⟨sound, switched⟩ := switched_of_reached (fitted_reached (fun _ => True) trivial) .host
  rcases course_accounted sound switched.toWired cut_course cut_honest with accounted | failed
  · obtain ⟨got, told, -⟩ := accounted.told
    exact told
  · exact absurd (by decide +kernel) failed.cause

theorem success_accounts_for_resets_cut :
    let lost := (fitted.act Simulator.apply cutCall).losses .host (cut ++ [.handleIrq .host])
    let final := (fitted.run Simulator.apply (cutCall :: cut)).act Simulator.apply
      (.handleIrq .host)
    lost = ⟨1, 0, 1, 0⟩ ∧ ∃ own, (final.block .host).sent = (fitted.block .host).sent ++ own ∧
      own.Sublist [1, 2] ∧ own.length + lost.unsent = 2 := by
  intro lost final
  obtain ⟨-, ⟨own, sent, among, count⟩, -⟩ :=
    success_accounts_for_resets (fun _ => {}) {} (fitted_reached (fun _ => True) trivial) _ _ _ _
      cut_course cut_honest _ cut_success
  have empty : (fitted.block .host).tx = [] := by decide +kernel
  rw [empty, List.nil_append] at among
  exact ⟨by decide +kernel, own, sent, among, count⟩

/-- A success need not have sent all its words: a reset may have fallen into it. -/
theorem not_every_success_moved_all :
    ¬ ∀ (c : Controller Simulator) (r : Request) (call last : Action Move)
      (during : List (Action Move)) (b : Buffers),
      Reached Simulator.apply (fun a => a.ordinary = true) (freshBlocks fun _ => {}) {} c →
      Course Simulator.apply .host c r call during last →
      (∀ a ∈ call :: during ++ [last], a.ordinary = true) →
      ((c.run Simulator.apply (call :: during)).engine .host).told
          (((c.run Simulator.apply (call :: during)).act Simulator.apply last).engine .host) =
        [.success .host r.callbacks b] →
      (((c.run Simulator.apply (call :: during)).act Simulator.apply last).block
          .host).sent.length = (c.block .host).sent.length + r.transaction.buffers.txLen ∧
        ((c.act Simulator.apply call).answers .host (during ++ [last])).length =
          r.transaction.buffers.rxLen := by
  intro all
  have ordinary : ∀ a ∈ cutCall :: cut ++ [.handleIrq .host], a.ordinary = true := by
    simp [cutCall, cut, Action.ordinary, Action.request?]
  obtain ⟨sent, -⟩ := all _ _ _ _ _ _ (fitted_reached (fun a => a.ordinary = true) rfl) cut_course
    ordinary cut_success
  revert sent
  decide +kernel

end Controller

end SerialBus
