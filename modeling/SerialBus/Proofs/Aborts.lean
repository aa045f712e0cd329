import SerialBus.Proofs.Engine.Slot
import SerialBus.Proofs.Faults
import SerialBus.Proofs.Resets

namespace SerialBus

open Simulator (Move)

theorem Buffer.words_store_zero (x : Buffer) (ws : List Word) :
    (x.store 0 ws).words = ws ++ x.words.drop ws.length := by
  simp [Buffer.store]

theorem Buffers.filled_spec (b : Buffers) (checked : b.check = .ok ()) (ws : List Word)
    (fits : ws.length ≤ b.rxLen) :
    Buffers.Same b (b.filled ws) ∧
      (b.filled ws).rx.map Buffer.words =
        b.rx.map fun x => ws ++ x.words.drop ws.length := by
  rcases b.fits_filled checked [] with ⟨-, lent⟩ | ⟨x, lent, within⟩
  · refine ⟨⟨rfl, rfl, rfl, ?_⟩, ?_⟩ <;> simp only [Buffers.filled, lent, Option.map_none]
  · rw [Buffer.store_nil] at within
    have room : 0 + ws.length ≤ x.size := by omega
    refine ⟨⟨rfl, rfl, rfl, ?_⟩, ?_⟩
    · simp only [Buffers.filled, lent, Option.map_some, x.size_store 0 ws room]
      rfl
    · simp only [Buffers.filled, lent, Option.map_some, x.words_store_zero]

namespace Engine

variable {settings : Settings} {limits : Limits} {build : Simulator.Build} {base : Simulator}
  {r : Request} {lost : Losses} {received : List Word} {e : Engine Simulator}

theorem Tally.handleIrq (tally : Tally base r lost received e)
    (busy : e.handleIrq.state = .busy) : Tally base r lost received e.handleIrq := by
  have looked : Tally base r lost received e.acknowledged :=
    tally.of_lanes rfl rfl rfl rfl e.host.block.acknowledged_spec.lanes
  rw [e.handleIrq_eq, drive_eq e.acknowledged _ tally.busy] at busy ⊢
  split at busy
  · rename_i none
    rw [if_pos none]
    exact looked.onEvent e.host.block.shownEvents busy
  · exact absurd busy (free_abort e.acknowledged _ tally.busy)

theorem Tally.respond (tally : Tally base r lost received e)
    (wired : Wired settings limits build e) (sound : Sound settings limits) (st : Stimulus Move)
    (busy : (e.respond Simulator.apply settings st).state = .busy) :
    Tally base r (lost + e.loses st) (received ++ e.answered st)
      (e.respond Simulator.apply settings st) := by
  have silent : received ++ [] = received := List.append_nil received
  cases st with
  | bind slave =>
    simp only [loses, answered, silent, Losses.add_none, Engine.respond]
    rcases wired.bind_cases slave with unbound | ⟨block, bound, untouched, -⟩
    · rw [unbound]
      exact tally
    · have still : e.state.next .initialized = e.state := by
        rw [tally.busy]
        rfl
      rw [bound]
      exact tally.of_lanes still rfl rfl rfl untouched.lanes
  | reset =>
    simp only [loses, answered, silent]
    exact tally.softReset
  | take =>
    simp only [loses, answered, silent, Losses.add_none]
    exact tally.of_lanes rfl rfl rfl rfl rfl
  | submit q =>
    simp only [loses, answered, silent, Losses.add_none, Engine.respond]
    rcases submit_spec wired sound q with ⟨failure, refused⟩ | ⟨f, -, free, -⟩
    · rw [refused]
      exact tally
    · rw [tally.busy] at free
      cases free
  | interrupt =>
    simp only [loses, answered, silent, Losses.add_none]
    exact tally.handleIrq busy
  | event events =>
    simp only [loses, answered, silent, Losses.add_none]
    exact tally.onEvent events busy
  | fault faults =>
    have stopped : (e.abort faults).state = .busy := by
      rw [← e.onFault_of_busy faults tally.busy]
      exact busy
    exact absurd stopped (e.free_abort faults tally.busy)
  | move m =>
    cases m with
    | tick => exact tally.ticked
    | inject bits | pushMiso ws | setLoopback on =>
      simp only [loses, answered, silent, Losses.add_none]
      exact tally.of_lanes rfl rfl rfl rfl rfl

theorem Tally.lent (tally : Tally base r {} received e) (rx : base.rx = []) :
    e.lent = r.transaction.buffers.filled (received.take e.cursors.rx) ∧
      e.cursors.rx ≤ received.length ∧
      received.take e.cursors.rx ++ e.host.block.rx = received := by
  obtain ⟨got, running, count, kept⟩ := tally.stored
  have all : got ++ e.host.block.rx = received := by
    rw [Survives.none_iff.mp kept, rx, List.nil_append]
  have drained : received.take e.cursors.rx = got := by
    rw [← all, ← count, List.take_left]
  refine ⟨?_, ?_, ?_⟩
  · simp only [Engine.lent, running, drained]
  · rw [← all, ← count, List.length_append]
    exact Nat.le_add_right _ _
  · rw [drained, all]

theorem Tally.sent_own (tally : Tally base r {} received e) (tx : base.tx = [])
    (grown : base.sent <+: e.host.block.sent) :
    ∃ own, e.host.block.sent = base.sent ++ own ∧
      own ++ e.host.block.tx = r.transaction.buffers.outgoing.take e.cursors.tx := by
  obtain ⟨own, sent⟩ := grown
  have all := Survives.none_iff.mp tally.sent
  rw [← sent, tx, List.append_nil, List.append_assoc] at all
  exact ⟨own, sent.symm, List.append_cancel_left all⟩

end Engine

namespace Controller

variable {c : Controller Simulator} {limits : Limits} {build : Simulator.Build}
  {id : PeripheralId} {base : Simulator} {r : Request} {lost : Losses} {received : List Word}

theorem tallied_run (sound : Sound c.settings limits)
    (switched : Engine.Switched c.settings limits build (c.engine id))
    (tally : Engine.Tally base r lost received (c.engine id)) (as : List (Action Move))
    (busy : BusyThrough Simulator.apply id c as) :
    Engine.Tally base r (lost + c.losses id as) (received ++ c.answers id as)
        ((c.run Simulator.apply as).engine id) ∧
      Engine.Switched c.settings limits build ((c.run Simulator.apply as).engine id) :=
  -- that the block stays set up is carried along, for each step needs it
  entered_run (P := fun lost received e => Engine.Tally base r lost received e ∧
    Engine.Switched c.settings limits build e) as ⟨tally, switched⟩ busy
    fun _ _ st _ _ _ _ ⟨tally, switched⟩ _ after =>
      ⟨tally.respond switched.toWired sound st after, switched.respond sound st⟩

/-- A fault may stop a transaction that was launched on empty queues at any point. The interrupt
    that serves the fault hands back the buffers of the transaction: the transmit buffer as it was,
    and the receive buffer with as many words at its start as the cursor says, which are the first
    ones that the bus gave, before what the caller left there. The words sent and those that wait to
    be sent are then the ones that the engine has taken from the transmit buffer, and the words
    drained and those that wait to be drained are all that the bus gave. -/
theorem aborts_return_prefix (builds : PeripheralId → Simulator.Build) (board : Board)
    (reached : Reached Simulator.apply (fun _ => True) (freshBlocks builds) board c)
    (call : Action Move) (during : List (Action Move)) (launched : c.launched? id call = some r)
    (running : BusyThrough Simulator.apply id (c.act Simulator.apply call) during)
    (unreset : ∀ a ∈ during, a.stimulus? id ≠ some .reset)
    (tx : (c.block id).tx = []) (rx : (c.block id).rx = [])
    (latched : ((c.run Simulator.apply (call :: during)).block id).errorStatus &&&
      Faults.interrupting.bits ≠ 0) :
    let lent := r.transaction.buffers
    let received := (c.act Simulator.apply call).answers id during
    let d := c.run Simulator.apply (call :: during)
    let e := d.engine id
    let f := (d.act Simulator.apply (.handleIrq id)).engine id
    let faults : Faults := .truncate e.host.block.errorStatus
    let back := lent.filled (received.take e.cursors.rx)
    f.state = .init ∧ e.told f = [.failure id r.callbacks faults back] ∧
      (r.callbacks.onError = none → f.parked = some ⟨.error faults, back⟩) ∧
      Buffers.Same lent back ∧
      back.rx.map Buffer.words = lent.rx.map (fun x =>
        received.take e.cursors.rx ++ x.words.drop e.cursors.rx) ∧
      e.cursors.rx ≤ lent.rxLen ∧ e.cursors.rx ≤ received.length ∧
      received.take e.cursors.rx ++ e.host.block.rx = received ∧
      e.cursors.tx ≤ lent.txLen ∧
      ∃ own, e.host.block.sent = (c.block id).sent ++ own ∧
        own ++ e.host.block.tx = lent.outgoing.take e.cursors.tx := by
  intro lent received d e f faults back
  have place : e.id = id := id_of_reached id reached (call :: during)
  obtain ⟨sound, switched⟩ := switched_of_reached reached id
  obtain ⟨-, -, begun⟩ := launched_of_wired sound switched.toWired launched
  rw [← settings_act Simulator.apply c call] at sound begun
  obtain ⟨kept, still⟩ :=
    tallied_run sound (.of_busy begun.wired begun.busy) begun.tally during running
  rw [losses_of_unreset _ id during unreset, Losses.none_add, List.nil_append] at kept
  have tally : Engine.Tally (c.block id) r {} received e := kept
  have faulted : Engine.Faulted e e := ⟨tally.busy, rfl, rfl, rfl, rfl, latched⟩
  obtain ⟨free, told, same⟩ := faulted.handleIrq still.toWired
  have served : f = e.handleIrq := by
    simp only [f, engine_act, Action.stimulus?, if_true]
    rfl
  obtain ⟨holds, given, drained⟩ := tally.lent rx
  obtain ⟨-, -, checked⟩ := r.transaction.validate_eq_ok tally.valid
  obtain ⟨outgoing, -⟩ := lent.check_eq_ok checked
  have count : (received.take e.cursors.rx).length = e.cursors.rx := List.length_take_of_le given
  obtain ⟨loan, words⟩ := lent.filled_spec checked (received.take e.cursors.rx)
    (by rw [count]; exact tally.rx)
  rw [count] at words
  have failed : e.told f = [.failure id r.callbacks faults back] := by
    rw [served, told, place, tally.callbacks, holds]
  refine ⟨served ▸ free, failed, fun unnamed => (parked_of_failure failed unnamed).slot, loan,
    words, tally.rx, given, drained, ?_, tally.sent_own tx (c.sent_run id (call :: during))⟩
  rw [← outgoing]
  exact tally.tx

def eager : Controller Simulator := { bench with settings := { rxOverride := some 2 } }

theorem aborts_return_prefix_half_drained :
    let c := eager.run Simulator.apply
      [.init .host { freq := 10000000 }, .move .host (.pushMiso [7, 8, 9, 10])]
    let call : Action Move :=
      .transceive benchHandle { words := [1, 2, 3, 4] } { words := [0, 0, 0, 0] } 16 {}
    let during : List (Action Move) :=
      [.move .host .tick, .move .host .tick, .handleIrq .host, .move .host .tick,
        .move .host (.inject 0x08)]
    let d := c.run Simulator.apply (call :: during)
    let f := (d.act Simulator.apply (.handleIrq .host)).engine .host
    (d.block .host).sent = [1, 2, 3] ∧ (d.block .host).tx = [4] ∧ (d.block .host).rx = [9] ∧
      (d.engine .host).told f = [.failure .host {} (.truncate 0x08)
        ⟨some { words := [1, 2, 3, 4] }, 4, some { words := [7, 8, 0, 0] }, 4⟩] := by
  intro c call during d f
  have reached : Reached Simulator.apply (fun _ => True) (freshBlocks fun _ => {})
      { settings := { rxOverride := some 2 } } c :=
    ⟨eager, _, rfl, fun _ _ => trivial, rfl⟩
  have launched : c.launched? .host call =
      some ⟨benchHandle, .bidir { words := [1, 2, 3, 4] } { words := [0, 0, 0, 0] } 16, {}⟩ := by
    decide +kernel
  have running : BusyThrough Simulator.apply .host (c.act Simulator.apply call) during := by
    decide +kernel
  have unreset : ∀ a ∈ during, a.stimulus? .host ≠ some .reset := by
    simp [during, Action.stimulus?]
  have latched : (d.block .host).errorStatus &&& Faults.interrupting.bits ≠ 0 := by decide +kernel
  obtain ⟨-, told, -⟩ := aborts_return_prefix (fun _ => {}) _ reached call during launched
    running unreset (by decide +kernel) (by decide +kernel) latched
  have faults : (.truncate ((d.engine .host).host.block.errorStatus) : Faults) =
      .truncate 0x08 := by
    decide +kernel
  have drained : ((c.act Simulator.apply call).answers .host during).take
      (d.engine .host).cursors.rx = [7, 8] := by
    decide +kernel
  rw [faults, drained] at told
  exact ⟨by decide +kernel, by decide +kernel, by decide +kernel, told⟩

end Controller

end SerialBus
