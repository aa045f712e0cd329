import SerialBus.Proofs.Run.Course

namespace SerialBus.Controller

open Simulator (Move)

variable {c : Controller Simulator} {id : PeripheralId}

/-- A transaction that ends as a success on a block that may have seen faults before. Its own
    commands were accepted; it sent the first words of what lay in the transmit queue at its
    launch followed by its own, and stored the first words of what lay in the receive queue
    followed by those that the bus gave to its commands. With both queues empty at its launch
    these are exactly its own. -/
theorem success_follows_launch (builds : PeripheralId → Simulator.Build) (board : Board)
    (reached : Reached Simulator.apply (fun a => a.undisturbed = true) (freshBlocks builds) board c)
    (r : Request) (call last : Action Move) (during : List (Action Move))
    (course : Course Simulator.apply id c r call during last)
    (undisturbed : ∀ a ∈ call :: during ++ [last], a.undisturbed = true) (b : Buffers)
    (success : ((c.run Simulator.apply (call :: during)).engine id).told
        (((c.run Simulator.apply (call :: during)).act Simulator.apply last).engine id) =
      [.success id r.callbacks b]) :
    let t := r.transaction
    let received := (c.act Simulator.apply call).answers id (during ++ [last])
    let final := ((c.run Simulator.apply (call :: during)).act Simulator.apply last).block id
    final.accepted = (c.block id).accepted ++ t.entries r.handle.slave.line ∧
      final.sent = (c.block id).sent ++ ((c.block id).tx ++ t.buffers.outgoing).take t.txWords ∧
      received.length = t.rxWords ∧
      b = t.buffers.filled (((c.block id).rx ++ received).take t.buffers.rxLen) ∧
      ((c.block id).tx = [] → (c.block id).rx = [] → t.txWords = t.buffers.txLen →
        t.rxWords = t.buffers.rxLen →
        final.sent = (c.block id).sent ++ t.buffers.outgoing ∧ b = t.buffers.filled received) := by
  intro t received final
  rcases (sane_of_reached reached).course course undisturbed with ⟨valid, delivered⟩ | failed
  · have own : b = t.buffers.filled (((c.block id).rx ++ received).take t.buffers.rxLen) :=
      Report.success_inj (List.singleton_inj.mp (success.symm.trans delivered.told))
    have count : received.length = t.rxWords := delivered.count
    refine ⟨delivered.accepted, delivered.sent, count, own, ?_⟩
    intro tx rx sends receives
    obtain ⟨-, -, checked⟩ := t.validate_eq_ok valid
    obtain ⟨outgoing, -⟩ := t.buffers.check_eq_ok checked
    have sent : final.sent = (c.block id).sent ++
        ((c.block id).tx ++ t.buffers.outgoing).take t.txWords := delivered.sent
    rw [tx, List.nil_append, List.take_of_length_le (by omega)] at sent
    rw [rx, List.nil_append, List.take_of_length_le (by omega)] at own
    exact ⟨sent, own⟩
  · obtain ⟨callbacks, faults, d, told⟩ := failed.told
    exact absurd (List.singleton_inj.mp (success.symm.trans told))
      (Report.success_ne_failure _ _ _ _ _ _ _)

/-- The bench after a transaction was aborted: its second word is still in the transmit queue. -/
def stale : Controller Simulator :=
  bench.run Simulator.apply
    [.init .host { freq := 10000000 },
      .execute benchHandle [⟨.txOnly, .standard, 4⟩, ⟨.txOnly, .standard, 4⟩]
        (some { words := [1, 2] }) none {},
      .move .host (.inject 8), .handleIrq .host, .move .host .tick]

def staleCall : Action Move := .transmit benchHandle { words := [9] } 4 {}

theorem stale_reached : Reached Simulator.apply (fun a => a.undisturbed = true)
    (freshBlocks fun _ => {}) {} stale :=
  ⟨bench, _, rfl, by simp [Action.undisturbed], rfl⟩

theorem stale_course : Course Simulator.apply .host stale
    ⟨benchHandle, .tx { words := [9] } 4, {}⟩ staleCall [.move .host .tick] (.handleIrq .host) :=
  ⟨by decide +kernel, by decide +kernel, by decide +kernel⟩

theorem stale_undisturbed : ∀ a ∈ staleCall :: [.move .host .tick] ++ [.handleIrq .host],
    a.undisturbed = true := by
  simp [staleCall, Action.undisturbed]

theorem stale_success :
    ((stale.run Simulator.apply [staleCall, .move .host .tick]).engine .host).told
        (((stale.run Simulator.apply [staleCall, .move .host .tick]).act Simulator.apply
          (.handleIrq .host)).engine .host) =
      [.success .host {} ⟨some { words := [9] }, 1, none, 0⟩] := by
  rcases (sane_of_reached stale_reached).course stale_course stale_undisturbed with
    ⟨-, delivered⟩ | failed
  · exact delivered.told
  · exact absurd (by decide +kernel) failed.cause

theorem success_follows_launch_stale :
    let final := (stale.run Simulator.apply [staleCall, .move .host .tick]).act Simulator.apply
      (.handleIrq .host)
    (final.block .host).sent = (stale.block .host).sent ++ ((stale.block .host).tx ++ [9]).take 1 :=
  (success_follows_launch (fun _ => {}) {} stale_reached _ _ _ _ stale_course stale_undisturbed _
    stale_success).2.1

/-- What a transaction sent may be what an aborted one before it left in the transmit queue. -/
theorem not_success_sends_own :
    ¬ ∀ (c : Controller Simulator) (r : Request) (call last : Action Move)
      (during : List (Action Move)) (b : Buffers),
      Reached Simulator.apply (fun a => a.undisturbed = true) (freshBlocks fun _ => {}) {} c →
      Course Simulator.apply .host c r call during last →
      (∀ a ∈ call :: during ++ [last], a.undisturbed = true) →
      ((c.run Simulator.apply (call :: during)).engine .host).told
          (((c.run Simulator.apply (call :: during)).act Simulator.apply last).engine .host) =
        [.success .host r.callbacks b] →
      (((c.run Simulator.apply (call :: during)).act Simulator.apply last).block .host).sent =
        (c.block .host).sent ++ r.transaction.buffers.outgoing := by
  intro own
  have sent := own _ _ _ _ _ _ stale_reached stale_course stale_undisturbed stale_success
  revert sent
  decide +kernel

/-- Over blocks without faults, to which only constructed transactions are given, each transaction
    that ends is a success. Its commands were accepted in order, exactly its own words were sent,
    the words that the bus gave to its commands are in its buffer, and nothing is left in the
    block. Without a routine for it, the success lies in the slot of the block. -/
theorem transactions_delivered (builds : PeripheralId → Simulator.Build) (board : Board)
    (lines : ∀ id, (board.hosts.get id).lines.toNat ≤ (builds id).lines)
    (reached : Reached Simulator.apply Action.Orderly (freshBlocks builds) board c)
    (r : Request) (call last : Action Move) (during : List (Action Move))
    (course : Course Simulator.apply id c r call during last)
    (orderly : ∀ a ∈ call :: during ++ [last], a.Orderly) :
    let b := r.transaction.buffers
    let received := (c.act Simulator.apply call).answers id (during ++ [last])
    let final := (c.run Simulator.apply (call :: during)).act Simulator.apply last
    ((c.run Simulator.apply (call :: during)).engine id).told (final.engine id) =
        [.success id r.callbacks (b.filled received)] ∧
      (r.callbacks.onDone = none → final.Parked id ⟨.ok (), b.filled received⟩) ∧
      (final.block id).accepted =
        (c.block id).accepted ++ r.transaction.entries r.handle.slave.line ∧
      (final.block id).sent = (c.block id).sent ++ b.outgoing ∧
      received.length = b.rxLen ∧
      (∀ x, (b.filled received).rx = some x → x.words.take b.rxLen = received) ∧
      (final.block id).tx = [] ∧ (final.block id).rx = [] ∧ (final.block id).queue = [] ∧
      (final.block id).current = none := by
  intro b received final
  have place := id_of_reached id reached (call :: during)
  obtain ⟨first, as, built, before, rfl⟩ := reached
  have pristine := (pristine_new builds board lines built).run as before
  have running := pristine.run (call :: during) fun a member =>
    orderly a (List.mem_append_left _ member)
  obtain ⟨-, free, -⟩ := pristine.launched call r course.launched
  have start : ((first.run Simulator.apply as).block id).Empty := (pristine.clean id).empty free
  rcases pristine.course course fun a member =>
      a.undisturbed_of_faultless (orderly a member).faultless with ⟨valid, delivered⟩ | failed
  case inr => exact absurd (running.clean id).errorStatus failed.cause
  have constructed : r.transaction.Constructed := by
    obtain ⟨request, -⟩ := Option.filter_eq_some_iff.mp course.launched
    exact (orderly call (by simp)).constructed r request
  obtain ⟨sends, receives⟩ := constructed.totals
  obtain ⟨-, -, checked⟩ := r.transaction.validate_eq_ok valid
  obtain ⟨outgoing, -⟩ := b.check_eq_ok checked
  have empty : (final.block id).Empty := delivered.empty start constructed
  obtain ⟨current, queue⟩ := (final.block id).inactive_iff.mp empty.inactive
  have count : received.length = b.rxLen := delivered.count.trans receives
  have told := delivered.told
  have sent := delivered.sent
  rw [place, start.rx, List.nil_append,
    List.take_of_length_le (Nat.le_of_eq count)] at told
  rw [start.tx, List.nil_append, List.take_of_length_le (by
    rw [sends]
    exact Nat.le_of_eq outgoing)] at sent
  refine ⟨told, parked_of_success told, delivered.accepted, sent, count, fun x filled => ?_,
    empty.tx, empty.rx, queue, current⟩
  obtain ⟨y, -, stored⟩ := Option.map_eq_some_iff.mp filled
  subst stored
  exact y.take_store_zero received b.rxLen count

theorem transactions_delivered_scripted :
    let c := bench.run Simulator.apply
      [.init .host { freq := 10000000 }, .move .host (.pushMiso [7, 9])]
    let call : Action Move :=
      .transceive benchHandle { words := [1, 2] } { words := [0, 0] } 8 {}
    let during : List (Action Move) := [.move .host .tick, .move .host .tick]
    let final := (c.run Simulator.apply (call :: during)).act Simulator.apply (.handleIrq .host)
    ((c.run Simulator.apply (call :: during)).engine .host).told (final.engine .host) =
        [.success .host {} ⟨some { words := [1, 2] }, 2, some { words := [7, 9] }, 2⟩] ∧
      final.Parked .host
        ⟨.ok (), ⟨some { words := [1, 2] }, 2, some { words := [7, 9] }, 2⟩⟩ ∧
      (final.block .host).sent = [1, 2] ∧ (final.block .host).tx = [] ∧
      (final.block .host).rx = [] := by
  intro c call during final
  have reached : Reached Simulator.apply Action.Orderly (freshBlocks fun _ => {}) {} c := by
    refine ⟨bench, _, rfl, fun a member => ?_, rfl⟩
    simp only [List.mem_cons, List.not_mem_nil, or_false] at member
    rcases member with rfl | rfl <;> exact .of_faultless rfl (by simp)
  have course : Course Simulator.apply .host c
      ⟨benchHandle, .bidir { words := [1, 2] } { words := [0, 0] } 8, {}⟩ call during
      (.handleIrq .host) :=
    ⟨by decide +kernel, by decide +kernel, by decide +kernel⟩
  have orderly : ∀ a ∈ call :: during ++ [.handleIrq .host], a.Orderly := by
    intro a member
    simp only [call, during, List.mem_append, List.mem_cons, List.not_mem_nil, or_false] at member
    rcases member with (rfl | rfl | rfl) | rfl <;> exact .of_faultless rfl (by simp)
  have answers : (c.act Simulator.apply call).answers .host (during ++ [.handleIrq .host]) =
      [7, 9] := by
    decide +kernel
  obtain ⟨told, parked, -, sent, -, -, tx, rx, -⟩ :=
    transactions_delivered (fun _ => {}) {} (by intro id; cases id <;> decide) reached _ _ _ _
      course orderly
  rw [answers] at told parked
  exact ⟨told, parked rfl, sent, tx, rx⟩

end SerialBus.Controller
