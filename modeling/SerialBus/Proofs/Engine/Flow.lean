import SerialBus.Proofs.Engine.Ledger

namespace SerialBus

namespace Simulator

def Clear (s : Simulator) : Prop := s.errorStatus &&& Faults.interrupting.bits = 0

instance (s : Simulator) : Decidable s.Clear := inferInstanceAs (Decidable (_ = _))

end Simulator

namespace Engine

/-- The transaction of the request `r`, launched on the block `base`, is under way: `received` are
    the words that the bus gave to its commands. -/
structure Flow (base : Simulator) (r : Request) (csid : Word) (received : List Word)
    (e : Engine Simulator) : Prop where
  busy : e.state = .busy
  running : e.running = some { r.transaction with
    buffers := r.transaction.buffers.filled ((base.rx ++ received).take e.cursors.rx) }
  callbacks : e.callbacks = r.callbacks
  valid : r.transaction.validate = .ok ()
  build : e.host.block.build = base.build
  select : e.host.block.csid = csid
  line : 0 < e.cursors.segment → csid.toNat < base.build.lines
  segment : e.cursors.segment ≤ r.transaction.segments.length
  tx : e.cursors.tx ≤ r.transaction.buffers.outgoing.length
  rx : e.cursors.rx ≤ r.transaction.buffers.rxLen
  rxAll : e.cursors.rx ≤ (base.rx ++ received).length
  accepted : e.host.block.accepted =
    base.accepted ++ (r.transaction.entries csid).take e.cursors.segment
  sent : e.host.block.sent ++ e.host.block.tx =
    base.sent ++ base.tx ++ r.transaction.buffers.outgoing.take e.cursors.tx
  kept : e.host.block.rx = (base.rx ++ received).drop e.cursors.rx
  sending : e.host.block.sent.length + e.host.block.owed Simulator.Entry.usesTx =
    base.sent.length + (((r.transaction.entries csid).take e.cursors.segment).map
      (Simulator.Entry.share Simulator.Entry.usesTx)).sum
  receiving : received.length + e.host.block.owed Simulator.Entry.usesRx =
    (((r.transaction.entries csid).take e.cursors.segment).map
      (Simulator.Entry.share Simulator.Entry.usesRx)).sum
  pace : (e.host.block.owed fun _ => true) ≤
    (((r.transaction.entries csid).take e.cursors.segment).map
      (Simulator.Entry.share fun _ => true)).sum
  loaded : e.host.block.Loaded

variable {base : Simulator} {r : Request} {csid : Word} {received : List Word}
  {e f : Engine Simulator}

theorem flow_iff : Flow base r csid received e ↔ Ledger base r csid {} received e := by
  constructor
  · intro flow
    exact
      { flow with
        sent := Survives.none_iff.mpr flow.sent
        stored := by
          refine ⟨(base.rx ++ received).take e.cursors.rx, flow.running,
            List.length_take_of_le flow.rxAll, Survives.none_iff.mpr ?_⟩
          rw [flow.kept, List.take_append_drop]
        sending := flow.sending
        receiving := flow.receiving }
  · intro ledger
    obtain ⟨got, running, count, kept⟩ := ledger.stored
    have all : got ++ e.host.block.rx = base.rx ++ received := Survives.none_iff.mp kept
    have stored : (base.rx ++ received).take e.cursors.rx = got := by
      rw [← all, List.take_left' count]
    exact
      { ledger with
        running := by rw [stored, running]
        rxAll := by
          rw [← all, List.length_append]
          omega
        sent := Survives.none_iff.mp ledger.sent
        kept := by rw [← all, List.drop_left' count]
        sending := ledger.sending
        receiving := ledger.receiving }

theorem Flow.ledger (flow : Flow base r csid received e) : Ledger base r csid {} received e :=
  flow_iff.mp flow

theorem Flow.of_lanes (flow : Flow base r csid received e)
    (state : f.state = e.state) (running : f.running = e.running)
    (callbacks : f.callbacks = e.callbacks) (cursors : f.cursors = e.cursors)
    (lanes : f.host.block.lanes = e.host.block.lanes)
    (line : f.host.block.csid = e.host.block.csid) : Flow base r csid received f :=
  flow_iff.mpr (flow.ledger.of_lanes state running callbacks cursors lanes line)

theorem Flow.unsent (flow : Flow base r csid received e) :
    e.unsent = r.transaction.buffers.outgoing.drop e.cursors.tx :=
  flow.ledger.tally.unsent

theorem Flow.fillTx (flow : Flow base r csid received e) : Flow base r csid received e.fillTx :=
  flow_iff.mpr flow.ledger.fillTx

theorem Flow.emptyRx_spec (flow : Flow base r csid received e) :
    Flow base r csid received e.emptyRx ∧
      e.emptyRx.cursors.rx = e.cursors.rx + e.drains r.transaction.buffers.rxLen ∧
      e.emptyRx.host = { e.host with
        block := e.host.block.dropWords (e.drains r.transaction.buffers.rxLen) } :=
  flow.ledger.emptyRx_spec.imp_left flow_iff.mpr

theorem Flow.left_le (flow : Flow base r csid received e) :
    e.left r csid ≤ r.transaction.ticks := by
  have pace := flow.pace
  have total := r.transaction.sum_share_all csid
  rw [← List.take_append_drop e.cursors.segment (r.transaction.entries csid), List.map_append,
    List.sum_append] at total
  rw [left]
  omega

structure Issued (base : Simulator) (r : Request) (csid : Word) (received : List Word)
    (e f : Engine Simulator) : Prop where
  flow : Flow base r csid received f
  cursor : f.cursors.segment = e.cursors.segment + 1
  queue : f.host.block.queue ≠ []
  tx : f.host.block.tx = e.host.block.tx
  rx : f.host.block.rx = e.host.block.rx
  errorStatus : f.host.block.errorStatus = e.host.block.errorStatus
  left : f.left r csid = e.left r csid

theorem Queued.issued (queued : Queued r csid e f) (ledger : Ledger base r csid {} received f) :
    Issued base r csid received e f :=
  { queued with flow := flow_iff.mpr ledger }

theorem Flow.issueNext_cases (flow : Flow base r csid received e)
    (left : e.cursors.segment < r.transaction.segments.length) :
    (∃ err, HostError.isTransient err = true ∧ e.issueNext = (.error err, e) ∧
        (e.host.limits.cmdDepth.toNat ≤ e.host.block.queue.length ∨
          e.host.block.build.cmdDepth ≤ e.host.block.queue.length)) ∨
      (e.issueNext.1 = .ok () ∧ Issued base r csid received e e.issueNext.2) ∨
      (e.issueNext.1 = .ok () ∧ base.build.lines ≤ csid.toNat ∧
        e.issueNext.2.host.block.errorStatus =
          e.host.block.errorStatus ||| Faults.csidInvalid.bits) :=
  (flow.ledger.issueNext_cases left).imp_right
    (Or.imp_left fun ⟨taken, ledger, queued⟩ => ⟨taken, queued.issued ledger⟩)

theorem Flow.notifyTxWatermark (flow : Flow base r csid received e) :
    Flow base r csid received e.notifyTxWatermark :=
  flow_iff.mpr flow.ledger.notifyTxWatermark

theorem Flow.serveQueues (flow : Flow base r csid received e) (events : Events) :
    Flow base r csid received (e.serveQueues events) :=
  flow_iff.mpr (flow.ledger.serveQueues events)

theorem Flow.onEvent_cases (flow : Flow base r csid received e) (events : Events) :
    (e.onEvent events = e.serveQueues events ∧
        (events.contains Events.ready = false ∨
          r.transaction.segments.length ≤ e.cursors.segment ∧
            events.contains Events.idle = false ∨
          e.host.limits.cmdDepth.toNat ≤ e.host.block.queue.length ∨
          e.host.block.build.cmdDepth ≤ e.host.block.queue.length)) ∨
      (e.onEvent events = e.issueNext.2.serveQueues events ∧
        Issued base r csid received e e.issueNext.2) ∨
      (e.onEvent events = e.issueNext.2.serveQueues events ∧ base.build.lines ≤ csid.toNat ∧
        e.issueNext.2.host.block.errorStatus =
          e.host.block.errorStatus ||| Faults.csidInvalid.bits) ∨
      (e.onEvent events = e.complete ∧ events.contains Events.idle = true ∧
        r.transaction.segments.length ≤ e.cursors.segment) :=
  (flow.ledger.onEvent_cases events).imp_right
    (Or.imp_left fun ⟨served, ledger, queued⟩ => ⟨served, queued.issued ledger⟩)

theorem Flow.ticked (flow : Flow base r csid received e) :
    Flow base r csid (received ++ e.host.block.answer.toList) e.ticked :=
  flow_iff.mpr flow.ledger.ticked

/-- From `e` to `f` the transaction of `r` ended as a success: what it sent began with what lay in
    the queue at its launch, and so did what it received. -/
structure Delivered (base : Simulator) (r : Request) (csid : Word) (received : List Word)
    (e f : Engine Simulator) : Prop where
  told : e.told f = [.success e.id r.callbacks (r.transaction.buffers.filled
    ((base.rx ++ received).take r.transaction.buffers.rxLen))]
  free : f.state = .init
  accepted : f.host.block.accepted = base.accepted ++ r.transaction.entries csid
  sent : f.host.block.sent = base.sent ++
    (base.tx ++ r.transaction.buffers.outgoing).take r.transaction.txWords
  waiting : f.host.block.sent.length + f.host.block.tx.length ≤
    base.sent.length + base.tx.length + r.transaction.buffers.txLen
  shifted : f.host.block.sent.length = base.sent.length + r.transaction.txWords
  count : received.length = r.transaction.rxWords
  rx : f.host.block.rx = (base.rx ++ received).drop r.transaction.buffers.rxLen
  inactive : f.host.block.isActive = false

theorem sent_eq {sent waiting before queue outgoing : List Word} {n cursor : Nat}
    (total : sent ++ waiting = before ++ queue ++ outgoing.take cursor)
    (count : sent.length = before.length + n) :
    sent = before ++ (queue ++ outgoing).take n := by
  have lengths := congrArg List.length total
  simp only [List.length_append, List.length_take] at lengths
  have queued : (outgoing.take cursor).take (n - queue.length) =
      outgoing.take (n - queue.length) := by
    rw [List.take_take, Nat.min_eq_left (by omega)]
  calc sent
      = (sent ++ waiting).take (before.length + n) := by
        rw [List.take_append_of_le_length (by omega), List.take_of_length_le (by omega)]
    _ = before ++ (queue ++ outgoing.take cursor).take n := by
        rw [total, List.append_assoc, List.take_append, List.take_of_length_le (by omega),
          Nat.add_sub_cancel_left]
    _ = before ++ (queue ++ outgoing).take n := by
        rw [List.take_append, List.take_append, queued]

theorem Accounted.delivered (accounted : Accounted base r csid {} received e f) :
    Delivered base r csid received e f := by
  obtain ⟨-, -, checked⟩ := r.transaction.validate_eq_ok accounted.valid
  obtain ⟨outgoing, -⟩ := r.transaction.buffers.check_eq_ok checked
  obtain ⟨n, -, survives⟩ := accounted.sent
  obtain ⟨got, told, stored, kept⟩ := accounted.told
  have total := Survives.none_iff.mp survives
  have all : got ++ f.host.block.rx = base.rx ++ received := Survives.none_iff.mp kept
  have stored : got.length = min r.transaction.buffers.rxLen (base.rx ++ received).length := by
    rw [List.length_append]
    exact stored
  have shifted : f.host.block.sent.length = base.sent.length + r.transaction.txWords :=
    accounted.shifted
  refine
    { told := ?_, free := accounted.free, accepted := accounted.accepted
      sent := sent_eq total shifted, waiting := ?_, shifted, count := accounted.count, rx := ?_
      inactive := accounted.inactive }
  · rw [told, List.take_eq_take_min, ← stored, ← all, List.take_left]
  · have lengths := congrArg List.length total
    simp only [List.length_append, List.length_take, outgoing] at lengths
    omega
  · rw [List.drop_eq_drop_min, ← stored, ← all, List.drop_left]

end Engine

end SerialBus
