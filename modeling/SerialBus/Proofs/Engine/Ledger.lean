import SerialBus.Proofs.Engine.Tally

namespace SerialBus

namespace Engine

/-- The transaction of the request `r`, launched on the block `base`, is under way, and resets have
    dropped `lost` since: `received` are the words that the bus gave to its commands. -/
structure Ledger (base : Simulator) (r : Request) (csid : Word) (lost : Losses)
    (received : List Word) (e : Engine Simulator) : Prop where
  busy : e.state = .busy
  callbacks : e.callbacks = r.callbacks
  valid : r.transaction.validate = .ok ()
  build : e.host.block.build = base.build
  select : e.host.block.csid = csid
  line : 0 < e.cursors.segment → csid.toNat < base.build.lines
  segment : e.cursors.segment ≤ r.transaction.segments.length
  tx : e.cursors.tx ≤ r.transaction.buffers.outgoing.length
  rx : e.cursors.rx ≤ r.transaction.buffers.rxLen
  accepted : e.host.block.accepted =
    base.accepted ++ (r.transaction.entries csid).take e.cursors.segment
  sent : Survives lost.tx (e.host.block.sent ++ e.host.block.tx)
    (base.sent ++ base.tx ++ r.transaction.buffers.outgoing.take e.cursors.tx)
  stored : ∃ got,
    e.running = some { r.transaction with buffers := r.transaction.buffers.filled got } ∧
      got.length = e.cursors.rx ∧ Survives lost.rx (got ++ e.host.block.rx) (base.rx ++ received)
  sending : e.host.block.sent.length + e.host.block.owed Simulator.Entry.usesTx + lost.unsent =
    base.sent.length + (((r.transaction.entries csid).take e.cursors.segment).map
      (Simulator.Entry.share Simulator.Entry.usesTx)).sum
  receiving : received.length + e.host.block.owed Simulator.Entry.usesRx + lost.unreceived =
    (((r.transaction.entries csid).take e.cursors.segment).map
      (Simulator.Entry.share Simulator.Entry.usesRx)).sum
  pace : (e.host.block.owed fun _ => true) ≤
    (((r.transaction.entries csid).take e.cursors.segment).map
      (Simulator.Entry.share fun _ => true)).sum
  loaded : e.host.block.Loaded

variable {base : Simulator} {r : Request} {csid : Word} {lost : Losses} {received : List Word}
  {e f : Engine Simulator}

theorem Ledger.tally (ledger : Ledger base r csid lost received e) :
    Tally base r lost received e :=
  { ledger with }

theorem Ledger.of_lanes (ledger : Ledger base r csid lost received e) (state : f.state = e.state)
    (running : f.running = e.running) (callbacks : f.callbacks = e.callbacks)
    (cursors : f.cursors = e.cursors) (lanes : f.host.block.lanes = e.host.block.lanes)
    (line : f.host.block.csid = e.host.block.csid) : Ledger base r csid lost received f := by
  have tally := ledger.tally.of_lanes state running callbacks cursors lanes
  simp only [Simulator.lanes, Simulator.Lanes.mk.injEq] at lanes
  obtain ⟨build, -, -, queue, current, sent, accepted⟩ := lanes
  have owed (p : Simulator.Entry → Bool) : f.host.block.owed p = e.host.block.owed p := by
    rw [Simulator.owed, Simulator.owed, queue, current]
  exact
    { tally with
      build := build.trans ledger.build
      select := line.trans ledger.select
      line := by rw [cursors]; exact ledger.line
      segment := by rw [cursors]; exact ledger.segment
      accepted := by rw [accepted, cursors]; exact ledger.accepted
      sending := by rw [sent, owed, cursors]; exact ledger.sending
      receiving := by rw [owed, cursors]; exact ledger.receiving
      pace := by rw [owed, cursors]; exact ledger.pace }

theorem Ledger.fillTx (ledger : Ledger base r csid lost received e) :
    Ledger base r csid lost received e.fillTx := by
  have tally := ledger.tally.fillTx
  rw [e.fillTx_eq] at tally ⊢
  exact { ledger with tx := tally.tx, sent := tally.sent, loaded := tally.loaded }

theorem Ledger.emptyRx_spec (ledger : Ledger base r csid lost received e) :
    Ledger base r csid lost received e.emptyRx ∧
      e.emptyRx.cursors.rx = e.cursors.rx + e.drains r.transaction.buffers.rxLen ∧
      e.emptyRx.host = { e.host with
        block := e.host.block.dropWords (e.drains r.transaction.buffers.rxLen) } := by
  obtain ⟨tally, cursors, host⟩ := ledger.tally.emptyRx_spec
  refine ⟨?_, by rw [cursors], host⟩
  exact
    { tally with
      build := by rw [host]; exact ledger.build
      select := by rw [host]; exact ledger.select
      line := by rw [cursors]; exact ledger.line
      segment := by rw [cursors]; exact ledger.segment
      accepted := by rw [host, cursors]; exact ledger.accepted
      sending := by rw [host, cursors]; exact ledger.sending
      receiving := by rw [host, cursors]; exact ledger.receiving
      pace := by rw [host, cursors]; exact ledger.pace }

/-- Steps of the bus that the transaction of `r` still takes: those that its commands in the block
    owe, and those of the commands that are still to be issued. -/
def left (r : Request) (csid : Word) (e : Engine Simulator) : Nat :=
  e.host.block.owed (fun _ => true) +
    (((r.transaction.entries csid).drop e.cursors.segment).map
      (Simulator.Entry.share fun _ => true)).sum

theorem owed_queued (e : Engine Simulator) (g : Segment) (csaat : Bool)
    (valid : g.validate = .ok ()) (room : e.host.block.queue.length < e.host.block.build.cmdDepth)
    (line : e.host.block.csid.toNat < e.host.block.build.lines) (p : Simulator.Entry → Bool) :
    (e.queued g csaat).host.block.owed p =
      e.host.block.owed p + Simulator.Entry.share p (g.entry e.host.block.csid csaat) := by
  have block := e.host.block.queueSegment_of_line g csaat valid room line
  simp only [queued, block, Simulator.owed, List.map_append, List.sum_append, List.map_cons,
    List.map_nil, List.sum_cons, List.sum_nil]
  omega

structure Queued (r : Request) (csid : Word) (e f : Engine Simulator) : Prop where
  cursor : f.cursors.segment = e.cursors.segment + 1
  queue : f.host.block.queue ≠ []
  tx : f.host.block.tx = e.host.block.tx
  rx : f.host.block.rx = e.host.block.rx
  errorStatus : f.host.block.errorStatus = e.host.block.errorStatus
  left : f.left r csid = e.left r csid

theorem queued_of_line (e : Engine Simulator) (r : Request)
    (left : e.cursors.segment < r.transaction.segments.length)
    (valid : r.transaction.segments[e.cursors.segment].validate = .ok ())
    (room : e.host.block.queue.length < e.host.block.build.cmdDepth)
    (line : e.host.block.csid.toNat < e.host.block.build.lines) :
    Queued r e.host.block.csid e (e.queued r.transaction.segments[e.cursors.segment]
      (decide (e.cursors.segment + 1 < r.transaction.segments.length))) := by
  have block := e.host.block.queueSegment_of_line _
    (decide (e.cursors.segment + 1 < r.transaction.segments.length)) valid room line
  have rest := (r.transaction.entries_at e.host.block.csid e.cursors.segment left).2
  constructor
  case cursor => rfl
  case queue => simp [Engine.queued, block]
  case tx => simp [Engine.queued, block]
  case rx => simp [Engine.queued, block]
  case errorStatus => simp [Engine.queued, block]
  case left =>
    rw [Engine.left, e.owed_queued _ _ valid room line, Engine.left, rest]
    simp only [Engine.queued, List.map_cons, List.sum_cons]
    omega

theorem Ledger.queued (ledger : Ledger base r csid lost received e)
    (left : e.cursors.segment < r.transaction.segments.length)
    (line : csid.toNat < base.build.lines)
    (room : e.host.block.queue.length < e.host.block.build.cmdDepth) :
    let f := e.queued r.transaction.segments[e.cursors.segment]
      (decide (e.cursors.segment + 1 < r.transaction.segments.length))
    Ledger base r csid lost received f ∧ Queued r csid e f := by
  obtain ⟨-, segments, -⟩ := r.transaction.validate_eq_ok ledger.valid
  let g := r.transaction.segments[e.cursors.segment]
  let csaat := decide (e.cursors.segment + 1 < r.transaction.segments.length)
  have valid : g.validate = .ok () := segments g (List.getElem_mem left)
  have inside : e.host.block.csid.toNat < e.host.block.build.lines := by
    rw [ledger.select, ledger.build]
    exact line
  have block := e.host.block.queueSegment_of_line g csaat valid room inside
  rw [ledger.select] at block
  have next : (r.transaction.entries csid).take (e.cursors.segment + 1) =
      (r.transaction.entries csid).take e.cursors.segment ++ [g.entry csid csaat] :=
    (r.transaction.entries_at csid e.cursors.segment left).1
  -- what the segments issued so far take grows by as much as what the block owes
  have share (p : Simulator.Entry → Bool) :
      (((r.transaction.entries csid).take (e.cursors.segment + 1)).map
          (Simulator.Entry.share p)).sum =
        (((r.transaction.entries csid).take e.cursors.segment).map
          (Simulator.Entry.share p)).sum + Simulator.Entry.share p (g.entry csid csaat) :=
    r.transaction.sum_share_take csid p e.cursors.segment left
  have owed (p : Simulator.Entry → Bool) : (e.queued g csaat).host.block.owed p =
      e.host.block.owed p + Simulator.Entry.share p (g.entry csid csaat) := by
    rw [e.owed_queued g csaat valid room inside, ledger.select]
  have tally := ledger.tally.queued g csaat valid room
  have sending := ledger.sending
  have receiving := ledger.receiving
  have pace := ledger.pace
  have moved := e.queued_of_line r left valid room inside
  rw [ledger.select] at moved
  intro f
  change Ledger base r csid lost received (e.queued g csaat) ∧ Queued r csid e (e.queued g csaat)
  constructor
  · exact
      { tally with
        build := by simp only [Engine.queued, block, ledger.build]
        select := by simp only [Engine.queued, block]
        line := fun _ => line
        segment := left
        accepted := by
          simp only [Engine.queued, block, ledger.accepted, List.append_assoc]
          rw [next]
        sending := by
          rw [owed]
          simp only [Engine.queued, block]
          rw [share]
          omega
        receiving := by
          rw [owed]
          simp only [Engine.queued]
          rw [share]
          omega
        pace := by
          rw [owed]
          simp only [Engine.queued]
          rw [share]
          omega }
  · exact moved

theorem Ledger.issueNext_cases (ledger : Ledger base r csid lost received e)
    (left : e.cursors.segment < r.transaction.segments.length) :
    (∃ err, HostError.isTransient err = true ∧ e.issueNext = (.error err, e) ∧
        (e.host.limits.cmdDepth.toNat ≤ e.host.block.queue.length ∨
          e.host.block.build.cmdDepth ≤ e.host.block.queue.length)) ∨
      (e.issueNext.1 = .ok () ∧ Ledger base r csid lost received e.issueNext.2 ∧
        Queued r csid e e.issueNext.2) ∨
      (e.issueNext.1 = .ok () ∧ base.build.lines ≤ csid.toNat ∧
        e.issueNext.2.host.block.errorStatus =
          e.host.block.errorStatus ||| Faults.csidInvalid.bits) := by
  obtain ⟨-, segments, -⟩ := r.transaction.validate_eq_ok ledger.valid
  rcases ledger.tally.issueNext_cases left with ⟨err, transient, refused, full⟩ | ⟨issued, room⟩
  · exact .inl ⟨err, transient, refused, full⟩
  · rw [issued]
    by_cases line : csid.toNat < base.build.lines
    · exact .inr (.inl ⟨rfl, ledger.queued left line room⟩)
    · have none := Nat.not_lt.mp line
      refine .inr (.inr ⟨rfl, none, ?_⟩)
      have refused := e.host.block.queueSegment_of_no_line r.transaction.segments[e.cursors.segment]
        (decide (e.cursors.segment + 1 < r.transaction.segments.length))
        (segments _ (List.getElem_mem left)) room
        (by rw [ledger.select, ledger.build]; exact none)
      simp only [Engine.queued, refused]

theorem Ledger.notifyTxWatermark (ledger : Ledger base r csid lost received e) :
    Ledger base r csid lost received e.notifyTxWatermark := by
  rw [e.notifyTxWatermark_frame]
  exact ledger.of_lanes rfl rfl rfl rfl rfl rfl

theorem Ledger.notifyRxWatermark (ledger : Ledger base r csid lost received e) :
    Ledger base r csid lost received e.notifyRxWatermark := by
  rw [e.notifyRxWatermark_frame]
  exact ledger.of_lanes rfl rfl rfl rfl rfl rfl

theorem Ledger.serveQueues (ledger : Ledger base r csid lost received e) (events : Events) :
    Ledger base r csid lost received (e.serveQueues events) := by
  have fed : Ledger base r csid lost received
      (if events.contains Events.txWatermark then e.fillTx.notifyTxWatermark else e) := by
    split
    · exact ledger.fillTx.notifyTxWatermark
    · exact ledger
  unfold Engine.serveQueues
  simp only
  split
  · exact fed.emptyRx_spec.1.notifyRxWatermark
  · exact fed

theorem Ledger.onEvent_cases (ledger : Ledger base r csid lost received e) (events : Events) :
    (e.onEvent events = e.serveQueues events ∧
        (events.contains Events.ready = false ∨
          r.transaction.segments.length ≤ e.cursors.segment ∧
            events.contains Events.idle = false ∨
          e.host.limits.cmdDepth.toNat ≤ e.host.block.queue.length ∨
          e.host.block.build.cmdDepth ≤ e.host.block.queue.length)) ∨
      (e.onEvent events = e.issueNext.2.serveQueues events ∧
        Ledger base r csid lost received e.issueNext.2 ∧ Queued r csid e e.issueNext.2) ∨
      (e.onEvent events = e.issueNext.2.serveQueues events ∧ base.build.lines ≤ csid.toNat ∧
        e.issueNext.2.host.block.errorStatus =
          e.host.block.errorStatus ||| Faults.csidInvalid.bits) ∨
      (e.onEvent events = e.complete ∧ events.contains Events.idle = true ∧
        r.transaction.segments.length ≤ e.cursors.segment) := by
  rw [← ledger.tally.segmentCount]
  rcases e.onEvent_cases events ledger.busy with ⟨served, why⟩ | ⟨served, -, left, -⟩ |
    ⟨-, left, err, refused, final⟩ | ⟨completed, idle, issued⟩
  · refine .inl ⟨served, ?_⟩
    rcases why with ready | issued
    · exact .inl ready
    · exact .inr (.inl issued)
  · rw [ledger.tally.segmentCount] at left
    rcases ledger.issueNext_cases left with ⟨err, -, retry, full⟩ | ⟨-, next⟩ |
      ⟨-, line, errorStatus⟩
    · rw [retry] at served
      exact .inl ⟨served, .inr (.inr full)⟩
    · exact .inr (.inl ⟨served, next⟩)
    · exact .inr (.inr (.inl ⟨served, line, errorStatus⟩))
  · rw [ledger.tally.segmentCount] at left
    rcases ledger.issueNext_cases left with ⟨other, transient, retry, -⟩ | ⟨taken, -⟩ | ⟨taken, -⟩
    · rw [retry] at refused
      cases refused
      rw [final] at transient
      cases transient
    · rw [taken] at refused
      cases refused
    · rw [taken] at refused
      cases refused
  · exact .inr (.inr (.inr ⟨completed, idle, issued⟩))

theorem Ledger.select_ticked (ledger : Ledger base r csid lost received e) :
    e.ticked.host.block.csid = csid :=
  (congrArg Simulator.Registers.csid e.host.block.registers_step).trans ledger.select

theorem Ledger.ticked (ledger : Ledger base r csid lost received e) :
    Ledger base r csid lost (received ++ e.host.block.answer.toList) e.ticked := by
  have tally := ledger.tally.ticked
  have sending := ledger.sending
  have receiving := ledger.receiving
  have pace := ledger.pace
  rcases Simulator.step_cases ledger.loaded with ⟨m, -, moves⟩ | ⟨-, stays⟩
  · have sends : m.sent.toList.length = if m.entry.usesTx then 1 else 0 := by
      rw [← moves.sends]
      cases m.sent <;> rfl
    have receives : e.host.block.answer.toList.length = if m.entry.usesRx then 1 else 0 := by
      rw [← moves.receives, moves.answer]
      cases e.host.block.answer <;> rfl
    have owedTx := moves.owed Simulator.Entry.usesTx
    have owedRx := moves.owed Simulator.Entry.usesRx
    have owedAll := moves.owed fun _ => true
    simp only [if_true] at owedAll
    exact
      { tally with
        build := moves.build.trans ledger.build
        select := ledger.select_ticked
        line := ledger.line
        segment := ledger.segment
        accepted := moves.accepted.trans ledger.accepted
        sending := by
          change e.host.block.step.2.sent.length + e.host.block.step.2.owed _ + _ = _
          rw [moves.sent, List.length_append, sends]
          simp only [Engine.ticked]
          omega
        receiving := by
          change _ + e.host.block.step.2.owed _ + _ = _
          rw [List.length_append, receives]
          simp only [Engine.ticked]
          omega
        pace := by
          change e.host.block.step.2.owed _ ≤ _
          simp only [Engine.ticked]
          omega }
  · exact
      { tally with
        build := stays.build.trans ledger.build
        select := ledger.select_ticked
        line := ledger.line
        segment := ledger.segment
        accepted := stays.accepted.trans ledger.accepted
        sending := by
          change e.host.block.step.2.sent.length + e.host.block.step.2.owed _ + _ = _
          rw [stays.sent, ← stays.owed]
          exact sending
        receiving := by
          change _ + e.host.block.step.2.owed _ + _ = _
          rw [stays.answer, Option.toList_none, List.append_nil, ← stays.owed]
          exact receiving
        pace := by
          change e.host.block.step.2.owed _ ≤ _
          rw [← stays.owed]
          exact pace }

theorem Ledger.softReset (ledger : Ledger base r csid lost received e) :
    Ledger base r csid (lost + e.host.block.losses) received
      { e with host := e.host.softReset } := by
  have tally := ledger.tally.softReset
  obtain ⟨lanes, line, -⟩ := e.host.softReset_lanes
  simp only [Simulator.lanes, Simulator.Lanes.mk.injEq] at lanes
  obtain ⟨build, -, -, queue, current, sent, accepted⟩ := lanes
  have owed (p : Simulator.Entry → Bool) : e.host.softReset.block.owed p = 0 := by
    rw [Simulator.owed, queue, current]
    rfl
  have sending := ledger.sending
  have receiving := ledger.receiving
  exact
    { tally with
      build := build.trans ledger.build
      select := line.trans ledger.select
      line := ledger.line
      segment := ledger.segment
      accepted := accepted.trans ledger.accepted
      sending := by
        change _ + _ + (lost.unsent + e.host.block.owed Simulator.Entry.usesTx) = _
        simp only [sent, owed]
        omega
      receiving := by
        change _ + _ + (lost.unreceived + e.host.block.owed Simulator.Entry.usesRx) = _
        simp only [owed]
        omega
      pace := by
        simp only [owed]
        exact Nat.zero_le _ }

theorem owed_of_inactive (p : Simulator.Entry → Bool) (s : Simulator)
    (inactive : s.isActive = false) : s.owed p = 0 := by
  simp only [Simulator.isActive, Bool.or_eq_false_iff, Option.isSome_eq_false_iff,
    Option.isNone_iff_eq_none, Bool.not_eq_false', List.isEmpty_iff] at inactive
  rw [Simulator.owed, inactive.1, inactive.2]
  rfl

/-- From `e` to `f` the transaction of `r` ended as a success and its books were closed. What it did
    not send and not receive is what resets dropped. -/
structure Accounted (base : Simulator) (r : Request) (csid : Word) (lost : Losses)
    (received : List Word) (e f : Engine Simulator) : Prop where
  free : f.state = .init
  inactive : f.host.block.isActive = false
  valid : r.transaction.validate = .ok ()
  accepted : f.host.block.accepted = base.accepted ++ r.transaction.entries csid
  sent : ∃ n ≤ r.transaction.buffers.outgoing.length,
    Survives lost.tx (f.host.block.sent ++ f.host.block.tx)
      (base.sent ++ base.tx ++ r.transaction.buffers.outgoing.take n)
  shifted : f.host.block.sent.length + lost.unsent = base.sent.length + r.transaction.txWords
  count : received.length + lost.unreceived = r.transaction.rxWords
  told : ∃ got, e.told f = [.success e.id r.callbacks (r.transaction.buffers.filled got)] ∧
    got.length = min r.transaction.buffers.rxLen (base.rx.length + received.length - lost.rx) ∧
    Survives lost.rx (got ++ f.host.block.rx) (base.rx ++ received)

theorem Ledger.complete (ledger : Ledger base r csid lost received e)
    (issued : r.transaction.segments.length ≤ e.cursors.segment)
    (inactive : e.host.block.isActive = false) :
    Accounted base r csid lost received e e.complete := by
  have quiet : Ledger base r csid lost received e.quiesce := ledger.of_lanes rfl rfl rfl rfl rfl rfl
  obtain ⟨drained, stored, host⟩ := quiet.emptyRx_spec
  change Ledger base r csid lost received e.drained at drained
  change e.drained.cursors.rx = e.cursors.rx + e.quiesce.drains _ at stored
  have all : (r.transaction.entries csid).take e.cursors.segment = r.transaction.entries csid :=
    List.take_of_length_le (by rw [r.transaction.length_entries]; exact issued)
  have sending := ledger.sending
  have receiving := ledger.receiving
  -- an inactive block owes nothing, so what has passed it and what was lost is what all take
  rw [owed_of_inactive _ _ inactive, all, r.transaction.sum_share_tx] at sending
  rw [owed_of_inactive _ _ inactive, all, r.transaction.sum_share_rx] at receiving
  have block : e.complete.host.block =
      e.quiesce.host.block.dropWords (e.quiesce.drains r.transaction.buffers.rxLen) := by
    rw [e.complete_eq ledger.busy, (tell_same _ _).2.2]
    exact congrArg Host.block host
  have same : e.complete.host.block = e.drained.host.block :=
    block.trans (congrArg Host.block host).symm
  obtain ⟨got, running, count, kept⟩ := drained.stored
  have total := kept.count
  refine
    { free := e.state_complete ledger.busy, inactive := ?_, valid := ledger.valid, accepted := ?_
      sent := ⟨e.drained.cursors.tx, drained.tx, ?_⟩, shifted := ?_, count := by omega
      told := ⟨got, ?_, ?_, ?_⟩ }
  · rw [block]
    exact inactive
  · rw [block]
    change e.host.block.accepted = _
    rw [ledger.accepted, all]
  · rw [same]
    exact drained.sent
  · rw [block]
    change e.host.block.sent.length + _ = _
    omega
  · have lent : e.drained.lent = r.transaction.buffers.filled got := by
      simp only [Engine.lent, running]
    rw [e.told_complete ledger.busy, ledger.callbacks, lent]
  · -- draining left words behind only if the buffer was full
    have rx := ledger.rx
    have left : e.drained.host.block.rx.length =
        e.host.block.rx.length - e.quiesce.drains r.transaction.buffers.rxLen := by
      rw [← same, block]
      exact List.length_drop
    have taken : e.quiesce.drains r.transaction.buffers.rxLen =
      min (r.transaction.buffers.rxLen - e.cursors.rx) e.host.block.rx.length := rfl
    simp only [List.length_append] at total
    omega
  · rw [same]
    exact kept

theorem Accounted.sent_own (accounted : Accounted base r csid lost received e f)
    (grown : base.sent <+: f.host.block.sent) :
    ∃ own, f.host.block.sent = base.sent ++ own ∧
      own.Sublist (base.tx ++ r.transaction.buffers.outgoing) ∧
      own.length + lost.unsent = r.transaction.txWords := by
  obtain ⟨own, sent⟩ := grown
  obtain ⟨n, -, survives⟩ := accounted.sent
  have among := survives.sublist_left
  have shifted := accounted.shifted
  rw [← sent, List.append_assoc, List.append_sublist_append_left] at among
  rw [← sent, List.length_append] at shifted
  refine ⟨own, sent.symm, among.trans ?_, by omega⟩
  exact (List.take_sublist _ _).append_left base.tx

theorem Accounted.sent_all (accounted : Accounted base r csid lost received e f)
    (grown : base.sent <+: f.host.block.sent) (empty : base.tx = [])
    (totals : r.transaction.txWords = r.transaction.buffers.txLen) (none : lost.unsent = 0) :
    f.host.block.sent = base.sent ++ r.transaction.buffers.outgoing := by
  obtain ⟨own, sent, among, moved⟩ := accounted.sent_own grown
  obtain ⟨-, -, checked⟩ := r.transaction.validate_eq_ok accounted.valid
  obtain ⟨outgoing, -⟩ := r.transaction.buffers.check_eq_ok checked
  rw [empty, List.nil_append] at among
  have whole : own = r.transaction.buffers.outgoing := among.eq_of_length (by omega)
  rw [sent, whole]

theorem Accounted.received_all (accounted : Accounted base r csid lost received e f)
    (empty : base.rx = []) (totals : r.transaction.rxWords = r.transaction.buffers.rxLen)
    (none : lost.unreceived = 0) :
    received.length = r.transaction.buffers.rxLen ∧
      (lost.rx = 0 →
        e.told f = [.success e.id r.callbacks (r.transaction.buffers.filled received)]) := by
  obtain ⟨got, told, stored, survives⟩ := accounted.told
  have count := accounted.count
  have all : received.length = r.transaction.buffers.rxLen := by omega
  refine ⟨all, fun kept => ?_⟩
  have among := survives.sublist_left
  rw [empty, List.nil_append] at among
  rw [empty, kept, List.length_nil] at stored
  have whole : got = received := among.eq_of_length (by omega)
  rw [told, whole]

end Engine

end SerialBus
