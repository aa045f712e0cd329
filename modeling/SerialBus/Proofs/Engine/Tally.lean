import SerialBus.Proofs.Engine.Outcome
import SerialBus.Proofs.Simulator.Interrupts
import SerialBus.Proofs.Transfer.Losses
import SerialBus.Proofs.Transfer.Totals

namespace SerialBus

namespace Simulator

def losses (s : Simulator) : Losses where
  unsent := s.owed Entry.usesTx
  unreceived := s.owed Entry.usesRx
  tx := s.tx.length
  rx := s.rx.length

end Simulator

namespace Engine

/-- Where the words of the transaction of `r` are, which was launched on the block `base` and runs:
    resets have dropped `lost` since, and `received` are the words that the bus gave. -/
structure Tally (base : Simulator) (r : Request) (lost : Losses) (received : List Word)
    (e : Engine Simulator) : Prop where
  busy : e.state = .busy
  callbacks : e.callbacks = r.callbacks
  valid : r.transaction.validate = .ok ()
  tx : e.cursors.tx ≤ r.transaction.buffers.outgoing.length
  rx : e.cursors.rx ≤ r.transaction.buffers.rxLen
  sent : Survives lost.tx (e.host.block.sent ++ e.host.block.tx)
    (base.sent ++ base.tx ++ r.transaction.buffers.outgoing.take e.cursors.tx)
  stored : ∃ got,
    e.running = some { r.transaction with buffers := r.transaction.buffers.filled got } ∧
      got.length = e.cursors.rx ∧ Survives lost.rx (got ++ e.host.block.rx) (base.rx ++ received)
  loaded : e.host.block.Loaded

variable {base : Simulator} {r : Request} {lost : Losses} {received : List Word}
  {e f : Engine Simulator}

theorem Tally.of_lanes (tally : Tally base r lost received e) (state : f.state = e.state)
    (running : f.running = e.running) (callbacks : f.callbacks = e.callbacks)
    (cursors : f.cursors = e.cursors) (lanes : f.host.block.lanes = e.host.block.lanes) :
    Tally base r lost received f := by
  simp only [Simulator.lanes, Simulator.Lanes.mk.injEq] at lanes
  obtain ⟨-, tx, rx, queue, current, sent, -⟩ := lanes
  exact
    { busy := state.trans tally.busy
      callbacks := callbacks.trans tally.callbacks
      valid := tally.valid
      tx := by rw [cursors]; exact tally.tx
      rx := by rw [cursors]; exact tally.rx
      sent := by rw [sent, tx, cursors]; exact tally.sent
      stored := by rw [running, rx, cursors]; exact tally.stored
      loaded := ⟨current ▸ tally.loaded.current, queue ▸ tally.loaded.queue⟩ }

theorem fillTx_eq (e : Engine Simulator) :
    e.fillTx =
      { e with
        host := { e.host with block :=
          e.host.block.queueWords (e.unsent.take (min e.unsent.length e.host.block.txRoom)) }
        cursors := { e.cursors with
          tx := e.cursors.tx + min e.unsent.length e.host.block.txRoom } } := by
  simp only [fillTx, Host.writeWords_eq]

theorem unsent_of_running (e : Engine Simulator) (t : Transaction) (running : e.running = some t) :
    e.unsent = t.buffers.outgoing.drop e.cursors.tx := by
  simp only [Engine.unsent, running, Buffers.outgoing]
  cases t.buffers.tx with
  | none => rw [List.drop_nil]
  | some x => rfl

theorem Tally.unsent (tally : Tally base r lost received e) :
    e.unsent = r.transaction.buffers.outgoing.drop e.cursors.tx := by
  obtain ⟨got, running, -⟩ := tally.stored
  rw [e.unsent_of_running _ running]
  rfl

theorem Tally.fillTx (tally : Tally base r lost received e) :
    Tally base r lost received e.fillTx := by
  have room : min e.unsent.length e.host.block.txRoom ≤
      r.transaction.buffers.outgoing.length - e.cursors.tx := by
    rw [tally.unsent, List.length_drop]
    exact Nat.min_le_left _ _
  have tx := tally.tx
  rw [e.fillTx_eq]
  exact
    { tally with
      tx := by
        simp only
        omega
      sent := by
        simp only [Simulator.queueWords]
        rw [List.take_add, ← tally.unsent, ← List.append_assoc, ← List.append_assoc]
        exact tally.sent.append _
      loaded := ⟨tally.loaded.current, tally.loaded.queue⟩ }

def drains (e : Engine Simulator) (len : Nat) : Nat :=
  min (len - e.cursors.rx) e.host.block.rx.length

theorem readWords_min (h : Host Simulator) (n : Nat) :
    h.readWords n = h.readWords (min n h.block.rx.length) := by
  rw [Host.readWords_eq, Host.readWords_eq]
  simp only [Simulator.dropWords]
  rcases Nat.le_total n h.block.rx.length with less | more
  · rw [Nat.min_eq_left less]
  · rw [Nat.min_eq_right more, List.take_of_length_le more, List.drop_of_length_le more,
      List.take_length, List.drop_length]

theorem emptyRx_eq (e : Engine Simulator) (t : Transaction) (x : Buffer)
    (running : e.running = some t) (lent : t.buffers.rx = some x)
    (fits : t.buffers.rxLen ≤ x.size) :
    e.emptyRx =
      { e with
        host := { e.host with block := e.host.block.dropWords (e.drains t.buffers.rxLen) }
        running := some { t with
          buffers := { t.buffers with
            rx := some
              (x.store e.cursors.rx (e.host.block.rx.take (e.drains t.buffers.rxLen))) } }
        cursors := { e.cursors with rx := e.cursors.rx + e.drains t.buffers.rxLen } } := by
  have count : (e.host.block.rx.take (e.drains t.buffers.rxLen)).length =
      e.drains t.buffers.rxLen :=
    List.length_take_of_le (Nat.min_le_right _ _)
  have words : e.host.readWords (min t.buffers.rxLen x.size - e.cursors.rx) =
      (e.host.block.rx.take (e.drains t.buffers.rxLen),
        { e.host with block := e.host.block.dropWords (e.drains t.buffers.rxLen) }) := by
    rw [readWords_min, Nat.min_eq_left fits, Host.readWords_eq]
    rfl
  simp only [emptyRx, running, lent, words, count]

theorem emptyRx_of_none (e : Engine Simulator) (t : Transaction) (running : e.running = some t)
    (lent : t.buffers.rx = none) : e.emptyRx = e := by
  simp only [emptyRx, running, lent]

theorem Tally.emptyRx_spec (tally : Tally base r lost received e) :
    Tally base r lost received e.emptyRx ∧
      e.emptyRx.cursors = { e.cursors with
        rx := e.cursors.rx + e.drains r.transaction.buffers.rxLen } ∧
      e.emptyRx.host = { e.host with
        block := e.host.block.dropWords (e.drains r.transaction.buffers.rxLen) } := by
  obtain ⟨got, running, count, kept⟩ := tally.stored
  obtain ⟨-, -, checked⟩ := r.transaction.validate_eq_ok tally.valid
  have rx := tally.rx
  have few : e.drains r.transaction.buffers.rxLen ≤ r.transaction.buffers.rxLen - e.cursors.rx :=
    Nat.min_le_left _ _
  -- without a buffer no word is asked for, so none is taken
  rcases r.transaction.buffers.fits_filled checked got with ⟨zero, lent⟩ | ⟨x, lent, fits⟩
  · have none : e.drains r.transaction.buffers.rxLen = 0 := by omega
    rw [e.emptyRx_of_none _ running (by simp [Buffers.filled, lent]), none]
    refine ⟨tally, rfl, ?_⟩
    simp only [Simulator.dropWords, List.drop_zero]
  · have lent' : (r.transaction.buffers.filled got).rx = some (x.store 0 got) := by
      simp only [Buffers.filled, lent, Option.map_some]
    have eq := e.emptyRx_eq _ _ running lent' fits
    obtain ⟨n, drains⟩ : ∃ n, e.drains r.transaction.buffers.rxLen = n := ⟨_, rfl⟩
    have there : n ≤ e.host.block.rx.length := drains ▸ Nat.min_le_right _ _
    have same : e.drains (r.transaction.buffers.filled got).rxLen = n := drains
    have stored : (x.store 0 got).store e.cursors.rx (e.host.block.rx.take n) =
        x.store 0 (got ++ e.host.block.rx.take n) := by
      rw [← count]
      exact x.store_store got _
    rw [drains] at few ⊢
    rw [eq]
    simp only [same, stored]
    refine ⟨?_, trivial, trivial⟩
    exact
      { tally with
        rx := by
          simp only
          omega
        stored := by
          refine ⟨got ++ e.host.block.rx.take n, ?_, ?_, ?_⟩
          · simp only [Buffers.filled, lent, Option.map_some]
          · rw [List.length_append, count, List.length_take_of_le there]
          · simp only [Simulator.dropWords]
            rw [List.append_assoc, List.take_append_drop]
            exact kept
        loaded := ⟨tally.loaded.current, tally.loaded.queue⟩ }

theorem Tally.segmentCount (tally : Tally base r lost received e) :
    e.segmentCount = r.transaction.segments.length := by
  obtain ⟨got, running, -⟩ := tally.stored
  simp only [Engine.segmentCount, running]

def queued (e : Engine Simulator) (g : Segment) (csaat : Bool) : Engine Simulator :=
  { e with
    host := { e.host with block := e.host.block.queueSegment g csaat }
    cursors := { e.cursors with segment := e.cursors.segment + 1 } }

theorem Tally.issueNext_cases (tally : Tally base r lost received e)
    (left : e.cursors.segment < r.transaction.segments.length) :
    (∃ err, HostError.isTransient err = true ∧ e.issueNext = (.error err, e) ∧
        (e.host.limits.cmdDepth.toNat ≤ e.host.block.queue.length ∨
          e.host.block.build.cmdDepth ≤ e.host.block.queue.length)) ∨
      (e.issueNext = (.ok (), e.queued r.transaction.segments[e.cursors.segment]
          (decide (e.cursors.segment + 1 < r.transaction.segments.length))) ∧
        e.host.block.queue.length < e.host.block.build.cmdDepth) := by
  obtain ⟨-, segments, -⟩ := r.transaction.validate_eq_ok tally.valid
  obtain ⟨got, running, -⟩ := tally.stored
  let g := r.transaction.segments[e.cursors.segment]
  let csaat := decide (e.cursors.segment + 1 < r.transaction.segments.length)
  have valid : g.validate = .ok () := segments g (List.getElem_mem left)
  have last : (!decide (e.segmentCount ≤ e.cursors.segment + 1)) = csaat := by
    rw [tally.segmentCount, ← decide_not, decide_eq_decide, Nat.not_le]
  have found : (e.running.bind fun t => t.segments[e.cursors.segment]?) = some g := by
    simp only [running, Option.bind_some]
    exact List.getElem?_eq_getElem left
  rcases e.host.setCommand_cases g csaat valid with ⟨err, transient, refused, full⟩ | ⟨taken, room⟩
  · refine .inl ⟨err, transient, ?_, full⟩
    simp only [Engine.issueNext, found, last, refused]
  · refine .inr ⟨?_, room⟩
    simp only [Engine.issueNext, found, last, taken, Engine.queued]
    rfl

theorem Tally.queued (tally : Tally base r lost received e) (g : Segment) (csaat : Bool)
    (valid : g.validate = .ok ())
    (room : e.host.block.queue.length < e.host.block.build.cmdDepth) :
    Tally base r lost received (e.queued g csaat) := by
  by_cases line : e.host.block.csid.toNat < e.host.block.build.lines
  · have block := e.host.block.queueSegment_of_line g csaat valid room line
    exact
      { tally with
        sent := by simpa only [Engine.queued, block] using tally.sent
        stored := by simpa only [Engine.queued, block] using tally.stored
        loaded := by
          simp only [Engine.queued, block]
          refine ⟨tally.loaded.current, fun x member => ?_⟩
          rcases List.mem_append.mp member with old | new
          · exact tally.loaded.queue x old
          · rw [List.mem_singleton.mp new]
            exact (g.len_bounds valid).1 }
  · have block := e.host.block.queueSegment_of_no_line g csaat valid room (Nat.not_lt.mp line)
    exact
      { tally with
        sent := by simpa only [Engine.queued, block] using tally.sent
        stored := by simpa only [Engine.queued, block] using tally.stored
        loaded := by
          simp only [Engine.queued, block]
          exact ⟨tally.loaded.current, tally.loaded.queue⟩ }

theorem Tally.issueNext (tally : Tally base r lost received e)
    (left : e.cursors.segment < r.transaction.segments.length) :
    Tally base r lost received e.issueNext.2 := by
  obtain ⟨-, segments, -⟩ := r.transaction.validate_eq_ok tally.valid
  rcases tally.issueNext_cases left with ⟨err, -, refused, -⟩ | ⟨taken, room⟩
  · rw [refused]
    exact tally
  · rw [taken]
    exact tally.queued _ _ (segments _ (List.getElem_mem left)) room

theorem Tally.notifyTxWatermark (tally : Tally base r lost received e) :
    Tally base r lost received e.notifyTxWatermark := by
  rw [e.notifyTxWatermark_frame]
  exact tally.of_lanes rfl rfl rfl rfl rfl

theorem Tally.notifyRxWatermark (tally : Tally base r lost received e) :
    Tally base r lost received e.notifyRxWatermark := by
  rw [e.notifyRxWatermark_frame]
  exact tally.of_lanes rfl rfl rfl rfl rfl

theorem Tally.serveQueues (tally : Tally base r lost received e) (events : Events) :
    Tally base r lost received (e.serveQueues events) := by
  have fed : Tally base r lost received
      (if events.contains Events.txWatermark then e.fillTx.notifyTxWatermark else e) := by
    split
    · exact tally.fillTx.notifyTxWatermark
    · exact tally
  unfold Engine.serveQueues
  simp only
  split
  · exact fed.emptyRx_spec.1.notifyRxWatermark
  · exact fed

theorem Tally.onEvent (tally : Tally base r lost received e) (events : Events)
    (busy : (e.onEvent events).state = .busy) : Tally base r lost received (e.onEvent events) := by
  rcases e.onEvent_cases events tally.busy with ⟨served, -⟩ | ⟨served, -, left, -⟩ |
    ⟨aborted, left, -⟩ | ⟨completed, -⟩
  · rw [served]
    exact tally.serveQueues events
  · rw [tally.segmentCount] at left
    rw [served]
    exact (tally.issueNext left).serveQueues events
  · rw [tally.segmentCount] at left
    rw [aborted] at busy
    exact absurd busy (free_abort _ _ (tally.issueNext left).busy)
  · rw [completed] at busy
    exact absurd busy (e.free_complete tally.busy)

def ticked (e : Engine Simulator) : Engine Simulator :=
  { e with host := { e.host with block := e.host.block.tick.2 } }

theorem Tally.ticked (tally : Tally base r lost received e) :
    Tally base r lost (received ++ e.host.block.answer.toList) e.ticked := by
  obtain ⟨got, running, count, kept⟩ := tally.stored
  rcases Simulator.step_cases tally.loaded with ⟨m, -, moves⟩ | ⟨-, stays⟩
  · exact
      { tally with
        sent := by
          change Survives lost.tx (e.host.block.step.2.sent ++ e.host.block.step.2.tx) _
          rw [moves.sent, List.append_assoc, ← moves.tx]
          exact tally.sent
        stored := by
          refine ⟨got, running, count, ?_⟩
          change Survives lost.rx (got ++ e.host.block.step.2.rx) _
          rw [moves.rx, moves.answer, ← List.append_assoc, ← List.append_assoc]
          exact kept.append _
        loaded := moves.loaded }
  · rw [stays.answer, Option.toList_none, List.append_nil]
    exact
      { tally with
        sent := by
          change Survives lost.tx (e.host.block.step.2.sent ++ e.host.block.step.2.tx) _
          rw [stays.sent, stays.tx]
          exact tally.sent
        stored := by
          change ∃ got, e.running = _ ∧ _ ∧ Survives lost.rx (got ++ e.host.block.step.2.rx) _
          rw [stays.rx]
          exact tally.stored
        loaded := stays.loaded }

theorem Tally.softReset (tally : Tally base r lost received e) :
    Tally base r (lost + e.host.block.losses) received
      { e with host := e.host.softReset } := by
  obtain ⟨lanes, -, -⟩ := e.host.softReset_lanes
  simp only [Simulator.lanes, Simulator.Lanes.mk.injEq] at lanes
  obtain ⟨-, tx, rx, queue, current, sent, -⟩ := lanes
  obtain ⟨got, running, count, kept⟩ := tally.stored
  exact
    { tally with
      sent := by
        simp only [sent, tx, List.append_nil]
        exact tally.sent.drop
      stored := by
        refine ⟨got, running, count, ?_⟩
        simp only [rx, List.append_nil]
        exact kept.drop
      loaded := by
        simp only
        refine ⟨fun a active => ?_, fun x member => ?_⟩
        · rw [current] at active
          cases active
        · rw [queue] at member
          cases member }

end Engine

end SerialBus
