import SerialBus.Proofs.Engine.Course

namespace SerialBus

namespace Simulator

/-- Whatever the driver has to do for a running transaction, the events say it. -/
structure Reports (s : Simulator) (events : Events) : Prop where
  idle : events.contains Events.idle = false → s.isActive = true
  ready : events.contains Events.ready = false → s.build.cmdDepth ≤ s.queue.length
  txWatermark : events.contains Events.txWatermark = false → s.tx ≠ []
  rxWatermark : events.contains Events.rxWatermark = false → s.rx.length < s.build.rxDepth

theorem Reports.of_lanes {s t : Simulator} {events : Events} (reports : s.Reports events)
    (same : t.lanes = s.lanes) : t.Reports events := by
  simp only [lanes, Lanes.mk.injEq] at same
  obtain ⟨build, tx, rx, queue, current, -, -⟩ := same
  refine ⟨fun idle => ?_, fun ready => ?_, fun watermark => ?_, fun watermark => ?_⟩
  · rw [isActive, queue, current]
    exact reports.idle idle
  · rw [build, queue]
    exact reports.ready ready
  · rw [tx]
    exact reports.txWatermark watermark
  · rw [build, rx]
    exact reports.rxWatermark watermark

theorem reports_of_shown (s : Simulator) {settings : Settings} {limits : Limits}
    (prepared : Prepared settings limits s) (tx : 0 < (settings.txWatermark limits).toNat)
    (rx : (settings.rxWatermark limits).toNat ≤ s.build.rxDepth) (events : Events)
    (shown : ∀ f : Field, f.width = 1 → f.isSet s.eventLevels = true →
      f.isSet s.eventEnable = true → f.isSet (FlagSet.all : Events).bits = true →
      f.isSet events.bits = true) : s.Reports events := by
  have level (f : Field) (t : Events) (fits : f.Fits) (single : f.width = 1)
      (flag : t.bits = f.flag) (named : f.isSet (FlagSet.all : Events).bits = true)
      (enabled : f.isSet s.eventEnable = true) (missing : events.contains t = false) :
      f.isSet s.eventLevels = false := by
    rw [FlagSet.contains_flag events t f fits single flag] at missing
    cases level : f.isSet s.eventLevels with
    | false => rfl
    | true =>
      rw [shown f single level enabled named] at missing
      cases missing
  refine ⟨fun idle => ?_, fun ready => ?_, fun watermark => ?_, fun watermark => ?_⟩
  · have off := level EventEnable.idle _ (by decide) rfl (by decide) (by decide) prepared.idle idle
    rw [eventLevels_idle] at off
    simpa using off
  · have off := level EventEnable.ready _ (by decide) rfl (by decide) (by decide) prepared.ready
      ready
    rw [eventLevels_ready] at off
    simpa using off
  · have off := level EventEnable.txWatermark _ (by decide) rfl (by decide) (by decide)
      prepared.txWatermark watermark
    rw [eventLevels_txWatermark, prepared.txLevel, decide_eq_false_iff_not, Nat.not_lt] at off
    exact List.ne_nil_of_length_pos (Nat.lt_of_lt_of_le tx off)
  · have off := level EventEnable.rxWatermark _ (by decide) rfl (by decide) (by decide)
      prepared.rxWatermark watermark
    rw [eventLevels_rxWatermark, prepared.rxLevel, decide_eq_false_iff_not, Nat.not_le] at off
    exact Nat.lt_of_lt_of_le off rx

end Simulator

namespace Engine

variable {settings : Settings} {limits : Limits} {build : Simulator.Build} {base : Simulator}
  {r : Request} {csid : Word}  {received : List Word} {e f : Engine Simulator}

/-- The block has what the next step of the bus may need: a command, words to send unless all are
    queued, and room for what is received unless all of that is stored. -/
structure Fed (r : Request) (e : Engine Simulator) : Prop where
  active : e.host.block.isActive = true
  tx : e.host.block.tx ≠ [] ∨ e.cursors.tx = r.transaction.buffers.outgoing.length
  rx : e.host.block.rx.length < e.host.block.build.rxDepth ∨
    e.cursors.rx = r.transaction.buffers.rxLen

/-- The transaction of `r` started on empty queues, and its lengths cover what its segments send,
    and what they receive up to one queue full. -/
structure Covered (base : Simulator) (r : Request) : Prop where
  tx : base.tx = []
  rx : base.rx = []
  sends : r.transaction.txWords ≤ r.transaction.buffers.txLen
  receives : r.transaction.rxWords ≤ r.transaction.buffers.rxLen + base.build.rxDepth

theorem issued_le (t : Transaction) (csid : Word) (n : Nat) (p : Simulator.Entry → Bool) :
    (((t.entries csid).take n).map (Simulator.Entry.share p)).sum ≤
      ((t.entries csid).map (Simulator.Entry.share p)).sum := by
  have whole := congrArg (fun es => (es.map (Simulator.Entry.share p)).sum)
    (List.take_append_drop n (t.entries csid))
  simp only [List.map_append, List.sum_append] at whole
  omega

theorem Flow.supplied_tx (flow : Flow base r csid received e) (fed : Fed r e)
    (covered : Covered base r) (owed : 0 < e.host.block.owed Simulator.Entry.usesTx) :
    e.host.block.tx ≠ [] := by
  intro empty
  have queued := fed.tx.resolve_left fun some => some empty
  obtain ⟨-, -, checked⟩ := r.transaction.validate_eq_ok flow.valid
  obtain ⟨outgoing, -⟩ := r.transaction.buffers.check_eq_ok checked
  have sent := congrArg List.length flow.sent
  simp only [List.length_append, List.length_take, empty, covered.tx, queued, List.length_nil,
    Nat.min_self] at sent
  have sending := flow.sending
  have total := issued_le r.transaction csid e.cursors.segment Simulator.Entry.usesTx
  have sends := covered.sends
  rw [r.transaction.sum_share_tx] at total
  omega

theorem Flow.supplied_rx (flow : Flow base r csid received e) (fed : Fed r e)
    (covered : Covered base r) (owed : 0 < e.host.block.owed Simulator.Entry.usesRx) :
    e.host.block.rx.length < e.host.block.build.rxDepth := by
  rcases fed.rx with room | stored
  · exact room
  · have kept := congrArg List.length flow.kept
    simp only [List.length_drop, List.length_append, covered.rx, stored, List.length_nil] at kept
    have there := flow.rxAll
    rw [stored, covered.rx, List.nil_append] at there
    have receiving := flow.receiving
    have total := issued_le r.transaction csid e.cursors.segment Simulator.Entry.usesRx
    have receives := covered.receives
    have depth := congrArg Simulator.Build.rxDepth flow.build
    rw [r.transaction.sum_share_rx] at total
    omega

theorem Flow.tick_of_fed (flow : Flow base r csid received e) (fed : Fed r e)
    (covered : Covered base r) (running : e.host.block.isRunning = true) :
    e.host.block.tick.1 = true := by
  have some := e.host.block.current_takeUp_isSome.trans fed.active
  obtain ⟨a, taken⟩ := Option.isSome_iff_exists.mp some
  obtain ⟨build, tx, rx, -, -⟩ := e.host.block.takeUp_queues
  have owed (p : Simulator.Entry → Bool) (kind : p a.entry = true) : 0 < e.host.block.owed p := by
    have left := a.entry.ticksFor_sub a.remaining (flow.loaded.takeUp.current a taken)
    rw [← Simulator.owed_takeUp, Simulator.owed, taken]
    simp only [Simulator.currentOwed, kind, if_true]
    omega
  have supplied : e.host.block.takeUp.Supplied a := by
    constructor
    · rw [tx]
      exact fun uses => flow.supplied_tx fed covered (owed _ uses)
    · rw [rx, build]
      exact fun uses => flow.supplied_rx fed covered (owed _ uses)
  rw [Simulator.tick, e.host.block.step_of_supplied a running taken supplied]
  rfl

theorem Flow.fed_fillTx (flow : Flow base r csid received e)
    (depth : 0 < e.host.block.build.txDepth) :
    e.fillTx.host.block.tx ≠ [] ∨
      e.fillTx.cursors.tx = r.transaction.buffers.outgoing.length := by
  have tx := flow.tx
  have count : e.unsent.length = r.transaction.buffers.outgoing.length - e.cursors.tx := by
    rw [flow.unsent, List.length_drop]
  rw [e.fillTx_eq]
  simp only [Simulator.queueWords, ne_eq, List.append_eq_nil_iff, List.take_eq_nil_iff]
  by_cases empty : e.host.block.tx = []
  · by_cases all : e.unsent = []
    · right
      rw [all, List.length_nil] at count
      simp only [all, List.length_nil, Nat.zero_min]
      omega
    · left
      have some := List.length_pos_iff.mpr all
      have room : 0 < e.host.block.txRoom := by
        rw [Simulator.txRoom, empty]
        exact depth
      simp only [empty, all, or_false, true_and]
      omega
  · exact .inl fun both => empty both.1

theorem Flow.fed_emptyRx (flow : Flow base r csid received e)
    (depth : 0 < e.host.block.build.rxDepth) :
    e.emptyRx.host.block.rx.length < e.emptyRx.host.block.build.rxDepth ∨
      e.emptyRx.cursors.rx = r.transaction.buffers.rxLen := by
  obtain ⟨-, cursor, host⟩ := flow.emptyRx_spec
  have rx := flow.rx
  rw [host, cursor]
  simp only [Simulator.dropWords, List.length_drop, drains]
  omega

/-- From `e` to `f` the transaction under way was served: it goes on, its block is fed, and as many
    steps of the bus are left as before. -/
structure Served (base : Simulator) (r : Request) (csid : Word) (received : List Word)
    (e f : Engine Simulator) : Prop where
  before : Flow base r csid received e
  flow : Flow base r csid received f
  fed : Fed r f
  begun : 0 < base.build.cmdDepth → 0 < f.cursors.segment
  left : f.left r csid = e.left r csid

theorem left_congr (queue : f.host.block.queue = e.host.block.queue)
    (current : f.host.block.current = e.host.block.current)
    (segment : f.cursors.segment = e.cursors.segment) : f.left r csid = e.left r csid := by
  rw [left, left, Simulator.owed, Simulator.owed, queue, current, segment]

theorem Flow.served_tx (flow : Flow base r csid received e) (due : Bool)
    (depth : 0 < e.host.block.build.txDepth) (fed : due = false → e.host.block.tx ≠ []) :
    let f := if due then e.fillTx.notifyTxWatermark else e
    Flow base r csid received f ∧
      (f.host.block.tx ≠ [] ∨ f.cursors.tx = r.transaction.buffers.outgoing.length) ∧
      f.host.block.rx = e.host.block.rx ∧ f.host.block.build = e.host.block.build := by
  cases due with
  | false => exact ⟨flow, .inl (fed rfl), rfl, rfl⟩
  | true =>
    refine ⟨flow.fillTx.notifyTxWatermark, ?_⟩
    simp only [if_true]
    rw [notifyTxWatermark_frame]
    refine ⟨flow.fed_fillTx depth, ?_⟩
    rw [e.fillTx_eq]
    exact ⟨rfl, rfl⟩

theorem cursors_emptyRx (e : Engine Simulator) : e.emptyRx.cursors.tx = e.cursors.tx := by
  unfold emptyRx
  split
  · rfl
  · split <;> rfl

theorem Flow.served_rx (flow : Flow base r csid received e) (due : Bool)
    (depth : 0 < e.host.block.build.rxDepth)
    (fed : due = false → e.host.block.rx.length < e.host.block.build.rxDepth) :
    let f := if due then e.emptyRx.notifyRxWatermark else e
    (f.host.block.rx.length < f.host.block.build.rxDepth ∨
        f.cursors.rx = r.transaction.buffers.rxLen) ∧
      f.host.block.tx = e.host.block.tx ∧ f.cursors.tx = e.cursors.tx := by
  cases due with
  | false => exact ⟨.inl (fed rfl), rfl, rfl⟩
  | true =>
    obtain ⟨-, -, host⟩ := flow.emptyRx_spec
    simp only [if_true]
    rw [notifyRxWatermark_frame]
    refine ⟨flow.fed_emptyRx depth, ?_, e.cursors_emptyRx⟩
    rw [host]
    rfl

theorem Flow.served_serveQueues (flow : Flow base r csid received e) (events : Events)
    (begun : 0 < base.build.cmdDepth → 0 < e.cursors.segment)
    (active : e.host.block.isActive = true) (txDepth : 0 < e.host.block.build.txDepth)
    (rxDepth : 0 < e.host.block.build.rxDepth)
    (tx : events.contains Events.txWatermark = false → e.host.block.tx ≠ [])
    (rx : events.contains Events.rxWatermark = false →
      e.host.block.rx.length < e.host.block.build.rxDepth) :
    Served base r csid received e (e.serveQueues events) := by
  have feeds := feeds_serveQueues e events
  obtain ⟨fed, some, sameRx, build⟩ :=
    flow.served_tx (events.contains Events.txWatermark) txDepth tx
  obtain ⟨room, sameTx, cursor⟩ :=
    fed.served_rx (events.contains Events.rxWatermark) (by rw [build]; exact rxDepth)
      (by rw [build, sameRx]; exact rx)
  refine ⟨flow, flow.serveQueues events, ⟨?_, ?_, room⟩, by rw [feeds.segment]; exact begun, ?_⟩
  · rw [Simulator.isActive, feeds.queue, feeds.current]
    exact active
  · rw [← sameTx, ← cursor] at some
    exact some
  · exact left_congr feeds.queue feeds.current feeds.segment

structure Roomy (limits : Limits) (build : Simulator.Build) : Prop where
  tx : limits.txDepth.toNat ≤ build.txDepth
  rx : limits.rxDepth.toNat ≤ build.rxDepth
  cmd : limits.cmdDepth.toNat ≤ build.cmdDepth

theorem Flow.served_onEvent (flow : Flow base r csid received e) (events : Events)
    (begun : 0 < base.build.cmdDepth → 0 < e.cursors.segment) (sound : Sound settings e.host.limits)
    (roomy : Roomy e.host.limits base.build) (reports : e.host.block.Reports events) :
    (e.onEvent events).state ≠ .busy ∨ Served base r csid received e (e.onEvent events) := by
  obtain ⟨txDepth, rxDepth, cmdDepth⟩ := sound.depths
  have hasTx : 0 < e.host.block.build.txDepth := by
    rw [flow.build]
    exact Nat.lt_of_lt_of_le txDepth roomy.tx
  have hasRx : 0 < e.host.block.build.rxDepth := by
    rw [flow.build]
    exact Nat.lt_of_lt_of_le rxDepth roomy.rx
  have hasCmd : 0 < base.build.cmdDepth := Nat.lt_of_lt_of_le cmdDepth roomy.cmd
  have active (some : 0 < e.host.block.queue.length) : e.host.block.isActive = true := by
    have queue := List.length_pos_iff.mp some
    simp [Simulator.isActive, queue]
  rcases flow.onEvent_cases events with ⟨served, why⟩ | ⟨served, issued⟩ | ⟨-, none, -⟩ |
    ⟨completed, -⟩
  · right
    rw [served]
    refine flow.served_serveQueues events begun ?_ hasTx hasRx reports.txWatermark
      reports.rxWatermark
    rw [← flow.build] at hasCmd
    rcases why with busy | ⟨-, running⟩ | full | full
    · exact active (Nat.lt_of_lt_of_le hasCmd (reports.ready busy))
    · exact reports.idle running
    · exact active (Nat.lt_of_lt_of_le cmdDepth full)
    · exact active (Nat.lt_of_lt_of_le hasCmd full)
  · right
    have build : e.issueNext.2.host.block.build = e.host.block.build :=
      issued.flow.build.trans flow.build.symm
    have next : Served base r csid received e.issueNext.2 (e.issueNext.2.serveQueues events) := by
      refine issued.flow.served_serveQueues events ?_ ?_ ?_ ?_ ?_ ?_
      · rw [issued.cursor]
        exact fun _ => Nat.succ_pos _
      · simp [Simulator.isActive, issued.queue]
      · rw [build]
        exact hasTx
      · rw [build]
        exact hasRx
      · rw [issued.tx]
        exact reports.txWatermark
      · rw [issued.rx, build]
        exact reports.rxWatermark
    rw [served]
    exact ⟨flow, next.flow, next.fed, next.begun, next.left.trans issued.left⟩
  · exact absurd (flow.line (begun hasCmd)) (Nat.not_lt.mpr none)
  · left
    rw [completed]
    exact e.free_complete flow.busy

def serve (e : Engine Simulator) : Engine Simulator :=
  if e.host.block.irqPending then e.handleIrq else e

theorem Wired.reports (wired : Wired settings limits build e) (sound : Sound settings limits)
    (busy : e.state = .busy) (roomy : Roomy limits build)
    (watermark : 0 < (settings.txWatermark limits).toNat) (events : Events)
    (shown : ∀ f : Field, f.width = 1 → f.isSet e.host.block.eventLevels = true →
      f.isSet e.host.block.eventEnable = true → f.isSet (FlagSet.all : Events).bits = true →
      f.isSet events.bits = true) : e.host.block.Reports events := by
  refine e.host.block.reports_of_shown (wired.prepared busy) watermark ?_ events shown
  have fits := UInt8.le_iff_toNat_le.mp (UInt8.not_lt.mp sound.watermarks.2)
  rw [wired.sized]
  exact Nat.le_trans fits roomy.rx

theorem Wired.reports_silent (wired : Wired settings limits build e) (sound : Sound settings limits)
    (busy : e.state = .busy) (roomy : Roomy limits build)
    (watermark : 0 < (settings.txWatermark limits).toNat)
    (down : e.host.block.irqPending = false) : e.host.block.Reports .empty := by
  refine wired.reports sound busy roomy watermark .empty fun f single level enabled _ => ?_
  have up := e.host.block.irqPending_of_event f single (wired.line busy) level enabled
  rw [up] at down
  cases down

theorem Wired.reports_shown (wired : Wired settings limits build e) (sound : Sound settings limits)
    (busy : e.state = .busy) (roomy : Roomy limits build)
    (watermark : 0 < (settings.txWatermark limits).toNat) :
    e.acknowledged.host.block.Reports e.host.block.shownEvents := by
  have reports := wired.reports sound busy roomy watermark e.host.block.shownEvents
    fun f single level enabled named =>
      e.host.block.shownEvents_of_level f single (wired.line busy) level enabled named
  exact reports.of_lanes e.host.block.acknowledged_spec.lanes

theorem Wired.served (wired : Wired settings limits build e) (sound : Sound settings limits)
    (busy : e.state = .busy) (underway : Underway base r received e)
    (roomy : Roomy limits build) (watermark : 0 < (settings.txWatermark limits).toNat) :
    e.serve.state ≠ .busy ∨ Served base r r.handle.slave.line received e e.serve := by
  have on := wired.on_of_busy busy
  by_cases clear : e.host.block.Clear
  case neg =>
    -- a latched fault raises the interrupt by itself and ends the transaction
    left
    have raised := e.host.block.irqPending_of_latched on.faults on.line clear
    have shown := e.host.block.shownFaults_of_latched on.faults on.line clear
    simp only [serve, raised, if_true, e.handleIrq_eq, drive_eq e.acknowledged _ busy, shown,
      Bool.false_eq_true, if_false]
    exact free_abort e.acknowledged _ busy
  obtain ⟨flow, begun⟩ := underway clear
  have sound' : Sound settings e.host.limits := by
    rw [wired.host]
    exact sound
  have roomy' : Roomy e.host.limits base.build := by
    rw [wired.host, ← flow.build, wired.sized]
    exact roomy
  cases raised : e.host.block.irqPending with
  | false =>
    have silent := wired.reports_silent sound busy roomy watermark raised
    have served := flow.served_onEvent .empty begun sound' roomy' silent
    rw [e.onEvent_of_isEmpty .empty rfl] at served
    simp only [serve, raised, Bool.false_eq_true, if_false]
    exact served
  | true =>
    have lanes := e.host.block.acknowledged_spec.lanes
    have shown := wired.reports_shown sound busy roomy watermark
    have served := flow.acknowledged.served_onEvent _ begun sound' roomy' shown
    have left : e.acknowledged.left r r.handle.slave.line = e.left r r.handle.slave.line :=
      left_congr (congrArg Simulator.Lanes.queue lanes) (congrArg Simulator.Lanes.current lanes) rfl
    simp only [serve, raised, if_true, e.handleIrq_eq, drive_eq e.acknowledged _ busy]
    split
    · rcases served with ended | served
      · exact .inl ended
      · exact .inr ⟨flow, served.flow, served.fed, served.begun, served.left.trans left⟩
    · left
      exact free_abort e.acknowledged _ busy

theorem Wired.running (wired : Wired settings limits build e) (busy : e.state = .busy) :
    e.host.block.isRunning = true := by
  have on := wired.on_of_busy busy
  simp only [Simulator.isRunning, on.enable, wired.reset, Bool.not_false, Bool.and_self]

theorem Flow.left_ticked (flow : Flow base r csid received e)
    (moved : e.host.block.tick.1 = true) : e.left r csid = e.ticked.left r csid + 1 := by
  rcases Simulator.step_cases flow.loaded with ⟨m, -, moves⟩ | ⟨still, -⟩
  · have owed := moves.owed fun _ => true
    simp only [if_true] at owed
    have same : e.ticked.left r csid = e.host.block.step.2.owed (fun _ => true) +
        (((r.transaction.entries csid).drop e.cursors.segment).map
          (Simulator.Entry.share fun _ => true)).sum := rfl
    rw [same, left, owed]
    omega
  · have moves : e.host.block.tick.1 = e.host.block.step.1.isSome := rfl
    rw [moves, still] at moved
    cases moved

end Engine

end SerialBus
