import SerialBus.Proofs.Delivery
import SerialBus.Proofs.Engine.Progress

namespace SerialBus

theorem Settings.txWatermark_pos_iff (settings : Settings) (limits : Limits) :
    0 < (settings.txWatermark limits).toNat ↔
      match settings.txOverride with
      | some level => 0 < level.toNat
      | none => 4 ≤ limits.txDepth.toNat := by
  unfold txWatermark
  cases settings.txOverride with
  | some level => rfl
  | none =>
    have quarter : (limits.txDepth / 4).toNat = limits.txDepth.toNat / 4 := UInt8.toNat_div _ _
    simp only [Option.getD_none, quarter]
    omega

theorem Sound.rxWatermark_le {settings : Settings} {limits : Limits}
    (sound : Sound settings limits) :
    (settings.rxWatermark limits).toNat ≤ limits.rxDepth.toNat :=
  UInt8.le_iff_toNat_le.mp (UInt8.not_lt.mp sound.watermarks.2)

theorem Simulator.Untouched.txRoom {s t : Simulator} (untouched : Untouched s t) :
    t.txRoom = s.txRoom := by
  have build : t.build = s.build := congrArg Lanes.build untouched.lanes
  have tx : t.tx = s.tx := congrArg Lanes.tx untouched.lanes
  rw [Simulator.txRoom, Simulator.txRoom, build, tx]

namespace Simulator

/-- The condition of an event holds, and once the event and its interrupt are enabled the interrupt
    line is up and a look at the interrupts shows the event. -/
structure Raises (s : Simulator) (f : Field) : Prop where
  level : f.isSet s.eventLevels = true
  shown : Intr.event.isSet s.intrEnable = true → f.isSet s.eventEnable = true →
    s.irqPending = true ∧ f.isSet s.shownEvents.bits = true

theorem raises_iff (s : Simulator) (f : Field) (single : f.width = 1)
    (named : f.isSet (FlagSet.all : Events).bits = true) :
    s.Raises f ↔ f.isSet s.eventLevels = true :=
  ⟨Raises.level, fun level =>
    ⟨level, fun line enabled =>
      ⟨s.irqPending_of_event f single line level enabled,
        s.shownEvents_of_level f single line level enabled named⟩⟩⟩

/-- On a valid board, where the watermarks stand in the control word of a block of its size, a full
    receive queue raises the drain event, and an empty transmit queue raises the refill event
    exactly if the transmit watermark is above zero. -/
theorem queues_raise_events (s : Simulator) (settings : Settings) (limits : Limits)
    (valid : limits.validate = .ok ()) (fits : settings.validate limits = .ok ())
    (depth : s.build.rxDepth = limits.rxDepth.toNat)
    (txLevel : Control.txWatermark.get s.control = (settings.txWatermark limits).toNat)
    (rxLevel : Control.rxWatermark.get s.control = (settings.rxWatermark limits).toNat) :
    (s.build.rxDepth ≤ s.rx.length →
        (⟨s.status⟩ : Status).rx.atWatermark = true ∧ s.Raises EventEnable.rxWatermark) ∧
      (s.tx = [] →
        ((⟨s.status⟩ : Status).tx.atWatermark = true ↔ 0 < (settings.txWatermark limits).toNat) ∧
          (s.Raises EventEnable.txWatermark ↔ 0 < (settings.txWatermark limits).toNat)) ∧
      ((settings.txWatermark limits).toNat = 0 →
        (⟨s.status⟩ : Status).tx.atWatermark = false ∧ ¬ s.Raises EventEnable.txWatermark) ∧
      (0 < (settings.txWatermark limits).toNat ↔
        match settings.txOverride with
        | some level => 0 < level.toNat
        | none => 4 ≤ limits.txDepth.toNat) := by
  have sound : Sound settings limits := ⟨valid, fits⟩
  rw [s.raises_iff EventEnable.rxWatermark rfl (by decide),
    s.raises_iff EventEnable.txWatermark rfl (by decide), s.status_rxWatermark,
    s.status_txWatermark, s.eventLevels_rxWatermark, s.eventLevels_txWatermark, txLevel, rxLevel]
  refine ⟨fun full => ?_, fun empty => ?_, fun zero => ?_, settings.txWatermark_pos_iff limits⟩
  · have reached : (settings.rxWatermark limits).toNat ≤ s.rx.length :=
      Nat.le_trans sound.rxWatermark_le (depth ▸ full)
    exact ⟨decide_eq_true reached, decide_eq_true reached⟩
  · rw [empty, List.length_nil, decide_eq_true_eq]
    exact ⟨Iff.rfl, Iff.rfl⟩
  · simp [zero]

def brimming : Simulator :=
  { fresh {} with
    control := Control.rxWatermark.put 52 (Control.txWatermark.put 18 0)
    rx := List.replicate 64 0 }

theorem queues_raise_events_brimming :
    (⟨brimming.status⟩ : Status).rx.atWatermark = true ∧
      (⟨brimming.status⟩ : Status).tx.atWatermark = true := by
  obtain ⟨full, empty, -⟩ :=
    queues_raise_events brimming {} {} (by decide) (by decide) rfl (by decide) (by decide)
  exact ⟨(full (by decide)).1, (empty rfl).1.mpr (by decide)⟩

end Simulator

namespace Engine

open Simulator (Move)

variable {settings : Settings} {limits : Limits} {build : Simulator.Build} {base : Simulator}
  {r : Request} {csid : Word} {received : List Word} {e f : Engine Simulator}

-- Words are queued by a launch and by the refill event only.

theorem cursor_issueNext (e : Engine Simulator) : e.issueNext.2.cursors.tx = e.cursors.tx := by
  unfold issueNext
  split
  · rfl
  · simp only
    split <;> rfl

theorem cursor_serveQueues (e : Engine Simulator) (events : Events)
    (missing : events.contains Events.txWatermark = false) :
    (e.serveQueues events).cursors.tx = e.cursors.tx := by
  simp only [serveQueues, missing, Bool.false_eq_true, if_false]
  split
  · rw [notifyRxWatermark_frame]
    exact e.cursors_emptyRx
  · rfl

theorem cursor_onEvent (e : Engine Simulator) (events : Events) (busy : e.state = .busy)
    (missing : events.contains Events.txWatermark = false)
    (still : (e.onEvent events).state = .busy) :
    (e.onEvent events).cursors.tx = e.cursors.tx := by
  have state := (keeps_issueNext e).state.trans busy
  rcases e.onEvent_cases events busy with ⟨served, -⟩ | ⟨served, -⟩ | ⟨aborted, -⟩ | ⟨completed, -⟩
  · rw [served, cursor_serveQueues e events missing]
  · rw [served, cursor_serveQueues _ events missing, e.cursor_issueNext]
  · rw [aborted] at still
    exact absurd still (free_abort _ _ state)
  · rw [completed] at still
    exact absurd still (e.free_complete busy)

theorem Wired.refill_missing (wired : Wired settings limits build e) (busy : e.state = .busy)
    (zero : (settings.txWatermark limits).toNat = 0) :
    e.host.block.shownEvents.contains Events.txWatermark = false := by
  rw [FlagSet.contains_flag _ _ EventEnable.txWatermark (by decide) rfl (by decide)]
  cases shown : EventEnable.txWatermark.isSet e.host.block.shownEvents.bits with
  | false => rfl
  | true =>
    have level := e.host.block.shownEvents_isSet EventEnable.txWatermark rfl shown
    rw [e.host.block.eventLevels_txWatermark, (wired.prepared busy).txLevel, zero] at level
    simp at level

theorem Wired.respond_still (wired : Wired settings limits build e) (sound : Sound settings limits)
    (busy : e.state = .busy) (st : Stimulus Move) (undisturbed : st.undisturbed = true)
    (other : st ≠ .interrupt) :
    (e.respond Simulator.apply settings st).state = .busy ∧
      (e.respond Simulator.apply settings st).cursors = e.cursors := by
  cases st with
  | bind slave =>
    simp only [Engine.respond]
    rcases wired.bind_cases slave with same | ⟨block, bound, -⟩
    · rw [same]
      exact ⟨busy, rfl⟩
    · rw [bound]
      have state : e.state.next .initialized = .busy := by
        rw [busy]
        rfl
      exact ⟨state, rfl⟩
  | submit q =>
    simp only [Engine.respond]
    rcases submit_spec wired sound q with ⟨failure, refused⟩ | ⟨g, -, free, -⟩
    · rw [refused]
      exact ⟨busy, rfl⟩
    · rw [busy] at free
      cases free
  | interrupt => exact absurd rfl other
  | take | move m => exact ⟨busy, rfl⟩
  | reset | event events | fault faults => cases undisturbed

-- With a transmit watermark of zero a transaction keeps the words that its launch gave it. It is
-- completed once its commands are done with, and they are not without words.

theorem Flow.busy_onEvent (flow : Flow base r csid received e) (events : Events)
    (honest : events.contains Events.idle = true → e.host.block.isActive = false)
    (short : base.tx.length + e.cursors.tx < r.transaction.txWords) :
    (e.onEvent events).state = .busy := by
  have issued : e.issueNext.2.state = .busy := (keeps_issueNext e).state.trans flow.busy
  rcases flow.onEvent_cases events with ⟨served, -⟩ | ⟨served, -⟩ | ⟨served, -⟩ |
    ⟨-, idle, issued⟩
  · rw [served, (feeds_serveQueues e events).state]
    exact flow.busy
  · rw [served, (feeds_serveQueues _ events).state]
    exact issued
  · rw [served, (feeds_serveQueues _ events).state]
    exact issued
  · -- an idle block owes nothing, so it would have sent more words than it was given
    have all : (r.transaction.entries csid).take e.cursors.segment = r.transaction.entries csid :=
      List.take_of_length_le (by rw [r.transaction.length_entries]; exact issued)
    have sending := flow.sending
    have given := congrArg List.length flow.sent
    rw [owed_of_inactive _ _ (honest idle), all, r.transaction.sum_share_tx] at sending
    simp only [List.length_append, List.length_take] at given
    omega

/-- The transaction of `r`, under way since `base`, waits for words that are not queued yet. -/
structure Short (base : Simulator) (r : Request) (received : List Word) (e : Engine Simulator) :
    Prop where
  busy : e.state = .busy
  underway : Underway base r received e
  short : base.tx.length + e.cursors.tx < r.transaction.txWords

theorem Short.respond (waits : Short base r received e) (wired : Wired settings limits build e)
    (sound : Sound settings limits) (zero : (settings.txWatermark limits).toNat = 0)
    (st : Stimulus Move) (undisturbed : st.undisturbed = true) :
    Short base r (received ++ e.answered st) (e.respond Simulator.apply settings st) ∨
      Failed e (e.respond Simulator.apply settings st) := by
  have busy := waits.busy
  by_cases other : st ≠ .interrupt
  · obtain ⟨still, cursors⟩ := wired.respond_still sound busy st undisturbed other
    rcases wired.proceeds sound busy waits.underway st undisturbed with ⟨-, underway⟩ |
      ⟨-, -, delivered⟩ | failed
    · exact .inl ⟨still, underway, by rw [cursors]; exact waits.short⟩
    · rw [delivered.free] at still
      cases still
    · exact .inr failed
  · obtain rfl := not_not.mp other
    have served : e.handleIrq =
        if e.host.block.shownFaults.isEmpty then e.acknowledged.onEvent e.host.block.shownEvents
        else e.acknowledged.abort e.host.block.shownFaults := by
      rw [e.handleIrq_eq, drive_eq e.acknowledged _ busy]
    simp only [Engine.respond]
    rcases wired.proceeds_handleIrq busy waits.underway with ⟨still, underway⟩ |
      ⟨flow, -, delivered⟩ | failed
    · refine .inl ⟨still, underway, ?_⟩
      rw [served] at still ⊢
      split at still
      · rename_i quiet
        rw [if_pos quiet,
          cursor_onEvent e.acknowledged _ busy (wired.refill_missing busy zero) still]
        exact waits.short
      · exact absurd still (free_abort _ _ busy)
    · exfalso
      rw [served] at delivered
      split at delivered
      · have still := flow.acknowledged.busy_onEvent _ e.isActive_of_idle waits.short
        rw [delivered.free] at still
        cases still
      · exact absurd
          (List.singleton_inj.mp (delivered.told.symm.trans (told_abort e.acknowledged _ busy)))
          (Report.success_ne_failure _ _ _ _ _ _ _)
    · exact .inr failed

theorem cursor_launch (e : Engine Simulator) (settings : Settings) (t : Transaction)
    (callbacks : Callbacks) (free : e.state.canLaunch = true)
    (down : Control.reset.isSet e.host.block.control = false)
    (txFits : ¬ e.host.limits.txDepth < settings.txWatermark e.host.limits)
    (rxFits : ¬ e.host.limits.rxDepth < settings.rxWatermark e.host.limits)
    (launched : e.launch settings t callbacks = (.ok (), f)) :
    f.cursors.tx ≤ e.host.block.txRoom := by
  obtain ⟨ready, prepared, kept, -⟩ := Host.prepare_spec e.host settings down txFits rxFits
  have begun := start_eq { e with host := { e.host with block := ready } } t callbacks free
  generalize hg : { e with host := { e.host with block := ready } }.start t callbacks = g at begun
  have queued : g.cursors.tx ≤ ready.txRoom := by
    rw [begun, fillTx_eq]
    simp only [launchedWith, Nat.zero_add]
    exact Nat.min_le_right _ _
  rw [kept.txRoom] at queued
  have issued := g.cursor_issueNext
  simp only [launch, prepared, hg] at launched
  rcases step : g.issueNext with ⟨result, h⟩
  rw [step] at launched issued
  cases result with
  | ok _ =>
    cases launched
    exact issued ▸ queued
  | error err =>
    simp only at launched
    split at launched
    · cases launched
      exact issued ▸ queued
    · cases launched

theorem Wired.cursor_submit (wired : Wired settings limits build e) (sound : Sound settings limits)
    (launched : e.submit settings r = (.ok (), f)) : f.cursors.tx ≤ e.host.block.txRoom := by
  unfold submit at launched
  cases checked : e.checkLaunch r.transaction with
  | error err =>
    rw [checked] at launched
    cases launched
  | ok _ =>
    rw [checked] at launched
    obtain ⟨free, -⟩ := e.checkLaunch_eq_ok r.transaction checked
    rcases e.setSlave_cases r.handle with ⟨err, refused⟩ | ⟨selected, -, -⟩
    · rw [refused] at launched
      cases launched
    · rw [selected] at launched
      have untouched := e.host.block.untouched_select r.handle.slave r.handle.divider
      obtain ⟨txFits, rxFits⟩ := sound.watermarks
      rw [← wired.host] at txFits rxFits
      rw [← untouched.txRoom]
      exact cursor_launch (e.selecting r.handle) settings r.transaction r.callbacks free
        (untouched.reset wired.reset) txFits rxFits launched

end Engine

namespace Controller

open Simulator (Move)

variable {c : Controller Simulator} {limits : PeripheralId → Limits}
  {builds : PeripheralId → Simulator.Build} {id : PeripheralId}

theorem Sane.short_act (sane : Sane limits builds c) {base : Simulator} {r : Request}
    {received : List Word} (waits : Engine.Short base r received (c.engine id))
    (zero : (c.settings.txWatermark (limits id)).toNat = 0) (a : Action Move)
    (undisturbed : a.undisturbed = true) :
    (∃ words, Engine.Short base r words ((c.act Simulator.apply a).engine id)) ∨
      Engine.Failed (c.engine id) ((c.act Simulator.apply a).engine id) := by
  refine c.engine_keeps (P := fun f => (∃ words, Engine.Short base r words f) ∨
    Engine.Failed (c.engine id) f) Simulator.apply a id (.inl ⟨received, waits⟩)
    fun st stimulus => ?_
  rcases waits.respond (sane.wired id) (sane.sound id) zero st
      (a.undisturbed_stimulus undisturbed stimulus) with waits | failed
  · exact .inl ⟨_, waits⟩
  · exact .inr failed

theorem Sane.short_run (sane : Sane limits builds c) {base : Simulator} {r : Request}
    {received : List Word} (waits : Engine.Short base r received (c.engine id))
    (zero : (c.settings.txWatermark (limits id)).toNat = 0) (as : List (Action Move))
    (undisturbed : ∀ a ∈ as, a.undisturbed = true)
    (busy : BusyThrough Simulator.apply id c as) :
    ∃ words, Engine.Short base r words ((c.run Simulator.apply as).engine id) := by
  induction as generalizing c received with
  | nil => exact ⟨received, waits⟩
  | cons a as ih =>
    have allowed := undisturbed a List.mem_cons_self
    have after := busy.2.busy
    rcases sane.short_act waits zero a allowed with ⟨words, waits⟩ | failed
    · exact ih (sane.act a allowed) waits (by rw [settings_act]; exact zero)
        (fun b member => undisturbed b (List.mem_cons_of_mem a member)) busy.2
    · rw [failed.free] at after
      cases after

theorem Sane.cursor_launched (sane : Sane limits builds c) (a : Action Move) (r : Request)
    (launched : c.launched? id a = some r) :
    ((c.act Simulator.apply a).engine id).cursors.tx ≤ (c.block id).txRoom := by
  exact (sane.wired id).cursor_submit (sane.sound id) (engine_launched Simulator.apply launched)

theorem long_transactions_starve (builds : PeripheralId → Simulator.Build) (board : Board)
    (reached : Reached Simulator.apply (fun a => a.undisturbed = true) (freshBlocks builds) board c)
    (watermark : (board.settings.txWatermark (board.hosts.get id)).toNat = 0) (r : Request)
    (call last : Action Move) (during : List (Action Move))
    (course : Course Simulator.apply id c r call during last)
    (undisturbed : ∀ a ∈ call :: during ++ [last], a.undisturbed = true)
    (long : (c.block id).tx.length + (c.block id).txRoom < r.transaction.txWords) :
    Engine.Failed ((c.run Simulator.apply (call :: during)).engine id)
      (((c.run Simulator.apply (call :: during)).act Simulator.apply last).engine id) := by
  have sane := sane_of_reached reached
  have first := undisturbed call (by simp)
  have middle : ∀ a ∈ during, a.undisturbed = true := fun a member =>
    undisturbed a (by simp [member])
  have zero : ((c.act Simulator.apply call).settings.txWatermark
      (board.hosts.get id)).toNat = 0 := by
    rw [settings_act, settings_of_reached reached]
    exact watermark
  obtain ⟨-, -, launched⟩ := sane.launched call r course.launched
  have queued := sane.cursor_launched call r course.launched
  have waits : Engine.Short (c.block id) r [] ((c.act Simulator.apply call).engine id) :=
    ⟨launched.busy, launched.underway, by omega⟩
  obtain ⟨words, waits⟩ := (sane.act call first).short_run waits zero during middle course.running
  rcases ((sane.act call first).run during middle).short_act waits
      (by rw [settings_run]; exact zero) last (undisturbed last (by simp)) with ⟨_, still⟩ | failed
  · exact absurd still.busy course.ended
  · exact failed

def starving : Controller Simulator :=
  (Controller.mk
      (.ofFn fun id => { id, host := ⟨Simulator.fresh { txDepth := 3 }, { txDepth := 3 }⟩ }) {}).run
    Simulator.apply
    [.init .host { freq := 10000000 }, .transmit benchHandle { words := [1, 2, 3, 4] } 16 {},
      .move .host .tick, .move .host .tick, .move .host .tick]

/-- A quarter of three words is a watermark of zero, which is valid, and which an empty queue is not
    below. -/
theorem not_every_empty_queue_asks :
    ¬ ∀ (s : Simulator) (settings : Settings) (limits : Limits),
      limits.validate = .ok () → settings.validate limits = .ok () →
      s.build.txDepth = limits.txDepth.toNat → s.build.rxDepth = limits.rxDepth.toNat →
      Control.txWatermark.get s.control = (settings.txWatermark limits).toNat →
      Control.rxWatermark.get s.control = (settings.rxWatermark limits).toNat →
      (s.tx = [] → (⟨s.status⟩ : Status).tx.atWatermark = true) ∧
        (s.build.rxDepth ≤ s.rx.length → (⟨s.status⟩ : Status).rx.atWatermark = true) := by
  intro asks
  have asked := (asks (starving.block .host) {} { txDepth := 3 } (by decide) (by decide)
    (by decide +kernel) (by decide +kernel) (by decide +kernel) (by decide +kernel)).1
  revert asked
  decide +kernel

end Controller

end SerialBus
