import SerialBus.Proofs.Engine.Slot
import SerialBus.Proofs.Host.Image
import SerialBus.Proofs.Run.Projection

namespace SerialBus

variable {β γ μ : Type}

namespace Engine

def map (f : β → γ) (p : Option Completion) (e : Engine β) : Engine γ where
  id := e.id
  host := e.host.map f
  state := e.state
  running := e.running
  cursors := e.cursors
  callbacks := e.callbacks
  parked := p
  notices := e.notices
  parkings := e.parkings

/-- What became of the image of `e` is the image `d` of what became of `e`, with the same parked
    completion if it was the same before or was parked meanwhile. -/
def Mirrors (f : β → γ) (p : Option Completion) (e e' : Engine β) (d : Engine γ) : Prop :=
  ∃ q, d = e'.map f q ∧ (p = e.parked ∨ e'.parkings ≠ e.parkings → q = e'.parked)

variable {f : β → γ} {p : Option Completion} {e : Engine β}

theorem Mirrors.of_parked {e' : Engine β} {d : Engine γ} (same : d = e'.map f p)
    (parked : e'.parked = e.parked) (parkings : e'.parkings = e.parkings) : Mirrors f p e e' d :=
  ⟨p, same, fun
    | .inl before => before.trans parked.symm
    | .inr new => absurd parkings new⟩

theorem Mirrors.of_before {e e' e'' : Engine β} {d : Engine γ} (mirrors : Mirrors f p e' e'' d)
    (parked : e'.parked = e.parked) (parkings : e'.parkings = e.parkings) :
    Mirrors f p e e'' d := by
  obtain ⟨q, same, after⟩ := mirrors
  rw [parked, parkings] at after
  exact ⟨q, same, after⟩

theorem Mirrors.trans {e e' e'' : Engine β} {d : Engine γ} {g : Engine γ → Engine γ}
    (first : Mirrors f p e e' d) (second : ∀ q, Mirrors f q e' e'' (g (e'.map f q))) :
    Mirrors f p e e'' (g d) := by
  obtain ⟨q, same, before⟩ := first
  obtain ⟨r, final, after⟩ := second q
  rw [same]
  refine ⟨r, final, fun start => after ?_⟩
  by_cases parked : e'.parkings = e.parkings
  · rw [parked]
    exact start.imp_left fun known => before (.inl known)
  · exact .inl (before (.inr parked))

theorem map_notifyTxWatermark (f : β → γ) (p : Option Completion) (e : Engine β) :
    (e.map f p).notifyTxWatermark = e.notifyTxWatermark.map f p := by
  unfold notifyTxWatermark
  simp only [map]
  split <;> rfl

theorem map_notifyRxWatermark (f : β → γ) (p : Option Completion) (e : Engine β) :
    (e.map f p).notifyRxWatermark = e.notifyRxWatermark.map f p := by
  unfold notifyRxWatermark
  simp only [map]
  split <;> rfl

variable [RegisterBlock β] [RegisterBlock γ] (image : Image f) (p : Option Completion)
  (e : Engine β)

include image

theorem map_issueNext : (e.map f p).issueNext = (e.issueNext.1, e.issueNext.2.map f p) := by
  have count : (e.map f p).segmentCount = e.segmentCount := rfl
  have host : (e.map f p).host = e.host.map f := rfl
  have cursors : (e.map f p).cursors = e.cursors := rfl
  have running : (e.map f p).running = e.running := rfl
  unfold issueNext
  simp only [count, host, cursors, running, Host.map_setCommand image]
  split
  · rfl
  · rename_i g _
    rcases e.host.setCommand (.ofSegment g !decide (e.segmentCount ≤ e.cursors.segment + 1)) with
      ⟨result, host⟩
    cases result <;> rfl

theorem map_fillTx : (e.map f p).fillTx = e.fillTx.map f p := by
  have host : (e.map f p).host = e.host.map f := rfl
  have unsent : (e.map f p).unsent = e.unsent := rfl
  simp only [fillTx, host, unsent, Host.map_writeWords image]
  rfl

theorem map_emptyRx : (e.map f p).emptyRx = e.emptyRx.map f p := by
  have host : (e.map f p).host = e.host.map f := rfl
  have cursors : (e.map f p).cursors = e.cursors := rfl
  have running : (e.map f p).running = e.running := rfl
  unfold emptyRx
  simp only [host, cursors, running, Host.map_readWords image]
  split
  · rfl
  · split <;> rfl

theorem map_serveQueues (events : Events) :
    (e.map f p).serveQueues events = (e.serveQueues events).map f p := by
  have fed : (if events.contains Events.txWatermark then (e.map f p).fillTx.notifyTxWatermark
      else e.map f p) =
      (if events.contains Events.txWatermark then e.fillTx.notifyTxWatermark else e).map f p := by
    split
    · rw [map_fillTx image, map_notifyTxWatermark]
    · rfl
  unfold serveQueues
  simp only [fed]
  split
  · rw [map_emptyRx image, map_notifyRxWatermark]
  · rfl

theorem map_quiesce : (e.map f p).quiesce = e.quiesce.map f p := by
  have host : (e.map f p).host = e.host.map f := rfl
  simp only [quiesce, Host.disableEvents, host, Host.map_write image, Host.map_setEventIntr image]
  rfl

theorem mirrors_complete : Mirrors f p e e.complete (e.map f p).complete := by
  have parked : e.quiesce.emptyRx.parked = e.parked ∧ e.quiesce.emptyRx.parkings = e.parkings := by
    rw [emptyRx_frame]
    exact ⟨rfl, rfl⟩
  simp only [complete, map_quiesce image, map_emptyRx image]
  generalize e.quiesce.emptyRx = d at parked
  have callbacks : ((d.map f p).reach .completed).callbacks = (d.reach .completed).callbacks := rfl
  rw [callbacks]
  split
  · exact .of_parked rfl parked.1 parked.2
  · exact ⟨_, rfl, fun _ => rfl⟩

theorem mirrors_abort (faults : Faults) :
    Mirrors f p e (e.abort faults) ((e.map f p).abort faults) := by
  have parked : e.quiesce.parked = e.parked ∧ e.quiesce.parkings = e.parkings := ⟨rfl, rfl⟩
  simp only [abort, map_quiesce image]
  generalize e.quiesce = d at parked
  have callbacks : ((d.map f p).reach .aborted).callbacks = (d.reach .aborted).callbacks := rfl
  rw [callbacks]
  split
  · exact .of_parked rfl parked.1 parked.2
  · exact ⟨_, rfl, fun _ => rfl⟩

theorem mirrors_onEvent (events : Events) :
    Mirrors f p e (e.onEvent events) ((e.map f p).onEvent events) := by
  have count : (e.map f p).segmentCount = e.segmentCount := rfl
  have cursors : (e.map f p).cursors = e.cursors := rfl
  have state : (e.map f p).state = e.state := rfl
  have parked := e.parked_issueNext
  have serves (d : Engine β) (parked : d.parked = e.parked ∧ d.parkings = e.parkings) :
      Mirrors f p e (d.serveQueues events) ((d.map f p).serveQueues events) :=
    .of_parked (map_serveQueues image p d events)
      ((d.parked_serveQueues events).1.trans parked.1)
      ((d.parked_serveQueues events).2.trans parked.2)
  unfold onEvent
  rw [state, cursors, count, map_issueNext image]
  generalize e.issueNext = step at parked
  rcases step with ⟨result, d⟩
  split
  · exact .of_parked rfl rfl rfl
  · split
    · exact serves e ⟨rfl, rfl⟩
    · split
      · cases result with
        | ok _ => exact serves d parked
        | error err =>
          simp only
          split
          · exact serves d parked
          · exact (mirrors_abort image p d _).of_before parked.1 parked.2
      · split
        · exact mirrors_complete image p e
        · exact serves e ⟨rfl, rfl⟩

theorem mirrors_onFault (faults : Faults) :
    Mirrors f p e (e.onFault faults) ((e.map f p).onFault faults) := by
  have state : (e.map f p).state = e.state := rfl
  unfold onFault
  rw [state]
  split
  · exact mirrors_abort image p e faults
  · exact .of_parked rfl rfl rfl

theorem mirrors_drive (irq : Interrupt) :
    Mirrors f p e (e.drive irq) ((e.map f p).drive irq) := by
  have first : Mirrors f p e (if irq.faults.isEmpty then e else e.onFault irq.faults)
      (if irq.faults.isEmpty then e.map f p else (e.map f p).onFault irq.faults) := by
    split
    · exact .of_parked rfl rfl rfl
    · exact mirrors_onFault image p e irq.faults
  unfold drive
  simp only
  split
  · exact first
  · exact first.trans (g := (onEvent · irq.events)) fun q => mirrors_onEvent image q _ irq.events

theorem mirrors_handleIrq : Mirrors f p e e.handleIrq (e.map f p).handleIrq := by
  have host : (e.map f p).host = e.host.map f := rfl
  simp only [handleIrq, host, Host.map_take image, Prod.map_fst, Prod.map_snd, id_eq]
  exact mirrors_drive image p { e with host := (Interrupt.take e.host).2 } (Interrupt.take e.host).1

theorem map_bind (settings : Settings) (slave : Slave) :
    (e.map f p).bind settings slave = (e.bind settings slave).map f p := by
  have host : (e.map f p).host = e.host.map f := rfl
  unfold bind
  rw [host, Host.limits_map, Host.map_enableHost image]
  rcases Controller.enableHost e.host with ⟨result, g⟩
  split
  · rfl
  · cases result <;> rfl

theorem map_setSlave (h : Handle) :
    (e.map f p).setSlave h = ((e.setSlave h).1, (e.setSlave h).2.map f p) := by
  have host : (e.map f p).host = e.host.map f := rfl
  simp only [setSlave, host, Host.map_status image, Prod.map_fst, Prod.map_snd, id_eq,
    Host.map_selectSlave image]
  rcases selectSlave e.host.status.2 h.slave h.divider with ⟨result, g⟩
  split
  · rfl
  · cases result <;> rfl

theorem map_start (t : Transaction) (callbacks : Callbacks) :
    (e.map f p).start t callbacks = (e.start t callbacks).map f p := by
  have begun : ({ (e.map f p).reach .launched with running := some t, callbacks, cursors := {} } :
      Engine γ) =
      ({ e.reach .launched with running := some t, callbacks, cursors := {} } : Engine β).map f p :=
    rfl
  simp only [start, begun, map_fillTx image]
  generalize ({ e.reach .launched with running := some t, callbacks, cursors := {} } :
    Engine β).fillTx = d
  have host : (d.map f p).host = d.host.map f := rfl
  rw [host, Host.map_setEventIntr image, Host.patience_map image, Host.map_spin image]
  rfl

theorem map_launch (settings : Settings) (t : Transaction) (callbacks : Callbacks) :
    (e.map f p).launch settings t callbacks =
      ((e.launch settings t callbacks).1, (e.launch settings t callbacks).2.map f p) := by
  have host : (e.map f p).host = e.host.map f := rfl
  unfold launch
  rw [host, Host.map_prepare image]
  rcases prepare e.host settings with ⟨result, g⟩
  cases result with
  | error err => rfl
  | ok _ =>
    have prepared : { e.map f p with host := g.map f } = { e with host := g }.map f p := rfl
    simp only [Prod.map_apply, id_eq, prepared, map_start image, map_issueNext image]
    generalize start (_ : Engine β) t callbacks = d
    rcases d.issueNext with ⟨result, d⟩
    cases result with
    | ok _ => rfl
    | error err =>
      simp only [map_quiesce image]
      split <;> rfl

theorem map_submit (settings : Settings) (r : Request) :
    (e.map f p).submit settings r =
      ((e.submit settings r).1, (e.submit settings r).2.map f p) := by
  have checked : (e.map f p).checkLaunch r.transaction = e.checkLaunch r.transaction := rfl
  unfold submit
  rw [checked, map_setSlave image]
  rcases e.setSlave r.handle with ⟨result, d⟩
  split
  · rfl
  · cases result with
    | error err => rfl
    | ok _ => exact map_launch image p d settings r.transaction r.callbacks

theorem mirrors_respond {env : μ → β → β} {env' : μ → γ → γ}
    (moves : ∀ m b, env' m (f b) = f (env m b)) (settings : Settings) (st : Stimulus μ) :
    Mirrors f p e (e.respond env settings st) ((e.map f p).respond env' settings st) := by
  have host : (e.map f p).host = e.host.map f := rfl
  cases st with
  | bind slave =>
    refine .of_parked (map_bind image p e settings slave) ?_ ?_ <;>
      rcases e.state_bind settings slave with ⟨host, bound⟩ | ⟨host, bound⟩ <;>
      simp only [respond, bound]
  | reset =>
    refine .of_parked ?_ rfl rfl
    simp only [respond, host, Host.map_softReset image]
    rfl
  | take => exact ⟨none, rfl, fun _ => rfl⟩
  | submit r =>
    have kept := e.parked_submit settings r
    exact .of_parked (congrArg Prod.snd (map_submit image p e settings r)) kept.1 kept.2
  | interrupt => exact mirrors_handleIrq image p e
  | event events => exact mirrors_onEvent image p e events
  | fault faults => exact mirrors_onFault image p e faults
  | move m =>
    refine .of_parked ?_ rfl rfl
    simp only [respond, host, Host.map, moves]
    rfl

end Engine

end SerialBus
