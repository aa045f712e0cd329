import SerialBus.Proofs.Engine.Request
import SerialBus.Proofs.Engine.Settling
import SerialBus.Proofs.Run.Recorded

namespace SerialBus

/-- What came back of a loan: the transmit buffer as it was, and the receive buffer with its words
    from `n` on as they were. -/
structure Buffers.Spared (lent : Buffers) (n : Nat) (back : Buffers) : Prop
    extends Same lent back where
  rest : ∀ i, n ≤ i → (back.rx.bind fun x => x.words[i]?) = lent.rx.bind fun x => x.words[i]?

theorem Buffers.Spared.refl (lent : Buffers) (n : Nat) : lent.Spared n lent :=
  ⟨.refl lent, fun _ _ => rfl⟩

theorem Buffers.Spared.trans {a b c : Buffers} {n m : Nat} (first : a.Spared n b)
    (second : b.Spared m c) (grown : n ≤ m) : a.Spared m c :=
  ⟨first.toSame.trans second.toSame, fun i beyond =>
    (second.rest i beyond).trans (first.rest i (Nat.le_trans grown beyond))⟩

def Report.ending (id : PeripheralId) (callbacks : Callbacks) (outcome : Except Faults Unit)
    (b : Buffers) : Report :=
  match outcome with
  | .ok () => .success id callbacks b
  | .error faults => .failure id callbacks faults b

namespace Engine

variable {β μ : Type} [RegisterBlock β] {settings : Settings} {limits : Limits} {r : Request}
  {e f : Engine β}

/-- The engine as it is when it gives the buffers back: a success drains the receive queue once
    more, a failure does not. -/
def closing (e : Engine β) : Stimulus μ → Engine β
  | .interrupt =>
    let (irq, host) := Interrupt.take e.host
    if irq.faults.isEmpty then { e with host }.drained else { e with host }
  | .event _ => e.drained
  | _ => e

structure Lending (r : Request) (limits : Limits) (e : Engine β) : Prop where
  going : Going limits e
  owes : e.Owes r
  spared : r.transaction.buffers.Spared e.cursors.rx e.lent

omit [RegisterBlock β] in
theorem Lending.of_frame (lending : Lending r limits e) (going : Going limits f) (owes : f.Owes r)
    (running : f.running = e.running) (rx : f.cursors.rx = e.cursors.rx) :
    Lending r limits f := by
  refine ⟨going, owes, ?_⟩
  have same : f.lent = e.lent := by simp only [lent, running]
  rw [same, rx]
  exact lending.spared

omit [RegisterBlock β] in
theorem Lending.of_host (lending : Lending r limits e) (host : Host β)
    (same : host.limits = e.host.limits) : Lending r limits { e with host } :=
  lending.of_frame (lending.going.of_host host same)
    ⟨lending.owes.busy, lending.owes.running, lending.owes.callbacks⟩ rfl rfl

omit [RegisterBlock β] in
theorem Lending.bound (lending : Lending r limits e) :
    e.cursors.rx ≤ r.transaction.buffers.rxLen := by
  obtain ⟨t, running, -, within⟩ := lending.going.running
  have same : e.lent = t.buffers := by simp only [lent, running]
  rw [← lending.spared.rxLen, same]
  exact within.rx

theorem Going.spared_emptyRx (going : Going limits e) :
    e.cursors.rx ≤ e.emptyRx.cursors.rx ∧ e.lent.Spared e.emptyRx.cursors.rx e.emptyRx.lent := by
  obtain ⟨t, running, -, within⟩ := going.running
  cases named : t.buffers.rx with
  | none =>
    have same : e.emptyRx = e := by simp only [Engine.emptyRx, running, named]
    rw [same]
    exact ⟨Nat.le_refl _, .refl _ _⟩
  | some rx =>
    have room : t.buffers.rxLen ≤ rx.size := by
      have enough := within.rxRoom
      rw [named] at enough
      exact enough
    have inside : e.cursors.rx ≤ rx.size := Nat.le_trans within.rx room
    obtain ⟨b, drained, same⟩ := e.emptyRx_running t running
    have own : e.lent = t.buffers := by simp only [lent, running]
    have after : e.emptyRx.lent = b := by simp only [lent, drained]
    have step : b.rx = some (rx.store e.cursors.rx
          (e.host.readWords (min t.buffers.rxLen rx.size - e.cursors.rx)).1) ∧
        e.emptyRx.cursors.rx = e.cursors.rx +
          (e.host.readWords (min t.buffers.rxLen rx.size - e.cursors.rx)).1.length := by
      simp only [Engine.emptyRx, running, named] at drained ⊢
      cases drained
      exact ⟨rfl, trivial⟩
    obtain ⟨stored, moved⟩ := step
    rw [own, after, moved]
    refine ⟨Nat.le_add_right _ _, same, fun i beyond => ?_⟩
    rw [stored, named]
    exact rx.getElem?_store _ _ inside i beyond

theorem Lending.fillTx (lending : Lending r limits e) : Lending r limits e.fillTx :=
  lending.of_frame lending.going.fillTx (serves_fillTx lending.owes).owes rfl rfl

theorem Lending.emptyRx (lending : Lending r limits e) : Lending r limits e.emptyRx := by
  obtain ⟨grown, spared⟩ := lending.going.spared_emptyRx
  exact ⟨lending.going.emptyRx, (serves_emptyRx lending.owes).owes,
    lending.spared.trans spared grown⟩

omit [RegisterBlock β] in
theorem Lending.notifyTxWatermark (lending : Lending r limits e) :
    Lending r limits e.notifyTxWatermark := by
  obtain ⟨ns, serves⟩ := serves_notifyTxWatermark lending.owes
  refine lending.of_frame lending.going.notifyTxWatermark serves.owes ?_ ?_ <;>
    rw [notifyTxWatermark_frame]

omit [RegisterBlock β] in
theorem Lending.notifyRxWatermark (lending : Lending r limits e) :
    Lending r limits e.notifyRxWatermark := by
  obtain ⟨ns, serves⟩ := serves_notifyRxWatermark lending.owes
  refine lending.of_frame lending.going.notifyRxWatermark serves.owes ?_ ?_ <;>
    rw [notifyRxWatermark_frame]

theorem Lending.serveQueues (lending : Lending r limits e) (events : Events) :
    Lending r limits (e.serveQueues events) := by
  have fed : Lending r limits
      (if events.contains Events.txWatermark then e.fillTx.notifyTxWatermark else e) := by
    split
    · exact lending.fillTx.notifyTxWatermark
    · exact lending
  unfold Engine.serveQueues
  simp only
  split
  · exact fed.emptyRx.notifyRxWatermark
  · exact fed

theorem rx_issueNext (e : Engine β) : e.issueNext.2.cursors.rx = e.cursors.rx := by
  unfold issueNext
  split
  · rfl
  · simp only
    split <;> rfl

theorem Lending.issueNext (lending : Lending r limits e) : Lending r limits e.issueNext.2 :=
  lending.of_frame lending.going.issueNext.1 (serves_issueNext lending.owes).owes
    (by rw [issueNext_frame]) e.rx_issueNext

theorem Lending.drained (lending : Lending r limits e) : Lending r limits e.drained :=
  (lending.of_host e.quiesce.host rfl).emptyRx

/-- From `e` to `f` the transaction of `r` goes on, or it ends and the buffers that `g` held come
    back. -/
inductive Returns (r : Request) (limits : Limits) (g e f : Engine β) : Prop
  | on (lending : Lending r limits f)
  | ended (free : f.state ≠ .busy) (lending : Lending r limits g) (outcome : Except Faults Unit)
      (told : e.told f = [.ending e.id r.callbacks outcome g.lent])

theorem Lending.abort (lending : Lending r limits e) (faults : Faults) :
    Returns r limits e e (e.abort faults) := by
  have busy := lending.owes.busy
  refine .ended (e.free_abort faults busy) lending (.error faults) ?_
  rw [e.told_abort faults busy, lending.owes.callbacks]
  rfl

theorem Lending.onEvent (lending : Lending r limits e) (events : Events) :
    Returns r limits e.drained e (e.onEvent events) := by
  have busy := lending.owes.busy
  rcases e.onEvent_cases events busy with ⟨served, -⟩ | ⟨served, -⟩ |
    ⟨-, -, err, refused, final⟩ | ⟨completed, -⟩
  · rw [served]
    exact .on (lending.serveQueues events)
  · rw [served]
    exact .on (lending.issueNext.serveQueues events)
  · rw [lending.going.issueNext.2 err refused] at final
    cases final
  · rw [completed]
    refine .ended (e.free_complete busy) lending.drained (.ok ()) ?_
    rw [e.told_complete busy, lending.owes.callbacks]
    rfl

theorem Lending.drive (lending : Lending r limits e) (irq : Interrupt) :
    Returns r limits (if irq.faults.isEmpty then e.drained else e) e (e.drive irq) := by
  rw [e.drive_eq irq lending.owes.busy]
  split
  · exact lending.onEvent irq.events
  · exact lending.abort irq.faults

theorem Lending.bind (lending : Lending r limits e) (settings : Settings) (slave : Slave) :
    Lending r limits (e.bind settings slave) := by
  have carries := (Recorded.bind (.inr lending.going) settings slave).1
  have owes : (e.bind settings slave).Owes r :=
    (settles_bind settings (r := some r) lending.owes slave).owing
  have same : (e.bind settings slave).running = e.running ∧
      (e.bind settings slave).cursors = e.cursors := by
    rcases e.state_bind settings slave with ⟨host, bound⟩ | ⟨host, bound⟩ <;> rw [bound] <;>
      exact ⟨rfl, rfl⟩
  rcases carries.recorded with resting | going
  · exact absurd owes.busy resting.free
  · exact lending.of_frame going owes same.1 (by rw [same.2])

theorem Lending.respond (lending : Lending r limits e) (env : μ → β → β) (settings : Settings)
    (st : Stimulus μ) : Returns r limits (e.closing st) e (e.respond env settings st) := by
  have busy := lending.owes.busy
  cases st with
  | bind slave => exact .on (lending.bind settings slave)
  | reset => exact .on (lending.of_host _ rfl)
  | take =>
    exact .on (lending.of_frame ⟨lending.going.host, lending.going.state, lending.going.running⟩
      ⟨busy, lending.owes.running, lending.owes.callbacks⟩ rfl rfl)
  | submit q =>
    have refused : e.submit settings q = (.error ⟨.busy, q.transaction.buffers⟩, e) := by
      simp only [Engine.submit, checkLaunch, busy, Lifecycle.isBusy, if_true]
    simp only [Engine.respond, refused]
    exact .on lending
  | interrupt =>
    have kept := e.host.limits_take
    rcases taken : Interrupt.take e.host with ⟨irq, host⟩
    rw [taken] at kept
    simp only [Engine.respond, Engine.handleIrq, closing, taken]
    -- what the client is told does not depend on the block that was looked at
    cases (lending.of_host host kept).drive irq with
    | on lending => exact .on lending
    | ended free lending outcome told => exact .ended free lending outcome told
  | event events => exact lending.onEvent events
  | fault faults =>
    simp only [Engine.respond, e.onFault_of_busy faults busy]
    exact lending.abort faults
  | move m => exact .on (lending.of_host _ rfl)

theorem Lending.of_submit (sound : Sound settings limits) (same : e.host.limits = limits)
    (r : Request) (accepted : e.submit settings r = (.ok (), f)) : Lending r limits f := by
  have answer := submit_answer sound same r
  rcases e.submit_cases settings r with ⟨-, host, cursors, launched⟩ | ⟨failure, refused⟩ |
    ⟨-, failure, host, refused | refused⟩
  · rw [launched] at accepted answer
    cases accepted
    cases answer with
    | launched checked inactive _ going =>
      exact ⟨going, ⟨rfl, ⟨_, rfl, .refl _⟩, rfl⟩, .refl _ _⟩
  all_goals
    rw [refused] at accepted
    cases accepted

end Engine

end SerialBus
