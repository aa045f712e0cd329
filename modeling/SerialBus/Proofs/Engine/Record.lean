import SerialBus.Proofs.Engine.Wiring
import SerialBus.Proofs.Host.Requests
import SerialBus.Proofs.Transfer.Totals

namespace SerialBus

namespace Buffers

theorem Same.check {a b : Buffers} (same : a.Same b) : b.check = a.check := by
  have sizes : ∀ x : Option Buffer, ∀ len,
      fits x len = (len == 0 || (x.map fun y => (y.address, y.size)).any fun y => len ≤ y.2) := by
    intro x len
    cases x <;> rfl
  simp only [Buffers.check, sizes, same.tx, same.txLen, same.rxLen, same.rx]

end Buffers

/-- The cursors have not gone past what a transaction has, nor its lengths past its buffers. -/
structure Cursors.Within (c : Cursors) (t : Transaction) : Prop where
  segment : c.segment ≤ t.segments.length
  tx : c.tx ≤ t.buffers.txLen
  txRoom : t.buffers.txLen ≤ Buffers.room t.buffers.tx
  rx : c.rx ≤ t.buffers.rxLen
  rxRoom : t.buffers.rxLen ≤ Buffers.room t.buffers.rx

theorem Transaction.validate_of_same (t : Transaction) (b : Buffers) (same : t.buffers.Same b)
    (valid : t.validate = .ok ()) : ({ t with buffers := b } : Transaction).validate = .ok () := by
  unfold validate at valid ⊢
  cases counted : Segment.validateAll t.segments with
  | error err =>
    rw [counted] at valid
    cases valid
  | ok counts =>
    rw [counted] at valid
    simp only [same.check]
    exact valid

theorem Cursors.within_of_valid (c : Cursors) (t : Transaction) (valid : t.validate = .ok ())
    (segment : c.segment ≤ t.segments.length) (tx : c.tx ≤ t.buffers.txLen)
    (rx : c.rx ≤ t.buffers.rxLen) : c.Within t := by
  obtain ⟨-, -, checked⟩ := t.validate_eq_ok valid
  obtain ⟨txRoom, rxRoom⟩ := t.buffers.room_of_check checked
  exact ⟨segment, tx, txRoom, rx, rxRoom⟩

namespace Engine

variable {β : Type}

structure Resting (limits : Limits) (e : Engine β) : Prop where
  host : e.host.limits = limits
  state : e.state = .none ∨ e.state = .init
  running : e.running = none
  cursors : e.cursors = {}
  callbacks : e.callbacks = {}

structure Going (limits : Limits) (e : Engine β) : Prop where
  host : e.host.limits = limits
  state : e.state = .busy
  running : ∃ t, e.running = some t ∧ t.validate = .ok () ∧ e.cursors.Within t

/-- What the engine of a block keeps between two calls. -/
def Recorded (limits : Limits) (e : Engine β) : Prop := Resting limits e ∨ Going limits e

variable {limits : Limits} {e f : Engine β}

theorem Resting.free (resting : Resting limits e) : e.state ≠ .busy := by
  rcases resting.state with state | state <;> rw [state] <;> exact Lifecycle.noConfusion

theorem Resting.of_host (resting : Resting limits e) (host : Host β)
    (same : host.limits = e.host.limits) : Resting limits { e with host } :=
  ⟨same.trans resting.host, resting.state, resting.running, resting.cursors, resting.callbacks⟩

theorem Going.of_host (going : Going limits e) (host : Host β)
    (same : host.limits = e.host.limits) : Going limits { e with host } :=
  ⟨same.trans going.host, going.state, going.running⟩

theorem Recorded.of_host (recorded : Recorded limits e) (host : Host β)
    (same : host.limits = e.host.limits) : Recorded limits { e with host } :=
  recorded.imp (·.of_host host same) (·.of_host host same)

theorem Going.bound (going : Going limits e) : e.state ≠ .none := by
  rw [going.state]
  exact Lifecycle.noConfusion

theorem Going.notifyTxWatermark (going : Going limits e) : Going limits e.notifyTxWatermark := by
  rw [e.notifyTxWatermark_frame]
  exact ⟨going.host, going.state, going.running⟩

theorem Going.notifyRxWatermark (going : Going limits e) : Going limits e.notifyRxWatermark := by
  rw [e.notifyRxWatermark_frame]
  exact ⟨going.host, going.state, going.running⟩

variable [RegisterBlock β]

theorem Going.fillTx (going : Going limits e) : Going limits e.fillTx := by
  obtain ⟨t, running, valid, within⟩ := going.running
  have kept := (Host.steady_limits limits).firm.writeWords e.unsent going.host
  have count := e.host.writeWords_le e.unsent
  -- only what is left of the lent words is offered, and the block may take less of it
  have left : e.unsent.length ≤ t.buffers.txLen - e.cursors.tx := by
    unfold unsent
    rw [running]
    simp only
    split
    · exact Nat.zero_le _
    · rw [List.length_drop, List.length_take]
      omega
  have sent : e.cursors.tx + (e.host.writeWords e.unsent).1 ≤ t.buffers.txLen := by
    have bound := within.tx
    omega
  exact ⟨kept, going.state, t, running, valid, { within with tx := sent }⟩

theorem Going.emptyRx (going : Going limits e) : Going limits e.emptyRx := by
  obtain ⟨t, running, valid, within⟩ := going.running
  cases lent : t.buffers.rx with
  | none =>
    have same : e.emptyRx = e := by simp only [Engine.emptyRx, running, lent]
    rw [same]
    exact going
  | some rx =>
    obtain ⟨b, drained, same⟩ := e.emptyRx_running t running
    have frame := e.emptyRx_frame
    have left := length_readWords e.host (min t.buffers.rxLen rx.size - e.cursors.rx)
    have kept : e.emptyRx.host.limits = e.host.limits := by
      simp only [Engine.emptyRx, running, lent]
      exact (Host.steady_limits e.host.limits).firm.readWords _ rfl
    have cursors : e.emptyRx.cursors.segment = e.cursors.segment ∧
        e.emptyRx.cursors.tx = e.cursors.tx ∧ e.emptyRx.cursors.rx ≤ t.buffers.rxLen := by
      have bound := within.rx
      simp only [Engine.emptyRx, running, lent]
      refine ⟨trivial, trivial, ?_⟩
      omega
    obtain ⟨segment, tx, taken⟩ := cursors
    have state : e.emptyRx.state = e.state := by rw [frame]
    have still := t.validate_of_same b same valid
    refine ⟨kept.trans going.host, state.trans going.state, _, drained, still, ?_⟩
    apply Cursors.within_of_valid _ _ still
    · rw [segment]
      exact within.segment
    · rw [tx, same.txLen]
      exact within.tx
    · rw [same.rxLen]
      exact taken

theorem Going.serveQueues (going : Going limits e) (events : Events) :
    Going limits (e.serveQueues events) := by
  have fed : Going limits
      (if events.contains Events.txWatermark then e.fillTx.notifyTxWatermark else e) := by
    split
    · exact going.fillTx.notifyTxWatermark
    · exact going
  unfold Engine.serveQueues
  simp only
  split
  · exact fed.emptyRx.notifyRxWatermark
  · exact fed

theorem Going.issueNext (going : Going limits e) :
    Going limits e.issueNext.2 ∧
      ∀ err, e.issueNext.1 = .error err → err.isTransient = true := by
  obtain ⟨t, running, valid, within⟩ := going.running
  obtain ⟨-, segments, -⟩ := t.validate_eq_ok valid
  simp only [Engine.issueNext, running, Option.bind_some]
  cases next : t.segments[e.cursors.segment]? with
  | none => exact ⟨going, fun err refused => by cases refused⟩
  | some g =>
    obtain ⟨inside, found⟩ := List.getElem?_eq_some_iff.mp next
    have member : g ∈ t.segments := by
      rw [← found]
      exact List.getElem_mem inside
    simp only
    generalize (!decide (e.segmentCount ≤ e.cursors.segment + 1)) = csaat
    have kept := e.host.limits_setCommand (.ofSegment g csaat)
    have transient := e.host.setCommand_transient g csaat (segments g member)
    rcases queued : e.host.setCommand (.ofSegment g csaat) with ⟨result, host⟩
    rw [queued] at kept transient
    cases result with
    | ok _ =>
      refine ⟨⟨kept.trans going.host, going.state, t, rfl, valid, ?_⟩, fun err refused => ?_⟩
      · exact { within with segment := inside }
      · cases refused
    | error err =>
      refine ⟨⟨kept.trans going.host, going.state, t, rfl, valid, within⟩, fun other refused => ?_⟩
      cases refused
      exact transient err rfl

omit [RegisterBlock β] in
theorem resting_retired (e : Engine β) (host : Host β) (same : host.limits = limits)
    (report : Report) : Resting limits ((e.retired host).tell report) := by
  cases report <;> exact ⟨same, .inr rfl, rfl, rfl, rfl⟩

theorem Going.abort (going : Going limits e) (faults : Faults) :
    Resting limits (e.abort faults) := by
  have quiet : e.quietHost.limits = limits := going.host
  rw [e.abort_eq faults going.state]
  exact e.resting_retired _ quiet _

theorem Going.complete (going : Going limits e) : Resting limits e.complete := by
  have quiet : Going limits e.quiesce := going.of_host _ rfl
  have drained : e.drained.host.limits = limits := quiet.emptyRx.host
  rw [e.complete_eq going.state]
  exact e.resting_retired _ drained _

theorem Going.onEvent (going : Going limits e) (events : Events) :
    Going limits (e.onEvent events) ∨
      Resting limits (e.onEvent events) ∧ (e.onEvent events).state = .init := by
  obtain ⟨issued, transient⟩ := going.issueNext
  rcases e.onEvent_cases events going.state with ⟨served, -⟩ | ⟨served, -⟩ |
    ⟨-, -, err, refused, final⟩ | ⟨completed, -⟩
  · rw [served]
    exact .inl (going.serveQueues events)
  · rw [served]
    exact .inl (issued.serveQueues events)
  · rw [transient err refused] at final
    cases final
  · rw [completed]
    exact .inr ⟨going.complete, e.state_complete going.state⟩

end Engine

end SerialBus
