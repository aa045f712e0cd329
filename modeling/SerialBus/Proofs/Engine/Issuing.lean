import SerialBus.Proofs.Engine.Request
import SerialBus.Proofs.Engine.Settling
import SerialBus.Proofs.Engine.Steady
import SerialBus.Proofs.Host.Noted
import SerialBus.Proofs.Run.Recorded

namespace SerialBus

namespace Transaction

def commands (t : Transaction) : List Word :=
  t.segments.mapIdx fun i g =>
    (Command.ofSegment g (decide (i + 1 < t.segments.length))).toWord

theorem length_commands (t : Transaction) : t.commands.length = t.segments.length := by
  simp [commands]

theorem take_commands_succ (t : Transaction) (i : Nat) (inside : i < t.segments.length) :
    t.commands.take (i + 1) = t.commands.take i ++
      [(Command.ofSegment t.segments[i] (decide (i + 1 < t.segments.length))).toWord] := by
  have within : i < t.commands.length := by
    rw [t.length_commands]
    exact inside
  rw [List.take_succ_eq_append_getElem within]
  simp only [commands, List.getElem_mapIdx]

end Transaction

theorem Host.setCommand_of_valid {β : Type} [RegisterBlock β] (h : Host β) (g : Segment)
    (csaat : Bool) (valid : g.validate = .ok ()) :
    (∃ err, (err = .commandFull ∨ err = .notReady) ∧
        h.setCommand (.ofSegment g csaat) = (.error err, h.status.2)) ∨
      h.setCommand (.ofSegment g csaat) =
        (.ok (), h.status.2.write .command (Command.ofSegment g csaat).toWord) := by
  obtain ⟨allowed, nonzero, bound⟩ := g.valid_parts valid
  have accepted : (Command.ofSegment g csaat).validate = .ok () := by
    simp [Command.validate, Command.ofSegment, allowed, nonzero, UInt32.not_lt.mpr bound]
  simp only [setCommand, accepted, queueWord, checkQueue]
  by_cases full : h.status.2.limits.cmdDepth.toNat ≤ h.status.1.cmdLevel
  · rw [if_pos full]
    exact .inl ⟨.commandFull, .inl rfl, rfl⟩
  · by_cases ready : h.status.1.isReady = false
    · rw [if_neg full, if_pos ready]
      exact .inl ⟨.notReady, .inr rfl, rfl⟩
    · rw [if_neg full, if_neg ready]
      exact .inr rfl

namespace Engine

variable {β μ : Type} [RegisterBlock β] {limits : Limits} {settings : Settings} {r : Request}

theorem segment_emptyRx (e : Engine β) : e.emptyRx.cursors.segment = e.cursors.segment := by
  unfold emptyRx
  split
  · rfl
  · split <;> rfl

theorem segment_serveQueues (e : Engine β) (events : Events) :
    (e.serveQueues events).cursors.segment = e.cursors.segment := by
  have fed : (if events.contains Events.txWatermark then e.fillTx.notifyTxWatermark
      else e).cursors.segment = e.cursors.segment := by
    split
    · rw [notifyTxWatermark_frame]
      rfl
    · rfl
  unfold serveQueues
  simp only
  split
  · rw [notifyRxWatermark_frame]
    exact (segment_emptyRx _).trans fed
  · exact fed

inductive Attempt (r : Request) (e : Engine β) : Except HostError Unit × Engine β → Prop
  | refused (err : HostError) (why : err = .commandFull ∨ err = .notReady) :
    Attempt r e (.error err, { e with host := e.host.status.2 })
  | issued (inside : e.cursors.segment < r.transaction.segments.length) :
    Attempt r e (.ok (),
      { e with
        host := e.host.status.2.write .command
          (Command.ofSegment r.transaction.segments[e.cursors.segment]
            (decide (e.cursors.segment + 1 < r.transaction.segments.length))).toWord
        cursors := { e.cursors with segment := e.cursors.segment + 1 } })

theorem attempt_issueNext {e : Engine β} (going : Going limits e) (owes : e.Owes r)
    (left : e.cursors.segment < r.transaction.segments.length) : Attempt r e e.issueNext := by
  obtain ⟨b, running, -⟩ := owes.running
  obtain ⟨t, same, valid, -⟩ := going.running
  cases running.symm.trans same
  obtain ⟨-, segments, -⟩ := Transaction.validate_eq_ok _ valid
  have lookup : (e.running.bind fun t => t.segments[e.cursors.segment]?) =
      some r.transaction.segments[e.cursors.segment] := by
    rw [running]
    exact List.getElem?_eq_getElem left
  have csaat : (!decide (e.segmentCount ≤ e.cursors.segment + 1)) =
      decide (e.cursors.segment + 1 < r.transaction.segments.length) := by
    simp only [segmentCount, running, ← decide_not, Nat.not_le]
  have valid := segments _ (List.getElem_mem left)
  unfold issueNext
  rw [lookup]
  simp only [csaat]
  rcases e.host.setCommand_of_valid _
      (decide (e.cursors.segment + 1 < r.transaction.segments.length)) valid with
    ⟨err, why, refused⟩ | taken
  · rw [refused]
    exact .refused err why
  · rw [taken]
    exact .issued left

/-- The transaction of `r` runs. The commands noted since its launch, when `before` were noted, are
    its first ones, as many as the cursor says. -/
structure Issuing (before : List Word) (r : Request) (limits : Limits)
    (e : Engine (Noted Access.command? β)) : Prop where
  going : Going limits e
  owes : e.Owes r
  noted : e.host.block.notes = before ++ r.transaction.commands.take e.cursors.segment

variable {before : List Word} {e f : Engine (Noted Access.command? β)}

omit [RegisterBlock β] in
theorem Issuing.segmentCount (issuing : Issuing before r limits e) :
    e.segmentCount = r.transaction.segments.length := by
  obtain ⟨b, running, -⟩ := issuing.owes.running
  simp only [Engine.segmentCount, running]

omit [RegisterBlock β] in
theorem Issuing.of_frame (issuing : Issuing before r limits e) (going : Going limits f)
    (owes : f.Owes r) (segment : f.cursors.segment = e.cursors.segment)
    (silent : f.host.block.notes = e.host.block.notes) : Issuing before r limits f :=
  ⟨going, owes, by rw [silent, segment]; exact issuing.noted⟩

omit [RegisterBlock β] in
theorem Issuing.of_host (issuing : Issuing before r limits e)
    (host : Host (Noted Access.command? β)) (same : host.limits = e.host.limits)
    (silent : host.block.notes = e.host.block.notes) : Issuing before r limits { e with host } :=
  issuing.of_frame (issuing.going.of_host host same)
    ⟨issuing.owes.busy, issuing.owes.running, issuing.owes.callbacks⟩ rfl silent

theorem Issuing.serveQueues (issuing : Issuing before r limits e) (events : Events) :
    Issuing before r limits (e.serveQueues events) := by
  obtain ⟨ns, serves⟩ := serves_serveQueues issuing.owes events
  exact issuing.of_frame (issuing.going.serveQueues events) serves.owes
    (segment_serveQueues e events) (firm_serveQueues (Noted.steady_commands _).firm events rfl)

theorem Issuing.issueNext (issuing : Issuing before r limits e)
    (left : e.cursors.segment < r.transaction.segments.length) :
    Issuing before r limits e.issueNext.2 := by
  have going := issuing.going.issueNext.1
  have owes := (serves_issueNext issuing.owes).owes
  have attempt := attempt_issueNext issuing.going issuing.owes left
  generalize e.issueNext = step at going owes attempt
  cases attempt with
  | refused err why => exact issuing.of_frame going owes rfl rfl
  | issued inside =>
    refine ⟨going, owes, ?_⟩
    simp only [Noted.notes_writeCommand, r.transaction.take_commands_succ _ inside]
    rw [← List.append_assoc, ← issuing.noted]
    rfl

theorem Issuing.issueNext_none (issuing : Issuing before r limits e)
    (issued : r.transaction.segments.length ≤ e.cursors.segment) : e.issueNext = (.ok (), e) := by
  obtain ⟨b, running, -⟩ := issuing.owes.running
  have none : (e.running.bind fun t => t.segments[e.cursors.segment]?) = none := by
    rw [running]
    exact List.getElem?_eq_none issued
  unfold Engine.issueNext
  rw [none]

/-- From `e` to `f` the transaction of `r` goes on with its commands, or it ends and no more of them
    is written; as a success it ends with all of them. -/
inductive Advances (before : List Word) (r : Request) (limits : Limits)
    (e f : Engine (Noted Access.command? β)) : Prop
  | on (issuing : Issuing before r limits f)
  | done (free : f.state ≠ .busy) (silent : f.host.block.notes = e.host.block.notes)
      (all : e.cursors.segment = r.transaction.segments.length)
  | failed (free : f.state ≠ .busy) (silent : f.host.block.notes = e.host.block.notes)
      (told : ∃ faults b, e.told f = [.failure e.id r.callbacks faults b])

theorem Issuing.abort (issuing : Issuing before r limits e) (faults : Faults) :
    Advances before r limits e (e.abort faults) := by
  have busy := issuing.owes.busy
  refine .failed (e.free_abort faults busy)
    (firm_abort (Noted.steady_commands _).firm faults busy rfl) ⟨faults, e.lent, ?_⟩
  rw [e.told_abort faults busy, issuing.owes.callbacks]

theorem Issuing.onEvent (issuing : Issuing before r limits e) (events : Events) :
    Advances before r limits e (e.onEvent events) := by
  have busy := issuing.owes.busy
  obtain ⟨t, running, -, within⟩ := issuing.going.running
  have bound : e.cursors.segment ≤ r.transaction.segments.length := by
    rw [← issuing.segmentCount]
    simp only [Engine.segmentCount, running]
    exact within.segment
  rcases e.onEvent_cases events busy with ⟨served, -⟩ | ⟨served, -, left, -⟩ |
    ⟨-, -, err, refused, final⟩ | ⟨completed, -, issued⟩
  · rw [served]
    exact .on (issuing.serveQueues events)
  · rw [served]
    rw [issuing.segmentCount] at left
    exact .on ((issuing.issueNext left).serveQueues events)
  · rw [issuing.going.issueNext.2 err refused] at final
    cases final
  · rw [completed]
    rw [issuing.segmentCount] at issued
    exact .done (e.free_complete busy) (firm_complete (Noted.steady_commands _).firm busy rfl)
      (Nat.le_antisymm bound issued)

theorem Issuing.drive (issuing : Issuing before r limits e) (irq : Interrupt) :
    Advances before r limits e (e.drive irq) := by
  rw [e.drive_eq irq issuing.owes.busy]
  split
  · exact issuing.onEvent irq.events
  · exact issuing.abort irq.faults

theorem Issuing.handleIrq (issuing : Issuing before r limits e) :
    Advances before r limits e e.handleIrq := by
  have kept := e.host.limits_take
  have silent : (Interrupt.take e.host).2.block.notes = e.host.block.notes :=
    (Noted.steady_commands e.host.block.notes).firm.take rfl
  rcases taken : Interrupt.take e.host with ⟨irq, host⟩
  rw [taken] at kept silent
  simp only [Engine.handleIrq, taken]
  cases (issuing.of_host host kept silent).drive irq with
  | on issuing => exact .on issuing
  | done free same all => exact .done free (same.trans silent) all
  | failed free same told => exact .failed free (same.trans silent) told

theorem Issuing.bind (issuing : Issuing before r limits e) (settings : Settings) (slave : Slave) :
    Issuing before r limits (e.bind settings slave) := by
  have silent : (e.bind settings slave).host.block.notes = e.host.block.notes :=
    firm_bind (Noted.steady_commands _).firm settings slave rfl
  have carries := (Recorded.bind (.inr issuing.going) settings slave).1
  have owes : (e.bind settings slave).Owes r :=
    (settles_bind settings (r := some r) issuing.owes slave).owing
  have segment : (e.bind settings slave).cursors.segment = e.cursors.segment := by
    rcases e.state_bind settings slave with ⟨host, bound⟩ | ⟨host, bound⟩ <;> rw [bound]
  rcases carries.recorded with resting | going
  · exact absurd owes.busy resting.free
  · exact issuing.of_frame going owes segment silent

theorem Issuing.respond (issuing : Issuing before r limits e) (env : μ → β → β)
    (settings : Settings) (st : Stimulus μ) :
    Advances before r limits e (e.respond (Noted.lift env) settings st) := by
  have busy := issuing.owes.busy
  cases st with
  | bind slave => exact .on (issuing.bind settings slave)
  | reset => exact .on (issuing.of_host _ rfl rfl)
  | take =>
    exact .on (issuing.of_frame ⟨issuing.going.host, issuing.going.state, issuing.going.running⟩
      ⟨busy, issuing.owes.running, issuing.owes.callbacks⟩ rfl rfl)
  | submit q =>
    have refused : e.submit settings q = (.error ⟨.busy, q.transaction.buffers⟩, e) := by
      simp only [Engine.submit, checkLaunch, busy, Lifecycle.isBusy, if_true]
    simp only [Engine.respond, refused]
    exact .on issuing
  | interrupt => exact issuing.handleIrq
  | event events => exact issuing.onEvent events
  | fault faults =>
    simp only [Engine.respond, e.onFault_of_busy faults busy]
    exact issuing.abort faults
  | move m => exact .on (issuing.of_host _ rfl rfl)

theorem Issuing.of_launch {settings : Settings} (sound : Sound settings limits)
    (r : Request) (same : e.host.limits = limits) (free : e.state.canLaunch = true)
    (valid : r.transaction.validate = .ok ()) :
    ∃ f, e.launch settings r.transaction r.callbacks = (.ok (), f) ∧
      Issuing e.host.block.notes r limits f := by
  obtain ⟨tx, rx⟩ := sound.watermarks
  rw [← same] at tx rx
  obtain ⟨host, prepared, kept⟩ := e.host.prepare_ok settings tx rx
  have silent : host.block.notes = e.host.block.notes := by
    have still := (Noted.steady_commands e.host.block.notes).firm.prepare settings rfl
    rw [prepared] at still
    exact still
  have going :=
    Going.of_start { e with host } r.transaction r.callbacks (kept.trans same) free valid
  have noted : ({ e with host }.start r.transaction r.callbacks).host.block.notes =
      e.host.block.notes :=
    firm_start (Noted.steady_commands _).firm r.transaction r.callbacks silent
  have segment : ({ e with host }.start r.transaction r.callbacks).cursors.segment = 0 := rfl
  obtain ⟨fed, cursors, begun⟩ := start_frame { e with host } r.transaction r.callbacks free
  have owes : ({ e with host }.start r.transaction r.callbacks).Owes r := by
    rw [begun]
    exact ⟨rfl, ⟨_, rfl, .refl _⟩, rfl⟩
  obtain ⟨g, started⟩ : ∃ g, { e with host }.start r.transaction r.callbacks = g := ⟨_, rfl⟩
  rw [started] at going noted segment owes
  have issuing : Issuing e.host.block.notes r limits g :=
    ⟨going, owes, by rw [noted, segment, List.take_zero, List.append_nil]⟩
  obtain ⟨some, -, -⟩ := r.transaction.validate_eq_ok valid
  have next := issuing.issueNext (by rw [segment]; exact List.length_pos_iff.mpr some)
  have transient := going.issueNext.2
  simp only [launch, prepared, started]
  rcases step : g.issueNext with ⟨result, f⟩
  rw [step] at next transient
  cases result with
  | ok _ => exact ⟨f, rfl, next⟩
  | error err =>
    have later := transient err rfl
    simp only [later, if_true]
    exact ⟨f, rfl, next⟩

theorem Issuing.of_submit {settings : Settings} (sound : Sound settings limits) (r : Request)
    (same : e.host.limits = limits) (accepted : (e.submit settings r).1.isOk = true) :
    Issuing e.host.block.notes r limits (e.submit settings r).2 := by
  unfold Engine.submit at accepted ⊢
  cases checked : e.checkLaunch r.transaction with
  | error err =>
    rw [checked] at accepted
    cases accepted
  | ok _ =>
    obtain ⟨free, valid⟩ := e.checkLaunch_eq_ok r.transaction checked
    have frame := e.setSlave_frame r.handle
    have silent := steady_setSlave (Noted.steady_commands e.host.block.notes) r.handle rfl
    rw [checked] at accepted
    rcases step : e.setSlave r.handle with ⟨result, f⟩
    rw [step] at frame silent accepted
    cases result with
    | error err => cases accepted
    | ok _ =>
      have kept : f.host.limits = limits := by
        have still := steady_setSlave (Host.steady_limits limits) r.handle same
        rw [step] at still
        exact still
      have launchable : f.state.canLaunch = true := (congrArg Engine.state frame) ▸ free
      obtain ⟨g, launched, issuing⟩ := Issuing.of_launch sound r kept launchable valid
      rw [silent] at issuing
      simp only [launched]
      exact issuing

end Engine

end SerialBus
