import SerialBus.Proofs.Run.Action

namespace SerialBus

namespace Buffers

/-- The same loan: the transmit buffer as it was, and the receive buffer whatever its words. -/
structure Same (a b : Buffers) : Prop where
  tx : b.tx = a.tx
  txLen : b.txLen = a.txLen
  rxLen : b.rxLen = a.rxLen
  rx : (b.rx.map fun x => (x.address, x.size)) = a.rx.map fun x => (x.address, x.size)

theorem Same.refl (a : Buffers) : Same a a := ⟨rfl, rfl, rfl, rfl⟩

theorem Same.trans {a b c : Buffers} (first : Same a b) (second : Same b c) : Same a c :=
  ⟨second.tx.trans first.tx, second.txLen.trans first.txLen, second.rxLen.trans first.rxLen,
    second.rx.trans first.rx⟩

end Buffers

/-- An entry in the journal of a block: a launch, or what a client is told. -/
inductive Report
  | launched (r : Request)
  | called (n : Notice)
  | parked (c : Completion)

namespace Report

def launch? : Report → Option Request
  | launched r => some r
  | called _ | parked _ => none

/-- A success goes to the routine for that, and is parked where there is none. -/
def success (id : PeripheralId) (callbacks : Callbacks) (b : Buffers) : Report :=
  match callbacks.onDone with
  | some routine => called (.done routine id b)
  | none => parked ⟨.ok (), b⟩

def failure (id : PeripheralId) (callbacks : Callbacks) (faults : Faults) (b : Buffers) : Report :=
  match callbacks.onError with
  | some routine => called (.failed routine id faults b)
  | none => parked ⟨.error faults, b⟩

theorem success_of_none {id : PeripheralId} {callbacks : Callbacks} {b : Buffers}
    (unnamed : callbacks.onDone = none) : success id callbacks b = parked ⟨.ok (), b⟩ := by
  rw [success, unnamed]

theorem failure_of_none {id : PeripheralId} {callbacks : Callbacks} {faults : Faults} {b : Buffers}
    (unnamed : callbacks.onError = none) :
    failure id callbacks faults b = parked ⟨.error faults, b⟩ := by
  rw [failure, unnamed]

theorem success_ne_failure (id other : PeripheralId) (callbacks named : Callbacks) (b d : Buffers)
    (faults : Faults) : success id callbacks b ≠ failure other named faults d := by
  unfold success failure
  cases callbacks.onDone <;> cases named.onError <;> simp

theorem success_inj {id other : PeripheralId} {callbacks : Callbacks} {b d : Buffers}
    (same : success id callbacks b = success other callbacks d) : b = d := by
  unfold success at same
  cases named : callbacks.onDone with
  | some routine =>
    rw [named] at same
    simp only [called.injEq, Notice.done.injEq] at same
    exact same.2.2
  | none =>
    rw [named] at same
    simp only [parked.injEq, Completion.mk.injEq] at same
    exact same.2

end Report

namespace Engine

variable {β : Type}

def lent (e : Engine β) : Buffers :=
  match e.running with
  | some t => t.buffers
  | none => {}

def retired (e : Engine β) (host : Host β) : Engine β :=
  { e with host, state := .init, running := none, cursors := {}, callbacks := {} }

def tell (e : Engine β) : Report → Engine β
  | .launched _ => e
  | .called n => e.notify n
  | .parked c => e.park c

/-- What a client was told between two states of an engine. -/
def told (e f : Engine β) : List Report :=
  (f.notices.drop e.notices.length).map .called ++
    (f.parkings.drop e.parkings.length).map .parked

theorem told_of_notices {e f : Engine β} (ns : List Notice) (notices : f.notices = e.notices ++ ns)
    (parkings : f.parkings = e.parkings) : e.told f = ns.map .called := by
  simp [told, notices, parkings]

theorem told_of_parking {e f : Engine β} (c : Completion) (notices : f.notices = e.notices)
    (parkings : f.parkings = e.parkings ++ [c]) : e.told f = [.parked c] := by
  simp [told, notices, parkings]

theorem told_tell_success (e : Engine β) (host : Host β) (id : PeripheralId)
    (callbacks : Callbacks) (b : Buffers) :
    e.told ((e.retired host).tell (.success id callbacks b)) = [.success id callbacks b] := by
  unfold Report.success
  cases callbacks.onDone with
  | some routine => exact told_of_notices [.done routine id b] rfl rfl
  | none => exact told_of_parking ⟨.ok (), b⟩ rfl rfl

theorem told_tell_failure (e : Engine β) (host : Host β) (id : PeripheralId)
    (callbacks : Callbacks) (faults : Faults) (b : Buffers) :
    e.told ((e.retired host).tell (.failure id callbacks faults b)) =
      [.failure id callbacks faults b] := by
  unfold Report.failure
  cases callbacks.onError with
  | some routine => exact told_of_notices [.failed routine id faults b] rfl rfl
  | none => exact told_of_parking ⟨.error faults, b⟩ rfl rfl

theorem tell_same (e : Engine β) (report : Report) :
    (e.tell report).id = e.id ∧ (e.tell report).state = e.state ∧
      (e.tell report).host = e.host := by
  cases report <;> exact ⟨rfl, rfl, rfl⟩

variable [RegisterBlock β]

theorem issueNext_frame (e : Engine β) :
    e.issueNext.2 =
      { e with host := e.issueNext.2.host, cursors := e.issueNext.2.cursors } := by
  unfold issueNext
  split
  · rfl
  · simp only
    split <;> rfl

theorem fillTx_frame (e : Engine β) :
    e.fillTx = { e with host := e.fillTx.host, cursors := e.fillTx.cursors } := rfl

theorem emptyRx_frame (e : Engine β) :
    e.emptyRx =
      { e with
        host := e.emptyRx.host, running := e.emptyRx.running, cursors := e.emptyRx.cursors } := by
  unfold emptyRx
  split
  · rfl
  · split <;> rfl

theorem length_readWords (h : Host β) (n : Nat) : (h.readWords n).1.length ≤ n := by
  induction n generalizing h with
  | zero => exact Nat.le_refl 0
  | succ n ih =>
    unfold Host.readWords
    split
    · rename_i w rest read
      exact Nat.succ_le_succ (ih rest)
    · exact Nat.zero_le _

omit [RegisterBlock β] in
theorem notifyTxWatermark_frame (e : Engine β) :
    e.notifyTxWatermark = { e with notices := e.notifyTxWatermark.notices } := by
  unfold notifyTxWatermark
  split <;> rfl

omit [RegisterBlock β] in
theorem notifyRxWatermark_frame (e : Engine β) :
    e.notifyRxWatermark = { e with notices := e.notifyRxWatermark.notices } := by
  unfold notifyRxWatermark
  split <;> rfl

theorem size_store_readWords (h : Host β) (b : Buffer) (len start : Nat) :
    (b.store start (h.readWords (min len b.size - start)).1).size = b.size := by
  have count := length_readWords h (min len b.size - start)
  by_cases inside : start ≤ min len b.size
  · exact b.size_store start _ (by omega)
  · have none : min len b.size - start = 0 := by omega
    rw [none]
    simp [Host.readWords, Buffer.store, Buffer.size]

theorem emptyRx_running (e : Engine β) (t : Transaction) (running : e.running = some t) :
    ∃ b, e.emptyRx.running = some { t with buffers := b } ∧ t.buffers.Same b := by
  simp only [emptyRx, running]
  cases lent : t.buffers.rx with
  | none => exact ⟨t.buffers, running, .refl _⟩
  | some rx =>
    refine ⟨_, rfl, rfl, rfl, rfl, ?_⟩
    simp only [lent, Option.map_some, size_store_readWords]
    rfl

def quietHost (e : Engine β) : Host β := e.host.disableEvents.setEventIntr false

theorem abort_eq (e : Engine β) (faults : Faults) (busy : e.state = .busy) :
    e.abort faults =
      (e.retired e.quietHost).tell (.failure e.id e.callbacks faults e.lent) := by
  unfold Report.failure
  cases routine : e.callbacks.onError <;> cases running : e.running <;>
    simp [abort, quiesce, reach, release, routine, running, notify, park, tell, retired, busy,
      Lifecycle.next, quietHost, lent]

def drained (e : Engine β) : Engine β := e.quiesce.emptyRx

theorem complete_eq (e : Engine β) (busy : e.state = .busy) :
    e.complete =
      (e.retired e.drained.host).tell (.success e.id e.callbacks e.drained.lent) := by
  have frame : e.drained = { e with
      host := e.drained.host, running := e.drained.running, cursors := e.drained.cursors } :=
    e.quiesce.emptyRx_frame
  unfold complete Report.success
  rw [← drained, frame]
  cases routine : e.callbacks.onDone <;> cases running : e.drained.running <;>
    simp [reach, release, routine, notify, park, tell, retired, busy, Lifecycle.next, lent]

omit [RegisterBlock β] in
theorem checkLaunch_eq_ok (e : Engine β) (t : Transaction) (checked : e.checkLaunch t = .ok ()) :
    e.state.canLaunch = true ∧ t.validate = .ok () := by
  unfold checkLaunch at checked
  split at checked
  · cases checked
  · split at checked
    · cases checked
    · rename_i free
      exact ⟨by simpa using free, checked⟩

theorem setSlave_frame (e : Engine β) (h : Handle) :
    (e.setSlave h).2 = { e with host := (e.setSlave h).2.host } := by
  unfold setSlave
  simp only
  split
  · rfl
  · split <;> rfl

def launchedWith (e : Engine β) (t : Transaction) (callbacks : Callbacks) (host : Host β)
    (cursors : Cursors) : Engine β :=
  { e with host, state := .busy, running := some t, callbacks, cursors }

theorem start_frame (e : Engine β) (t : Transaction) (callbacks : Callbacks)
    (free : e.state.canLaunch = true) :
    ∃ host cursors, e.start t callbacks = e.launchedWith t callbacks host cursors := by
  have busy := e.state.next_launched free
  refine ⟨(e.start t callbacks).host, (e.start t callbacks).cursors, ?_⟩
  simp only [start, launchedWith, fillTx, reach, busy]

theorem launch_cases (e : Engine β) (settings : Settings) (t : Transaction) (callbacks : Callbacks)
    (free : e.state.canLaunch = true) :
    (∃ host cursors,
        e.launch settings t callbacks = (.ok (), e.launchedWith t callbacks host cursors)) ∨
      ∃ failure host, e.launch settings t callbacks = (.error failure, { e with host }) ∨
        e.launch settings t callbacks = (.error failure, e.retired host) := by
  unfold launch
  rcases prepare e.host settings with ⟨result, host⟩
  cases result with
  | error err => exact .inr ⟨_, host, .inl rfl⟩
  | ok _ =>
    obtain ⟨fed, cursors, started⟩ := start_frame { e with host } t callbacks free
    have issued := issueNext_frame (e.launchedWith t callbacks fed cursors)
    have same : { e with host }.launchedWith t callbacks fed cursors =
        e.launchedWith t callbacks fed cursors := rfl
    simp only [started, same]
    rcases step : (e.launchedWith t callbacks fed cursors).issueNext with ⟨result, f⟩
    rw [step] at issued
    simp only at issued ⊢
    cases result with
    | ok _ => exact .inl ⟨f.host, f.cursors, by rw [issued]; rfl⟩
    | error err =>
      by_cases transient : err.isTransient = true
      · simp only [transient, if_true]
        exact .inl ⟨f.host, f.cursors, by rw [issued]; rfl⟩
      · simp only [transient, Bool.false_eq_true, if_false]
        refine .inr ⟨⟨.host err, t.buffers⟩, f.quiesce.host, .inr ?_⟩
        rw [issued]
        rfl

theorem submit_cases (e : Engine β) (settings : Settings) (r : Request) :
    (e.state.canLaunch = true ∧ ∃ host cursors, e.submit settings r =
        (.ok (), e.launchedWith r.transaction r.callbacks host cursors)) ∨
      (∃ failure, e.submit settings r = (.error failure, e)) ∨
      e.state.canLaunch = true ∧ ∃ failure host,
        e.submit settings r = (.error failure, { e with host }) ∨
        e.submit settings r = (.error failure, e.retired host) := by
  unfold submit
  cases checked : e.checkLaunch r.transaction with
  | error err => exact .inr (.inl ⟨_, rfl⟩)
  | ok _ =>
    obtain ⟨free, -⟩ := e.checkLaunch_eq_ok r.transaction checked
    have selected := e.setSlave_frame r.handle
    rcases step : e.setSlave r.handle with ⟨result, f⟩
    rw [step] at selected
    simp only at selected ⊢
    cases result with
    | error err => exact .inr (.inr ⟨free, _, f.host, .inl (by rw [← selected])⟩)
    | ok _ =>
      rw [selected]
      rcases launch_cases { e with host := f.host } settings r.transaction r.callbacks free with
        ⟨host, cursors, launched⟩ | ⟨failure, host, refused⟩
      · exact .inl ⟨free, host, cursors, launched⟩
      · exact .inr (.inr ⟨free, failure, host, refused⟩)

-- The cause of an interrupt drives a block once: a fault ends its transaction, and events mean
-- nothing to a block without one.

theorem onEvent_of_free (e : Engine β) (events : Events) (free : e.state ≠ .busy) :
    e.onEvent events = e := by
  have idle := e.state.isBusy_eq_false_iff.mpr free
  simp only [onEvent, idle, if_true]

theorem drive_keeps {P : Engine β → Prop} (faulted : ∀ e faults, P e → P (e.onFault faults))
    (served : ∀ e events, P e → P (e.onEvent events)) (e : Engine β) (irq : Interrupt)
    (start : P e) : P (e.drive irq) := by
  have first : P (if irq.faults.isEmpty then e else e.onFault irq.faults) := by
    split
    · exact start
    · exact faulted e irq.faults start
  unfold drive
  simp only
  split
  · exact first
  · exact served _ irq.events first

theorem onEvent_of_isEmpty (e : Engine β) (events : Events) (none : events.isEmpty = true) :
    e.onEvent events = e := by
  have empty : events = .empty := by
    cases events
    exact congrArg FlagSet.mk (eq_of_beq none)
  subst empty
  cases state : e.state.isBusy <;> simp only [onEvent, state] <;> rfl

theorem onFault_of_free (e : Engine β) (faults : Faults) (free : e.state ≠ .busy) :
    e.onFault faults = e := by
  have idle := e.state.isBusy_eq_false_iff.mpr free
  simp only [onFault, idle, Bool.false_eq_true, if_false]

theorem onFault_of_busy (e : Engine β) (faults : Faults) (busy : e.state = .busy) :
    e.onFault faults = e.abort faults := by
  simp only [onFault, busy, Lifecycle.isBusy, if_true]

theorem onEvent_cases (e : Engine β) (events : Events) (busy : e.state = .busy) :
    (e.onEvent events = e.serveQueues events ∧
        (events.contains Events.ready = false ∨
          e.segmentCount ≤ e.cursors.segment ∧ events.contains Events.idle = false)) ∨
      (e.onEvent events = e.issueNext.2.serveQueues events ∧
        events.contains Events.ready = true ∧ e.cursors.segment < e.segmentCount ∧
        (e.issueNext.1 = .ok () ∨ ∃ err, e.issueNext.1 = .error err ∧ err.isTransient = true)) ∨
      (e.onEvent events = e.issueNext.2.abort Faults.cmdInvalid ∧
        e.cursors.segment < e.segmentCount ∧
        ∃ err, e.issueNext.1 = .error err ∧ err.isTransient = false) ∨
      (e.onEvent events = e.complete ∧ events.contains Events.idle = true ∧
        e.segmentCount ≤ e.cursors.segment) := by
  unfold onEvent
  rw [busy]
  cases ready : events.contains Events.ready with
  | false => exact .inl ⟨rfl, .inl rfl⟩
  | true =>
    by_cases left : e.cursors.segment < e.segmentCount
    · simp only [Lifecycle.isBusy, left, if_true, Bool.true_eq_false, if_false]
      rcases step : e.issueNext with ⟨result, f⟩
      cases result with
      | ok _ => exact .inr (.inl ⟨rfl, trivial, trivial, .inl rfl⟩)
      | error err =>
        cases transient : err.isTransient with
        | true =>
          refine .inr (.inl ⟨?_, trivial, trivial, .inr ⟨err, rfl, transient⟩⟩)
          simp only [transient, if_true]
        | false =>
          refine .inr (.inr (.inl ⟨?_, trivial, err, rfl, transient⟩))
          simp only [transient, Bool.false_eq_true, if_false]
    · have issued := Nat.not_lt.mp left
      simp only [Lifecycle.isBusy, left, Bool.true_eq_false, if_false]
      cases idle : events.contains Events.idle with
      | false => exact .inl ⟨rfl, .inr ⟨issued, rfl⟩⟩
      | true => exact .inr (.inr (.inr ⟨rfl, rfl, issued⟩))

theorem state_abort (e : Engine β) (faults : Faults) (busy : e.state = .busy) :
    (e.abort faults).state = .init := by
  rw [e.abort_eq faults busy, (tell_same _ _).2.1]
  rfl

theorem state_complete (e : Engine β) (busy : e.state = .busy) : e.complete.state = .init := by
  rw [e.complete_eq busy, (tell_same _ _).2.1]
  rfl

theorem free_abort (e : Engine β) (faults : Faults) (busy : e.state = .busy) :
    (e.abort faults).state ≠ .busy := by
  rw [e.state_abort faults busy]
  exact Lifecycle.noConfusion

theorem free_complete (e : Engine β) (busy : e.state = .busy) : e.complete.state ≠ .busy := by
  rw [e.state_complete busy]
  exact Lifecycle.noConfusion

theorem told_abort (e : Engine β) (faults : Faults) (busy : e.state = .busy) :
    e.told (e.abort faults) = [.failure e.id e.callbacks faults e.lent] := by
  rw [e.abort_eq faults busy, told_tell_failure]

theorem told_complete (e : Engine β) (busy : e.state = .busy) :
    e.told e.complete = [.success e.id e.callbacks e.drained.lent] := by
  rw [e.complete_eq busy, told_tell_success]

theorem drive_eq (e : Engine β) (irq : Interrupt) (busy : e.state = .busy) :
    e.drive irq =
      if irq.faults.isEmpty then e.onEvent irq.events else e.abort irq.faults := by
  unfold drive
  by_cases faults : irq.faults.isEmpty = true
  · simp only [faults, if_true]
    split
    · rename_i none
      exact (e.onEvent_of_isEmpty irq.events none).symm
    · rfl
  · -- the transaction is over once the faults were served, so the events find none
    have stopped := e.free_abort irq.faults busy
    simp only [faults, if_false, Bool.false_eq_true, e.onFault_of_busy _ busy,
      onEvent_of_free _ _ stopped, ite_self]

theorem drive_of_free (e : Engine β) (irq : Interrupt) (free : e.state ≠ .busy) :
    e.drive irq = e := by
  simp only [drive, e.onFault_of_free _ free, e.onEvent_of_free _ free, ite_self]

end Engine

end SerialBus
