import SerialBus.Proofs.Engine.Outcome

namespace SerialBus

namespace Report

/-- A call for a transaction that goes on. -/
inductive Interim (id : PeripheralId) (r : Request) : Report → Prop
  | txWatermark (routine : Routine) (b : Buffers) (cursors : Cursors)
      (named : r.callbacks.onTxWatermark = some routine) (own : r.transaction.buffers.Same b) :
      Interim id r (.called (.txWatermark routine id b cursors))
  | rxWatermark (routine : Routine) (b : Buffers) (cursors : Cursors)
      (named : r.callbacks.onRxWatermark = some routine) (own : r.transaction.buffers.Same b) :
      Interim id r (.called (.rxWatermark routine id b cursors))

inductive Final (id : PeripheralId) (r : Request) : Report → Prop
  | success (b : Buffers) (own : r.transaction.buffers.Same b) :
      Final id r (.success id r.callbacks b)
  | failure (faults : Faults) (b : Buffers) (own : r.transaction.buffers.Same b) :
      Final id r (.failure id r.callbacks faults b)

def isLaunch : Report → Bool
  | launched _ => true
  | _ => false

def isFinal : Report → Bool
  | called (.done ..) | called (.failed ..) | parked _ => true
  | _ => false

theorem Interim.isFinal {id : PeripheralId} {r : Request} {report : Report}
    (interim : report.Interim id r) : report.isLaunch = false ∧ report.isFinal = false := by
  cases interim <;> exact ⟨rfl, rfl⟩

theorem Final.isFinal {id : PeripheralId} {r : Request} {report : Report}
    (final : report.Final id r) : report.isLaunch = false ∧ report.isFinal = true := by
  cases final with
  | success b own =>
    unfold Report.success
    cases r.callbacks.onDone <;> exact ⟨rfl, rfl⟩
  | failure faults b own =>
    unfold Report.failure
    cases r.callbacks.onError <;> exact ⟨rfl, rfl⟩

end Report

/-- A journal in which every launch is answered once: between a launch and the next there are calls
    for the launched transaction and then its end. The transactions before and after the journal are
    those that wait for their end. -/
inductive Answered (id : PeripheralId) : Option Request → List Report → Option Request → Prop
  | nil (r : Option Request) : Answered id r [] r
  | launched (r : Request) {rest : List Report} {last : Option Request}
      (next : Answered id (some r) rest last) : Answered id none (.launched r :: rest) last
  | interim (r : Request) {report : Report} {rest : List Report} {last : Option Request}
      (called : report.Interim id r) (next : Answered id (some r) rest last) :
      Answered id (some r) (report :: rest) last
  | final (r : Request) {report : Report} {rest : List Report} {last : Option Request}
      (ended : report.Final id r) (next : Answered id none rest last) :
      Answered id (some r) (report :: rest) last

namespace Answered

variable {id : PeripheralId} {first middle last : Option Request}

theorem append {rs ss : List Report} (before : Answered id first rs middle)
    (after : Answered id middle ss last) : Answered id first (rs ++ ss) last := by
  induction before with
  | nil r => exact after
  | launched r next ih => exact .launched r (ih after)
  | interim r called next ih => exact .interim r called (ih after)
  | final r ended next ih => exact .final r ended (ih after)

theorem interims (r : Request) (ns : List Notice)
    (called : ∀ n ∈ ns, (Report.called n).Interim id r) :
    Answered id (some r) (ns.map .called) (some r) := by
  induction ns with
  | nil => exact .nil _
  | cons n rest ih =>
    exact .interim r (called n List.mem_cons_self) (ih fun m member =>
      called m (List.mem_cons_of_mem n member))

/-- Launches and ends pair up, but for a transaction that waits before or after the journal. -/
theorem balance {rs : List Report} (answered : Answered id first rs last) :
    rs.countP Report.isLaunch + (if first.isSome then 1 else 0) =
      rs.countP Report.isFinal + if last.isSome then 1 else 0 := by
  induction answered with
  | nil r => simp
  | launched r next ih =>
    simp only [List.countP_cons, Report.isLaunch, Report.isFinal, Option.isSome_some,
      Option.isSome_none, if_true, Bool.false_eq_true, if_false] at ih ⊢
    omega
  | interim r called next ih =>
    obtain ⟨launch, final⟩ := called.isFinal
    simp only [List.countP_cons, launch, final, Bool.false_eq_true, if_false] at ih ⊢
    omega
  | final r ended next ih =>
    obtain ⟨launch, final⟩ := ended.isFinal
    simp only [List.countP_cons, launch, final, Option.isSome_some, Option.isSome_none, if_true,
      Bool.false_eq_true, if_false] at ih ⊢
    omega

end Answered

namespace Engine

variable {β μ : Type}

theorem isLaunch_of_told {e f : Engine β} {report : Report} (told : report ∈ e.told f) :
    report.isLaunch = false := by
  rw [Engine.told, List.mem_append, List.mem_map, List.mem_map] at told
  rcases told with ⟨n, -, rfl⟩ | ⟨done, -, rfl⟩ <;> rfl

/-- The request of which the engine runs the transaction. -/
structure Owes (r : Request) (e : Engine β) : Prop where
  busy : e.state = .busy
  running : ∃ b, e.running = some { r.transaction with buffers := b } ∧
    r.transaction.buffers.Same b
  callbacks : e.callbacks = r.callbacks

def Owing (e : Engine β) : Option Request → Prop
  | none => e.state ≠ .busy
  | some r => e.Owes r

/-- From `e` to `f` the client was told the reports that turn one waiting request into another. -/
structure Settles (id : PeripheralId) (r : Option Request) (e f : Engine β) (s : Option Request) :
    Prop where
  block : f.id = id
  reports : Answered id r (e.told f) s
  owing : f.Owing s

structure Serves (id : PeripheralId) (r : Request) (ns : List Notice) (e f : Engine β) : Prop where
  block : f.id = id
  notices : f.notices = e.notices ++ ns
  parkings : f.parkings = e.parkings
  interims : ∀ n ∈ ns, (Report.called n).Interim id r
  owes : f.Owes r

theorem Serves.trans {id : PeripheralId} {r : Request} {ns ms : List Notice} {e f g : Engine β}
    (first : Serves id r ns e f) (second : Serves id r ms f g) : Serves id r (ns ++ ms) e g where
  block := second.block
  notices := by rw [second.notices, first.notices, List.append_assoc]
  parkings := second.parkings.trans first.parkings
  interims n member := (List.mem_append.mp member).elim (first.interims n) (second.interims n)
  owes := second.owes

theorem Serves.settles {id : PeripheralId} {r : Request} {ns : List Notice} {e f : Engine β}
    (serves : Serves id r ns e f) : Settles id (some r) e f (some r) where
  block := serves.block
  reports := by
    rw [told_of_notices ns serves.notices serves.parkings]
    exact .interims r ns serves.interims
  owing := serves.owes

theorem Settles.silent {e f : Engine β} {r : Option Request} (block : f.id = e.id)
    (notices : f.notices = e.notices) (parkings : f.parkings = e.parkings) (owing : f.Owing r) :
    Settles e.id r e f r where
  block := block
  reports := by
    rw [told_of_notices [] (by simp [notices]) parkings]
    exact .nil r
  owing := owing

variable [RegisterBlock β]

theorem settles_abort {e : Engine β} {r : Request} (owes : e.Owes r) (faults : Faults) :
    Settles e.id (some r) e (e.abort faults) none := by
  obtain ⟨b, running, own⟩ := owes.running
  have lent : e.lent = b := by simp only [lent, running]
  refine ⟨?_, ?_, ?_⟩
  · rw [e.abort_eq faults owes.busy, (tell_same _ _).1]
    rfl
  · rw [e.told_abort faults owes.busy, owes.callbacks, lent]
    exact .final r (.failure faults b own) (.nil none)
  · exact e.free_abort faults owes.busy

theorem settles_complete {e : Engine β} {r : Request} (owes : e.Owes r) :
    Settles e.id (some r) e e.complete none := by
  obtain ⟨b, running, own⟩ := owes.running
  obtain ⟨d, drained, kept⟩ := e.quiesce.emptyRx_running _ running
  have lent : e.drained.lent = d := by simp only [lent, Engine.drained, drained]
  refine ⟨?_, ?_, ?_⟩
  · rw [e.complete_eq owes.busy, (tell_same _ _).1]
    rfl
  · rw [e.told_complete owes.busy, owes.callbacks, lent]
    exact .final r (.success d (own.trans kept)) (.nil none)
  · exact e.free_complete owes.busy

theorem serves_fillTx {e : Engine β} {r : Request} (owes : e.Owes r) :
    Serves e.id r [] e e.fillTx := by
  rw [e.fillTx_frame]
  exact ⟨rfl, (List.append_nil _).symm, rfl, by simp, ⟨owes.busy, owes.running, owes.callbacks⟩⟩

theorem serves_emptyRx {e : Engine β} {r : Request} (owes : e.Owes r) :
    Serves e.id r [] e e.emptyRx := by
  obtain ⟨b, running, own⟩ := owes.running
  obtain ⟨d, drained, kept⟩ := e.emptyRx_running _ running
  rw [e.emptyRx_frame, drained]
  exact ⟨rfl, (List.append_nil _).symm, rfl, by simp,
    ⟨owes.busy, ⟨d, rfl, own.trans kept⟩, owes.callbacks⟩⟩

omit [RegisterBlock β] in
theorem serves_notifyTxWatermark {e : Engine β} {r : Request} (owes : e.Owes r) :
    ∃ ns, Serves e.id r ns e e.notifyTxWatermark := by
  obtain ⟨b, running, own⟩ := owes.running
  unfold notifyTxWatermark
  rw [owes.callbacks, running]
  cases named : r.callbacks.onTxWatermark with
  | none => exact ⟨[], rfl, (List.append_nil _).symm, rfl, by simp, owes⟩
  | some routine =>
    refine ⟨[.txWatermark routine e.id b e.cursors], rfl, rfl, rfl, ?_,
      ⟨owes.busy, ⟨b, running, own⟩, owes.callbacks⟩⟩
    intro n member
    rw [List.mem_singleton.mp member]
    exact .txWatermark routine b e.cursors named own

omit [RegisterBlock β] in
theorem serves_notifyRxWatermark {e : Engine β} {r : Request} (owes : e.Owes r) :
    ∃ ns, Serves e.id r ns e e.notifyRxWatermark := by
  obtain ⟨b, running, own⟩ := owes.running
  unfold notifyRxWatermark
  rw [owes.callbacks, running]
  cases named : r.callbacks.onRxWatermark with
  | none => exact ⟨[], rfl, (List.append_nil _).symm, rfl, by simp, owes⟩
  | some routine =>
    refine ⟨[.rxWatermark routine e.id b e.cursors], rfl, rfl, rfl, ?_,
      ⟨owes.busy, ⟨b, running, own⟩, owes.callbacks⟩⟩
    intro n member
    rw [List.mem_singleton.mp member]
    exact .rxWatermark routine b e.cursors named own

theorem serves_serveQueues {e : Engine β} {r : Request} (owes : e.Owes r) (events : Events) :
    ∃ ns, Serves e.id r ns e (e.serveQueues events) := by
  have still (f : Engine β) (owes : f.Owes r) : Serves f.id r [] f f :=
    ⟨rfl, (List.append_nil _).symm, rfl, by simp, owes⟩
  have fed : ∃ f ns, Serves e.id r ns e f ∧
      f = if events.contains Events.txWatermark then e.fillTx.notifyTxWatermark else e := by
    by_cases tx : events.contains Events.txWatermark = true
    · have filled := serves_fillTx owes
      obtain ⟨ns, notified⟩ := serves_notifyTxWatermark filled.owes
      rw [filled.block] at notified
      exact ⟨_, _, filled.trans notified, by simp only [tx, if_true]⟩
    · exact ⟨e, [], still e owes, by simp only [tx, Bool.false_eq_true, if_false]⟩
  obtain ⟨f, ns, served, eq⟩ := fed
  unfold serveQueues
  simp only [← eq]
  by_cases rx : events.contains Events.rxWatermark = true
  · have drained := serves_emptyRx served.owes
    obtain ⟨ms, notified⟩ := serves_notifyRxWatermark drained.owes
    rw [drained.block] at notified
    rw [served.block] at drained notified
    simp only [rx, if_true]
    exact ⟨_, served.trans (drained.trans notified)⟩
  · simp only [rx, Bool.false_eq_true, if_false]
    exact ⟨ns, served⟩

theorem serves_issueNext {e : Engine β} {r : Request} (owes : e.Owes r) :
    Serves e.id r [] e e.issueNext.2 := by
  rw [e.issueNext_frame]
  exact ⟨rfl, (List.append_nil _).symm, rfl, by simp, ⟨owes.busy, owes.running, owes.callbacks⟩⟩

theorem settles_onEvent {e : Engine β} {r : Request} (owes : e.Owes r) (events : Events) :
    ∃ s, Settles e.id (some r) e (e.onEvent events) s := by
  have issued := serves_issueNext owes
  rcases e.onEvent_cases events owes.busy with ⟨served, -⟩ | ⟨served, -⟩ | ⟨aborted, -⟩ |
    ⟨completed, -⟩
  · rw [served]
    obtain ⟨ns, serves⟩ := serves_serveQueues owes events
    exact ⟨_, serves.settles⟩
  · rw [served]
    obtain ⟨ns, serves⟩ := serves_serveQueues issued.owes events
    rw [issued.block] at serves
    exact ⟨_, (issued.trans serves).settles⟩
  · rw [aborted]
    have settled := settles_abort issued.owes Faults.cmdInvalid
    have silent (f : Engine β) : e.told f = e.issueNext.2.told f := by
      simp only [told, issued.notices, issued.parkings, List.append_nil]
    refine ⟨none, settled.block.trans issued.block, ?_, settled.owing⟩
    rw [silent, ← issued.block]
    exact settled.reports
  · rw [completed]
    exact ⟨_, settles_complete owes⟩

theorem settles_drive {e : Engine β} {r : Option Request} (owing : e.Owing r) (irq : Interrupt) :
    ∃ s, Settles e.id r e (e.drive irq) s := by
  cases r with
  | none =>
    rw [e.drive_of_free irq owing]
    exact ⟨none, .silent rfl rfl rfl owing⟩
  | some r =>
    rw [e.drive_eq irq owing.busy]
    split
    · exact settles_onEvent owing irq.events
    · exact ⟨none, settles_abort owing irq.faults⟩

omit [RegisterBlock β] in
theorem Owing.of_host {e : Engine β} {r : Option Request} (owing : e.Owing r) (host : Host β) :
    { e with host }.Owing r := by
  cases r with
  | none => exact owing
  | some r => exact ⟨owing.busy, owing.running, owing.callbacks⟩

theorem state_bind (e : Engine β) (settings : Settings) (slave : Slave) :
    (∃ host, e.bind settings slave = { e with host }) ∨
      ∃ host, e.bind settings slave = { e with host, state := e.state.next .initialized } := by
  unfold bind
  split
  · exact .inl ⟨e.host, rfl⟩
  · split
    · exact .inl ⟨_, rfl⟩
    · exact .inr ⟨_, rfl⟩

theorem settles_bind (settings : Settings) {e : Engine β} {r : Option Request} (owing : e.Owing r)
    (slave : Slave) : Settles e.id r e (e.bind settings slave) r := by
  rcases e.state_bind settings slave with ⟨host, bound⟩ | ⟨host, bound⟩
  · rw [bound]
    exact .silent rfl rfl rfl (owing.of_host host)
  · rw [bound]
    refine .silent rfl rfl rfl ?_
    cases r with
    | none =>
      intro busy
      apply owing
      revert busy
      simp only
      cases e.state <;> simp [Lifecycle.next]
    | some r => exact ⟨by simp only [owing.busy, Lifecycle.next], owing.running, owing.callbacks⟩

omit [RegisterBlock β] in
theorem Owing.of_canLaunch {e : Engine β} {r : Option Request} (owing : e.Owing r)
    (free : e.state.canLaunch = true) : r = none := by
  cases r with
  | none => rfl
  | some r =>
    rw [owing.busy] at free
    cases free

theorem settles_submit (settings : Settings) {e : Engine β} {r : Option Request}
    (owing : e.Owing r) (q : Request) :
    (∃ s, Settles e.id r e (e.submit settings q).2 s ∧ (e.submit settings q).1.isOk = false) ∨
      (e.submit settings q).1.isOk = true ∧ r = none ∧
        Settles e.id (some q) e (e.submit settings q).2 (some q) := by
  rcases e.submit_cases settings q with ⟨free, host, cursors, accepted⟩ | ⟨failure, refused⟩ |
    ⟨free, failure, host, refused⟩
  · rw [accepted]
    exact .inr ⟨rfl, owing.of_canLaunch free, .silent rfl rfl rfl ⟨rfl, ⟨_, rfl, .refl _⟩, rfl⟩⟩
  · rw [refused]
    exact .inl ⟨r, .silent rfl rfl rfl owing, rfl⟩
  · have idle := owing.of_canLaunch free
    subst idle
    rcases refused with refused | refused
    · rw [refused]
      exact .inl ⟨none, .silent rfl rfl rfl owing, rfl⟩
    · rw [refused]
      exact .inl ⟨none, .silent rfl rfl rfl Lifecycle.noConfusion, rfl⟩

theorem settles_respond (env : μ → β → β) (settings : Settings) {e : Engine β} {r : Option Request}
    (owing : e.Owing r) (st : Stimulus μ) :
    (∃ s, Settles e.id r e (e.respond env settings st) s ∧
        ∀ q, st = .submit q → (e.submit settings q).1.isOk = false) ∨
      ∃ q, st = .submit q ∧ (e.submit settings q).1.isOk = true ∧ r = none ∧
        Settles e.id (some q) e (e.respond env settings st) (some q) := by
  cases st with
  | submit q =>
    rcases settles_submit settings owing q with ⟨s, settled, refused⟩ | ⟨accepted, idle, settled⟩
    · refine .inl ⟨s, settled, fun p same => ?_⟩
      cases same
      exact refused
    · exact .inr ⟨q, rfl, accepted, idle, settled⟩
  | bind slave => exact .inl ⟨r, settles_bind settings owing slave, by simp⟩
  | reset => exact .inl ⟨r, .silent rfl rfl rfl (owing.of_host _), by simp⟩
  | take =>
    refine .inl ⟨r, .silent rfl rfl rfl ?_, by simp⟩
    cases r with
    | none => exact owing
    | some r => exact ⟨owing.busy, owing.running, owing.callbacks⟩
  | interrupt =>
    rcases taken : Interrupt.take e.host with ⟨irq, host⟩
    obtain ⟨s, settled⟩ := settles_drive (owing.of_host host) irq
    refine .inl ⟨s, ?_, by simp⟩
    simp only [respond, handleIrq, taken]
    exact ⟨settled.block, settled.reports, settled.owing⟩
  | event events =>
    refine .inl ?_
    cases r with
    | none =>
      simp only [respond, e.onEvent_of_free events owing]
      exact ⟨none, .silent rfl rfl rfl owing, by simp⟩
    | some r =>
      obtain ⟨s, settled⟩ := settles_onEvent owing events
      exact ⟨s, settled, by simp⟩
  | fault faults =>
    refine .inl ?_
    cases r with
    | none =>
      simp only [respond, e.onFault_of_free faults owing]
      exact ⟨none, .silent rfl rfl rfl owing, by simp⟩
    | some r =>
      simp only [respond, e.onFault_of_busy faults owing.busy]
      exact ⟨none, settles_abort owing faults, by simp⟩
  | move m => exact .inl ⟨r, .silent rfl rfl rfl (owing.of_host _), by simp⟩

end Engine

end SerialBus
