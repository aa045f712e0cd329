import SerialBus.MemoryBlock
import SerialBus.Proofs.Run.Recorded

namespace SerialBus

namespace Transaction

theorem validate_error (t : Transaction) (err : TransferError) (refused : t.validate = .error err) :
    err = .segmentInvalid ∨ err = .lengthInvalid := by
  unfold validate at refused
  cases counted : Segment.validateAll t.segments with
  | error cause =>
    rw [counted] at refused
    cases refused
    cases cause with
    | invalidLength index =>
      simp only [segmentError]
      split
      · exact .inr rfl
      · exact .inl rfl
    | _ => exact .inl rfl
  | ok counts =>
    rw [counted] at refused
    simp only [Buffers.check] at refused
    split at refused
    · cases refused
    · cases refused
      exact .inr rfl

theorem generic_cases (segments : List Segment) (tx rx : Option Buffer) :
    generic segments tx rx = .error ⟨.segmentInvalid, { tx, rx }⟩ ∨
      ∃ t, generic segments tx rx = .ok t ∧ t.buffers.tx = tx ∧ t.buffers.rx = rx := by
  cases counted : Segment.validateAll segments with
  | error cause => exact .inl (generic_of_rejected segments tx rx cause counted)
  | ok counts => exact .inr ⟨_, generic_of_counted segments tx rx counts counted, rfl, rfl⟩

end Transaction

variable {β μ : Type}

def Action.loan? : Action μ → Option (Handle × Option Buffer × Option Buffer)
  | submit h t _ => some (h, t.buffers.tx, t.buffers.rx)
  | transmit h tx _ _ => some (h, some tx, none)
  | receive h rx _ _ => some (h, none, some rx)
  | transceive h tx rx _ _ => some (h, some tx, some rx)
  | execute h _ tx rx _ => some (h, tx, rx)
  | _ => none

namespace Controller

variable [RegisterBlock β]

def reply? (c : Controller β) : Action μ → Option (Except Failure Unit)
  | .submit h t callbacks => some (c.submit h t callbacks).1
  | .transmit h tx len callbacks => some (c.transmit h tx len callbacks).1
  | .receive h rx len callbacks => some (c.receive h rx len callbacks).1
  | .transceive h tx rx len callbacks => some (c.transceive h tx rx len callbacks).1
  | .execute h segments tx rx callbacks => some (c.execute h segments tx rx callbacks).1
  | _ => none

/-- What the checks and one look at the block say to a request. -/
def verdict (c : Controller β) (h : Handle) (t : Transaction) : Except Failure Unit :=
  match c.checkSubmit h t with
  | .error err => .error ⟨err, t.buffers⟩
  | .ok id =>
    if (c.engine id).host.status.1.isActive then .error ⟨.notIdle, t.buffers⟩ else .ok ()

/-- From `c` to `d` a transfer of these buffers was refused. All that happened besides is that the
    status of a block was read, where it was not idle. -/
structure Refused (c : Controller β) (tx rx : Option Buffer) (failure : Failure)
    (d : Controller β) : Prop where
  tx : failure.buffers.tx = tx
  rx : failure.buffers.rx = rx
  error : failure.error ∈ [.indexInvalid, .busy, .notIdle, .segmentInvalid, .lengthInvalid]
  trace : d = c ∨ failure.error = .notIdle ∧ ∃ id, d = (c.onHost id Host.status).2

variable {c : Controller β} {limits : PeripheralId → Limits}

omit [RegisterBlock β] in
theorem checkLaunch_error {limits : Limits} {e : Engine β} (recorded : e.Recorded limits)
    (bound : e.state ≠ .none) (t : Transaction) (err : TransferError)
    (refused : e.checkLaunch t = .error err) :
    err = .busy ∨ err = .segmentInvalid ∨ err = .lengthInvalid := by
  unfold Engine.checkLaunch at refused
  split at refused
  · cases refused
    exact .inl rfl
  · rename_i free
    have init : e.state = .init := by
      rcases recorded with resting | going
      · exact resting.state.resolve_left bound
      · rw [going.state] at free
        exact absurd rfl free
    rw [init] at refused
    exact .inr (t.validate_error err refused)

/-- The request is answered as the checks and one look at its block say, and leaves no trace if it
    is refused. -/
structure Judged (c : Controller β) (r : Request) : Prop where
  reply : (c.submit r.handle r.transaction r.callbacks).1 = c.verdict r.handle r.transaction
  refused : ∀ failure, (c.submit r.handle r.transaction r.callbacks).1 = .error failure →
    Refused c r.transaction.buffers.tx r.transaction.buffers.rx failure
      (c.submit r.handle r.transaction r.callbacks).2

theorem Kept.judged_of_usable (kept : Kept limits c) (r : Request) {id : PeripheralId}
    (usable : Usable limits c r.handle id) : Judged c r := by
  have recorded := kept.recorded id
  have answer := Engine.submit_answer (kept.sound id) recorded.host r
  have submitted := c.submit_of_named r id usable.check
  have checks := c.checkSubmit_of_named r.handle r.transaction id usable.check
  generalize (c.engine id).submit c.settings r = result at answer submitted
  cases answer with
  | refused err checked =>
    refine ⟨?_, ?_⟩
    · simp only [submitted, verdict, checks, checked, Except.map]
    · rw [submitted]
      rintro failure ⟨⟩
      refine ⟨rfl, rfl, ?_, .inl (c.setEngine_same id)⟩
      rcases checkLaunch_error recorded usable.bound r.transaction err checked with
        rfl | rfl | rfl <;> simp
  | active checked active =>
    refine ⟨?_, ?_⟩
    · simp only [submitted, verdict, checks, checked, Except.map, active, if_true]
    · rw [submitted]
      rintro failure ⟨⟩
      exact ⟨rfl, rfl, by simp, .inr ⟨rfl, id, rfl⟩⟩
  | unselected checked line => exact absurd usable.line (Nat.not_lt.mpr line)
  | launched checked inactive f going =>
    refine ⟨?_, ?_⟩
    · simp only [submitted, verdict, checks, checked, Except.map, inactive, Bool.false_eq_true,
        if_false]
    · rw [submitted]
      rintro failure ⟨⟩

theorem Kept.judged (kept : Kept limits c) (r : Request)
    (known : r.handle = .blank ∨ ∃ id, Usable limits c r.handle id) : Judged c r := by
  rcases known with blank | ⟨id, usable⟩
  · have answer := c.submit_of_unnamed r .indexInvalid (by rw [blank]; rfl)
    refine ⟨?_, ?_⟩
    · rw [answer, blank]
      rfl
    · rw [answer]
      rintro failure ⟨⟩
      exact ⟨rfl, rfl, by simp, .inl rfl⟩
  · exact kept.judged_of_usable r usable

theorem reply_cases (env : μ → β → β) (c : Controller β) (a : Action μ) (h : Handle)
    (tx rx : Option Buffer) (loan : a.loan? = some (h, tx, rx)) :
    (∃ r : Request, r.handle = h ∧ r.transaction.buffers.tx = tx ∧ r.transaction.buffers.rx = rx ∧
        c.reply? a = some (c.submit r.handle r.transaction r.callbacks).1 ∧
        c.act env a = (c.submit r.handle r.transaction r.callbacks).2) ∨
      c.reply? a = some (.error ⟨.segmentInvalid, { tx, rx }⟩) ∧ c.act env a = c := by
  cases a with
  | submit other t callbacks =>
    cases loan
    exact .inl ⟨⟨h, t, callbacks⟩, rfl, rfl, rfl, rfl, rfl⟩
  | transmit other b len callbacks =>
    cases loan
    exact .inl ⟨⟨h, .tx b len, callbacks⟩, rfl, rfl, rfl, rfl, rfl⟩
  | receive other b len callbacks =>
    cases loan
    exact .inl ⟨⟨h, .rx b len, callbacks⟩, rfl, rfl, rfl, rfl, rfl⟩
  | transceive other b d len callbacks =>
    cases loan
    exact .inl ⟨⟨h, .bidir b d len, callbacks⟩, rfl, rfl, rfl, rfl, rfl⟩
  | execute other segments b d callbacks =>
    cases loan
    simp only [reply?, act, execute]
    rcases Transaction.generic_cases segments tx rx with refused | ⟨t, made, sends, receives⟩
    · rw [refused]
      exact .inr ⟨rfl, rfl⟩
    · rw [made]
      exact .inl ⟨⟨h, t, callbacks⟩, rfl, sends, receives, rfl, rfl⟩
  | _ => cases loan

theorem Kept.refused (kept : Kept limits c) (env : μ → β → β) (a : Action μ) (h : Handle)
    (known : h = .blank ∨ ∃ id, Usable limits c h id) (tx rx : Option Buffer) (failure : Failure)
    (loan : a.loan? = some (h, tx, rx)) (refused : c.reply? a = some (.error failure)) :
    Refused c tx rx failure (c.act env a) := by
  rcases c.reply_cases env a h tx rx loan with ⟨r, rfl, rfl, rfl, reply, act⟩ | ⟨reply, act⟩
  · rw [reply] at refused
    rw [act]
    exact (kept.judged r known).refused failure (Option.some.inj refused)
  · rw [reply] at refused
    cases refused
    exact ⟨rfl, rfl, by simp, .inl act⟩

/-- Requests with the handles that a controller gave out, or with none, are answered by the checks
    and one look at the block, in every state and over any registers; a transfer that is refused
    leaves no trace, and no segment of a running transaction is refused for good. -/
theorem refusals_leave_no_trace (env : μ → β → β) (blocks : Trio β) (board : Board)
    (first : Controller β) (built : Controller.new blocks board = .ok first)
    (as : List (Action μ)) (h : Handle) (known : h = .blank ∨ h ∈ first.handles env as) :
    let c := first.run env as
    (∀ t callbacks, (c.submit h t callbacks).1 = c.verdict h t) ∧
      (∀ a tx rx failure, a.loan? = some (h, tx, rx) → c.reply? a = some (.error failure) →
        Refused c tx rx failure (c.act env a)) ∧
      ∀ id err, (c.engine id).state = .busy → (c.engine id).issueNext.1 = .error err →
        err.isTransient = true := by
  intro c
  have start := kept_new blocks board built
  have kept : Kept board.hosts.get c := start.run env as
  have usable : h = .blank ∨ ∃ id, Usable board.hosts.get c h id :=
    known.imp_right (start.usable env as h)
  refine ⟨fun t callbacks => ?_, fun a tx rx failure loan refused => ?_, fun id err busy => ?_⟩
  · exact (kept.judged ⟨h, t, callbacks⟩ usable).reply
  · exact kept.refused env a h usable tx rx failure loan refused
  · rcases kept.recorded id with resting | going
    · exact absurd busy resting.free
    · exact going.issueNext.2 err

def slate : Controller MemoryBlock where
  engines := .ofFn fun id => { id, host := ⟨MemoryBlock.ofWords [], {}⟩ }
  settings := {}

theorem refusals_leave_no_trace_slate :
    let env := fun (w : Word) (m : MemoryBlock) => m.poke 5 w
    let slave : Slave := { freq := 10000000 }
    let as : List (Action Word) := [.init .host slave, .move .host 0x40000000]
    let h : Handle := { id := some .host, isInit := true, slave, divider := 4 }
    let a : Action Word := .transmit h { words := [1, 2] } 8 {}
    let failure : Failure := ⟨.notIdle, { tx := some { words := [1, 2] }, txLen := 2 }⟩
    (slate.run env as).reply? a = some (.error failure) ∧
      Refused (slate.run env as) (some { words := [1, 2] }) none failure
        ((slate.run env as).act env a) := by
  intro env slave as h a failure
  have given : h ∈ slate.handles env as := by decide +kernel
  have refused : (slate.run env as).reply? a = some (.error failure) := by decide +kernel
  have known := refusals_leave_no_trace env (.ofFn fun _ => MemoryBlock.ofWords []) {} slate rfl as
    h (.inr given)
  exact ⟨refused, known.2.1 a _ _ failure rfl refused⟩

end Controller

end SerialBus
