import SerialBus.Proofs.Engine.Request
import SerialBus.Proofs.Run.Projection

namespace SerialBus

theorem Slave.line_of_validate (s : Slave) (lines : UInt8) (sys : UInt32) (divider : UInt16)
    (valid : s.validate lines sys = .ok divider) : s.line.toNat < lines.toNat := by
  have small : s.csid.toNat < 2 ^ 32 := Nat.lt_trans s.csid.toNat_lt (by decide)
  have same : s.line.toNat = s.csid.toNat := by
    rw [Slave.line, BitVec.toNat_setWidth, UInt8.toNat_toBitVec, Nat.mod_eq_of_lt small]
  unfold Slave.validate at valid
  split at valid
  · cases valid
  · rename_i inside
    rw [same]
    exact UInt8.lt_iff_toNat_lt.mp (UInt8.not_le.mp inside)

variable {β μ : Type}

namespace Engine

variable {settings : Settings} {limits : Limits} {e f g : Engine β}

structure Carries (limits : Limits) (e f : Engine β) : Prop where
  recorded : Recorded limits f
  bound : e.state ≠ .none → f.state ≠ .none

theorem Carries.refl (recorded : Recorded limits e) : Carries limits e e :=
  ⟨recorded, fun bound => bound⟩

theorem Carries.trans (first : Carries limits e f) (second : Carries limits f g) :
    Carries limits e g :=
  ⟨second.recorded, fun bound => second.bound (first.bound bound)⟩

theorem Carries.of_bound (recorded : Recorded limits f) (bound : f.state ≠ .none) :
    Carries limits e f :=
  ⟨recorded, fun _ => bound⟩

theorem Recorded.host (recorded : Recorded limits e) : e.host.limits = limits :=
  recorded.elim (·.host) (·.host)

theorem Recorded.carries (recorded : Recorded limits e) (host : Host β)
    (same : host.limits = e.host.limits) : Carries limits e { e with host } :=
  ⟨recorded.of_host host same, fun bound => bound⟩

theorem Recorded.take (recorded : Recorded limits e) :
    Carries limits e e.takeCompletion.2 := by
  refine ⟨recorded.imp (fun resting => ?_) fun going => ?_, fun bound => bound⟩
  · exact ⟨resting.host, resting.state, resting.running, resting.cursors, resting.callbacks⟩
  · exact ⟨going.host, going.state, going.running⟩

variable [RegisterBlock β]

theorem Recorded.onEvent (recorded : Recorded limits e) (events : Events) :
    Carries limits e (e.onEvent events) := by
  rcases recorded with resting | going
  · rw [e.onEvent_of_free events resting.free]
    exact .refl (.inl resting)
  · rcases going.onEvent events with goes | ⟨rests, state⟩
    · exact .of_bound (.inr goes) goes.bound
    · exact .of_bound (.inl rests) (by rw [state]; exact Lifecycle.noConfusion)

theorem Recorded.onFault (recorded : Recorded limits e) (faults : Faults) :
    Carries limits e (e.onFault faults) := by
  rcases recorded with resting | going
  · rw [e.onFault_of_free faults resting.free]
    exact .refl (.inl resting)
  · rw [e.onFault_of_busy faults going.state]
    have state := e.state_abort faults going.state
    exact .of_bound (.inl (going.abort faults)) (by rw [state]; exact Lifecycle.noConfusion)

theorem Recorded.handleIrq (recorded : Recorded limits e) : Carries limits e e.handleIrq := by
  have kept := e.host.limits_take
  rcases taken : Interrupt.take e.host with ⟨irq, host⟩
  rw [taken] at kept
  simp only [Engine.handleIrq, taken]
  exact drive_keeps (fun _ faults carries => carries.trans (carries.recorded.onFault faults))
    (fun _ events carries => carries.trans (carries.recorded.onEvent events)) _ irq
    (recorded.carries host kept)

theorem Recorded.bind (recorded : Recorded limits e) (settings : Settings) (slave : Slave) :
    Carries limits e (e.bind settings slave) ∧
      ∀ divider, slave.validate limits.lines settings.clock = .ok divider →
        (e.bind settings slave).state ≠ .none := by
  unfold Engine.bind
  rw [recorded.host]
  cases valid : slave.validate limits.lines settings.clock with
  | error err => exact ⟨.refl recorded, fun divider accepted => by cases accepted⟩
  | ok _ =>
    obtain ⟨host, enabled, kept⟩ := e.host.enableHost_ok
    have named : e.state.next .initialized ≠ .none := by
      cases e.state <;> exact Lifecycle.noConfusion
    have bound : Recorded limits ({ e with host }.reach .initialized) := by
      rcases recorded with resting | going
      · refine .inl ⟨kept.trans resting.host, .inr ?_, resting.running, resting.cursors,
          resting.callbacks⟩
        rcases resting.state with state | state <;> simp only [reach, state, Lifecycle.next]
      · refine .inr ⟨kept.trans going.host, ?_, going.running⟩
        simp only [reach, going.state, Lifecycle.next]
    simp only [enabled]
    exact ⟨.of_bound bound named, fun _ _ => named⟩

theorem Recorded.submit (recorded : Recorded limits e) (sound : Sound settings limits)
    (r : Request) : Carries limits e (e.submit settings r).2 := by
  have answer := submit_answer sound recorded.host r
  generalize e.submit settings r = result at answer
  cases answer with
  | refused err checked => exact .refl recorded
  | active checked active => exact recorded.carries _ rfl
  | unselected checked line => exact recorded.carries _ rfl
  | launched checked inactive f going => exact .of_bound (.inr going) going.bound

theorem Recorded.respond (recorded : Recorded limits e) (sound : Sound settings limits)
    (env : μ → β → β) (st : Stimulus μ) : Carries limits e (e.respond env settings st) := by
  cases st with
  | bind slave => exact (recorded.bind settings slave).1
  | reset => exact recorded.carries _ rfl
  | take => exact recorded.take
  | submit r => exact recorded.submit sound r
  | interrupt => exact recorded.handleIrq
  | event events => exact recorded.onEvent events
  | fault faults => exact recorded.onFault faults
  | move m => exact recorded.carries _ rfl

end Engine

namespace Controller

variable [RegisterBlock β] {c : Controller β} {limits : PeripheralId → Limits}

structure Kept (limits : PeripheralId → Limits) (c : Controller β) : Prop where
  sound : ∀ id, Sound c.settings (limits id)
  recorded : ∀ id, Engine.Recorded (limits id) (c.engine id)

omit [RegisterBlock β] in
theorem kept_new (blocks : Trio β) (board : Board) (built : Controller.new blocks board = .ok c) :
    Kept board.hosts.get c := by
  obtain ⟨valid, settings, engines⟩ := new_eq_ok blocks board c built
  refine ⟨fun id => ?_, fun id => ?_⟩
  · rw [settings]
    exact .of_board board valid id
  · rw [engines]
    exact .inl ⟨rfl, .inl rfl, rfl, rfl, rfl⟩

theorem Kept.carries (kept : Kept limits c) (env : μ → β → β) (as : List (Action μ))
    (id : PeripheralId) : Engine.Carries (limits id) (c.engine id) ((c.run env as).engine id) := by
  refine engine_run env c as id (.refl (kept.recorded id)) fun a _ st _ e carries => ?_
  exact carries.trans (carries.recorded.respond (kept.sound id) env st)

theorem Kept.run (kept : Kept limits c) (env : μ → β → β) (as : List (Action μ)) :
    Kept limits (c.run env as) := by
  refine ⟨fun id => ?_, fun id => (kept.carries env as id).recorded⟩
  rw [settings_run]
  exact kept.sound id

def issued? (c : Controller β) : Action μ → Option Handle
  | .init id slave => (c.init id slave).1.toOption
  | .initIndex index slave => (c.initIndex index slave).1.toOption
  | .initInto h id slave => (c.initInto h id slave).1.toOption
  | _ => none

def handles (env : μ → β → β) : Controller β → List (Action μ) → List Handle
  | _, [] => []
  | c, a :: as => (c.issued? a).toList ++ (c.act env a).handles env as

theorem issued?_eq_some (c : Controller β) (a : Action μ) (h : Handle)
    (issued : c.issued? a = some h) :
    ∃ id slave, a.stimulus? id = some (.bind slave) ∧ (c.init id slave).1 = .ok h := by
  have accepted {result : Except TransferError Handle} (some : result.toOption = some h) :
      result = .ok h := by
    cases result <;> cases some
    rfl
  cases a with
  | init id slave => exact ⟨id, slave, by simp [Action.stimulus?], accepted issued⟩
  | initIndex index slave =>
    have answer := accepted issued
    unfold initIndex at answer
    cases named : PeripheralId.ofIndex? index with
    | none =>
      rw [named] at answer
      cases answer
    | some id =>
      rw [named] at answer
      exact ⟨id, slave, by simp [Action.stimulus?, named], answer⟩
  | initInto other id slave =>
    have answer := accepted issued
    unfold initInto at answer
    split at answer
    · cases answer
    · rename_i unused
      exact ⟨id, slave, by simp [Action.stimulus?, unused], answer⟩
  | _ => cases issued

theorem init_answer (c : Controller β) (id : PeripheralId) (slave : Slave) :
    (c.init id slave).1 =
      match slave.validate (c.engine id).host.limits.lines c.settings.clock with
      | .error err => .error (.ofSlave err)
      | .ok divider =>
        .ok { id := some id, isInit := true, slave := slave.realized c.settings.clock divider,
              divider } := by
  -- a block can always be set up, so only the slave decides
  obtain ⟨host, enabled, -⟩ := (c.engine id).host.enableHost_ok
  simp only [init]
  cases slave.validate (c.engine id).host.limits.lines c.settings.clock with
  | error err => rfl
  | ok divider => simp only [enabled]

theorem init_eq_ok (c : Controller β) (id : PeripheralId) (slave : Slave) (h : Handle)
    (accepted : (c.init id slave).1 = .ok h) :
    ∃ divider, slave.validate (c.engine id).host.limits.lines c.settings.clock = .ok divider ∧
      h = { id := some id, isInit := true, slave := slave.realized c.settings.clock divider,
            divider } := by
  rw [init_answer] at accepted
  cases valid : slave.validate (c.engine id).host.limits.lines c.settings.clock with
  | error err =>
    rw [valid] at accepted
    cases accepted
  | ok divider =>
    rw [valid] at accepted
    exact ⟨divider, rfl, (Except.ok.inj accepted).symm⟩

/-- A handle that refers to the block `id`, which is bound, and to a line that it has. -/
structure Usable (limits : PeripheralId → Limits) (c : Controller β) (h : Handle)
    (id : PeripheralId) : Prop where
  check : h.check = .ok id
  line : h.slave.line.toNat < (limits id).lines.toNat
  bound : (c.engine id).state ≠ .none

theorem Kept.usable_of_issued (kept : Kept limits c) (env : μ → β → β) (a : Action μ) (h : Handle)
    (issued : c.issued? a = some h) : ∃ id, Usable limits (c.act env a) h id := by
  obtain ⟨id, slave, stimulus, accepted⟩ := c.issued?_eq_some a h issued
  obtain ⟨divider, valid, rfl⟩ := c.init_eq_ok id slave h accepted
  have recorded := kept.recorded id
  rw [recorded.host] at valid
  refine ⟨id, rfl, slave.line_of_validate (limits id).lines c.settings.clock divider valid, ?_⟩
  rw [engine_act, stimulus]
  exact (recorded.bind c.settings slave).2 divider valid

theorem Kept.usable (kept : Kept limits c) (env : μ → β → β) (as : List (Action μ)) (h : Handle)
    (given : h ∈ c.handles env as) : ∃ id, Usable limits (c.run env as) h id := by
  induction as generalizing c with
  | nil => cases given
  | cons a as ih =>
    have next : Kept limits (c.act env a) := kept.run env [a]
    rcases List.mem_append.mp given with now | later
    · obtain ⟨id, usable⟩ := kept.usable_of_issued env a h (by simpa using now)
      exact ⟨id, usable.check, usable.line, (next.carries env as id).bound usable.bound⟩
    · exact ih next later

end Controller

end SerialBus
