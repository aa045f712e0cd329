import SerialBus.Proofs.Run.Action

namespace SerialBus

def Action.kind? {μ : Type} : Action μ → Option (Stimulus μ)
  | .init _ slave | .initIndex _ slave | .initInto _ _ slave => some (.bind slave)
  | .reset _ => some .reset
  | .takeCompletion _ => some .take
  | .handleIrq _ => some .interrupt
  | .onEvent _ events => some (.event events)
  | .onFault _ faults => some (.fault faults)
  | .move _ m => some (.move m)
  | a => a.request?.map .submit

namespace Controller

variable {β μ : Type}

theorem engine_setEngine (c : Controller β) (id other : PeripheralId) (e : Engine β) :
    (c.setEngine other e).engine id = if other = id then e else c.engine id := by
  by_cases same : other = id
  · subst same
    simp only [engine, setEngine, Trio.get_set_self, if_true]
  · simp only [engine, setEngine, same, if_false]
    exact c.engines.get_set_of_ne e (Ne.symm same)

theorem setEngine_same (c : Controller β) (id : PeripheralId) :
    c.setEngine id (c.engine id) = c := by
  cases id <;> rfl

theorem setEngine_setEngine (c : Controller β) (id : PeripheralId) (e f : Engine β) :
    (c.setEngine id e).setEngine id f = c.setEngine id f := by
  cases id <;> rfl

variable [RegisterBlock β]

theorem init_eq (c : Controller β) (id : PeripheralId) (slave : Slave) :
    (c.init id slave).2 = c.setEngine id ((c.engine id).bind c.settings slave) := by
  simp only [init, Engine.bind]
  cases valid : slave.validate (c.engine id).host.limits.lines c.settings.clock with
  | error err => exact (c.setEngine_same id).symm
  | ok divider =>
    rcases enabled : enableHost (c.engine id).host with ⟨result, host⟩
    cases result <;> rfl

theorem initIndex_eq (c : Controller β) (index : Nat) (slave : Slave) (id : PeripheralId) :
    (c.initIndex index slave).2.engine id =
      if PeripheralId.ofIndex? index = some id then (c.engine id).bind c.settings slave
      else c.engine id := by
  unfold initIndex
  cases PeripheralId.ofIndex? index with
  | none => simp
  | some other =>
    simp only [init_eq, engine_setEngine, Option.some.injEq]
    by_cases same : other = id
    · simp [same]
    · simp [same]

theorem handleIrq_eq (c : Controller β) (id : PeripheralId) :
    c.handleIrq id = c.setEngine id (c.engine id).handleIrq := by
  rcases taken : Interrupt.take (c.engine id).host with ⟨irq, host⟩
  simp only [handleIrq, onHost, Engine.handleIrq, Engine.drive, taken, Interrupt.calls]
  by_cases faults : irq.faults.isEmpty <;> by_cases events : irq.events.isEmpty <;>
    simp [faults, events, answer, onFault, onEvent, engine_setEngine, setEngine_setEngine]

theorem check_cases (h : Handle) :
    (∃ id, h.check = .ok id ∧ ∀ other, h.names other = decide (id = other)) ∨
      (∃ err, h.check = .error err ∧ ∀ other, h.names other = false) := by
  unfold Handle.check Handle.names
  cases h.id with
  | none => exact .inr ⟨_, rfl, fun _ => rfl⟩
  | some id =>
    cases h.isInit with
    | true =>
      refine .inl ⟨id, rfl, fun other => ?_⟩
      by_cases same : id = other <;> simp [same]
    | false => exact .inr ⟨_, rfl, fun _ => Bool.and_false _⟩

omit [RegisterBlock β] in
theorem checkSubmit_of_named (c : Controller β) (h : Handle) (t : Transaction) (id : PeripheralId)
    (named : h.check = .ok id) :
    c.checkSubmit h t = ((c.engine id).checkLaunch t).map fun _ => id := by
  simp only [checkSubmit, Engine.checkLaunch, named, Bind.bind, Except.bind]
  split
  · rfl
  · split
    · rfl
    · cases t.validate <;> rfl

theorem submit_of_named (c : Controller β) (r : Request) (id : PeripheralId)
    (named : r.handle.check = .ok id) :
    c.submit r.handle r.transaction r.callbacks =
      (((c.engine id).submit c.settings r).1,
        c.setEngine id ((c.engine id).submit c.settings r).2) := by
  simp only [submit, c.checkSubmit_of_named r.handle r.transaction id named, Engine.submit]
  cases checked : (c.engine id).checkLaunch r.transaction with
  | error err => simp only [Except.map, setEngine_same]
  | ok _ =>
    simp only [Except.map]
    rcases selected : (c.engine id).setSlave r.handle with ⟨result, e⟩
    cases result <;> rfl

theorem submit_of_unnamed (c : Controller β) (r : Request) (err : TransferError)
    (unnamed : r.handle.check = .error err) :
    c.submit r.handle r.transaction r.callbacks = (.error ⟨err, r.transaction.buffers⟩, c) := by
  simp only [submit, checkSubmit, unnamed, Bind.bind, Except.bind]

theorem submit_engine (c : Controller β) (r : Request) (id : PeripheralId) :
    (c.submit r.handle r.transaction r.callbacks).2.engine id =
      if r.handle.names id then ((c.engine id).submit c.settings r).2 else c.engine id := by
  rcases check_cases r.handle with ⟨other, named, names⟩ | ⟨err, unnamed, names⟩
  · rw [submit_of_named c r other named, engine_setEngine, names]
    by_cases same : other = id
    · subst same
      simp
    · simp [same]
  · rw [submit_of_unnamed c r err unnamed, names]
    rfl

theorem act_of_request (env : μ → β → β) (c : Controller β) (a : Action μ) (r : Request)
    (request : a.request? = some r) :
    c.act env a = (c.submit r.handle r.transaction r.callbacks).2 := by
  cases a with
  | execute h segments tx rx callbacks =>
    simp only [Action.request?] at request
    simp only [act, execute]
    cases built : Transaction.generic segments tx rx with
    | error failure => simp [built, Except.toOption] at request
    | ok t =>
      simp only [built, Except.toOption, Option.map_some, Option.some.injEq] at request
      subst request
      rfl
  | submit | transmit | receive | transceive =>
    simp only [Action.request?, Option.some.injEq] at request
    subst request
    rfl
  | _ => simp [Action.request?] at request

theorem stimulus?_of_request (a : Action μ) (r : Request) (id : PeripheralId)
    (request : a.request? = some r) :
    a.stimulus? id = if r.handle.names id then some (.submit r) else none := by
  cases a with
  | submit | transmit | receive | transceive | execute =>
    simp only [Action.stimulus?, request]
  | _ => simp [Action.request?] at request

omit [RegisterBlock β] in
theorem kind?_of_stimulus (a : Action μ) {id : PeripheralId} {st : Stimulus μ}
    (stimulus : a.stimulus? id = some st) : a.kind? = some st := by
  cases request : a.request? with
  | some r =>
    rw [stimulus?_of_request a r id request] at stimulus
    split at stimulus
    · cases a with
      | submit | transmit | receive | transceive | execute =>
        exact (congrArg (Option.map Stimulus.submit) request).trans stimulus
      | _ => cases request
    · cases stimulus
  | none =>
    cases a with
    | execute h segments tx rx callbacks =>
      simp only [Action.stimulus?, request] at stimulus
      cases stimulus
    | submit | transmit | receive | transceive => cases request
    | _ =>
      simp only [Action.stimulus?] at stimulus
      split at stimulus
      · exact stimulus
      · cases stimulus

theorem respond_at (env : μ → β → β) (c : Controller β) (st : Stimulus μ)
    (other id : PeripheralId) :
    (c.setEngine other ((c.engine other).respond env c.settings st)).engine id =
      match (if other = id then some st else none) with
      | some st => (c.engine id).respond env c.settings st
      | none => c.engine id := by
  rw [engine_setEngine]
  by_cases same : other = id
  · simp only [same, if_true]
  · simp only [same, if_false]

/-- What an action leaves of the engine of a block. -/
theorem engine_act (env : μ → β → β) (c : Controller β) (a : Action μ) (id : PeripheralId) :
    (c.act env a).engine id =
      match a.stimulus? id with
      | some st => (c.engine id).respond env c.settings st
      | none => c.engine id := by
  cases request : a.request? with
  | some r =>
    rw [act_of_request env c a r request, submit_engine, stimulus?_of_request a r id request]
    by_cases named : r.handle.names id = true <;> simp [named, Engine.respond]
  | none =>
    cases a with
    | init other slave =>
      rw [act, init_eq]
      exact c.respond_at env (.bind slave) other id
    | initIndex index slave =>
      rw [act, initIndex_eq, Action.stimulus?]
      by_cases same : PeripheralId.ofIndex? index = some id <;> simp [same, Engine.respond]
    | initInto h other slave =>
      simp only [act, initInto, Action.stimulus?]
      by_cases used : h.isInit = true
      · simp [used]
      · simp only [used, Bool.false_eq_true, if_false, init_eq, true_and]
        exact c.respond_at env (.bind slave) other id
    | reset h =>
      simp only [act, reset, Action.stimulus?]
      rcases check_cases h with ⟨other, named, names⟩ | ⟨err, unnamed, names⟩
      · simp only [named, names, decide_eq_true_eq]
        exact c.respond_at env .reset other id
      · simp [unnamed, names]
    | takeCompletion h =>
      simp only [act, takeCompletion, Action.stimulus?]
      rcases check_cases h with ⟨other, named, names⟩ | ⟨err, unnamed, names⟩
      · simp only [named, names, decide_eq_true_eq]
        exact c.respond_at env .take other id
      · simp [unnamed, names]
    | handleIrq other =>
      rw [act, handleIrq_eq]
      exact c.respond_at env .interrupt other id
    | onEvent other events => exact c.respond_at env (.event events) other id
    | onFault other faults => exact c.respond_at env (.fault faults) other id
    | move other m => exact c.respond_at env (.move m) other id
    | execute h segments tx rx callbacks =>
      simp only [Action.request?] at request
      simp only [act, execute, Action.stimulus?, Action.request?]
      cases built : Transaction.generic segments tx rx with
      | error failure => simp [Except.toOption]
      | ok t => simp [built, Except.toOption] at request
    | submit | transmit | receive | transceive => simp [Action.request?] at request

theorem settings_submit (c : Controller β) (r : Request) :
    (c.submit r.handle r.transaction r.callbacks).2.settings = c.settings := by
  rcases check_cases r.handle with ⟨other, named, -⟩ | ⟨err, unnamed, -⟩
  · rw [submit_of_named c r other named]
    rfl
  · rw [submit_of_unnamed c r err unnamed]

@[simp] theorem settings_act (env : μ → β → β) (c : Controller β) (a : Action μ) :
    (c.act env a).settings = c.settings := by
  cases request : a.request? with
  | some r => rw [act_of_request env c a r request, settings_submit]
  | none =>
    cases a with
    | init id slave => simp only [act, init_eq, setEngine]
    | initIndex index slave =>
      simp only [act, initIndex]
      cases PeripheralId.ofIndex? index with
      | none => rfl
      | some id => simp only [init_eq, setEngine]
    | initInto h id slave =>
      simp only [act, initInto]
      split
      · rfl
      · simp only [init_eq, setEngine]
    | reset h =>
      simp only [act, reset]
      split <;> rfl
    | takeCompletion h =>
      simp only [act, takeCompletion]
      split <;> rfl
    | handleIrq id => simp only [act, handleIrq_eq, setEngine]
    | execute h segments tx rx callbacks =>
      simp only [Action.request?] at request
      simp only [act, execute]
      cases built : Transaction.generic segments tx rx with
      | error failure => rfl
      | ok t => simp [built, Except.toOption] at request
    | submit | transmit | receive | transceive => simp [Action.request?] at request
    | onEvent | onFault | move => rfl

theorem settings_run (env : μ → β → β) (c : Controller β) (as : List (Action μ)) :
    (c.run env as).settings = c.settings := by
  induction as generalizing c with
  | nil => rfl
  | cons a as ih => exact (ih (c.act env a)).trans (settings_act env c a)

theorem engine_keeps {P : Engine β → Prop} (env : μ → β → β) (c : Controller β) (a : Action μ)
    (id : PeripheralId) (start : P (c.engine id))
    (keeps : ∀ st, a.stimulus? id = some st → P ((c.engine id).respond env c.settings st)) :
    P ((c.act env a).engine id) := by
  rw [engine_act]
  cases stimulus : a.stimulus? id with
  | none => exact start
  | some st => exact keeps st stimulus

theorem engine_run {P : Engine β → Prop} (env : μ → β → β) (c : Controller β)
    (as : List (Action μ)) (id : PeripheralId) (start : P (c.engine id))
    (keeps : ∀ a ∈ as, ∀ st, a.stimulus? id = some st → ∀ e, P e →
      P (e.respond env c.settings st)) : P ((c.run env as).engine id) := by
  induction as generalizing c with
  | nil => exact start
  | cons a as ih =>
    have first : P ((c.act env a).engine id) :=
      c.engine_keeps env a id start fun st stimulus =>
        keeps a List.mem_cons_self st stimulus _ start
    refine ih (c.act env a) first fun b member => ?_
    rw [settings_act]
    exact keeps b (List.mem_cons_of_mem a member)

omit [RegisterBlock β] in
theorem stimulus?_of_no_request (a : Action μ) (id : PeripheralId) (r : Request)
    (request : a.request? = none) : a.stimulus? id ≠ some (.submit r) := by
  cases a with
  | execute h segments tx rx callbacks =>
    simp [Action.stimulus?, request]
  | submit | transmit | receive | transceive => simp [Action.request?] at request
  | _ =>
    simp only [Action.stimulus?]
    split <;> simp

theorem launched?_eq (c : Controller β) (id : PeripheralId) (a : Action μ) :
    c.launched? id a =
      match a.stimulus? id with
      | some (.submit r) => if ((c.engine id).submit c.settings r).1.isOk then some r else none
      | _ => none := by
  cases request : a.request? with
  | none =>
    simp only [launched?, request, Option.filter_none]
    cases stimulus : a.stimulus? id with
    | none => rfl
    | some st =>
      cases st with
      | submit r => exact absurd stimulus (stimulus?_of_no_request a id r request)
      | _ => rfl
  | some r =>
    simp only [launched?, request, stimulus?_of_request a r id request, Option.filter_some]
    rcases check_cases r.handle with ⟨other, check, names⟩ | ⟨err, unnamed, names⟩
    · by_cases same : other = id
      · subst same
        simp [names, submit_of_named c r other check]
      · simp [names, same]
    · simp [names]

theorem engine_launched (env : μ → β → β) {c : Controller β} {id : PeripheralId} {a : Action μ}
    {r : Request} (launched : c.launched? id a = some r) :
    (c.engine id).submit c.settings r = (.ok (), (c.act env a).engine id) := by
  rw [launched?_eq] at launched
  rw [engine_act]
  cases stimulus : a.stimulus? id with
  | none =>
    rw [stimulus] at launched
    cases launched
  | some st =>
    rw [stimulus] at launched
    cases st with
    | submit q =>
      simp only at launched ⊢
      split at launched
      · cases launched
        rename_i accepted
        simp only [Engine.respond]
        rcases step : (c.engine id).submit c.settings r with ⟨result, f⟩
        rw [step] at accepted
        cases result with
        | ok _ => rfl
        | error failure => cases accepted
      · cases launched
    | _ => cases launched

theorem BusyThrough.busy {env : μ → β → β} {id : PeripheralId} {c : Controller β}
    {as : List (Action μ)} (through : BusyThrough env id c as) : (c.engine id).state = .busy := by
  cases as with
  | nil => exact through
  | cons a as => exact through.1

theorem BusyThrough.after {env : μ → β → β} {id : PeripheralId} {c : Controller β}
    {as : List (Action μ)} (through : BusyThrough env id c as) :
    ((c.run env as).engine id).state = .busy := by
  induction as generalizing c with
  | nil => exact through
  | cons a as ih => exact ih through.2

omit [RegisterBlock β] in
theorem new_eq_ok (blocks : Trio β) (board : Board) (c : Controller β)
    (built : Controller.new blocks board = .ok c) :
    board.validate = .ok () ∧ c.settings = board.settings ∧
      ∀ id, c.engine id = { id, host := ⟨blocks.get id, board.hosts.get id⟩ } := by
  unfold Controller.new at built
  cases valid : board.validate with
  | error err =>
    rw [valid] at built
    cases built
  | ok _ =>
    rw [valid] at built
    cases built
    exact ⟨rfl, rfl, fun id => Trio.get_ofFn _ id⟩

theorem Reached.run {env : μ → β → β} {allowed : Action μ → Prop} {blocks : Trio β}
    {board : Board} {c : Controller β} (reached : Reached env allowed blocks board c)
    (as : List (Action μ)) (all : ∀ a ∈ as, allowed a) :
    Reached env allowed blocks board (c.run env as) := by
  obtain ⟨first, before, built, earlier, rfl⟩ := reached
  refine ⟨first, before ++ as, built, fun a member => ?_, ?_⟩
  · exact (List.mem_append.mp member).elim (earlier a) (all a)
  · rw [Controller.run, Controller.run, Controller.run, List.foldl_append]

theorem settings_of_reached {env : μ → β → β} {allowed : Action μ → Prop} {blocks : Trio β}
    {board : Board} {c : Controller β} (reached : Reached env allowed blocks board c) :
    c.settings = board.settings := by
  obtain ⟨first, as, built, -, rfl⟩ := reached
  rw [settings_run]
  exact (new_eq_ok blocks board first built).2.1

end Controller

end SerialBus
