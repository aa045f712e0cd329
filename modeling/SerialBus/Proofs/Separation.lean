import SerialBus.Proofs.Refusals
import SerialBus.Proofs.Run.Course

namespace SerialBus

open Simulator (Move)

variable {β μ ρ : Type}

def Action.block? : Action μ → Option PeripheralId
  | init id _ | initInto _ id _ | handleIrq id | onEvent id _ | onFault id _ | move id _ => some id
  | initIndex index _ => PeripheralId.ofIndex? index
  | reset h | takeCompletion h | submit h .. | transmit h .. | receive h .. | transceive h ..
  | execute h .. => h.id

namespace Session

/-- An action, or a question about a block. -/
inductive Operation (μ : Type)
  | act (a : Action μ)
  | stateOf (h : Handle)
  | runtime (id : PeripheralId)

inductive Reply (ρ : Type)
  | bound (result : Except TransferError Handle)
  | reset (result : Except TransferError Unit)
  | taken (result : Except TransferError (Option Completion))
  | transfer (result : Except Failure Unit)
  | state (result : Except TransferError Lifecycle)
  | runtime (r : Engine.Runtime)
  | moved (result : ρ)
  | nothing

namespace Operation

def block? : Operation μ → Option PeripheralId
  | act a => a.block?
  | stateOf h => h.id
  | runtime id => some id

def Concerns (o : Operation μ) (id : PeripheralId) : Prop :=
  ∀ other, o.block? = some other → other = id

end Operation

end Session

theorem Handle.id_of_check {h : Handle} {id : PeripheralId} (named : h.check = .ok id) :
    h.id = some id := by
  unfold check at named
  split at named
  · cases named
  · rename_i other same
    split at named
    · cases named
      exact same
    · cases named

theorem Handle.names_of_elsewhere {h : Handle} {id : PeripheralId} (elsewhere : h.id ≠ some id) :
    h.names id = false := by
  rw [names, beq_eq_false_iff_ne.mpr elsewhere, Bool.false_and]

namespace Action

theorem block?_of_request {a : Action μ} {r : Request} (request : a.request? = some r) :
    a.block? = r.handle.id := by
  cases a with
  | submit | transmit | receive | transceive =>
    cases request
    rfl
  | execute h segments tx rx callbacks =>
    obtain ⟨t, -, rfl⟩ := Option.map_eq_some_iff.mp request
    rfl
  | _ => cases request

theorem stimulus?_of_elsewhere {a : Action μ} {id : PeripheralId} (elsewhere : a.block? ≠ some id) :
    a.stimulus? id = none := by
  cases request : a.request? with
  | some r =>
    rw [block?_of_request request] at elsewhere
    rw [Controller.stimulus?_of_request a r id request, Handle.names_of_elsewhere elsewhere]
    rfl
  | none =>
    cases a with
    | init | handleIrq | onEvent | onFault | move =>
      exact if_neg fun same => elsewhere (congrArg some same)
    | initIndex index slave => exact if_neg elsewhere
    | initInto h other slave => exact if_neg fun same => elsewhere (congrArg some same.2)
    | reset h | takeCompletion h =>
      rw [stimulus?, Handle.names_of_elsewhere elsewhere]
      rfl
    | execute h segments tx rx callbacks => simp only [stimulus?, request]
    | submit | transmit | receive | transceive => cases request

end Action

namespace Controller

variable [RegisterBlock β]

def perform (env : μ → β → β) (c : Controller β) : Session.Operation μ → Controller β
  | .act a => c.act env a
  | .stateOf _ | .runtime _ => c

def replyTo (shown : μ → β → ρ) (c : Controller β) : Session.Operation μ → Session.Reply ρ
  | .act (.init id slave) => .bound (c.init id slave).1
  | .act (.initIndex index slave) => .bound (c.initIndex index slave).1
  | .act (.initInto h id slave) => .bound (c.initInto h id slave).1
  | .act (.reset h) => .reset (c.reset h).1
  | .act (.takeCompletion h) => .taken (c.takeCompletion h).1
  | .act (.move id m) => .moved (shown m (c.engine id).host.block)
  | .act a =>
    match c.reply? a with
    | some result => .transfer result
    | none => .nothing
  | .stateOf h => .state (c.stateOf h)
  | .runtime id => .runtime (c.runtime id)

structure AgreeAt (id : PeripheralId) (c d : Controller β) : Prop where
  engine : c.engine id = d.engine id
  settings : c.settings = d.settings

omit [RegisterBlock β] in
theorem AgreeAt.refl (id : PeripheralId) (c : Controller β) : AgreeAt id c c := ⟨rfl, rfl⟩

theorem AgreeAt.act_own {id : PeripheralId} {c d : Controller β} (agree : AgreeAt id c d)
    (env : μ → β → β) (a : Action μ) : AgreeAt id (c.act env a) (d.act env a) := by
  constructor
  · rw [engine_act, engine_act, agree.engine, agree.settings]
  · rw [settings_act, settings_act, agree.settings]

theorem AgreeAt.perform_own {id : PeripheralId} {c d : Controller β} (agree : AgreeAt id c d)
    (env : μ → β → β) (o : Session.Operation μ) :
    AgreeAt id (c.perform env o) (d.perform env o) := by
  cases o with
  | act a => exact agree.act_own env a
  | stateOf | runtime => exact agree

theorem agreeAt_perform_other {id other : PeripheralId} (apart : id ≠ other) (env : μ → β → β)
    (c : Controller β) (o : Session.Operation μ) (concerns : o.Concerns other) :
    AgreeAt id (c.perform env o) c := by
  cases o with
  | act a =>
    have unseen : a.stimulus? id = none :=
      Action.stimulus?_of_elsewhere fun same => apart (concerns id same)
    refine ⟨?_, settings_act env c a⟩
    rw [perform, engine_act, unseen]
  | stateOf | runtime => exact .refl id c

theorem AgreeAt.submit {id : PeripheralId} {c d : Controller β} (agree : AgreeAt id c d)
    (r : Request) (own : ∀ other, r.handle.id = some other → other = id) :
    (c.submit r.handle r.transaction r.callbacks).1 =
      (d.submit r.handle r.transaction r.callbacks).1 := by
  rcases check_cases r.handle with ⟨other, named, -⟩ | ⟨err, unnamed, -⟩
  · obtain rfl := own other (Handle.id_of_check named)
    rw [c.submit_of_named r other named, d.submit_of_named r other named, agree.engine,
      agree.settings]
  · rw [c.submit_of_unnamed r err unnamed, d.submit_of_unnamed r err unnamed]

theorem AgreeAt.init {id : PeripheralId} {c d : Controller β} (agree : AgreeAt id c d)
    (slave : Slave) : (c.init id slave).1 = (d.init id slave).1 := by
  rw [init_answer, init_answer, agree.engine, agree.settings]

theorem AgreeAt.reply? {id : PeripheralId} {c d : Controller β} (agree : AgreeAt id c d)
    (a : Action μ) (own : (Session.Operation.act a).Concerns id) : c.reply? a = d.reply? a := by
  cases a with
  | submit h t callbacks => exact congrArg some (agree.submit ⟨h, t, callbacks⟩ own)
  | transmit h tx len callbacks => exact congrArg some (agree.submit ⟨h, .tx tx len, callbacks⟩ own)
  | receive h rx len callbacks => exact congrArg some (agree.submit ⟨h, .rx rx len, callbacks⟩ own)
  | transceive h tx rx len callbacks =>
    exact congrArg some (agree.submit ⟨h, .bidir tx rx len, callbacks⟩ own)
  | execute h segments tx rx callbacks =>
    simp only [Controller.reply?, execute]
    cases Transaction.generic segments tx rx with
    | error failure => rfl
    | ok t => exact congrArg some (agree.submit ⟨h, t, callbacks⟩ own)
  | _ => rfl

theorem AgreeAt.replyTo {id : PeripheralId} {c d : Controller β} (agree : AgreeAt id c d)
    (shown : μ → β → ρ) (o : Session.Operation μ) (own : o.Concerns id) :
    c.replyTo shown o = d.replyTo shown o := by
  cases o with
  | stateOf h =>
    simp only [Controller.replyTo, stateOf]
    cases named : h.check with
    | error err => rfl
    | ok other =>
      obtain rfl := own other (Handle.id_of_check named)
      simp only [Except.map, agree.engine]
  | runtime other =>
    obtain rfl := own other rfl
    simp only [Controller.replyTo, runtime, agree.engine]
  | act a =>
    have transfer := agree.reply? a own
    cases a with
    | init other slave =>
      obtain rfl := own other rfl
      exact congrArg Session.Reply.bound (agree.init slave)
    | initIndex index slave =>
      simp only [Controller.replyTo, initIndex]
      cases named : PeripheralId.ofIndex? index with
      | none => rfl
      | some other =>
        obtain rfl := own other named
        exact congrArg Session.Reply.bound (agree.init slave)
    | initInto h other slave =>
      obtain rfl := own other rfl
      simp only [Controller.replyTo, initInto]
      split
      · rfl
      · exact congrArg Session.Reply.bound (agree.init slave)
    | reset h =>
      simp only [Controller.replyTo, reset]
      split <;> rfl
    | takeCompletion h =>
      simp only [Controller.replyTo, takeCompletion]
      cases named : h.check with
      | error err => rfl
      | ok other =>
        obtain rfl := own other (Handle.id_of_check named)
        simp only [agree.engine]
    | move other m =>
      obtain rfl := own other rfl
      simp only [Controller.replyTo, agree.engine]
    | _ => simp only [Controller.replyTo, transfer]

end Controller

structure Session (β ρ : Type) where
  controller : Controller β
  told : Trio (List (Session.Reply ρ))

namespace Session

/-- An operation on a block, which may hang on what was told about the earlier ones, such as the
    handle that the block was bound with. -/
structure Turn (μ ρ : Type) where
  id : PeripheralId
  next : List (Reply ρ) → Operation μ

def Turn.Apt (turn : Turn μ ρ) : Prop := ∀ told, (turn.next told).Concerns turn.id

def Turn.on (id : PeripheralId) (turns : List (Turn μ ρ)) : List (Turn μ ρ) :=
  turns.filter fun turn => turn.id = id

def start (c : Controller β) : Session β ρ where
  controller := c
  told := ⟨[], [], []⟩

structure AgreeAt (id : PeripheralId) (s t : Session β ρ) : Prop where
  controller : s.controller.AgreeAt id t.controller
  told : s.told.get id = t.told.get id

theorem AgreeAt.refl (id : PeripheralId) (s : Session β ρ) : AgreeAt id s s :=
  ⟨.refl id s.controller, rfl⟩

theorem AgreeAt.symm {id : PeripheralId} {s t : Session β ρ} (agree : AgreeAt id s t) :
    AgreeAt id t s :=
  ⟨⟨agree.controller.engine.symm, agree.controller.settings.symm⟩, agree.told.symm⟩

theorem AgreeAt.trans {id : PeripheralId} {s t u : Session β ρ} (first : AgreeAt id s t)
    (second : AgreeAt id t u) : AgreeAt id s u :=
  ⟨⟨first.controller.engine.trans second.controller.engine,
    first.controller.settings.trans second.controller.settings⟩, first.told.trans second.told⟩

theorem eq_of_agree {s t : Session β ρ} (agree : ∀ id, AgreeAt id s t) : s = t := by
  have told : s.told = t.told := Trio.ext_get fun id => (agree id).told
  have engines : s.controller.engines = t.controller.engines :=
    Trio.ext_get fun id => (agree id).controller.engine
  have settings := (agree .host).controller.settings
  rcases s with ⟨⟨_, _⟩, _⟩
  rcases t with ⟨⟨_, _⟩, _⟩
  cases told
  cases engines
  cases settings
  rfl

variable [RegisterBlock β]

def take (env : μ → β → β) (shown : μ → β → ρ) (s : Session β ρ) (turn : Turn μ ρ) :
    Session β ρ :=
  let told := s.told.get turn.id
  let o := turn.next told
  { controller := s.controller.perform env o
    told := s.told.set turn.id (told ++ [s.controller.replyTo shown o]) }

def play (env : μ → β → β) (shown : μ → β → ρ) (s : Session β ρ) (turns : List (Turn μ ρ)) :
    Session β ρ :=
  turns.foldl (take env shown) s

variable {env : μ → β → β} {shown : μ → β → ρ}

theorem AgreeAt.take_own {s t : Session β ρ} (turn : Turn μ ρ) (apt : turn.Apt)
    (agree : AgreeAt turn.id s t) :
    AgreeAt turn.id (s.take env shown turn) (t.take env shown turn) := by
  have reply := agree.controller.replyTo shown (turn.next (t.told.get turn.id)) (apt _)
  constructor
  · simp only [take, agree.told]
    exact agree.controller.perform_own env _
  · simp only [take, Trio.get_set_self, agree.told, reply]

theorem agreeAt_take_other {id : PeripheralId} (s : Session β ρ) (turn : Turn μ ρ)
    (apt : turn.Apt) (apart : turn.id ≠ id) : AgreeAt id (s.take env shown turn) s := by
  constructor
  · exact Controller.agreeAt_perform_other apart.symm env s.controller _ (apt _)
  · exact s.told.get_set_of_ne _ apart.symm

theorem AgreeAt.play_own {id : PeripheralId} {s t : Session β ρ} (agree : AgreeAt id s t)
    (env : μ → β → β) (shown : μ → β → ρ) (turns : List (Turn μ ρ))
    (apt : ∀ turn ∈ turns, turn.Apt) :
    AgreeAt id (s.play env shown turns) (t.play env shown (Turn.on id turns)) := by
  -- The induction is on all turns; the second session takes only those on the block.
  induction turns generalizing s t with
  | nil => exact agree
  | cons turn turns ih =>
    have rest := fun later member => apt later (List.mem_cons_of_mem turn member)
    have first := apt turn List.mem_cons_self
    by_cases same : turn.id = id
    · subst same
      rw [Turn.on, List.filter_cons_of_pos (by simp)]
      exact ih (agree.take_own turn first) rest
    · rw [Turn.on, List.filter_cons_of_neg (by simpa using same)]
      exact ih ((agreeAt_take_other s turn first same).trans agree) rest

theorem play_congr (s : Session β ρ) (turns others : List (Turn μ ρ))
    (apt : ∀ turn ∈ turns, turn.Apt) (apts : ∀ turn ∈ others, turn.Apt)
    (same : ∀ id, Turn.on id turns = Turn.on id others) :
    s.play env shown turns = s.play env shown others := by
  apply eq_of_agree
  intro id
  have first := (AgreeAt.refl id s).play_own env shown turns apt
  have second := (AgreeAt.refl id s).play_own env shown others apts
  rw [same id] at first
  exact first.trans second.symm

theorem Turn.on_on (id other : PeripheralId) (turns : List (Turn μ ρ)) :
    on id (on other turns) = if other = id then on id turns else [] := by
  unfold on
  rw [List.filter_filter]
  split
  · rename_i same
    subst same
    simp only [Bool.and_self]
  · rename_i apart
    rw [List.filter_eq_nil_iff]
    intro turn _ both
    simp only [Bool.and_eq_true, decide_eq_true_eq] at both
    exact apart (both.2.symm.trans both.1)

theorem Turn.on_flatMap (turns : List (Turn μ ρ)) (id : PeripheralId)
    (order : List PeripheralId) :
    on id (order.flatMap fun other => on other turns) =
      (List.replicate (order.count id) (on id turns)).flatten := by
  induction order with
  | nil => rfl
  | cons first order ih =>
    have parts : on id (on first turns ++ order.flatMap fun other => on other turns) =
        on id (on first turns) ++ on id (order.flatMap fun other => on other turns) :=
      List.filter_append _ _
    rw [List.flatMap_cons, parts, ih, on_on]
    by_cases same : first = id
    · subst same
      rw [if_pos rfl, List.count_cons_self, List.replicate_succ, List.flatten_cons]
    · rw [if_neg same, List.count_cons_of_ne same, List.nil_append]

end Session

/-- However operations on the blocks are interleaved, the answers to them, the engines and the
    blocks come out as if all those on one block had been made before all those on the next, in any
    order of the blocks, and on each block as if they had been made on it alone. -/
theorem blocks_do_not_interfere [RegisterBlock β] (env : μ → β → β) (shown : μ → β → ρ)
    (c : Controller β) (turns : List (Session.Turn μ ρ)) (apt : ∀ turn ∈ turns, turn.Apt)
    (order : List PeripheralId) (each : order.Perm PeripheralId.all) :
    let together := (Session.start c).play env shown turns
    let apart :=
      (Session.start c).play env shown (order.flatMap fun id => Session.Turn.on id turns)
    together = apart ∧
      ∀ id,
        let alone := (Session.start c).play env shown (Session.Turn.on id turns)
        together.told.get id = alone.told.get id ∧
          together.controller.engine id = alone.controller.engine id := by
  intro together apart
  constructor
  · apply Session.play_congr
    · exact apt
    · intro turn member
      obtain ⟨id, -, own⟩ := List.mem_flatMap.mp member
      exact apt turn (List.mem_filter.mp own).1
    · intro id
      have once : order.count id = 1 := (each.count_eq id).trans (by cases id <;> rfl)
      rw [Session.Turn.on_flatMap, once]
      exact (List.append_nil _).symm
  · intro id alone
    have agree := (Session.AgreeAt.refl id (Session.start c)).play_own env shown turns apt
    exact ⟨agree.told, agree.controller.engine⟩

namespace Session

def Reply.handle? : Reply ρ → Option Handle
  | .bound (.ok h) => some h
  | _ => none

def handle (id : PeripheralId) (told : List (Reply ρ)) : Handle :=
  ((told.filterMap Reply.handle?).find? fun h => h.id = some id).getD .blank

theorem handle_id (id : PeripheralId) (told : List (Reply ρ)) (other : PeripheralId)
    (named : (handle id told).id = some other) : other = id := by
  unfold handle at named
  cases found : (told.filterMap Reply.handle?).find? fun h => h.id = some id with
  | none =>
    rw [found] at named
    cases named
  | some h =>
    have own : h.id = some id := by simpa using List.find?_some found
    rw [found] at named
    exact Option.some.inj (named.symm.trans own)

def sending (id : PeripheralId) (w : Word) : List (Turn Move ρ) :=
  [⟨id, fun _ => .act (.init id { freq := 10000000 })⟩,
    ⟨id, fun told => .act (.transmit (handle id told) { words := [w] } 4 {})⟩,
    ⟨id, fun _ => .act (.move id .tick)⟩,
    ⟨id, fun _ => .act (.handleIrq id)⟩,
    ⟨id, fun told => .act (.takeCompletion (handle id told))⟩]

theorem sending_apt (id : PeripheralId) (w : Word) :
    ∀ turn ∈ (sending id w : List (Turn Move ρ)), turn.Apt := by
  intro turn member told other named
  simp only [sending, List.mem_cons, List.not_mem_nil, or_false] at member
  rcases member with rfl | rfl | rfl | rfl | rfl
  · exact (Option.some.inj named).symm
  · exact handle_id id told other named
  · exact (Option.some.inj named).symm
  · exact (Option.some.inj named).symm
  · exact handle_id id told other named

end Session

theorem blocks_do_not_interfere_bench :
    let shown : Move → Simulator → Bool := fun m s => m = .tick && s.tick.1
    let one := Session.sending .host 5
    let two := Session.sending .host2 7
    let turns := one.take 2 ++ two.take 3 ++ Session.sending .flash 9 ++ one.drop 2 ++ two.drop 3
    let start := Session.start Controller.bench
    let together := start.play Simulator.apply shown turns
    together = start.play Simulator.apply shown
        ([.host2, .flash, .host].flatMap fun id => Session.Turn.on id turns) ∧
      together.told.get .host = (start.play Simulator.apply shown one).told.get .host ∧
      (together.controller.block .host).sent = [5] ∧
      (together.controller.block .host2).sent = [7] := by
  intro shown one two turns start together
  have apt : ∀ turn ∈ turns, turn.Apt := by
    intro turn member
    simp only [turns, List.mem_append] at member
    rcases member with (((first | second) | third) | first) | second
    · exact Session.sending_apt .host 5 turn (List.mem_of_mem_take first)
    · exact Session.sending_apt .host2 7 turn (List.mem_of_mem_take second)
    · exact Session.sending_apt .flash 9 turn third
    · exact Session.sending_apt .host 5 turn (List.mem_of_mem_drop first)
    · exact Session.sending_apt .host2 7 turn (List.mem_of_mem_drop second)
  obtain ⟨same, alone⟩ := blocks_do_not_interfere Simulator.apply shown Controller.bench turns apt
    [.host2, .flash, .host] (by decide)
  exact ⟨same, (alone .host).1, by decide +kernel, by decide +kernel⟩

end SerialBus
