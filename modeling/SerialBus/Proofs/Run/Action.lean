import SerialBus.Controller.Binding
import SerialBus.Controller.Service
import SerialBus.Controller.Transfer

namespace SerialBus

structure Request where
  handle : Handle
  transaction : Transaction
  callbacks : Callbacks
  deriving DecidableEq, Repr

/-- One thing that happens, where the hardware makes moves of the kind `μ`. -/
inductive Action (μ : Type)
  | init (id : PeripheralId) (slave : Slave)
  | initIndex (index : Nat) (slave : Slave)
  | initInto (h : Handle) (id : PeripheralId) (slave : Slave)
  | reset (h : Handle)
  | takeCompletion (h : Handle)
  | submit (h : Handle) (t : Transaction) (callbacks : Callbacks)
  | transmit (h : Handle) (tx : Buffer) (len : UInt32) (callbacks : Callbacks)
  | receive (h : Handle) (rx : Buffer) (len : UInt32) (callbacks : Callbacks)
  | transceive (h : Handle) (tx rx : Buffer) (len : UInt32) (callbacks : Callbacks)
  | execute (h : Handle) (segments : List Segment) (tx rx : Option Buffer) (callbacks : Callbacks)
  | handleIrq (id : PeripheralId)
  | onEvent (id : PeripheralId) (events : Events)
  | onFault (id : PeripheralId) (faults : Faults)
  | move (id : PeripheralId) (m : μ)

/-- What happens to one block. -/
inductive Stimulus (μ : Type)
  | bind (slave : Slave)
  | reset
  | take
  | submit (r : Request)
  | interrupt
  | event (events : Events)
  | fault (faults : Faults)
  | move (m : μ)

variable {β μ : Type}

def Handle.names (h : Handle) (id : PeripheralId) : Bool := h.id == some id && h.isInit

namespace Action

/-- The request that an action makes. A list of segments that is refused makes none. -/
def request? : Action μ → Option Request
  | submit h t callbacks => some ⟨h, t, callbacks⟩
  | transmit h tx len callbacks => some ⟨h, .tx tx len, callbacks⟩
  | receive h rx len callbacks => some ⟨h, .rx rx len, callbacks⟩
  | transceive h tx rx len callbacks => some ⟨h, .bidir tx rx len, callbacks⟩
  | execute h segments tx rx callbacks =>
    (Transaction.generic segments tx rx).toOption.map fun t => ⟨h, t, callbacks⟩
  | _ => none

def stimulus? (id : PeripheralId) : Action μ → Option (Stimulus μ)
  | init other slave => if other = id then some (.bind slave) else none
  | initIndex index slave =>
    if PeripheralId.ofIndex? index = some id then some (.bind slave) else none
  | initInto h other slave => if h.isInit = false ∧ other = id then some (.bind slave) else none
  | reset h => if h.names id then some .reset else none
  | takeCompletion h => if h.names id then some .take else none
  | handleIrq other => if other = id then some .interrupt else none
  | onEvent other events => if other = id then some (.event events) else none
  | onFault other faults => if other = id then some (.fault faults) else none
  | move other m => if other = id then some (.move m) else none
  | a =>
    match a.request? with
    | some r => if r.handle.names id then some (.submit r) else none
    | none => none

end Action

variable [RegisterBlock β]

namespace Engine

def bind (e : Engine β) (settings : Settings) (slave : Slave) : Engine β :=
  match slave.validate e.host.limits.lines settings.clock with
  | .error _ => e
  | .ok _ =>
    match Controller.enableHost e.host with
    | (.error _, host) => { e with host }
    | (.ok (), host) => { e with host }.reach .initialized

def checkLaunch (e : Engine β) (t : Transaction) : Except TransferError Unit :=
  if e.state.isBusy then .error .busy
  else if e.state.canLaunch = false then .error .notInit
  else t.validate

def submit (e : Engine β) (settings : Settings) (r : Request) : Except Failure Unit × Engine β :=
  match e.checkLaunch r.transaction with
  | .error err => (.error ⟨err, r.transaction.buffers⟩, e)
  | .ok () =>
    match e.setSlave r.handle with
    | (.error err, e) => (.error ⟨err, r.transaction.buffers⟩, e)
    | (.ok (), e) => e.launch settings r.transaction r.callbacks

def drive (e : Engine β) (irq : Interrupt) : Engine β :=
  let e := if irq.faults.isEmpty then e else e.onFault irq.faults
  if irq.events.isEmpty then e else e.onEvent irq.events

def handleIrq (e : Engine β) : Engine β :=
  let (irq, host) := Interrupt.take e.host
  { e with host }.drive irq

def respond (env : μ → β → β) (settings : Settings) (e : Engine β) : Stimulus μ → Engine β
  | .bind slave => e.bind settings slave
  | .reset => { e with host := e.host.softReset }
  | .take => e.takeCompletion.2
  | .submit r => (e.submit settings r).2
  | .interrupt => e.handleIrq
  | .event events => e.onEvent events
  | .fault faults => e.onFault faults
  | .move m => { e with host := { e.host with block := env m e.host.block } }

end Engine

namespace Controller

def act (env : μ → β → β) (c : Controller β) : Action μ → Controller β
  | .init id slave => (c.init id slave).2
  | .initIndex index slave => (c.initIndex index slave).2
  | .initInto h id slave => (c.initInto h id slave).2
  | .reset h => (c.reset h).2
  | .takeCompletion h => (c.takeCompletion h).2
  | .submit h t callbacks => (c.submit h t callbacks).2
  | .transmit h tx len callbacks => (c.transmit h tx len callbacks).2
  | .receive h rx len callbacks => (c.receive h rx len callbacks).2
  | .transceive h tx rx len callbacks => (c.transceive h tx rx len callbacks).2
  | .execute h segments tx rx callbacks => (c.execute h segments tx rx callbacks).2
  | .handleIrq id => c.handleIrq id
  | .onEvent id events => c.onEvent id events
  | .onFault id faults => c.onFault id faults
  | .move id m => c.moveBlock id (env m)

def run (env : μ → β → β) (c : Controller β) (as : List (Action μ)) : Controller β :=
  as.foldl (act env) c

/-- The request with which an action launches a transaction on the block `id`. -/
def launched? (c : Controller β) (id : PeripheralId) (a : Action μ) : Option Request :=
  a.request?.filter fun r =>
    r.handle.names id && (c.submit r.handle r.transaction r.callbacks).1.isOk

/-- The block `id` is busy at the start of a run and after each of its actions. -/
def BusyThrough (env : μ → β → β) (id : PeripheralId) : Controller β → List (Action μ) → Prop
  | c, [] => (c.engine id).state = .busy
  | c, a :: as => (c.engine id).state = .busy ∧ BusyThrough env id (c.act env a) as

instance decidableBusyThrough (env : μ → β → β) (id : PeripheralId) :
    (c : Controller β) → (as : List (Action μ)) → Decidable (BusyThrough env id c as)
  | c, [] => inferInstanceAs (Decidable ((c.engine id).state = .busy))
  | c, a :: as =>
    have := decidableBusyThrough env id (c.act env a) as
    inferInstanceAs (Decidable (_ ∧ _))

/-- A controller that a run of allowed actions leads to, over blocks as they are at first. -/
def Reached (env : μ → β → β) (allowed : Action μ → Prop) (blocks : Trio β) (board : Board)
    (c : Controller β) : Prop :=
  ∃ first as, Controller.new blocks board = .ok first ∧ (∀ a ∈ as, allowed a) ∧
    c = first.run env as

/-- From `c` on, `call` launches the transaction of `r` on the block `id`, it runs through `during`,
    and `last` ends it. -/
structure Course (env : μ → β → β) (id : PeripheralId) (c : Controller β) (r : Request)
    (call : Action μ) (during : List (Action μ)) (last : Action μ) : Prop where
  launched : c.launched? id call = some r
  running : BusyThrough env id (c.act env call) during
  ended : (((c.run env (call :: during)).act env last).engine id).state ≠ .busy

end Controller

end SerialBus
