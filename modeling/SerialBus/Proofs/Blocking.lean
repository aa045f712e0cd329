import SerialBus.Proofs.Run.Waiting

namespace SerialBus

namespace Answered

variable {id : PeripheralId} {r : Request} {rs : List Report} {last : Option Request}

theorem first_of_silent (answered : Answered id (some r) rs last) (silent : r.callbacks = {}) :
    (rs = [] ∧ last = some r) ∨
      ∃ done rest, rs = .parked done :: rest ∧ r.transaction.buffers.Same done.buffers ∧
        Answered id none rest last := by
  cases answered with
  | nil => exact .inl ⟨rfl, rfl⟩
  | interim _ called next =>
    cases called with
    | txWatermark routine b cursors named own =>
      rw [silent] at named
      cases named
    | rxWatermark routine b cursors named own =>
      rw [silent] at named
      cases named
  | final _ ended next =>
    cases ended with
    | success b own =>
      rw [silent]
      exact .inr ⟨⟨.ok (), b⟩, _, rfl, own, next⟩
    | failure faults b own =>
      rw [silent]
      exact .inr ⟨⟨.error faults, b⟩, _, rfl, own, next⟩

theorem nil_of_no_launch (answered : Answered id none rs last)
    (none : ∀ report ∈ rs, report.isLaunch = false) : rs = [] := by
  cases answered with
  | nil => rfl
  | launched q next => exact absurd (none _ List.mem_cons_self) Bool.noConfusion

end Answered

namespace Action

variable {μ : Type}

def isQuiet : Action μ → Bool
  | move .. | handleIrq _ => true
  | _ => false

theorem takes_of_quiet (a : Action μ) (quiet : a.isQuiet = true) (id : PeripheralId) :
    a.takes id = false := by
  cases a with
  | move | handleIrq => rfl
  | _ => cases quiet

theorem request?_of_quiet (a : Action μ) (quiet : a.isQuiet = true) : a.request? = none := by
  cases a with
  | move | handleIrq => rfl
  | _ => cases quiet

def leaves (id : PeripheralId) (a : Action μ) : Bool :=
  !a.takes id && a.request?.all fun r => !r.handle.names id

theorem leaves_of_quiet (a : Action μ) (quiet : a.isQuiet = true) (id : PeripheralId) :
    a.leaves id = true := by
  rw [leaves, a.takes_of_quiet quiet id, a.request?_of_quiet quiet]
  rfl

theorem takes_of_leaves {a : Action μ} {id : PeripheralId} (left : a.leaves id = true) :
    a.takes id = false := by
  rw [leaves, Bool.and_eq_true, Bool.not_eq_true'] at left
  exact left.1

end Action

namespace Controller

variable {β μ ω : Type} [RegisterBlock β] {env : μ → β → β} {c : Controller β}
  {id : PeripheralId}

omit [RegisterBlock β] in
theorem names_of_check {h : Handle} (named : h.check = .ok id) : h.names id = true := by
  rcases check_cases h with ⟨other, same, names⟩ | ⟨err, unnamed, -⟩
  · cases same.symm.trans named
    rw [names, decide_eq_true rfl]
  · cases unnamed.symm.trans named

theorem check_of_accepted {h : Handle} {t : Transaction} {callbacks : Callbacks}
    {d : Controller β} (accepted : c.submit h t callbacks = (.ok (), d))
    (block : h.id = some id) : h.check = .ok id := by
  cases used : h.isInit with
  | true => simp only [Handle.check, block, used, if_true]
  | false =>
    have unnamed : h.check = .error .notInit := by
      simp only [Handle.check, block, used, Bool.false_eq_true, if_false]
    cases (c.submit_of_unnamed ⟨h, t, callbacks⟩ _ unnamed).symm.trans accepted

theorem owes_of_accepted {h : Handle} {t : Transaction} {callbacks : Callbacks}
    {d : Controller β} (named : h.check = .ok id)
    (accepted : c.submit h t callbacks = (.ok (), d)) :
    (d.engine id).Owes ⟨h, t, callbacks⟩ ∧ (d.engine id).id = (c.engine id).id := by
  obtain ⟨taken, rfl⟩ :=
    Prod.mk.inj ((c.submit_of_named ⟨h, t, callbacks⟩ id named).symm.trans accepted)
  rw [engine_setEngine, if_pos rfl]
  rcases (c.engine id).submit_cases c.settings ⟨h, t, callbacks⟩ with
    ⟨-, host, cursors, launched⟩ | ⟨failure, refused⟩ | ⟨-, failure, host, refused | refused⟩
  · rw [launched]
    exact ⟨⟨rfl, ⟨_, rfl, .refl _⟩, rfl⟩, rfl⟩
  · rw [refused] at taken
    cases taken
  · rw [refused] at taken
    cases taken
  · rw [refused] at taken
    cases taken

theorem launched?_of_leaves (c : Controller β) {id : PeripheralId} {a : Action μ}
    (left : a.leaves id = true) : c.launched? id a = none := by
  rw [Action.leaves, Bool.and_eq_true] at left
  rw [launched?]
  cases request : a.request? with
  | none => rfl
  | some r =>
    have other := left.2
    rw [request, Option.all_some, Bool.not_eq_true'] at other
    rw [Option.filter_some, other]
    rfl

theorem no_launch_of_left (env : μ → β → β) (c : Controller β) (id : PeripheralId)
    (as : List (Action μ)) (left : ∀ a ∈ as, a.leaves id = true) :
    ∀ report ∈ c.journal env id as, report.isLaunch = false := by
  induction as generalizing c with
  | nil => exact fun report member => nomatch member
  | cons a as ih =>
    have none := c.launched?_of_leaves (left a List.mem_cons_self)
    intro report member
    rw [journal, none, Option.map_none, Option.toList_none, List.nil_append,
      List.mem_append] at member
    rcases member with told | later
    · exact Engine.isLaunch_of_told told
    · exact ih (c.act env a) (fun b member => left b (List.mem_cons_of_mem a member)) report later

theorem parkings_of_silent (env : μ → β → β) {r : Request} (silent : r.callbacks = {})
    (block : (c.engine id).id = id) (owes : (c.engine id).Owes r) (during : List (Action μ)) :
    ∃ waiting, Answered id (some r) (c.journal env id during) waiting ∧
      (((c.run env during).engine id).state ≠ .busy →
        ∃ own others, c.parkings env id during = own :: others ∧
          r.transaction.buffers.Same own.buffers ∧
          ((∀ a ∈ during, a.leaves id = true) → others = [])) := by
  obtain ⟨waiting, -, owing, answered⟩ := answered_run env c during id block (some r) owes
  refine ⟨waiting, answered, fun free => ?_⟩
  rcases answered.first_of_silent silent with ⟨-, rfl⟩ | ⟨own, rest, told, same, next⟩
  · exact absurd owing.busy free
  · refine ⟨own, rest.filterMap Report.completion?, ?_, same, fun left => ?_⟩
    · rw [parkings, told]
      rfl
    · have none := c.no_launch_of_left env id during left
      rw [told] at none
      rw [next.nil_of_no_launch fun report member => none report (List.mem_cons_of_mem _ member)]
      rfl

theorem parked_of_silent (env : μ → β → β) {r : Request} (silent : r.callbacks = {})
    (block : (c.engine id).id = id) (owes : (c.engine id).Owes r) (during : List (Action μ))
    (left : ∀ a ∈ during, a.leaves id = true)
    (free : ((c.run env during).engine id).state ≠ .busy) :
    ∃ done, r.transaction.buffers.Same done.buffers ∧
      ((c.run env during).engine id).parked = some done := by
  obtain ⟨-, -, ended⟩ := parkings_of_silent env silent block owes during
  obtain ⟨own, others, ends, lent, alone⟩ := ended free
  have parks := c.parks_run env during id fun a member => Action.takes_of_leaves (left a member)
  rw [ends, alone left] at parks
  exact ⟨own, lent, parks.parked⟩

theorem newest_of_parked {during : List (Action μ)} {own done : Completion}
    {others : List Completion} (ends : c.parkings env id during = own :: others)
    (slot : ((c.run env during).engine id).parked = some done) :
    done = (own :: others).getLast (List.cons_ne_nil own others) := by
  have parked := c.parked_run env during id
  have last := congrArg List.getLast? parked
  rw [slot, ends, Option.toList_some, List.getLast?_append, List.getLast?_append,
    List.getLast?_eq_some_getLast (List.cons_ne_nil own others)] at last
  exact (Option.some.inj last).symm

end Controller

namespace Blocking

variable {β μ ω : Type} [RegisterBlock β]

def look (h : Handle) (s : Controller β × ω) :
    Option (Except TransferError Completion) × Controller β × ω :=
  ((collect s.1 h).1, (collect s.1 h).2, s.2)

omit [RegisterBlock β] in
theorem collect_of_busy {c : Controller β} {h : Handle} {id : PeripheralId}
    (named : h.check = .ok id) (busy : (c.engine id).state = .busy) : collect c h = (none, c) := by
  simp only [collect, Controller.stateOf, named, Except.map, busy, Lifecycle.isBusy, if_true]

omit [RegisterBlock β] in
theorem collect_of_free {c : Controller β} {h : Handle} {id : PeripheralId}
    (named : h.check = .ok id) (free : (c.engine id).state ≠ .busy) :
    collect c h =
      (match (c.engine id).parked with
        | some done => some (.ok done)
        | none => some (.error .busy),
      (c.takeCompletion h).2) := by
  have idle := (c.engine id).state.isBusy_eq_false_iff.mpr free
  simp only [collect, Controller.stateOf, named, Except.map, idle, Bool.false_eq_true, if_false,
    Controller.takeCompletion, Engine.takeCompletion]
  cases (c.engine id).parked <;> rfl

omit [RegisterBlock β] in
theorem peeks_look (h : Handle) : Wait.Peeks (look (β := β) (ω := ω) h) := by
  rintro ⟨c, o⟩ none
  rcases Controller.check_cases h with ⟨id, named, -⟩ | ⟨err, unnamed, -⟩
  · by_cases busy : (c.engine id).state = .busy
    · simp only [look, collect_of_busy named busy]
    · simp only [look, collect_of_free named busy] at none
      cases slot : (c.engine id).parked <;> rw [slot] at none <;> cases none
  · simp only [look, collect, Controller.stateOf, unnamed, Except.map] at none
    cases none

theorem run_of_refused (w : Wait (Controller β × ω)) {h : Handle} {t : Transaction}
    {c d : Controller β} {failure : Failure} (refused : c.submit h t {} = (.error failure, d))
    (o : ω) : run w h t (c, o) = (.error failure, d, o) := by
  simp only [run, refused]

theorem run_of_accepted (w : Wait (Controller β × ω)) {h : Handle} {t : Transaction}
    {c d : Controller β} (accepted : c.submit h t {} = (.ok (), d)) (o : ω) :
    run w h t (c, o) =
      (result (w.poll (look h) (d, o)).1, (w.poll (look h) (d, o)).2) := by
  simp only [run, accepted]
  rfl

def fetched (slot : Option Completion) : Except Failure Buffers :=
  match slot with
  | some done => result (some (.ok done))
  | none => .error ⟨.busy, {}⟩

omit [RegisterBlock β] in
theorem look_of_free {h : Handle} {id : PeripheralId} {s : Controller β × ω}
    (named : h.check = .ok id) (free : (s.1.engine id).state ≠ .busy) :
    (look h s).1.isSome = true ∧
      (result (look h s).1, (look h s).2) =
        (fetched (s.1.engine id).parked, (s.1.takeCompletion h).2, s.2) := by
  rw [look, collect_of_free named free]
  cases (s.1.engine id).parked <;> exact ⟨rfl, rfl⟩

theorem run_cases {c started : Controller β} {h : Handle} {t : Transaction} {id : PeripheralId}
    (named : h.check = .ok id) (accepted : c.submit h t {} = (.ok (), started))
    (w : Wait (Controller β × ω)) (o : ω) :
    (∃ k ≤ w.limit,
        let last := w.after k (started, o)
        (last.1.engine id).state ≠ .busy ∧
          run w h t (c, o) =
            (fetched (last.1.engine id).parked, (last.1.takeCompletion h).2, last.2)) ∨
      ∃ k, run w h t (c, o) = (.error ⟨.busy, {}⟩, w.after k (started, o)) ∧
        w.GivesUp k (started, o) := by
  rw [run_of_accepted w accepted o]
  rcases w.poll_cases (peeks_look h) (started, o) with ⟨k, bound, found, poll⟩ | ⟨k, poll, up⟩
  · have free : ((w.after k (started, o)).1.engine id).state ≠ .busy := by
      intro busy
      rw [look, collect_of_busy named busy] at found
      cases found
    rw [poll]
    exact .inl ⟨k, bound, free, (look_of_free named free).2⟩
  · rw [poll]
    exact .inr ⟨k, rfl, up⟩

/-- A call that was accepted comes back with the newest completion that was parked on its block
    since, whatever happens during its wait. The first of these is its own, with its own buffers,
    and each of the others ends a transaction that somebody else launched meanwhile without a
    routine. In every other case it comes back with nothing, since the completion was taken or the
    wait was given up. -/
theorem blocking_returns_newest {μ : Type} (env : μ → β → β) {allowed : Action μ → Prop}
    {blocks : Trio β} {board : Board} {c : Controller β}
    (reached : Controller.Reached env allowed blocks board c) (w : Wait (Controller β × ω))
    (plays : Controller.Plays env (fun _ : Action μ => True) w) (h : Handle) (t : Transaction)
    (o : ω) (id : PeripheralId) (block : h.id = some id) (started : Controller β)
    (accepted : c.submit h t {} = (.ok (), started)) :
    ∃ (k : Nat) (during : List (Action μ)) (waiting : Option Request),
      let last := w.after k (started, o)
      let ends := started.parkings env id during
      last.1 = started.run env during ∧
        Answered id (some ⟨h, t, {}⟩) (started.journal env id during) waiting ∧
        ((∃ own others, ends = own :: others ∧ t.buffers.Same own.buffers ∧
            run w h t (c, o) =
              (result (some (.ok ((own :: others).getLast (List.cons_ne_nil own others)))),
                (last.1.takeCompletion h).2, last.2)) ∨
          ((run w h t (c, o)).1 = .error ⟨.busy, {}⟩ ∧
            ((∃ a ∈ during, a.takes id = true) ∨ w.GivesUp k (started, o)))) := by
  have named := Controller.check_of_accepted accepted block
  obtain ⟨owes, same⟩ := Controller.owes_of_accepted named accepted
  have place : (started.engine id).id = id :=
    same.trans (Controller.id_of_reached id reached [])
  rcases run_cases named accepted w o with ⟨k, -, free, ran⟩ | ⟨k, ran, up⟩
  · obtain ⟨during, -, played⟩ := plays.after k (started, o)
    obtain ⟨waiting, answered, ended⟩ :=
      Controller.parkings_of_silent env rfl place owes during
    rw [played] at free
    obtain ⟨own, others, ends, lent, -⟩ := ended free
    refine ⟨k, during, waiting, played, answered, ?_⟩
    rw [ran, played]
    cases slot : ((started.run env during).engine id).parked with
    | some done =>
      rw [Controller.newest_of_parked ends slot]
      exact .inl ⟨own, others, ends, lent, rfl⟩
    | none =>
      refine .inr ⟨rfl, .inl ?_⟩
      -- what was parked is only gone if somebody took it
      by_contra untaken
      have parks := started.parks_run env during id fun a member =>
        Bool.eq_false_iff.mpr fun takes => untaken ⟨a, member, takes⟩
      have kept := parks.parked
      rw [slot, ends, List.getLast?_eq_some_getLast (List.cons_ne_nil own others)] at kept
      cases kept
  · obtain ⟨during, -, played⟩ := plays.after k (started, o)
    obtain ⟨waiting, answered, -⟩ :=
      Controller.parkings_of_silent env rfl place owes during
    exact ⟨k, during, waiting, played, answered, .inr ⟨by rw [ran], .inr up⟩⟩

def playing (as : List (Action Simulator.Move)) : Wait (Controller Simulator × Unit) where
  pause s := (true, s.1.run Simulator.apply as, ())
  limit := 1

theorem plays_playing {allowed : Action Simulator.Move → Prop}
    (as : List (Action Simulator.Move)) (all : ∀ a ∈ as, allowed a) :
    Controller.Plays Simulator.apply allowed (playing as) :=
  fun _ => ⟨as, all, rfl⟩

/-- Between the end of a transaction and the look for it, a client of another slave on the same
    block sends a word and names no routine. -/
def intrusion : List (Action Simulator.Move) :=
  [.move .host .tick, .handleIrq .host,
    .transmit { Controller.benchHandle with slave := { csid := 1 } }
      { address := 2, words := [9] } 4 {},
    .move .host .tick, .handleIrq .host]

theorem blocking_returns_newest_intruded :
    let t : Transaction := .tx { address := 1, words := [1] } 4
    let answer := (run (playing intrusion) Controller.benchHandle t (Controller.fitted, ())).1
    answer = .ok ⟨some { address := 2, words := [9] }, 1, none, 0⟩ ∧
      ∃ own others, t.buffers.Same own.buffers ∧
        answer = result (some (.ok ((own :: others).getLast (List.cons_ne_nil own others)))) := by
  intro t answer
  have other : answer = .ok ⟨some { address := 2, words := [9] }, 1, none, 0⟩ := by
    decide +kernel
  refine ⟨other, ?_⟩
  obtain ⟨k, during, waiting, -, -, returned | ⟨nothing, -⟩⟩ :=
    blocking_returns_newest Simulator.apply (Controller.fitted_reached (fun _ => True) trivial)
      (playing intrusion) (plays_playing intrusion fun _ _ => trivial) Controller.benchHandle t ()
      .host rfl _ (Prod.ext (by decide +kernel) rfl)
  · obtain ⟨own, others, -, lent, ran⟩ := returned
    exact ⟨own, others, lent, congrArg Prod.fst ran⟩
  · cases other.symm.trans nothing

/-- A call that waits may come back with the buffers of another client. -/
theorem not_every_call_returns_own :
    ¬ ∀ (c : Controller Simulator) (w : Wait (Controller Simulator × Unit)) (h : Handle)
      (t : Transaction) (b : Buffers),
      Controller.Reached Simulator.apply (fun a => a.undisturbed = true)
        (Controller.freshBlocks fun _ => {}) {} c →
      Controller.Plays Simulator.apply (fun a => a.undisturbed = true) w →
      (run w h t (c, ())).1 = .ok b → t.buffers.Same b := by
  intro own
  have same := own Controller.fitted (playing intrusion) Controller.benchHandle
    (.tx { address := 1, words := [1] } 4) ⟨some { address := 2, words := [9] }, 1, none, 0⟩
    (Controller.fitted_reached _ rfl)
    (plays_playing intrusion (by simp [intrusion, Action.undisturbed])) (by decide +kernel)
  have lent := same.tx
  revert lent
  decide

inductive Call
  | transmit (tx : Buffer) (len : UInt32)
  | receive (rx : Buffer) (len : UInt32)
  | transceive (tx rx : Buffer) (len : UInt32)
  | execute (segments : List Segment) (tx rx : Option Buffer)

namespace Call

def transaction : Call → Except Failure Transaction
  | transmit tx len => .ok (.tx tx len)
  | receive rx len => .ok (.rx rx len)
  | transceive tx rx len => .ok (.bidir tx rx len)
  | execute segments tx rx => Transaction.generic segments tx rx

def start (c : Controller β) (h : Handle) : Call → Except Failure Unit × Controller β
  | transmit tx len => c.transmit h tx len {}
  | receive rx len => c.receive h rx len {}
  | transceive tx rx len => c.transceive h tx rx len {}
  | execute segments tx rx => c.execute h segments tx rx {}

def block (w : Wait (Controller β × ω)) (h : Handle) (s : Controller β × ω) :
    Call → Except Failure Buffers × Controller β × ω
  | transmit tx len => Blocking.transmit w h tx len s
  | receive rx len => Blocking.receive w h rx len s
  | transceive tx rx len => Blocking.transceive w h tx rx len s
  | execute segments tx rx => Blocking.execute w h segments tx rx s

theorem start_eq (call : Call) (c : Controller β) (h : Handle) :
    call.start c h =
      match call.transaction with
      | .error failure => (.error failure, c)
      | .ok t => c.submit h t {} := by
  cases call <;> rfl

theorem block_eq (call : Call) (w : Wait (Controller β × ω)) (h : Handle)
    (s : Controller β × ω) :
    call.block w h s =
      match call.transaction with
      | .error failure => (.error failure, s)
      | .ok t => run w h t s := by
  cases call <;> rfl

end Call

theorem parked_after {μ : Type} {env : μ → β → β} {c started : Controller β}
    {w : Wait (Controller β × ω)} {h : Handle} {t : Transaction} {o : ω} {id : PeripheralId}
    (plays : Controller.Plays env (fun a : Action μ => a.leaves id = true) w)
    (place : (c.engine id).id = id) (named : h.check = .ok id)
    (accepted : c.submit h t {} = (.ok (), started)) (k : Nat)
    (free : ((w.after k (started, o)).1.engine id).state ≠ .busy) :
    ∃ done, t.buffers.Same done.buffers ∧
      ((w.after k (started, o)).1.engine id).parked = some done := by
  obtain ⟨owes, same⟩ := Controller.owes_of_accepted named accepted
  obtain ⟨during, left, played⟩ := plays.after k (started, o)
  rw [played] at free ⊢
  exact Controller.parked_of_silent env rfl (same.trans place) owes during left free

theorem run_of_quiet {μ : Type} {env : μ → β → β} {c started : Controller β}
    {w : Wait (Controller β × ω)} (patient : ∀ s, (w.pause s).1 = true)
    (plays : Controller.Plays env (fun a : Action μ => a.isQuiet = true) w) {h : Handle}
    {t : Transaction} {o : ω} {id : PeripheralId} {k : Nat} (place : (c.engine id).id = id)
    (block : h.id = some id) (accepted : c.submit h t {} = (.ok (), started))
    (bound : k ≤ w.limit) (busy : ∀ j < k, ((w.after j (started, o)).1.engine id).state = .busy)
    (free : ((w.after k (started, o)).1.engine id).state ≠ .busy) :
    let last := w.after k (started, o)
    ∃ done, t.buffers.Same done.buffers ∧ (last.1.takeCompletion h).1 = .ok (some done) ∧
      run w h t (c, o) = (result (some (.ok done)), (last.1.takeCompletion h).2, last.2) := by
  intro last
  have named := Controller.check_of_accepted accepted block
  obtain ⟨own, lent, slot⟩ := parked_after (plays.mono fun a quiet => a.leaves_of_quiet quiet id)
    place named accepted k free
  have missed (j : Nat) (less : j < k) :
      look h (w.after j (started, o)) = (none, w.after j (started, o)) := by
    rw [look, collect_of_busy named (busy j less)]
  obtain ⟨found, looked⟩ := look_of_free (s := last) named free
  refine ⟨own, lent, ?_, ?_⟩
  · rw [last.1.takeCompletion_of_names h id (Controller.names_of_check named), slot]
  · rw [run_of_accepted w accepted o, w.poll_of_first patient k (started, o) bound missed found,
      looked, slot]
    rfl

/-- As long as nothing but the hardware and the interrupt handler runs during its wait, a call that
    waits does what the transfer without routines, the same pauses and a take of the completion do:
    the answer, the controller with its blocks, and the surroundings are the same. What is refused
    is refused without a pause. The completion is the one of the call, also where an older one lay in
    the slot, so it never comes back with nothing. -/
theorem blocking_eq_start_then_take {μ : Type} (env : μ → β → β) {allowed : Action μ → Prop}
    {blocks : Trio β} {board : Board} {c : Controller β}
    (reached : Controller.Reached env allowed blocks board c) (w : Wait (Controller β × ω))
    (patient : ∀ s, (w.pause s).1 = true)
    (plays : Controller.Plays env (fun a : Action μ => a.isQuiet = true) w) (h : Handle)
    (call : Call) (o : ω) :
    (∀ failure d, call.start c h = (.error failure, d) →
        call.block w h (c, o) = (.error failure, d, o)) ∧
      ∀ started id k, call.start c h = (.ok (), started) → h.id = some id → k ≤ w.limit →
        (∀ j < k, ((w.after j (started, o)).1.engine id).state = .busy) →
        ((w.after k (started, o)).1.engine id).state ≠ .busy →
        let last := w.after k (started, o)
        ∃ t done, call.transaction = .ok t ∧ t.buffers.Same done.buffers ∧
          (last.1.takeCompletion h).1 = .ok (some done) ∧
          call.block w h (c, o) =
            (match done.outcome with
              | .ok () => .ok done.buffers
              | .error faults => .error ⟨.hardware faults, done.buffers⟩,
            (last.1.takeCompletion h).2, last.2) ∧
          (call.block w h (c, o)).1 ≠ .error ⟨.busy, {}⟩ := by
  rw [call.start_eq, call.block_eq]
  cases call.transaction with
  | error failure =>
    refine ⟨fun other d refused => ?_, fun started id k accepted => ?_⟩
    · cases refused
      rfl
    · cases accepted
  | ok t =>
    refine ⟨fun failure d refused => run_of_refused w refused o, ?_⟩
    intro started id k accepted block bound busy free last
    have place : (c.engine id).id = id := Controller.id_of_reached id reached []
    obtain ⟨⟨outcome, buffers⟩, lent, taken, ran⟩ :=
      run_of_quiet patient plays place block accepted bound busy free
    refine ⟨t, ⟨outcome, buffers⟩, rfl, lent, taken, ran.trans ?_, ?_⟩
    · cases outcome <;> rfl
    · simp only [ran]
      cases outcome <;> simp [result]

theorem blocking_eq_start_then_take_stale :
    let c := Controller.fitted.run Simulator.apply (Controller.sending 5)
    let w := playing [.move .host .tick, .move .host (.inject 4), .handleIrq .host]
    let call : Call := .transmit { words := [1, 2] } 8
    let started := (call.start c Controller.benchHandle).2
    (c.engine .host).parked.isSome = true ∧
      ∃ done, (started.run Simulator.apply
            [.move .host .tick, .move .host (.inject 4), .handleIrq .host]
          |>.takeCompletion Controller.benchHandle).1 = .ok (some done) ∧
        (call.block w Controller.benchHandle (c, ())).1 =
          (match done.outcome with
            | .ok () => .ok done.buffers
            | .error faults => .error ⟨.hardware faults, done.buffers⟩) ∧
        (call.block w Controller.benchHandle (c, ())).1 =
          .error ⟨.hardware Faults.underflow, ⟨some { words := [1, 2] }, 2, none, 0⟩⟩ := by
  intro c w call started
  have reached : Controller.Reached Simulator.apply (fun a => a.undisturbed = true)
      (Controller.freshBlocks fun _ => {}) {} c :=
    ⟨Controller.bench, .init .host { freq := 10000000 } :: Controller.sending 5, rfl,
      by simp [Controller.sending, Action.undisturbed], rfl⟩
  obtain ⟨-, equal⟩ := blocking_eq_start_then_take Simulator.apply reached w (fun _ => rfl)
    (plays_playing _ (by simp [Action.isQuiet])) Controller.benchHandle call ()
  obtain ⟨t, done, -, -, taken, ran, -⟩ := equal started .host 1
    (Prod.ext (by decide +kernel) rfl) rfl (Nat.le_refl 1) (fun j less => by
      obtain rfl : j = 0 := by omega
      decide +kernel)
    (by decide +kernel)
  exact ⟨by decide +kernel, done, taken, congrArg Prod.fst ran, by decide +kernel⟩

end Blocking

end SerialBus
