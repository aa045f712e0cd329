import SerialBus.Proofs.Engine.Slot
import SerialBus.Proofs.Run.Course

namespace SerialBus

/-- How a completion left the slot of its block. -/
inductive Departure
  | taken (done : Completion)
  | replaced (done : Completion)

namespace Departure

def completion : Departure → Completion
  | taken done | replaced done => done

def taken? : Departure → Option Completion
  | taken done => some done
  | replaced _ => none

def isReplaced : Departure → Bool
  | taken _ => false
  | replaced _ => true

theorem length_eq (gone : List Departure) :
    gone.length = (gone.filterMap taken?).length + gone.countP isReplaced := by
  induction gone with
  | nil => rfl
  | cons d rest ih =>
    cases d with
    | taken done =>
      simp only [List.length_cons, ih, List.filterMap_cons, taken?, isReplaced,
        List.countP_cons, Bool.false_eq_true, if_false]
      omega
    | replaced done =>
      simp only [List.length_cons, ih, List.filterMap_cons, taken?, isReplaced,
        List.countP_cons, if_true]
      omega

end Departure

namespace Controller

variable {β μ : Type} [RegisterBlock β]

def parkings (env : μ → β → β) (id : PeripheralId) (c : Controller β) (as : List (Action μ)) :
    List Completion :=
  (c.journal env id as).filterMap Report.completion?

def handed? (id : PeripheralId) (c : Controller β) : Action μ → Option Completion
  | .takeCompletion h =>
    if h.names id then
      match (c.takeCompletion h).1 with
      | .ok done => done
      | .error _ => none
    else none
  | _ => none

/-- What clients get who take the completion of a block during a run, in order. -/
def collected (env : μ → β → β) (id : PeripheralId) :
    Controller β → List (Action μ) → List Completion
  | _, [] => []
  | c, a :: as => (c.handed? id a).toList ++ collected env id (c.act env a) as

def departure? (env : μ → β → β) (id : PeripheralId) (c : Controller β) (a : Action μ) :
    Option Departure :=
  if a.takes id then (c.engine id).parked.map .taken
  else if (c.parkings env id [a]).isEmpty then none
  else (c.engine id).parked.map .replaced

/-- How completions leave the slot of a block during a run, in order. -/
def departures (env : μ → β → β) (id : PeripheralId) :
    Controller β → List (Action μ) → List Departure
  | _, [] => []
  | c, a :: as => (c.departure? env id a).toList ++ departures env id (c.act env a) as

theorem parkings_one (env : μ → β → β) (id : PeripheralId) (c : Controller β) (a : Action μ) :
    c.parkings env id [a] =
      ((c.engine id).told ((c.act env a).engine id)).filterMap Report.completion? := by
  have launch : (((c.launched? id a).map Report.launched).toList).filterMap
      Report.completion? = [] := by
    cases c.launched? id a <;> rfl
  simp only [parkings, journal, List.filterMap_append, launch, List.nil_append, List.append_nil]

theorem parkings_cons (env : μ → β → β) (id : PeripheralId) (c : Controller β) (a : Action μ)
    (as : List (Action μ)) :
    c.parkings env id (a :: as) =
      c.parkings env id [a] ++ (c.act env a).parkings env id as := by
  simp only [parkings, journal, List.filterMap_append, List.append_nil]

theorem parks_run (env : μ → β → β) (c : Controller β) (as : List (Action μ)) (id : PeripheralId)
    (untaken : ∀ a ∈ as, a.takes id = false) :
    Engine.Parks (c.parkings env id as) (c.engine id) ((c.run env as).engine id) := by
  induction as generalizing c with
  | nil => exact .none ⟨rfl, rfl⟩
  | cons a as ih =>
    obtain ⟨done, first⟩ := c.parks_act env a id (untaken a List.mem_cons_self)
    rw [parkings_cons, parkings_one, first.told]
    exact first.trans (ih (c.act env a) fun b member =>
      untaken b (List.mem_cons_of_mem a member))

theorem handed?_eq (env : μ → β → β) (c : Controller β) (a : Action μ) (id : PeripheralId) :
    c.handed? id a = (c.departure? env id a).bind Departure.taken? := by
  unfold departure?
  split
  · rename_i takes
    cases a with
    | takeCompletion h =>
      have names : h.names id = true := takes
      simp only [handed?, names, if_true, c.takeCompletion_of_names h id names]
      cases (c.engine id).parked <;> rfl
    | _ => cases takes
  · rename_i untaken
    have nothing : c.handed? id a = none := by
      cases a with
      | takeCompletion h => exact if_neg untaken
      | _ => rfl
    rw [nothing]
    split
    · rfl
    · cases (c.engine id).parked <;> rfl

theorem collected_eq (env : μ → β → β) (c : Controller β) (as : List (Action μ))
    (id : PeripheralId) :
    (c.departures env id as).filterMap Departure.taken? = c.collected env id as := by
  induction as generalizing c with
  | nil => rfl
  | cons a as ih =>
    rw [departures, collected, List.filterMap_append, ih, handed?_eq env]
    cases c.departure? env id a with
    | none => rfl
    | some d => cases d <;> rfl

theorem parked_act (env : μ → β → β) (c : Controller β) (a : Action μ) (id : PeripheralId) :
    (c.engine id).parked.toList ++ c.parkings env id [a] =
      (c.departure? env id a).toList.map Departure.completion ++
        ((c.act env a).engine id).parked.toList := by
  cases takes : a.takes id with
  | true =>
    obtain ⟨emptied, silent⟩ := c.takes_act env a id takes
    simp only [departure?, takes, if_true, emptied, parkings_one, silent]
    cases (c.engine id).parked <;> rfl
  | false =>
    obtain ⟨done, parks⟩ := c.parks_act env a id takes
    simp only [departure?, takes, Bool.false_eq_true, if_false, parkings_one, parks.told,
      parks.parked]
    cases done <;> cases (c.engine id).parked <;> rfl

/-- What lay in the slot of a block or was parked during a run has left the slot, in order, or lies
    there. -/
theorem parked_run (env : μ → β → β) (c : Controller β) (as : List (Action μ))
    (id : PeripheralId) :
    (c.engine id).parked.toList ++ c.parkings env id as =
      (c.departures env id as).map Departure.completion ++
        ((c.run env as).engine id).parked.toList := by
  induction as generalizing c with
  | nil => simp [parkings, journal, departures, run]
  | cons a as ih =>
    rw [parkings_cons, ← List.append_assoc, parked_act, List.append_assoc, ih (c.act env a),
      departures, List.map_append, List.append_assoc]
    rfl

/-- Each completion that is parked on a block, the end of a transaction whose client named no routine
    for it, stays in the slot of the block until a client takes it or the next one replaces it. So
    those parked are, in order, those that were taken or replaced and the one that lies there, and
    clients get exactly those that were taken. -/
theorem parked_until_taken_or_replaced (env : μ → β → β) (blocks : Trio β) (board : Board)
    (c : Controller β) (built : Controller.new blocks board = .ok c) (as : List (Action μ))
    (id : PeripheralId) :
    let dones := c.parkings env id as
    let gone := c.departures env id as
    let last := (c.run env as).engine id
    (∃ waiting, Answered id none (c.journal env id as) waiting) ∧
      dones = gone.map Departure.completion ++ last.parked.toList ∧
      gone.filterMap Departure.taken? = c.collected env id as ∧
      dones.length = (c.collected env id as).length + gone.countP Departure.isReplaced +
        (if last.parked.isSome then 1 else 0) ∧
      ∀ before after done, as = before ++ after →
        ((c.run env before).engine id).parked = some done →
        (∀ a ∈ after, a.takes id = false) → (c.run env before).parkings env id after = [] →
        last.parked = some done ∧
          ∀ h : Handle, h.names id = true →
            ((c.run env as).takeCompletion h).1 = .ok (some done) := by
  intro dones gone last
  obtain ⟨waiting, -, -, answered⟩ := answered_of_new env blocks board c built as id
  have parked := c.parked_run env as id
  rw [(new_eq_ok blocks board c built).2.2 id] at parked
  have lengths := congrArg List.length parked
  have counted := Departure.length_eq gone
  have slot : last.parked.toList.length = if last.parked.isSome then 1 else 0 := by
    cases last.parked <;> rfl
  refine ⟨⟨waiting, answered⟩, parked, c.collected_eq env as id, ?_, ?_⟩
  · simp only [Option.toList_none, List.nil_append, List.length_append, List.length_map] at lengths
    rw [← collected_eq, ← slot, ← counted]
    exact lengths
  · intro before after done split kept untaken none
    subst split
    have parks := (c.run env before).parks_run env after id untaken
    rw [none] at parks
    have stays : last.parked = some done := by
      simp only [last, run, List.foldl_append]
      exact parks.parked.trans kept
    obtain ⟨slot, taken⟩ := Parked.of_slot (c := c.run env (before ++ after)) stays
    exact ⟨slot, taken⟩

def sending (w : Word) : List (Action Simulator.Move) :=
  [.transmit benchHandle { words := [w] } 4 {}, .move .host .tick, .handleIrq .host]

theorem parked_until_taken_or_replaced_bench :
    let run := .init .host { freq := 10000000 } :: sending 1 ++ [.takeCompletion benchHandle] ++
      sending 2 ++ sending 3
    (bench.parkings Simulator.apply .host run).length = 1 + 1 + 1 ∧
      ((bench.run Simulator.apply run).engine .host).parked.map (·.buffers.outgoing) =
        some [3] := by
  intro run
  obtain ⟨-, -, -, count, -⟩ := parked_until_taken_or_replaced Simulator.apply
    (freshBlocks fun _ => {}) {} bench rfl run .host
  have taken : (bench.collected Simulator.apply .host run).length = 1 := by decide +kernel
  have replaced : (bench.departures Simulator.apply .host run).countP Departure.isReplaced = 1 := by
    decide +kernel
  have left : ((bench.run Simulator.apply run).engine .host).parked.isSome = true := by
    decide +kernel
  rw [taken, replaced, left] at count
  exact ⟨count, by decide +kernel⟩

/-- A completion that nobody took is gone once the next one is parked. -/
theorem not_every_completion_handed_back :
    ¬ ∀ (c : Controller Simulator) (as : List (Action Simulator.Move)) (id : PeripheralId),
      Controller.new (freshBlocks fun _ => {}) {} = .ok c →
      (c.parkings Simulator.apply id as).length =
        (c.collected Simulator.apply id as).length +
          if ((c.run Simulator.apply as).engine id).parked.isSome then 1 else 0 := by
  intro kept
  have count := kept bench
    (.init .host { freq := 10000000 } :: sending 1 ++ sending 2 ++ [.takeCompletion benchHandle])
    .host rfl
  revert count
  decide +kernel

end Controller

end SerialBus
