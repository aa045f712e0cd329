import SerialBus.MemoryBlock
import SerialBus.Proofs.Engine.Slot
import SerialBus.Proofs.Run.Projection

namespace SerialBus

def Action.takes {μ : Type} (id : PeripheralId) : Action μ → Bool
  | .takeCompletion h => h.names id
  | _ => false

theorem Action.takes_iff {μ : Type} (a : Action μ) (id : PeripheralId) :
    a.takes id = true ↔ a.stimulus? id = some .take := by
  constructor
  · intro takes
    cases a with
    | takeCompletion h => exact if_pos takes
    | _ => cases takes
  · intro stimulus
    have kind := Controller.kind?_of_stimulus a stimulus
    cases a with
    | takeCompletion h =>
      simp only [stimulus?] at stimulus
      split at stimulus
      · assumption
      · cases stimulus
    | execute =>
      obtain ⟨r, -, same⟩ := Option.map_eq_some_iff.mp kind
      cases same
    | _ => cases kind

namespace Controller

variable {β μ : Type} [RegisterBlock β]

/-- The launches on a block during a run, and what its clients are told about them. -/
def journal (env : μ → β → β) (id : PeripheralId) : Controller β → List (Action μ) → List Report
  | _, [] => []
  | c, a :: as =>
    ((c.launched? id a).map Report.launched).toList ++
      (c.engine id).told ((c.act env a).engine id) ++ journal env id (c.act env a) as

theorem answered_act (env : μ → β → β) (c : Controller β) (a : Action μ) (id : PeripheralId)
    (block : (c.engine id).id = id) (r : Option Request) (owing : (c.engine id).Owing r) :
    ∃ s, ((c.act env a).engine id).id = id ∧ ((c.act env a).engine id).Owing s ∧
      Answered id r (((c.launched? id a).map Report.launched).toList ++
        (c.engine id).told ((c.act env a).engine id)) s := by
  rw [engine_act, launched?_eq]
  cases stimulus : a.stimulus? id with
  | none =>
    refine ⟨r, block, owing, ?_⟩
    rw [Engine.told_of_notices [] (by simp) rfl]
    exact .nil r
  | some st =>
    rcases Engine.settles_respond env c.settings owing st with
      ⟨s, settled, refused⟩ | ⟨q, rfl, accepted, rfl, settled⟩
    · refine ⟨s, settled.block.trans block, settled.owing, ?_⟩
      have reports := settled.reports
      rw [block] at reports
      cases st with
      | submit q =>
        simp only [refused q rfl, Bool.false_eq_true, if_false, Option.map_none, Option.toList_none,
          List.nil_append]
        exact reports
      | _ => exact reports
    · refine ⟨some q, settled.block.trans block, settled.owing, ?_⟩
      have reports := settled.reports
      rw [block] at reports
      simp only [accepted, if_true, Option.map_some, Option.toList_some, List.singleton_append]
      exact .launched q reports

theorem answered_run (env : μ → β → β) (c : Controller β) (as : List (Action μ))
    (id : PeripheralId) (block : (c.engine id).id = id) (r : Option Request)
    (owing : (c.engine id).Owing r) :
    ∃ s, ((c.run env as).engine id).id = id ∧ ((c.run env as).engine id).Owing s ∧
      Answered id r (c.journal env id as) s := by
  induction as generalizing c r with
  | nil => exact ⟨r, block, owing, .nil r⟩
  | cons a as ih =>
    obtain ⟨middle, kept, owes, first⟩ := answered_act env c a id block r owing
    obtain ⟨s, same, last, rest⟩ := ih (c.act env a) kept middle owes
    exact ⟨s, same, last, first.append rest⟩

theorem answered_of_new (env : μ → β → β) (blocks : Trio β) (board : Board) (c : Controller β)
    (built : Controller.new blocks board = .ok c) (as : List (Action μ)) (id : PeripheralId) :
    ∃ s, ((c.run env as).engine id).id = id ∧ ((c.run env as).engine id).Owing s ∧
      Answered id none (c.journal env id as) s := by
  obtain ⟨-, -, engines⟩ := new_eq_ok blocks board c built
  apply answered_run env c as id (by rw [engines]) none
  rw [engines]
  exact Lifecycle.noConfusion

theorem id_of_reached (id : PeripheralId) {env : μ → β → β} {allowed : Action μ → Prop}
    {blocks : Trio β} {board : Board} {c : Controller β}
    (reached : Reached env allowed blocks board c) (as : List (Action μ)) :
    ((c.run env as).engine id).id = id := by
  obtain ⟨first, before, built, -, rfl⟩ := reached
  obtain ⟨-, same, -⟩ := answered_of_new env blocks board first built (before ++ as) id
  rw [run, List.foldl_append] at same
  exact same

/-- A completion lies in the slot of a block, where a client who takes it finds it. -/
structure Parked (id : PeripheralId) (done : Completion) (c : Controller β) : Prop where
  slot : (c.engine id).parked = some done
  taken : ∀ h : Handle, h.names id = true → (c.takeCompletion h).1 = .ok (some done)

omit [RegisterBlock β] in
theorem takeCompletion_of_names (c : Controller β) (h : Handle) (id : PeripheralId)
    (names : h.names id = true) : (c.takeCompletion h).1 = .ok (c.engine id).parked := by
  rcases check_cases h with ⟨other, named, same⟩ | ⟨err, -, unnamed⟩
  · rw [same] at names
    cases of_decide_eq_true names
    simp only [takeCompletion, named, Engine.takeCompletion]
  · rw [unnamed] at names
    cases names

omit [RegisterBlock β] in
theorem Parked.of_slot {c : Controller β} {id : PeripheralId} {done : Completion}
    (slot : (c.engine id).parked = some done) : c.Parked id done :=
  ⟨slot, fun h names => (c.takeCompletion_of_names h id names).trans (congrArg Except.ok slot)⟩

theorem parks_act (env : μ → β → β) (c : Controller β) (a : Action μ) (id : PeripheralId)
    (untaken : a.takes id = false) :
    ∃ done : Option Completion,
      Engine.Parks done.toList (c.engine id) ((c.act env a).engine id) := by
  rw [engine_act]
  cases stimulus : a.stimulus? id with
  | none => exact ⟨none, .none ⟨rfl, rfl⟩⟩
  | some st =>
    refine Engine.parks_respond env c.settings _ st fun take => ?_
    rw [take] at stimulus
    rw [(a.takes_iff id).mpr stimulus] at untaken
    cases untaken

theorem takes_act (env : μ → β → β) (c : Controller β) (a : Action μ) (id : PeripheralId)
    (takes : a.takes id = true) :
    ((c.act env a).engine id).parked = none ∧
      (c.engine id).told ((c.act env a).engine id) = [] := by
  have after : (c.act env a).engine id = (c.engine id).takeCompletion.2 := by
    rw [engine_act, (a.takes_iff id).mp takes]
    rfl
  rw [after]
  exact ⟨rfl, Engine.told_of_notices [] (List.append_nil _).symm rfl⟩

/-- What lies in the slot of a block after an action: what the action parked there, or else what lay
    there before, unless the action took it. -/
theorem slot_act (env : μ → β → β) (c : Controller β) (a : Action μ) (id : PeripheralId) :
    ((c.act env a).engine id).parked =
      (((c.engine id).told ((c.act env a).engine id)).filterMap Report.completion?).getLast?.or
        (if a.takes id then none else (c.engine id).parked) := by
  cases takes : a.takes id with
  | true =>
    obtain ⟨emptied, silent⟩ := c.takes_act env a id takes
    rw [emptied, silent]
    rfl
  | false =>
    obtain ⟨done, parks⟩ := c.parks_act env a id takes
    rw [parks.parked, parks.told]
    rfl

section Told

variable {env : μ → β → β} {c : Controller β} {a : Action μ} {id other : PeripheralId}
  {callbacks : Callbacks} {b : Buffers}

theorem parked_of_told {done : Completion}
    (told : .parked done ∈ (c.engine id).told ((c.act env a).engine id)) :
    (c.act env a).Parked id done := by
  cases takes : a.takes id with
  | true =>
    rw [(c.takes_act env a id takes).2] at told
    cases told
  | false =>
    obtain ⟨newest, parks⟩ := c.parks_act env a id takes
    exact .of_slot (parks.parked_of_told told)

theorem parked_of_success
    (told : (c.engine id).told ((c.act env a).engine id) = [.success other callbacks b])
    (unnamed : callbacks.onDone = none) : (c.act env a).Parked id ⟨.ok (), b⟩ := by
  rw [Report.success_of_none unnamed] at told
  exact parked_of_told (told ▸ List.mem_singleton_self _)

theorem parked_of_failure {faults : Faults}
    (told : (c.engine id).told ((c.act env a).engine id) = [.failure other callbacks faults b])
    (unnamed : callbacks.onError = none) : (c.act env a).Parked id ⟨.error faults, b⟩ := by
  rw [Report.failure_of_none unnamed] at told
  exact parked_of_told (told ▸ List.mem_singleton_self _)

end Told

/-- On each block, every launch has one end, which is told to the client of that launch with its own
    buffers; only the transaction that is still running has none yet. An end that is told by parking
    it lies in the slot of the block after the action that ends the transaction, and nothing else
    changes the slot but to take what lies there. -/
theorem launches_answered_once (env : μ → β → β) (blocks : Trio β) (board : Board)
    (c : Controller β) (built : Controller.new blocks board = .ok c) (as : List (Action μ))
    (id : PeripheralId) :
    ∃ waiting, Answered id none (c.journal env id as) waiting ∧
      ((c.run env as).engine id).Owing waiting ∧
      (c.journal env id as).countP Report.isLaunch =
        (c.journal env id as).countP Report.isFinal +
          (if ((c.run env as).engine id).state.isBusy then 1 else 0) ∧
      ∀ before a after, as = before ++ a :: after →
        let d := c.run env before
        let told := (d.engine id).told ((d.act env a).engine id)
        (∀ done, .parked done ∈ told → (d.act env a).Parked id done) ∧
          ((d.act env a).engine id).parked =
            (told.filterMap Report.completion?).getLast?.or
              (if a.takes id then none else (d.engine id).parked) := by
  obtain ⟨waiting, -, owing, answered⟩ := answered_of_new env blocks board c built as id
  refine ⟨waiting, answered, owing, ?_, fun before a _ _ =>
    ⟨fun _ => parked_of_told, slot_act env (c.run env before) a id⟩⟩
  have busy : ((c.run env as).engine id).state.isBusy = waiting.isSome := by
    cases waiting with
    | none => exact (Lifecycle.isBusy_eq_false_iff _).mpr owing
    | some r => rw [owing.busy]; rfl
  have balance := answered.balance
  rw [busy]
  simpa using balance

theorem launches_answered_once_memory :
    let blocks := Trio.ofFn fun _ => MemoryBlock.ofWords []
    let env := fun (w : Word) (m : MemoryBlock) => m.poke 5 w
    let sent : List (Action Word) :=
      [.move .host 0x80000000, .init .host { freq := 10000000 },
        .transmit { id := some .host, isInit := true } { words := [1, 2] } 8 {}]
    let run := sent ++ [.onFault .host Faults.cmdBusy]
    let lent : Buffers := { tx := some { words := [1, 2] }, txLen := 2 }
    ∃ c, Controller.new blocks {} = .ok c ∧
      (c.journal env .host run).countP Report.isLaunch = 1 ∧
      ((c.run env sent).act env (.onFault .host Faults.cmdBusy)).Parked .host
        ⟨.error Faults.cmdBusy, lent⟩ ∧
      ∃ waiting, Answered .host none (c.journal env .host run) waiting ∧
        ((c.run env run).engine .host).Owing waiting ∧
        (c.journal env .host run).countP Report.isLaunch =
          (c.journal env .host run).countP Report.isFinal +
            if ((c.run env run).engine .host).state.isBusy then 1 else 0 := by
  intro blocks env sent run lent
  refine ⟨_, rfl, by decide +kernel, ?_⟩
  obtain ⟨waiting, answered, owing, count, slots⟩ :=
    launches_answered_once env blocks {} _ rfl run .host
  refine ⟨(slots sent _ [] rfl).1 _ ?_, waiting, answered, owing, count⟩
  generalize built : Controller.run env _ sent = d
  have busy : (d.engine .host).state = .busy := by
    rw [← built]
    decide +kernel
  have aborted : (d.act env (.onFault .host Faults.cmdBusy)).engine .host =
      (d.engine .host).abort Faults.cmdBusy := by
    rw [engine_act]
    exact (d.engine .host).onFault_of_busy Faults.cmdBusy busy
  have callbacks : (d.engine .host).callbacks = {} := by
    rw [← built]
    decide +kernel
  have back : (d.engine .host).lent = lent := by
    rw [← built]
    decide +kernel
  rw [aborted, Engine.told_abort _ Faults.cmdBusy busy, callbacks, back]
  exact List.mem_singleton_self _

end Controller

end SerialBus
