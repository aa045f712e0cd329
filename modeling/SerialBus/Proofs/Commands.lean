import SerialBus.MemoryBlock
import SerialBus.Proofs.Engine.Image
import SerialBus.Proofs.Engine.Issuing

namespace SerialBus

section Notes

variable {α β μ : Type} {note : Access → Option α}

def Engine.unnoted (e : Engine (Noted note β)) : Engine β := e.map Noted.block e.parked

theorem Engine.unnoted_respond [RegisterBlock β] (e : Engine (Noted note β)) (env : μ → β → β)
    (settings : Settings) (st : Stimulus μ) :
    e.unnoted.respond env settings st = (e.respond (Noted.lift env) settings st).unnoted := by
  have moves (m : μ) (n : Noted note β) : env m n.block = (Noted.lift env m n).block := rfl
  obtain ⟨q, same, parked⟩ := mirrors_respond Noted.image e.parked e moves settings st
  rw [unnoted, same, parked (.inl rfl)]
  rfl

theorem Controller.run_unnoted [RegisterBlock β] (env : μ → β → β)
    (c : Controller (Noted note β)) (d : Controller β) (settings : d.settings = c.settings)
    (same : ∀ id, d.engine id = (c.engine id).unnoted) (as : List (Action μ))
    (id : PeripheralId) :
    (d.run env as).engine id = ((c.run (Noted.lift env) as).engine id).unnoted := by
  induction as generalizing c d with
  | nil => exact same id
  | cons a as ih =>
    refine ih (c.act (Noted.lift env) a) (d.act env a) ?_ fun other => ?_
    · rw [settings_act, settings_act, settings]
    · rw [engine_act, engine_act, same other, settings]
      cases a.stimulus? other with
      | none => rfl
      | some st => exact (c.engine other).unnoted_respond env c.settings st

end Notes

namespace Controller

variable {β μ : Type} [RegisterBlock β] {limits : PeripheralId → Limits} {id : PeripheralId}
  {c : Controller (Noted Access.command? β)} {before : List Word} {r : Request}

theorem Kept.issuing_launched (kept : Kept limits c) (env : μ → β → β) (call : Action μ)
    (launched : c.launched? id call = some r) :
    Engine.Issuing (c.engine id).host.block.notes r (limits id)
      ((c.act (Noted.lift env) call).engine id) := by
  have accepted := engine_launched (Noted.lift env) launched
  have issuing := Engine.Issuing.of_submit (kept.sound id) r (kept.recorded id).host
    (by rw [accepted]; rfl)
  rw [accepted] at issuing
  exact issuing

theorem advances_act (issuing : Engine.Issuing before r (limits id) (c.engine id))
    (env : μ → β → β) (a : Action μ) :
    Engine.Advances before r (limits id) (c.engine id)
      ((c.act (Noted.lift env) a).engine id) := by
  exact c.engine_keeps (Noted.lift env) a id (.on issuing) fun st _ =>
    issuing.respond env c.settings st

theorem issuing_run (issuing : Engine.Issuing before r (limits id) (c.engine id))
    (env : μ → β → β) (as : List (Action μ)) (busy : BusyThrough (Noted.lift env) id c as) :
    Engine.Issuing before r (limits id) ((c.run (Noted.lift env) as).engine id) := by
  induction as generalizing c with
  | nil => exact issuing
  | cons a as ih =>
    have after := busy.2.busy
    cases advances_act issuing env a with
    | on issuing => exact ih issuing busy.2
    | done free | failed free => exact absurd after free

/-- While a transaction runs, the commands that were written for it are the first ones of its
    segments, each once and as many as the cursor says; an attempt to issue the next one that the
    block refuses for now makes one look at the status and leaves the cursor. When the transaction
    ends no more of them is written, and if it is told as a success all were. -/
theorem commands_in_order (env : μ → β → β) (blocks : Trio (Noted Access.command? β))
    (board : Board) (reached : Reached (Noted.lift env) (fun _ => True) blocks board c)
    (call : Action μ) (during : List (Action μ)) (launched : c.launched? id call = some r)
    (running : BusyThrough (Noted.lift env) id (c.act (Noted.lift env) call) during) :
    let words := r.transaction.commands
    let before := (c.engine id).host.block.notes
    let d := c.run (Noted.lift env) (call :: during)
    let e := d.engine id
    e.host.block.notes = before ++ words.take e.cursors.segment ∧
      e.cursors.segment ≤ words.length ∧
      (∀ err, e.issueNext.1 = .error err → (err = .commandFull ∨ err = .notReady) ∧
        e.issueNext.2 = { e with host := e.host.status.2 } ∧
        e.issueNext.2.host.block.notes = e.host.block.notes) ∧
      ∀ last, let f := (d.act (Noted.lift env) last).engine id
        f.state ≠ .busy →
          f.host.block.notes = e.host.block.notes ∧
          ∀ b, e.told f = [.success id r.callbacks b] → f.host.block.notes = before ++ words := by
  intro words before d e
  obtain ⟨first, as, built, -, rfl⟩ := reached
  have kept := (kept_new blocks board built).run (Noted.lift env) as
  have issuing : Engine.Issuing before r (board.hosts.get id) e :=
    issuing_run (kept.issuing_launched env call launched) env during running
  have length : words.length = r.transaction.segments.length := r.transaction.length_commands
  obtain ⟨t, runs, -, within⟩ := issuing.going.running
  have bound : e.cursors.segment ≤ words.length := by
    rw [length, ← issuing.segmentCount]
    simp only [Engine.segmentCount, runs]
    exact within.segment
  refine ⟨issuing.noted, bound, fun err refused => ?_, fun last => ?_⟩
  · by_cases left : e.cursors.segment < r.transaction.segments.length
    · have attempt := Engine.attempt_issueNext issuing.going issuing.owes left
      generalize e.issueNext = step at attempt refused ⊢
      cases attempt with
      | refused other why =>
        cases refused
        exact ⟨why, rfl, rfl⟩
      | issued inside => cases refused
    · have none := issuing.issueNext_none (Nat.not_lt.mp left)
      rw [none] at refused
      cases refused
  · intro f free
    rcases advances_act issuing env last with going | ⟨-, silent, all⟩ | ⟨-, silent, told⟩
    · exact absurd going.owes.busy free
    · refine ⟨silent, fun b _ => silent.trans ?_⟩
      rw [issuing.noted, all, ← length, List.take_length]
    · obtain ⟨faults, b, failed⟩ := told
      refine ⟨silent, fun d success => ?_⟩
      exact absurd (List.singleton_inj.mp (success.symm.trans failed))
        (Report.success_ne_failure _ _ _ _ _ _ _)

theorem commands_in_order_memory :
    let env := fun (w : Word) (m : MemoryBlock) => m.poke 5 w
    let blocks : Trio (Noted Access.command? MemoryBlock) :=
      .ofFn fun _ => ⟨MemoryBlock.ofWords [], []⟩
    let segments : List Segment := [.tx 4, .dummy 8]
    let tx : Buffer := { words := [7] }
    ∃ first, Controller.new blocks {} = .ok first ∧
      let c := first.run (Noted.lift env)
        [.move .host 0x80000000, .init .host { freq := 10000000 }]
      let call : Action Word :=
        .execute { id := some .host, isInit := true } segments (some tx) none
          { onDone := some ⟨64⟩ }
      let d := c.run (Noted.lift env) [call, .onEvent .host Events.ready]
      let f := d.act (Noted.lift env) (.onEvent .host (Events.ready.union Events.idle))
      (d.engine .host).cursors.segment = 2 ∧
        (f.engine .host).host.block.notes =
          (Transaction.mk segments ⟨some tx, 1, none, 0⟩).commands := by
  intro env blocks segments tx
  refine ⟨_, rfl, ?_⟩
  intro c call d f
  have launched : c.launched? .host call =
      some ⟨{ id := some .host, isInit := true }, ⟨segments, ⟨some tx, 1, none, 0⟩⟩,
        { onDone := some ⟨64⟩ }⟩ := by
    decide +kernel
  obtain ⟨-, -, -, ends⟩ := commands_in_order env blocks {} ⟨_, _, rfl, fun _ _ => trivial, rfl⟩
    call [.onEvent .host Events.ready] launched (by decide +kernel)
  obtain ⟨-, all⟩ := ends (.onEvent .host (Events.ready.union Events.idle)) (by decide +kernel)
  refine ⟨by decide +kernel, ?_⟩
  -- nothing was ever parked, for the client named a routine
  have unparked (c : Controller (Noted Access.command? MemoryBlock))
      (none : (c.engine .host).parkings.length = 0) : (c.engine .host).parkings = [] :=
    List.eq_nil_of_length_eq_zero none
  exact all ⟨some tx, 1, none, 0⟩
    (Engine.told_of_notices [.done ⟨64⟩ .host ⟨some tx, 1, none, 0⟩] (by decide +kernel)
      ((unparked f (by decide +kernel)).trans (unparked d (by decide +kernel)).symm))

end Controller

end SerialBus
