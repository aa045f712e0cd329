import SerialBus.MemoryBlock
import SerialBus.Proofs.Answers
import SerialBus.Proofs.Engine.Lending
import SerialBus.Proofs.Engine.Slot
import SerialBus.Proofs.Refusals

namespace SerialBus

variable {β μ : Type}

theorem Action.loan?_of_request (a : Action μ) (r : Request) (request : a.request? = some r) :
    a.loan? = some (r.handle, r.transaction.buffers.tx, r.transaction.buffers.rx) := by
  cases a with
  | execute h segments tx rx callbacks =>
    obtain ⟨t, made, same⟩ := Option.map_eq_some_iff.mp request
    subst same
    rcases Transaction.generic_cases segments tx rx with refused | ⟨u, taken, sends, receives⟩
    · rw [refused] at made
      cases made
    · rw [taken] at made
      cases made
      simp only [loan?, sends, receives]
  | submit | transmit | receive | transceive =>
    cases request
    rfl
  | _ => cases request

namespace Controller

variable [RegisterBlock β] {c : Controller β} {limits : PeripheralId → Limits} {id : PeripheralId}
  {r : Request}

theorem launched?_request {a : Action μ} (launched : c.launched? id a = some r) :
    a.request? = some r :=
  (Option.filter_eq_some_iff.mp launched).1

theorem Kept.lending_launched (kept : Kept limits c) (env : μ → β → β) (call : Action μ)
    (launched : c.launched? id call = some r) :
    Engine.Lending r (limits id) ((c.act env call).engine id) :=
  .of_submit (kept.sound id) (kept.recorded id).host r (engine_launched env launched)

theorem lending_run (env : μ → β → β) (as : List (Action μ))
    (lending : Engine.Lending r (limits id) (c.engine id)) (busy : BusyThrough env id c as) :
    Engine.Lending r (limits id) ((c.run env as).engine id) := by
  induction as generalizing c with
  | nil => exact lending
  | cons a as ih =>
    refine ih (c := c.act env a) ?_ busy.2
    have after := busy.2.busy
    rw [engine_act] at after ⊢
    cases stimulus : a.stimulus? id with
    | none => exact lending
    | some st =>
      rw [stimulus] at after
      cases lending.respond env c.settings st with
      | on lending => exact lending
      | ended free => exact absurd after free

theorem Kept.refunded (kept : Kept limits c) (env : μ → β → β) (a : Action μ) (h : Handle)
    (tx rx : Option Buffer) (failure : Failure) (loan : a.loan? = some (h, tx, rx))
    (refused : c.reply? a = some (.error failure)) :
    failure.buffers.tx = tx ∧ failure.buffers.rx = rx := by
  rcases c.reply_cases env a h tx rx loan with ⟨q, rfl, rfl, rfl, reply, -⟩ | ⟨reply, -⟩
  · rw [reply] at refused
    have answered := Option.some.inj refused
    rcases check_cases q.handle with ⟨other, named, -⟩ | ⟨err, unnamed, -⟩
    · rw [c.submit_of_named q other named] at answered
      have answer := Engine.submit_answer (kept.sound other) (kept.recorded other).host q
      generalize (c.engine other).submit c.settings q = result at answer answered
      cases answer <;> cases answered <;> exact ⟨rfl, rfl⟩
    · rw [c.submit_of_unnamed q err unnamed] at answered
      cases answered
      exact ⟨rfl, rfl⟩
  · rw [reply] at refused
    cases refused
    exact ⟨rfl, rfl⟩

/-- Whatever the registers read as, a transfer that is refused hands its buffers back as they were
    lent. While a transaction runs, the transmit buffer is as it was lent, the receive buffer has
    the length that it had, and its words from the receive cursor on are the caller's; the cursor
    stays within the length that was lent. When the transaction ends, its client is told once, as a
    success or as a failure, and what comes back is still spared from the cursor that was reached by
    then. -/
theorem buffers_come_back (env : μ → β → β) (blocks : Trio β) (board : Board)
    (reached : Reached env (fun _ => True) blocks board c) :
    (∀ (a : Action μ) h tx rx failure, a.loan? = some (h, tx, rx) →
        c.reply? a = some (.error failure) →
        failure.buffers.tx = tx ∧ failure.buffers.rx = rx) ∧
      ∀ id (call : Action μ) r during, c.launched? id call = some r →
        BusyThrough env id (c.act env call) during →
        let lent := r.transaction.buffers
        let d := c.run env (call :: during)
        let e := d.engine id
        call.loan? = some (r.handle, lent.tx, lent.rx) ∧
          lent.Spared e.cursors.rx e.lent ∧ e.cursors.rx ≤ lent.rxLen ∧
          ∀ last, let f := (d.act env last).engine id
            f.state ≠ .busy → ∃ st outcome, last.stimulus? id = some st ∧
              let g := e.closing st
              let report := Report.ending id r.callbacks outcome g.lent
              e.told f = [report] ∧ (∀ done, report = .parked done → f.parked = some done) ∧
                lent.Spared g.cursors.rx g.lent ∧ g.cursors.rx ≤ lent.rxLen := by
  have place := fun id => id_of_reached id reached
  obtain ⟨first, as, built, -, rfl⟩ := reached
  have kept := (kept_new blocks board built).run env as
  refine ⟨fun a h tx rx failure => kept.refunded env a h tx rx failure, ?_⟩
  intro id call r during launched running lent d e
  have lending : Engine.Lending r (board.hosts.get id) e :=
    lending_run env during (kept.lending_launched env call launched) running
  refine ⟨call.loan?_of_request r (launched?_request launched), lending.spared, lending.bound, ?_⟩
  intro last f free
  have served := engine_act env d last id
  cases stimulus : last.stimulus? id with
  | none =>
    rw [stimulus] at served
    simp only [f, served] at free
    exact absurd lending.owes.busy free
  | some st =>
    rw [stimulus] at served
    simp only [f, served] at free ⊢
    cases lending.respond env d.settings st with
    | on lending => exact absurd lending.owes.busy free
    | ended _ closed outcome told =>
      have named : e.id = id := place id (call :: during)
      rw [named] at told
      refine ⟨st, outcome, rfl, told, fun done parked => ?_, closed.spared, closed.bound⟩
      rw [parked] at told
      -- taking a completion ends nothing, and all else that happens parks what is told
      have other : st ≠ .take := by
        rintro rfl
        exact free lending.owes.busy
      obtain ⟨_, parks⟩ := Engine.parks_respond env d.settings e st other
      exact parks.parked_of_told (told ▸ List.mem_singleton_self _)

theorem buffers_come_back_flooded :
    let env := fun (m : Nat × Word) (b : MemoryBlock) => b.poke m.1 m.2
    let as : List (Action (Nat × Word)) :=
      [.init .host { freq := 10000000 }, .move .host (5, 0x80000000), .move .host (10, 9)]
    let call : Action (Nat × Word) :=
      .receive { id := some .host, isInit := true } { words := [5, 6, 7, 8] } 8 {}
    let lent : Buffers := { rx := some { words := [5, 6, 7, 8] }, rxLen := 2 }
    let d := (slate.run env as).run env [call, .onEvent .host Events.rxWatermark]
    let f := d.act env (.onEvent .host (Events.ready.union Events.idle))
    ∃ outcome back, (d.engine .host).told (f.engine .host) = [.ending .host {} outcome back] ∧
      lent.Spared 2 back ∧ (back.rx.map Buffer.words) = some [9, 9, 7, 8] := by
  intro env as call lent d f
  have launched : (slate.run env as).launched? .host call =
      some ⟨{ id := some .host, isInit := true }, ⟨[.rx 8], lent⟩, {}⟩ := by
    decide +kernel
  obtain ⟨-, runs⟩ := buffers_come_back env (.ofFn fun _ => MemoryBlock.ofWords []) {}
    ⟨slate, as, rfl, fun _ _ => trivial, rfl⟩
  obtain ⟨-, -, -, ends⟩ :=
    runs .host call _ [.onEvent .host Events.rxWatermark] launched (by decide +kernel)
  obtain ⟨st, outcome, happened, told, -, spared, -⟩ :=
    ends (.onEvent .host (Events.ready.union Events.idle)) (by decide +kernel)
  cases happened
  let last : Stimulus (Nat × Word) := .event (Events.ready.union Events.idle)
  let g := (d.engine .host).closing last
  have drained : g.cursors.rx = 2 := by decide +kernel
  have spared : lent.Spared g.cursors.rx g.lent := spared
  rw [drained] at spared
  exact ⟨outcome, g.lent, told, spared, by decide +kernel⟩

end Controller

end SerialBus
