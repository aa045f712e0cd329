import SerialBus.Proofs.Run.Course

namespace SerialBus

open Simulator (Move)

theorem Action.handleIrq_of_interrupt {μ : Type} (a : Action μ) (id : PeripheralId)
    (stimulus : a.stimulus? id = some .interrupt) : a = .handleIrq id := by
  have kind := Controller.kind?_of_stimulus a stimulus
  cases a with
  | handleIrq other =>
    simp only [stimulus?] at stimulus
    split at stimulus
    · rename_i same
      rw [same]
    · cases stimulus
  | execute =>
    obtain ⟨r, -, same⟩ := Option.map_eq_some_iff.mp kind
    cases same
  | _ => cases kind

namespace Engine

variable {settings : Settings} {limits : Limits} {build : Simulator.Build}
  {base e : Engine Simulator}

/-- The transaction of `base` still runs, nothing was told since, and a fault that can interrupt
    waits to be served. -/
structure Faulted (base e : Engine Simulator) : Prop where
  busy : e.state = .busy
  running : e.running = base.running
  callbacks : e.callbacks = base.callbacks
  notices : e.notices = base.notices
  parkings : e.parkings = base.parkings
  latched : ¬ e.host.block.Clear

theorem Faulted.told (faulted : Faulted base e) : base.told e = [] := by
  rw [told_of_notices [] (by rw [faulted.notices, List.append_nil]) faulted.parkings]
  rfl

theorem Faulted.of_host (faulted : Faulted base e) (block : Simulator)
    (kept : block.Clear → e.host.block.Clear) :
    Faulted base { e with host := { e.host with block } } :=
  ⟨faulted.busy, faulted.running, faulted.callbacks, faulted.notices, faulted.parkings,
    fun clear => faulted.latched (kept clear)⟩

theorem Faulted.respond (faulted : Faulted base e) (wired : Wired settings limits build e)
    (sound : Sound settings limits) (st : Stimulus Move) (undisturbed : st.undisturbed = true)
    (unserved : st ≠ .interrupt) :
    Faulted base (e.respond Simulator.apply settings st) := by
  have same {block : Simulator} (errorStatus : block.errorStatus = e.host.block.errorStatus) :
      Faulted base { e with host := { e.host with block } } :=
    faulted.of_host block fun clear => clear.of_errorStatus errorStatus.symm
  cases st with
  | bind slave =>
    rcases wired.bind_cases slave with unbound | ⟨block, bound, untouched, -⟩
    · simp only [Engine.respond, unbound]
      exact faulted
    · have kept := same untouched.errorStatus
      have busy : e.state.next .initialized = .busy := by
        rw [faulted.busy]
        rfl
      simp only [Engine.respond, bound]
      exact ⟨busy, kept.running, kept.callbacks, kept.notices, kept.parkings, kept.latched⟩
  | take =>
    exact ⟨faulted.busy, faulted.running, faulted.callbacks, faulted.notices, faulted.parkings,
      faulted.latched⟩
  | submit q =>
    simp only [Engine.respond]
    rcases submit_spec wired sound q with ⟨failure, refused⟩ | ⟨f, -, free, -⟩
    · rw [refused]
      exact faulted
    · rw [faulted.busy] at free
      cases free
  | move m =>
    cases m with
    | tick =>
      exact same (congrArg Simulator.Registers.errorStatus e.host.block.registers_step)
    | inject bits => exact faulted.of_host _ (clear_of_raise _ bits)
    | pushMiso ws => exact same rfl
    | setLoopback on => exact same rfl
  | interrupt => exact absurd rfl unserved
  | reset => cases undisturbed
  | event events => cases undisturbed
  | fault faults => cases undisturbed

theorem drive_of_faults (e : Engine Simulator) (busy : e.state = .busy) (events : Events)
    (faults : Faults) (some : faults.isEmpty = false) :
    e.drive ⟨events, faults⟩ = e.abort faults := by
  rw [e.drive_eq ⟨events, faults⟩ busy]
  simp only [some, Bool.false_eq_true, if_false]

theorem Faulted.handleIrq (faulted : Faulted base e) (wired : Wired settings limits build e) :
    let faults : Faults := .truncate e.host.block.errorStatus
    e.handleIrq.state = .init ∧
      e.told e.handleIrq = [.failure e.id base.callbacks faults base.lent] ∧
      ∀ events, e.handleIrq = e.acknowledged.drive ⟨events, faults⟩ := by
  intro faults
  have on := wired.on_of_busy faulted.busy
  have pending := e.host.block.pending_error on.faults on.line faulted.latched
  have shown : e.host.block.shownFaults = faults := if_pos pending
  have some : faults.isEmpty = false := by
    rw [← shown]
    exact e.host.block.shownFaults_of_latched on.faults on.line faulted.latched
  have ends (events : Events) : e.acknowledged.drive ⟨events, faults⟩ =
      e.acknowledged.abort faults :=
    drive_of_faults e.acknowledged faulted.busy events faults some
  have served : e.handleIrq = e.acknowledged.abort faults := by
    rw [e.handleIrq_eq, shown, ends]
  have told : e.acknowledged.told (e.acknowledged.abort faults) =
      [.failure e.id e.callbacks faults e.lent] :=
    told_abort e.acknowledged faults faulted.busy
  have lent : e.lent = base.lent := by
    unfold Engine.lent
    rw [faulted.running]
  refine ⟨?_, ?_, fun events => served.trans (ends events).symm⟩
  · rw [served]
    exact state_abort e.acknowledged faults faulted.busy
  · rw [served, ← faulted.callbacks, ← lent]
    exact told

end Engine

namespace Controller

variable {c : Controller Simulator} {limits : PeripheralId → Limits}
  {builds : PeripheralId → Simulator.Build} {id : PeripheralId}

theorem Sane.faulted_run (sane : Sane limits builds c) {base : Engine Simulator}
    (faulted : Engine.Faulted base (c.engine id)) (as : List (Action Move))
    (undisturbed : ∀ a ∈ as, a.undisturbed = true) (unserved : ∀ a ∈ as, a ≠ .handleIrq id) :
    Engine.Faulted base ((c.run Simulator.apply as).engine id) := by
  have sound := sane.sound id
  -- each step needs the block set up as well, which the steps before it keep
  have both : Engine.Wired c.settings (limits id) (builds id)
        ((c.run Simulator.apply as).engine id) ∧
      Engine.Faulted base ((c.run Simulator.apply as).engine id) := by
    refine engine_run (P := fun e => Engine.Wired c.settings (limits id) (builds id) e ∧
      Engine.Faulted base e) Simulator.apply c as id ⟨sane.wired id, faulted⟩ ?_
    intro a member st stimulus e ⟨wired, faulted⟩
    have allowed := a.undisturbed_stimulus (undisturbed a member) stimulus
    have other : st ≠ .interrupt := by
      rintro rfl
      exact unserved a member (a.handleIrq_of_interrupt id stimulus)
    exact ⟨wired.respond sound st (st.honest_of_undisturbed allowed),
      faulted.respond wired sound st allowed other⟩
  exact both.2

/-- While a transaction runs on a block on which a fault that can interrupt is latched, nothing is
    told of it until the interrupt of the block is served. That service ends it as a failure with
    exactly the faults that are latched then, and the events of the same interrupt make no
    difference. Without a routine for it, the failure lies in the slot of the block. -/
theorem faults_end_transactions (builds : PeripheralId → Simulator.Build) (board : Board)
    (reached : Reached Simulator.apply (fun a => a.undisturbed = true) (freshBlocks builds) board c)
    (busy : (c.engine id).state = .busy)
    (latched : (c.block id).errorStatus &&& Faults.interrupting.bits ≠ 0)
    (during : List (Action Move)) (undisturbed : ∀ a ∈ during, a.undisturbed = true)
    (unserved : ∀ a ∈ during, a ≠ .handleIrq id) :
    let base := c.engine id
    let e := (c.run Simulator.apply during).engine id
    let final := (c.run Simulator.apply during).act Simulator.apply (.handleIrq id)
    let f := final.engine id
    let faults : Faults := .truncate e.host.block.errorStatus
    base.told e = [] ∧ e.state = .busy ∧ e.running = base.running ∧ f.state = .init ∧
      e.told f = [.failure id base.callbacks faults base.lent] ∧
      (base.callbacks.onError = none → final.Parked id ⟨.error faults, base.lent⟩) ∧
      ∀ events, f = e.acknowledged.drive ⟨events, faults⟩ := by
  intro base e final f faults
  have place : e.id = id := id_of_reached id reached during
  have sane := sane_of_reached reached
  have wired := (sane.run during undisturbed).wired id
  have start : Engine.Faulted base base := ⟨busy, rfl, rfl, rfl, rfl, latched⟩
  have faulted : Engine.Faulted base e := sane.faulted_run start during undisturbed unserved
  have served : f = e.handleIrq := by
    simp only [f, final, engine_act, Action.stimulus?, if_true]
    rfl
  obtain ⟨free, told, same⟩ := faulted.handleIrq wired
  rw [place, ← served] at told
  exact ⟨faulted.told, faulted.busy, faulted.running, served ▸ free, told, parked_of_failure told,
    served ▸ same⟩

theorem faults_end_transactions_idle :
    let c := bench.run Simulator.apply
      [.init .host { freq := 10000000 }, .transmit benchHandle { words := [1] } 4 {},
        .move .host .tick, .move .host (.inject 0x68)]
    let e := (c.run Simulator.apply [.move .host .tick]).engine .host
    let final := (c.run Simulator.apply [.move .host .tick]).act Simulator.apply (.handleIrq .host)
    let f := final.engine .host
    e.segmentCount ≤ e.cursors.segment ∧
      e.host.block.shownEvents.contains (Events.ready.union Events.idle) = true ∧
      e.told f =
        [.failure .host {} (.truncate 0x28) { tx := some { words := [1] }, txLen := 1 }] ∧
      final.Parked .host
        ⟨.error (.truncate 0x28), { tx := some { words := [1] }, txLen := 1 }⟩ := by
  intro c e final f
  have reached : Reached Simulator.apply (fun a => a.undisturbed = true) (freshBlocks fun _ => {})
      {} c :=
    ⟨bench, _, rfl, by simp [Action.undisturbed], rfl⟩
  have busy : (c.engine .host).state = .busy := by decide +kernel
  have latched : (c.block .host).errorStatus &&& Faults.interrupting.bits ≠ 0 := by
    decide +kernel
  obtain ⟨-, -, -, -, told, parked, -⟩ := faults_end_transactions (fun _ => {}) {} reached busy
    latched [.move .host .tick] (by simp [Action.undisturbed]) (by simp)
  have faults : (.truncate e.host.block.errorStatus : Faults) = .truncate 0x28 := by
    decide +kernel
  have lent : (c.engine .host).lent = { tx := some { words := [1] }, txLen := 1 } := by
    decide +kernel
  have callbacks : (c.engine .host).callbacks = {} := by decide +kernel
  rw [callbacks] at told parked
  rw [faults, lent] at told parked
  exact ⟨by decide +kernel, by decide +kernel, told, parked rfl⟩

end Controller

end SerialBus
