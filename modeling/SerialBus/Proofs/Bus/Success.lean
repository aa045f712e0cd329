import SerialBus.Proofs.Blocking
import SerialBus.Proofs.Resets
import SerialBus.Proofs.Simulator.FarEnd

namespace SerialBus

open Simulator (Move Echo)

namespace Stimulus

def isCalm : Stimulus Move → Bool
  | .interrupt | .move .tick | .move (.inject _) => true
  | _ => false

theorem undisturbed_of_isCalm (st : Stimulus Move) (calm : st.isCalm = true) :
    st.undisturbed = true := by
  cases st with
  | interrupt | move => rfl
  | _ => cases calm

theorem ne_take_of_isCalm (st : Stimulus Move) (calm : st.isCalm = true) : st ≠ .take := by
  rintro rfl
  cases calm

end Stimulus

def Action.calm (id : PeripheralId) (a : Action Move) : Bool :=
  (a.stimulus? id).all Stimulus.isCalm

namespace Engine

variable {settings : Settings} {limits : Limits} {build : Simulator.Build} {base : Simulator}
  {r : Request} {received : List Word} {e f : Engine Simulator}

theorem echo_respond (settings : Settings) (echo : Echo base received e.host.block)
    (st : Stimulus Move) (calm : st.isCalm = true) :
    Echo base (received ++ e.answered st)
      (e.respond Simulator.apply settings st).host.block := by
  cases st with
  | interrupt =>
    rw [e.answered_interrupt, List.append_nil]
    exact firm_handleIrq (Host.steady_echo base received).firm
      (fun w _ echo => echo.writeCommand w) echo
  | move m =>
    cases m with
    | tick => exact echo.step
    | inject bits =>
      rw [e.answered_inject, List.append_nil]
      exact echo.of_beyond rfl
    | pushMiso | setLoopback => cases calm
  | _ => cases calm

theorem echo_submit (inactive : e.host.block.isActive = false) (settings : Settings) (r : Request) :
    Echo e.host.block [] (e.submit settings r).2.host.block :=
  steady_submit (Host.steady_echo e.host.block [])
    (fun w _ echo => echo.writeCommand w) settings r (.start inactive)

/-- The block after the transaction of `r`, for which its far end gave the words `received`. -/
structure Settled (base : Simulator) (r : Request) (received : List Word) (s : Simulator) :
    Prop where
  empty : s.Empty
  sent : s.sent = base.sent ++ r.transaction.buffers.outgoing
  accepted : s.accepted = base.accepted ++ r.transaction.entries r.handle.slave.line
  count : received.length = r.transaction.buffers.rxLen
  echo : Echo base received s

theorem Settled.of_lanes {s t : Simulator} (settled : Settled base r received s)
    (lanes : t.lanes = s.lanes) (echo : Echo base received t) : Settled base r received t :=
  ⟨settled.empty.of_lanes lanes, (congrArg Simulator.Lanes.sent lanes).trans settled.sent,
    (congrArg Simulator.Lanes.accepted lanes).trans settled.accepted, settled.count, echo⟩

theorem respond_of_free (settings : Settings) (free : e.state ≠ .busy) (st : Stimulus Move)
    (calm : st.isCalm = true) :
    ∃ host, e.respond Simulator.apply settings st = { e with host } := by
  cases st with
  | interrupt =>
    exact ⟨e.acknowledged.host, e.handleIrq_of_free free⟩
  | move m => exact ⟨_, rfl⟩
  | _ => cases calm

theorem Settled.respond (settings : Settings) (settled : Settled base r received e.host.block)
    (free : e.state ≠ .busy) (st : Stimulus Move) (calm : st.isCalm = true) :
    Settled base r received (e.respond Simulator.apply settings st).host.block := by
  have echo := echo_respond settings settled.echo st calm
  cases st with
  | interrupt =>
    rw [e.answered_interrupt, List.append_nil] at echo
    simp only [Engine.respond, e.handleIrq_of_free free] at echo ⊢
    exact settled.of_lanes e.host.block.acknowledged_spec.lanes echo
  | move m =>
    cases m with
    | tick =>
      have still : Simulator.apply .tick e.host.block = e.host.block :=
        congrArg Prod.snd (e.host.block.step_of_inactive settled.empty.inactive)
      simp only [Engine.respond, still]
      exact settled
    | inject bits =>
      rw [e.answered_inject, List.append_nil] at echo
      exact settled.of_lanes rfl echo
    | pushMiso | setLoopback => cases calm
  | _ => cases calm

theorem Owes.respond {β μ : Type} [RegisterBlock β] {e : Engine β} (owes : e.Owes r)
    (silent : r.callbacks = {}) (env : μ → β → β) (settings : Settings) (st : Stimulus μ)
    (other : st ≠ .take) :
    (e.respond env settings st).Owes r ∨
      (e.respond env settings st).state ≠ .busy ∧
        ∃ done, e.told (e.respond env settings st) = [.parked done] ∧
          (e.respond env settings st).parked = some done := by
  rcases settles_respond env settings (r := some r) owes st with
    ⟨s, settled, -⟩ | ⟨q, -, -, none, -⟩
  case inr => cases none
  obtain ⟨_, parks⟩ := parks_respond env settings e st other
  rcases settled.reports.first_of_silent silent with ⟨-, rfl⟩ | ⟨done, rest, told, -, next⟩
  · exact .inl settled.owing
  · have alone : rest = [] := by
      refine next.nil_of_no_launch fun report member => ?_
      have among : report ∈ e.told (e.respond env settings st) := by
        rw [told]
        exact List.mem_cons_of_mem _ member
      exact isLaunch_of_told among
    rw [alone] at told next
    cases next
    exact .inr ⟨settled.owing, done, told, parks.parked_of_told (told ▸ List.mem_singleton_self _)⟩

/-- A transaction without routines, since its launch on the block `base`. -/
inductive Stage (base : Simulator) (r : Request) (e : Engine Simulator) : Prop
  | runs (received : List Word) (owes : e.Owes r) (underway : Underway base r received e)
      (echo : Echo base received e.host.block)
  | succeeded (received : List Word) (free : e.state ≠ .busy)
      (parked : e.parked = some ⟨.ok (), r.transaction.buffers.filled received⟩)
      (settled : Settled base r received e.host.block)
  | failed (free : e.state ≠ .busy) (faults : Faults) (b : Buffers)
      (parked : e.parked = some ⟨.error faults, b⟩)

theorem Stage.respond (wired : Wired settings limits build e) (sound : Sound settings limits)
    (silent : r.callbacks = {}) (start : base.Empty) (constructed : r.transaction.Constructed)
    (stage : Stage base r e) (st : Stimulus Move) (calm : st.isCalm = true) :
    Stage base r (e.respond Simulator.apply settings st) := by
  cases stage with
  | succeeded received free parked settled =>
    have settled := settled.respond settings free st calm
    obtain ⟨host, still⟩ := respond_of_free settings free st calm
    rw [still] at settled ⊢
    exact .succeeded received free parked settled
  | failed free faults b parked =>
    obtain ⟨host, still⟩ := respond_of_free settings free st calm
    rw [still]
    exact .failed free faults b parked
  | runs received owes underway echo =>
    have echo := echo_respond settings echo st calm
    have answer := owes.respond silent Simulator.apply settings st (st.ne_take_of_isCalm calm)
    cases wired.proceeds sound owes.busy underway st (st.undisturbed_of_isCalm calm) with
    | on busy underway =>
      rcases answer with owes | ⟨free, -⟩
      · exact .runs _ owes underway echo
      · exact absurd busy free
    | delivered flow nothing delivered =>
      -- what is told of the end is known twice, so the completion that is parked is the success
      rcases answer with owes | ⟨free, done, told, parked⟩
      · cases owes.busy.symm.trans delivered.free
      obtain ⟨sends, receives⟩ := constructed.totals
      obtain ⟨-, -, checked⟩ := r.transaction.validate_eq_ok flow.valid
      obtain ⟨outgoing, -⟩ := r.transaction.buffers.check_eq_ok checked
      have count : received.length = r.transaction.buffers.rxLen := delivered.count.trans receives
      have success := delivered.told
      rw [silent, start.rx, List.nil_append, List.take_of_length_le (Nat.le_of_eq count)] at success
      cases told.symm.trans success
      have sent := delivered.sent
      rw [start.tx, List.nil_append, List.take_of_length_le (by omega)] at sent
      rw [nothing, List.append_nil] at echo
      exact .succeeded received free parked
        ⟨delivered.empty start constructed, sent, delivered.accepted, count, echo⟩
    | failed failed =>
      rcases answer with owes | ⟨free, done, told, parked⟩
      · cases owes.busy.symm.trans failed.free
      obtain ⟨callbacks, faults, b, failure⟩ := failed.told
      have report := List.singleton_inj.mp (told.symm.trans failure)
      unfold Report.failure at report
      split at report
      · cases report
      · cases report
        exact .failed free faults b parked

end Engine

namespace Controller

variable {builds : PeripheralId → Simulator.Build} {board : Board} {c : Controller Simulator}
  {id : PeripheralId} {h : Handle} {t : Transaction}

theorem launched?_of_accepted {started : Controller Simulator} (named : h.check = .ok id)
    (accepted : c.submit h t {} = (.ok (), started)) :
    c.launched? id (.submit h t {} : Action Move) = some ⟨h, t, {}⟩ := by
  refine Option.filter_eq_some_iff.mpr ⟨rfl, ?_⟩
  simp only [names_of_check named, accepted, Except.isOk, Except.toBool, Bool.and_self]

theorem block_take (c : Controller Simulator) (h : Handle) (id : PeripheralId) :
    (c.takeCompletion h).2.block id = c.block id := by
  have taken := engine_act Simulator.apply c (.takeCompletion h) id
  change ((c.act Simulator.apply (.takeCompletion h)).engine id).host.block = _
  rw [taken, Action.stimulus?]
  by_cases names : h.names id = true
  · rw [if_pos names]
    rfl
  · rw [if_neg names]
    rfl

theorem stage_run (sound : Sound c.settings limits)
    (wired : Engine.Wired c.settings limits build (c.engine id)) (tx : (c.block id).tx = [])
    (rx : (c.block id).rx = []) (constructed : t.Constructed) {started : Controller Simulator}
    (named : h.check = .ok id) (accepted : c.submit h t {} = (.ok (), started))
    (as : List (Action Move)) (calm : ∀ a ∈ as, a.calm id = true) :
    Engine.Stage (c.block id) ⟨h, t, {}⟩ ((started.run Simulator.apply as).engine id) := by
  have launch := launched?_of_accepted named accepted
  obtain ⟨inactive, -, launched⟩ := launched_of_wired sound wired launch
  have echo := Engine.echo_submit inactive c.settings ⟨h, t, {}⟩
  have acted : c.act Simulator.apply (.submit h t {}) = started := congrArg Prod.snd accepted
  have settings : started.settings = c.settings := by
    rw [← acted, settings_act]
  rw [engine_launched Simulator.apply launch, acted] at echo
  rw [acted] at launched
  obtain ⟨owes, -⟩ := owes_of_accepted named accepted
  refine (started.engine_run (P := fun e => Engine.Wired c.settings limits build e ∧
    Engine.Stage (c.block id) ⟨h, t, {}⟩ e) Simulator.apply as id
    ⟨launched.wired, .runs [] owes launched.underway echo⟩ ?_).2
  intro a member st stimulus e ⟨wired, stage⟩
  have allowed := calm a member
  rw [Action.calm, stimulus, Option.all_some] at allowed
  rw [settings]
  exact ⟨wired.respond sound st (st.honest_of_undisturbed (st.undisturbed_of_isCalm allowed)),
    stage.respond wired sound rfl ⟨tx, rx, inactive⟩ constructed st allowed⟩

end Controller

namespace Blocking

open Controller (Reached Plays freshBlocks)

variable {ω : Type} {builds : PeripheralId → Simulator.Build} {board : Board}
  {c : Controller Simulator} {w : Wait (Controller Simulator × ω)} {h : Handle} {id : PeripheralId}
  {t : Transaction} {o : ω} {back : Buffers} {d : Controller Simulator × ω}

theorem run_of_success (reached : Reached Simulator.apply (fun _ => True) (freshBlocks builds) board c)
    (block : h.id = some id) (plays : Plays Simulator.apply (fun a => a.calm id = true) w)
    (constructed : t.Constructed) (tx : (c.block id).tx = []) (rx : (c.block id).rx = [])
    (ran : run w h t (c, o) = (.ok back, d)) :
    (∃ started, c.submit h t {} = (.ok (), started)) ∧
      Reached Simulator.apply (fun _ => True) (freshBlocks builds) board d.1 ∧
      ∃ received, back = t.buffers.filled received ∧
        Engine.Settled (c.block id) ⟨h, t, {}⟩ received (d.1.block id) := by
  rcases submitted : c.submit h t {} with ⟨failure | ⟨⟩, started⟩
  · rw [run_of_refused w submitted o] at ran
    cases ran
  have named := Controller.check_of_accepted submitted block
  obtain ⟨sound, switched⟩ := Controller.switched_of_reached reached id
  have acted : c.run Simulator.apply [.submit h t {}] = started := congrArg Prod.snd submitted
  rcases run_cases named submitted w o with ⟨k, -, free, result⟩ | ⟨k, result, -⟩
  case inr =>
    rw [result] at ran
    cases ran
  obtain ⟨during, calm, played⟩ := plays.after k (started, o)
  have stage := Controller.stage_run sound switched.toWired tx rx constructed named submitted during
    calm
  rw [result, played] at ran
  rw [played] at free
  refine ⟨⟨started, rfl⟩, ?_⟩
  cases stage with
  | runs _ owes => exact absurd owes.busy free
  | failed _ faults b parked =>
    rw [parked] at ran
    cases ran
  | succeeded received _ parked settled =>
    rw [parked] at ran
    cases ran
    have last := Controller.block_take (started.run Simulator.apply during) h id
    refine ⟨?_, received, rfl, ?_⟩
    · rw [← acted]
      exact ((reached.run _ fun _ _ => trivial).run during fun _ _ => trivial).run
        [.takeCompletion h] fun _ _ => trivial
    · rw [last]
      exact settled

end Blocking

end SerialBus
