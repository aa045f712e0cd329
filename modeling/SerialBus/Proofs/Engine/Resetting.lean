import SerialBus.Proofs.Engine.Launching
import SerialBus.Proofs.Run.Simulated

namespace SerialBus

open Simulator (Move)

namespace Engine

variable {settings : Settings} {limits : Limits} {build : Simulator.Build} {base : Simulator}
  {r : Request} {lost : Losses} {received : List Word} {e f : Engine Simulator}

structure Failed (e f : Engine Simulator) : Prop where
  free : f.state = .init
  cause : e.host.block.errorStatus ≠ 0
  told : ∃ callbacks faults b, e.told f = [.failure e.id callbacks faults b]

def loses (e : Engine Simulator) : Stimulus Move → Losses
  | .reset => e.host.block.losses
  | _ => {}

/-- The books of the transaction of `r` are kept, unless a fault is latched. -/
def Booked (base : Simulator) (r : Request) (lost : Losses) (received : List Word)
    (e : Engine Simulator) : Prop :=
  e.host.block.Clear →
    Ledger base r r.handle.slave.line lost received e ∧
      (0 < base.build.cmdDepth → 0 < e.cursors.segment)

theorem underway_iff : Underway base r received e ↔ Booked base r {} received e := by
  simp only [Underway, Booked, flow_iff]

/-- From `e` to `f`, at which `dropped` was lost and the bus gave `words`, the transaction of `r`
    went on, or it ended. -/
inductive Books (base : Simulator) (r : Request) (lost dropped : Losses)
    (received words : List Word) (e f : Engine Simulator) : Prop
  | on (busy : f.state = .busy) (booked : Booked base r (lost + dropped) (received ++ words) f)
  | accounted (ledger : Ledger base r r.handle.slave.line lost received e) (silent : words = [])
      (nothing : dropped = {})
      (accounted : Accounted base r r.handle.slave.line lost received e f)
  | failed (failed : Failed e f)

theorem Booked.of_lanes (booked : Booked base r lost received e) (state : f.state = e.state)
    (running : f.running = e.running) (callbacks : f.callbacks = e.callbacks)
    (cursors : f.cursors = e.cursors) (lanes : f.host.block.lanes = e.host.block.lanes)
    (line : f.host.block.csid = e.host.block.csid)
    (clear : f.host.block.Clear → e.host.block.Clear) : Booked base r lost received f := by
  intro still
  obtain ⟨ledger, begun⟩ := booked (clear still)
  exact ⟨ledger.of_lanes state running callbacks cursors lanes line, by rw [cursors]; exact begun⟩

theorem Books.still (state : f.state = .busy) (booked : Booked base r lost received f) :
    Books base r lost {} received [] e f := by
  refine .on state ?_
  rw [List.append_nil]
  exact booked

theorem Ledger.onEvent (ledger : Ledger base r r.handle.slave.line lost received e)
    (begun : 0 < base.build.cmdDepth → 0 < e.cursors.segment) (events : Events)
    (honest : events.contains Events.idle = true → e.host.block.isActive = false) :
    Books base r lost {} received [] e (e.onEvent events) := by
  have goes {f : Engine Simulator} (ledger : Ledger base r r.handle.slave.line lost received f)
      (begun : 0 < base.build.cmdDepth → 0 < f.cursors.segment) :
      Books base r lost {} received [] e (f.serveQueues events) := by
    have feeds := feeds_serveQueues f events
    refine .still (feeds.state.trans ledger.busy) fun _ => ⟨ledger.serveQueues events, ?_⟩
    rw [feeds.segment]
    exact begun
  rcases ledger.onEvent_cases events with ⟨served, -⟩ | ⟨served, next, queued⟩ |
    ⟨served, -, errorStatus⟩ | ⟨completed, idle, issued⟩
  · rw [served]
    exact goes ledger begun
  · rw [served]
    exact goes next fun _ => by rw [queued.cursor]; exact Nat.succ_pos _
  · rw [served]
    have feeds := feeds_serveQueues e.issueNext.2 events
    refine .still ?_ fun clear => ?_
    · rw [feeds.state, (keeps_issueNext e).state]
      exact ledger.busy
    · exact absurd clear
        (Simulator.not_clear_of_csidInvalid _ _ (feeds.errorStatus.trans errorStatus))
  · rw [completed]
    exact .accounted ledger rfl rfl (ledger.complete issued (honest idle))

theorem isActive_of_idle (e : Engine Simulator)
    (idle : e.host.block.shownEvents.contains Events.idle = true) :
    e.acknowledged.host.block.isActive = false := by
  have lanes := e.host.block.acknowledged_spec.lanes
  rw [FlagSet.contains_flag _ _ EventEnable.idle (by decide) rfl (by decide)] at idle
  have level := e.host.block.shownEvents_isSet EventEnable.idle rfl idle
  rw [e.host.block.eventLevels_idle, Bool.not_eq_true'] at level
  have queue : e.acknowledged.host.block.queue = e.host.block.queue :=
    congrArg Simulator.Lanes.queue lanes
  have current : e.acknowledged.host.block.current = e.host.block.current :=
    congrArg Simulator.Lanes.current lanes
  rw [Simulator.isActive, queue, current]
  exact level

theorem Wired.books_handleIrq (wired : Wired settings limits build e) (busy : e.state = .busy)
    (booked : Booked base r lost received e) : Books base r lost {} received [] e e.handleIrq := by
  have spec := e.host.block.acknowledged_spec
  have on := wired.on_of_busy busy
  rw [e.handleIrq_eq, drive_eq e.acknowledged _ busy]
  have aborts (cause : e.host.block.errorStatus ≠ 0) :
      Failed e (e.acknowledged.abort e.host.block.shownFaults) :=
    ⟨state_abort _ _ busy, cause, _, _, _, told_abort e.acknowledged _ busy⟩
  by_cases clear : e.host.block.Clear
  case neg =>
    have shown := e.host.block.shownFaults_of_latched on.faults on.line clear
    simp only [shown, Bool.false_eq_true, if_false]
    exact .failed (aborts fun zero => clear (e.host.block.clear_of_zero zero))
  obtain ⟨ledger, begun⟩ := booked clear
  have ledger' : Ledger base r r.handle.slave.line lost received e.acknowledged :=
    ledger.of_lanes rfl rfl rfl rfl spec.lanes (congrArg Simulator.Switches.csid spec.switches)
  split
  · cases ledger'.onEvent begun e.host.block.shownEvents e.isActive_of_idle with
    | on busy booked => exact .on busy booked
    | accounted _ silent nothing accounted =>
      exact .accounted ledger silent nothing { accounted with told := accounted.told }
    | failed failed =>
      exact .failed ⟨failed.free, fun zero => failed.cause (spec.errorStatus_zero zero),
        failed.told⟩
  · rename_i shown
    refine .failed (aborts fun zero => shown ?_)
    exact e.host.block.shownFaults_of_zero zero

theorem clear_of_raise (s : Simulator) (bits : Word) (clear : (s.raise bits).Clear) : s.Clear := by
  unfold Simulator.Clear at clear ⊢
  apply BitVec.eq_of_getLsbD_eq
  intro i inside
  have bit := congrArg (fun w => w.getLsbD i) clear
  simp only [Simulator.raise, BitVec.getLsbD_and, BitVec.getLsbD_or] at bit ⊢
  revert bit
  cases s.errorStatus.getLsbD i <;> simp

theorem Wired.respond (wired : Wired settings limits build e) (sound : Sound settings limits)
    (st : Stimulus Move) (honest : st.honest = true) :
    Wired settings limits build (e.respond Simulator.apply settings st) := by
  cases st with
  | bind slave => exact wired.bind slave
  | reset => exact wired.softReset
  | take => exact wired.keeps ⟨rfl, rfl, rfl, rfl⟩
  | submit q =>
    simp only [Engine.respond]
    rcases submit_spec wired sound q with ⟨failure, refused⟩ | ⟨f, accepted, -, -, launched⟩
    · rw [refused]
      exact wired
    · rw [accepted]
      exact launched.wired
  | interrupt => exact wired.handleIrq
  | move m =>
    cases m with
    | tick =>
      exact wired.keeps ⟨rfl, e.host.block.build_step,
        Simulator.switches_of_registers e.host.block.registers_step, rfl⟩
    | inject bits => exact wired.keeps ⟨rfl, rfl, rfl, rfl⟩
    | pushMiso ws => exact wired.keeps ⟨rfl, rfl, rfl, rfl⟩
    | setLoopback on => exact wired.keeps ⟨rfl, rfl, rfl, rfl⟩
  | event events => cases honest
  | fault faults => cases honest

/-- Whatever happens to a busy block, resets among it, its transaction goes on or ends. -/
theorem Wired.books (wired : Wired settings limits build e) (sound : Sound settings limits)
    (busy : e.state = .busy) (booked : Booked base r lost received e) (st : Stimulus Move)
    (honest : st.honest = true) :
    Books base r lost (e.loses st) received (e.answered st) e
      (e.respond Simulator.apply settings st) := by
  cases st with
  | bind slave =>
    rcases wired.bind_cases slave with same | ⟨block, bound, untouched, -, csid, -, -, -⟩
    · simp only [Engine.respond, same]
      exact .still busy booked
    · simp only [Engine.respond, bound]
      have state : e.state.next .initialized = .busy := by
        rw [busy]
        rfl
      refine .still state (booked.of_lanes ?_ rfl rfl rfl untouched.lanes csid fun clear => ?_)
      · exact state.trans busy.symm
      · exact clear.of_errorStatus untouched.errorStatus.symm
  | reset =>
    refine .on busy fun clear => ?_
    have silent : received ++ e.answered .reset = received := List.append_nil received
    have same := e.host.softReset_lanes.2.2
    rw [silent]
    obtain ⟨ledger, begun⟩ := booked (clear.of_errorStatus same.symm)
    exact ⟨ledger.softReset, begun⟩
  | take => exact .still busy (booked.of_lanes rfl rfl rfl rfl rfl rfl fun clear => clear)
  | submit q =>
    simp only [Engine.respond]
    rcases submit_spec wired sound q with ⟨failure, refused⟩ | ⟨f, -, free, -⟩
    · rw [refused]
      exact .still busy booked
    · rw [busy] at free
      cases free
  | interrupt => exact wired.books_handleIrq busy booked
  | move m =>
    cases m with
    | tick =>
      refine .on busy fun clear => ?_
      have before : e.host.block.Clear :=
        clear.of_errorStatus (congrArg Simulator.Registers.errorStatus
          e.host.block.registers_step).symm
      obtain ⟨ledger, begun⟩ := booked before
      exact ⟨ledger.ticked, begun⟩
    | inject bits =>
      exact .still busy (booked.of_lanes rfl rfl rfl rfl rfl rfl (clear_of_raise _ bits))
    | pushMiso ws =>
      exact .still busy (booked.of_lanes rfl rfl rfl rfl rfl rfl fun clear => clear)
    | setLoopback on =>
      exact .still busy (booked.of_lanes rfl rfl rfl rfl rfl rfl fun clear => clear)
  | event events => cases honest
  | fault faults => cases honest

end Engine

end SerialBus
