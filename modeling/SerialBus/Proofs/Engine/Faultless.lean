import SerialBus.Proofs.Engine.Course

namespace SerialBus

open Simulator (Move)

namespace Simulator

structure Empty (s : Simulator) : Prop where
  tx : s.tx = []
  rx : s.rx = []
  inactive : s.isActive = false

theorem Empty.of_lanes {s t : Simulator} (empty : s.Empty) (same : t.lanes = s.lanes) :
    t.Empty := by
  simp only [lanes, Lanes.mk.injEq] at same
  obtain ⟨-, tx, rx, queue, current, -, -⟩ := same
  refine ⟨tx.trans empty.tx, rx.trans empty.rx, ?_⟩
  rw [isActive, queue, current]
  exact empty.inactive

theorem Empty.tick {s : Simulator} (empty : s.Empty) : s.tick.2.Empty := by
  rw [Simulator.tick, s.step_of_inactive empty.inactive]
  exact empty

end Simulator

namespace Engine

variable {settings : Settings} {limits : Limits} {build : Simulator.Build} {base : Simulator}
  {r : Request} {csid : Word} {received : List Word} {e f : Engine Simulator}

theorem Delivered.empty (delivered : Delivered base r csid received e f) (start : base.Empty)
    (constructed : r.transaction.Constructed) : f.host.block.Empty := by
  obtain ⟨sends, receives⟩ := constructed.totals
  have waiting := delivered.waiting
  have shifted := delivered.shifted
  have count := delivered.count
  have rx := delivered.rx
  rw [start.tx, List.length_nil] at waiting
  rw [start.rx, List.nil_append, List.drop_of_length_le (by omega)] at rx
  exact ⟨List.length_eq_zero_iff.mp (by omega), rx, delivered.inactive⟩

theorem Flow.errorStatus_onEvent (flow : Flow base r csid received e)
    (line : csid.toNat < base.build.lines) (events : Events) :
    (e.onEvent events).host.block.errorStatus = e.host.block.errorStatus := by
  rcases flow.onEvent_cases events with ⟨served, -⟩ | ⟨served, issued⟩ | ⟨-, none, -⟩ |
    ⟨completed, -⟩
  · rw [served]
    exact (feeds_serveQueues e events).errorStatus
  · rw [served]
    exact (feeds_serveQueues _ events).errorStatus.trans issued.errorStatus
  · omega
  · rw [completed, e.complete_eq flow.busy, (tell_same _ _).2.2]
    exact (feeds_emptyRx e.quiesce).errorStatus

/-- The block of an engine meets no fault: none is latched, nothing is in the block unless a
    transaction runs, and that one was built from its segments and started on an empty block. -/
structure Clean (build : Simulator.Build) (e : Engine Simulator) : Prop where
  errorStatus : e.host.block.errorStatus = 0
  empty : e.state ≠ .busy → e.host.block.Empty
  underway : e.state = .busy → ∃ base r received, base.Empty ∧ r.transaction.Constructed ∧
    r.handle.slave.line.toNat < build.lines ∧ Underway base r received e

theorem Clean.errorStatus_handleIrq (clean : Clean build e) (sized : e.host.block.build = build) :
    e.handleIrq.host.block.errorStatus = 0 := by
  have spec := e.host.block.acknowledged_spec
  have zero : e.acknowledged.host.block.errorStatus = 0 :=
    spec.errorStatus_zero clean.errorStatus
  by_cases busy : e.state = .busy
  · rw [e.handleIrq_eq]
    obtain ⟨base, r, received, -, -, line, underway⟩ := clean.underway busy
    obtain ⟨flow, -⟩ := underway (e.host.block.clear_of_zero clean.errorStatus)
    have shown := e.host.block.shownFaults_of_zero clean.errorStatus
    rw [drive_eq e.acknowledged _ busy]
    simp only [shown, if_true]
    rw [flow.acknowledged.errorStatus_onEvent (by rw [← flow.build, sized]; exact line)]
    exact zero
  · rw [e.handleIrq_of_free busy]
    exact zero

theorem Clean.errorStatus_respond (clean : Clean build e) (wired : Wired settings limits build e)
    (sound : Sound settings limits) (lines : limits.lines.toNat ≤ build.lines)
    (st : Stimulus Move) (faultless : st.faultless = true) :
    (e.respond Simulator.apply settings st).host.block.errorStatus = 0 := by
  cases st with
  | bind slave =>
    rcases wired.bind_cases slave with same | ⟨block, bound, untouched, -⟩
    · simp only [Engine.respond, same]
      exact clean.errorStatus
    · simp only [Engine.respond, bound]
      exact untouched.errorStatus.trans clean.errorStatus
  | take => exact clean.errorStatus
  | submit q =>
    simp only [Engine.respond]
    rcases submit_spec wired sound q with ⟨failure, refused⟩ | ⟨f, accepted, -, -, launched⟩
    · rw [refused]
      exact clean.errorStatus
    · rw [accepted]
      have line := launched.line
      exact (launched.errorStatus (by omega)).trans clean.errorStatus
  | interrupt => exact clean.errorStatus_handleIrq wired.sized
  | move m =>
    cases m with
    | tick =>
      exact (congrArg Simulator.Registers.errorStatus e.host.block.registers_step).trans
        clean.errorStatus
    | inject bits => cases faultless
    | pushMiso ws => exact clean.errorStatus
    | setLoopback on => exact clean.errorStatus
  | reset => cases faultless
  | event events => cases faultless
  | fault faults => cases faultless

theorem Clean.respond_free (clean : Clean build e) (wired : Wired settings limits build e)
    (sound : Sound settings limits) (lines : limits.lines.toNat ≤ build.lines)
    (free : e.state ≠ .busy) (st : Stimulus Move) (faultless : st.faultless = true)
    (constructed : ∀ q, st = .submit q → q.transaction.Constructed) :
    Clean build (e.respond Simulator.apply settings st) := by
  have zero := clean.errorStatus_respond wired sound lines st faultless
  have empty := clean.empty free
  have still {f : Engine Simulator} (zero : f.host.block.errorStatus = 0) (state : f.state ≠ .busy)
      (same : f.host.block.lanes = e.host.block.lanes) : Clean build f :=
    ⟨zero, fun _ => empty.of_lanes same, fun busy => absurd busy state⟩
  cases st with
  | bind slave =>
    rcases wired.bind_cases slave with same | ⟨block, bound, untouched, -⟩
    · simp only [Engine.respond, same]
      exact clean
    · simp only [Engine.respond, bound] at zero ⊢
      exact still zero (fun busy => free (busy_of_initialized _ busy)) untouched.lanes
  | take => exact still zero free rfl
  | submit q =>
    simp only [Engine.respond] at zero ⊢
    rcases submit_spec wired sound q with ⟨failure, refused⟩ | ⟨f, accepted, -, -, launched⟩
    · rw [refused]
      exact clean
    · rw [accepted] at zero ⊢
      have line := launched.line
      exact ⟨zero, fun other => absurd launched.busy other,
        fun _ => ⟨e.host.block, q, [], empty, constructed q rfl, by omega, launched.underway⟩⟩
  | interrupt =>
    simp only [Engine.respond, e.handleIrq_of_free free] at zero ⊢
    exact still zero free e.host.block.acknowledged_spec.lanes
  | move m =>
    cases m with
    | tick => exact ⟨zero, fun _ => empty.tick, fun busy => absurd busy free⟩
    | inject bits => cases faultless
    | pushMiso ws => exact still zero free rfl
    | setLoopback on => exact still zero free rfl
  | reset => cases faultless
  | event events => cases faultless
  | fault faults => cases faultless

theorem Clean.respond (clean : Clean build e) (wired : Wired settings limits build e)
    (sound : Sound settings limits) (lines : limits.lines.toNat ≤ build.lines)
    (st : Stimulus Move) (faultless : st.faultless = true)
    (constructed : ∀ q, st = .submit q → q.transaction.Constructed) :
    Clean build (e.respond Simulator.apply settings st) := by
  by_cases busy : e.state = .busy
  case neg => exact clean.respond_free wired sound lines busy st faultless constructed
  have zero := clean.errorStatus_respond wired sound lines st faultless
  obtain ⟨base, r, received, start, built, line, underway⟩ := clean.underway busy
  cases wired.proceeds sound busy underway st (st.undisturbed_of_faultless faultless) with
  | on state next =>
    exact ⟨zero, fun other => absurd state other,
      fun _ => ⟨base, r, _, start, built, line, next⟩⟩
  | delivered _ _ delivered =>
    refine ⟨zero, fun _ => delivered.empty start built, fun busy => ?_⟩
    rw [delivered.free] at busy
    cases busy
  | failed failed => exact absurd clean.errorStatus failed.cause

end Engine

end SerialBus
