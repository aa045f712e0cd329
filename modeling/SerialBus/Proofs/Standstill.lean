import SerialBus.Proofs.Simulator.Passage

namespace SerialBus.Simulator

variable {s t : Simulator}

/-- Why no step of a block moves, where the block has noted as much. -/
inductive Blocked (s : Simulator) : Prop
  | off (halted : s.isRunning = false)
  | idle (inactive : s.isActive = false)
  | starved (a : Active) (taken : s.current = some a)
    (starved : a.entry.usesTx = true ∧ s.tx = []) (noted : s.txStall = true)
  | full (a : Active) (taken : s.current = some a)
    (fed : ¬ (a.entry.usesTx = true ∧ s.tx = []))
    (full : a.entry.usesRx = true ∧ s.build.rxDepth ≤ s.rx.length) (noted : s.rxStall = true)

theorem Halts.blocked (halts : Halts s t) : Blocked t := by
  cases halts with
  | off halted => exact .off halted
  | idle none =>
    have inactive := s.current_takeUp_isSome
    rw [none, ← s.isActive_takeUp] at inactive
    exact .idle inactive.symm
  | starved a taken starved => exact .starved a taken starved rfl
  | full a taken fed full => exact .full a taken fed full rfl

theorem blocked_of_still (still : s.step.1 = none) : Blocked s.step.2 := by
  rcases s.step_ways with ⟨a, -, -, -, stepped⟩ | ⟨t, stepped, halts⟩
  · rw [stepped] at still
    cases still
  · rw [stepped]
    exact halts.blocked

theorem takeUp_of_current {a : Active} (taken : s.current = some a) : s.takeUp = s := by
  simp only [takeUp, taken]

theorem Blocked.step (blocked : Blocked s) : s.step = (none, s) := by
  by_cases running : s.isRunning = true
  case neg => simp [Simulator.step, running]
  cases blocked with
  | off halted => rw [halted] at running; cases running
  | idle inactive => exact s.step_of_inactive inactive
  | starved a taken starved noted =>
    have same := takeUp_of_current taken
    rw [s.step_of_starved a running (by rw [same, taken]) (by rw [same]; exact starved), same,
      ← noted]
  | full a taken fed full noted =>
    have same := takeUp_of_current taken
    rw [s.step_of_full a running (by rw [same, taken]) (by rw [same]; exact fed)
      (by rw [same]; exact full), same, ← noted]

theorem Blocked.apply (blocked : Blocked s) (m : Move) : Blocked (apply m s) := by
  cases m with
  | tick =>
    change Blocked s.step.2
    rw [blocked.step]
    exact blocked
  | inject | pushMiso | setLoopback =>
    cases blocked with
    | off halted => exact .off halted
    | idle inactive => exact .idle inactive
    | starved a taken starved noted => exact .starved a taken starved noted
    | full a taken fed full noted => exact .full a taken fed full noted

theorem Blocked.moves (blocked : Blocked s) (ms : List Move) :
    Blocked (ms.foldl (fun b m => Simulator.apply m b) s) := by
  induction ms generalizing s with
  | nil => exact blocked
  | cons m rest ih => exact ih (blocked.apply m)

theorem Blocked.tick (blocked : Blocked s) : s.tick = (false, s) := by
  rw [Simulator.tick, blocked.step]
  rfl

theorem run_of_moved (limit : Nat) {m : Shift} (moved : s.step.1 = some m) :
    run (limit + 1) s = ((run limit s.step.2).1 + 1, (run limit s.step.2).2) := by
  simp only [run, Simulator.tick, moved, Option.isSome_some]

theorem run_of_still (limit : Nat) (still : s.step.1 = none) :
    run (limit + 1) s = (0, s.step.2) := by
  simp only [run, Simulator.tick, still, Option.isSome_none]

theorem Blocked.run (blocked : Blocked s) (limit : Nat) : run limit s = (0, s) := by
  cases limit with
  | zero => rfl
  | succ limit =>
    have stepped := blocked.step
    rw [run_of_still limit (by rw [stepped]), stepped]

theorem run_add (m n : Nat) (s : Simulator) :
    run (m + n) s = ((run m s).1 + (run n (run m s).2).1, (run n (run m s).2).2) := by
  induction m generalizing s with
  | zero => simp only [Nat.zero_add, run]
  | succ m ih =>
    rw [Nat.succ_add]
    cases moved : s.step.1 with
    | some way =>
      rw [run_of_moved _ moved, run_of_moved _ moved, ih, Nat.add_right_comm]
    | none =>
      have stopped := (blocked_of_still moved).run n
      rw [run_of_still _ moved, run_of_still _ moved, stopped]
      rfl

theorem backlog_step {m : Shift} (moved : s.step.1 = some m) :
    s.backlog = s.step.2.backlog + 1 := by
  have turn := s.turn_tick
  generalize finished (.move .tick) s = ended at turn
  change Turn s s.step.2 s.step.1 ended at turn
  rw [moved] at turn
  cases turn with
  | works _ a b rest _ before after _ _ less =>
    simp only [backlog, before, after, List.map_cons, List.sum_cons, less]
    omega
  | ends _ a rest _ before after _ last =>
    simp only [backlog, before, after, List.map_cons, List.sum_cons, last]
    omega

theorem inactive_of_backlog (none : s.backlog = 0) : s.isActive = false := by
  have empty : s.outstanding = [] := by
    cases some : s.outstanding with
    | nil => rfl
    | cons a rest =>
      have least : 1 ≤ a.moves := Nat.le_max_left _ _
      simp only [backlog, some, List.map_cons, List.sum_cons] at none
      omega
  rw [inactive_iff]
  simpa [outstanding] using empty

theorem blocked_run (limit : Nat) (enough : s.backlog ≤ limit) : Blocked (run limit s).2 := by
  induction limit generalizing s with
  | zero => exact .idle (inactive_of_backlog (Nat.le_zero.mp enough))
  | succ limit ih =>
    cases moved : s.step.1 with
    | some m =>
      have less := backlog_step moved
      rw [run_of_moved limit moved]
      exact ih (by omega)
    | none =>
      rw [run_of_still limit moved]
      exact blocked_of_still moved

theorem run_of_backlog (limit : Nat) (enough : s.backlog ≤ limit) :
    run limit s = run s.backlog s := by
  obtain ⟨more, rfl⟩ := Nat.exists_eq_add_of_le enough
  rw [run_add, (blocked_run s.backlog (Nat.le_refl _)).run]
  rfl

/-- Two runs are as one with the limits and the counts added up. After a step that moves nothing,
    no step moves or changes anything, whatever comes from outside the registers; and no limit
    makes a difference from the moves on that the commands in the block take, the one in progress
    for what is left of it and the others whole. -/
theorem runs_add_up_and_settle (s : Simulator) :
    (∀ m n, run (m + n) s =
      let (first, t) := run m s
      let (second, u) := run n t
      (first + second, u)) ∧
    (s.tick.1 = false → ∀ ms : List Move,
      let t := ms.foldl (fun b m => apply m b) s.tick.2
      t.tick = (false, t)) ∧
    ∀ limit, s.backlog ≤ limit → run limit s = run s.backlog s := by
  constructor
  · intro m n
    exact run_add m n s
  · constructor
    · intro still ms
      have stopped : s.step.1 = none := by simpa [Simulator.tick] using still
      exact ((blocked_of_still stopped).moves ms).tick
    · intro limit enough
      exact run_of_backlog limit enough

theorem runs_add_up_and_settle_starved :
    let s : Simulator :=
      { fresh {} with
        control := Control.enable.flag
        tx := [7]
        queue := [⟨0x10000008, 0, 9, false, 0, 2⟩] }
    let t := (run 1 s).2
    let u := apply (.pushMiso [5]) t.tick.2
    run (1 + 4) s = (1, (run 4 t).2) ∧ t.tick.1 = false ∧ t.tick.2.txStall = true ∧
      u.tick = (false, u) ∧ s.backlog = 3 ∧ run 100 s = run 3 s := by
  intro s t u
  obtain ⟨adds, -, settles⟩ := runs_add_up_and_settle s
  obtain ⟨-, stands, -⟩ := runs_add_up_and_settle t
  have still : t.tick.1 = false := by decide
  exact ⟨(adds 1 4).trans (by decide), still, by decide, stands still [.pushMiso [5]], by decide,
    settles 100 (by decide)⟩

end SerialBus.Simulator
