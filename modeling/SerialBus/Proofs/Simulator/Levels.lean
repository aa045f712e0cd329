import SerialBus.Proofs.Simulator.Passage

namespace SerialBus.Simulator

structure Contained (build : Build) (s : Simulator) : Prop where
  built : s.build = build
  tx : s.tx.length ≤ build.txDepth
  rx : s.rx.length ≤ build.rxDepth
  queue : s.queue.length ≤ build.cmdDepth

variable {build : Build} {s t : Simulator}

theorem Contained.of_lanes (contained : Contained build s) (lanes : t.lanes = s.lanes) :
    Contained build t := by
  simp only [Simulator.lanes, Lanes.mk.injEq] at lanes
  obtain ⟨sameBuild, tx, rx, queue, -⟩ := lanes
  exact ⟨sameBuild.trans contained.built, tx ▸ contained.tx, rx ▸ contained.rx,
    queue ▸ contained.queue⟩

theorem Contained.logged (contained : Contained build s) (entry : Register × Word) :
    Contained build { s with writes := s.writes ++ [entry] } :=
  contained.of_lanes rfl

theorem Contained.takeUp (contained : Contained build s) : Contained build s.takeUp := by
  unfold Simulator.takeUp
  split
  case h_1 e rest _ queued =>
    have queue := contained.queue
    rw [queued, List.length_cons] at queue
    exact ⟨contained.built, contained.tx, contained.rx, Nat.le_of_succ_le queue⟩
  case h_2 => exact contained

theorem Contained.shift (contained : Contained build s) (a : Active) (supplied : s.Supplied a) :
    Contained build (s.shift a).2 := by
  obtain ⟨-, words⟩ := s.shift_sent a supplied
  have count := congrArg List.length words
  rw [List.length_append] at count
  have tx := contained.tx
  refine ⟨contained.built, by omega, ?_, contained.queue⟩
  change (s.rx ++ (s.shift a).1.received.toList).length ≤ build.rxDepth
  rw [s.shift_received a supplied, List.length_append]
  cases receives : a.entry.usesRx with
  | false => exact contained.rx
  | true =>
    -- a word is received only where there is room for it
    have room := supplied.2 receives
    rw [contained.built] at room
    exact room

theorem Contained.step (contained : Contained build s) : Contained build s.step.2 := by
  rcases s.step_split with ⟨a, -, -, supplied, stepped⟩ | ⟨-, lanes | lanes⟩
  · rw [stepped]
    exact contained.takeUp.shift a supplied
  · exact contained.of_lanes lanes
  · exact contained.takeUp.of_lanes lanes

theorem Contained.pushCommand (contained : Contained build s) (w : Word) :
    Contained build (s.pushCommand w) := by
  unfold Simulator.pushCommand
  simp only
  split
  · exact contained.of_lanes rfl
  · rename_i room
    rw [contained.built] at room
    split
    · exact contained.of_lanes rfl
    · split
      · exact contained.of_lanes rfl
      · refine ⟨contained.built, contained.tx, contained.rx, ?_⟩
        rw [List.length_append, List.length_singleton]
        omega

theorem Contained.pushData (contained : Contained build s) (w : Word) :
    Contained build (s.pushData w) := by
  unfold Simulator.pushData
  split
  · exact contained.of_lanes rfl
  · rename_i room
    rw [contained.built] at room
    refine ⟨contained.built, ?_, contained.rx, contained.queue⟩
    rw [List.length_append, List.length_singleton]
    omega

theorem Contained.popData (contained : Contained build s) : Contained build s.popData.2 := by
  unfold Simulator.popData
  split
  · rename_i w rest words
    have rx := contained.rx
    rw [words, List.length_cons] at rx
    exact ⟨contained.built, contained.tx, Nat.le_of_succ_le rx, contained.queue⟩
  · exact contained.of_lanes rfl

theorem lanes_of_resets (h : Happening) (s : Simulator) (resets : h.resets = true) :
    (undergo h s).lanes = { s.lanes with tx := [], rx := [], queue := [], current := none } := by
  cases h with
  | read | move => cases resets
  | write r w =>
    cases r with
    | control =>
      change Control.reset.isSet w = true at resets
      simp only [undergo, RegisterBlock.write, writeRegister, applyWrite, resets, if_true]
      rfl
    | _ => cases resets

theorem Contained.undergo (contained : Contained build s) (h : Happening) :
    Contained build (undergo h s) := by
  cases resets : h.resets with
  | true =>
    have lanes := lanes_of_resets h s resets
    simp only [Simulator.lanes, Lanes.mk.injEq] at lanes
    obtain ⟨sameBuild, tx, rx, queue, -⟩ := lanes
    exact ⟨sameBuild.trans contained.built, by simp [tx], by simp [rx], by simp [queue]⟩
  | false =>
    rcases undergo_cases h s resets with rfl | ⟨w, rfl⟩ | ⟨w, rfl⟩ | rfl | passes
    · exact contained.step
    · exact (contained.logged (.command, w)).pushCommand w
    · exact (contained.logged (.txData, w)).pushData w
    · exact contained.popData
    · exact contained.of_lanes passes.lanes

theorem contained_fresh (build : Build) : Contained build (fresh build) :=
  ⟨rfl, Nat.zero_le _, Nat.zero_le _, Nat.zero_le _⟩

theorem Contained.live (contained : Contained build s) (hs : List Happening) :
    Contained build (live hs s) := by
  induction hs generalizing s with
  | nil => exact contained
  | cons h rest ih => exact ih (contained.undergo h)

end SerialBus.Simulator
