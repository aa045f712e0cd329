import SerialBus.Proofs.Simulator.Levels

namespace SerialBus

namespace Status

def Level.span : Level → Nat
  | .tx | .rx => 256
  | .cmd => 16

theorem Level.span_eq (l : Level) : l.span = 2 ^ l.field.width := by
  cases l <;> rfl

theorem level_congr {v w : Status} (l : Level) (agree : l.field.Agree v.bits w.bits) :
    v.level l = w.level l := by
  rw [level_eq, level_eq, l.field.get_congr agree]

theorem flag_congr {v w : Status} (f : Flag) (agree : f.field.Agree v.bits w.bits) :
    v.flag f = w.flag f := by
  rw [flag_eq, flag_eq, Field.isSet, Field.isSet, f.field.get_congr agree]

end Status

namespace Simulator

open Status (Level Flag)

def Build.depth (build : Build) : Level → Nat
  | .tx => build.txDepth
  | .rx => build.rxDepth
  | .cmd => build.cmdDepth

variable {build : Build} {s : Simulator}

theorem Contained.level (contained : Contained build s) (l : Level) :
    s.level l ≤ build.depth l := by
  cases l with
  | tx => exact contained.tx
  | rx => exact contained.rx
  | cmd => exact contained.queue

/-- A status that says of a block what is true of it. -/
structure Told (s : Simulator) (v : Status) : Prop where
  levels : ∀ l : Level, v.level l = s.level l % l.span
  -- In a block that can be reached, a level is told in full if its queue is not too deep.
  inFull : ∀ build hs, s = live hs (fresh build) →
    ∀ l : Level, build.depth l < l.span → v.level l = s.level l
  flags : ∀ f : Flag, v.flag f = s.holds f
  events : v.events.bits = s.eventLevels

theorem told_status (s : Simulator) : Told s ⟨s.status⟩ := by
  have levels (l : Level) : (⟨s.status⟩ : Status).level l = s.level l % l.span := by
    rw [level_status, Level.span_eq]
  refine ⟨levels, ?_, s.flag_status, s.events_status⟩
  intro build hs lived l shallow
  have contained : Contained build s := lived ▸ (contained_fresh build).live hs
  rw [levels, Nat.mod_eq_of_lt (Nat.lt_of_le_of_lt (contained.level l) shallow)]

end Simulator

namespace Status

open Simulator (Told live fresh)

theorem status_understood :
    (∀ s : Simulator, Told s ⟨s.status⟩) ∧ fields.Pairwise Field.Disjoint ∧
      ∀ v w : Status,
        (∀ l : Level, l.field.Agree v.bits w.bits → v.level l = w.level l) ∧
          ∀ f : Flag, f.field.Agree v.bits w.bits → v.flag f = w.flag f :=
  ⟨Simulator.told_status, fields_apart, fun _ _ => ⟨level_congr, flag_congr⟩⟩

theorem status_understood_brimming :
    let s : Simulator := live [.write .txData 7, .write .txData 8] (fresh {})
    let t : Simulator := { fresh { txDepth := 256 } with tx := List.replicate 256 7 }
    (⟨s.status⟩ : Status).level .tx = 2 ∧ (⟨t.status⟩ : Status).level .tx = 0 ∧
      (⟨t.status⟩ : Status).flag .txEmpty = false ∧ (⟨t.status⟩ : Status).flag .txFull = true ∧
      (⟨t.status⟩ : Status).level .rx = 0 := by
  intro s t
  obtain ⟨told, -, -⟩ := status_understood
  have full : t.tx.length = 256 := List.length_replicate
  refine ⟨(told s).inFull {} _ rfl .tx (by decide), ?_, ?_, ?_, ?_⟩
  · exact ((told t).levels .tx).trans (congrArg (· % 256) full)
  · exact (told t).flags .txEmpty
  · rw [(told t).flags, Simulator.holds, full]
    rfl
  · exact (told t).levels .rx

end Status

end SerialBus
