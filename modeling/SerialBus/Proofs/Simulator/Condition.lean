import SerialBus.Proofs.Fields
import SerialBus.Simulator.Condition

namespace SerialBus

namespace Status

inductive Level
  | tx
  | rx
  | cmd
  deriving DecidableEq, Repr

inductive Flag
  | txEmpty
  | txFull
  | txWatermark
  | txStalled
  | rxEmpty
  | rxFull
  | rxWatermark
  | rxStalled
  | active
  | ready
  | bigEndian
  deriving DecidableEq, Repr

def Level.field : Level → Field
  | .tx => txLevelField
  | .rx => rxLevelField
  | .cmd => cmdLevelField

def Flag.field : Flag → Field
  | .txEmpty => txEmptyField
  | .txFull => txFullField
  | .txWatermark => txWatermarkField
  | .txStalled => txStallField
  | .rxEmpty => rxEmptyField
  | .rxFull => rxFullField
  | .rxWatermark => rxWatermarkField
  | .rxStalled => rxStallField
  | .active => activeField
  | .ready => readyField
  | .bigEndian => byteOrderField

def fields : List Field :=
  [Level.tx, .rx, .cmd].map Level.field ++
    [Flag.rxWatermark, .bigEndian, .rxStalled, .rxEmpty, .rxFull, .txWatermark, .txStalled,
      .txEmpty, .txFull, .active, .ready].map Flag.field

theorem fields_apart : fields.Pairwise Field.Disjoint := by decide

def level (v : Status) : Level → Nat
  | .tx => v.txLevel
  | .rx => v.rxLevel
  | .cmd => v.cmdLevel

def flag (v : Status) : Flag → Bool
  | .txEmpty => v.tx.isEmpty
  | .txFull => v.tx.isFull
  | .txWatermark => v.tx.atWatermark
  | .txStalled => v.tx.isStalled
  | .rxEmpty => v.rx.isEmpty
  | .rxFull => v.rx.isFull
  | .rxWatermark => v.rx.atWatermark
  | .rxStalled => v.rx.isStalled
  | .active => v.isActive
  | .ready => v.isReady
  | .bigEndian => decide (v.byteOrder = .big)

theorem level_eq (v : Status) (l : Level) : v.level l = l.field.get v.bits := by
  cases l <;> rfl

theorem flag_eq (v : Status) (f : Flag) : v.flag f = f.field.isSet v.bits := by
  cases f with
  | bigEndian =>
    change decide (ByteOrder.ofBit (byteOrderField.isSet v.bits) = .big) =
      byteOrderField.isSet v.bits
    cases byteOrderField.isSet v.bits <;> rfl
  | _ => rfl

end Status

namespace Simulator

open Status (Level Flag)

def level (s : Simulator) : Level → Nat
  | .tx => s.tx.length
  | .rx => s.rx.length
  | .cmd => s.queue.length

def holds (s : Simulator) : Flag → Bool
  | .txEmpty => s.tx.isEmpty
  | .txFull => s.build.txDepth ≤ s.tx.length
  | .txWatermark => s.tx.length < Control.txWatermark.get s.control
  | .txStalled => s.txStall
  | .rxEmpty => s.rx.isEmpty
  | .rxFull => s.build.rxDepth ≤ s.rx.length
  | .rxWatermark => Control.rxWatermark.get s.control ≤ s.rx.length
  | .rxStalled => s.rxStall
  | .active => s.isActive
  | .ready => s.queue.length < s.build.cmdDepth
  | .bigEndian => s.build.bigEndian

/-- What a block puts into its status word. -/
def layout (s : Simulator) : List (Field × Nat) :=
  [Level.tx, .rx, .cmd].map (fun l => (l.field, s.level l)) ++
    [Flag.rxWatermark, .bigEndian, .rxStalled, .rxEmpty, .rxFull, .txWatermark, .txStalled,
      .txEmpty, .txFull, .active, .ready].map fun f => (f.field, (s.holds f).toNat)

variable (s : Simulator)

theorem status_eq : s.status = Field.putAll s.layout 0 := rfl

theorem layout_fits : ∀ g ∈ s.layout.map Prod.fst, g.Fits :=
  show ∀ g ∈ Status.fields, g.Fits by decide

theorem level_status (l : Level) :
    (⟨s.status⟩ : Status).level l = s.level l % 2 ^ l.field.width := by
  have member : (l.field, s.level l) ∈ s.layout := by cases l <;> simp [layout]
  rw [Status.level_eq, status_eq]
  exact Field.get_putAll _ s.layout_fits Status.fields_apart 0 member

theorem flag_status (f : Flag) : (⟨s.status⟩ : Status).flag f = s.holds f := by
  have single : f.field.width = 1 := by cases f <;> rfl
  have member : (f.field, (s.holds f).toNat) ∈ s.layout := by cases f <;> simp [layout]
  rw [Status.flag_eq, status_eq]
  exact Field.isSet_putAll _ s.layout_fits Status.fields_apart 0 single member

theorem status_cmdLevel : (⟨s.status⟩ : Status).cmdLevel = s.queue.length % 16 :=
  s.level_status .cmd

theorem status_isActive : (⟨s.status⟩ : Status).isActive = s.isActive := s.flag_status .active

theorem status_isReady :
    (⟨s.status⟩ : Status).isReady = decide (s.queue.length < s.build.cmdDepth) :=
  s.flag_status .ready

theorem status_txFull :
    (⟨s.status⟩ : Status).tx.isFull = decide (s.build.txDepth ≤ s.tx.length) :=
  s.flag_status .txFull

theorem status_txWatermark : (⟨s.status⟩ : Status).tx.atWatermark =
    decide (s.tx.length < Control.txWatermark.get s.control) :=
  s.flag_status .txWatermark

theorem status_rxEmpty : (⟨s.status⟩ : Status).rx.isEmpty = s.rx.isEmpty := s.flag_status .rxEmpty

theorem status_rxWatermark : (⟨s.status⟩ : Status).rx.atWatermark =
    decide (Control.rxWatermark.get s.control ≤ s.rx.length) :=
  s.flag_status .rxWatermark

theorem eventLevels_spec : (⟨s.status⟩ : Status).events.bits = s.eventLevels ∧
    s.eventLevels &&& (FlagSet.all : Events).bits = s.eventLevels := by
  simp only [Status.events, eventLevels, Status.rx, Status.tx, Status.isReady, Status.isActive]
  generalize Status.rxFullField.isSet s.status = rxFull
  generalize Status.txEmptyField.isSet s.status = txEmpty
  generalize Status.rxWatermarkField.isSet s.status = rxWatermark
  generalize Status.txWatermarkField.isSet s.status = txWatermark
  generalize Status.readyField.isSet s.status = ready
  generalize Status.activeField.isSet s.status = active
  revert rxFull txEmpty rxWatermark txWatermark ready active
  decide

theorem events_status : (⟨s.status⟩ : Status).events.bits = s.eventLevels := s.eventLevels_spec.1

theorem eventLevels_known : s.eventLevels &&& (FlagSet.all : Events).bits = s.eventLevels :=
  s.eventLevels_spec.2

def eventLayout (s : Simulator) : List (Field × Nat) :=
  [(EventEnable.rxFull, (s.holds .rxFull).toNat), (EventEnable.txEmpty, (s.holds .txEmpty).toNat),
    (EventEnable.rxWatermark, (s.holds .rxWatermark).toNat),
    (EventEnable.txWatermark, (s.holds .txWatermark).toNat),
    (EventEnable.ready, (s.holds .ready).toNat), (EventEnable.idle, (!s.holds .active).toNat)]

theorem eventLevels_eq : s.eventLevels = Field.putAll s.eventLayout 0 := by
  have flag (f : Flag) : f.field.isSet s.status = s.holds f := by
    rw [← Status.flag_eq ⟨s.status⟩, flag_status]
  simp only [eventLayout, ← flag]
  rfl

theorem isSet_eventLevels {f : Field} {b : Bool} (single : f.width = 1)
    (member : (f, b.toNat) ∈ s.eventLayout) : f.isSet s.eventLevels = b := by
  have fields : s.eventLayout.map Prod.fst =
      [EventEnable.rxFull, EventEnable.txEmpty, EventEnable.rxWatermark, EventEnable.txWatermark,
        EventEnable.ready, EventEnable.idle] := rfl
  rw [eventLevels_eq]
  exact Field.isSet_putAll _ (by rw [fields]; decide) (by rw [fields]; decide) 0 single member

theorem eventLevels_idle : EventEnable.idle.isSet s.eventLevels = !s.isActive :=
  s.isSet_eventLevels rfl (by simp [eventLayout, holds])

theorem eventLevels_ready :
    EventEnable.ready.isSet s.eventLevels = decide (s.queue.length < s.build.cmdDepth) :=
  s.isSet_eventLevels rfl (by simp [eventLayout, holds])

theorem eventLevels_txWatermark : EventEnable.txWatermark.isSet s.eventLevels =
    decide (s.tx.length < Control.txWatermark.get s.control) :=
  s.isSet_eventLevels rfl (by simp [eventLayout, holds])

theorem eventLevels_rxWatermark : EventEnable.rxWatermark.isSet s.eventLevels =
    decide (Control.rxWatermark.get s.control ≤ s.rx.length) :=
  s.isSet_eventLevels rfl (by simp [eventLayout, holds])

end Simulator

end SerialBus
