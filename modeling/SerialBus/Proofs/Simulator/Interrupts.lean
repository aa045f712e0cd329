import SerialBus.Interrupt
import SerialBus.Proofs.Simulator.Condition
import SerialBus.Proofs.Simulator.Switches
import SerialBus.Simulator.Access

namespace SerialBus.Simulator

variable (s : Simulator)

theorem isSet_flag_of (f g : Field) (own : g.isSet f.flag = true) (c : Prop) [Decidable c] :
    g.isSet (if c then f.flag else 0) = decide c := by
  by_cases cause : c
  · simp only [cause, if_true, own, decide_true]
  · simp only [cause, if_false, Field.isSet_zero, decide_false]

theorem isSet_flag_of_other (f g : Field) (other : g.isSet f.flag = false) (c : Prop)
    [Decidable c] : g.isSet (if c then f.flag else 0) = false := by
  by_cases cause : c
  · simp only [cause, if_true, other]
  · simp only [cause, if_false, Field.isSet_zero]

theorem intrState_event :
    Intr.event.isSet s.intrState =
      (Intr.event.isSet s.intrLatched || decide (s.eventLevels &&& s.eventEnable ≠ 0)) := by
  rw [intrState, Field.isSet_or _ rfl, Field.isSet_or _ rfl,
    isSet_flag_of_other Intr.error Intr.event (by decide),
    isSet_flag_of Intr.event Intr.event (by decide), Bool.or_false]

theorem intrState_error :
    Intr.error.isSet s.intrState =
      (Intr.error.isSet s.intrLatched || decide (s.errorStatus &&& s.errorEnable ≠ 0)) := by
  rw [intrState, Field.isSet_or _ rfl, Field.isSet_or _ rfl,
    isSet_flag_of_other Intr.event Intr.error (by decide),
    isSet_flag_of Intr.error Intr.error (by decide), Bool.or_false]

def pending : Word := s.intrState &&& s.intrEnable

def shownEvents : Events :=
  if Intr.event.isSet s.pending then (⟨s.status⟩ : Status).events.inter (.truncate s.eventEnable)
  else .empty

def shownFaults : Faults :=
  if Intr.error.isSet s.pending then .truncate s.errorStatus else .empty

/-- The block after its latched faults, if they were shown, and its interrupts were acknowledged. -/
def acknowledged : Simulator :=
  let t :=
    if Intr.error.isSet s.pending then
      RegisterBlock.write .errorStatus (FlagSet.all : Faults).bits s
    else s
  if s.pending ≠ 0 then RegisterBlock.write .intrState s.pending t else t

theorem take_eq (h : Host Simulator) :
    Interrupt.take h =
      (⟨h.block.shownEvents, h.block.shownFaults⟩, { h with block := h.block.acknowledged }) := by
  have pendingEvents : h.pendingEvents =
      ((⟨h.block.status⟩ : Status).events.inter (.truncate h.block.eventEnable), h) := rfl
  have intrPending : h.intrPending = (h.block.pending, h) := rfl
  simp only [Interrupt.take, intrPending, pendingEvents, shownEvents, shownFaults, acknowledged]
  split <;> split <;> split <;> rfl

structure Acknowledged (s t : Simulator) : Prop where
  lanes : t.lanes = s.lanes
  switches : t.switches = s.switches
  errorStatus : t.errorStatus = s.errorStatus ∨
    t.errorStatus = s.errorStatus &&& ~~~(FlagSet.all : Faults).bits

theorem acknowledged_eq : s.acknowledged =
    { s with
      errorStatus :=
        if Intr.error.isSet s.pending then s.errorStatus &&& ~~~(FlagSet.all : Faults).bits
        else s.errorStatus
      intrLatched := s.intrLatched &&& ~~~s.pending
      writes := s.writes ++
        (if Intr.error.isSet s.pending then [(.errorStatus, (FlagSet.all : Faults).bits)]
          else []) ++
        if s.pending ≠ 0 then [(.intrState, s.pending)] else [] } := by
  unfold acknowledged
  by_cases some : s.pending ≠ 0
  · simp only [if_pos some]
    by_cases error : Intr.error.isSet s.pending = true
    · simp only [if_pos error]
      rfl
    · simp only [if_neg error, List.append_nil]
      rfl
  · have none := not_not.mp some
    have error : ¬Intr.error.isSet s.pending = true := by
      rw [none, Field.isSet_zero]
      exact Bool.false_ne_true
    have all : s.intrLatched &&& ~~~(0 : Word) = s.intrLatched := BitVec.and_allOnes
    simp only [if_neg some, if_neg error, List.append_nil]
    rw [none, all]

theorem acknowledged_spec : Acknowledged s s.acknowledged := by
  rw [acknowledged_eq]
  refine ⟨rfl, rfl, ?_⟩
  by_cases error : Intr.error.isSet s.pending = true
  · exact .inr (if_pos error)
  · exact .inl (if_neg error)

theorem Acknowledged.errorStatus_zero {s t : Simulator} (acknowledged : Acknowledged s t)
    (zero : s.errorStatus = 0) : t.errorStatus = 0 := by
  rcases acknowledged.errorStatus with same | cleared
  · exact same.trans zero
  · rw [cleared, zero]
    exact BitVec.zero_and

theorem shownEvents_isSet (f : Field) (single : f.width = 1)
    (set : f.isSet s.shownEvents.bits = true) : f.isSet s.eventLevels = true := by
  unfold shownEvents at set
  split at set
  · simp only [FlagSet.inter, Field.isSet_and f single, events_status, Bool.and_eq_true] at set
    exact set.1
  · rw [FlagSet.empty, Field.isSet_zero] at set
    cases set

theorem pending_event (f : Field) (single : f.width = 1)
    (line : Intr.event.isSet s.intrEnable = true)
    (level : f.isSet s.eventLevels = true) (enabled : f.isSet s.eventEnable = true) :
    Intr.event.isSet s.pending = true := by
  have both : f.isSet (s.eventLevels &&& s.eventEnable) = true := by
    rw [Field.isSet_and f single, level, enabled]
    rfl
  have some := f.ne_zero_of_isSet _ both
  rw [pending, Field.isSet_and _ rfl, intrState_event, line]
  simp only [some, ne_eq, not_false_eq_true, decide_true, Bool.or_true, Bool.and_true]

theorem shownEvents_of_level (f : Field) (single : f.width = 1)
    (line : Intr.event.isSet s.intrEnable = true) (level : f.isSet s.eventLevels = true)
    (enabled : f.isSet s.eventEnable = true) (named : f.isSet (FlagSet.all : Events).bits = true) :
    f.isSet s.shownEvents.bits = true := by
  rw [shownEvents, if_pos (s.pending_event f single line level enabled)]
  simp only [FlagSet.inter, FlagSet.truncate, Field.isSet_and f single, events_status, level,
    enabled, named, Bool.and_self]

theorem irqPending_of_event (f : Field) (single : f.width = 1)
    (line : Intr.event.isSet s.intrEnable = true) (level : f.isSet s.eventLevels = true)
    (enabled : f.isSet s.eventEnable = true) : s.irqPending = true := by
  have some := Field.ne_zero_of_isSet _ _ (s.pending_event f single line level enabled)
  simpa [irqPending, pending] using some

theorem pending_error (enabled : (⟨s.errorEnable⟩ : Faults).contains Faults.interrupting = true)
    (line : Intr.error.isSet s.intrEnable = true)
    (latched : s.errorStatus &&& Faults.interrupting.bits ≠ 0) :
    Intr.error.isSet s.pending = true := by
  have whole : s.errorEnable &&& Faults.interrupting.bits = Faults.interrupting.bits := by
    simpa [FlagSet.contains] using enabled
  have some : s.errorStatus &&& s.errorEnable ≠ 0 := by
    intro none
    apply latched
    calc s.errorStatus &&& Faults.interrupting.bits
        = (s.errorStatus &&& s.errorEnable) &&& Faults.interrupting.bits := by
          rw [BitVec.and_assoc, whole]
      _ = 0 := by
        rw [none]
        exact BitVec.zero_and
  rw [pending, Field.isSet_and _ rfl, intrState_error, line]
  simp only [some, ne_eq, not_false_eq_true, decide_true, Bool.or_true, Bool.and_true]

theorem shownFaults_of_latched
    (enabled : (⟨s.errorEnable⟩ : Faults).contains Faults.interrupting = true)
    (line : Intr.error.isSet s.intrEnable = true)
    (latched : s.errorStatus &&& Faults.interrupting.bits ≠ 0) :
    s.shownFaults.isEmpty = false := by
  rw [shownFaults, if_pos (s.pending_error enabled line latched)]
  have some : s.errorStatus &&& (FlagSet.all : Faults).bits ≠ 0 := by
    intro none
    apply latched
    have part : Faults.interrupting.bits =
        (FlagSet.all : Faults).bits &&& Faults.interrupting.bits := by
      decide
    rw [part, ← BitVec.and_assoc, none]
    exact BitVec.zero_and
  simpa [FlagSet.isEmpty, FlagSet.truncate] using some

theorem shownFaults_of_zero (zero : s.errorStatus = 0) : s.shownFaults.isEmpty = true := by
  unfold shownFaults
  split
  · rw [zero]
    exact beq_iff_eq.mpr BitVec.zero_and
  · rfl

theorem irqPending_of_latched
    (enabled : (⟨s.errorEnable⟩ : Faults).contains Faults.interrupting = true)
    (line : Intr.error.isSet s.intrEnable = true)
    (latched : s.errorStatus &&& Faults.interrupting.bits ≠ 0) : s.irqPending = true := by
  have some := Field.ne_zero_of_isSet _ _ (s.pending_error enabled line latched)
  simpa [irqPending, pending] using some

end SerialBus.Simulator
