import SerialBus.Proofs.Simulator.Interrupts
import SerialBus.Proofs.Simulator.Passage

namespace SerialBus

namespace Simulator

variable (s : Simulator)

theorem line_of_pending (untested : s.intrLatched = 0) (raised : s.irqPending = true) :
    Intr.event.isSet s.pending = true ∨ Intr.error.isSet s.pending = true := by
  have some : s.pending ≠ 0 := by simpa [irqPending, pending] using raised
  -- the lowest bit that is pending is one of the two lines, as no other bit is ever raised
  have bit := BitVec.getLsbD_true_ctz_of_ne_zero some
  generalize s.pending.ctz.toNat = i at bit
  have line : i = Intr.event.offset ∨ i = Intr.error.offset := by
    by_contra neither
    rw [not_or] at neither
    have down : s.intrState.getLsbD i = false := by
      rw [intrState, untested]
      split <;> split <;>
        simp [Intr.error.getLsbD_flag (by decide) rfl, Intr.event.getLsbD_flag (by decide) rfl,
          neither]
    rw [pending, BitVec.getLsbD_and, down, Bool.false_and] at bit
    cases bit
  rcases line with rfl | rfl
  · exact .inl ((Intr.event.isSet_eq_getLsbD rfl _).trans bit)
  · exact .inr ((Intr.error.isSet_eq_getLsbD rfl _).trans bit)

theorem shown_of_pending (untested : s.intrLatched = 0)
    (known : (FlagSet.all : Faults).contains ⟨s.errorEnable⟩ = true)
    (raised : s.irqPending = true) :
    s.shownEvents.isEmpty = false ∨ s.shownFaults.isEmpty = false := by
  have clear (f : Field) : f.isSet s.intrLatched = false := by rw [untested, Field.isSet_zero]
  rcases s.line_of_pending untested raised with event | error
  · have cause := event
    rw [pending, Field.isSet_and _ rfl, intrState_event, clear, Bool.false_or,
      Bool.and_eq_true, decide_eq_true_iff] at cause
    have shown : s.shownEvents.bits = s.eventLevels &&& s.eventEnable := by
      rw [shownEvents, if_pos event]
      change (⟨s.status⟩ : Status).events.bits &&& (s.eventEnable &&& _) = _
      rw [events_status, BitVec.and_comm s.eventEnable, ← BitVec.and_assoc, eventLevels_known]
    left
    simpa [FlagSet.isEmpty, shown] using cause.1
  · have cause := error
    rw [pending, Field.isSet_and _ rfl, intrState_error, clear, Bool.false_or,
      Bool.and_eq_true, decide_eq_true_iff] at cause
    have whole : (FlagSet.all : Faults).bits &&& s.errorEnable = s.errorEnable :=
      beq_iff_eq.mp known
    right
    have some : s.errorStatus &&& (FlagSet.all : Faults).bits ≠ 0 := by
      intro none
      apply cause.1
      rw [← whole, ← BitVec.and_assoc, none]
      exact BitVec.zero_and
    simpa [shownFaults, error, FlagSet.isEmpty, FlagSet.truncate] using some

theorem intrLatched_undergo (h : Happening) (latched : s.intrLatched = 0)
    (untested : ∀ w, h = .write .intrTest w → w = 0) : (undergo h s).intrLatched = 0 := by
  cases h with
  | read r =>
    cases r with
    | rxData =>
      change s.popData.2.intrLatched = 0
      unfold popData
      split <;> exact latched
    | _ => exact latched
  | write r w =>
    cases r with
    | intrState =>
      change s.intrLatched &&& ~~~w = 0
      rw [latched]
      exact BitVec.zero_and
    | intrTest =>
      change s.intrLatched ||| w = 0
      rw [latched, untested w rfl]
      rfl
    | alertTest | control | txData =>
      simp only [undergo, RegisterBlock.write, writeRegister, applyWrite, pushData]
      split <;> exact latched
    | command =>
      change (pushCommand _ w).intrLatched = 0
      rcases pushCommand_cases { s with writes := s.writes ++ [(.command, w)] } w with
        ⟨bits, pushed⟩ | pushed
      · rw [pushed]
        exact latched
      · rw [pushed]
        exact latched
    | _ => exact latched
  | move m =>
    cases m with
    | tick => exact (congrArg Registers.intrLatched s.registers_step).trans latched
    | _ => exact latched

theorem intrLatched_live (hs : List Happening) (latched : s.intrLatched = 0)
    (untested : ∀ w, .write .intrTest w ∈ hs → w = 0) : (live hs s).intrLatched = 0 := by
  induction hs generalizing s with
  | nil => exact latched
  | cons h rest ih =>
    refine ih _ (s.intrLatched_undergo h latched fun w test => untested w ?_) fun w member =>
      untested w (List.mem_cons_of_mem h member)
    rw [test]
    exact List.mem_cons_self

end Simulator

namespace Interrupt

open Simulator (Happening live fresh)

/-- What a look at a block has to show, and what it may leave behind. -/
structure Snapshot (s : Simulator) (irq : Interrupt) (t : Simulator) : Prop where
  events : irq.events.bits =
    if Intr.event.isSet (s.intrState &&& s.intrEnable) then
      s.eventLevels &&& (s.eventEnable &&& (FlagSet.all : Events).bits)
    else 0
  faults : irq.faults.bits =
    if Intr.error.isSet (s.intrState &&& s.intrEnable) then
      s.errorStatus &&& (FlagSet.all : Faults).bits
    else 0
  errorStatus : t.errorStatus =
    if Intr.error.isSet (s.intrState &&& s.intrEnable) then
      s.errorStatus &&& ~~~(FlagSet.all : Faults).bits
    else s.errorStatus
  intrLatched : ∀ i, t.intrLatched.getLsbD i =
    (s.intrLatched.getLsbD i && !(s.intrState.getLsbD i && s.intrEnable.getLsbD i))
  rest : t = { s with
    errorStatus := t.errorStatus, intrLatched := t.intrLatched, writes := t.writes }

theorem snapshot_shown (s : Simulator) :
    Snapshot s ⟨s.shownEvents, s.shownFaults⟩ s.acknowledged where
  events := by
    rw [Simulator.shownEvents, apply_ite FlagSet.bits, ← Simulator.events_status]
    rfl
  faults := apply_ite FlagSet.bits _ _ _
  errorStatus := by rw [Simulator.acknowledged_eq]; rfl
  intrLatched i := by
    rw [Simulator.acknowledged_eq]
    change (s.intrLatched &&& ~~~(s.intrState &&& s.intrEnable)).getLsbD i = _
    by_cases inside : i < 32
    · simp [inside]
    · simp [BitVec.getLsbD_of_ge _ i (Nat.not_lt.mp inside)]
  rest := by rw [Simulator.acknowledged_eq]

/-- A look at the interrupts of any block is exact. If the line of the block is up, not for a test,
    and no unknown faults are enabled, it shows a cause; and without a write for a test no
    interrupt is latched, whatever the block has gone through. -/
theorem snapshot_exact (h : Host Simulator) :
    ∃ irq t, take h = (irq, { h with block := t }) ∧ Snapshot h.block irq t ∧
      (h.block.intrLatched = 0 → (FlagSet.all : Faults).contains ⟨h.block.errorEnable⟩ = true →
        h.block.irqPending = true → irq.isEmpty = false) ∧
      ∀ build hs, h.block = live hs (fresh build) →
        (∀ w, Happening.write .intrTest w ∈ hs → w = 0) → h.block.intrLatched = 0 := by
  refine ⟨_, _, Simulator.take_eq h, snapshot_shown h.block, ?_, ?_⟩
  · intro untested known raised
    rw [isEmpty, Bool.and_eq_false_iff]
    exact h.block.shown_of_pending untested known raised
  · intro build hs lived untested
    rw [lived]
    exact Simulator.intrLatched_live _ hs rfl untested

theorem snapshot_exact_overflowed :
    let hs : List Happening :=
      [.write .eventEnable 0xffffffff, .write .errorEnable 0x1f, .write .intrEnable 3,
        .move (.inject 0x102)]
    let h : Host Simulator := ⟨live hs (fresh {}), {}⟩
    ∃ irq t, take h = (irq, { h with block := t }) ∧ irq.isEmpty = false ∧
      irq.faults = Faults.overflow ∧
      irq.events = ⟨0x36⟩ ∧
      t.errorStatus = 0x100 := by
  intro hs h
  obtain ⟨irq, t, took, snapshot, shows, untested⟩ := snapshot_exact h
  have latched := untested {} hs rfl (by simp [hs])
  refine ⟨irq, t, took, shows latched (by decide) (by decide), ?_, ?_, ?_⟩
  · exact congrArg FlagSet.mk (snapshot.faults.trans (by decide))
  · exact congrArg FlagSet.mk (snapshot.events.trans (by decide))
  · exact snapshot.errorStatus.trans (by decide)

end Interrupt

end SerialBus
