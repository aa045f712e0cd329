import SerialBus.Proofs.Simulator.Interrupts

namespace SerialBus

/-- A block whose hardware latches faults before each access to it. -/
structure Racing where
  block : Simulator
  arrivals : Nat → Word
  -- the faults that were latched at some time
  seen : Word

namespace Racing

def latch (r : Racing) : Racing where
  block := r.block.raise (r.arrivals 0)
  arrivals n := r.arrivals (n + 1)
  seen := r.seen ||| r.arrivals 0

instance : RegisterBlock Racing where
  read reg r :=
    let (w, block) := RegisterBlock.read reg r.latch.block
    (w, { r.latch with block })
  write reg w r := { r.latch with block := RegisterBlock.write reg w r.latch.block }
  patience r := RegisterBlock.patience r.block

variable (s : Simulator) (arrivals : Nat → Word) (limits : Limits)

def of : Racing := ⟨s, arrivals, s.errorStatus⟩

def before (arrivals : Nat → Word) : Nat → Word
  | 0 => 0
  | n + 1 => before arrivals n ||| arrivals n

def watched (n : Nat) : Racing where
  block := s.raise (before arrivals n)
  arrivals k := arrivals (n + k)
  seen := s.errorStatus ||| before arrivals n

/-- Faults that were latched, but are neither shown by the interrupt nor latched any more. -/
def lost (irq : Interrupt) (r : Racing) : Word :=
  r.seen &&& ~~~(irq.faults.bits ||| r.block.errorStatus)

def lostByTake : Word :=
  let (irq, h) := Interrupt.take (⟨of s arrivals, limits⟩ : Host Racing)
  lost irq h.block

theorem watched_zero : watched s arrivals 0 = of s arrivals := by
  have zero : s.errorStatus ||| (0 : Word) = s.errorStatus := BitVec.or_zero
  simp only [watched, of, before, Simulator.raise, zero, Nat.zero_add]

theorem latch_watched (n : Nat) : (watched s arrivals n).latch = watched s arrivals (n + 1) := by
  have shifted : (fun k => arrivals (n + (k + 1))) = fun k => arrivals (n + 1 + k) := by
    funext k
    congr 1
    omega
  simp only [latch, watched, before, Simulator.raise, BitVec.or_assoc, Nat.add_zero, shifted]

theorem intrPending_watched :
    (⟨of s arrivals, limits⟩ : Host Racing).intrPending =
      ((watched s arrivals 1).block.pending, ⟨watched s arrivals 2, limits⟩) := by
  rw [← watched_zero]
  have first := latch_watched s arrivals 0
  have second := latch_watched s arrivals 1
  have state : (⟨watched s arrivals 0, limits⟩ : Host Racing).read .intrState =
      ((watched s arrivals 1).block.intrState, ⟨watched s arrivals 1, limits⟩) := by
    rw [← first]
    rfl
  have enable : (⟨watched s arrivals 1, limits⟩ : Host Racing).read .intrEnable =
      ((watched s arrivals 1).block.intrEnable, ⟨watched s arrivals 2, limits⟩) := by
    rw [← second]
    rfl
  simp only [Host.intrPending, state, enable, Simulator.pending]

theorem pendingEvents_watched (n : Nat) :
    ∃ events, (⟨watched s arrivals n, limits⟩ : Host Racing).pendingEvents =
      (events, ⟨watched s arrivals (n + 2), limits⟩) := by
  rw [← latch_watched s arrivals (n + 1), ← latch_watched s arrivals n]
  exact ⟨_, rfl⟩

theorem faults_watched (n : Nat) :
    (⟨watched s arrivals n, limits⟩ : Host Racing).faults =
      (.truncate (s.errorStatus ||| before arrivals (n + 1)),
        ⟨watched s arrivals (n + 1), limits⟩) := by
  rw [← latch_watched s arrivals n]
  simp only [Host.faults, Host.read, RegisterBlock.read, latch_watched]
  rfl

theorem acknowledgeFaults_watched (n : Nat) :
    ((⟨watched s arrivals n, limits⟩ : Host Racing).acknowledgeFaults.block.seen =
        s.errorStatus ||| before arrivals (n + 1)) ∧
      (⟨watched s arrivals n, limits⟩ : Host Racing).acknowledgeFaults.block.block.errorStatus =
        (s.errorStatus ||| before arrivals (n + 1)) &&& ~~~(FlagSet.all : Faults).bits ∧
      (⟨watched s arrivals n, limits⟩ : Host Racing).acknowledgeFaults.block.arrivals 0 =
        arrivals (n + 1) := by
  have latched := latch_watched s arrivals n
  simp only [Host.acknowledgeFaults, Host.write, RegisterBlock.write, latched]
  exact ⟨rfl, rfl, rfl⟩

theorem acknowledgeIntr_faults (h : Host Racing) (bits : Word) :
    (h.acknowledgeIntr bits).block.seen = h.block.seen ||| h.block.arrivals 0 ∧
      (h.acknowledgeIntr bits).block.block.errorStatus =
        h.block.block.errorStatus ||| h.block.arrivals 0 :=
  ⟨rfl, rfl⟩

def look : Nat := if Intr.event.isSet (watched s arrivals 1).block.pending then 4 else 2

theorem cleared_unseen (read gap late named : Word) :
    (read ||| gap ||| late) &&& ~~~(read &&& named ||| ((read ||| gap) &&& ~~~named ||| late)) =
      gap &&& named &&& ~~~(read ||| late) := by
  apply BitVec.eq_of_getLsbD_eq
  intro i inside
  simp only [BitVec.getLsbD_and, BitVec.getLsbD_or, BitVec.getLsbD_not, inside, decide_true,
    Bool.true_and]
  cases read.getLsbD i <;> cases gap.getLsbD i <;> cases late.getLsbD i <;>
    cases named.getLsbD i <;> rfl

theorem lost_of_latched (irq : Interrupt) (r : Racing) (kept : r.seen = r.block.errorStatus) :
    lost irq r = 0 := by
  apply BitVec.eq_of_getLsbD_eq
  intro i inside
  simp only [lost, kept, BitVec.getLsbD_and, BitVec.getLsbD_or, BitVec.getLsbD_not, inside,
    decide_true, Bool.true_and]
  cases r.block.errorStatus.getLsbD i <;> simp

/-- Taking an interrupt loses the named faults that are first latched between the access that reads
    the faults and the one that clears them, unless they are latched again before the last access.
    If no fault interrupt is pending nothing is cleared and nothing lost. -/
theorem lost_take :
    lostByTake s arrivals limits =
      if Intr.error.isSet (watched s arrivals 1).block.pending then
        arrivals (look s arrivals + 1) &&& (FlagSet.all : Faults).bits &&&
          ~~~(s.errorStatus ||| before arrivals (look s arrivals + 1) |||
            arrivals (look s arrivals + 2))
      else 0 := by
  have pending := intrPending_watched s arrivals limits
  have looked : ∃ events,
      (if Intr.event.isSet (watched s arrivals 1).block.pending then
          (⟨watched s arrivals 2, limits⟩ : Host Racing).pendingEvents
        else (.empty, ⟨watched s arrivals 2, limits⟩)) =
      ((events, ⟨watched s arrivals (look s arrivals), limits⟩) : Events × Host Racing) := by
    unfold look
    split
    · exact pendingEvents_watched s arrivals limits 2
    · exact ⟨_, rfl⟩
  obtain ⟨events, shown⟩ := looked
  simp only [lostByTake, Interrupt.take, pending, shown]
  generalize look s arrivals = n
  -- counted from zero, access `n` reads the faults, the next clears them, and the last one
  -- acknowledges the interrupt
  by_cases error : Intr.error.isSet (watched s arrivals 1).block.pending = true
  · have some := Field.ne_zero_of_isSet _ _ error
    obtain ⟨seen, status, next⟩ := acknowledgeFaults_watched s arrivals limits (n + 1)
    have gap : s.errorStatus ||| before arrivals (n + 2) =
        s.errorStatus ||| before arrivals (n + 1) ||| arrivals (n + 1) := by
      rw [before, BitVec.or_assoc]
    simp only [error, if_true, some, ne_eq, not_false_eq_true, faults_watched, lost,
      acknowledgeIntr_faults, seen, status, next, gap]
    exact cleared_unseen (s.errorStatus ||| before arrivals (n + 1)) (arrivals (n + 1))
      (arrivals (n + 2)) (FlagSet.all : Faults).bits
  · simp only [error, Bool.false_eq_true, if_false]
    apply lost_of_latched
    split
    · rfl
    · rfl

/-- A fault that comes up behind the look at the faults is cleared unseen. -/
theorem take_loses_fault :
    ¬ ∀ (s : Simulator) (arrivals : Nat → Word) (limits : Limits),
      lostByTake s arrivals limits = 0 := by
  intro kept
  have none := kept
    { Simulator.fresh {} with
      intrEnable := Intr.error.flag, errorEnable := Faults.interrupting.bits
      errorStatus := Faults.cmdBusy.bits }
    (fun n => if n = 3 then Faults.overflow.bits else 0) {}
  revert none
  decide +kernel

end Racing

end SerialBus
