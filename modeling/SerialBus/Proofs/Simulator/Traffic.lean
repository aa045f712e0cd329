import Mathlib.Algebra.Ring.Nat
import SerialBus.Simulator.Condition
import SerialBus.Simulator.Traffic

namespace SerialBus.Simulator

namespace Entry

def ticksFor (e : Entry) (n : Nat) : Nat := (n + (e.perTick - 1)) / e.perTick

def ticks (e : Entry) : Nat := e.ticksFor e.len

def share (p : Entry → Bool) (e : Entry) : Nat := if p e then e.ticks else 0

theorem perTick_pos (e : Entry) : 0 < e.perTick := by
  unfold perTick
  split <;> decide

theorem ticksFor_zero (e : Entry) : e.ticksFor 0 = 0 := by
  have positive := e.perTick_pos
  rw [ticksFor, Nat.div_eq_zero_iff]
  omega

theorem ticksFor_sub (e : Entry) (n : Nat) (left : 0 < n) :
    e.ticksFor n = e.ticksFor (n - e.perTick) + 1 := by
  have positive := e.perTick_pos
  unfold ticksFor
  by_cases last : n ≤ e.perTick
  · have done : n - e.perTick = 0 := by omega
    rw [done, Nat.div_eq_of_lt (by omega : 0 + (e.perTick - 1) < e.perTick)]
    have split : n + (e.perTick - 1) = (n - 1) + e.perTick := by omega
    rw [split, Nat.add_div_right _ positive, Nat.div_eq_of_lt (by omega)]
  · have split : n + (e.perTick - 1) = (n - e.perTick + (e.perTick - 1)) + e.perTick := by omega
    rw [split, Nat.add_div_right _ positive]

theorem ticksFor_pos (e : Entry) (n : Nat) (left : 0 < n) : 0 < e.ticksFor n := by
  rw [e.ticksFor_sub n left]
  exact Nat.succ_pos _

theorem ticksFor_of_last (e : Entry) (n : Nat) (last : n - e.perTick = 0) : e.ticksFor n ≤ 1 := by
  by_cases left : 0 < n
  · rw [e.ticksFor_sub n left, last, e.ticksFor_zero]
  · rw [Nat.eq_zero_of_not_pos left, e.ticksFor_zero]
    exact Nat.zero_le 1

end Entry

def currentOwed (p : Entry → Bool) : Option Active → Nat
  | some a => if p a.entry then a.entry.ticksFor a.remaining else 0
  | none => 0

/-- Steps that the commands of the kind `p` in the block still take. -/
def owed (p : Entry → Bool) (s : Simulator) : Nat :=
  currentOwed p s.current + (s.queue.map (Entry.share p)).sum

structure Loaded (s : Simulator) : Prop where
  current : ∀ a, s.current = some a → 0 < a.remaining
  queue : ∀ e ∈ s.queue, 0 < e.len

/-- The word that the far end gives while a word of the command `e` is moved. -/
def busWord (s : Simulator) (e : Entry) : Word :=
  match s.miso with
  | w :: _ => w
  | [] => if s.loopback && e.usesTx then s.tx.headD 0 else 0

def answer (s : Simulator) : Option Word :=
  match s.takeUp.current with
  | some a => if s.tick.1 && a.entry.usesRx then some (s.busWord a.entry) else none
  | none => none

structure Registers where
  control : Word
  options : List Word
  csid : Word
  intrEnable : Word
  intrLatched : Word
  errorEnable : Word
  errorStatus : Word
  eventEnable : Word

def registers (s : Simulator) : Registers where
  control := s.control
  options := s.options
  csid := s.csid
  intrEnable := s.intrEnable
  intrLatched := s.intrLatched
  errorEnable := s.errorEnable
  errorStatus := s.errorStatus
  eventEnable := s.eventEnable

/-- What is on its way through a block, and what has passed it. -/
structure Lanes where
  build : Build
  tx : List Word
  rx : List Word
  queue : List Entry
  current : Option Active
  sent : List Word
  accepted : List Entry

def lanes (s : Simulator) : Lanes where
  build := s.build
  tx := s.tx
  rx := s.rx
  queue := s.queue
  current := s.current
  sent := s.sent
  accepted := s.accepted

/-- What a step that moved `m` did to a block. -/
structure Moves (s : Simulator) (m : Shift) (t : Simulator) : Prop where
  build : t.build = s.build
  accepted : t.accepted = s.accepted
  tx : s.tx = m.sent.toList ++ t.tx
  sent : t.sent = s.sent ++ m.sent.toList
  rx : t.rx = s.rx ++ m.received.toList
  sends : m.sent.isSome = m.entry.usesTx
  receives : m.received.isSome = m.entry.usesRx
  answer : m.received = s.answer
  owed : ∀ p, s.owed p = t.owed p + if p m.entry then 1 else 0
  loaded : t.Loaded

structure Stays (s t : Simulator) : Prop where
  build : t.build = s.build
  accepted : t.accepted = s.accepted
  tx : t.tx = s.tx
  sent : t.sent = s.sent
  rx : t.rx = s.rx
  answer : s.answer = none
  owed : ∀ p, s.owed p = t.owed p
  active : t.isActive = s.isActive
  loaded : t.Loaded

theorem pushCommand_cases (s : Simulator) (w : Word) :
    (∃ bits, s.pushCommand w = s.raise bits) ∨
      s.pushCommand w =
        { s with accepted := s.accepted ++ [s.decode w], queue := s.queue ++ [s.decode w] } := by
  unfold pushCommand
  simp only
  split
  · exact .inl ⟨_, rfl⟩
  · split
    · exact .inl ⟨_, rfl⟩
    · split
      · exact .inl ⟨_, rfl⟩
      · exact .inr rfl

theorem registers_takeUp (s : Simulator) : s.takeUp.registers = s.registers := by
  unfold takeUp
  split <;> rfl

theorem lanes_takeUp (s : Simulator) :
    s.takeUp.lanes =
      { s.lanes with queue := s.takeUp.queue, current := s.takeUp.current } := by
  unfold takeUp
  split <;> rfl

theorem busWord_takeUp (s : Simulator) (e : Entry) : s.takeUp.busWord e = s.busWord e := by
  unfold takeUp
  split <;> rfl

theorem owed_takeUp (p : Entry → Bool) (s : Simulator) : s.takeUp.owed p = s.owed p := by
  unfold takeUp
  split
  case h_1 e rest idle queued =>
    simp only [owed, idle, queued, currentOwed, List.map_cons, List.sum_cons, Entry.share,
      Entry.ticks, Nat.zero_add]
  case h_2 => rfl

theorem isActive_takeUp (s : Simulator) : s.takeUp.isActive = s.isActive := by
  unfold takeUp
  split
  case h_1 e rest idle queued => simp [isActive, queued]
  case h_2 => rfl

theorem Loaded.takeUp {s : Simulator} (loaded : s.Loaded) : s.takeUp.Loaded := by
  unfold Simulator.takeUp
  split
  case h_1 e rest idle queued =>
    refine ⟨?_, ?_⟩
    · intro a taken
      cases taken
      exact loaded.queue e (by simp [queued])
    · intro x member
      exact loaded.queue x (by simp only [queued]; exact List.mem_cons_of_mem _ member)
  case h_2 => exact loaded

theorem current_takeUp_isSome (s : Simulator) : s.takeUp.current.isSome = s.isActive := by
  unfold takeUp isActive
  split
  case h_1 e rest idle queued => simp [queued]
  case h_2 other =>
    cases current : s.current with
    | some a => rfl
    | none =>
      cases queued : s.queue with
      | nil => simp
      | cons e rest => exact absurd queued (other e rest current)

def Supplied (s : Simulator) (a : Active) : Prop :=
  (a.entry.usesTx = true → s.tx ≠ []) ∧
    (a.entry.usesRx = true → s.rx.length < s.build.rxDepth)

theorem shift_received (s : Simulator) (a : Active) (supplied : s.Supplied a) :
    (s.shift a).1.received = if a.entry.usesRx then some (s.busWord a.entry) else none := by
  simp only [shift, busWord]
  cases a.entry.usesRx with
  | false => rfl
  | true =>
    cases script : s.miso with
    | cons w rest => rfl
    | nil =>
      cases s.loopback with
      | false => rfl
      | true =>
        cases sends : a.entry.usesTx with
        | false => rfl
        | true =>
          cases words : s.tx with
          | nil => exact absurd words (supplied.1 sends)
          | cons w rest => rfl

theorem shift_sent (s : Simulator) (a : Active) (supplied : s.Supplied a) :
    (s.shift a).1.sent.isSome = a.entry.usesTx ∧
      s.tx = (s.shift a).1.sent.toList ++ (s.shift a).2.tx := by
  simp only [shift]
  cases sends : a.entry.usesTx with
  | false => exact ⟨rfl, rfl⟩
  | true =>
    cases words : s.tx with
    | nil => exact absurd words (supplied.1 sends)
    | cons w rest => exact ⟨rfl, rfl⟩

theorem owed_shift (p : Entry → Bool) (s : Simulator) (a : Active) (left : 0 < a.remaining)
    (current : s.current = some a) :
    s.owed p = (s.shift a).2.owed p + if p a.entry then 1 else 0 := by
  have one := a.entry.ticksFor_sub a.remaining left
  by_cases done : a.remaining - a.entry.perTick = 0
  · rw [done, a.entry.ticksFor_zero] at one
    simp only [owed, shift, current, done, if_true, currentOwed, one]
    split <;> omega
  · simp only [owed, shift, current, done, if_false, currentOwed, one]
    split <;> omega

theorem Loaded.shift {s : Simulator} (loaded : s.Loaded) (a : Active) : (s.shift a).2.Loaded := by
  refine ⟨?_, loaded.queue⟩
  intro rest current
  by_cases done : a.remaining - a.entry.perTick = 0
  · simp only [Simulator.shift, done, if_true, reduceCtorEq] at current
  · simp only [Simulator.shift, done, if_false, Option.some.injEq] at current
    subst current
    exact Nat.pos_of_ne_zero done

theorem registers_step (s : Simulator) : s.step.2.registers = s.registers := by
  unfold step
  split
  · rfl
  · rw [← s.registers_takeUp]
    simp only
    split
    · rfl
    · split
      · rfl
      · split <;> rfl

theorem build_step (s : Simulator) : s.step.2.build = s.build := by
  have taken : s.takeUp.build = s.build := by
    unfold takeUp
    split <;> rfl
  unfold step
  split
  · rfl
  · rw [← taken]
    simp only
    split
    · rfl
    · split
      · rfl
      · split <;> rfl

theorem sent_step (s : Simulator) : s.sent <+: s.step.2.sent := by
  have taken : s.takeUp.sent = s.sent := by
    unfold takeUp
    split <;> rfl
  unfold step
  split
  · exact List.prefix_refl _
  · rw [← taken]
    simp only
    split
    · exact List.prefix_refl _
    · split
      · exact List.prefix_refl _
      · split
        · exact List.prefix_refl _
        · exact List.prefix_append _ _

theorem step_of_supplied (s : Simulator) (a : Active) (running : s.isRunning = true)
    (taken : s.takeUp.current = some a) (supplied : s.takeUp.Supplied a) :
    s.step = (some (s.takeUp.shift a).1, (s.takeUp.shift a).2) := by
  have fed : ¬ (a.entry.usesTx = true ∧ s.takeUp.tx = []) := fun h => supplied.1 h.1 h.2
  have room : ¬ (a.entry.usesRx = true ∧ s.takeUp.build.rxDepth ≤ s.takeUp.rx.length) := by
    intro h
    have := supplied.2 h.1
    omega
  simp only [step, running, Bool.true_eq_false, if_false, taken, fed, room]

theorem takeUp_queues (s : Simulator) :
    s.takeUp.build = s.build ∧ s.takeUp.tx = s.tx ∧ s.takeUp.rx = s.rx ∧ s.takeUp.sent = s.sent ∧
      s.takeUp.accepted = s.accepted := by
  simpa [lanes] using s.lanes_takeUp

theorem answer_of_taken (s : Simulator) (a : Active) (taken : s.takeUp.current = some a) :
    s.answer = if s.tick.1 && a.entry.usesRx then some (s.busWord a.entry) else none := by
  simp only [answer, taken]

theorem moves_of_supplied {s : Simulator} (loaded : s.Loaded) {a : Active}
    (running : s.isRunning = true) (taken : s.takeUp.current = some a)
    (supplied : s.takeUp.Supplied a) : Moves s (s.takeUp.shift a).1 (s.takeUp.shift a).2 := by
  have stepped := s.step_of_supplied a running taken supplied
  obtain ⟨build, tx, rx, sent, accepted⟩ := s.takeUp_queues
  obtain ⟨sends, words⟩ := shift_sent s.takeUp a supplied
  have received := shift_received s.takeUp a supplied
  refine
    { build := build, accepted := accepted
      tx := tx ▸ words
      sent := congrArg (· ++ (s.takeUp.shift a).1.sent.toList) sent
      rx := congrArg (· ++ (s.takeUp.shift a).1.received.toList) rx
      sends := sends, receives := ?_, answer := ?_, owed := ?_
      loaded := loaded.takeUp.shift a }
  · rw [received]
    change _ = a.entry.usesRx
    cases a.entry.usesRx <;> rfl
  · rw [received, busWord_takeUp, s.answer_of_taken a taken, tick, stepped]
    simp
  · intro p
    rw [← owed_takeUp]
    exact owed_shift p s.takeUp a (loaded.takeUp.current a taken) taken

theorem step_of_starved (s : Simulator) (a : Active) (running : s.isRunning = true)
    (taken : s.takeUp.current = some a) (starved : a.entry.usesTx = true ∧ s.takeUp.tx = []) :
    s.step = (none, { s.takeUp with txStall := true }) := by
  simp only [step, running, Bool.true_eq_false, if_false, taken, starved, and_self, if_true]

theorem step_of_full (s : Simulator) (a : Active) (running : s.isRunning = true)
    (taken : s.takeUp.current = some a) (fed : ¬ (a.entry.usesTx = true ∧ s.takeUp.tx = []))
    (full : a.entry.usesRx = true ∧ s.takeUp.build.rxDepth ≤ s.takeUp.rx.length) :
    s.step = (none, { s.takeUp with rxStall := true }) := by
  simp only [step, running, Bool.true_eq_false, if_false, taken, fed, full, and_self, if_true]

/-- Why a step moves nothing, and the block after it. Such a step may still take up the next command
    and latch a stall. -/
inductive Halts (s : Simulator) : Simulator → Prop
  | off (halted : s.isRunning = false) : Halts s s
  | idle (none : s.takeUp.current = none) : Halts s s.takeUp
  | starved (a : Active) (taken : s.takeUp.current = some a)
    (starved : a.entry.usesTx = true ∧ s.takeUp.tx = []) :
    Halts s { s.takeUp with txStall := true }
  | full (a : Active) (taken : s.takeUp.current = some a)
    (fed : ¬ (a.entry.usesTx = true ∧ s.takeUp.tx = []))
    (full : a.entry.usesRx = true ∧ s.takeUp.build.rxDepth ≤ s.takeUp.rx.length) :
    Halts s { s.takeUp with rxStall := true }

theorem step_ways (s : Simulator) :
    (∃ a, s.isRunning = true ∧ s.takeUp.current = some a ∧ s.takeUp.Supplied a ∧
        s.step = (some (s.takeUp.shift a).1, (s.takeUp.shift a).2)) ∨
      ∃ t, s.step = (none, t) ∧ s.Halts t := by
  by_cases running : s.isRunning = true
  case neg => exact .inr ⟨s, by simp [step, running], .off (by simpa using running)⟩
  cases taken : s.takeUp.current with
  | none =>
    refine .inr ⟨s.takeUp, ?_, .idle taken⟩
    simp only [step, running, Bool.true_eq_false, if_false, taken]
  | some a =>
    by_cases starved : a.entry.usesTx = true ∧ s.takeUp.tx = []
    · exact .inr ⟨_, s.step_of_starved a running taken starved, .starved a taken starved⟩
    · by_cases full : a.entry.usesRx = true ∧ s.takeUp.build.rxDepth ≤ s.takeUp.rx.length
      · exact .inr ⟨_, s.step_of_full a running taken starved full, .full a taken starved full⟩
      · have supplied : s.takeUp.Supplied a := by
          refine ⟨fun sends empty => starved ⟨sends, empty⟩, fun receives => ?_⟩
          have := not_and.mp full receives
          omega
        exact .inl ⟨a, running, rfl, supplied, s.step_of_supplied a running taken supplied⟩

theorem step_split (s : Simulator) :
    (∃ a, s.isRunning = true ∧ s.takeUp.current = some a ∧ s.takeUp.Supplied a ∧
        s.step = (some (s.takeUp.shift a).1, (s.takeUp.shift a).2)) ∨
      (s.step.1 = none ∧ (s.step.2.lanes = s.lanes ∨ s.step.2.lanes = s.takeUp.lanes)) := by
  rcases s.step_ways with moved | ⟨t, stepped, halts⟩
  · exact .inl moved
  · rw [stepped]
    cases halts with
    | off => exact .inr ⟨rfl, .inl rfl⟩
    | _ => exact .inr ⟨rfl, .inr rfl⟩

theorem answer_of_still (s : Simulator) (still : s.step.1 = none) : s.answer = none := by
  unfold answer
  split <;> simp [tick, still]

theorem inactive_iff (s : Simulator) : s.isActive = false ↔ s.current = none ∧ s.queue = [] := by
  simp [isActive]

theorem step_of_inactive (s : Simulator) (inactive : s.isActive = false) : s.step = (none, s) := by
  obtain ⟨current, queue⟩ := s.inactive_iff.mp inactive
  have taken : s.takeUp = s := by
    unfold takeUp
    split
    case h_1 e rest _ queued =>
      rw [queue] at queued
      cases queued
    case h_2 => rfl
  unfold step
  rw [taken]
  split
  · rfl
  · simp only [current]

theorem stays_of_lanes {s t : Simulator} (loaded : s.Loaded) (silent : s.answer = none)
    (lanes : t.lanes = s.lanes ∨ t.lanes = s.takeUp.lanes) : Stays s t := by
  obtain ⟨build, tx, rx, sent, accepted⟩ := s.takeUp_queues
  rcases lanes with same | same <;>
    simp only [Simulator.lanes, Lanes.mk.injEq] at same <;>
    obtain ⟨lBuild, lTx, lRx, lQueue, lCurrent, lSent, lAccepted⟩ := same
  case inl =>
    exact
      { build := lBuild, accepted := lAccepted, tx := lTx, sent := lSent, rx := lRx
        answer := silent
        owed := fun p => by rw [owed, owed, lQueue, lCurrent]
        active := by rw [isActive, isActive, lQueue, lCurrent]
        loaded := ⟨lCurrent ▸ loaded.current, lQueue ▸ loaded.queue⟩ }
  case inr =>
    exact
      { build := lBuild.trans build, accepted := lAccepted.trans accepted, tx := lTx.trans tx
        sent := lSent.trans sent, rx := lRx.trans rx, answer := silent
        owed := fun p => by rw [← owed_takeUp p s, owed, owed, lQueue, lCurrent]
        active := by rw [← isActive_takeUp s, isActive, isActive, lQueue, lCurrent]
        loaded := ⟨lCurrent ▸ loaded.takeUp.current, lQueue ▸ loaded.takeUp.queue⟩ }

theorem step_cases {s : Simulator} (loaded : s.Loaded) :
    (∃ m, s.step.1 = some m ∧ Moves s m s.step.2) ∨ (s.step.1 = none ∧ Stays s s.step.2) := by
  rcases s.step_split with ⟨a, running, taken, supplied, stepped⟩ | ⟨still, lanes⟩
  case inl =>
    refine .inl ⟨_, congrArg Prod.fst stepped, ?_⟩
    rw [stepped]
    exact moves_of_supplied loaded running taken supplied
  case inr =>
    exact .inr ⟨still, stays_of_lanes loaded (s.answer_of_still still) lanes⟩

end SerialBus.Simulator
