import SerialBus.Proofs.Run.Simulated

namespace SerialBus.Simulator

/-- What happens to a block: an access to one of its registers, or a move from outside. -/
inductive Happening
  | read (r : Register)
  | write (r : Register) (w : Word)
  | move (m : Move)

def Happening.resets : Happening → Bool
  | .write .control w => Control.reset.isSet w
  | _ => false

def undergo : Happening → Simulator → Simulator
  | .read r, s => (RegisterBlock.read r s).2
  | .write r w, s => RegisterBlock.write r w s
  | .move m, s => apply m s

def live : List Happening → Simulator → Simulator
  | [], s => s
  | h :: hs, s => live hs (undergo h s)

/-- What is noted of the happenings of a run, one after the other. -/
def along {α : Type} (note : Happening → Simulator → Option α) :
    List Happening → Simulator → List α
  | [], _ => []
  | h :: hs, s => (note h s).toList ++ along note hs (undergo h s)

def moved : Happening → Simulator → Option Shift
  | .move .tick, s => s.step.1
  | _, _ => none

def finished : Happening → Simulator → Option Entry
  | .move .tick, s => if s.step.2.current = none then s.step.1.map Shift.entry else none
  | _, _ => none

def refilled : Happening → Simulator → Option Word
  | .write .txData w, s => if s.tx.length < s.build.txDepth then some w else none
  | _, _ => none

def drained : Happening → Simulator → Option Word
  | .read .rxData, s => s.rx.head?
  | _, _ => none

def Entry.whole (e : Entry) : Active := ⟨e, e.len⟩

def outstanding (s : Simulator) : List Active := s.current.toList ++ s.queue.map Entry.whole

/-- Moves of the bus that are left of a command. Even one without a length takes a move. -/
def Active.moves (a : Active) : Nat := max 1 (a.entry.ticksFor a.remaining)

def backlog (s : Simulator) : Nat := (s.outstanding.map Active.moves).sum

variable {s t : Simulator}

theorem outstanding_takeUp (s : Simulator) : s.takeUp.outstanding = s.outstanding := by
  unfold takeUp
  split
  case h_1 e rest idle queued => simp [outstanding, idle, queued, Entry.whole]
  case h_2 => rfl

theorem outstanding_of_lanes (lanes : t.lanes = s.lanes) : t.outstanding = s.outstanding := by
  have queue : t.queue = s.queue := congrArg Lanes.queue lanes
  have current : t.current = s.current := congrArg Lanes.current lanes
  rw [outstanding, outstanding, queue, current]

theorem outstanding_of_taken (a : Active) (taken : s.takeUp.current = some a) :
    s.outstanding = a :: s.takeUp.queue.map Entry.whole := by
  rw [← outstanding_takeUp, outstanding, taken]
  rfl

theorem Active.moves_of_last (a : Active) (last : a.remaining - a.entry.perTick = 0) :
    a.moves = 1 := by
  have few := a.entry.ticksFor_of_last a.remaining last
  unfold Active.moves
  omega

theorem Active.moves_of_more (a : Active) (more : a.remaining - a.entry.perTick ≠ 0) :
    a.moves = Active.moves ⟨a.entry, a.remaining - a.entry.perTick⟩ + 1 := by
  have one := a.entry.ticksFor_sub a.remaining (by omega)
  have rest := a.entry.ticksFor_pos _ (Nat.pos_of_ne_zero more)
  simp only [Active.moves]
  omega

-- Only four kinds of happenings reach the queues of a block.

structure Passes (h : Happening) (s : Simulator) : Prop where
  lanes : (undergo h s).lanes = s.lanes
  moved : moved h s = none
  finished : finished h s = none
  refilled : refilled h s = none
  drained : drained h s = none

theorem undergo_cases (h : Happening) (s : Simulator) (kept : h.resets = false) :
    h = .move .tick ∨ (∃ w, h = .write .command w) ∨ (∃ w, h = .write .txData w) ∨
      h = .read .rxData ∨ Passes h s := by
  cases h with
  | move m =>
    cases m with
    | tick => exact .inl rfl
    | _ => exact .inr (.inr (.inr (.inr ⟨rfl, rfl, rfl, rfl, rfl⟩)))
  | read r =>
    cases r with
    | rxData => exact .inr (.inr (.inr (.inl rfl)))
    | _ => exact .inr (.inr (.inr (.inr ⟨rfl, rfl, rfl, rfl, rfl⟩)))
  | write r w =>
    cases r with
    | command => exact .inr (.inl ⟨w, rfl⟩)
    | txData => exact .inr (.inr (.inl ⟨w, rfl⟩))
    | control =>
      refine .inr (.inr (.inr (.inr ⟨?_, rfl, rfl, rfl, rfl⟩)))
      change Control.reset.isSet w = false at kept
      simp only [undergo, RegisterBlock.write, writeRegister, applyWrite, kept, Bool.false_eq_true,
        if_false]
      rfl
    | alertTest =>
      refine .inr (.inr (.inr (.inr ⟨?_, rfl, rfl, rfl, rfl⟩)))
      simp only [undergo, RegisterBlock.write, writeRegister, applyWrite]
      split <;> rfl
    | _ => exact .inr (.inr (.inr (.inr ⟨rfl, rfl, rfl, rfl, rfl⟩)))

theorem pushCommand_words (s : Simulator) (w : Word) :
    (s.pushCommand w).tx = s.tx ∧ (s.pushCommand w).rx = s.rx ∧
      (s.pushCommand w).sent = s.sent := by
  rcases s.pushCommand_cases w with ⟨bits, pushed⟩ | pushed
  · rw [pushed]
    exact ⟨rfl, rfl, rfl⟩
  · rw [pushed]
    exact ⟨rfl, rfl, rfl⟩

theorem pushData_keeps (s : Simulator) (w : Word) :
    (s.pushData w).rx = s.rx ∧ (s.pushData w).sent = s.sent ∧
      (s.pushData w).accepted = s.accepted ∧ (s.pushData w).outstanding = s.outstanding := by
  unfold pushData
  split <;> exact ⟨rfl, rfl, rfl, rfl⟩

theorem popData_keeps (s : Simulator) :
    s.popData.2.tx = s.tx ∧ s.popData.2.sent = s.sent ∧ s.popData.2.accepted = s.accepted ∧
      s.popData.2.outstanding = s.outstanding := by
  unfold popData
  split <;> exact ⟨rfl, rfl, rfl, rfl⟩

theorem kept_of_lanes (lanes : t.lanes = s.lanes ∨ t.lanes = s.takeUp.lanes) :
    t.tx = s.tx ∧ t.rx = s.rx ∧ t.sent = s.sent ∧ t.accepted = s.accepted ∧
      t.outstanding = s.outstanding := by
  obtain ⟨-, tx, rx, sent, accepted⟩ := s.takeUp_queues
  rcases lanes with same | same
  · exact ⟨congrArg Lanes.tx same, congrArg Lanes.rx same, congrArg Lanes.sent same,
      congrArg Lanes.accepted same, outstanding_of_lanes same⟩
  · exact ⟨(congrArg Lanes.tx same).trans tx, (congrArg Lanes.rx same).trans rx,
      (congrArg Lanes.sent same).trans sent, (congrArg Lanes.accepted same).trans accepted,
      (outstanding_of_lanes same).trans s.outstanding_takeUp⟩

/-- What one happening does to the words in a block: what goes into a queue or is in it already
    comes out or stays, in this order, and the block notes what it sends. -/
structure Streams (h : Happening) (s : Simulator) : Prop where
  tx : s.tx ++ (refilled h s).toList = ((moved h s).bind Shift.sent).toList ++ (undergo h s).tx
  rx : s.rx ++ ((moved h s).bind Shift.received).toList = (drained h s).toList ++ (undergo h s).rx
  sent : (undergo h s).sent = s.sent ++ ((moved h s).bind Shift.sent).toList

theorem streams_tick (s : Simulator) : Streams (.move .tick) s := by
  rcases s.step_split with ⟨a, -, -, supplied, stepped⟩ | ⟨still, lanes⟩
  · obtain ⟨-, tx, rx, sent, -⟩ := s.takeUp_queues
    have words := (shift_sent s.takeUp a supplied).2
    have received : (s.takeUp.shift a).2.rx = s.takeUp.rx ++ (s.takeUp.shift a).1.received.toList :=
      rfl
    have logged : (s.takeUp.shift a).2.sent = s.takeUp.sent ++ (s.takeUp.shift a).1.sent.toList :=
      rfl
    rw [tx] at words
    rw [rx] at received
    rw [sent] at logged
    constructor
    · simpa [refilled, moved, undergo, apply, tick, stepped] using words
    · simp [drained, moved, undergo, apply, tick, stepped, received]
    · simp [moved, undergo, apply, tick, stepped, logged]
  · obtain ⟨tx, rx, sent, -⟩ := kept_of_lanes lanes
    constructor <;> simp [refilled, drained, moved, undergo, apply, tick, still, tx, rx, sent]

theorem streams_undergo (h : Happening) (s : Simulator) (kept : h.resets = false) :
    Streams h s := by
  rcases undergo_cases h s kept with rfl | ⟨w, rfl⟩ | ⟨w, rfl⟩ | rfl | passes
  case inl => exact streams_tick s
  case inr.inl =>
    obtain ⟨tx, rx, sent⟩ := pushCommand_words { s with writes := s.writes ++ [(.command, w)] } w
    have after : undergo (.write .command w) s = pushCommand _ w := rfl
    constructor <;> simp [refilled, drained, moved, after, tx, rx, sent]
  case inr.inr.inl =>
    obtain ⟨rx, sent, -⟩ := pushData_keeps { s with writes := s.writes ++ [(.txData, w)] } w
    have after : undergo (.write .txData w) s = pushData _ w := rfl
    refine ⟨?_, by simp [drained, moved, after, rx], by simp [moved, after, sent]⟩
    by_cases room : s.tx.length < s.build.txDepth
    · simp [refilled, moved, after, pushData, room, Nat.not_le.mpr room]
    · simp [refilled, moved, after, pushData, room, Nat.not_lt.mp room, raise]
  case inr.inr.inr.inl =>
    obtain ⟨tx, sent, -⟩ := s.popData_keeps
    have after : undergo (.read .rxData) s = s.popData.2 := rfl
    refine ⟨by simp [refilled, moved, after, tx], ?_, by simp [moved, after, sent]⟩
    cases words : s.rx with
    | nil => simp [drained, moved, after, popData, words, raise]
    | cons w rest => simp [drained, moved, after, popData, words]
  case inr.inr.inr.inr =>
    have tx : (undergo h s).tx = s.tx := congrArg Lanes.tx passes.lanes
    have rx : (undergo h s).rx = s.rx := congrArg Lanes.rx passes.lanes
    have sent : (undergo h s).sent = s.sent := congrArg Lanes.sent passes.lanes
    constructor <;> simp [passes.refilled, passes.drained, passes.moved, tx, rx, sent]

theorem moved_ways (h : Happening) (s : Simulator) (m : Shift) (moves : moved h s = some m) :
    m.sent.isSome = m.entry.usesTx ∧ m.received.isSome = m.entry.usesRx := by
  cases h with
  | read | write => cases moves
  | move kind =>
    cases kind with
    | inject | pushMiso | setLoopback => cases moves
    | tick =>
      rcases s.step_split with ⟨a, -, -, supplied, stepped⟩ | ⟨still, -⟩
      · simp only [moved, stepped, Option.some.injEq] at moves
        subst moves
        refine ⟨(shift_sent s.takeUp a supplied).1, ?_⟩
        rw [shift_received s.takeUp a supplied]
        change _ = a.entry.usesRx
        cases a.entry.usesRx <;> rfl
      · simp [moved, still] at moves

/-- One happening, by what it means for the commands in a block: some may come, or the first of
    them is carried out, a move of several or the last. -/
inductive Turn (s t : Simulator) : Option Shift → Option Entry → Prop
  | waits (new : List Entry) (accepted : t.accepted = s.accepted ++ new)
      (after : t.outstanding = s.outstanding ++ new.map Entry.whole) : Turn s t none none
  | works (m : Shift) (a b : Active) (rest : List Active) (accepted : t.accepted = s.accepted)
      (before : s.outstanding = a :: rest) (after : t.outstanding = b :: rest)
      (own : m.entry = a.entry) (same : b.entry = a.entry) (less : a.moves = b.moves + 1) :
      Turn s t (some m) none
  | ends (m : Shift) (a : Active) (rest : List Active) (accepted : t.accepted = s.accepted)
      (before : s.outstanding = a :: rest) (after : t.outstanding = rest)
      (own : m.entry = a.entry) (last : a.moves = 1) : Turn s t (some m) (some a.entry)

theorem Turn.of_same (accepted : t.accepted = s.accepted)
    (outstanding : t.outstanding = s.outstanding) : Turn s t none none :=
  .waits [] (by simp [accepted]) (by simp [outstanding])

theorem turn_tick (s : Simulator) :
    Turn s (undergo (.move .tick) s) (moved (.move .tick) s) (finished (.move .tick) s) := by
  change Turn s s.step.2 s.step.1
    (if s.step.2.current = none then s.step.1.map Shift.entry else none)
  rcases s.step_split with ⟨a, -, taken, -, stepped⟩ | ⟨still, lanes⟩
  case inr =>
    obtain ⟨-, -, -, accepted, outstanding⟩ := kept_of_lanes lanes
    rw [still, Option.map_none, ite_self]
    exact .of_same accepted outstanding
  case inl =>
    obtain ⟨-, -, -, -, accepted⟩ := s.takeUp_queues
    have before := outstanding_of_taken a taken
    rw [stepped]
    by_cases last : a.remaining - a.entry.perTick = 0
    · have current : (s.takeUp.shift a).2.current = none := if_pos last
      rw [if_pos current]
      refine .ends _ a _ accepted before ?_ rfl (a.moves_of_last last)
      rw [outstanding, current]
      rfl
    · have current : (s.takeUp.shift a).2.current =
          some ⟨a.entry, a.remaining - a.entry.perTick⟩ := if_neg last
      rw [if_neg (by simp [current])]
      refine .works _ a ⟨a.entry, a.remaining - a.entry.perTick⟩ _ accepted before ?_ rfl rfl
        (a.moves_of_more last)
      rw [outstanding, current]
      rfl

theorem turn_undergo (h : Happening) (s : Simulator) (kept : h.resets = false) :
    Turn s (undergo h s) (moved h s) (finished h s) := by
  rcases undergo_cases h s kept with rfl | ⟨w, rfl⟩ | ⟨w, rfl⟩ | rfl | passes
  case inl => exact turn_tick s
  case inr.inl =>
    change Turn s (pushCommand _ w) none none
    rcases pushCommand_cases { s with writes := s.writes ++ [(.command, w)] } w with
      ⟨bits, pushed⟩ | pushed
    · rw [pushed]
      exact .of_same rfl rfl
    · rw [pushed]
      exact .waits [s.decode w] rfl (by simp [outstanding, decode])
  case inr.inr.inl =>
    obtain ⟨-, -, accepted, outstanding⟩ :=
      pushData_keeps { s with writes := s.writes ++ [(.txData, w)] } w
    exact .of_same accepted outstanding
  case inr.inr.inr.inl =>
    obtain ⟨-, -, accepted, outstanding⟩ := s.popData_keeps
    exact .of_same accepted outstanding
  case inr.inr.inr.inr =>
    rw [passes.moved, passes.finished]
    exact .of_same (congrArg Lanes.accepted passes.lanes) (outstanding_of_lanes passes.lanes)

theorem Turn.entries {way : Option Shift} {ended : Option Entry} (turn : Turn s t way ended) :
    ∃ new, t.accepted = s.accepted ++ new ∧
      s.outstanding.map Active.entry ++ new =
        ended.toList ++ t.outstanding.map Active.entry := by
  have entry : Active.entry ∘ Entry.whole = id := rfl
  cases turn with
  | waits new came after => exact ⟨new, came, by simp [after, entry]⟩
  | works m a b rest came before after own same less =>
    exact ⟨[], by simp [came], by simp [before, after, same]⟩
  | ends m a rest came before after own last =>
    exact ⟨[], by simp [came], by simp [before, after]⟩

section Run

variable (hs : List Happening)

theorem tx_live (s : Simulator) (kept : ∀ h ∈ hs, h.resets = false) :
    s.tx ++ along refilled hs s = (along moved hs s).filterMap Shift.sent ++ (live hs s).tx := by
  induction hs generalizing s with
  | nil => simp [along, live]
  | cons h rest ih =>
    have one := (streams_undergo h s (kept h (by simp))).tx
    have more := ih (undergo h s) fun x member => kept x (by simp [member])
    have split : (moved h s).toList.filterMap Shift.sent =
        ((moved h s).bind Shift.sent).toList := by
      cases moved h s with
      | none => rfl
      | some m => cases sent : m.sent <;> simp [sent]
    simp only [along, live, List.filterMap_append, split]
    rw [← List.append_assoc, one, List.append_assoc, more, List.append_assoc]

theorem rx_live (s : Simulator) (kept : ∀ h ∈ hs, h.resets = false) :
    s.rx ++ (along moved hs s).filterMap Shift.received = along drained hs s ++ (live hs s).rx := by
  induction hs generalizing s with
  | nil => simp [along, live]
  | cons h rest ih =>
    have one := (streams_undergo h s (kept h (by simp))).rx
    have more := ih (undergo h s) fun x member => kept x (by simp [member])
    have split : (moved h s).toList.filterMap Shift.received =
        ((moved h s).bind Shift.received).toList := by
      cases moved h s with
      | none => rfl
      | some m => cases received : m.received <;> simp [received]
    simp only [along, live, List.filterMap_append, split]
    rw [← List.append_assoc, one, List.append_assoc, more, List.append_assoc]

theorem moved_ways_along (s : Simulator) (m : Shift) (moves : m ∈ along moved hs s) :
    m.sent.isSome = m.entry.usesTx ∧ m.received.isSome = m.entry.usesRx := by
  induction hs generalizing s with
  | nil => cases moves
  | cons h rest ih =>
    rcases List.mem_append.mp moves with first | later
    · exact moved_ways h s m (Option.mem_toList.mp first)
    · exact ih _ later

end Run

/-- The command `a`, with the commands `before` it, among the moves of a run and its ends. -/
structure Carried (before : List Active) (a : Active) (moves : List Shift) (ends : List Entry) :
    Prop where
  -- It has ended once the bus has moved for all before it and as often as itself takes.
  ended : before.length < ends.length ↔ (before.map Active.moves).sum + a.moves ≤ moves.length
  own : before.length < ends.length → ends[before.length]? = some a.entry ∧
    ∃ earlier own later, moves = earlier ++ own ++ later ∧
      earlier.length = (before.map Active.moves).sum ∧
      own.map Shift.entry = List.replicate a.moves a.entry

namespace Carried

variable {before : List Active} {a b : Active} {m : Shift} {moves : List Shift} {ends : List Entry}

theorem none (before : List Active) (a : Active) : Carried before a [] [] := by
  have some : 1 ≤ a.moves := Nat.le_max_left _ _
  refine ⟨?_, fun done => absurd done (Nat.not_lt_zero _)⟩
  simp only [List.length_nil]
  omega

theorem last (own : m.entry = a.entry) (one : a.moves = 1) :
    Carried [] a (m :: moves) (a.entry :: ends) := by
  refine ⟨by simp [one], fun _ => ⟨rfl, [], [m], moves, rfl, rfl, ?_⟩⟩
  simp [own, one]

theorem more (next : Carried [] b moves ends) (own : m.entry = a.entry) (same : b.entry = a.entry)
    (less : a.moves = b.moves + 1) : Carried [] a (m :: moves) ends := by
  refine ⟨?_, fun done => ?_⟩
  · have ended := next.ended
    simp only [List.length_nil, List.map_nil, List.sum_nil, List.length_cons] at ended ⊢
    omega
  · obtain ⟨entry, earlier, others, later, split, few, entries⟩ := next.own done
    have first : earlier = [] := List.eq_nil_of_length_eq_zero few
    refine ⟨same ▸ entry, [], m :: others, later, by simp [split, first], rfl, ?_⟩
    simp [entries, own, same, less, List.replicate_succ]

theorem behind (next : Carried (b :: before) a moves ends) {x : Active}
    (less : x.moves = b.moves + 1) : Carried (x :: before) a (m :: moves) ends := by
  refine ⟨?_, fun done => ?_⟩
  · have ended := next.ended
    simp only [List.length_cons, List.map_cons, List.sum_cons] at ended ⊢
    omega
  · obtain ⟨entry, earlier, mine, later, split, sum, entries⟩ := next.own done
    refine ⟨entry, m :: earlier, mine, later, by simp [split], ?_, entries⟩
    simp only [List.length_cons, List.map_cons, List.sum_cons] at sum ⊢
    omega

theorem next (rest : Carried before a moves ends) {x : Active} (one : x.moves = 1) (e : Entry) :
    Carried (x :: before) a (m :: moves) (e :: ends) := by
  refine ⟨?_, fun done => ?_⟩
  · have ended := rest.ended
    simp only [List.length_cons, List.map_cons, List.sum_cons] at ended ⊢
    omega
  · obtain ⟨entry, earlier, mine, later, split, sum, entries⟩ :=
      rest.own (Nat.lt_of_succ_lt_succ done)
    refine ⟨by simpa using entry, m :: earlier, mine, later, by simp [split], ?_, entries⟩
    simp only [List.length_cons, List.map_cons, List.sum_cons] at sum ⊢
    omega

end Carried

theorem carried_live (hs : List Happening) (s : Simulator) (kept : ∀ h ∈ hs, h.resets = false)
    (before : List Active) (a : Active) (after : List Active)
    (split : s.outstanding = before ++ a :: after) :
    Carried before a (along moved hs s) (along finished hs s) := by
  induction hs generalizing s before a after with
  | nil => exact .none before a
  | cons h rest ih =>
    have one := turn_undergo h s (kept h (by simp))
    have more := ih (undergo h s) fun x member => kept x (by simp [member])
    simp only [along]
    generalize undergo h s = t at *
    generalize finished h s = ended at *
    generalize moved h s = way at *
    cases one with
    | waits new came later =>
      exact more before a (after ++ new.map Entry.whole) (by simp [later, split])
    | works m x y tail came first later own same less =>
      -- the move is one for `a` itself if nothing is before it, else for the first before it
      rw [split] at first
      cases before with
      | nil =>
        obtain ⟨rfl, rfl⟩ := List.cons_eq_cons.mp first
        exact (more [] y after later).more own same less
      | cons z others =>
        obtain ⟨rfl, rfl⟩ := List.cons_eq_cons.mp first
        exact (more (y :: others) a after later).behind less
    | ends m x tail came first later own last =>
      rw [split] at first
      cases before with
      | nil =>
        obtain ⟨rfl, rfl⟩ := List.cons_eq_cons.mp first
        exact .last own last
      | cons z others =>
        obtain ⟨rfl, rfl⟩ := List.cons_eq_cons.mp first
        exact (more others a after later).next last _

end SerialBus.Simulator
