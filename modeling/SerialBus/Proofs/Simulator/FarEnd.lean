import SerialBus.Proofs.Engine.Steady
import SerialBus.Proofs.Simulator.Passage

namespace SerialBus

namespace Simulator

/-- The words that the far end gives one after the other, each while the word that stands for it is
    sent, if any is. -/
def replies (miso : List Word) (loopback : Bool) : List (Option Word) → List Word
  | [] => []
  | sent :: rest =>
    (miso.head?.or (if loopback then sent else none)).getD 0 :: replies miso.tail loopback rest

theorem length_replies (miso : List Word) (loopback : Bool) (asks : List (Option Word)) :
    (replies miso loopback asks).length = asks.length := by
  induction asks generalizing miso with
  | nil => rfl
  | cons sent rest ih => rw [replies, List.length_cons, List.length_cons, ih]

theorem replies_append (miso : List Word) (loopback : Bool) (asks more : List (Option Word)) :
    replies miso loopback (asks ++ more) =
      replies miso loopback asks ++ replies (miso.drop asks.length) loopback more := by
  induction asks generalizing miso with
  | nil => rfl
  | cons sent rest ih =>
    rw [List.cons_append, replies, replies, List.cons_append, ih, List.length_cons,
      ← List.drop_one, List.drop_drop, Nat.add_comm]

example : replies [7] true [some 1, some 2, none] = [7, 2, 0] := rfl

theorem map_some_filterMap {α γ : Type} (f : α → Option γ) (xs : List α)
    (all : ∀ x ∈ xs, (f x).isSome = true) : (xs.filterMap f).map some = xs.map f := by
  induction xs with
  | nil => rfl
  | cons x rest ih =>
    obtain ⟨y, given⟩ := Option.isSome_iff_exists.mp (all x List.mem_cons_self)
    rw [List.filterMap_cons_some given, List.map_cons, List.map_cons, given,
      ih fun z member => all z (List.mem_cons_of_mem x member)]

variable {base s t : Simulator} {received : List Word}

structure Heard (base : Simulator) (received : List Word) (s : Simulator) (moves : List Shift) :
    Prop where
  sent : s.sent = base.sent ++ moves.filterMap Shift.sent
  received : received = replies base.miso base.loopback
    ((moves.filter fun m => m.entry.usesRx).map Shift.sent)
  own : ∀ m ∈ moves, m.entry ∈ s.accepted.drop base.accepted.length ∧
    m.sent.isSome = m.entry.usesTx

/-- Since the block was as `base`, nobody has touched its far end, and its bus has moved only for
    commands that came since. -/
structure Echo (base : Simulator) (received : List Word) (s : Simulator) : Prop where
  loopback : s.loopback = base.loopback
  miso : s.miso = base.miso.drop received.length
  grown : base.accepted.length ≤ s.accepted.length
  recent : ∀ a ∈ s.outstanding, a.entry ∈ s.accepted.drop base.accepted.length
  heard : ∃ moves, Heard base received s moves

theorem Echo.start (inactive : base.isActive = false) : Echo base [] base := by
  have nothing : base.outstanding = [] := by
    obtain ⟨current, queue⟩ := base.inactive_iff.mp inactive
    simp [outstanding, current, queue]
  refine ⟨rfl, rfl, Nat.le_refl _, ?_, [], ?_, rfl, ?_⟩
  · simp [nothing]
  · simp
  · simp

theorem Echo.of_kept (echo : Echo base received s) (loopback : t.loopback = s.loopback)
    (miso : t.miso = s.miso) (sent : t.sent = s.sent) (new : List Entry)
    (accepted : t.accepted = s.accepted ++ new)
    (after : ∀ a ∈ t.outstanding, a ∈ s.outstanding ∨ a.entry ∈ new) : Echo base received t := by
  have grown := echo.grown
  have split : t.accepted.drop base.accepted.length =
      s.accepted.drop base.accepted.length ++ new := by
    rw [accepted, List.drop_append_of_le_length grown]
  obtain ⟨moves, heard⟩ := echo.heard
  refine ⟨loopback.trans echo.loopback, miso.trans echo.miso, ?_, fun a member => ?_, moves,
    sent.trans heard.sent, heard.received, fun m member => ?_⟩
  · rw [accepted, List.length_append]
    omega
  · rw [split, List.mem_append]
    exact (after a member).imp_left (echo.recent a)
  · rw [split, List.mem_append]
    exact (heard.own m member).imp_left .inl

/-- The far end of a block, and what its commands are and have sent. -/
def beyond (s : Simulator) : Bool × List Word × List Word × List Entry × List Active :=
  (s.loopback, s.miso, s.sent, s.accepted, s.outstanding)

theorem Echo.of_beyond (echo : Echo base received s) (same : t.beyond = s.beyond) :
    Echo base received t := by
  simp only [beyond, Prod.mk.injEq] at same
  obtain ⟨loopback, miso, sent, accepted, outstanding⟩ := same
  refine echo.of_kept loopback miso sent [] (by rw [accepted, List.append_nil]) fun a member => ?_
  rw [outstanding] at member
  exact .inl member

theorem Echo.moved (echo : Echo base received s) (m : Shift)
    (loopback : t.loopback = s.loopback) (miso : t.miso = s.miso.drop m.received.toList.length)
    (sent : t.sent = s.sent ++ m.sent.toList) (accepted : t.accepted = s.accepted)
    (own : m.entry ∈ s.accepted.drop base.accepted.length)
    (after : ∀ a ∈ t.outstanding, a.entry ∈ s.accepted.drop base.accepted.length)
    (sends : m.sent.isSome = m.entry.usesTx)
    (replied : m.received = if m.entry.usesRx then
      some ((s.miso.head?.or (if s.loopback then m.sent else none)).getD 0) else none) :
    Echo base (received ++ m.received.toList) t := by
  obtain ⟨moves, heard⟩ := echo.heard
  refine ⟨loopback.trans echo.loopback, ?_, ?_, ?_, moves ++ [m], ?_, ?_, ?_⟩
  · rw [miso, echo.miso, List.drop_drop, List.length_append]
  · rw [accepted]
    exact echo.grown
  · rw [accepted]
    exact after
  · rw [sent, heard.sent, List.filterMap_append, List.append_assoc]
    cases sends : m.sent <;> simp [sends]
  · rw [List.filter_append, List.map_append, replies_append, ← heard.received]
    have count : ((moves.filter fun m => m.entry.usesRx).map Shift.sent).length =
        received.length := by
      rw [heard.received, length_replies]
    -- the script is as far on as words were received, so its head is the next reply
    rw [count, ← echo.miso, ← echo.loopback, replied]
    cases receives : m.entry.usesRx with
    | false => simp [receives, replies]
    | true => simp [receives, replies]
  · intro x member
    rw [accepted]
    rcases List.mem_append.mp member with before | now
    · exact heard.own x before
    · cases List.mem_singleton.mp now
      exact ⟨own, sends⟩

theorem beyond_takeUp (s : Simulator) : s.takeUp.beyond = s.beyond := by
  have outstanding := s.outstanding_takeUp
  unfold takeUp at outstanding ⊢
  split
  case h_1 e rest idle queued =>
    rw [idle, queued] at outstanding
    simp only [beyond, outstanding]
  case h_2 => rfl

theorem beyond_of_still (s : Simulator) (still : s.step.1 = none) :
    s.step.2.beyond = s.beyond := by
  rw [← s.beyond_takeUp]
  unfold step at still ⊢
  split
  · exact s.beyond_takeUp.symm
  · rename_i running
    simp only [running] at still ⊢
    split
    · rfl
    · split
      · rfl
      · split
        · rfl
        · rename_i moves starved full
          simp [moves, starved, full] at still

theorem Echo.shift (echo : Echo base received s) (a : Active) (current : s.current = some a)
    (supplied : s.Supplied a) :
    Echo base (received ++ (s.shift a).1.received.toList) (s.shift a).2 := by
  have own : a.entry ∈ s.accepted.drop base.accepted.length :=
    echo.recent a (by simp [outstanding, current])
  refine echo.moved (s.shift a).1 rfl ?_ rfl rfl own (fun x member => ?_)
    (shift_sent s a supplied).1 rfl
  · simp only [Simulator.shift]
    cases a.entry.usesRx <;> simp
  · rcases List.mem_append.mp member with now | later
    · by_cases last : a.remaining - a.entry.perTick = 0
      · simp [Simulator.shift, last] at now
      · simp only [Simulator.shift, last, if_false, Option.toList_some, List.mem_singleton] at now
        rw [now]
        exact own
    · exact echo.recent x (List.mem_append_right _ later)

theorem Echo.step (echo : Echo base received s) :
    Echo base (received ++ s.answer.toList) s.step.2 := by
  rcases s.step_split with ⟨a, running, taken, supplied, stepped⟩ | ⟨still, lanes⟩
  case inl =>
    have answer : s.answer = (s.takeUp.shift a).1.received := by
      rw [s.answer_of_taken a taken, shift_received s.takeUp a supplied, busWord_takeUp, tick,
        stepped]
      simp
    rw [answer, stepped]
    exact (echo.of_beyond s.beyond_takeUp).shift a taken supplied
  case inr =>
    rw [s.answer_of_still still, Option.toList_none, List.append_nil]
    exact echo.of_beyond (s.beyond_of_still still)

theorem beyond_readRegister (s : Simulator) (r : Register) :
    (s.readRegister r).2.beyond = s.beyond := by
  cases r with
  | rxData =>
    simp only [readRegister, popData]
    split <;> rfl
  | _ => rfl

theorem beyond_writeRegister (s : Simulator) (r : Register) (w : Word) (other : r ≠ .command)
    (switch : r ≠ .control) : (s.writeRegister r w).beyond = s.beyond := by
  cases r with
  | command => exact absurd rfl other
  | control => exact absurd rfl switch
  | txData =>
    simp only [writeRegister, applyWrite, pushData]
    split <;> rfl
  | alertTest =>
    simp only [writeRegister, applyWrite]
    split <;> rfl
  | _ => rfl

theorem Echo.writeControl (echo : Echo base received s) (w : Word) :
    Echo base received (s.writeRegister .control w) := by
  simp only [writeRegister, applyWrite]
  split
  · refine echo.of_kept rfl rfl rfl [] (List.append_nil _).symm fun a member => ?_
    cases member
  · exact echo.of_beyond rfl

theorem Echo.pushCommand (echo : Echo base received s) (w : Word) :
    Echo base received (s.pushCommand w) := by
  rcases s.pushCommand_cases w with ⟨bits, pushed⟩ | pushed
  · rw [pushed]
    exact echo.of_beyond rfl
  · rw [pushed]
    refine echo.of_kept rfl rfl rfl [s.decode w] rfl fun a member => ?_
    simp only [outstanding, List.map_append, List.mem_append] at member ⊢
    rcases member with now | later | new
    · exact .inl (.inl now)
    · exact .inl (.inr later)
    · obtain ⟨e, among, rfl⟩ := List.mem_map.mp new
      exact .inr among

theorem Echo.writeCommand (echo : Echo base received s) (w : Word) :
    Echo base received (s.writeRegister .command w) := by
  have logged : Echo base received { s with writes := s.writes ++ [(.command, w)] } :=
    echo.of_beyond rfl
  exact logged.pushCommand w

theorem Echo.of_silent (echo : Echo base received s)
    (kind : ∀ e ∈ s.accepted.drop base.accepted.length, e.usesRx = false) : received = [] := by
  obtain ⟨moves, heard⟩ := echo.heard
  have none : (moves.filter fun m => m.entry.usesRx) = [] := by
    rw [List.filter_eq_nil_iff]
    intro m member
    rw [kind _ (heard.own m member).1]
    exact Bool.false_ne_true
  rw [heard.received, none]
  rfl

theorem Echo.of_receiving (echo : Echo base received s)
    (kind : ∀ e ∈ s.accepted.drop base.accepted.length, e.usesTx = false ∧ e.usesRx = true) :
    received = replies base.miso base.loopback (List.replicate received.length none) := by
  obtain ⟨moves, heard⟩ := echo.heard
  have all : (moves.filter fun m => m.entry.usesRx) = moves :=
    List.filter_eq_self.mpr fun m member => (kind _ (heard.own m member).1).2
  have asks : moves.map Shift.sent = List.replicate moves.length none := by
    rw [← (List.length_map Shift.sent : (moves.map Shift.sent).length = moves.length)]
    refine List.eq_replicate_of_mem fun sent member => ?_
    obtain ⟨m, among, rfl⟩ := List.mem_map.mp member
    obtain ⟨own, sends⟩ := heard.own m among
    rwa [(kind _ own).1, Option.isSome_eq_false_iff, Option.isNone_iff_eq_none] at sends
  have same := heard.received
  rw [all, asks] at same
  have count := congrArg List.length same
  rw [length_replies, List.length_replicate] at count
  rw [count]
  exact same

theorem Echo.of_exchanging (echo : Echo base received s) (words : List Word)
    (kind : ∀ e ∈ s.accepted.drop base.accepted.length, e.usesTx = true ∧ e.usesRx = true)
    (sent : s.sent = base.sent ++ words) :
    received = replies base.miso base.loopback (words.map some) := by
  obtain ⟨moves, heard⟩ := echo.heard
  have all : (moves.filter fun m => m.entry.usesRx) = moves :=
    List.filter_eq_self.mpr fun m member => (kind _ (heard.own m member).1).2
  have own : moves.filterMap Shift.sent = words :=
    List.append_cancel_left (heard.sent.symm.trans sent)
  have asks : moves.map Shift.sent = words.map some := by
    rw [← own, map_some_filterMap]
    intro m member
    obtain ⟨came, sends⟩ := heard.own m member
    rw [sends, (kind _ came).1]
  have same := heard.received
  rwa [all, asks] at same

end Simulator

theorem Host.steady_echo (base : Simulator) (received : List Word) :
    Host.Steady fun h : Host Simulator => Simulator.Echo base received h.block where
  read r h echo := echo.of_beyond (h.block.beyond_readRegister r)
  write r w h plain echo := by
    refine echo.of_beyond (h.block.beyond_writeRegister r w ?_ ?_)
    · rintro rfl
      cases plain
    · rintro rfl
      cases plain
  control f h _ echo := echo.writeControl _
  faults h echo := echo.of_beyond rfl

end SerialBus
