import SerialBus.Proofs.SegmentLists
import SerialBus.Proofs.Simulator.Driver
import SerialBus.Transfer.Transaction

namespace SerialBus

namespace Segment

def ticks (g : Segment) : Nat :=
  if g.direction = .dummy then (g.len.toNat + 7) / 8 else (g.len.toNat + 3) / 4

theorem entry_usesTx (g : Segment) (csid : Word) (csaat : Bool) :
    (g.entry csid csaat).usesTx = g.direction.usesTx := by
  unfold Simulator.Entry.usesTx entry
  cases g.direction <;> rfl

theorem entry_usesRx (g : Segment) (csid : Word) (csaat : Bool) :
    (g.entry csid csaat).usesRx = g.direction.usesRx := by
  unfold Simulator.Entry.usesRx entry
  cases g.direction <;> rfl

theorem entry_ticks (g : Segment) (csid : Word) (csaat : Bool) :
    (g.entry csid csaat).ticks = g.ticks := by
  unfold Simulator.Entry.ticks Simulator.Entry.ticksFor Simulator.Entry.perTick ticks entry
  cases g.direction <;> rfl

theorem share_usesTx (g : Segment) (csid : Word) (csaat : Bool) :
    Simulator.Entry.share Simulator.Entry.usesTx (g.entry csid csaat) = g.txWords := by
  rw [Simulator.Entry.share, entry_usesTx, entry_ticks, txWords, ticks, words, wordsFor]
  cases g.direction <;> rfl

theorem share_usesRx (g : Segment) (csid : Word) (csaat : Bool) :
    Simulator.Entry.share Simulator.Entry.usesRx (g.entry csid csaat) = g.rxWords := by
  rw [Simulator.Entry.share, entry_usesRx, entry_ticks, rxWords, ticks, words, wordsFor]
  cases g.direction <;> rfl

theorem validateAll_eq_ok (gs : List Segment) (counts : WordCounts)
    (counted : validateAll gs = .ok counts) :
    gs ≠ [] ∧ (∀ g ∈ gs, g.validate = .ok ()) ∧ counts.tx = (gs.map txWords).sum ∧
      counts.rx = (gs.map rxWords).sum := by
  obtain ⟨some, -, all, rfl⟩ := (validateAll_eq_ok_iff gs counts).mp counted
  exact ⟨List.ne_nil_of_length_pos some, fun g member => validateAt_of_admissible (all g member) 0,
    wordsBy_eq_sum _ gs, wordsBy_eq_sum _ gs⟩

end Segment

namespace Buffer

theorem size_le_size_store (b : Buffer) (start : Nat) (ws : List Word) :
    b.size ≤ (b.store start ws).size := by
  simp only [store, size, List.length_append, List.length_take, List.length_drop]
  omega

theorem getElem?_store (b : Buffer) (start : Nat) (ws : List Word) (inside : start ≤ b.size)
    (i : Nat) (beyond : start + ws.length ≤ i) : (b.store start ws).words[i]? = b.words[i]? := by
  have count : (b.words.take start ++ ws).length = start + ws.length := by
    rw [List.length_append, List.length_take_of_le inside]
  simp only [store]
  rw [List.getElem?_append_right (by rw [count]; exact beyond), count, List.getElem?_drop,
    Nat.add_sub_cancel' beyond]

theorem store_store (b : Buffer) (ws vs : List Word) :
    (b.store 0 ws).store ws.length vs = b.store 0 (ws ++ vs) := by
  simp [store]

theorem store_nil (b : Buffer) (start : Nat) : b.store start [] = b := by
  simp [store]

theorem take_store_zero (b : Buffer) (ws : List Word) (n : Nat) (whole : ws.length = n) :
    (b.store 0 ws).words.take n = ws := by
  subst whole
  simp [store]

end Buffer

namespace Buffers

/-- The buffers with words received into the start of the second. -/
def filled (b : Buffers) (ws : List Word) : Buffers :=
  { b with rx := b.rx.map fun x => x.store 0 ws }

def outgoing (b : Buffers) : List Word :=
  match b.tx with
  | some x => x.words.take b.txLen
  | none => []

theorem filled_nil (b : Buffers) : b.filled [] = b := by
  have same : (b.rx.map fun x => x.store 0 []) = b.rx := by
    cases b.rx <;> simp [Buffer.store_nil]
  rw [filled, same]

def room (buffer : Option Buffer) : Nat := (buffer.map Buffer.size).getD 0

theorem le_room_iff (buffer : Option Buffer) (n : Nat) :
    n ≤ room buffer ↔ (n ≠ 0 → ∃ b, buffer = some b ∧ n ≤ b.size) := by
  cases buffer with
  | none => simp [room]
  | some b =>
    simp only [room, Option.map_some, Option.getD_some, Option.some.injEq, exists_eq_left']
    omega

theorem fits_iff (buffer : Option Buffer) (len : Nat) :
    fits buffer len = true ↔ len ≤ room buffer := by
  cases buffer with
  | none => simp [fits, room]
  | some b =>
    simp only [fits, room, Option.any_some, Bool.or_eq_true, beq_iff_eq, decide_eq_true_eq,
      Option.map_some, Option.getD_some]
    omega

theorem check_eq (b : Buffers) :
    b.check = if b.txLen ≤ room b.tx ∧ b.rxLen ≤ room b.rx then .ok ()
      else .error .lengthInvalid := by
  simp only [check, Bool.and_eq_true, fits_iff]

theorem room_of_check (b : Buffers) (checked : b.check = .ok ()) :
    b.txLen ≤ room b.tx ∧ b.rxLen ≤ room b.rx := by
  rw [b.check_eq] at checked
  by_contra short
  rw [if_neg short] at checked
  cases checked

theorem check_eq_ok (b : Buffers) (checked : b.check = .ok ()) :
    b.outgoing.length = b.txLen ∧ (b.rxLen ≠ 0 → ∃ x, b.rx = some x ∧ b.rxLen ≤ x.size) := by
  obtain ⟨sends, receives⟩ := b.room_of_check checked
  refine ⟨?_, (le_room_iff b.rx b.rxLen).mp receives⟩
  unfold outgoing
  cases lent : b.tx with
  | none =>
    rw [lent] at sends
    exact (Nat.le_zero.mp sends).symm
  | some x =>
    rw [lent] at sends
    exact List.length_take_of_le sends

theorem fits_filled (b : Buffers) (checked : b.check = .ok ()) (ws : List Word) :
    b.rxLen = 0 ∧ b.rx = none ∨ ∃ x, b.rx = some x ∧ b.rxLen ≤ (x.store 0 ws).size := by
  obtain ⟨-, long⟩ := b.check_eq_ok checked
  cases lent : b.rx with
  | none =>
    by_cases zero : b.rxLen = 0
    · exact .inl ⟨zero, rfl⟩
    · obtain ⟨x, has, -⟩ := long zero
      rw [lent] at has
      cases has
  | some x =>
    refine .inr ⟨x, rfl, ?_⟩
    by_cases none : b.rxLen = 0
    · omega
    · obtain ⟨y, has, enough⟩ := long none
      rw [lent] at has
      cases has
      exact Nat.le_trans enough (x.size_le_size_store 0 ws)

end Buffers

namespace Transaction

/-- The commands of a transaction on a chip select, which stays asserted up to the last of them. -/
def entries (t : Transaction) (csid : Word) : List Simulator.Entry :=
  t.segments.mapIdx fun i g => g.entry csid (decide (i + 1 < t.segments.length))

def txWords (t : Transaction) : Nat := (t.segments.map Segment.txWords).sum

def rxWords (t : Transaction) : Nat := (t.segments.map Segment.rxWords).sum

def ticks (t : Transaction) : Nat := (t.segments.map Segment.ticks).sum

theorem length_entries (t : Transaction) (csid : Word) :
    (t.entries csid).length = t.segments.length := by
  simp [entries]

theorem entries_at (t : Transaction) (csid : Word) (i : Nat) (inside : i < t.segments.length) :
    (t.entries csid).take (i + 1) = (t.entries csid).take i ++
        [t.segments[i].entry csid (decide (i + 1 < t.segments.length))] ∧
      (t.entries csid).drop i =
        t.segments[i].entry csid (decide (i + 1 < t.segments.length)) ::
          (t.entries csid).drop (i + 1) := by
  have within : i < (t.entries csid).length := by
    rw [t.length_entries]
    exact inside
  have entry : (t.entries csid)[i] =
      t.segments[i].entry csid (decide (i + 1 < t.segments.length)) := by
    simp only [entries, List.getElem_mapIdx]
  rw [List.take_succ_eq_append_getElem within, List.drop_eq_getElem_cons within, entry]
  exact ⟨rfl, rfl⟩

theorem sum_share_take (t : Transaction) (csid : Word) (p : Simulator.Entry → Bool) (i : Nat)
    (inside : i < t.segments.length) :
    (((t.entries csid).take (i + 1)).map (Simulator.Entry.share p)).sum =
      (((t.entries csid).take i).map (Simulator.Entry.share p)).sum + Simulator.Entry.share p
        (t.segments[i].entry csid (decide (i + 1 < t.segments.length))) := by
  rw [(t.entries_at csid i inside).1, List.map_append, List.sum_append]
  simp

theorem map_entries {α : Type} (t : Transaction) (csid : Word) (f : Simulator.Entry → α)
    (h : Segment → α) (same : ∀ g csaat, f (g.entry csid csaat) = h g) :
    (t.entries csid).map f = t.segments.map h := by
  apply List.ext_getElem
  · simp [entries]
  · intro i left right
    simp [entries, same]

theorem sum_share_tx (t : Transaction) (csid : Word) :
    ((t.entries csid).map (Simulator.Entry.share Simulator.Entry.usesTx)).sum = t.txWords := by
  rw [t.map_entries csid _ Segment.txWords fun g csaat => g.share_usesTx csid csaat, txWords]

theorem sum_share_rx (t : Transaction) (csid : Word) :
    ((t.entries csid).map (Simulator.Entry.share Simulator.Entry.usesRx)).sum = t.rxWords := by
  rw [t.map_entries csid _ Segment.rxWords fun g csaat => g.share_usesRx csid csaat, rxWords]

theorem sum_share_all (t : Transaction) (csid : Word) :
    ((t.entries csid).map (Simulator.Entry.share fun _ => true)).sum = t.ticks := by
  rw [t.map_entries csid _ Segment.ticks fun g csaat => ?_, ticks]
  rw [Simulator.Entry.share, if_pos rfl, g.entry_ticks csid csaat]

theorem validate_eq_ok (t : Transaction) (valid : t.validate = .ok ()) :
    t.segments ≠ [] ∧ (∀ g ∈ t.segments, g.validate = .ok ()) ∧ t.buffers.check = .ok () := by
  unfold validate at valid
  cases counted : Segment.validateAll t.segments with
  | error err =>
    rw [counted] at valid
    cases valid
  | ok counts =>
    rw [counted] at valid
    obtain ⟨some, segments, -, -⟩ := Segment.validateAll_eq_ok t.segments counts counted
    exact ⟨some, segments, valid⟩

theorem generic_of_rejected (gs : List Segment) (tx rx : Option Buffer) (e : SegmentError)
    (rejected : Segment.validateAll gs = .error e) :
    generic gs tx rx = .error ⟨.segmentInvalid, { tx, rx }⟩ := by
  simp only [generic, rejected]
  rfl

theorem generic_of_counted (gs : List Segment) (tx rx : Option Buffer) (counts : WordCounts)
    (counted : Segment.validateAll gs = .ok counts) :
    generic gs tx rx =
      .ok { segments := gs, buffers := { tx, txLen := counts.tx, rx, rxLen := counts.rx } } := by
  obtain ⟨-, few, -, -⟩ := (Segment.validateAll_eq_ok_iff gs counts).mp counted
  have bounded : Segment.bounded gs = .ok gs := if_neg (Nat.not_lt.mpr few)
  simp only [generic, counted, bounded]

theorem generic_eq_ok {gs : List Segment} {tx rx : Option Buffer} {t : Transaction}
    (built : generic gs tx rx = .ok t) :
    ∃ counts, Segment.validateAll gs = .ok counts ∧
      t = { segments := gs, buffers := { tx, txLen := counts.tx, rx, rxLen := counts.rx } } := by
  cases counted : Segment.validateAll gs with
  | error e =>
    rw [generic_of_rejected gs tx rx e counted] at built
    cases built
  | ok counts =>
    rw [generic_of_counted gs tx rx counts counted] at built
    exact ⟨counts, rfl, (Except.ok.inj built).symm⟩

def Constructed (t : Transaction) : Prop :=
  (∃ buffer len, t = .tx buffer len) ∨ (∃ buffer len, t = .rx buffer len) ∨
    (∃ tx rx len, t = .bidir tx rx len) ∨
    ∃ segments tx rx, Transaction.generic segments tx rx = .ok t

theorem Constructed.totals {t : Transaction} (constructed : t.Constructed) :
    t.txWords = t.buffers.txLen ∧ t.rxWords = t.buffers.rxLen := by
  rcases constructed with ⟨buffer, len, rfl⟩ | ⟨buffer, len, rfl⟩ | ⟨a, b, len, rfl⟩ |
    ⟨segments, a, b, built⟩
  · exact ⟨rfl, rfl⟩
  · exact ⟨rfl, rfl⟩
  · exact ⟨rfl, rfl⟩
  · obtain ⟨counts, counted, rfl⟩ := generic_eq_ok built
    obtain ⟨-, -, tx, rx⟩ := Segment.validateAll_eq_ok segments counts counted
    exact ⟨tx.symm, rx.symm⟩

end Transaction

end SerialBus
