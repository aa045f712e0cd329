import SerialBus.Proofs.Transfer.Totals

namespace SerialBus

namespace Transaction

open Buffers (room)

/-- The check passes if the transaction is `sound`, and otherwise finds a length that is wrong. -/
structure PassesIff (t : Transaction) (sound : Prop) : Prop where
  passes : sound → t.validate = .ok ()
  fails : ¬sound → t.validate = .error .lengthInvalid

theorem PassesIff.congr {t : Transaction} {p q : Prop} (checked : t.PassesIff p) (same : p ↔ q) :
    t.PassesIff q :=
  ⟨fun sound => checked.passes (same.mpr sound), fun flawed => checked.fails (flawed ∘ same.mp)⟩

theorem passesIff_of_counted (gs : List Segment) (b : Buffers) (counts : WordCounts)
    (counted : Segment.validateAll gs = .ok counts) :
    PassesIff ⟨gs, b⟩ (b.txLen ≤ room b.tx ∧ b.rxLen ≤ room b.rx) := by
  have checked : validate ⟨gs, b⟩ = b.check := by simp only [validate, counted]
  rw [b.check_eq] at checked
  exact ⟨fun sound => checked.trans (if_pos sound), fun short => checked.trans (if_neg short)⟩

theorem passesIff_single (g : Segment) (allowed : g.direction.allows g.speed = true) (b : Buffers) :
    PassesIff ⟨[g], b⟩ ((1 ≤ g.len.toNat ∧ g.len.toNat ≤ 2 ^ 24 - 1) ∧
      b.txLen ≤ room b.tx ∧ b.rxLen ≤ room b.rx) := by
  by_cases inside : 1 ≤ g.len.toNat ∧ g.len.toNat ≤ 2 ^ 24 - 1
  · have admissible : g.Admissible := ⟨allowed, inside.1, inside.2⟩
    have counted : Segment.validateAll [g] = .ok (Segment.totals [g]) :=
      Segment.validateAll_of_admissible (by simp) (by simp) (by simpa using admissible)
    exact (passesIff_of_counted [g] b _ counted).congr (iff_and_self.mpr fun _ => inside)
  -- whatever the buffers hold, the length of the only segment is looked at first
  · have flawed : g.Flawed 0 (.invalidLength 0) := .length allowed (by omega)
    have rejected : Segment.Rejected [g] (.invalidLength 0) :=
      .segment [] [] g _ (by simp) (fun x member => (nomatch member)) flawed
    refine ⟨fun sound => absurd sound.1 inside, fun _ => ?_⟩
    rw [validate, Segment.validateAll_of_rejected rejected]
    rfl

theorem generic_eq_error_iff (gs : List Segment) (tx rx : Option Buffer) (failure : Failure) :
    generic gs tx rx = .error failure ↔
      (∃ e, Segment.validateAll gs = .error e) ∧ failure = ⟨.segmentInvalid, { tx, rx }⟩ := by
  constructor
  · intro refused
    cases counted : Segment.validateAll gs with
    | ok counts => simp [generic_of_counted gs tx rx counts counted] at refused
    | error e =>
      rw [generic_of_rejected gs tx rx e counted] at refused
      exact ⟨⟨e, rfl⟩, (Except.error.inj refused).symm⟩
  · rintro ⟨⟨e, rejected⟩, rfl⟩
    exact generic_of_rejected gs tx rx e rejected

theorem room_of_valid (t : Transaction) (valid : t.validate = .ok ()) :
    t.buffers.txLen ≤ room t.buffers.tx ∧ t.buffers.rxLen ≤ room t.buffers.rx := by
  obtain ⟨-, -, checked⟩ := t.validate_eq_ok valid
  exact t.buffers.room_of_check checked

theorem wordsFor_le (len : UInt32) : wordsFor len.toNat ≤ 2 ^ 30 := by
  have bound := len.toNat_lt
  rw [wordsFor]
  omega

theorem Constructed.lengths_le {t : Transaction} (constructed : t.Constructed) :
    t.buffers.txLen ≤ 2 ^ 30 ∧ t.buffers.rxLen ≤ 2 ^ 30 := by
  rcases constructed with ⟨x, len, rfl⟩ | ⟨x, len, rfl⟩ | ⟨x, y, len, rfl⟩ | ⟨gs, x, y, built⟩
  · exact ⟨wordsFor_le len, Nat.zero_le _⟩
  · exact ⟨Nat.zero_le _, wordsFor_le len⟩
  · exact ⟨wordsFor_le len, wordsFor_le len⟩
  · obtain ⟨counts, counted, rfl⟩ := generic_eq_ok built
    obtain ⟨-, few, all, rfl⟩ := (Segment.validateAll_eq_ok_iff gs counts).mp counted
    have tx := Segment.wordsBy_le Direction.usesTx gs all
    have rx := Segment.wordsBy_le Direction.usesRx gs all
    constructor
    · change Segment.wordsBy Direction.usesTx gs ≤ 2 ^ 30
      omega
    · change Segment.wordsBy Direction.usesRx gs ≤ 2 ^ 30
      omega

/-- A transaction made from a length is sound exactly if the length is one that a command can have
    and each of its buffers holds that many bytes. One made from a list of segments is made exactly
    if the list is accepted, and is sound exactly if each way that moves words has a buffer for
    them. The lengths are the words of the segments in any case, and if the check passes the buffers
    hold them. -/
theorem constructors_consistent :
    (∀ (x y : Buffer) (len : UInt32),
      (tx x len).PassesIff
          (1 ≤ len.toNat ∧ len.toNat ≤ 2 ^ 24 - 1 ∧ len.toNat ⌈/⌉ 4 ≤ x.size) ∧
        (rx y len).PassesIff
          (1 ≤ len.toNat ∧ len.toNat ≤ 2 ^ 24 - 1 ∧ len.toNat ⌈/⌉ 4 ≤ y.size) ∧
        (bidir x y len).PassesIff
          (1 ≤ len.toNat ∧ len.toNat ≤ 2 ^ 24 - 1 ∧ len.toNat ⌈/⌉ 4 ≤ x.size ∧
            len.toNat ⌈/⌉ 4 ≤ y.size)) ∧
      (∀ (gs : List Segment) (x y : Option Buffer),
        (∀ failure, generic gs x y = .error failure ↔
          (∃ e, Segment.validateAll gs = .error e) ∧
            failure = ⟨.segmentInvalid, { tx := x, txLen := 0, rx := y, rxLen := 0 }⟩) ∧
          ((∃ counts, Segment.validateAll gs = .ok counts) →
            ∃ t, generic gs x y = .ok t ∧ t.segments = gs ∧
              t.buffers.tx = x ∧ t.buffers.rx = y ∧
              t.PassesIff
                ((t.txWords ≠ 0 → ∃ b, x = some b ∧ t.txWords ≤ b.size) ∧
                  (t.rxWords ≠ 0 → ∃ b, y = some b ∧ t.rxWords ≤ b.size)))) ∧
      ∀ t : Transaction, t.Constructed →
        t.buffers.txLen = (t.segments.map Segment.txWords).sum ∧
          t.buffers.rxLen = (t.segments.map Segment.rxWords).sum ∧
          t.buffers.txLen < 2 ^ 32 ∧ t.buffers.rxLen < 2 ^ 32 ∧
          (t.validate = .ok () →
            t.buffers.txLen ≤ room t.buffers.tx ∧ t.buffers.rxLen ≤ room t.buffers.rx) := by
  refine ⟨fun x y len => ⟨?_, ?_, ?_⟩, fun gs x y => ⟨generic_eq_error_iff gs x y, ?_⟩, ?_⟩
  · refine (passesIff_single (.tx len) rfl _).congr ?_
    rw [← Segment.wordsFor_eq]
    constructor
    · rintro ⟨⟨least, most⟩, sends, -⟩
      exact ⟨least, most, sends⟩
    · rintro ⟨least, most, sends⟩
      exact ⟨⟨least, most⟩, sends, Nat.zero_le _⟩
  · refine (passesIff_single (.rx len) rfl _).congr ?_
    rw [← Segment.wordsFor_eq]
    constructor
    · rintro ⟨⟨least, most⟩, -, receives⟩
      exact ⟨least, most, receives⟩
    · rintro ⟨least, most, receives⟩
      exact ⟨⟨least, most⟩, Nat.zero_le _, receives⟩
  · refine (passesIff_single (.bidir len) rfl _).congr ?_
    rw [← Segment.wordsFor_eq]
    exact and_assoc
  · rintro ⟨counts, counted⟩
    have built := generic_of_counted gs x y counts counted
    obtain ⟨tx, rx⟩ := Constructed.totals (.inr (.inr (.inr ⟨gs, x, y, built⟩)))
    refine ⟨_, built, rfl, rfl, rfl, ?_⟩
    refine (passesIff_of_counted gs _ counts counted).congr ?_
    rw [← Buffers.le_room_iff, ← Buffers.le_room_iff, tx, rx]
  · intro t constructed
    obtain ⟨tx, rx⟩ := constructed.totals
    obtain ⟨txSmall, rxSmall⟩ := constructed.lengths_le
    exact ⟨tx.symm, rx.symm, by omega, by omega, t.room_of_valid⟩

theorem constructors_consistent_answer :
    let gs : List Segment := [.tx 4, .dummy 8, .rx 5]
    let x : Buffer := { words := [0x9f] }
    let y : Buffer := { words := [0, 0] }
    Segment.validateAll gs = .ok ⟨1, 2⟩ ∧
      ∃ t, generic gs (some x) (some y) = .ok t ∧ t.validate = .ok () ∧
        t.buffers.rxLen ≤ room t.buffers.rx := by
  intro gs x y
  have counted : Segment.validateAll gs = .ok ⟨1, 2⟩ := by decide
  obtain ⟨-, made, held⟩ := constructors_consistent
  obtain ⟨t, built, segments, -, -, checked⟩ := (made gs (some x) (some y)).2 ⟨_, counted⟩
  have sends : t.txWords = 1 := by
    rw [txWords, segments]
    rfl
  have receives : t.rxWords = 2 := by
    rw [rxWords, segments]
    rfl
  have valid := checked.passes
    ⟨fun _ => ⟨x, rfl, sends.le⟩, fun _ => ⟨y, rfl, receives.le⟩⟩
  obtain ⟨-, -, -, -, fits⟩ := held t (.inr (.inr (.inr ⟨gs, some x, some y, built⟩)))
  exact ⟨counted, t, built, valid, (fits valid).2⟩

end Transaction

end SerialBus
