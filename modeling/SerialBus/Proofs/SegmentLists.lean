import Mathlib.Algebra.BigOperators.Group.List.Basic
import Mathlib.Algebra.Order.Floor.Div
import Mathlib.GroupTheory.GroupAction.Ring
import SerialBus.Proofs.Fields
import SerialBus.Segment

namespace SerialBus

namespace WordCounts

instance : Add WordCounts := ⟨fun a b => { tx := a.tx + b.tx, rx := a.rx + b.rx }⟩

theorem add_def (a b : WordCounts) : a + b = { tx := a.tx + b.tx, rx := a.rx + b.rx } := rfl

theorem add_assoc (a b c : WordCounts) : a + b + c = a + (b + c) := by
  simp only [add_def, Nat.add_assoc]

theorem zero_add (a : WordCounts) : { tx := 0, rx := 0 } + a = a := by
  simp only [add_def, Nat.zero_add]

end WordCounts

namespace Segment

structure Admissible (g : Segment) : Prop where
  mode : g.direction.allows g.speed = true
  some : 1 ≤ g.len.toNat
  short : g.len.toNat ≤ 2 ^ 24 - 1

def wordsBy (uses : Direction → Bool) (gs : List Segment) : Nat :=
  ((gs.filter fun g => uses g.direction).map fun g => g.len.toNat ⌈/⌉ 4).sum

def totals (gs : List Segment) : WordCounts where
  tx := wordsBy Direction.usesTx gs
  rx := wordsBy Direction.usesRx gs

/-- What is wrong with a segment; the mode comes before the length. -/
inductive Flawed (g : Segment) (index : Nat) : SegmentError → Prop
  | mode (bad : g.direction.allows g.speed = false) : Flawed g index (.invalidMode index)
  | length (mode : g.direction.allows g.speed = true)
      (bad : g.len.toNat = 0 ∨ 2 ^ 24 - 1 < g.len.toNat) : Flawed g index (.invalidLength index)

/-- What is wrong with a list; of its segments, the first that is flawed counts. -/
inductive Rejected : List Segment → SegmentError → Prop
  | empty : Rejected [] .empty
  | tooMany (gs : List Segment) (many : 16 < gs.length) : Rejected gs .tooMany
  | segment (before after : List Segment) (g : Segment) (e : SegmentError)
      (few : (before ++ g :: after).length ≤ 16) (sound : ∀ x ∈ before, x.Admissible)
      (flawed : g.Flawed before.length e) : Rejected (before ++ g :: after) e

theorem wordsFor_eq (n : Nat) : wordsFor n = n ⌈/⌉ 4 := by
  rw [wordsFor, Nat.ceilDiv_eq_add_pred_div]
  rfl

theorem wordsBy_cons (uses : Direction → Bool) (g : Segment) (gs : List Segment) :
    wordsBy uses (g :: gs) = (if uses g.direction then g.words else 0) + wordsBy uses gs := by
  unfold wordsBy
  rw [List.filter_cons]
  split
  · rw [List.map_cons, List.sum_cons, words, wordsFor_eq]
  · rw [Nat.zero_add]

theorem wordsBy_eq_sum (uses : Direction → Bool) (gs : List Segment) :
    wordsBy uses gs = (gs.map fun g => if uses g.direction then g.words else 0).sum := by
  induction gs with
  | nil => rfl
  | cons g gs ih => rw [wordsBy_cons, ih, List.map_cons, List.sum_cons]

theorem wordsBy_append (uses : Direction → Bool) (gs hs : List Segment) :
    wordsBy uses (gs ++ hs) = wordsBy uses gs + wordsBy uses hs := by
  simp only [wordsBy, List.filter_append, List.map_append, List.sum_append]

theorem wordsBy_of_perm (uses : Direction → Bool) {gs hs : List Segment} (same : gs.Perm hs) :
    wordsBy uses gs = wordsBy uses hs :=
  ((same.filter _).map _).sum_eq

theorem totals_cons (g : Segment) (gs : List Segment) :
    totals (g :: gs) = { tx := g.txWords, rx := g.rxWords } + totals gs := by
  simp only [totals, wordsBy_cons]
  rfl

theorem totals_append (gs hs : List Segment) : totals (gs ++ hs) = totals gs + totals hs := by
  simp only [totals, wordsBy_append]
  rfl

theorem totals_of_perm {gs hs : List Segment} (same : gs.Perm hs) : totals gs = totals hs := by
  simp only [totals, wordsBy_of_perm _ same]

theorem Admissible.words_le {g : Segment} (admissible : g.Admissible) : g.words ≤ 2 ^ 22 := by
  have short := admissible.short
  rw [words, wordsFor]
  omega

theorem wordsBy_le (uses : Direction → Bool) (gs : List Segment)
    (admissible : ∀ g ∈ gs, g.Admissible) : wordsBy uses gs ≤ gs.length * 2 ^ 22 := by
  induction gs with
  | nil => exact Nat.zero_le _
  | cons g gs ih =>
    have rest := ih fun x member => admissible x (List.mem_cons_of_mem g member)
    have first := (admissible g List.mem_cons_self).words_le
    rw [wordsBy_cons, List.length_cons]
    split <;> omega

theorem Flawed.not_admissible {g : Segment} {index : Nat} {e : SegmentError}
    (flawed : g.Flawed index e) : ¬g.Admissible := by
  intro admissible
  cases flawed with
  | mode bad =>
    rw [admissible.mode] at bad
    cases bad
  | length mode bad =>
    have some := admissible.some
    have short := admissible.short
    omega

theorem validateAt_cases (g : Segment) (index : Nat) :
    (g.Admissible ∧ g.validateAt index = .ok ()) ∨
      ∃ e, g.Flawed index e ∧ g.validateAt index = .error e := by
  have lengths : g.len = 0 ∨ maxLen < g.len ↔ g.len.toNat = 0 ∨ 2 ^ 24 - 1 < g.len.toNat := by
    rw [← UInt32.toNat_inj, UInt32.lt_iff_toNat_lt]
    rfl
  simp only [validateAt, lengths]
  cases mode : g.direction.allows g.speed with
  | false => exact .inr ⟨_, .mode mode, rfl⟩
  | true =>
    rw [if_neg (by decide)]
    by_cases bad : g.len.toNat = 0 ∨ 2 ^ 24 - 1 < g.len.toNat
    · exact .inr ⟨_, .length mode bad, if_pos bad⟩
    · exact .inl ⟨⟨mode, by omega, by omega⟩, if_neg bad⟩

theorem validateAt_of_admissible {g : Segment} (admissible : g.Admissible) (index : Nat) :
    g.validateAt index = .ok () := by
  rcases g.validateAt_cases index with ⟨-, passed⟩ | ⟨e, flawed, -⟩
  · exact passed
  · exact absurd admissible flawed.not_admissible

theorem Flawed.unique {g : Segment} {index : Nat} {e f : SegmentError} (first : g.Flawed index e)
    (second : g.Flawed index f) : e = f := by
  cases first with
  | mode bad =>
    cases second with
    | mode _ => rfl
    | length mode _ => simp [bad] at mode
  | length mode _ =>
    cases second with
    | mode bad => simp [bad] at mode
    | length _ _ => rfl

theorem validateAt_of_flawed {g : Segment} {index : Nat} {e : SegmentError}
    (flawed : g.Flawed index e) : g.validateAt index = .error e := by
  rcases g.validateAt_cases index with ⟨admissible, -⟩ | ⟨f, other, refused⟩
  · exact absurd admissible flawed.not_admissible
  · rw [refused, flawed.unique other]

theorem countFrom_append (before after : List Segment) (index : Nat)
    (sound : ∀ g ∈ before, g.Admissible) :
    countFrom index (before ++ after) =
      (countFrom (index + before.length) after).map (totals before + ·) := by
  induction before generalizing index with
  | nil =>
    have none (counts : WordCounts) : totals [] + counts = counts := counts.zero_add
    simp only [none, List.nil_append, List.length_nil, Nat.add_zero]
    exact (id_map _).symm
  | cons g rest ih =>
    have first := validateAt_of_admissible (sound g List.mem_cons_self) index
    have others := ih (index + 1) fun x member => sound x (List.mem_cons_of_mem g member)
    have place : index + (g :: rest).length = index + 1 + rest.length := by
      rw [List.length_cons]
      omega
    rw [List.cons_append, countFrom, first, others, place]
    cases countFrom (index + 1 + rest.length) after with
    | error e => rfl
    | ok counts =>
      simp only [totals_cons, WordCounts.add_assoc]
      rfl

theorem countFrom_of_admissible (gs : List Segment) (index : Nat)
    (sound : ∀ g ∈ gs, g.Admissible) : countFrom index gs = .ok (totals gs) := by
  have passed := countFrom_append gs [] index sound
  rw [List.append_nil] at passed
  exact passed

theorem admissible_or_first (gs : List Segment) :
    (∀ g ∈ gs, g.Admissible) ∨
      ∃ before g after, gs = before ++ g :: after ∧ (∀ x ∈ before, x.Admissible) ∧
        ¬g.Admissible := by
  induction gs with
  | nil => exact .inl fun g member => (nomatch member)
  | cons g gs ih =>
    by_cases sound : g.Admissible
    · rcases ih with all | ⟨before, bad, after, rfl, earlier, unsound⟩
      · exact .inl (List.forall_mem_cons.mpr ⟨sound, all⟩)
      · have passed := List.forall_mem_cons.mpr ⟨sound, earlier⟩
        exact .inr ⟨g :: before, bad, after, rfl, passed, unsound⟩
    · exact .inr ⟨[], g, gs, rfl, fun x member => (nomatch member), sound⟩

theorem validateAll_of_length {gs : List Segment} (some : 1 ≤ gs.length) (few : gs.length ≤ 16) :
    validateAll gs = countFrom 0 gs := by
  rw [validateAll, if_neg (List.ne_nil_of_length_pos some), maxCount,
    if_neg (Nat.not_lt.mpr few)]

theorem validateAll_of_admissible {gs : List Segment} (some : 1 ≤ gs.length)
    (few : gs.length ≤ 16) (all : ∀ g ∈ gs, g.Admissible) : validateAll gs = .ok (totals gs) := by
  rw [validateAll_of_length some few, countFrom_of_admissible gs 0 all]

theorem validateAll_of_rejected {gs : List Segment} {e : SegmentError}
    (rejected : Rejected gs e) : validateAll gs = .error e := by
  cases rejected with
  | empty => rfl
  | tooMany _ many =>
    have some : gs ≠ [] := List.ne_nil_of_length_pos (by omega)
    rw [validateAll, if_neg some, maxCount, if_pos many]
  | segment before after g e few sound flawed =>
    have some : 1 ≤ (before ++ g :: after).length := by
      rw [List.length_append, List.length_cons]
      omega
    rw [validateAll_of_length some few, countFrom_append before (g :: after) 0 sound,
      Nat.zero_add, countFrom, validateAt_of_flawed flawed]
    rfl

theorem accepted_or_rejected (gs : List Segment) :
    (1 ≤ gs.length ∧ gs.length ≤ 16 ∧ ∀ g ∈ gs, g.Admissible) ∨ ∃ e, Rejected gs e := by
  by_cases none : gs = []
  · subst none
    exact .inr ⟨.empty, .empty⟩
  by_cases many : 16 < gs.length
  · exact .inr ⟨.tooMany, .tooMany gs many⟩
  have few := Nat.le_of_not_lt many
  rcases admissible_or_first gs with all | ⟨before, g, after, rfl, sound, bad⟩
  · exact .inl ⟨List.length_pos_of_ne_nil none, few, all⟩
  · rcases g.validateAt_cases before.length with ⟨admissible, -⟩ | ⟨e, flawed, -⟩
    · exact absurd admissible bad
    · exact .inr ⟨e, .segment before after g e few sound flawed⟩

theorem validateAll_eq_ok_iff (gs : List Segment) (counts : WordCounts) :
    validateAll gs = .ok counts ↔
      1 ≤ gs.length ∧ gs.length ≤ 16 ∧ (∀ g ∈ gs, g.Admissible) ∧ counts = totals gs := by
  constructor
  · intro counted
    rcases accepted_or_rejected gs with ⟨some, few, all⟩ | ⟨e, rejected⟩
    · rw [validateAll_of_admissible some few all] at counted
      exact ⟨some, few, all, (Except.ok.inj counted).symm⟩
    · rw [validateAll_of_rejected rejected] at counted
      cases counted
  · rintro ⟨some, few, all, rfl⟩
    exact validateAll_of_admissible some few all

theorem validateAll_eq_error_iff (gs : List Segment) (e : SegmentError) :
    validateAll gs = .error e ↔ Rejected gs e := by
  refine ⟨fun refused => ?_, validateAll_of_rejected⟩
  rcases accepted_or_rejected gs with ⟨some, few, all⟩ | ⟨f, rejected⟩
  · rw [validateAll_of_admissible some few all] at refused
    cases refused
  · rw [validateAll_of_rejected rejected] at refused
    cases refused
    exact rejected

-- The same check with totals of so many bits, carried along from one segment to the next. It comes
-- to nothing if a total leaves them.

def countWithin (bits : Nat) : Nat → WordCounts → List Segment →
    Option (Except SegmentError WordCounts)
  | _, counts, [] => some (.ok counts)
  | index, counts, g :: rest =>
    match g.validateAt index with
    | .error e => some (.error e)
    | .ok () => do
      let tx ← within bits (counts.tx + g.txWords)
      let rx ← within bits (counts.rx + g.rxWords)
      countWithin bits (index + 1) { tx, rx } rest

def validateAllWithin (bits : Nat) (gs : List Segment) :
    Option (Except SegmentError WordCounts) :=
  if gs = [] then some (.error .empty)
  else if maxCount < gs.length then some (.error .tooMany)
  else countWithin bits 0 {} gs

theorem countWithin_eq (bits index : Nat) (counts : WordCounts) (gs : List Segment)
    (tx : counts.tx + gs.length * 2 ^ 22 < 2 ^ bits)
    (rx : counts.rx + gs.length * 2 ^ 22 < 2 ^ bits) :
    countWithin bits index counts gs = some ((countFrom index gs).map (counts + ·)) := by
  induction gs generalizing index counts with
  | nil => rfl
  | cons g rest ih =>
    rw [List.length_cons] at tx rx
    rw [countWithin, countFrom]
    rcases g.validateAt_cases index with ⟨admissible, passed⟩ | ⟨e, -, refused⟩
    · have words := admissible.words_le
      have sends : g.txWords ≤ 2 ^ 22 := by
        rw [txWords]
        split <;> omega
      have receives : g.rxWords ≤ 2 ^ 22 := by
        rw [rxWords]
        split <;> omega
      have later := ih (index + 1) { tx := counts.tx + g.txWords, rx := counts.rx + g.rxWords }
        (by change counts.tx + g.txWords + _ < _; omega)
        (by change counts.rx + g.rxWords + _ < _; omega)
      simp only [passed, Option.bind_eq_bind]
      rw [within_bind (by omega), within_bind (by omega), later]
      cases countFrom (index + 1) rest with
      | error e => rfl
      | ok others =>
        have sums := counts.add_assoc { tx := g.txWords, rx := g.rxWords } others
        exact congrArg (fun c => some (Except.ok c)) sums
    · rw [refused]
      rfl

theorem validateAllWithin_eq (gs : List Segment) :
    validateAllWithin 32 gs = some (validateAll gs) := by
  unfold validateAllWithin validateAll
  split
  · rfl
  split
  · rfl
  · rename_i few
    rw [maxCount] at few
    rw [countWithin_eq 32 0 {} gs (by change 0 + _ < _; omega) (by change 0 + _ < _; omega)]
    cases countFrom 0 gs with
    | error e => rfl
    | ok counts => exact congrArg (fun c => some (Except.ok c)) counts.zero_add

/-- A list is accepted exactly if it has one to sixteen segments, all of them admissible. Its totals
    are then those of its segments, stay within 32 bits all along, and change with the list by those
    of the segments put into it or taken out. Of a rejected list the first flaw is named. -/
theorem lists_validated_exactly (gs : List Segment) :
    (∀ counts, validateAll gs = .ok counts ↔
      1 ≤ gs.length ∧ gs.length ≤ 16 ∧ (∀ g ∈ gs, g.Admissible) ∧ counts = totals gs) ∧
      (∀ counts, validateAll gs = .ok counts →
        counts.tx ≤ 2 ^ 26 ∧ counts.rx ≤ 2 ^ 26 ∧ bounded gs = .ok gs) ∧
      validateAllWithin 32 gs = some (validateAll gs) ∧
      (∀ e, validateAll gs = .error e ↔ Rejected gs e) ∧
      ∀ kept others : List Segment, gs.Perm (kept ++ others) →
        (∀ counts, kept ≠ [] → validateAll gs = .ok counts →
          ∃ fewer, validateAll kept = .ok fewer ∧ counts = fewer + totals others) ∧
        ∀ fewer, validateAll kept = .ok fewer → (∀ g ∈ others, g.Admissible) → gs.length ≤ 16 →
          validateAll gs = .ok (fewer + totals others) := by
  refine ⟨validateAll_eq_ok_iff gs, ?_, validateAllWithin_eq gs, validateAll_eq_error_iff gs, ?_⟩
  · intro counts counted
    obtain ⟨-, few, all, rfl⟩ := (validateAll_eq_ok_iff gs counts).mp counted
    have tx := wordsBy_le Direction.usesTx gs all
    have rx := wordsBy_le Direction.usesRx gs all
    refine ⟨?_, ?_, ?_⟩
    · change wordsBy _ gs ≤ _
      omega
    · change wordsBy _ gs ≤ _
      omega
    · rw [bounded, maxCount, if_neg (Nat.not_lt.mpr few)]
  · intro kept others split
    have length := split.length_eq
    rw [List.length_append] at length
    have parts : totals gs = totals kept + totals others := by
      rw [totals_of_perm split, totals_append]
    constructor
    · intro counts some counted
      obtain ⟨-, few, all, rfl⟩ := (validateAll_eq_ok_iff gs counts).mp counted
      refine ⟨totals kept, ?_, parts⟩
      refine validateAll_of_admissible (List.length_pos_of_ne_nil some) (by omega) ?_
      intro g member
      exact all g (split.mem_iff.mpr (List.mem_append_left others member))
    · intro fewer counted admissible few
      obtain ⟨some, -, all, rfl⟩ := (validateAll_eq_ok_iff kept fewer).mp counted
      rw [← parts]
      refine validateAll_of_admissible (by omega) few ?_
      intro g member
      rcases List.mem_append.mp (split.mem_iff.mp member) with own | other
      · exact all g own
      · exact admissible g other

theorem lists_validated_exactly_flash :
    let write : List Segment := [tx 4, ⟨.txOnly, .quad, 250⟩]
    let read : List Segment := [tx 4, ⟨.dummy, .quad, 6⟩, ⟨.rxOnly, .quad, 250⟩]
    validateAll (write ++ read) = .ok ⟨65, 63⟩ ∧
      ∃ fewer, validateAll read = .ok fewer ∧ ⟨65, 63⟩ = fewer + totals write := by
  intro write read
  have counted : validateAll (write ++ read) = .ok ⟨65, 63⟩ := by decide
  obtain ⟨-, -, -, -, parts⟩ := lists_validated_exactly (write ++ read)
  obtain ⟨removed, -⟩ := parts read write List.perm_append_comm
  exact ⟨counted, removed ⟨65, 63⟩ (by decide) counted⟩

end Segment

end SerialBus
