import Mathlib.Algebra.Ring.Nat
import SerialBus.Events
import SerialBus.Word

namespace SerialBus

def within (bits n : Nat) : Option Nat := if n < 2 ^ bits then some n else none

theorem within_of_lt {bits n : Nat} (small : n < 2 ^ bits) : within bits n = some n := if_pos small

theorem within_bind {α : Type} {bits n : Nat} (small : n < 2 ^ bits) (f : Nat → Option α) :
    (within bits n).bind f = f n := by
  rw [within_of_lt small, Option.bind_some]

namespace Field

instance (f g : Field) : Decidable (f.Disjoint g) :=
  inferInstanceAs (Decidable (_ ∨ _))

instance (f : Field) : Decidable f.Fits :=
  inferInstanceAs (Decidable (_ ≤ _))

theorem get_lt (f : Field) (w : Word) : f.get w < 2 ^ f.width :=
  BitVec.isLt _

theorem get_put_self (f : Field) (hf : f.Fits) (v : Nat) (w : Word) :
    f.get (f.put v w) = v % 2 ^ f.width := by
  apply Nat.eq_of_testBit_eq
  intro i
  rw [testBit_get, getLsbD_put f hf, Nat.testBit_mod_two_pow]
  by_cases h : i < f.width <;> simp [h]

theorem get_put_of_lt (f : Field) (fits : f.Fits) (v : Nat) (small : v < 2 ^ f.width) (w : Word) :
    f.get (f.put v w) = v := by
  rw [get_put_self f fits, Nat.mod_eq_of_lt small]

theorem mask_and_mask (f g : Field) (fFits : f.Fits) (gFits : g.Fits) (apart : f.Disjoint g) :
    f.mask &&& g.mask = 0 := by
  apply BitVec.eq_of_getLsbD_eq
  intro i _
  unfold Disjoint at apart
  rw [BitVec.getLsbD_and, getLsbD_mask f fFits, getLsbD_mask g gFits, ← Bool.decide_and]
  exact (decide_eq_false (by omega)).trans BitVec.getLsbD_zero.symm

theorem put_put (f : Field) (fits : f.Fits) (u v : Nat) (w : Word) :
    f.put v (f.put u w) = f.put v w := by
  apply BitVec.eq_of_getLsbD_eq
  intro i _
  simp only [getLsbD_put f fits]
  split <;> rfl

theorem get_put_zero_of_inside (f g : Field) (fits : g.Fits) (low : g.offset ≤ f.offset)
    (high : f.offset + f.width ≤ g.offset + g.width) (w : Word) : f.get (g.put 0 w) = 0 := by
  apply Nat.eq_of_testBit_eq
  intro i
  rw [testBit_get, getLsbD_put g fits, Nat.zero_testBit, Nat.zero_testBit]
  by_cases inside : i < f.width
  · rw [if_pos (by omega), Bool.and_false]
  · simp [inside]

theorem get_putBit_of_disjoint (f g : Field) (fits : g.Fits) (apart : f.Disjoint g) (b : Bool)
    (w : Word) : f.get (g.putBit b w) = f.get w :=
  get_put_of_disjoint f g fits apart b.toNat w

theorem isSet_put_of_disjoint (f g : Field) (fits : g.Fits) (apart : f.Disjoint g) (v : Nat)
    (w : Word) : f.isSet (g.put v w) = f.isSet w := by
  simp only [isSet, get_put_of_disjoint f g fits apart]

theorem isSet_putBit_of_disjoint (f g : Field) (fits : g.Fits) (apart : f.Disjoint g) (b : Bool)
    (w : Word) : f.isSet (g.putBit b w) = f.isSet w :=
  isSet_put_of_disjoint f g fits apart b.toNat w

theorem isSet_putBit_self (f : Field) (fits : f.Fits) (single : f.width = 1) (b : Bool) (w : Word) :
    f.isSet (f.putBit b w) = b := by
  simp only [isSet, putBit, get_put_self f fits, single]
  cases b <;> rfl

theorem isSet_eq_getLsbD (f : Field) (single : f.width = 1) (w : Word) :
    f.isSet w = w.getLsbD f.offset := by
  have bit := testBit_get f w 0
  have bound := get_lt f w
  simp only [single, Nat.pow_one, Nat.lt_one_iff, decide_true, Bool.true_and, Nat.add_zero]
    at bit bound
  rw [← bit, isSet]
  have cases : f.get w = 0 ∨ f.get w = 1 := by omega
  rcases cases with zero | one
  · simp [zero]
  · simp [one]

theorem get_of_single (f : Field) (single : f.width = 1) (w : Word) :
    f.get w = (f.isSet w).toNat := by
  have bound := get_lt f w
  rw [single, Nat.pow_one] at bound
  rw [isSet]
  have cases : f.get w = 0 ∨ f.get w = 1 := by omega
  rcases cases with zero | one
  · simp [zero]
  · simp [one]

theorem putBit_of_isSet (f : Field) (fits : f.Fits) (single : f.width = 1) (w : Word)
    (set : f.isSet w = true) : f.putBit true w = w := by
  rw [isSet_eq_getLsbD f single] at set
  apply BitVec.eq_of_getLsbD_eq
  intro i inside
  rw [putBit, getLsbD_put f fits, single]
  by_cases same : i = f.offset
  · subst same
    simp [set]
  · have outside : ¬ (f.offset ≤ i ∧ i < f.offset + 1) := by omega
    rw [if_neg outside]

theorem isSet_zero (f : Field) : f.isSet 0 = false := by
  rw [isSet, get_zero]
  rfl

theorem isSet_and (f : Field) (single : f.width = 1) (v w : Word) :
    f.isSet (v &&& w) = (f.isSet v && f.isSet w) := by
  simp only [isSet_eq_getLsbD f single, BitVec.getLsbD_and]

theorem isSet_or (f : Field) (single : f.width = 1) (v w : Word) :
    f.isSet (v ||| w) = (f.isSet v || f.isSet w) := by
  simp only [isSet_eq_getLsbD f single, BitVec.getLsbD_or]

theorem ne_zero_of_isSet (f : Field) (w : Word) (set : f.isSet w = true) : w ≠ 0 := by
  intro zero
  rw [zero, isSet_zero] at set
  cases set

theorem flag_eq_twoPow (f : Field) (fits : f.Fits) (single : f.width = 1) :
    f.flag = BitVec.twoPow 32 f.offset := by
  ext i inside
  rw [← BitVec.getLsbD_eq_getElem, ← BitVec.getLsbD_eq_getElem, flag, only, getLsbD_put f fits,
    BitVec.getLsbD_twoPow, single]
  by_cases same : i = f.offset
  · subst same
    simp [inside]
  · have outside : ¬ (f.offset ≤ i ∧ i < f.offset + 1) := by omega
    rw [if_neg outside]
    simp [Ne.symm same]

theorem getLsbD_flag (f : Field) (fits : f.Fits) (single : f.width = 1) (i : Nat) :
    f.flag.getLsbD i = decide (i = f.offset) := by
  have inside : f.offset < 32 := by
    unfold Field.Fits at fits
    omega
  rw [f.flag_eq_twoPow fits single, BitVec.getLsbD_twoPow]
  by_cases same : i = f.offset
  · simp [same, inside]
  · simp [same, Ne.symm same]

def Agree (f : Field) (v w : Word) : Prop :=
  ∀ i, f.offset ≤ i → i < f.offset + f.width → v.getLsbD i = w.getLsbD i

theorem get_congr (f : Field) {v w : Word} (agree : f.Agree v w) : f.get v = f.get w := by
  apply Nat.eq_of_testBit_eq
  intro i
  rw [testBit_get, testBit_get]
  by_cases inside : i < f.width
  · rw [agree (f.offset + i) (Nat.le_add_right _ _) (Nat.add_lt_add_left inside _)]
  · simp [inside]

theorem eq_of_cover (fs : List Field)
    (cover : ∀ i < 32, ∃ f ∈ fs, f.offset ≤ i ∧ i < f.offset + f.width) {v w : Word}
    (same : ∀ f ∈ fs, f.get v = f.get w) : v = w := by
  apply BitVec.eq_of_getLsbD_eq
  intro i inside
  obtain ⟨f, member, low, high⟩ := cover i inside
  have bit := congrArg (Nat.testBit · (i - f.offset)) (same f member)
  have reach : i - f.offset < f.width := by omega
  simpa only [testBit_get, reach, decide_true, Bool.true_and, Nat.add_sub_cancel' low] using bit

def putAll (puts : List (Field × Nat)) (w : Word) : Word :=
  puts.foldl (fun w p => p.1.put p.2 w) w

theorem get_putAll_of_apart (puts : List (Field × Nat)) (fits : ∀ g ∈ puts.map Prod.fst, g.Fits)
    (f : Field) (apart : ∀ g ∈ puts.map Prod.fst, f.Disjoint g) (w : Word) :
    f.get (putAll puts w) = f.get w := by
  induction puts generalizing w with
  | nil => rfl
  | cons p rest ih =>
    rw [List.map_cons, List.forall_mem_cons] at fits apart
    exact (ih fits.2 apart.2 _).trans (get_put_of_disjoint f p.1 fits.1 apart.1 p.2 w)

theorem get_putAll (puts : List (Field × Nat)) (fits : ∀ g ∈ puts.map Prod.fst, g.Fits)
    (apart : (puts.map Prod.fst).Pairwise Disjoint) (w : Word) {f : Field} {v : Nat}
    (member : (f, v) ∈ puts) : f.get (putAll puts w) = v % 2 ^ f.width := by
  induction puts generalizing w with
  | nil => cases member
  | cons p rest ih =>
    rw [List.map_cons, List.forall_mem_cons] at fits
    rw [List.map_cons, List.pairwise_cons] at apart
    rcases List.mem_cons.mp member with rfl | later
    · exact (get_putAll_of_apart rest fits.2 f apart.1 _).trans (f.get_put_self fits.1 v w)
    · exact ih fits.2 apart.2 _ later

theorem isSet_putAll (puts : List (Field × Nat)) (fits : ∀ g ∈ puts.map Prod.fst, g.Fits)
    (apart : (puts.map Prod.fst).Pairwise Disjoint) (w : Word) {f : Field} {b : Bool}
    (single : f.width = 1) (member : (f, b.toNat) ∈ puts) : f.isSet (putAll puts w) = b := by
  rw [isSet, get_putAll puts fits apart w member, single]
  cases b <;> rfl

end Field

namespace FlagSet

variable {names : List String}

theorem contains_flag (s t : FlagSet names) (f : Field) (fits : f.Fits) (single : f.width = 1)
    (flag : t.bits = f.flag) : s.contains t = f.isSet s.bits := by
  have nonzero : BitVec.twoPow 32 f.offset ≠ 0#32 := by
    intro same
    have high := congrArg (fun w => w.getLsbD f.offset) same
    unfold Field.Fits at fits
    simp [show f.offset < 32 by omega] at high
  rw [Field.isSet_eq_getLsbD f single]
  simp only [contains, flag, Field.flag_eq_twoPow f fits single, BitVec.and_twoPow]
  cases bit : s.bits.getLsbD f.offset with
  | true => simp
  | false => simpa using nonzero.symm

theorem or_of_contains (w : Word) (t : FlagSet names)
    (contains : (⟨w⟩ : FlagSet names).contains t = true) : w ||| t.bits = w := by
  simp only [FlagSet.contains, beq_iff_eq] at contains
  rw [← contains]
  apply BitVec.eq_of_getLsbD_eq
  intro i inside
  simp only [BitVec.getLsbD_or, BitVec.getLsbD_and]
  cases w.getLsbD i <;> simp

theorem contains_or (w : Word) (t : FlagSet names) :
    (⟨w ||| t.bits⟩ : FlagSet names).contains t = true := by
  simp only [contains, beq_iff_eq]
  apply BitVec.eq_of_getLsbD_eq
  intro i inside
  simp only [BitVec.getLsbD_and, BitVec.getLsbD_or]
  cases w.getLsbD i <;> cases t.bits.getLsbD i <;> rfl

end FlagSet

end SerialBus
