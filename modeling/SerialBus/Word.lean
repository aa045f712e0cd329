namespace SerialBus

abbrev Word := BitVec 32

abbrev Byte := BitVec 8

/-- A run of `width` bits of a word whose lowest bit is bit `offset`. -/
structure Field where
  offset : Nat
  width : Nat
  deriving DecidableEq, Repr

namespace Field

def get (f : Field) (w : Word) : Nat :=
  (w.extractLsb' f.offset f.width).toNat

def isSet (f : Field) (w : Word) : Bool :=
  f.get w != 0

def mask (f : Field) : Word :=
  (BitVec.allOnes f.width).setWidth 32 <<< f.offset

/-- Store `v` in the field; bits of `v` beyond the field's width are dropped. -/
def put (f : Field) (v : Nat) (w : Word) : Word :=
  (w &&& ~~~f.mask) ||| ((BitVec.ofNat f.width v).setWidth 32 <<< f.offset)

def putBit (f : Field) (b : Bool) (w : Word) : Word :=
  f.put b.toNat w

def only (f : Field) (v : Nat) : Word :=
  f.put v 0

def flag (f : Field) : Word :=
  f.only 1

def Disjoint (f g : Field) : Prop :=
  f.offset + f.width ≤ g.offset ∨ g.offset + g.width ≤ f.offset

def Fits (f : Field) : Prop :=
  f.offset + f.width ≤ 32

theorem testBit_get (f : Field) (w : Word) (i : Nat) :
    (f.get w).testBit i = (decide (i < f.width) && w.getLsbD (f.offset + i)) := by
  rw [get, BitVec.testBit_toNat, BitVec.getLsbD_extractLsb']

theorem getLsbD_mask (f : Field) (hf : f.Fits) (i : Nat) :
    f.mask.getLsbD i = decide (f.offset ≤ i ∧ i < f.offset + f.width) := by
  unfold Fits at hf
  simp only [mask, BitVec.getLsbD_shiftLeft, BitVec.getLsbD_setWidth, BitVec.getLsbD_allOnes]
  by_cases h : f.offset ≤ i ∧ i < f.offset + f.width
  · simp [h]; omega
  · simp [h]; omega

theorem getLsbD_put (f : Field) (hf : f.Fits) (v : Nat) (w : Word) (i : Nat) :
    (f.put v w).getLsbD i =
      if f.offset ≤ i ∧ i < f.offset + f.width then v.testBit (i - f.offset) else w.getLsbD i := by
  have fits := hf
  unfold Fits at fits
  simp only [put, BitVec.getLsbD_or, BitVec.getLsbD_and, BitVec.getLsbD_not, getLsbD_mask f hf,
    BitVec.getLsbD_shiftLeft, BitVec.getLsbD_setWidth, BitVec.getLsbD_ofNat]
  by_cases h : f.offset ≤ i ∧ i < f.offset + f.width
  · have : i < 32 := by omega
    have : i - f.offset < f.width := by omega
    have : i - f.offset < 32 := by omega
    simp [*]
  · by_cases hi : i < 32
    · by_cases ho : i < f.offset
      · simp [h, hi, ho]
      · have : ¬ i - f.offset < f.width := by omega
        simp [*]
    · simp [hi, h, BitVec.getLsbD_of_ge w i (by omega)]

theorem get_put_of_disjoint (f g : Field) (hg : g.Fits) (h : f.Disjoint g) (v : Nat) (w : Word) :
    f.get (g.put v w) = f.get w := by
  apply Nat.eq_of_testBit_eq
  intro i
  rw [testBit_get, testBit_get, getLsbD_put g hg]
  unfold Disjoint at h
  by_cases hi : i < f.width
  · rw [if_neg (by omega)]
  · simp [hi]

theorem get_zero (f : Field) : f.get 0 = 0 := by
  simp [get]

end Field

end SerialBus
