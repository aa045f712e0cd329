import Mathlib.Algebra.Order.Field.Rat
import Mathlib.Algebra.Order.Floor.Div
import Mathlib.Order.Bounds.Basic
import Mathlib.Tactic.Positivity
import Mathlib.Tactic.Ring
import SerialBus.Clock
import SerialBus.Proofs.Fields

namespace SerialBus

namespace Clock

theorem ceilDiv_eq (a b : Nat) (pos : 0 < b) : ceilDiv a b = a ⌈/⌉ b := by
  rw [ceilDiv, Nat.ceilDiv_eq_add_pred_div, Nat.add_sub_assoc pos]

theorem ceilDiv_le_iff (a b n : Nat) (pos : 0 < b) : ceilDiv a b ≤ n ↔ a ≤ b * n := by
  rw [ceilDiv_eq a b pos, ceilDiv_le_iff_le_mul pos]

theorem toNat_pos {w : UInt32} (some : w ≠ 0) : 0 < w.toNat :=
  Nat.pos_of_ne_zero fun zero => some (UInt32.toNat_inj.mp zero)

theorem toNat_minFrequency (sys : UInt32) :
    (minFrequency sys).toNat = ceilDiv sys.toNat (2 * dividerSteps) := by
  have bound := sys.toNat_lt
  have small : ceilDiv sys.toNat (2 * dividerSteps) ≤ 32768 := by
    rw [ceilDiv_le_iff _ _ _ (by decide), dividerSteps]
    omega
  exact UInt32.toNat_ofNat_of_lt' (Nat.lt_of_le_of_lt small (by decide))

theorem minFrequency_le_iff (sys freq : UInt32) :
    minFrequency sys ≤ freq ↔ sys.toNat ≤ 131072 * freq.toNat := by
  rw [UInt32.le_iff_toNat_le, toNat_minFrequency, ceilDiv_le_iff _ _ _ (by decide)]
  rfl

theorem le_maxFrequency_iff (sys freq : UInt32) :
    freq ≤ maxFrequency sys ↔ 2 * freq.toNat ≤ sys.toNat := by
  rw [UInt32.le_iff_toNat_le, maxFrequency, UInt32.toNat_div]
  change freq.toNat ≤ sys.toNat / 2 ↔ _
  omega

theorem toNat_realized (sys : UInt32) (d : UInt16) :
    (realized sys d).toNat = sys.toNat / (2 * (d.toNat + 1)) :=
  UInt32.toNat_ofNat_of_lt' (Nat.lt_of_le_of_lt (Nat.div_le_self _ _) sys.toNat_lt)

/-- The dividers, of any size, whose rate is not above `freq`. -/
def slowEnough (sys freq : UInt32) : Set Nat := {n | sys.toNat ≤ 2 * freq.toNat * (n + 1)}

theorem mem_slowEnough {sys freq : UInt32} {n : Nat} :
    n ∈ slowEnough sys freq ↔ sys.toNat ≤ 2 * freq.toNat * (n + 1) := Iff.rfl

theorem mem_slowEnough_iff_rate (sys freq : UInt32) (n : Nat) :
    n ∈ slowEnough sys freq ↔ (sys.toNat : ℚ) / (2 * (n + 1)) ≤ freq.toNat := by
  have pos : (0 : ℚ) < 2 * (n + 1) := by positivity
  have product : (freq.toNat : ℚ) * (2 * (n + 1)) = ((2 * freq.toNat * (n + 1) : Nat) : ℚ) := by
    push_cast
    ring
  rw [div_le_iff₀ pos, product, Nat.cast_le, mem_slowEnough]

/-- Why there is no divider for a rate. -/
def Refused (sys freq : UInt32) : ClockError → Prop
  | .zero => sys = 0 ∨ freq = 0
  | .tooHigh => ¬(sys = 0 ∨ freq = 0) ∧ sys.toNat < 2 * freq.toNat
  | .tooLow => ¬(sys = 0 ∨ freq = 0) ∧ 131072 * freq.toNat < sys.toNat

inductive Resolution (sys freq : UInt32) : Except ClockError UInt16 → Prop
  | refused (e : ClockError) (why : Refused sys freq e) : Resolution sys freq (.error e)
  | found (some : ¬(sys = 0 ∨ freq = 0)) (high : 2 * freq.toNat ≤ sys.toNat)
      (low : sys.toNat ≤ 131072 * freq.toNat) (d : UInt16)
      (least : IsLeast (slowEnough sys freq) d.toNat) : Resolution sys freq (.ok d)

theorem steps_bounds {sys freq : UInt32} (some : freq ≠ 0) (high : 2 * freq.toNat ≤ sys.toNat)
    (low : sys.toNat ≤ 131072 * freq.toNat) :
    1 ≤ ceilDiv sys.toNat (2 * freq.toNat) ∧ ceilDiv sys.toNat (2 * freq.toNat) ≤ 65536 := by
  have pos := toNat_pos some
  have bound (n : Nat) := ceilDiv_le_iff sys.toNat (2 * freq.toNat) n (by omega)
  constructor
  · have none := bound 0
    omega
  · rw [bound]
    omega

theorem isLeast_steps {sys freq : UInt32} (some : freq ≠ 0) (high : 2 * freq.toNat ≤ sys.toNat)
    (low : sys.toNat ≤ 131072 * freq.toNat) :
    IsLeast (slowEnough sys freq) (ceilDiv sys.toNat (2 * freq.toNat) - 1) := by
  have pos := toNat_pos some
  obtain ⟨one, -⟩ := steps_bounds some high low
  have bound (n : Nat) := ceilDiv_le_iff sys.toNat (2 * freq.toNat) n (by omega)
  constructor
  · rw [mem_slowEnough, ← bound]
    omega
  · intro n member
    rw [mem_slowEnough, ← bound] at member
    omega

theorem resolution (sys freq : UInt32) : Resolution sys freq (divider sys freq) := by
  unfold divider
  split
  · rename_i none
    exact .refused .zero none
  rename_i some
  split
  · rename_i high
    exact .refused .tooHigh ⟨some, high⟩
  rename_i high
  split
  · rename_i low
    rw [dividerSteps] at low
    exact .refused .tooLow ⟨some, by omega⟩
  · rename_i low
    rw [dividerSteps] at low
    have low : sys.toNat ≤ 131072 * freq.toNat := by omega
    have high : 2 * freq.toNat ≤ sys.toNat := by omega
    obtain ⟨one, most⟩ := steps_bounds (not_or.mp some).2 high low
    refine .found some high low _ ?_
    rw [UInt16.toNat_ofNat_of_lt' (show _ < 65536 by omega)]
    exact isLeast_steps (not_or.mp some).2 high low

theorem divider_eq_error_iff (sys freq : UInt32) (e : ClockError) :
    divider sys freq = .error e ↔ Refused sys freq e := by
  have answer := resolution sys freq
  generalize divider sys freq = result at answer
  cases answer with
  | refused f why =>
    rw [Except.error.injEq]
    refine ⟨fun same => same ▸ why, fun other => ?_⟩
    -- the three reasons exclude each other
    cases e <;> cases f <;> grind [Refused]
  | found some high low d least =>
    refine ⟨fun failed => (nomatch failed), fun why => ?_⟩
    cases e <;> grind [Refused]

theorem divider_isOk_iff (sys freq : UInt32) :
    (divider sys freq).isOk = true ↔
      0 < sys ∧ 0 < freq ∧ minFrequency sys ≤ freq ∧ freq ≤ maxFrequency sys := by
  rw [minFrequency_le_iff, le_maxFrequency_iff, UInt32.pos_iff_ne_zero, UInt32.pos_iff_ne_zero]
  have answer := resolution sys freq
  generalize divider sys freq = result at answer
  cases answer with
  | refused e why =>
    refine ⟨fun found => (nomatch found), fun reached => ?_⟩
    cases e <;> grind [Refused]
  | found some high low d least =>
    refine ⟨fun _ => ?_, fun _ => rfl⟩
    rw [not_or] at some
    exact ⟨some.1, some.2, low, high⟩

theorem isLeast_of_found {sys freq : UInt32} {d : UInt16} (found : divider sys freq = .ok d) :
    ¬(sys = 0 ∨ freq = 0) ∧ IsLeast (slowEnough sys freq) d.toNat := by
  have answer := resolution sys freq
  rw [found] at answer
  cases answer with
  | found some _ _ _ least => exact ⟨some, least⟩

theorem realized_le_of_mem {sys freq : UInt32} {d : UInt16} (slow : d.toNat ∈ slowEnough sys freq) :
    realized sys d ≤ freq := by
  rw [mem_slowEnough] at slow
  rw [UInt32.le_iff_toNat_le, toNat_realized]
  apply Nat.div_le_of_le_mul
  calc sys.toNat ≤ 2 * freq.toNat * (d.toNat + 1) := slow
    _ = 2 * (d.toNat + 1) * freq.toNat := by ring

-- The same computations in words of `bits` bits, which come to nothing if a product, a sum or a
-- difference leaves them, or if a result does not fit into the word it is cast to.

def ceilDivWithin (bits a b : Nat) : Option Nat :=
  if a % b = 0 then some (a / b) else within bits (a / b + 1)

def minFrequencyWithin (bits : Nat) (sys : UInt32) : Option UInt32 := do
  let divisor ← within bits (2 * dividerSteps)
  let rate ← within 32 (← ceilDivWithin bits sys.toNat divisor)
  return UInt32.ofNat rate

def dividerWithin (bits : Nat) (sys freq : UInt32) : Option (Except ClockError UInt16) :=
  if sys = 0 ∨ freq = 0 then some (.error .zero)
  else do
    let twice ← within bits (2 * freq.toNat)
    if sys.toNat < twice then return .error .tooHigh
    let fastest ← within bits (twice * dividerSteps)
    if fastest < sys.toNat then return .error .tooLow
    let steps ← ceilDivWithin bits sys.toNat twice
    guard (1 ≤ steps)
    let d ← within 16 (steps - 1)
    return .ok (UInt16.ofNat d)

def realizedWithin (bits : Nat) (sys : UInt32) (d : UInt16) : Option UInt32 := do
  let steps ← within bits (d.toNat + 1)
  let twice ← within bits (2 * steps)
  let rate ← within 32 (sys.toNat / twice)
  return UInt32.ofNat rate

theorem ceilDivWithin_eq (bits a b : Nat) (pos : 0 < b) (small : ceilDiv a b < 2 ^ bits) :
    ceilDivWithin bits a b = some (ceilDiv a b) := by
  have parts := Nat.div_add_mod a b
  have most : ceilDiv a b ≤ a / b + 1 := by
    rw [ceilDiv_le_iff a b _ pos]
    exact Nat.le_of_lt (Nat.lt_mul_div_succ a pos)
  have least : a / b ≤ ceilDiv a b :=
    Nat.div_le_of_le_mul ((ceilDiv_le_iff a b _ pos).mp (Nat.le_refl _))
  have exact_iff := ceilDiv_le_iff a b (a / b) pos
  unfold ceilDivWithin
  split
  · rename_i none
    have whole : a / b = ceilDiv a b := by omega
    rw [whole]
  · rename_i some
    have more : a / b + 1 = ceilDiv a b := by omega
    rw [more, within_of_lt small]

theorem minFrequencyWithin_eq (sys : UInt32) :
    minFrequencyWithin 64 sys = some (minFrequency sys) := by
  have small := (minFrequency sys).toNat_lt
  rw [toNat_minFrequency] at small
  have wide : ceilDiv sys.toNat (2 * dividerSteps) < 2 ^ 64 := Nat.lt_trans small (by decide)
  have divisor : 2 * dividerSteps < 2 ^ 64 := by decide
  simp only [minFrequencyWithin, Option.bind_eq_bind]
  rw [within_bind divisor, ceilDivWithin_eq 64 _ _ (by decide) wide, Option.bind_some,
    within_bind small]
  rfl

theorem dividerWithin_eq (sys freq : UInt32) :
    dividerWithin 64 sys freq = some (divider sys freq) := by
  have bound := freq.toNat_lt
  have twice : 2 * freq.toNat < 2 ^ 64 := by omega
  have fastest : 2 * freq.toNat * dividerSteps < 2 ^ 64 := by
    rw [dividerSteps]
    omega
  simp only [dividerWithin, divider, Option.bind_eq_bind, within_bind twice, within_bind fastest]
  split
  · rfl
  rename_i some
  split
  · rfl
  rename_i high
  split
  · rfl
  · rename_i low
    rw [dividerSteps] at low
    have pos := toNat_pos (not_or.mp some).2
    obtain ⟨one, most⟩ := steps_bounds (not_or.mp some).2 (Nat.le_of_not_lt high) (by omega)
    have wide : ceilDiv sys.toNat (2 * freq.toNat) < 2 ^ 64 := by omega
    have narrow : ceilDiv sys.toNat (2 * freq.toNat) - 1 < 2 ^ 16 := by omega
    rw [ceilDivWithin_eq 64 _ _ (by omega) wide, Option.bind_some, guard, if_pos one,
      Option.pure_def, Option.bind_some, within_bind narrow]
    rfl

theorem realizedWithin_eq (sys : UInt32) (d : UInt16) :
    realizedWithin 64 sys d = some (realized sys d) := by
  have bound := sys.toNat_lt
  have steps := d.toNat_lt
  have small : sys.toNat / (2 * (d.toNat + 1)) < 2 ^ 32 :=
    Nat.lt_of_le_of_lt (Nat.div_le_self _ _) bound
  have next : d.toNat + 1 < 2 ^ 64 := by omega
  have twice : 2 * (d.toNat + 1) < 2 ^ 64 := by omega
  simp only [realizedWithin, Option.bind_eq_bind]
  rw [within_bind next, within_bind twice, within_bind small]
  rfl

/-- A rate is met if it lies between the lowest and the highest one, by the least divider that is
    slow enough, and else the reason is named; all of it is computed within 64 bits, and what is
    cast to fewer bits fits into them. -/
theorem divider_exact (sys freq : UInt32) :
    ((divider sys freq).isOk = true ↔
        0 < sys ∧ 0 < freq ∧ minFrequency sys ≤ freq ∧ freq ≤ maxFrequency sys) ∧
      (divider sys freq = .error .zero ↔ sys = 0 ∨ freq = 0) ∧
      (divider sys freq = .error .tooHigh ↔
        ¬(sys = 0 ∨ freq = 0) ∧ sys.toNat < 2 * freq.toNat) ∧
      (divider sys freq = .error .tooLow ↔
        ¬(sys = 0 ∨ freq = 0) ∧ 131072 * freq.toNat < sys.toNat) ∧
      (∀ d, divider sys freq = .ok d →
        IsLeast {n : ℕ | sys.toNat ≤ 2 * freq.toNat * (n + 1)} d.toNat ∧
          realized sys d ≤ freq ∧
          (sys.toNat : ℚ) / (2 * (d.toNat + 1)) ≤ freq.toNat ∧
          ∀ n : ℕ, n < d.toNat → (freq.toNat : ℚ) < sys.toNat / (2 * (n + 1))) ∧
      minFrequencyWithin 64 sys = some (minFrequency sys) ∧
      dividerWithin 64 sys freq = some (divider sys freq) ∧
      ∀ d, realizedWithin 64 sys d = some (realized sys d) := by
  refine ⟨divider_isOk_iff sys freq, divider_eq_error_iff sys freq .zero,
    divider_eq_error_iff sys freq .tooHigh, divider_eq_error_iff sys freq .tooLow, ?_,
    minFrequencyWithin_eq sys, dividerWithin_eq sys freq, realizedWithin_eq sys⟩
  intro d found
  obtain ⟨-, least⟩ := isLeast_of_found found
  refine ⟨least, realized_le_of_mem least.1, (mem_slowEnough_iff_rate sys freq _).mp least.1, ?_⟩
  intro n faster
  rw [← not_le, ← mem_slowEnough_iff_rate]
  intro slow
  exact Nat.not_lt.mpr (least.2 slow) faster

theorem divider_exact_slowest :
    divider 4294967295 32768 = .ok 65535 ∧
      IsLeast {n : ℕ | 4294967295 ≤ 2 * 32768 * (n + 1)} 65535 ∧
      ∀ n : ℕ, n < 65535 → (32768 : ℚ) < 4294967295 / (2 * (n + 1)) := by
  obtain ⟨-, -, -, -, found, -⟩ := divider_exact 4294967295 32768
  obtain ⟨least, -, -, faster⟩ := found 65535 (by decide)
  exact ⟨by decide, by simpa using least, by simpa using faster⟩

theorem mem_slowEnough_realized_iff (sys : UInt32) (d : UInt16) :
    d.toNat ∈ slowEnough sys (realized sys d) ↔ 2 * (d.toNat + 1) ∣ sys.toNat := by
  have below := Nat.mul_div_le sys.toNat (2 * (d.toNat + 1))
  have product : 2 * (sys.toNat / (2 * (d.toNat + 1))) * (d.toNat + 1) =
      2 * (d.toNat + 1) * (sys.toNat / (2 * (d.toNat + 1))) := by ring
  rw [mem_slowEnough, toNat_realized, product, Nat.dvd_iff_div_mul_eq,
    Nat.mul_comm (sys.toNat / _)]
  omega

theorem le_of_mem_slowEnough_realized {sys : UInt32} {d : UInt16} {n : Nat} (some : sys ≠ 0)
    (slow : n ∈ slowEnough sys (realized sys d)) : d.toNat ≤ n := by
  have pos := toNat_pos some
  have below := Nat.mul_div_le sys.toNat (2 * (d.toNat + 1))
  rw [mem_slowEnough, toNat_realized] at slow
  generalize sys.toNat / (2 * (d.toNat + 1)) = rate at below slow
  have rate_pos : 0 < 2 * rate := by
    by_contra none
    have zero : rate = 0 := by omega
    rw [zero] at slow
    omega
  have ordered : 2 * rate * (d.toNat + 1) ≤ 2 * rate * (n + 1) := by
    calc 2 * rate * (d.toNat + 1) = 2 * (d.toNat + 1) * rate := by ring
      _ ≤ sys.toNat := below
      _ ≤ 2 * rate * (n + 1) := slow
  have steps := Nat.le_of_mul_le_mul_left ordered rate_pos
  omega

theorem le_of_divider_realized {sys : UInt32} (some : sys ≠ 0) {d e : UInt16}
    (found : divider sys (realized sys d) = .ok e) :
    d ≤ e ∧ realized sys e ≤ realized sys d := by
  obtain ⟨-, least⟩ := isLeast_of_found found
  exact ⟨UInt16.le_iff_toNat_le.mpr (le_of_mem_slowEnough_realized some least.1),
    realized_le_of_mem least.1⟩

theorem divider_realized_isOk_iff {sys : UInt32} (some : sys ≠ 0) (d : UInt16) :
    (divider sys (realized sys d)).isOk = true ↔ minFrequency sys ≤ realized sys d := by
  have pos := toNat_pos some
  have high : realized sys d ≤ maxFrequency sys := by
    rw [le_maxFrequency_iff, toNat_realized]
    have half : sys.toNat / (2 * (d.toNat + 1)) ≤ sys.toNat / 2 :=
      Nat.div_le_div_left (by omega) (by decide)
    omega
  rw [divider_isOk_iff]
  refine ⟨fun reached => reached.2.2.1, fun low => ⟨UInt32.pos_iff_ne_zero.mpr some, ?_, low, high⟩⟩
  rw [minFrequency_le_iff] at low
  rw [UInt32.lt_iff_toNat_lt]
  change 0 < _
  omega

theorem divider_realized_eq_iff {sys : UInt32} (some : sys ≠ 0) (d : UInt16) :
    divider sys (realized sys d) = .ok d ↔ 2 * (d.toNat + 1) ∣ sys.toNat := by
  rw [← mem_slowEnough_realized_iff]
  refine ⟨fun found => (isLeast_of_found found).2.1, fun slow => ?_⟩
  have steps := d.toNat_lt
  have low : minFrequency sys ≤ realized sys d := by
    rw [minFrequency_le_iff]
    rw [mem_slowEnough] at slow
    calc sys.toNat ≤ 2 * (realized sys d).toNat * (d.toNat + 1) := slow
      _ ≤ 2 * (realized sys d).toNat * 65536 := Nat.mul_le_mul_left _ (by omega)
      _ = 131072 * (realized sys d).toNat := by ring
  cases found : divider sys (realized sys d) with
  | error e =>
    have reached := (divider_realized_isOk_iff some d).mpr low
    rw [found] at reached
    cases reached
  | ok e =>
    have fewer : e ≤ d := UInt16.le_iff_toNat_le.mpr ((isLeast_of_found found).2.2 slow)
    rw [UInt16.le_antisymm fewer (le_of_divider_realized some found).1]

end Clock
end SerialBus
