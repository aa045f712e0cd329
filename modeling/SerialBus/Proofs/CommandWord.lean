import SerialBus.Command
import SerialBus.Proofs.Fields

namespace SerialBus

theorem Speed.ofCode?_eq_some_iff (n : Nat) (s : Speed) : ofCode? n = some s ↔ n = s.code := by
  constructor
  · intro read
    unfold ofCode? at read
    split at read <;> cases read <;> rfl
  · rintro rfl
    exact s.ofCode?_code

theorem Speed.exists_code {n : Nat} (meant : n < 3) : ∃ s : Speed, n = s.code :=
  match n, meant with
  | 0, _ => ⟨.standard, rfl⟩
  | 1, _ => ⟨.dual, rfl⟩
  | 2, _ => ⟨.quad, rfl⟩

theorem Direction.ofCode?_eq_some_iff (n : Nat) (d : Direction) :
    ofCode? n = some d ↔ n = d.code := by
  constructor
  · intro read
    unfold ofCode? at read
    split at read <;> cases read <;> rfl
  · rintro rfl
    exact d.ofCode?_code

theorem Direction.exists_code {n : Nat} (small : n < 4) : ∃ d : Direction, n = d.code :=
  match n, small with
  | 0, _ => ⟨.dummy, rfl⟩
  | 1, _ => ⟨.rxOnly, rfl⟩
  | 2, _ => ⟨.txOnly, rfl⟩
  | 3, _ => ⟨.bidir, rfl⟩

namespace Command

/-- The bits of a word that say nothing about its command. -/
def spareField : Field := ⟨29, 3⟩

theorem speed_toWord (c : Command) : speedField.get c.toWord = c.speed.code := by
  simp (disch := decide) only [toWord, Field.get_put_of_disjoint, Field.get_put_self]
  cases c.speed <;> rfl

theorem direction_toWord (c : Command) : directionField.get c.toWord = c.direction.code := by
  simp (disch := decide) only [toWord, Field.get_put_self]
  cases c.direction <;> rfl

theorem csaat_toWord (c : Command) : csaatField.isSet c.toWord = c.csaat := by
  simp (disch := decide) only [toWord, Field.isSet_put_of_disjoint, Field.isSet_putBit_self]

theorem len_toWord (c : Command) : lenField.get c.toWord = (c.len - 1).toNat % 2 ^ 24 := by
  simp (disch := decide) only [toWord, Field.get_put_of_disjoint, Field.get_putBit_of_disjoint,
    Field.get_put_self]
  rfl

theorem spare_toWord (c : Command) : spareField.get c.toWord = 0 := by
  simp (disch := decide) only [toWord, Field.get_put_of_disjoint, Field.get_putBit_of_disjoint,
    Field.get_zero]

/-- The fields of the word say the command. -/
structure Spelled (c : Command) (w : Word) : Prop where
  len : lenField.get w + 1 = c.len.toNat
  csaat : csaatField.isSet w = c.csaat
  speed : speedField.get w = c.speed.code
  direction : directionField.get w = c.direction.code

variable {c : Command} {v w : Word}

theorem Spelled.len_bounds (spelled : c.Spelled w) : 1 ≤ c.len.toNat ∧ c.len.toNat ≤ 2 ^ 24 := by
  have bound : lenField.get w < 2 ^ 24 := lenField.get_lt w
  have len := spelled.len
  omega

theorem Spelled.unique (first : c.Spelled v) (second : c.Spelled w)
    (spare : spareField.get v = spareField.get w) : v = w := by
  apply Field.eq_of_cover [lenField, csaatField, speedField, directionField, spareField]
  · decide
  · simp only [List.forall_mem_cons, List.not_mem_nil, false_implies, implies_true, and_true]
    refine ⟨?_, ?_, ?_, ?_, spare⟩
    · exact Nat.succ_injective (first.len.trans second.len.symm)
    · rw [csaatField.get_of_single rfl, csaatField.get_of_single rfl, first.csaat, second.csaat]
    · exact first.speed.trans second.speed.symm
    · exact first.direction.trans second.direction.symm

theorem spelled_toWord (c : Command) (least : 1 ≤ c.len.toNat) (most : c.len.toNat ≤ 2 ^ 24) :
    c.Spelled c.toWord := by
  refine ⟨?_, c.csaat_toWord, c.speed_toWord, c.direction_toWord⟩
  have less : (c.len - 1).toNat = c.len.toNat - 1 :=
    UInt32.toNat_sub_of_le _ _ (UInt32.le_iff_toNat_le.mpr least)
  rw [len_toWord, less]
  omega

theorem Spelled.spared (spelled : c.Spelled w) : c.Spelled (spareField.put 0 w) where
  len := by
    rw [Field.get_put_of_disjoint _ _ (by decide) (by decide)]
    exact spelled.len
  csaat := by
    rw [Field.isSet_put_of_disjoint _ _ (by decide) (by decide)]
    exact spelled.csaat
  speed := by
    rw [Field.get_put_of_disjoint _ _ (by decide) (by decide)]
    exact spelled.speed
  direction := by
    rw [Field.get_put_of_disjoint _ _ (by decide) (by decide)]
    exact spelled.direction

theorem Spelled.toWord_eq (spelled : c.Spelled w) : c.toWord = spareField.put 0 w := by
  obtain ⟨least, most⟩ := spelled.len_bounds
  refine (c.spelled_toWord least most).unique spelled.spared ?_
  rw [spare_toWord, Field.get_put_self _ (by decide)]
  rfl

theorem toNat_len (w : Word) :
    (UInt32.ofNat (lenField.get w + 1)).toNat = lenField.get w + 1 := by
  have bound : lenField.get w < 2 ^ 24 := lenField.get_lt w
  exact UInt32.toNat_ofNat_of_lt' (show _ < 2 ^ 32 by omega)

theorem ofWord?_eq_some_iff (w : Word) (c : Command) : ofWord? w = some c ↔ c.Spelled w := by
  simp only [ofWord?, Option.bind_eq_bind, Option.bind_eq_some_iff, Option.pure_def,
    Option.some.injEq, Speed.ofCode?_eq_some_iff, Direction.ofCode?_eq_some_iff]
  constructor
  · rintro ⟨speed, slow, direction, way, rfl⟩
    exact ⟨(toNat_len w).symm, rfl, slow, way⟩
  · intro spelled
    have len : UInt32.ofNat (lenField.get w + 1) = c.len :=
      UInt32.toNat_inj.mp ((toNat_len w).trans spelled.len)
    refine ⟨c.speed, spelled.speed, c.direction, spelled.direction, ?_⟩
    rw [len, spelled.csaat]

/-- Only the one speed code without a meaning keeps a word from being a command. -/
theorem exists_spelled (w : Word) (meant : speedField.get w ≠ 3) : ∃ c : Command, c.Spelled w := by
  have codes : speedField.get w < 4 := speedField.get_lt w
  obtain ⟨speed, pace⟩ := Speed.exists_code (show speedField.get w < 3 by omega)
  obtain ⟨direction, way⟩ := Direction.exists_code (directionField.get_lt w)
  exact ⟨{ direction, speed, len := .ofNat (lenField.get w + 1), csaat := csaatField.isSet w },
    (toNat_len w).symm, rfl, pace, way⟩

theorem ofWord?_eq_none (w : Word) (reserved : speedField.get w = 3) : ofWord? w = none := by
  rw [ofWord?, reserved]
  rfl

theorem codesAllowed_iff (d s : Nat) : codesAllowed d s = true ↔ s ≤ 2 ∧ (d = 3 → s = 0) := by
  change (decide (s ≤ 2) && (d != 3 || s == 0)) = true ↔ _
  simp [imp_iff_not_or]

theorem codesAllowed_code (d : Direction) (s : Speed) :
    codesAllowed d.code s.code = d.allows s := by
  cases d <;> cases s <;> rfl

end Command

end SerialBus
