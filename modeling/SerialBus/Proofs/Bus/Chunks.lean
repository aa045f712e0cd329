import SerialBus.WordBus

namespace SerialBus

variable {α γ : Type} {n : Nat}

theorem chunks_nil : chunks n ([] : List α) = [] := by
  rw [chunks]

theorem chunks_of_pos (positive : 0 < n) (xs : List α) (some : xs ≠ []) :
    chunks n xs = xs.take n :: chunks n (xs.drop n) := by
  obtain ⟨m, rfl⟩ : ∃ m, n = m + 1 := ⟨n - 1, by omega⟩
  cases xs with
  | nil => exact absurd rfl some
  | cons x rest => rw [chunks, Nat.add_sub_cancel, List.take_succ_cons, List.drop_succ_cons]

theorem chunks_induction {P : List α → Prop} (positive : 0 < n) (nil : P [])
    (step : ∀ xs, xs ≠ [] → P (xs.drop n) → P xs) (xs : List α) : P xs := by
  by_cases empty : xs = []
  · rw [empty]
    exact nil
  · exact step xs empty (chunks_induction positive nil step (xs.drop n))
termination_by xs.length
decreasing_by
  have := List.length_pos_iff.mpr empty
  rw [List.length_drop]
  omega

theorem flatten_take_chunks (positive : 0 < n) (xs : List α) (k : Nat) :
    ((chunks n xs).take k).flatten = xs.take (k * n) := by
  induction k generalizing xs with
  | zero => simp
  | succ k ih =>
    by_cases empty : xs = []
    · simp [empty, chunks_nil]
    · rw [chunks_of_pos positive xs empty, List.take_succ_cons, List.flatten_cons, ih,
        Nat.succ_mul, Nat.add_comm, List.take_add]

theorem flatten_drop_chunks (positive : 0 < n) (xs : List α) (k : Nat) :
    ((chunks n xs).drop k).flatten = xs.drop (k * n) := by
  have whole := congrArg (List.drop (xs.take (k * n)).length)
    ((congrArg List.flatten (List.take_append_drop k (chunks n xs))).trans (flatten_chunks n xs))
  rw [List.flatten_append, flatten_take_chunks positive, List.drop_left] at whole
  rw [whole, List.length_take]
  by_cases inside : k * n ≤ xs.length
  · rw [Nat.min_eq_left inside]
  · rw [Nat.min_eq_right (by omega), List.drop_length, List.drop_of_length_le (by omega)]

theorem length_chunks (positive : 0 < n) (xs : List α) :
    (chunks n xs).length = (xs.length + (n - 1)) / n := by
  induction xs using chunks_induction positive with
  | nil =>
    simp only [chunks_nil, List.length_nil, Nat.zero_add]
    exact (Nat.div_eq_of_lt (by omega)).symm
  | step xs some ih =>
    have items := List.length_pos_iff.mpr some
    rw [chunks_of_pos positive xs some, List.length_cons, ih, List.length_drop,
      ← Nat.add_div_right _ positive]
    by_cases last : xs.length ≤ n
    · rw [Nat.sub_eq_zero_of_le last, Nat.div_eq_of_lt_le (k := 1) (by omega) (by omega),
        Nat.div_eq_of_lt_le (k := 1) (by omega) (by omega)]
    · congr 1
      omega

theorem zip_chunks_eq (positive : 0 < n) (xs : List α) (ys : List γ)
    (same : xs.length = ys.length) :
    ((chunks n xs).zip (chunks n ys)).map Prod.fst = chunks n xs ∧
      ((chunks n xs).zip (chunks n ys)).map Prod.snd = chunks n ys ∧
      ∀ p ∈ (chunks n xs).zip (chunks n ys), p.1.length = p.2.length := by
  induction xs using chunks_induction positive generalizing ys with
  | nil =>
    have empty : ys = [] := List.eq_nil_of_length_eq_zero same.symm
    rw [empty, chunks_nil, chunks_nil]
    exact ⟨rfl, rfl, fun p member => nomatch member⟩
  | step xs some ih =>
    have others : ys ≠ [] := by
      rintro rfl
      exact some (List.eq_nil_of_length_eq_zero same)
    obtain ⟨first, second, lengths⟩ := ih (ys.drop n) (by simp [same])
    rw [chunks_of_pos positive xs some, chunks_of_pos positive ys others, List.zip_cons_cons,
      List.map_cons, List.map_cons, first, second]
    refine ⟨rfl, rfl, fun p member => ?_⟩
    rcases List.mem_cons.mp member with rfl | later
    · simp [same]
    · exact lengths p later

end SerialBus
