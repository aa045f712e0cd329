import Mathlib.Logic.Function.Iterate
import SerialBus.Blocking
import SerialBus.Proofs.Parking

namespace SerialBus

namespace Wait

variable {σ α : Type}

def after (w : Wait σ) (k : Nat) (s : σ) : σ := (fun s => (w.pause s).2)^[k] s

theorem after_succ (w : Wait σ) (k : Nat) (s : σ) :
    w.after (k + 1) s = w.after k (w.pause s).2 := rfl

/-- A wait from `s` on that is given up after `k` pauses, the last of which may say so. -/
def GivesUp (w : Wait σ) (k : Nat) (s : σ) : Prop :=
  k = w.limit ∨ ∃ j, k = j + 1 ∧ (w.pause (w.after j s)).1 = false

def Peeks (look : σ → Option α × σ) : Prop := ∀ s, (look s).1 = none → look s = (none, s)

variable {look : σ → Option α × σ}

theorem pollFrom_of_found (pause : σ → Bool × σ) (limit : Nat) (s : σ)
    (found : (look s).1.isSome = true) : pollFrom pause look limit s = look s := by
  unfold pollFrom
  rcases looked : look s with ⟨seen, t⟩
  rw [looked] at found
  cases seen with
  | some a => rfl
  | none => cases found

theorem pollFrom_of_missed (pause : σ → Bool × σ) (limit : Nat) (s : σ)
    (missed : look s = (none, s)) :
    pollFrom pause look (limit + 1) s =
      if (pause s).1 then pollFrom pause look limit (pause s).2 else (none, (pause s).2) := by
  rw [pollFrom, missed]
  simp only
  rcases pause s with ⟨goesOn, t⟩
  cases goesOn <;> rfl

theorem pollFrom_zero (pause : σ → Bool × σ) (s : σ) (missed : look s = (none, s)) :
    pollFrom pause look 0 s = (none, s) := by
  rw [pollFrom, missed]

theorem poll_cases (w : Wait σ) (peeks : Peeks look) (s : σ) :
    (∃ k ≤ w.limit, (look (w.after k s)).1.isSome = true ∧
        w.poll look s = look (w.after k s)) ∨
      ∃ k, w.poll look s = (none, w.after k s) ∧ w.GivesUp k s := by
  have some_or (s : σ) : (look s).1.isSome = true ∨ look s = (none, s) := by
    cases seen : (look s).1 with
    | some a => exact .inl rfl
    | none => exact .inr (peeks s seen)
  unfold poll GivesUp
  generalize w.limit = limit
  induction limit generalizing s with
  | zero =>
    rcases some_or s with found | missed
    · exact .inl ⟨0, Nat.le_refl 0, found, pollFrom_of_found _ _ s found⟩
    · exact .inr ⟨0, pollFrom_zero _ s missed, .inl rfl⟩
  | succ limit ih =>
    rcases some_or s with found | missed
    · exact .inl ⟨0, Nat.zero_le _, found, pollFrom_of_found _ _ s found⟩
    rw [pollFrom_of_missed _ _ s missed]
    cases paused : (w.pause s).1 with
    | false => exact .inr ⟨1, rfl, .inr ⟨0, rfl, paused⟩⟩
    | true =>
      rw [if_pos rfl]
      rcases ih (w.pause s).2 with ⟨k, bound, found, poll⟩ | ⟨k, poll, up⟩
      · exact .inl ⟨k + 1, Nat.succ_le_succ bound, found, poll⟩
      · refine .inr ⟨k + 1, poll, up.imp (congrArg (· + 1)) ?_⟩
        rintro ⟨j, rfl, stopped⟩
        exact ⟨j + 1, rfl, stopped⟩

theorem poll_of_first (w : Wait σ) (patient : ∀ s, (w.pause s).1 = true) (k : Nat) (s : σ)
    (bound : k ≤ w.limit) (missed : ∀ j < k, look (w.after j s) = (none, w.after j s))
    (found : (look (w.after k s)).1.isSome = true) : w.poll look s = look (w.after k s) := by
  unfold poll
  generalize w.limit = limit at bound
  induction k generalizing s limit with
  | zero => exact pollFrom_of_found _ _ s found
  | succ k ih =>
    obtain ⟨rest, rfl⟩ : ∃ rest, limit = rest + 1 := ⟨limit - 1, by omega⟩
    rw [pollFrom_of_missed _ _ s (missed 0 (Nat.succ_pos k)), if_pos (patient s)]
    exact ih (w.pause s).2 (fun j less => missed (j + 1) (Nat.succ_lt_succ less)) found rest
      (Nat.le_of_succ_le_succ bound)

end Wait

namespace Controller

variable {β μ ω : Type} [RegisterBlock β]

/-- In each pause of a wait nothing but allowed actions happen to the controller. -/
def Plays (env : μ → β → β) (allowed : Action μ → Prop) (w : Wait (Controller β × ω)) : Prop :=
  ∀ s, ∃ as : List (Action μ), (∀ a ∈ as, allowed a) ∧ (w.pause s).2.1 = s.1.run env as

theorem Plays.mono {env : μ → β → β} {allowed wider : Action μ → Prop}
    {w : Wait (Controller β × ω)} (plays : Plays env allowed w)
    (wide : ∀ a, allowed a → wider a) : Plays env wider w := by
  intro s
  obtain ⟨as, all, paused⟩ := plays s
  exact ⟨as, fun a member => wide a (all a member), paused⟩

theorem Plays.after {env : μ → β → β} {allowed : Action μ → Prop}
    {w : Wait (Controller β × ω)} (plays : Plays env allowed w) (k : Nat)
    (s : Controller β × ω) :
    ∃ as : List (Action μ), (∀ a ∈ as, allowed a) ∧ (w.after k s).1 = s.1.run env as := by
  induction k generalizing s with
  | zero => exact ⟨[], by simp, rfl⟩
  | succ k ih =>
    obtain ⟨first, now, paused⟩ := plays s
    obtain ⟨rest, later, ends⟩ := ih (w.pause s).2
    refine ⟨first ++ rest, fun a member => ?_, ?_⟩
    · exact (List.mem_append.mp member).elim (now a) (later a)
    · rw [w.after_succ, ends, paused, run, run, run, List.foldl_append]

end Controller

end SerialBus
