namespace SerialBus

/-- How a caller passes time. A pause moves the surroundings on and says whether to go on
    waiting; no more than `limit` pauses are taken. -/
structure Wait (σ : Type) where
  pause : σ → Bool × σ
  limit : Nat

namespace Wait

variable {σ α : Type}

def pollFrom (pause : σ → Bool × σ) (look : σ → Option α × σ) : Nat → σ → Option α × σ
  | limit, s =>
    match look s with
    | (some a, s) => (some a, s)
    | (none, s) =>
      match limit with
      | 0 => (none, s)
      | limit + 1 =>
        match pause s with
        | (true, s) => pollFrom pause look limit s
        | (false, s) => (none, s)

def poll (w : Wait σ) (look : σ → Option α × σ) (s : σ) : Option α × σ :=
  pollFrom w.pause look w.limit s

/-- Look at most `limit + 1` times with nothing happening in between. -/
def spin (limit : Nat) : Wait σ where
  pause s := (true, s)
  limit := limit

end Wait

end SerialBus
