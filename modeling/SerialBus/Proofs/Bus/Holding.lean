import SerialBus.Proofs.Bus.Calls

namespace SerialBus

def Buffer.site (b : Buffer) : Nat × Nat := (b.address, b.size)

theorem Buffer.site_store (b : Buffer) (ws : List Word) (fits : ws.length ≤ b.size) :
    (b.store 0 ws).site = b.site :=
  congrArg (Prod.mk b.address) (b.size_store 0 ws (by rw [Nat.zero_add]; exact fits))

namespace Blocking

def bring (answer : Except TransferError Unit) (back : Buffers) : Except Failure Buffers :=
  match answer with
  | .ok () => .ok back
  | .error e => .error ⟨e, back⟩

theorem result_eq_bring (done : Completion) :
    result (some (.ok done)) = bring (done.outcome.mapError .hardware) done.buffers := by
  rcases done with ⟨outcome, buffers⟩
  cases outcome <;> rfl

theorem exists_bring (result : Except Failure Buffers) :
    ∃ answer back, result = bring answer back := by
  rcases result with ⟨e, back⟩ | back
  · exact ⟨.error e, back, rfl⟩
  · exact ⟨.ok (), back, rfl⟩

end Blocking

namespace WordBus

variable {β ω : Type} {b : WordBus β ω} {tx rx s r : Buffer} {out dst : List Word}

namespace Way

def transaction (s r : Buffer) (out dst : List Word) : Way → Transaction
  | send => .tx (s.store 0 out) (bytes out.length)
  | receive => .rx r (bytes dst.length)
  | exchange => .bidir (s.store 0 out) r (bytes out.length)

theorem transaction?_eq (sends : b.tx = some s) (receives : b.rx = some r) (way : Way) :
    way.transaction? out dst b = some (way.transaction s r out dst) := by
  cases way with
  | send =>
    rw [transaction?, sends]
    rfl
  | receive =>
    rw [transaction?, receives]
    rfl
  | exchange => rw [transaction?, sends, receives, transaction]

def regain (back : Buffers) (shared : Controller β × ω) (b : WordBus β ω) (way : Way) :
    WordBus β ω :=
  { way.lend b with tx := back.tx.or (way.lend b).tx, rx := back.rx.or (way.lend b).rx, shared }

theorem handle_regain (back : Buffers) (shared : Controller β × ω) (b : WordBus β ω) (way : Way) :
    (way.regain back shared b).handle = b.handle := by
  cases way <;> rfl

theorem move_eq [RegisterBlock β] {w : Wait (Controller β × ω)} {way : Way} {t : Transaction}
    {answer : Except TransferError Unit} {back : Buffers} {shared : Controller β × ω}
    (lent : way.transaction? out dst b = some t)
    (ran : Blocking.run w b.handle t b.shared = (Blocking.bring answer back, shared)) :
    way.move w out dst b = (answer, way.regain back shared b) := by
  rw [move, lent]
  simp only [ran]
  cases answer <;> rfl

end Way

/-- The bus has the two scratch buffers that it was made with, whatever words are in them. -/
structure Holds (tx rx : Buffer) (b : WordBus β ω) : Prop where
  tx : b.tx.map Buffer.site = some tx.site
  rx : b.rx.map Buffer.site = some rx.site

namespace Holds

theorem exists_scratch (holds : Holds tx rx b) : ∃ s r, b.tx = some s ∧ b.rx = some r := by
  obtain ⟨s, sends, -⟩ := Option.map_eq_some_iff.mp holds.tx
  obtain ⟨r, receives, -⟩ := Option.map_eq_some_iff.mp holds.rx
  exact ⟨s, r, sends, receives⟩

theorem site_tx (holds : Holds tx rx b) (sends : b.tx = some s) : s.site = tx.site := by
  have site := holds.tx
  rwa [sends, Option.map_some, Option.some.injEq] at site

theorem site_rx (holds : Holds tx rx b) (receives : b.rx = some r) : r.site = rx.site := by
  have site := holds.rx
  rwa [receives, Option.map_some, Option.some.injEq] at site

theorem size_tx (holds : Holds tx rx b) (sends : b.tx = some s) : s.size = tx.size :=
  congrArg Prod.snd (holds.site_tx sends)

theorem size_rx (holds : Holds tx rx b) (receives : b.rx = some r) : r.size = rx.size :=
  congrArg Prod.snd (holds.site_rx receives)

theorem chunkSize_eq (holds : Holds tx rx b) : b.chunkSize = min tx.size rx.size := by
  obtain ⟨s, r, sends, receives⟩ := holds.exists_scratch
  rw [← holds.size_tx sends, ← holds.size_rx receives, chunkSize, sends, receives]
  rfl

theorem inside_of_fits (holds : Holds tx rx b) (way : Way) (out : List Word)
    (fits : out.length ≤ tx.size) : way.inside out b = true := by
  obtain ⟨s, r, sends, -⟩ := holds.exists_scratch
  rw [← holds.size_tx sends] at fits
  cases way <;> simp [Way.inside, sends, fits]

theorem regain (holds : Holds tx rx b) (sends : b.tx = some s) (receives : b.rx = some r)
    (fits : out.length ≤ tx.size) (way : Way) {back : Buffers} (shared : Controller β × ω)
    (sent : back.tx = (way.transaction s r out dst).buffers.tx)
    (filled : back.rx.map Buffer.site =
      (way.transaction s r out dst).buffers.rx.map Buffer.site) :
    Holds tx rx (way.regain back shared b) := by
  have kept : (s.store 0 out).site = tx.site := by
    rw [s.site_store out (by rw [holds.size_tx sends]; exact fits)]
    exact holds.site_tx sends
  have asRx := holds.site_rx receives
  cases way with
  | send =>
    have nothing : back.rx = none := Option.map_eq_none_iff.mp filled
    refine ⟨?_, ?_⟩
    · rw [Way.regain, sent]
      exact congrArg some kept
    · rw [Way.regain, nothing]
      exact holds.rx
  | receive =>
    obtain ⟨now, is, same⟩ := Option.map_eq_some_iff.mp filled
    refine ⟨?_, ?_⟩
    · rw [Way.regain, sent]
      exact holds.tx
    · rw [Way.regain, is]
      exact congrArg some (same.trans asRx)
  | exchange =>
    obtain ⟨now, is, same⟩ := Option.map_eq_some_iff.mp filled
    refine ⟨?_, ?_⟩
    · rw [Way.regain, sent]
      exact congrArg some kept
    · rw [Way.regain, is]
      exact congrArg some (same.trans asRx)

end Holds

/-- A bus between two pieces, over a controller that has come to where it is in any way. -/
structure Ready {μ : Type} [RegisterBlock β] (env : μ → β → β) (blocks : Trio β) (board : Board)
    (h : Handle) (tx rx : Buffer) (b : WordBus β ω) : Prop extends Holds tx rx b where
  handle : b.handle = h
  reached : Controller.Reached env (fun _ => True) blocks board b.shared.1

end WordBus

end SerialBus
