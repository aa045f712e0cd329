import SerialBus.Proofs.Bus.Chunks
import SerialBus.Proofs.Blocking

namespace SerialBus.WordBus

variable {β ω : Type} [RegisterBlock β]

inductive Way
  | send
  | receive
  | exchange
  deriving DecidableEq

namespace Way

variable (w : Wait (Controller β × ω)) (out dst : List Word) (b : WordBus β ω)

def transaction? : Way → Option Transaction
  | send => b.tx.map fun tx => .tx (tx.store 0 out) (bytes out.length)
  | receive => b.rx.map fun rx => .rx rx (bytes dst.length)
  | exchange =>
    match b.tx, b.rx with
    | some tx, some rx => some (.bidir (tx.store 0 out) rx (bytes out.length))
    | _, _ => none

def lend : Way → WordBus β ω
  | send => { b with tx := none }
  | receive => { b with rx := none }
  | exchange => { b with tx := none, rx := none }

def move (way : Way) : Except TransferError Unit × WordBus β ω :=
  match way.transaction? out dst b with
  | none => (.error .lengthInvalid, b)
  | some t => settle (way.lend b) (Blocking.run w b.handle t b.shared)

theorem sendChunk_eq :
    (fun (out _ : List Word) (b : WordBus β ω) => sendChunk w out b) = send.move w := by
  funext out dst b
  unfold sendChunk move transaction?
  cases b.tx <;> rfl

theorem receiveChunk_eq :
    (fun (_ dst : List Word) (b : WordBus β ω) => receiveChunk w dst.length b) =
      receive.move w := by
  funext out dst b
  unfold receiveChunk move transaction?
  cases b.rx <;> rfl

theorem exchangeChunk_eq :
    (fun (out _ : List Word) (b : WordBus β ω) => exchangeChunk w out b) = exchange.move w := by
  funext out dst b
  unfold exchangeChunk move transaction?
  cases b.tx with
  | none => rfl
  | some tx => cases b.rx <;> rfl

def inside : Way → Bool
  | send => b.tx.all fun tx => out.length ≤ tx.size
  | receive => true
  | exchange => b.rx.isNone || b.tx.all fun tx => out.length ≤ tx.size

def wait? (way : Way) : Option (Controller β × ω) :=
  match way.transaction? out dst b with
  | none => none
  | some t =>
    match b.shared.1.submit b.handle t {} with
    | (.ok (), c) => some (c, b.shared.2)
    | (.error _, _) => none

end Way

/-- Pieces of a call, each with what is sent and where the received words go. -/
abbrev Pieces := List (List Word × List Word)

/-- The length of a piece in bytes can be written as a number of 32 bits. -/
def Measured (out dst : List Word) : Prop := max out.length dst.length * 4 < 2 ^ 32

instance (out dst : List Word) : Decidable (Measured out dst) :=
  inferInstanceAs (Decidable (_ < _))

/-- The pieces one after the other, with each index and each length looked at; nothing if one is out
    of range. -/
def forEach? (w : Wait (Controller β × ω)) (way : Way) :
    Pieces → WordBus β ω → Option (Except TransferError Unit × List Word × WordBus β ω)
  | [], b => some (.ok (), [], b)
  | (out, dst) :: rest, b =>
    if way.inside out b = false ∨ ¬Measured out dst then none
    else
      match way.move w out dst b with
      | (.error e, b) => some (.error e, dst ++ (rest.map Prod.snd).flatten, b)
      | (.ok (), b) =>
        if (b.rx.all fun rx => dst.length ≤ rx.size) = false then none
        else (forEach? w way rest b).map fun (r, ws, last) => (r, b.received dst ++ ws, last)

/-- The states in which the waits for the transactions of the pieces begin. -/
def waits (w : Wait (Controller β × ω)) (way : Way) :
    Pieces → WordBus β ω → List (Controller β × ω)
  | [], _ => []
  | (out, dst) :: rest, b =>
    (way.wait? out dst b).toList ++
      match way.move w out dst b with
      | (.error _, _) => []
      | (.ok (), b) => waits w way rest b

inductive Call
  | read (dst : List Word)
  | write (words : List Word)
  | transfer (dst out : List Word)
  | transferInPlace (words : List Word)

namespace Call

def way : Call → Way
  | read _ => .receive
  | write _ => .send
  | transfer .. | transferInPlace _ => .exchange

def target : Call → List Word
  | read dst => dst
  | write _ => []
  | transfer dst _ => dst
  | transferInPlace words => words

def total : Call → Nat
  | read dst => dst.length
  | write words => words.length
  | transfer dst out => max dst.length out.length
  | transferInPlace words => words.length

def padded (call : Call) (ws : List Word) : List Word :=
  ws ++ List.replicate (call.total - ws.length) 0

def source (call : Call) : List Word :=
  match call with
  | read _ => []
  | write words => words
  | transfer _ out => call.padded out
  | transferInPlace words => words

def pieces (n : Nat) (call : Call) : Pieces :=
  match call with
  | read dst => (chunks n dst).map fun c => ([], c)
  | write words => (chunks n words).map fun c => (c, [])
  | transfer dst out => (chunks n (call.padded out)).zip (chunks n (call.padded dst))
  | transferInPlace words => (chunks n words).map fun c => (c, c)

def destination (call : Call) : List Word :=
  match call with
  | read dst => dst
  | write _ => []
  | transfer dst _ => call.padded dst
  | transferInPlace words => words

/-- What the call answers, and what is in its target then. -/
def run (w : Wait (Controller β × ω)) (b : WordBus β ω) :
    Call → Except TransferError Unit × List Word × WordBus β ω
  | read dst => b.read w dst
  | write words => ((b.write w words).1, [], (b.write w words).2)
  | transfer dst out => b.transfer w dst out
  | transferInPlace words => b.transferInPlace w words

/-- The call with each index into a slice and each length looked at. -/
def run? (w : Wait (Controller β × ω)) (b : WordBus β ω) (call : Call) :
    Option (Except TransferError Unit × List Word × WordBus β ω) :=
  if b.chunkSize = 0 then some (.error .lengthInvalid, call.target, b)
  else
    (forEach? w call.way (call.pieces b.chunkSize) b).map fun (r, ws, last) =>
      (r, ws.take call.target.length, last)

def waits (w : Wait (Controller β × ω)) (b : WordBus β ω) (call : Call) :
    List (Controller β × ω) :=
  if b.chunkSize = 0 then [] else WordBus.waits w call.way (call.pieces b.chunkSize) b

end Call

namespace Call

variable {n : Nat}

theorem pieces_le (positive : 0 < n) (call : Call) :
    ∀ p ∈ call.pieces n, p.1.length ≤ n ∧ p.2.length ≤ n := by
  intro p member
  cases call with
  | read dst =>
    obtain ⟨c, among, rfl⟩ := List.mem_map.mp member
    exact ⟨Nat.zero_le n, length_le_of_mem_chunks positive _ c among⟩
  | write words =>
    obtain ⟨c, among, rfl⟩ := List.mem_map.mp member
    exact ⟨length_le_of_mem_chunks positive _ c among, Nat.zero_le n⟩
  | transferInPlace words =>
    obtain ⟨c, among, rfl⟩ := List.mem_map.mp member
    have short := length_le_of_mem_chunks positive _ c among
    exact ⟨short, short⟩
  | transfer dst out =>
    obtain ⟨first, second⟩ := List.of_mem_zip (a := p.1) (b := p.2) member
    exact ⟨length_le_of_mem_chunks positive _ _ first,
      length_le_of_mem_chunks positive _ _ second⟩

theorem length_padded (call : Call) (ws : List Word) (within : ws.length ≤ call.total) :
    (call.padded ws).length = call.total := by
  rw [padded, List.length_append, List.length_replicate]
  omega

theorem take_destination (call : Call) : call.destination.take call.target.length = call.target := by
  cases call with
  | transfer dst out => exact List.take_left
  | _ => exact List.take_length

theorem length_pieces (positive : 0 < n) (call : Call) :
    (call.pieces n).length = (call.total + (n - 1)) / n := by
  cases call with
  | transfer dst out =>
    have lengths := (transfer dst out).length_padded dst (Nat.le_max_left _ _)
    have others := (transfer dst out).length_padded out (Nat.le_max_right _ _)
    simp only [pieces, List.length_zip, length_chunks positive, lengths, others, Nat.min_self]
  | _ => simp [pieces, length_chunks positive, total]

/-- The lists are `xs` cut into pieces, or they are all empty and so is `xs`. -/
def Cut (n : Nat) (xs : List Word) (ls : List (List Word)) : Prop :=
  ls = chunks n xs ∨ xs = [] ∧ ∀ l ∈ ls, l = []

theorem Cut.flatten_take {xs : List Word} {ls : List (List Word)} (cut : Cut n xs ls)
    (positive : 0 < n) (k : Nat) : (ls.take k).flatten = xs.take (k * n) := by
  rcases cut with rfl | ⟨rfl, empty⟩
  · exact flatten_take_chunks positive xs k
  · rw [List.take_nil, List.flatten_eq_nil_iff]
    exact fun l member => empty l (List.mem_of_mem_take member)

theorem Cut.flatten_drop {xs : List Word} {ls : List (List Word)} (cut : Cut n xs ls)
    (positive : 0 < n) (k : Nat) : (ls.drop k).flatten = xs.drop (k * n) := by
  rcases cut with rfl | ⟨rfl, empty⟩
  · exact flatten_drop_chunks positive xs k
  · rw [List.drop_nil, List.flatten_eq_nil_iff]
    exact fun l member => empty l (List.mem_of_mem_drop member)

theorem Cut.flatten_eq {xs : List Word} {ls : List (List Word)} (cut : Cut n xs ls)
    (positive : 0 < n) : ls.flatten = xs := by
  have all := cut.flatten_drop positive 0
  rwa [List.drop_zero, Nat.zero_mul, List.drop_zero] at all

theorem Cut.drop_eq {xs ws : List Word} {ls : List (List Word)} (cut : Cut n xs ls)
    (positive : 0 < n) (length : ws.length = ls.flatten.length) (k : Nat)
    (same : ws.drop (ls.take k).flatten.length = (ls.drop k).flatten) :
    ws.drop (k * n) = xs.drop (k * n) := by
  rw [cut.flatten_take positive, cut.flatten_drop positive, List.length_take] at same
  rw [cut.flatten_eq positive] at length
  by_cases inside : k * n ≤ xs.length
  · rwa [Nat.min_eq_left inside] at same
  · rw [List.drop_of_length_le (by omega), List.drop_of_length_le (by omega)]

theorem cut_blank {α : Type} (xs : List α) : Cut n [] (xs.map fun _ => []) := by
  refine .inr ⟨rfl, fun l member => ?_⟩
  obtain ⟨x, -, rfl⟩ := List.mem_map.mp member
  rfl

theorem cut_pieces (positive : 0 < n) (call : Call) :
    Cut n call.source ((call.pieces n).map Prod.fst) ∧
      Cut n call.destination ((call.pieces n).map Prod.snd) := by
  cases call with
  | read dst =>
    refine ⟨?_, .inl ?_⟩
    · rw [pieces, List.map_map]
      exact cut_blank _
    · rw [pieces, List.map_map]
      exact List.map_id _
  | write words =>
    refine ⟨.inl ?_, ?_⟩
    · rw [pieces, List.map_map]
      exact List.map_id _
    · rw [pieces, List.map_map]
      exact cut_blank _
  | transfer dst out =>
    have lengths := (transfer dst out).length_padded dst (Nat.le_max_left _ _)
    have others := (transfer dst out).length_padded out (Nat.le_max_right _ _)
    obtain ⟨first, second, -⟩ := zip_chunks_eq positive ((transfer dst out).padded out)
      ((transfer dst out).padded dst) (others.trans lengths.symm)
    exact ⟨.inl first, .inl second⟩
  | transferInPlace words =>
    refine ⟨.inl ?_, .inl ?_⟩ <;> rw [pieces, List.map_map] <;> exact List.map_id _

theorem length_exchanged (positive : 0 < n) (call : Call) (both : call.way = .exchange) :
    ∀ p ∈ call.pieces n, p.1.length = p.2.length := by
  cases call with
  | read | write => cases both
  | transfer dst out =>
    have lengths := (transfer dst out).length_padded dst (Nat.le_max_left _ _)
    have others := (transfer dst out).length_padded out (Nat.le_max_right _ _)
    exact (zip_chunks_eq positive _ _ (others.trans lengths.symm)).2.2
  | transferInPlace words =>
    intro p member
    obtain ⟨c, -, rfl⟩ := List.mem_map.mp member
    rfl

end Call

section

variable {out dst : List Word} {rest : Pieces} {b next : WordBus β ω} {err : TransferError}

omit [RegisterBlock β] in
theorem forEach_of_moved
    {move : List Word → List Word → WordBus β ω → Except TransferError Unit × WordBus β ω}
    (moved : move out dst b = (.ok (), next)) :
    forEach move ((out, dst) :: rest) b =
      ((forEach move rest next).1, next.received dst ++ (forEach move rest next).2.1,
        (forEach move rest next).2.2) := by
  rw [forEach, moved]

omit [RegisterBlock β] in
theorem forEach_of_failed
    {move : List Word → List Word → WordBus β ω → Except TransferError Unit × WordBus β ω}
    (failed : move out dst b = (.error err, next)) :
    forEach move ((out, dst) :: rest) b =
      (.error err, dst ++ (rest.map Prod.snd).flatten, next) := by
  rw [forEach, failed]

theorem waits_of_moved {w : Wait (Controller β × ω)} {way : Way}
    (moved : way.move w out dst b = (.ok (), next)) :
    waits w way ((out, dst) :: rest) b =
      (way.wait? out dst b).toList ++ waits w way rest next := by
  rw [waits, moved]

end

omit [RegisterBlock β] in
theorem length_received_le (b : WordBus β ω) (dst : List Word) :
    (b.received dst).length ≤ dst.length := by
  unfold received
  split
  · exact List.length_take_le _ _
  · exact Nat.le_refl _

omit [RegisterBlock β] in
theorem length_forEach_le
    (move : List Word → List Word → WordBus β ω → Except TransferError Unit × WordBus β ω)
    (ps : Pieces) (b : WordBus β ω) :
    (forEach move ps b).2.1.length ≤ (ps.map Prod.snd).flatten.length := by
  induction ps generalizing b with
  | nil => exact Nat.le_refl 0
  | cons p rest ih =>
    obtain ⟨out, dst⟩ := p
    rw [List.map_cons, List.flatten_cons, List.length_append]
    unfold forEach
    split
    · rw [List.length_append]
    · rename_i next moved
      have first := next.length_received_le dst
      have later := ih next
      generalize forEach move rest next = moving at later ⊢
      rw [List.length_append]
      exact Nat.add_le_add first later

omit [RegisterBlock β] in
theorem Call.length_forEach_le {n : Nat} (positive : 0 < n) (call : Call)
    (move : List Word → List Word → WordBus β ω → Except TransferError Unit × WordBus β ω)
    (b : WordBus β ω) :
    (forEach move (call.pieces n) b).2.1.length ≤ call.destination.length := by
  rw [← (call.cut_pieces positive).2.flatten_eq positive]
  exact WordBus.length_forEach_le move (call.pieces n) b

theorem Call.run_eq (call : Call) (w : Wait (Controller β × ω)) (b : WordBus β ω) :
    call.run w b =
      if b.chunkSize = 0 then (.error .lengthInvalid, call.target, b)
      else
        let (r, ws, last) := forEach (call.way.move w) (call.pieces b.chunkSize) b
        (r, ws.take call.target.length, last) := by
  cases call with
  | read dst =>
    simp only [run, WordBus.read, withChunks, Way.receiveChunk_eq]
    split
    · rfl
    · rename_i some
      have short := (read dst).length_forEach_le (Nat.pos_of_ne_zero some) (Way.receive.move w) b
      exact Prod.ext rfl (Prod.ext (List.take_of_length_le short).symm rfl)
  | write words =>
    simp only [run, WordBus.write, withChunks, Way.sendChunk_eq]
    split
    · rfl
    · simp only [way, pieces, target, List.length_nil, List.take_zero]
  | transfer dst out =>
    simp only [run, WordBus.transfer, withChunks, Way.exchangeChunk_eq]
    split
    · simp only [target, List.take_length]
    · rfl
  | transferInPlace words =>
    simp only [run, WordBus.transferInPlace, withChunks, Way.exchangeChunk_eq]
    split
    · rfl
    · rename_i some
      have short := (transferInPlace words).length_forEach_le (Nat.pos_of_ne_zero some)
        (Way.exchange.move w) b
      exact Prod.ext rfl (Prod.ext (List.take_of_length_le short).symm rfl)

end SerialBus.WordBus
