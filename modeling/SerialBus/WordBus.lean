import SerialBus.Blocking

namespace SerialBus

/-- Pieces of at most `n` items, in order; no piece is empty. -/
def chunks (n : Nat) : List α → List (List α)
  | [] => []
  | x :: xs => (x :: xs.take (n - 1)) :: chunks n (xs.drop (n - 1))
termination_by xs => xs.length
decreasing_by
  simp only [List.length_drop, List.length_cons]
  omega

theorem flatten_chunks (n : Nat) (xs : List α) : (chunks n xs).flatten = xs := by
  fun_induction chunks n xs with
  | case1 => rfl
  | case2 x xs ih => simp [ih]

theorem length_le_of_mem_chunks {n : Nat} (hn : 0 < n) (xs : List α) :
    ∀ piece ∈ chunks n xs, piece.length ≤ n := by
  fun_induction chunks n xs with
  | case1 => simp
  | case2 x xs ih =>
    intro piece mem
    rcases List.mem_cons.1 mem with rfl | mem
    · simp only [List.length_cons, List.length_take]
      omega
    · exact ih piece mem

/-- A handle with its scratch buffers, a buffer being away while a transaction has it, and the
    controller among its surroundings. -/
structure WordBus (β ω : Type) where
  handle : Handle
  tx : Option Buffer
  rx : Option Buffer
  shared : Controller β × ω

namespace WordBus

variable {β ω : Type} [RegisterBlock β]

def sizeOf (buffer : Option Buffer) : Nat := (buffer.map Buffer.size).getD 0

def chunkSize (b : WordBus β ω) : Nat := min (sizeOf b.tx) (sizeOf b.rx)

def settle (b : WordBus β ω) :
    Except Failure Buffers × Controller β × ω → Except TransferError Unit × WordBus β ω
  | (.ok buffers, shared) =>
    (.ok (), { b with tx := buffers.tx.or b.tx, rx := buffers.rx.or b.rx, shared })
  | (.error ⟨e, buffers⟩, shared) =>
    (.error e, { b with tx := buffers.tx.or b.tx, rx := buffers.rx.or b.rx, shared })

def bytes (words : Nat) : UInt32 := UInt32.ofNat (words * 4)

def sendChunk (w : Wait (Controller β × ω)) (out : List Word) (b : WordBus β ω) :
    Except TransferError Unit × WordBus β ω :=
  match b.tx with
  | none => (.error .lengthInvalid, b)
  | some tx =>
    settle { b with tx := none }
      (Blocking.transmit w b.handle (tx.store 0 out) (bytes out.length) b.shared)

def receiveChunk (w : Wait (Controller β × ω)) (n : Nat) (b : WordBus β ω) :
    Except TransferError Unit × WordBus β ω :=
  match b.rx with
  | none => (.error .lengthInvalid, b)
  | some rx => settle { b with rx := none } (Blocking.receive w b.handle rx (bytes n) b.shared)

def exchangeChunk (w : Wait (Controller β × ω)) (out : List Word) (b : WordBus β ω) :
    Except TransferError Unit × WordBus β ω :=
  match b.tx, b.rx with
  | some tx, some rx =>
    settle { b with tx := none, rx := none }
      (Blocking.transceive w b.handle (tx.store 0 out) rx (bytes out.length) b.shared)
  | _, _ => (.error .lengthInvalid, b)

def received (b : WordBus β ω) (dst : List Word) : List Word :=
  match b.rx with
  | some rx => rx.words.take dst.length
  | none => dst

/-- Move pieces one after the other, each with what is sent and where the received words go, and
    give the destinations afterwards. From a failing piece on they are as they were. -/
def forEach (move : List Word → List Word → WordBus β ω → Except TransferError Unit × WordBus β ω) :
    List (List Word × List Word) → WordBus β ω →
      Except TransferError Unit × List Word × WordBus β ω
  | [], b => (.ok (), [], b)
  | (out, dst) :: rest, b =>
    match move out dst b with
    | (.error e, b) => (.error e, dst ++ (rest.map Prod.snd).flatten, b)
    | (.ok (), b) =>
      let (r, ws, last) := forEach move rest b
      (r, b.received dst ++ ws, last)

def withChunks (b : WordBus β ω) (dst : List Word)
    (f : Nat → Except TransferError Unit × List Word × WordBus β ω) :
    Except TransferError Unit × List Word × WordBus β ω :=
  if b.chunkSize = 0 then (.error .lengthInvalid, dst, b) else f b.chunkSize

def write (w : Wait (Controller β × ω)) (b : WordBus β ω) (words : List Word) :
    Except TransferError Unit × WordBus β ω :=
  let (r, _, b) := b.withChunks [] fun n =>
    forEach (fun out _ b => sendChunk w out b) ((chunks n words).map fun c => (c, [])) b
  (r, b)

def read (w : Wait (Controller β × ω)) (b : WordBus β ω) (dst : List Word) :
    Except TransferError Unit × List Word × WordBus β ω :=
  b.withChunks dst fun n =>
    forEach (fun _ dst b => receiveChunk w dst.length b) ((chunks n dst).map fun c => ([], c)) b

/-- Send `out` and fill `dst`; the shorter one is padded with zeros, or its surplus dropped. -/
def transfer (w : Wait (Controller β × ω)) (b : WordBus β ω) (dst out : List Word) :
    Except TransferError Unit × List Word × WordBus β ω :=
  let total := max dst.length out.length
  let padded := fun (ws : List Word) => ws ++ List.replicate (total - ws.length) 0
  let (r, ws, b) := b.withChunks dst fun n =>
    forEach (fun out _ b => exchangeChunk w out b)
      ((chunks n (padded out)).zip (chunks n (padded dst))) b
  (r, ws.take dst.length, b)

def transferInPlace (w : Wait (Controller β × ω)) (b : WordBus β ω) (words : List Word) :
    Except TransferError Unit × List Word × WordBus β ω :=
  b.withChunks words fun n =>
    forEach (fun out _ b => exchangeChunk w out b) ((chunks n words).map fun c => (c, c)) b

def flush (b : WordBus β ω) : Except TransferError Unit × WordBus β ω := (.ok (), b)

end WordBus

end SerialBus
