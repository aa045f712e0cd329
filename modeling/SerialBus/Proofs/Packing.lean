import SerialBus.Proofs.Bus.Chunks
import SerialBus.Proofs.Fields
import SerialBus.Proofs.SegmentLists

namespace SerialBus

namespace ByteOrder

def opposite : ByteOrder → ByteOrder
  | little => big
  | big => little

/-- The field of the byte that goes over the wire as number `i` of its word. -/
def lane : ByteOrder → Nat → Field
  | little, i => ⟨8 * i, 8⟩
  | big, i => ⟨24 - 8 * i, 8⟩

/-- The field of all bytes that go over the wire behind the first `k` of a word. -/
def padding : ByteOrder → Nat → Field
  | little, k => ⟨8 * k, 32 - 8 * k⟩
  | big, k => ⟨0, 32 - 8 * k⟩

def byte (order : ByteOrder) (i : Nat) (w : Word) : Byte := w.extractLsb' (order.lane i).offset 8

def swapped (w : Word) : Word :=
  w.extractLsb' 0 8 ++ w.extractLsb' 8 8 ++ w.extractLsb' 16 8 ++ w.extractLsb' 24 8

def ofBytes (order : ByteOrder) (chunk : List Byte) : Word :=
  order.join (chunk.getD 0 0) (chunk.getD 1 0) (chunk.getD 2 0) (chunk.getD 3 0)

variable (order : ByteOrder)

theorem get_lane (i : Nat) (w : Word) : (order.lane i).get w = (order.byte i w).toNat := by
  cases order <;> rfl

theorem split_eq (w : Word) : order.split w = [0, 1, 2, 3].map fun i => order.byte i w := by
  cases order <;> rfl

theorem split_inj {v w : Word} (same : order.split v = order.split w) : v = w := by
  rw [split_eq, split_eq, List.map_inj_left] at same
  apply Field.eq_of_cover ([0, 1, 2, 3].map order.lane)
  · cases order <;> decide
  · intro f member
    obtain ⟨i, inside, rfl⟩ := List.mem_map.mp member
    rw [get_lane, get_lane, same i inside]

theorem split_ofBytes (chunk : List Byte) (short : chunk.length ≤ 4) :
    order.split (order.ofBytes chunk) = chunk ++ List.replicate (4 - chunk.length) 0 := by
  rw [ofBytes, split_join]
  match chunk, short with
  | [], _ | [_], _ | [_, _], _ | [_, _, _], _ | [_, _, _, _], _ => rfl

theorem byte_put_padding (i k : Nat) (inside : i < 4) (few : k ≤ 4) (w : Word) :
    order.byte i ((order.padding k).put 0 w) = if i < k then order.byte i w else 0 := by
  have fits : (order.padding k).Fits := by
    unfold Field.Fits
    cases order <;> simp only [padding] <;> omega
  apply BitVec.eq_of_toNat_eq
  rw [← get_lane]
  split
  · have apart : (order.lane i).Disjoint (order.padding k) := by
      unfold Field.Disjoint
      cases order <;> simp only [lane, padding] <;> omega
    rw [Field.get_put_of_disjoint _ _ fits apart, get_lane]
  · apply Field.get_put_zero_of_inside _ _ fits <;>
      cases order <;> simp only [lane, padding] <;> omega

theorem split_put_padding (k : Nat) (few : k ≤ 4) (w : Word) :
    order.split ((order.padding k).put 0 w) =
      (order.split w).take k ++ List.replicate (4 - k) 0 := by
  have cleared (i : Nat) (member : i ∈ [0, 1, 2, 3]) :
      order.byte i ((order.padding k).put 0 w) = if i < k then order.byte i w else 0 :=
    order.byte_put_padding i k ((show ∀ i ∈ [0, 1, 2, 3], i < 4 by decide) i member) few w
  rw [split_eq, split_eq, List.map_congr_left cleared]
  have cases : k = 0 ∨ k = 1 ∨ k = 2 ∨ k = 3 ∨ k = 4 := by omega
  rcases cases with rfl | rfl | rfl | rfl | rfl <;> rfl

theorem ofBytes_take_split (k : Nat) (few : k ≤ 4) (w : Word) :
    order.ofBytes ((order.split w).take k) = (order.padding k).put 0 w := by
  have length : ((order.split w).take k).length = k := by
    rw [List.length_take, length_split, Nat.min_eq_left few]
  apply order.split_inj
  rw [split_ofBytes _ _ (length.trans_le few), length, split_put_padding _ _ few]

theorem put_padding_four (w : Word) : (order.padding 4).put 0 w = w := by
  apply order.split_inj
  rw [split_put_padding _ _ (Nat.le_refl 4), ← order.length_split w, List.take_length,
    Nat.sub_self]
  exact List.append_nil _

theorem swapped_ofBytes (chunk : List Byte) :
    swapped (order.ofBytes chunk) = order.opposite.ofBytes chunk := by
  unfold ofBytes
  generalize chunk.getD 0 0 = a, chunk.getD 1 0 = b, chunk.getD 2 0 = c, chunk.getD 3 0 = d
  have bytes := order.split_join a b c d
  cases order <;>
    simp only [split, List.reverse_cons, List.reverse_nil, List.nil_append, List.cons_append,
      List.cons.injEq, and_true] at bytes <;>
    obtain ⟨first, second, third, fourth⟩ := bytes <;>
    rw [swapped, first, second, third, fourth] <;>
    rfl

end ByteOrder

namespace Packing

variable (order : ByteOrder)

theorem words_nil : words order [] = [] := by rw [words]

theorem words_of_some (data : List Byte) (some : data ≠ []) :
    words order data = order.ofBytes (data.take 4) :: words order (data.drop 4) := by
  match data with
  | [_] | [_, _] | [_, _, _] => simp [words, ByteOrder.ofBytes]
  | a :: b :: c :: d :: rest => simp [words, ByteOrder.ofBytes]

theorem wordsFor_of_pos (n : Nat) (some : 0 < n) : wordsFor n = wordsFor (n - 4) + 1 := by
  unfold wordsFor
  omega

/-- The bytes of the words are those that were packed, and zeros behind them. -/
theorem bytes_words (data : List Byte) :
    bytes order (words order data) =
      data ++ List.replicate (4 * wordsFor data.length - data.length) 0 := by
  induction data using chunks_induction (n := 4) (by decide) with
  | nil => rw [words_nil]; rfl
  | step data some ih =>
    have items := List.length_pos_iff.mpr some
    have first : (data.take 4).length ≤ 4 := List.length_take_le ..
    rw [words_of_some order data some, bytes, List.flatMap_cons, order.split_ofBytes _ first,
      ← bytes, ih, wordsFor_of_pos _ items, List.length_take, List.length_drop]
    by_cases whole : 4 ≤ data.length
    · have none : 4 - min 4 data.length = 0 := by omega
      have same : 4 * (wordsFor (data.length - 4) + 1) - data.length =
          4 * wordsFor (data.length - 4) - (data.length - 4) := by omega
      rw [none, same, List.replicate_zero, List.append_nil, ← List.append_assoc,
        List.take_append_drop]
    · have last : data.drop 4 = [] := List.drop_of_length_le (by omega)
      have least : min 4 data.length = data.length := by omega
      have zero : data.length - 4 = 0 := by omega
      rw [last, least, zero, List.take_of_length_le (by omega), List.nil_append]
      exact List.append_nil _

theorem bytes_cons (w : Word) (ws : List Word) :
    bytes order (w :: ws) = order.split w ++ bytes order ws := List.flatMap_cons

theorem take_bytes_ne_nil (w : Word) (ws : List Word) (n : Nat) (some : n ≠ 0) :
    (bytes order (w :: ws)).take n ≠ [] := by
  apply List.ne_nil_of_length_pos
  rw [List.length_take, length_bytes, List.length_cons]
  omega

theorem take_take_bytes (w : Word) (ws : List Word) (n : Nat) :
    ((bytes order (w :: ws)).take n).take 4 = (order.split w).take (min 4 n) := by
  rw [List.take_take, bytes_cons, List.take_append_of_le_length]
  rw [ByteOrder.length_split]
  exact Nat.min_le_left 4 n

theorem drop_take_bytes (w : Word) (ws : List Word) (n : Nat) :
    ((bytes order (w :: ws)).take n).drop 4 = (bytes order ws).take (n - 4) := by
  rw [List.drop_take, bytes_cons, List.drop_left' (order.length_split w)]

/-- Words of which only `n` bytes were kept are those words, but for the padding of the last. -/
theorem words_take_bytes (ws : List Word) (n : Nat) (enough : wordsFor n ≤ ws.length) :
    words order ((bytes order ws).take n) =
      (ws.take (wordsFor n)).modify (wordsFor n - 1)
        ((order.padding (n - 4 * (wordsFor n - 1))).put 0) := by
  induction ws generalizing n with
  | nil =>
    have none : wordsFor n = 0 := Nat.le_zero.mp enough
    rw [none]
    simp [bytes, words_nil]
  | cons w ws ih =>
    by_cases zero : n = 0
    · subst zero
      rw [List.take_zero, words_nil]
      rfl
    · have count := wordsFor_of_pos n (Nat.pos_of_ne_zero zero)
      rw [count, List.length_cons] at enough
      rw [words_of_some _ _ (take_bytes_ne_nil order w ws n zero), take_take_bytes, drop_take_bytes,
        order.ofBytes_take_split _ (Nat.min_le_left 4 n), ih _ (Nat.le_of_succ_le_succ enough),
        count, List.take_succ_cons, Nat.add_sub_cancel]
      by_cases last : n ≤ 4
      · have none : wordsFor (n - 4) = 0 := by rw [Nat.sub_eq_zero_of_le last]; rfl
        rw [none, Nat.min_eq_right last]
        rfl
      · obtain ⟨m, more⟩ : ∃ m, wordsFor (n - 4) = m + 1 :=
          ⟨_, wordsFor_of_pos _ (by omega)⟩
        have same : n - 4 - 4 * m = n - 4 * (m + 1) := by omega
        rw [more, Nat.min_eq_left (by omega), order.put_padding_four, Nat.add_sub_cancel, same,
          List.modify_succ_cons]

theorem words_opposite (data : List Byte) :
    words order.opposite data = (words order data).map ByteOrder.swapped := by
  induction data using chunks_induction (n := 4) (by decide) with
  | nil => rw [words_nil, words_nil, List.map_nil]
  | step data some ih =>
    rw [words_of_some _ data some, words_of_some order data some, ih, List.map_cons,
      order.swapped_ofBytes]

-- A call, and what its output holds afterwards: without a result nothing has been written.

def packed (data : List Byte) (out : List Word) : List Word :=
  ((pack order data out).map Prod.snd).getD out

def unpacked (ws : List Word) (out : List Byte) : List Byte :=
  ((unpack order ws out.length).map fun data => data ++ out.drop data.length).getD out

theorem wordsFor_toNat {n : Nat} (small : n < 2 ^ 32) :
    wordsFor (UInt32.ofNat n).toNat = wordsFor n := by
  rw [UInt32.toNat_ofNat_of_lt' small]

theorem pack_of_room {data : List Byte} (small : data.length < 2 ^ 32) (out : List Word)
    (room : wordsFor data.length ≤ out.length) :
    pack order data out =
      some (wordsFor data.length, words order data ++ out.drop (wordsFor data.length)) := by
  simp only [pack, wordsFor_toNat small]
  rw [if_neg (Nat.not_lt.mpr room), ← length_words order data, List.take_length]

theorem pack_of_short {data : List Byte} (small : data.length < 2 ^ 32) (out : List Word)
    (short : out.length < wordsFor data.length) : pack order data out = none := by
  simp only [pack, wordsFor_toNat small]
  exact if_pos short

theorem unpack_of_enough (ws : List Word) {n : Nat} (small : n < 2 ^ 32)
    (enough : wordsFor n ≤ ws.length) : unpack order ws n = some ((bytes order ws).take n) := by
  -- the words that are counted hold all bytes that there is room for
  have whole : n ≤ (bytes order (ws.take (wordsFor n))).length := by
    rw [length_bytes, List.length_take, Nat.min_eq_left enough]
    unfold wordsFor
    omega
  have parts : bytes order ws =
      bytes order (ws.take (wordsFor n)) ++ bytes order (ws.drop (wordsFor n)) := by
    rw [bytes, bytes, bytes, ← List.flatMap_append, List.take_append_drop]
  simp only [unpack, wordsFor_toNat small]
  rw [if_neg (Nat.not_lt.mpr enough), parts, List.take_append_of_le_length whole]

theorem unpack_of_few (ws : List Word) {n : Nat} (small : n < 2 ^ 32)
    (few : ws.length < wordsFor n) : unpack order ws n = none := by
  simp only [unpack, wordsFor_toNat small]
  exact if_pos few

theorem unpack_words {data : List Byte} (small : data.length < 2 ^ 32) (rest : List Word) :
    unpack order (words order data ++ rest) data.length = some data := by
  rw [unpack_of_enough order _ small]
  · rw [bytes, List.flatMap_append, ← bytes, bytes_words, List.append_assoc, List.take_left]
  · rw [List.length_append, length_words]
    exact Nat.le_add_right _ _

theorem pack_opposite (data : List Byte) (out : List Word) :
    pack order.opposite data out = (pack order data out).map fun (n, ws) =>
      (n, (ws.take n).map ByteOrder.swapped ++ ws.drop n) := by
  have counted : wordsFor (UInt32.ofNat data.length).toNat ≤ (words order data).length := by
    rw [length_words]
    exact Nat.div_le_div_right (Nat.add_le_add_right (Nat.mod_le data.length UInt32.size) 3)
  simp only [pack]
  generalize wordsFor (UInt32.ofNat data.length).toNat = needed at counted
  have written : ((words order data).take needed).length = needed := List.length_take_of_le counted
  split
  · rfl
  · rw [Option.map_some, words_opposite, ← List.map_take, List.take_left' written,
      List.drop_left' written]

/-- Fewer than `2 ^ 32` bytes have as many words as 32 bits count them to have. They are packed
    exactly if the output has room for these words, the last one filled up with zeros, and leave
    what is behind them; and bytes are unpacked exactly if there are that many words. A call that
    fails leaves its output alone. Unpacking what was packed restores the bytes, whatever the output
    held, and packing what was unpacked restores the words, with zeros in the last one for the bytes
    that there was no room for. Packed in the other order, each word is turned around. -/
theorem packing_restores :
    (∀ n : Nat, n < 2 ^ 32 → wordsFor (UInt32.ofNat n).toNat = n ⌈/⌉ 4) ∧
      (∀ (order : ByteOrder) (data : List Byte) (out : List Word),
        let n := data.length ⌈/⌉ 4
        let ws := packed order data out
        (data.length < 2 ^ 32 →
          (out.length < n → pack order data out = none ∧ ws = out) ∧
            (n ≤ out.length → pack order data out = some (n, ws) ∧ ws.length = out.length ∧
              ws.drop n = out.drop n ∧
              bytes order (ws.take n) = data ++ List.replicate (4 * n - data.length) 0 ∧
              ∀ dst : List Byte, dst.length = data.length →
                unpack order ws dst.length = some data ∧ unpacked order ws dst = data)) ∧
          pack order.opposite data out = (pack order data out).map fun (n, ws) =>
            (n, (ws.take n).map ByteOrder.swapped ++ ws.drop n)) ∧
      ∀ (order : ByteOrder) (ws : List Word) (out : List Byte), out.length < 2 ^ 32 →
        let n := out.length
        let m := n ⌈/⌉ 4
        let data := unpacked order ws out
        (ws.length < m → unpack order ws n = none ∧ data = out) ∧
          (m ≤ ws.length → unpack order ws n = some data ∧ data.length = n ∧
            ∀ dst : List Word, m ≤ dst.length → pack order data dst = some (m,
              (ws.take m).modify (m - 1) ((order.padding (n - 4 * (m - 1))).put 0) ++
                dst.drop m)) := by
  refine ⟨fun n small => ?_, fun order data out => ⟨fun small => ?_, pack_opposite order data out⟩,
    fun order ws out small => ?_⟩
  · rw [wordsFor_toNat small, Segment.wordsFor_eq]
  · simp only [← Segment.wordsFor_eq]
    refine ⟨fun short => ?_, fun room => ?_⟩
    · have none := pack_of_short order small out short
      exact ⟨none, by rw [packed, none]; rfl⟩
    · have some := pack_of_room order small out room
      have ws : packed order data out = words order data ++ out.drop (wordsFor data.length) := by
        rw [packed, some]
        rfl
      have length := length_words order data
      rw [some, ws, List.take_left' length, List.drop_left' length]
      refine ⟨rfl, ?_, rfl, bytes_words order data, fun dst same => ?_⟩
      · rw [List.length_append, List.length_drop, length]
        omega
      · have back := unpack_words order small (out.drop (wordsFor data.length))
        have all : dst.drop data.length = [] := List.drop_of_length_le same.le
        rw [unpacked, same, back, Option.map_some, all, List.append_nil]
        exact ⟨rfl, rfl⟩
  · simp only [← Segment.wordsFor_eq]
    refine ⟨fun few => ?_, fun enough => ?_⟩
    · have none := unpack_of_few order ws small few
      exact ⟨none, by rw [unpacked, none]; rfl⟩
    · have some := unpack_of_enough order ws small enough
      have length : ((bytes order ws).take out.length).length = out.length := by
        rw [List.length_take, length_bytes]
        unfold wordsFor at enough
        omega
      have data : unpacked order ws out = (bytes order ws).take out.length := by
        rw [unpacked, some, Option.map_some, length, List.drop_length, List.append_nil]
        rfl
      rw [some, data]
      refine ⟨rfl, length, fun dst room => ?_⟩
      rw [pack_of_room order (length.trans_lt small) dst (by rw [length]; exact room), length,
        words_take_bytes order ws out.length enough]

theorem packing_restores_partly :
    let data : List Byte := [1, 2, 3, 4, 5]
    pack .little data [9, 9, 9] = some (2, [0x04030201, 5, 9]) ∧
      pack .big data [9, 9, 9] = some (2, [0x01020304, 0x05000000, 9]) ∧
      unpacked .big (packed .big data [9, 9, 9]) [0, 0, 0, 0, 0] = data ∧
      pack .little data [9] = none ∧ packed .little data [9] = [9] ∧
      unpacked .little [0x04030201] data = data ∧
      pack .big (unpacked .big [0x01020304, 0x05060708] [0, 0, 0, 0, 0, 0, 0]) [9, 9, 9] =
        some (2, [0x01020304, 0x05060700, 9]) := by
  intro data
  have small : data.length < 2 ^ 32 := by decide
  obtain ⟨-, packs, unpacks⟩ := packing_restores
  obtain ⟨fits, other⟩ := packs .little data [9, 9, 9]
  obtain ⟨little, -⟩ := (fits small).2 (by decide)
  obtain ⟨-, -, -, -, back⟩ := ((packs .big data [9, 9, 9]).1 small).2 (by decide)
  obtain ⟨refused, kept⟩ := ((packs .little data [9]).1 small).1 (by decide)
  obtain ⟨-, -, again⟩ :=
    (unpacks .big [0x01020304, 0x05060708] [0, 0, 0, 0, 0, 0, 0] (by decide)).2 (by decide)
  refine ⟨little.trans (by decide), ?_, (back [0, 0, 0, 0, 0] rfl).2, refused, kept,
    ((unpacks .little [0x04030201] data small).1 (by decide)).2, again [9, 9, 9] (by decide)⟩
  rw [little] at other
  exact other.trans (by decide)

end Packing

end SerialBus
