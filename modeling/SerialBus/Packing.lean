import SerialBus.Segment
import SerialBus.Word

namespace SerialBus

/-- Which byte of a word goes first on the wire: the lowest or the highest. -/
inductive ByteOrder
  | little
  | big
  deriving DecidableEq, Repr

namespace ByteOrder

def ofBit (big : Bool) : ByteOrder := if big then .big else .little

def join : ByteOrder → Byte → Byte → Byte → Byte → Word
  | little, a, b, c, d => d ++ c ++ b ++ a
  | big, a, b, c, d => a ++ b ++ c ++ d

def split (order : ByteOrder) (w : Word) : List Byte :=
  let low : List Byte :=
    [w.extractLsb' 0 8, w.extractLsb' 8 8, w.extractLsb' 16 8, w.extractLsb' 24 8]
  match order with
  | little => low
  | big => low.reverse

theorem length_split (order : ByteOrder) (w : Word) : (order.split w).length = 4 := by
  cases order <;> rfl

theorem split_join (order : ByteOrder) (a b c d : Byte) :
    order.split (order.join a b c d) = [a, b, c, d] := by
  have extract (w x y z : Byte) :
      (w ++ x ++ y ++ z : Word).extractLsb' 0 8 = z ∧
        (w ++ x ++ y ++ z : Word).extractLsb' 8 8 = y ∧
        (w ++ x ++ y ++ z : Word).extractLsb' 16 8 = x ∧
        (w ++ x ++ y ++ z : Word).extractLsb' 24 8 = w := by
    refine ⟨?_, ?_, ?_, ?_⟩ <;> ext i hi <;>
      simp only [BitVec.getElem_extractLsb', BitVec.getLsbD_append] <;> grind
  cases order <;> simp [join, split, extract]

end ByteOrder

namespace Packing

def words (order : ByteOrder) : List Byte → List Word
  | [] => []
  | [a] => [order.join a 0 0 0]
  | [a, b] => [order.join a b 0 0]
  | [a, b, c] => [order.join a b c 0]
  | a :: b :: c :: d :: rest => order.join a b c d :: words order rest

def bytes (order : ByteOrder) (ws : List Word) : List Byte :=
  ws.flatMap order.split

theorem length_words (order : ByteOrder) (data : List Byte) :
    (words order data).length = wordsFor data.length := by
  fun_induction words order data with
  | case5 a b c d rest ih =>
    simp only [List.length_cons, ih, wordsFor]
    omega
  | _ => simp [wordsFor]

theorem length_bytes (order : ByteOrder) (ws : List Word) :
    (bytes order ws).length = 4 * ws.length := by
  induction ws with
  | nil => rfl
  | cons w ws ih =>
    simp only [bytes, List.flatMap_cons, List.length_append, ByteOrder.length_split,
      List.length_cons] at ih ⊢
    omega

/-- Write the words of `data` over the start of `out` and tell how many there are; `none` if
    `out` is too short for them. The words are counted in 32 bits, and no more are written. -/
def pack (order : ByteOrder) (data : List Byte) (out : List Word) : Option (Nat × List Word) :=
  let needed := wordsFor (UInt32.ofNat data.length).toNat
  if out.length < needed then none
  else some (needed, (words order data).take needed ++ out.drop needed)

/-- The bytes that the words give to the start of an output with room for `room`; `none` if there
    are too few words. The words are counted in 32 bits, and no more are read. -/
def unpack (order : ByteOrder) (ws : List Word) (room : Nat) : Option (List Byte) :=
  let needed := wordsFor (UInt32.ofNat room).toNat
  if ws.length < needed then none
  else some ((bytes order (ws.take needed)).take room)

end Packing

end SerialBus
