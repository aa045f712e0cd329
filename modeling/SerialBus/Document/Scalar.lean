import SerialBus.Datum.Basic
import SerialBus.Document.Instant

namespace SerialBus.Document.Scalar

def isHex (c : Char) : Bool :=
  c.isDigit || ('a' ≤ c && c ≤ 'f') || ('A' ≤ c && c ≤ 'F')

def isOctal (c : Char) : Bool := '0' ≤ c && c ≤ '7'

def isBinary (c : Char) : Bool := c = '0' || c = '1'

def joined (digit : Char → Bool) : List Char → Option (List Char)
  | [] => some []
  | '_' :: _ => none
  | c :: '_' :: d :: rest =>
    if digit c && digit d then (joined digit (d :: rest)).map (c :: ·) else none
  | c :: rest => (joined digit rest).map (c :: ·)

def ungroup (digit : Char → Bool) (cs : List Char) : Option (List Char) :=
  match joined digit cs with
  | some ds => if ds ≠ [] ∧ ds.all digit then some ds else none
  | none => none

def digitValue (c : Char) : Nat :=
  if c.isDigit then c.toNat - '0'.toNat
  else if 'a' ≤ c then c.toNat - 'a'.toNat + 10
  else c.toNat - 'A'.toNat + 10

def valueIn (base : Nat) (digits : List Char) : Nat :=
  digits.foldl (fun v c => base * v + digitValue c) 0

def hasLeadingZero : List Char → Bool
  | '0' :: _ :: _ => true
  | _ => false

def isGrouped (cs : List Char) : Bool :=
  match cs.dropWhile Char.isDigit with
  | [] | '_' :: _ => true
  | _ => false

def negateIf (negative : Bool) (n : Nat) : Int :=
  if negative then -n else n

def isExponentMark (c : Char) : Bool := c = 'e' || c = 'E'

def exponent? : List Char → Option Int
  | '+' :: cs => (ungroup Char.isDigit cs).map fun ds => negateIf false (valueIn 10 ds)
  | '-' :: cs => (ungroup Char.isDigit cs).map fun ds => negateIf true (valueIn 10 ds)
  | cs => (ungroup Char.isDigit cs).map fun ds => negateIf false (valueIn 10 ds)

def fraction? : List Char → Option (List Char × List Char)
  | '.' :: cs =>
    (ungroup Char.isDigit (cs.takeWhile fun c => !isExponentMark c)).map fun ds =>
      (ds, cs.dropWhile fun c => !isExponentMark c)
  | cs => some ([], cs)

def magnitude? (cs : List Char) : Option Magnitude := do
  let isWhole := fun (c : Char) => c != '.' && !isExponentMark c
  let whole ← ungroup Char.isDigit (cs.takeWhile isWhole)
  guard (!hasLeadingZero whole)
  let (fraction, rest) ← fraction? (cs.dropWhile isWhole)
  let exponent ← match rest with
    | [] => some 0
    | _ :: cs => exponent? cs
  return .finite (valueIn 10 (whole ++ fraction)) (exponent - fraction.length)

/-- An integer in base ten. Behind its first underscore it may go on in any characters, as long
    as its underscores stand between digits up to `f`; it has a value if all of them are decimal. -/
def integer? (negative : Bool) (cs : List Char) : Option Datum := do
  let ds ← joined isHex cs
  guard (ds.head?.any Char.isDigit && !hasLeadingZero ds && isGrouped cs)
  return if ds.all Char.isDigit then .int (negateIf negative (valueIn 10 ds)) else .unvalued

def number? (negative : Bool) (cs : List Char) : Option Datum :=
  match cs with
  | ['i', 'n', 'f'] => some (.real .infinite)
  | ['n', 'a', 'n'] => some (.real .undefined)
  | _ =>
    if cs.contains ' ' then none
    else if cs.any fun c => c = '.' || isExponentMark c then (magnitude? cs).map .real
    else integer? negative cs

def radix? (base : Nat) (digit : Char → Bool) : List Char → Option Datum
  | [] => some .unvalued
  | cs => (ungroup digit cs).map fun ds => .int (valueIn base ds)

def read? : List Char → Option Datum
  | ['t', 'r', 'u', 'e'] => some (.bool true)
  | ['f', 'a', 'l', 's', 'e'] => some (.bool false)
  | '+' :: cs => number? false cs
  | '-' :: cs => number? true cs
  | '0' :: 'x' :: cs => radix? 16 isHex cs
  | '0' :: 'o' :: cs => radix? 8 isOctal cs
  | '0' :: 'b' :: cs => radix? 2 isBinary cs
  | cs => if Instant.isValid cs then some .instant else number? false cs

end SerialBus.Document.Scalar
