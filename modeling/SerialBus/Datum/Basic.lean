namespace SerialBus

inductive Magnitude
  | finite (digits : Nat) (exponent : Int)
  | infinite
  | undefined
  deriving DecidableEq, Repr

namespace Magnitude

/-- Where rounding to a double would reach infinity: halfway past the largest finite one. -/
def overflowBound : Nat := 1 <<< 1024 - 1 <<< 970

def fitsDouble : Magnitude → Bool
  | finite 0 _ => true
  | finite digits exponent =>
    let lead := (Nat.toDigits 10 digits).length + exponent
    if lead < 300 then true
    else if 400 < lead then false
    else digits * Nat.pow 10 exponent.toNat < overflowBound * Nat.pow 10 (-exponent).toNat
  | _ => true

end Magnitude

inductive Datum
  | null
  | bool (value : Bool)
  | int (value : Int)
  | real (value : Magnitude)
  | text (value : String)
  | instant
  -- an integer by its form, in digits that have no value
  | unvalued
  | list (items : List Datum)
  | table (entries : List (String × Datum))
  deriving Inhabited

/-- How a format reads records and choices where formats disagree. -/
structure Dialect where
  -- A list may be longer than what is read from it.
  surplus : Bool
  -- What may stand under the name of a choice that carries nothing.
  hollow : Datum → Bool
  -- Whether a value under an unknown key can be passed over.
  skips : Datum → Bool

namespace Datum

def bool? : Datum → Option Bool
  | bool b => some b
  | _ => none

def natBelow? (bound : Nat) : Datum → Option Nat
  | int (.ofNat n) => if n < bound then some n else none
  | _ => none

def uint8? (v : Datum) : Option UInt8 := (v.natBelow? 256).map UInt8.ofNat

def uint32? (v : Datum) : Option UInt32 := (v.natBelow? 4294967296).map UInt32.ofNat

def nullable (read : Datum → Option α) : Datum → Option (Option α)
  | null => some none
  | v => (read v).map some

def choice (d : Dialect) (names : List (String × α)) : Datum → Option α
  | text name => names.lookup name
  | table [(name, v)] => if d.hollow v then names.lookup name else none
  | _ => none

/-- The values of a record's fields in the order of `names`, from a table or from a list that
    gives them in that order. A field that is not given is `none`. A date or a time is a record
    too, in which none of the fields is given. -/
def slots (d : Dialect) (names : List String) : Datum → Option (List (Option Datum))
  | table entries =>
    if entries.all fun (name, v) => names.contains name || d.skips v then
      some (names.map fun name => entries.lookup name)
    else none
  | list items =>
    if d.surplus || items.length ≤ names.length then
      some (names.zipIdx.map fun (_, i) => items[i]?)
    else none
  | instant => some (names.map fun _ => none)
  | _ => none

def orElse (default : α) (read : Datum → Option α) : Option Datum → Option α
  | none => some default
  | some v => read v

def required (read : Datum → Option α) (slot : Option Datum) : Option α := slot.bind read

def exactly (d : Dialect) (n : Nat) : Datum → Option (List Datum)
  | list items =>
    if items.length = n ∨ (d.surplus ∧ n ≤ items.length) then some (items.take n) else none
  | _ => none

def atMost (n : Nat) : Datum → Option (List Datum)
  | list items => if items.length ≤ n then some items else none
  | _ => none

mutual

/-- Every number inside has a value and stays in range: integers in 128 bits, the others in a
    double. -/
def inRange : Datum → Bool
  | int n => -(2 ^ 127) ≤ n && n < 2 ^ 128
  | real m => m.fitsDouble
  | unvalued => false
  | list items => allInRange items
  | table entries => entriesInRange entries
  | _ => true

def allInRange : List Datum → Bool
  | [] => true
  | v :: rest => v.inRange && allInRange rest

def entriesInRange : List (String × Datum) → Bool
  | [] => true
  | (_, v) :: rest => v.inRange && entriesInRange rest

end

end Datum

namespace Dialect

def json : Dialect where
  surplus := false
  hollow
    | .null => true
    | _ => false
  skips _ := true

def toml : Dialect where
  surplus := true
  hollow
    | .table [] | .list [] => true
    | _ => false
  skips := Datum.inRange

end Dialect

end SerialBus
