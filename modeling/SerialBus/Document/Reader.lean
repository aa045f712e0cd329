import SerialBus.Document.Scalar
import SerialBus.Document.Table
import SerialBus.Document.Token

namespace SerialBus.Document

/-- How deep lists and tables in braces may be nested, and how many parts a key may have. -/
def maxDepth : Nat := 80

def isBareKeyChar (c : Char) : Bool :=
  c.isAlphanum || c = '-' || c = '_'

def isGap : Token → Bool
  | .blank _ | .newline => true
  | _ => false

def isSpace : Token → Bool
  | .blank _ => true
  | _ => false

/-- The parts of a key and what follows it. `due` says that a part has to come next. -/
def parts (due : Bool) : List Token → Option (List String × List Token)
  | .blank _ :: ts => parts due ts
  | .dot :: ts => if due then none else parts true ts
  | .quoted false part :: ts =>
    if due then (parts false ts).map fun (path, rest) => (part :: path, rest) else none
  | .bare part :: ts =>
    if due && part.all isBareKeyChar then
      (parts false ts).map fun (path, rest) => (String.ofList part :: path, rest)
    else none
  | ts => if due then none else some ([], ts)

def key (ts : List Token) : Option (List String × List Token) := do
  let (path, rest) ← parts true ts
  guard (path.length ≤ maxDepth)
  return (path, rest)

def unquoted : List Token → List Char × List Token
  | .bare cs :: ts => let (more, rest) := unquoted ts; (cs ++ more, rest)
  | .dot :: ts => let (more, rest) := unquoted ts; ('.' :: more, rest)
  | .blank gap :: .bare cs :: ts => let (more, rest) := unquoted ts; (gap ++ cs ++ more, rest)
  | ts => ([], ts)

mutual

/-- The value at the start of `ts`, inside `depth` brackets. The first argument bounds the
    steps of the reader. -/
def value : Nat → Nat → List Token → Option (Datum × List Token)
  | 0, _, _ => none
  | n + 1, depth, ts =>
    match ts.dropWhile isSpace with
    | .quoted _ s :: rest => some (.text s, rest)
    | .openBracket :: rest =>
      if depth = maxDepth then none
      else (items n (depth + 1) rest).map fun (vs, rest) => (.list vs, rest)
    | .openBrace :: rest =>
      if depth = maxDepth then none
      else (entries n (depth + 1) [] rest).map fun (t, rest) => (t.toDatum, rest)
    | ts =>
      let (cs, rest) := unquoted ts
      (Scalar.read? cs).map fun v => (v, rest)

def items : Nat → Nat → List Token → Option (List Datum × List Token)
  | 0, _, _ => none
  | n + 1, depth, ts =>
    match ts.dropWhile isGap with
    | .closeBracket :: rest => some ([], rest)
    | ts => do
      let (v, rest) ← value n depth ts
      match rest.dropWhile isGap with
      | .closeBracket :: rest => return ([v], rest)
      | .comma :: rest =>
        let (vs, rest) ← items n depth rest
        return (v :: vs, rest)
      | _ => none

/-- The entries of a table in braces up to its closing brace. Lines may end anywhere around a key
    and its value, though not inside a key. -/
def entries : Nat → Nat → Table → List Token → Option (Table × List Token)
  | 0, _, _, _ => none
  | n + 1, depth, t, ts =>
    match ts.dropWhile isGap with
    | .closeBrace :: rest => some (t, rest)
    | ts => do
      let (path, rest) ← key ts
      match rest.dropWhile isGap with
      | .equals :: rest =>
        let (v, rest) ← value n depth (rest.dropWhile isGap)
        let t ← t.assign path v
        match rest.dropWhile isGap with
        | .closeBrace :: rest => return (t, rest)
        | .comma :: rest => entries n depth t rest
        | _ => none
      | _ => none

end

def afterLine (ts : List Token) : Option (List Token) :=
  match ts.dropWhile isSpace with
  | [] => some []
  | .newline :: rest => some rest
  | _ => none

/-- Read lines into `t`, whose table last opened is at `here`, in at most the given number of
    steps. -/
def lines : Nat → List String → Table → List Token → Option Table
  | 0, _, t, ts => if ts.all isGap then some t else none
  | n + 1, here, t, ts =>
    match ts.dropWhile isGap with
    | [] => some t
    | .openBracket :: .openBracket :: ts => do
      let (path, rest) ← key ts
      match rest with
      | .closeBracket :: .closeBracket :: rest =>
        lines n path (← t.openSeries path) (← afterLine rest)
      | _ => none
    | .openBracket :: ts => do
      let (path, rest) ← key ts
      match rest with
      | .closeBracket :: rest => lines n path (← t.openTable path) (← afterLine rest)
      | _ => none
    | ts => do
      let (path, rest) ← key ts
      match rest with
      | .equals :: rest =>
        let (v, rest) ← value (2 * rest.length + 2) 0 rest
        lines n here (← t.assignAt here path v) (← afterLine rest)
      | _ => none

def dropMark : List Char → List Char
  | '\uFEFF' :: cs => cs
  | cs => cs

def read? (text : String) : Option Datum := do
  let tokens ← Token.scan (dropMark text.toList)
  let t ← lines tokens.length [] [] tokens
  return t.toDatum

end SerialBus.Document
