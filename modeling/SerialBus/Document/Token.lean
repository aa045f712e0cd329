import SerialBus.Document.Quoted

namespace SerialBus.Document

inductive Token
  | dot
  | equals
  | comma
  | openBracket
  | closeBracket
  | openBrace
  | closeBrace
  | blank (chars : List Char)
  | newline
  -- a quoted text; `lines` if it is of the kind that may span lines
  | quoted (lines : Bool) (text : String)
  -- a run of characters without quotes: a bare key or a part of a number, date or word
  | bare (chars : List Char)
  deriving DecidableEq, Repr

namespace Token

def mark? : Char → Option Token
  | '.' => some dot
  | '=' => some equals
  | ',' => some comma
  | '[' => some openBracket
  | ']' => some closeBracket
  | '{' => some openBrace
  | '}' => some closeBrace
  | _ => none

def isBlank (c : Char) : Bool := c = ' ' || c = '\t'

def endsLine (c : Char) : Bool := c = '\n' || c = '\r'

def endsBare (c : Char) : Bool :=
  (mark? c).isSome || isBlank c || endsLine c || c = '#'

def ofQuoted (lines : Bool) (read : Option (List Char × List Char)) : Option (Token × List Char) :=
  read.map fun (s, rest) => (quoted lines (String.ofList s), rest)

def first? : List Char → Option (Option Token × List Char)
  | [] => none
  | '\n' :: rest | '\r' :: '\n' :: rest => some (some newline, rest)
  | '\r' :: _ => none
  | '\'' :: '\'' :: '\'' :: rest => do
    let (t, rest) ← ofQuoted true (Quoted.literalLines (dropFirstNewline rest))
    return (some t, rest)
  | '\'' :: rest => do
    let (t, rest) ← ofQuoted false (Quoted.literal rest)
    return (some t, rest)
  | '"' :: '"' :: '"' :: rest => do
    let (t, rest) ← ofQuoted true (Quoted.basicLines .off (dropFirstNewline rest))
    return (some t, rest)
  | '"' :: rest => do
    let (t, rest) ← ofQuoted false (Quoted.basic rest)
    return (some t, rest)
  | '#' :: rest =>
    if (rest.takeWhile fun c => !endsLine c).all isPlain then
      some (none, rest.dropWhile fun c => !endsLine c)
    else none
  | c :: rest =>
    match mark? c with
    | some t => some (some t, rest)
    | none =>
      if isBlank c then
        some (some (blank (c :: rest.takeWhile isBlank)), rest.dropWhile isBlank)
      else
        some (some (bare (c :: rest.takeWhile fun c => !endsBare c)),
          rest.dropWhile fun c => !endsBare c)

def scanWithin : Nat → List Char → Option (List Token)
  | _, [] => some []
  | 0, _ => none
  | n + 1, cs => do
    let (t, rest) ← first? cs
    return t.toList ++ (← scanWithin n rest)

/-- The tokens of a text. Every token takes at least one character, so there are no more of
    them than there are characters. -/
def scan (cs : List Char) : Option (List Token) := scanWithin cs.length cs

end Token

end SerialBus.Document
