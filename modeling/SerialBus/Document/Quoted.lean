namespace SerialBus.Document

def isPlain (c : Char) : Bool :=
  c = '\t' || (' ' ≤ c && c ≠ '\x7f')

namespace Quoted

def hexValue? (c : Char) : Option Nat :=
  if '0' ≤ c ∧ c ≤ '9' then some (c.toNat - '0'.toNat)
  else if 'a' ≤ c ∧ c ≤ 'f' then some (c.toNat - 'a'.toNat + 10)
  else if 'A' ≤ c ∧ c ≤ 'F' then some (c.toNat - 'A'.toNat + 10)
  else none

def coded? (digits : List Char) : Option Char := do
  let values ← digits.mapM hexValue?
  let code := values.foldl (fun n d => 16 * n + d) 0
  if code < 0xD800 ∨ (0xDFFF < code ∧ code < 0x110000) then some (Char.ofNat code) else none

def escape? : Char → Option Char
  | 'b' => some '\x08'
  | 't' => some '\t'
  | 'n' => some '\n'
  | 'f' => some '\x0c'
  | 'r' => some '\r'
  | 'e' => some '\x1b'
  | '"' => some '"'
  | '\\' => some '\\'
  | _ => none

def push (c : Char) (read : Option (List Char × List Char)) : Option (List Char × List Char) :=
  read.map fun (s, rest) => (c :: s, rest)

def push? (c : Option Char) (read : Option (List Char × List Char)) :
    Option (List Char × List Char) :=
  c.bind fun c => push c read

def literal : List Char → Option (List Char × List Char)
  | '\'' :: rest => some ([], rest)
  | c :: rest => if isPlain c then push c (literal rest) else none
  | [] => none

def basic : List Char → Option (List Char × List Char)
  | '"' :: rest => some ([], rest)
  | '\\' :: 'x' :: a :: b :: rest => push? (coded? [a, b]) (basic rest)
  | '\\' :: 'u' :: a :: b :: c :: d :: rest => push? (coded? [a, b, c, d]) (basic rest)
  | '\\' :: 'U' :: a :: b :: c :: d :: e :: f :: g :: h :: rest =>
    push? (coded? [a, b, c, d, e, f, g, h]) (basic rest)
  | '\\' :: c :: rest => push? (escape? c) (basic rest)
  | c :: rest => if isPlain c && c ≠ '\\' then push c (basic rest) else none
  | [] => none

/-- Text in three single quotes, over any number of lines. Up to two more quotes may stand
    right before the closing ones. -/
def literalLines : List Char → Option (List Char × List Char)
  | '\'' :: '\'' :: '\'' :: '\'' :: '\'' :: rest => some (['\'', '\''], rest)
  | '\'' :: '\'' :: '\'' :: '\'' :: rest => some (['\''], rest)
  | '\'' :: '\'' :: '\'' :: rest => some ([], rest)
  | '\r' :: '\n' :: rest => push '\n' (literalLines rest)
  | c :: rest => if isPlain c || c = '\n' then push c (literalLines rest) else none
  | [] => none

/-- How far the reader is in a line ending that a backslash takes out. -/
inductive Fold
  | off
  -- between the backslash and the end of its line
  | pending
  -- past the end of the line
  | past
  deriving DecidableEq, Repr

/-- Text in three double quotes. A backslash at the end of a line takes out the blanks and line
    endings up to the next character. -/
def basicLines : Fold → List Char → Option (List Char × List Char)
  | .pending, ' ' :: rest | .pending, '\t' :: rest => basicLines .pending rest
  | .pending, '\n' :: rest | .pending, '\r' :: '\n' :: rest => basicLines .past rest
  | .pending, _ => none
  | .past, ' ' :: rest | .past, '\t' :: rest | .past, '\n' :: rest | .past, '\r' :: '\n' :: rest =>
    basicLines .past rest
  | _, '"' :: '"' :: '"' :: '"' :: '"' :: rest => some (['"', '"'], rest)
  | _, '"' :: '"' :: '"' :: '"' :: rest => some (['"'], rest)
  | _, '"' :: '"' :: '"' :: rest => some ([], rest)
  | _, '\r' :: '\n' :: rest => push '\n' (basicLines .off rest)
  | _, '\\' :: 'x' :: a :: b :: rest => push? (coded? [a, b]) (basicLines .off rest)
  | _, '\\' :: 'u' :: a :: b :: c :: d :: rest => push? (coded? [a, b, c, d]) (basicLines .off rest)
  | _, '\\' :: 'U' :: a :: b :: c :: d :: e :: f :: g :: h :: rest =>
    push? (coded? [a, b, c, d, e, f, g, h]) (basicLines .off rest)
  | _, '\\' :: ' ' :: rest | _, '\\' :: '\t' :: rest => basicLines .pending rest
  | _, '\\' :: '\n' :: rest | _, '\\' :: '\r' :: '\n' :: rest => basicLines .past rest
  | _, '\\' :: c :: rest => push? (escape? c) (basicLines .off rest)
  | _, c :: rest =>
    if (isPlain c || c = '\n') && c ≠ '\\' then push c (basicLines .off rest) else none
  | _, [] => none

end Quoted

def dropFirstNewline : List Char → List Char
  | '\n' :: rest | '\r' :: '\n' :: rest => rest
  | cs => cs

end SerialBus.Document
