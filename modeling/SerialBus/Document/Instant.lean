namespace SerialBus.Document.Instant

def number? (n : Nat) (cs : List Char) : Option (Nat × List Char) :=
  let digits := cs.take n
  if digits.length = n ∧ digits.all Char.isDigit then
    some (digits.foldl (fun v c => 10 * v + (c.toNat - '0'.toNat)) 0, cs.drop n)
  else none

def isLeap (year : Nat) : Bool :=
  year % 4 = 0 ∧ (year % 100 ≠ 0 ∨ year % 400 = 0)

def daysIn (year month : Nat) : Nat :=
  match month with
  | 2 => if isLeap year then 29 else 28
  | 4 | 6 | 9 | 11 => 30
  | _ => 31

def afterDate? (cs : List Char) : Option (List Char) :=
  match number? 4 cs with
  | some (year, '-' :: cs) =>
    match number? 2 cs with
    | some (month, '-' :: cs) =>
      match number? 2 cs with
      | some (day, rest) =>
        if 1 ≤ month ∧ month ≤ 12 ∧ 1 ≤ day ∧ day ≤ daysIn year month then some rest else none
      | none => none
    | _ => none
  | _ => none

def afterMinutes? (cs : List Char) : Option (List Char) :=
  match number? 2 cs with
  | some (hour, ':' :: cs) =>
    match number? 2 cs with
    | some (minute, rest) => if hour ≤ 23 ∧ minute ≤ 59 then some rest else none
    | none => none
  | _ => none

def afterTime? (cs : List Char) : Option (List Char) :=
  match afterMinutes? cs with
  | some (':' :: cs) =>
    match number? 2 cs with
    | some (second, rest) =>
      if 60 < second then none
      else match rest with
        | '.' :: c :: rest => if c.isDigit then some (rest.dropWhile Char.isDigit) else none
        | rest => some rest
    | none => none
  | other => other

def isOffset : List Char → Bool
  | [] | ['Z'] | ['z'] => true
  | '+' :: cs | '-' :: cs => afterMinutes? cs == some []
  | _ => false

def isValid (cs : List Char) : Bool :=
  match afterDate? cs with
  | some [] => true
  | some (mark :: rest) =>
    (mark = 'T' || mark = 't' || mark = ' ') &&
      match afterTime? rest with
      | some rest => isOffset rest
      | none => false
  | none => afterTime? cs == some []

end SerialBus.Document.Instant
