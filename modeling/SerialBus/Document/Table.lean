import SerialBus.Datum.Basic

namespace SerialBus.Document

inductive Origin
  -- opened by a header of its own
  | header
  -- part of a longer header's path
  | implied
  -- part of a dotted key
  | dotted
  deriving DecidableEq, Repr

/-- An entry of a table. Values are closed: nothing is ever added inside one. -/
inductive Node
  | value (datum : Datum)
  | table (origin : Origin) (entries : List (String × Node))
  -- a list of tables that headers in double brackets extend
  | series (earlier : List (List (String × Node))) (last : List (String × Node))

abbrev Table := List (String × Node)

namespace Table

def alter (key : String) (change : Option Node → Option Node) : Table → Option Table
  | [] => (change none).map fun n => [(key, n)]
  | (k, n) :: rest =>
    if k = key then (change (some n)).map fun n => (k, n) :: rest
    else (alter key change rest).map ((k, n) :: ·)

/-- Change the table that a path leads to. Missing tables on the way are made with the origin
    `made`; a series leads to its last table; a dotted key does not lead into a table that has
    a header. -/
def within (made : Origin) (change : Origin → Table → Option Table) :
    List String → Origin → Table → Option Table
  | [], origin, t => change origin t
  | key :: path, _, t =>
    alter key (fun
      | none => (within made change path made []).map (.table made)
      | some (.table origin entries) =>
        if made = .dotted ∧ origin = .header then none
        else (within made change path origin entries).map (.table origin)
      | some (.series earlier last) =>
        (within made change path .header last).map (.series earlier)
      | some (.value _) => none) t

def insert (key : String) (v : Datum) (t : Table) : Option Table :=
  alter key (fun | none => some (.value v) | some _ => none) t

/-- Give a value to a key, which may be dotted. The tables that a dotted key adds to must
    themselves come from dotted keys. -/
def assign (path : List String) (v : Datum) (t : Table) : Option Table :=
  match path.getLast? with
  | none => none
  | some key =>
    within .dotted (fun origin t =>
      if path.length = 1 ∨ origin = .dotted then insert key v t else none) path.dropLast .header t

def openTable (path : List String) (t : Table) : Option Table :=
  match path.getLast? with
  | none => none
  | some key =>
    within .implied (fun _ t =>
      alter key (fun
        | none => some (.table .header [])
        | some (.table .implied entries) => some (.table .header entries)
        | some _ => none) t) path.dropLast .header t

def openSeries (path : List String) (t : Table) : Option Table :=
  match path.getLast? with
  | none => none
  | some key =>
    within .implied (fun _ t =>
      alter key (fun
        | none => some (.series [] [])
        | some (.series earlier last) => some (.series (earlier ++ [last]) [])
        | some _ => none) t) path.dropLast .header t

def assignAt (here path : List String) (v : Datum) (t : Table) : Option Table :=
  within .implied (fun _ t => assign path v t) here .header t

end Table

mutual

def Node.toDatum : Node → Datum
  | .value v => v
  | .table _ entries => .table (Node.entriesToData entries)
  | .series earlier last => .list (Node.tablesToData earlier ++ [.table (Node.entriesToData last)])

def Node.entriesToData : List (String × Node) → List (String × Datum)
  | [] => []
  | (key, n) :: rest => (key, n.toDatum) :: Node.entriesToData rest

def Node.tablesToData : List (List (String × Node)) → List Datum
  | [] => []
  | entries :: rest => .table (Node.entriesToData entries) :: Node.tablesToData rest

end

def Table.toDatum (t : Table) : Datum := .table (Node.entriesToData t)

end SerialBus.Document
