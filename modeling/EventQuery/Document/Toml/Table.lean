import EventQuery.Document.Value

/-! The tables that the statements of a TOML document build up. A table may be opened by one header
only, a table that dotted keys made takes keys by dots only, and no key is given twice. -/

namespace EventQuery.Toml

inductive TableOrigin where
  /-- Opened by a header, or an element of an array of tables. -/
  | header
  /-- On the way to a table that a header opened. -/
  | implied
  /-- On the way to a value with a dotted key. -/
  | dotted
deriving DecidableEq

inductive Item where
  | value (v : Value)
  | table (origin : TableOrigin) (entries : List (String × Item))
  /-- An array of tables; only its last one is open. -/
  | tables (earlier : List (List (String × Item))) (last : List (String × Item))

inductive Statement where
  | header (path : List String) (key : String)
  | element (path : List String) (key : String)
  | assignment (path : List String) (key : String) (v : Value)

/-- The entries with another item for a key that they have. -/
def replaceEntry (key : String) (item : Item) (entries : List (String × Item)) :
    List (String × Item) :=
  entries.map fun entry => if entry.1 == key then (key, item) else entry

/-- The entries after a change of the table at the end of a path. Missing tables are made, and an
array of tables leads to its last one. -/
def changeAt (isDotted : Bool)
    (change : TableOrigin → List (String × Item) → Option (List (String × Item))) :
    List String → TableOrigin → List (String × Item) → Option (List (String × Item))
  | [], origin, entries => change origin entries
  | key :: path, _, entries =>
    match entries.lookup key with
    | none => do
      let origin : TableOrigin := if isDotted then .dotted else .implied
      let inner ← changeAt isDotted change path origin []
      return entries ++ [(key, .table origin inner)]
    | some (.table origin inner) =>
      if isDotted && origin = .header then none
      else do
        let inner ← changeAt isDotted change path origin inner
        return replaceEntry key (.table origin inner) entries
    | some (.tables earlier last) => do
      let last ← changeAt isDotted change path .header last
      return replaceEntry key (.tables earlier last) entries
    | some (.value _) => none

def openTable (key : String) (_ : TableOrigin) (entries : List (String × Item)) :
    Option (List (String × Item)) :=
  match entries.lookup key with
  | none => some (entries ++ [(key, .table .header [])])
  | some (.table .implied inner) => some (replaceEntry key (.table .header inner) entries)
  | some _ => none

def openElement (key : String) (_ : TableOrigin) (entries : List (String × Item)) :
    Option (List (String × Item)) :=
  match entries.lookup key with
  | none => some (entries ++ [(key, .tables [] [])])
  | some (.tables earlier last) => some (replaceEntry key (.tables (earlier ++ [last]) []) entries)
  | some _ => none

/-- A value under a key of a table that was reached by a dotted path or not. -/
def assign (viaDots : Bool) (key : String) (v : Value) (origin : TableOrigin)
    (entries : List (String × Item)) : Option (List (String × Item)) :=
  if decide (origin = .dotted) = viaDots && (entries.lookup key).isNone then
    some (entries ++ [(key, .value v)])
  else none

/-- The value under a dotted key of a table. -/
def assignAt (path : List String) (key : String) (v : Value) (origin : TableOrigin)
    (entries : List (String × Item)) : Option (List (String × Item)) :=
  changeAt true (assign (!path.isEmpty) key v) path origin entries

/-- A statement's effect on the document, given the path of the table that is open, and the path of
the one that is open next. -/
def Statement.apply (opened : List String) (root : List (String × Item)) :
    Statement → Option (List String × List (String × Item))
  | .header path key => do
    return (path ++ [key], ← changeAt false (openTable key) path .header root)
  | .element path key => do
    return (path ++ [key], ← changeAt false (openElement key) path .header root)
  | .assignment path key v => do
    return (opened, ← changeAt false (assignAt path key v) opened .header root)

mutual

def Item.toValue : Item → Value
  | .value v => v
  | .table _ entries => .record (entriesToFields entries)
  | .tables earlier last =>
    .list (tablesToValues earlier ++ [.record (entriesToFields last)])

def entriesToFields : List (String × Item) → List (String × Value)
  | [] => []
  | (key, item) :: rest => (key, item.toValue) :: entriesToFields rest

def tablesToValues : List (List (String × Item)) → List Value
  | [] => []
  | entries :: rest => .record (entriesToFields entries) :: tablesToValues rest

end

/-- The document that statements make. -/
def build (statements : List Statement) : Option Value := do
  let (_, root) ← statements.foldlM (fun (path, root) s => s.apply path root) ([], [])
  return .record (entriesToFields root)

end EventQuery.Toml
