import EventQuery.Document.Format

/-! Documents of nested data, as configuration files hold them, and the reading of records from
them. -/

namespace EventQuery

inductive Value where
  | null
  | bool (b : Bool)
  /-- A number as written. -/
  | number (numeral : String)
  | text (s : String)
  /-- A text with an escape that stands for no character. -/
  | brokenText
  /-- A date, a time or both, as written. -/
  | moment (s : String)
  | list (xs : List Value)
  | record (fields : List (String × Value))
  /-- A record with a field whose name is such a text. -/
  | brokenRecord

namespace Value

def asText? : Value → Option String
  | .text s => some s
  | _ => none

def asBool? : Value → Option Bool
  | .bool b => some b
  | _ => none

/-- The elements of a list, all of which must be readable. -/
def asList? {α : Type} (read : Value → Option α) : Value → Option (List α)
  | .list xs => xs.mapM read
  | _ => none

/-- A text, or none for null. -/
def asTextOrNull? : Value → Option (Option String)
  | .null => some none
  | v => v.asText?.map some

/-- The values of the known fields of a record, in a fixed order. -/
structure Fields where
  /-- The record was written as a list. -/
  positional : Bool
  values : List (Option Value)

/-- The fields with the given names. Fields of other names do not count, and a known field given
twice is refused. A list stands for the fields in order; in JSON it may not be longer than they are.
A date or time counts as a record without known fields. -/
def fields? (format : DocumentFormat) (names : List String) : Value → Option Fields
  | .record fields =>
    if names.all fun name => (fields.filter (·.1 == name)).length ≤ 1 then
      some ⟨false, names.map fun name => fields.lookup name⟩
    else none
  | .list xs =>
    if format = .json && names.length < xs.length then none
    else some ⟨true, (List.range names.length).map (xs[·]?)⟩
  | .moment _ => some ⟨false, names.map fun _ => none⟩
  | _ => none

namespace Fields

def get (fs : Fields) (i : Nat) : Option Value := (fs.values[i]?).join

/-- A field that must be there. -/
def required {α : Type} (fs : Fields) (i : Nat) (read : Value → Option α) : Option α :=
  (fs.get i).bind read

/-- A field that has a default. -/
def withDefault {α : Type} (fs : Fields) (i : Nat) (default : α) (read : Value → Option α) :
    Option α :=
  match fs.get i with
  | none => some default
  | some v => read v

/-- A field that may be missing by name, but keeps its place in a list. -/
def optional (fs : Fields) (i : Nat) : Option (Option String) :=
  match fs.get i with
  | none => if fs.positional then none else some none
  | some v => v.asTextOrNull?

end Fields

end Value

end EventQuery
