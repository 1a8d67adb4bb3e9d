import EventQuery.Catalog.Basic
import EventQuery.Query.Fault

/-! Whether a query fits a catalog. Clauses are checked in order, and the first fault found is
reported at the part of the query that has it. -/

namespace EventQuery

variable {ρ : Type}

/-- The entities a join matches on: those it names, or the default entity of the joined event. -/
def JoinClause.keys (j : JoinClause ρ) (event : Event) : List Entity :=
  if j.entities.isEmpty then event.defaultEntity?.toList
  else j.entities.filterMap fun e => event.entity? e.value

/-- A column is a key when it has the name of a key entity's id column. -/
def isKeyColumn (keys : List Entity) (column : String) : Bool := keys.any (·.idColumn == column)

namespace Validation

def failUnless (condition : Bool) (fault : Fault) (place : ρ) : Except (Located ρ Fault) Unit :=
  if condition then .ok () else .error ⟨fault, place⟩

def event (catalog : Catalog) (name : Located ρ String) : Except (Located ρ Fault) Event :=
  match catalog.find? name.value with
  | some e => .ok e
  | none => .error ⟨.unknownEvent name.value, name.place⟩

def column (event : Event) (name : Located ρ String) : Except (Located ρ Fault) Unit :=
  failUnless (event.resolve? name.value).isSome (.unknownColumn event.name name.value) name.place

def label (name : Located ρ String) : Except (Located ρ Fault) Unit :=
  failUnless (!isReserved name.value) (.reservedLabel name.value) name.place

def selectColumn (event : Event) (c : Column ρ) : Except (Located ρ Fault) Unit := do
  label c.label
  failUnless (!c.isAggregation) (.aggregationInSelect event.name c.label.value) c.place
  column event c.input

/-- The event that a sound base selection selects. -/
def select (catalog : Catalog) (s : SelectClause ρ) : Except (Located ρ Fault) Event := do
  let event ← event catalog s.event
  failUnless (s.selector.value ≠ .omitted) (.missingSelector event.name) s.event.place
  s.columns.forM (selectColumn event)
  return event

/-- The names of the entities that both events must have, with the places to report them at. -/
def requestedKeys (event : Event) (j : JoinClause ρ) :
    Except (Located ρ Fault) (List (Located ρ String)) :=
  if j.entities.isEmpty then
    match event.defaultEntity? with
    | some d => .ok [⟨d.name, j.event.place⟩]
    | none => .error ⟨.noDefaultEntity event.name, j.event.place⟩
  else do
    j.entities.forM fun e =>
      failUnless (event.entity? e.value).isSome (.unknownEntity event.name e.value) e.place
    return j.entities

def keys (base event : Event) (j : JoinClause ρ) : Except (Located ρ Fault) (List Entity) := do
  let requested ← requestedKeys event j
  requested.forM fun e =>
    failUnless (base.entity? e.value).isSome (.unknownEntity base.name e.value) e.place
  return j.keys event

def joinColumn (event : Event) (c : Column ρ) : Except (Located ρ Fault) Unit := do
  label c.label
  column event c.input

/-- Without a selector a join gives one row for each key, so its plain columns must be keys. -/
def groupedColumn (event : Event) (keys : List Entity) (c : Column ρ) :
    Except (Located ρ Fault) Unit :=
  failUnless (c.isAggregation || isKeyColumn keys c.input.value)
    (.ungroupedColumn event.name c.label.value) c.place

def join (catalog : Catalog) (base : Event) (j : JoinClause ρ) :
    Except (Located ρ Fault) Unit := do
  let event ← event catalog j.event
  let keys ← keys base event j
  j.columns.forM (joinColumn event)
  if j.selector.value = .omitted then j.columns.forM (groupedColumn event keys)
  match j.filter with
  | some f => column event f.column
  | none => return ()

end Validation

def Query.validate (catalog : Catalog) (q : Query ρ) : Except (Located ρ Fault) Unit := do
  let base ← Validation.select catalog q.select
  q.joins.forM (Validation.join catalog base)

end EventQuery
