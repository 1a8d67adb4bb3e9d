import EventQuery.Catalog.Event
import EventQuery.Warehouse.Basic

/-! Events made from the columns that a warehouse reports for a query. -/

namespace EventQuery

inductive WarehouseError where
  | unsupportedWarehouse (name : String)
  | unsupportedType (warehouse : Warehouse) (reported : NativeType)
  | missingColumn (column role : String)
  | invalidEvent (e : CatalogError)
deriving DecidableEq

def WarehouseError.message : WarehouseError → String
  | .unsupportedWarehouse name =>
    "Unsupported SQL backend `" ++ name ++ "`. Supported: snowflake, duckdb, postgres, bigquery"
  | .unsupportedType warehouse reported =>
    "Unsupported " ++ warehouse.display ++ " type `" ++ reported.text ++ "`"
  | .missingColumn column role =>
    "Column `" ++ column ++ "` named as " ++ role ++ " is missing from the query result"
  | .invalidEvent e => "Invalid event: " ++ e.message

namespace Warehouse

/-- The warehouse of a name in any case. -/
def ofName (name : String) : Except WarehouseError Warehouse :=
  let name := Text.lower name
  match names.lookup name with
  | some w => .ok w
  | none => .error (.unsupportedWarehouse name)

def dataType (w : Warehouse) (reported : NativeType) : Except WarehouseError DataType :=
  match w.dataType? reported with
  | some t => .ok t
  | none => .error (.unsupportedType w reported)

end Warehouse

/-- The query that has the columns of another one and no rows, for callers of the library: they run
it and give the columns that it reports to `EventDraft.build`. -/
def probeQuery (sql : String) : String :=
  "with query as (" ++ sql ++ ") select * from query where 1=0"

structure ProbedColumn where
  name : String
  reported : NativeType
deriving DecidableEq

/-- An event whose columns are still to be probed. Names of columns and entities are in small
letters. -/
structure EventDraft where
  warehouse : Warehouse
  name : String
  table : String
  idColumn : String
  timestampColumn : String
  entities : List Entity
deriving DecidableEq

namespace EventDraft

def start (warehouse : Warehouse) (name table : String) : EventDraft :=
  ⟨warehouse, name, table, "event_id", "ts", []⟩

def withId (d : EventDraft) (column : String) : EventDraft :=
  { d with idColumn := Text.lower column }

def withTimestamp (d : EventDraft) (column : String) : EventDraft :=
  { d with timestampColumn := Text.lower column }

/-- One more entity, whose id column has its name. -/
def withEntity (d : EventDraft) (name : String) (isDefault : Bool) : EventDraft :=
  { d with entities := d.entities ++ [⟨Text.lower name, Text.lower name, isDefault⟩] }

/-- The columns that the draft needs, with what each is for. -/
def required (d : EventDraft) : List (String × String) :=
  (d.idColumn, "event id") :: (d.timestampColumn, "event timestamp") ::
    d.entities.map fun e => (e.idColumn, "entity id")

def isKey (d : EventDraft) (column : String) : Bool := d.required.any (·.1 == column)

def requireColumns (columns : List String) : List (String × String) → Except WarehouseError Unit
  | [] => .ok ()
  | (column, role) :: rest =>
    if column ∈ columns then requireColumns columns rest else .error (.missingColumn column role)

/-- The attributes of the columns that are no keys. -/
def attributes (d : EventDraft) : List ProbedColumn → Except WarehouseError (List Attribute)
  | [] => .ok []
  | column :: rest => do
    let name := Text.lower column.name
    if d.isKey name then attributes d rest
    else
      let t ← d.warehouse.dataType column.reported
      return ⟨name, t, name⟩ :: (← attributes d rest)

/-- The event with the probed columns. -/
def build (d : EventDraft) (columns : List ProbedColumn) : Except WarehouseError Event := do
  requireColumns (columns.map fun c => Text.lower c.name) d.required
  let attributes ← d.attributes columns
  let event : Event := ⟨d.name, d.idColumn, d.timestampColumn, d.entities, attributes, d.table⟩
  event.check.mapError .invalidEvent
  return event

end EventDraft

end EventQuery
