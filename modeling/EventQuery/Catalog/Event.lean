import EventQuery.Catalog.DataType
import EventQuery.Document.Format
import EventQuery.Host.Basic
import EventQuery.Text.Split

/-! Events: a source table with its id, its timestamp, the entities whose ids it carries and its
attributes, and the columns that these make available. -/

namespace EventQuery

structure Attribute where
  name : String
  dataType : DataType
  /-- The column of the source table. -/
  source : String
deriving DecidableEq

structure Entity where
  name : String
  /-- The column that holds the entity's id. -/
  idColumn : String
  isDefault : Bool
deriving DecidableEq

structure Event where
  name : String
  idColumn : String
  timestampColumn : String
  entities : List Entity
  attributes : List Attribute
  /-- The source table; dots divide its parts. -/
  table : String
deriving DecidableEq

/-- What a column of an event is: a declared attribute, or one of the columns every event has. -/
inductive ColumnOrigin where
  | declared
  | entityId (entity : String)
  | eventId
  | eventTimestamp
deriving DecidableEq

def ColumnOrigin.text : ColumnOrigin → String
  | .declared => "attribute"
  | .entityId entity => "id of entity " ++ entity
  | .eventId => "event id"
  | .eventTimestamp => "event timestamp"

structure ResolvedColumn where
  /-- The column of the source table. -/
  physical : String
  origin : ColumnOrigin
  /-- Ids have no declared type. -/
  dataType : Option DataType
deriving DecidableEq

inductive CatalogError where
  | duplicateEvent (event : String)
  | noEntities (event : String)
  | multipleDefaults (event first second : String)
  | unknownDataType (event name dataType : String)
  | unsupportedFormat (path : String)
  | unreadable (fault : ReadFault)
  | malformed (format : DocumentFormat)
deriving DecidableEq

def CatalogError.message : CatalogError → String
  | .duplicateEvent event => "Duplicate event `" ++ event ++ "`"
  | .noEntities event => "event `" ++ event ++ "` must declare at least one entity"
  | .multipleDefaults event first second =>
    "event `" ++ event ++ "` declares more than one default entity (`" ++ first ++ "` and `" ++
      second ++ "`)"
  | .unknownDataType event name dataType =>
    "Unknown data type `" ++ dataType ++ "` for attribute `" ++ name ++ "` on event `" ++
      event ++ "`"
  | .unsupportedFormat path => "Unsupported catalog file format: " ++ path
  | .unreadable fault => "Failed to read catalog file: " ++ fault.message
  | .malformed format => "Failed to parse catalog " ++ format.text

/-- A list with `x` at its end, unless it holds `x` already. -/
def addNew (xs : List String) (x : String) : List String := if x ∈ xs then xs else xs ++ [x]

namespace Event

/-- At least one entity, and at most one default. -/
def check (e : Event) : Except CatalogError Unit :=
  match e.entities, e.entities.filter (·.isDefault) with
  | [], _ => .error (.noEntities e.name)
  | _, first :: second :: _ => .error (.multipleDefaults e.name first.name second.name)
  | _, _ => .ok ()

def entity? (e : Event) (name : String) : Option Entity := e.entities.find? (·.name == name)

def attribute? (e : Event) (name : String) : Option Attribute :=
  e.attributes.find? (·.name == name)

def defaultEntity? (e : Event) : Option Entity := e.entities.find? (·.isDefault)

/-- The entity that gets one row each when the event is selected: the default, else the first. -/
def partitionEntity? (e : Event) : Option Entity := e.defaultEntity?.or e.entities.head?

def entityNames (e : Event) : List String := e.entities.map (·.name)

/-- The attributes, then id and timestamp, each name once. -/
def attributeNames (e : Event) : List String :=
  (e.attributes.map (·.name) ++ [e.idColumn, e.timestampColumn]).foldl addNew []

/-- Every name that a column of a query may have, each once. -/
def columnNames (e : Event) : List String :=
  (e.entities.map (·.idColumn)).foldl addNew e.attributeNames

/-- An attribute, else the id of an entity, else the event's id, else its timestamp. -/
def resolve? (e : Event) (name : String) : Option ResolvedColumn :=
  match e.attribute? name with
  | some a => some ⟨a.source, .declared, some a.dataType⟩
  | none =>
    match e.entities.find? (·.idColumn == name) with
    | some x => some ⟨x.idColumn, .entityId x.name, none⟩
    | none =>
      if name = e.idColumn then some ⟨e.idColumn, .eventId, none⟩
      else if name = e.timestampColumn then
        some ⟨e.timestampColumn, .eventTimestamp, some .timestamp⟩
      else none

def summary (e : Event) : String :=
  let entities := e.entities.map fun x => if x.isDefault then x.name ++ " (default)" else x.name
  let attributes := e.attributes.map fun a => a.name ++ ": " ++ a.dataType.text
  "event " ++ e.name ++ ": entities [" ++ Text.join ", " entities ++ "]; attributes [" ++
    Text.join ", " attributes ++ "]"

end Event

end EventQuery
