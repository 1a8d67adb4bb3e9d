import EventQuery.Catalog.Basic
import EventQuery.Document.JsonReader
import EventQuery.Document.Toml.Reader
import EventQuery.Host.Path

/-! Catalog files: the events as records of a JSON or TOML document. A column that is left out has
the name of its attribute or entity. -/

namespace EventQuery

/-- An attribute as a file declares it, with the name of its type. -/
structure DeclaredAttribute where
  name : String
  typeName : String
  source : Option String
deriving DecidableEq

/-- An event as a file declares it. -/
structure DeclaredEvent where
  name : String
  idColumn : String
  timestampColumn : String
  table : String
  entities : List Entity
  attributes : List DeclaredAttribute
deriving DecidableEq

def DeclaredAttribute.toAttribute (event : String) (a : DeclaredAttribute) :
    Except CatalogError Attribute :=
  match DataType.ofName? a.typeName with
  | some dataType => .ok ⟨a.name, dataType, a.source.getD a.name⟩
  | none => .error (.unknownDataType event a.name a.typeName)

def DeclaredEvent.toEvent (e : DeclaredEvent) : Except CatalogError Event := do
  let attributes ← e.attributes.mapM (·.toAttribute e.name)
  return ⟨e.name, e.idColumn, e.timestampColumn, e.entities, attributes, e.table⟩

namespace CatalogFile

def entity? (format : DocumentFormat) (v : Value) : Option Entity := do
  let fields ← v.fields? format ["entity_name", "entity_id_alias", "is_default"]
  let name ← fields.required 0 Value.asText?
  let column ← fields.optional 1
  let isDefault ← fields.withDefault 2 false Value.asBool?
  return ⟨name, column.getD name, isDefault⟩

def attribute? (format : DocumentFormat) (v : Value) : Option DeclaredAttribute := do
  let fields ← v.fields? format ["attribute_name", "data_type", "source_alias"]
  return ⟨← fields.required 0 Value.asText?, ← fields.required 1 Value.asText?, ← fields.optional 2⟩

def event? (format : DocumentFormat) (v : Value) : Option DeclaredEvent := do
  let fields ← v.fields? format
    ["event_name", "event_id_alias", "event_timestamp_alias", "source_table", "entities",
      "attributes"]
  let name ← fields.required 0 Value.asText?
  let idColumn ← fields.required 1 Value.asText?
  let timestampColumn ← fields.required 2 Value.asText?
  let table ← fields.required 3 Value.asText?
  let entities ← fields.withDefault 4 [] (Value.asList? (entity? format))
  let attributes ← fields.withDefault 5 [] (Value.asList? (attribute? format))
  return ⟨name, idColumn, timestampColumn, table, entities, attributes⟩

def events? (format : DocumentFormat) (v : Value) : Option (List DeclaredEvent) := do
  let fields ← v.fields? format ["events"]
  fields.withDefault 0 [] (Value.asList? (event? format))

end CatalogFile

def parseDocument : DocumentFormat → String → Option Value
  | .json => Json.parse
  | .toml => Toml.parse

/-- The format of a file, by the extension of its name in any case of the letters. -/
def DocumentFormat.ofPath? (path : String) : Option DocumentFormat :=
  match (Path.extension? path).map fun e => String.ofList (e.toList.map Char.toLower) with
  | some "toml" => some .toml
  | some "json" => some .json
  | _ => none

namespace Catalog

/-- The catalog that a document declares. Any misshapen record comes before an unknown type, and
that before an unsound event. -/
def ofValue (format : DocumentFormat) (v : Value) : Except CatalogError Catalog :=
  match CatalogFile.events? format v with
  | none => .error (.malformed format)
  | some declared => do ofEvents (← declared.mapM DeclaredEvent.toEvent)

def parse (format : DocumentFormat) (text : String) : Except CatalogError Catalog :=
  match parseDocument format text with
  | none => .error (.malformed format)
  | some v => ofValue format v

/-- The catalog in a file; the format is known before the file is read. -/
def load {m : Type → Type} [Monad m] (host : Host m) (path : String) :
    m (Except CatalogError Catalog) :=
  match DocumentFormat.ofPath? path with
  | none => return .error (.unsupportedFormat path)
  | some format => do
    match ← host.read path with
    | .error fault => return .error (.unreadable fault)
    | .ok text => return parse format text

end Catalog

/-! The written form. -/

def Entity.toValue (e : Entity) : Value :=
  .record [("entity_name", .text e.name), ("entity_id_alias", .text e.idColumn),
    ("is_default", .bool e.isDefault)]

def Attribute.toValue (a : Attribute) : Value :=
  .record [("attribute_name", .text a.name), ("data_type", .text a.dataType.text),
    ("source_alias", .text a.source)]

def Event.toValue (e : Event) : Value :=
  .record [("event_name", .text e.name), ("event_id_alias", .text e.idColumn),
    ("event_timestamp_alias", .text e.timestampColumn),
    ("entities", .list (e.entities.map (·.toValue))),
    ("attributes", .list (e.attributes.map (·.toValue))),
    ("source_table", .text e.table)]

end EventQuery
