import EventQuery.Dataset.Basic
import EventQuery.Query.Validation

/-! Resolving a query to a dataset. Every name is looked up again, so a query that does not fit the
catalog gives a fault and no dataset. -/

namespace EventQuery

variable {ρ : Type}

namespace Lowering

def orFault {α : Type} (fault : Fault) : Option α → Except Fault α
  | some x => .ok x
  | none => .error fault

def lookup (catalog : Catalog) (name : String) : Except Fault Event :=
  orFault (.unknownEvent name) (catalog.find? name)

def label (name : String) : Except Fault String :=
  if isReserved name then .error (.reservedLabel name) else .ok name

def physical (event : Event) (column : String) : Except Fault String :=
  (orFault (.unknownColumn event.name column) (event.resolve? column)).map (·.physical)

def baseColumn (event : Event) : Column ρ → Except Fault BaseColumn
  | .reference source name _ => do
    let name ← label name.value
    return ⟨name, source.value, ← physical event source.value⟩
  | .aggregation _ _ name _ => .error (.aggregationInSelect event.name name.value)

def base (catalog : Catalog) (s : SelectClause ρ) : Except Fault BaseEvent := do
  let event ← lookup catalog s.event.value
  if s.selector.value = .omitted then .error (.missingSelector event.name)
  else
    let partition ← orFault (.noPartitionEntity event.name) event.partitionEntity?
    let columns ← s.columns.mapM (baseColumn event)
    return ⟨event, s.selector.value, partition.idColumn, columns⟩

/-- The columns of an entity on the joined event and on the base event. -/
def key (base : Event) (entity : Entity) : Except Fault JoinKey := do
  let onBase ← orFault (.unknownEntity base.name entity.name) (base.entity? entity.name)
  return ⟨entity.name, entity.idColumn, onBase.idColumn⟩

def columnValue (event : Event) (keys : List Entity) (selector : Selector) :
    Column ρ → Except Fault ColumnValue
  | .reference source name _ => do
    let resolved ← physical event source.value
    if selector = .omitted && !isKeyColumn keys source.value then
      .error (.ungroupedColumn event.name name.value)
    else return .reference source.value resolved
  | .aggregation function argument _ _ => do
    return .aggregation function.value argument.value (← physical event argument.value)

def joinedColumn (event : Event) (keys : List Entity) (selector : Selector) (c : Column ρ) :
    Except Fault JoinedColumn := do
  let value ← columnValue event keys selector c
  return ⟨← label c.label.value, value⟩

def filter (event : Event) (f : Filter ρ) : Except Fault ResolvedFilter :=
  if f.literal.value.isFinite then do
    return ⟨f.column.value, ← physical event f.column.value, f.comparison.value, f.literal.value⟩
  else .error (.nonFiniteLiteral f.literal.value)

def join (catalog : Catalog) (base : Event) (j : JoinClause ρ) : Except Fault JoinedEvent := do
  let event ← lookup catalog j.event.value
  j.entities.forM fun e => do
    let _ ← orFault (.unknownEntity event.name e.value) (event.entity? e.value)
  let entities := j.keys event
  if entities.isEmpty then .error (.noJoinKey event.name)
  else
    let keys ← entities.mapM (key base)
    let columns ← j.columns.mapM (joinedColumn event entities j.selector.value)
    let filter ← j.filter.mapM (filter event)
    return ⟨event, j.qualifier.value, j.selector.value, keys, columns, filter⟩

end Lowering

def Query.toDataset (catalog : Catalog) (q : Query ρ) : Except Fault Dataset := do
  let base ← Lowering.base catalog q.select
  let joins ← q.joins.mapM (Lowering.join catalog base.event)
  return ⟨base, joins⟩

end EventQuery
