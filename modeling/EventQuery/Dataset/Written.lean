import EventQuery.Catalog.File
import EventQuery.Dataset.Basic
import EventQuery.Number.Layout

/-! Datasets as documents. -/

namespace EventQuery

/-- A literal as a document holds it. -/
def Literal.toValue : Literal → Value
  | .text s => .text s
  | .integer n => .number (toString n)
  | .real x => .number (NumberLayout.document.write x)

def BaseColumn.toValue (c : BaseColumn) : Value :=
  .record [("alias", .text c.label), ("source_column", .text c.source),
    ("physical", .text c.physical)]

def JoinKey.toValue (k : JoinKey) : Value :=
  .record [("entity", .text k.entity), ("joined_column", .text k.joinedColumn),
    ("base_column", .text k.baseColumn)]

def ColumnValue.toValue : ColumnValue → Value
  | .reference source physical =>
    .record [("kind", .text "reference"), ("source_column", .text source),
      ("physical", .text physical)]
  | .aggregation function argument physical =>
    .record [("kind", .text "aggregation"), ("function", .text function.text),
      ("argument_column", .text argument), ("physical", .text physical)]

def JoinedColumn.toValue (c : JoinedColumn) : Value :=
  .record [("alias", .text c.label), ("value", c.value.toValue)]

section

variable (literal : Literal → Value)

def ResolvedFilter.toValue (f : ResolvedFilter) : Value :=
  .record [("column", .text f.column), ("physical", .text f.physical),
    ("operator", .text f.comparison.text), ("literal", literal f.literal)]

def BaseEvent.toValue (b : BaseEvent) : Value :=
  .record [("event", b.event.toValue), ("selector", .text b.selector.text),
    ("partition_key", .text b.partitionKey), ("columns", .list (b.columns.map (·.toValue)))]

def JoinedEvent.toValue (j : JoinedEvent) : Value :=
  .record [("event", j.event.toValue), ("qualifier", .text j.qualifier.text),
    ("selector", .text j.selector.text),
    ("using_entities", .list (j.keys.map fun k => .text k.entity)),
    ("keys", .list (j.keys.map (·.toValue))), ("columns", .list (j.columns.map (·.toValue))),
    ("filter", (j.filter.map (·.toValue literal)).getD .null)]

/-- The dataset, with its filter literals in a given form. -/
def Dataset.toValue (d : Dataset) : Value :=
  .record [("base_event", d.base.toValue),
    ("joined_events", .list (d.joins.map (·.toValue literal)))]

end

end EventQuery
