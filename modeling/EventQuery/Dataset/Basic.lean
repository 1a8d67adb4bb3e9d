import EventQuery.Catalog.Event
import EventQuery.Query.Basic

/-! Datasets: queries whose names are all resolved, so that nothing more than the dataset is needed
to write its SQL. -/

namespace EventQuery

structure BaseColumn where
  label : String
  source : String
  physical : String
deriving DecidableEq

/-- The event whose selected row anchors every row of the result. -/
structure BaseEvent where
  event : Event
  selector : Selector
  /-- The column of the source table whose values get one row each. -/
  partitionKey : String
  columns : List BaseColumn
deriving DecidableEq

/-- Two columns that a join sets equal, those of one entity on the two events. -/
structure JoinKey where
  entity : String
  joinedColumn : String
  baseColumn : String
deriving DecidableEq

inductive ColumnValue where
  /-- The value on the selected row, or on the rows of a group. -/
  | reference (source physical : String)
  /-- A function of the values on all matching rows. -/
  | aggregation (function : Aggregate) (argument physical : String)
deriving DecidableEq

structure JoinedColumn where
  label : String
  value : ColumnValue
deriving DecidableEq

structure ResolvedFilter where
  column : String
  physical : String
  comparison : Comparison
  literal : Literal
deriving DecidableEq

/-- An event joined to the base row by shared entities. -/
structure JoinedEvent where
  event : Event
  qualifier : Qualifier
  selector : Selector
  keys : List JoinKey
  columns : List JoinedColumn
  filter : Option ResolvedFilter
deriving DecidableEq

structure Dataset where
  base : BaseEvent
  joins : List JoinedEvent
deriving DecidableEq

end EventQuery
