import EventQuery.Dataset.Basic
import EventQuery.Proofs.Sql.Evaluation
import EventQuery.Query.Fault
import Mathlib.Data.List.MinMax

/-! The meaning of a dataset, said on the rows of the source tables and without SQL: each value of
the partition key has one row, made of the base row that the selector picks for it and, for every
join, of the joined rows that match this base row. -/

namespace EventQuery

open Sql (Database Row)

/-- The row that a selector picks by a timestamp. Without rows it is the empty row, on which every
column is null; without a selector any row will do, and it is the first one. -/
def Selector.pick (timestamp : String) (rows : List Row) : Selector → Row
  | .first => (rows.argmin (·.value timestamp)).getD []
  | .last => (rows.argmax (·.value timestamp)).getD []
  | .omitted => rows.head?.getD []

/-- A function of the values in a column. Of no rows a count is zero, all else is null. -/
def Aggregate.ofRows (timestamp column : String) (rows : List Row) : Aggregate → Sql.Value
  | .count => Sql.Value.count (rows.map (·.value column))
  | .countDistinct => Sql.Value.countDistinct (rows.map (·.value column))
  | .sum => Sql.Value.sum (rows.map (·.value column))
  | .avg => Sql.Value.average (rows.map (·.value column))
  | .min => Sql.Value.minimum (rows.map (·.value column))
  | .max => Sql.Value.maximum (rows.map (·.value column))
  | .firstValue => (Selector.first.pick timestamp rows).value column
  | .lastValue => (Selector.last.pick timestamp rows).value column

/-- The source table of an event. -/
def Event.relation (db : Database) (e : Event) : Sql.Relation := db.table (Text.split '.' e.table)

namespace JoinedEvent

/-- A joined row lies after or before the base row in time. -/
def inTime (j : JoinedEvent) (base : Event) (b r : Row) : Bool :=
  let joined := r.value j.event.timestampColumn
  let anchor := b.value base.timestampColumn
  match j.qualifier with
  | .after => anchor < joined
  | .before => joined < anchor

/-- Two rows agree in a key when both have it and it is the same. -/
def agrees (b r : Row) (k : JoinKey) : Bool :=
  r.value k.joinedColumn ≠ .null && r.value k.joinedColumn = b.value k.baseColumn

def passes (r : Row) (f : ResolvedFilter) : Bool :=
  f.comparison.apply (r.value f.physical) f.literal.value = .boolean true

/-- The joined rows that match a base row. -/
def matching (db : Database) (base : Event) (j : JoinedEvent) (b : Row) : List Row :=
  (j.event.relation db).rows.filter fun r =>
    j.keys.all (agrees b r) && j.inTime base b r && j.filter.all (passes r)

def cell (j : JoinedEvent) (rows : List Row) (c : JoinedColumn) : String × Sql.Value :=
  (c.label, match c.value with
    | .reference _ physical => (j.selector.pick j.event.timestampColumn rows).value physical
    | .aggregation f _ physical => f.ofRows j.event.timestampColumn physical rows)

end JoinedEvent

namespace Dataset

/-- The row of the result for a base row. -/
def row (db : Database) (d : Dataset) (b : Row) : Row :=
  d.base.columns.map (fun c => (c.label, b.value c.physical))
    ++ d.joins.flatMap fun j => j.columns.map (j.cell (j.matching db d.base.event b))

/-- The base row of a value of the partition key. -/
def anchor (db : Database) (d : Dataset) (key : Sql.Value) : Row :=
  d.base.selector.pick d.base.event.timestampColumn
    ((d.base.event.relation db).rows.filter fun r => r.value d.base.partitionKey = key)

/-- The values of the partition key, each once. -/
def keys (db : Database) (d : Dataset) : List Sql.Value :=
  ((d.base.event.relation db).rows.map (·.value d.base.partitionKey)).dedup

def meaning (db : Database) (d : Dataset) : List Row :=
  (d.keys db).map fun key => d.row db (d.anchor db key)

def labels (d : Dataset) : List String :=
  d.base.columns.map (·.label) ++ d.joins.flatMap fun j => j.columns.map (·.label)

end Dataset

/-! ## Databases for a dataset -/

def ColumnValue.physical : ColumnValue → String
  | .reference _ physical => physical
  | .aggregation _ _ physical => physical

/-- The columns of the base table that a dataset reads, the timestamp apart. -/
def Dataset.baseColumns (d : Dataset) : List String :=
  d.base.partitionKey :: d.base.columns.map (·.physical)
    ++ d.joins.flatMap fun j => j.keys.map (·.baseColumn)

def JoinedEvent.joinedColumns (j : JoinedEvent) : List String :=
  j.keys.map (·.joinedColumn) ++ j.columns.map (·.value.physical)
    ++ j.filter.toList.map (·.physical)

/-- The column that is read as it is. -/
def ColumnValue.plain? : ColumnValue → Option String
  | .reference _ physical => some physical
  | .aggregation .. => none

/-- The plain columns of a join are columns that it matches on. -/
def JoinedEvent.RefersToKeys (j : JoinedEvent) : Prop :=
  ∀ c ∈ j.columns, ∀ physical ∈ c.value.plain?, physical ∈ j.keys.map (·.joinedColumn)

instance (j : JoinedEvent) : Decidable j.RefersToKeys :=
  inferInstanceAs (Decidable (∀ _ ∈ _, _))

/-- The table of an event has the columns that are read and none under a reserved name, and its
timestamps are all there and all different. -/
structure Event.Suits (db : Database) (e : Event) (read : List String) : Prop where
  read : ∀ c ∈ read, c ∈ (e.relation db).columns
  timestamp : e.timestampColumn ∈ (e.relation db).columns
  free : ∀ c ∈ (e.relation db).columns, isReserved c = false
  timed : ∀ r ∈ (e.relation db).rows, r.value e.timestampColumn ≠ .null
  apart : ((e.relation db).rows.map (·.value e.timestampColumn)).Nodup

instance (db : Database) (e : Event) (read : List String) : Decidable (e.Suits db read) :=
  decidable_of_iff ((∀ c ∈ read, c ∈ (e.relation db).columns) ∧
      e.timestampColumn ∈ (e.relation db).columns ∧
      (∀ c ∈ (e.relation db).columns, isReserved c = false) ∧
      (∀ r ∈ (e.relation db).rows, r.value e.timestampColumn ≠ .null) ∧
      ((e.relation db).rows.map (·.value e.timestampColumn)).Nodup)
    ⟨fun ⟨hr, ht, hf, hv, ha⟩ => ⟨hr, ht, hf, hv, ha⟩,
      fun h => ⟨h.read, h.timestamp, h.free, h.timed, h.apart⟩⟩

/-- The tables suit the events of a dataset, and every base row has a partition key. -/
structure Dataset.Suits (db : Database) (d : Dataset) : Prop where
  base : d.base.event.Suits db d.baseColumns
  joins : ∀ j ∈ d.joins, j.event.Suits db j.joinedColumns
  keyed : ∀ r ∈ (d.base.event.relation db).rows, r.value d.base.partitionKey ≠ .null

instance (db : Database) (d : Dataset) : Decidable (d.Suits db) :=
  decidable_of_iff (d.base.event.Suits db d.baseColumns ∧
      (∀ j ∈ d.joins, j.event.Suits db j.joinedColumns) ∧
      ∀ r ∈ (d.base.event.relation db).rows, r.value d.base.partitionKey ≠ .null)
    ⟨fun ⟨hb, hj, hk⟩ => ⟨hb, hj, hk⟩, fun h => ⟨h.base, h.joins, h.keyed⟩⟩

end EventQuery
