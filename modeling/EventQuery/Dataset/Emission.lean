import EventQuery.Dataset.Basic
import EventQuery.Sql.Query

/-! The SQL query of a dataset: a chain of named queries that ranks the base rows and keeps the
first of each key, then for every join the matching rows and one row a key of them, and at the end
the base rows with the joined values beside them. -/

namespace EventQuery

open Sql

namespace Emission

def baseRanked : String := "base_ranked"

def base : String := "base"

/-- The source table of the base event. -/
def source : String := "e"

/-- The source table of a joined event. -/
def joined : String := "j"

def rank : String := "__eeql_rn"

def baseKey : String := "__eeql_base_key"

def joinName (index : Nat) : String := "join_" ++ toString (index + 1)

def item (e : Expr) (label : String) : SelectItem := ⟨e, some label⟩

/-- Rows in the order of time, the latest first for the last row. -/
def timeOrder (table timestamp : String) : Selector → List (Expr × Option Direction)
  | .last => [(.ofTable table timestamp, some .desc)]
  | _ => [(.ofTable table timestamp, some .asc)]

def rankedBase (b : BaseEvent) : Sql.Query :=
  let number := Expr.overWindow .rowNumber [.ofTable source b.partitionKey]
    (timeOrder source b.event.timestampColumn b.selector) none
  { Sql.Query.empty with
    select := [⟨.star (some source), none⟩, item number rank]
    source := some { TableRef.ofName b.event.table with label := some source } }

/-- The rows of rank one. -/
def rankOne (name : String) : Sql.Query :=
  { Sql.Query.empty with
    select := [⟨.star (some name), none⟩]
    source := some (.ofName name)
    condition := some (.compare .eq (.ofTable name rank) (.integer 1)) }

/-- Joined rows lie before or after the base row in time. -/
def timeCondition (b : BaseEvent) (j : JoinedEvent) : Expr :=
  let comparison : Comparison :=
    match j.qualifier with
    | .after => .gt
    | .before => .lt
  .compare comparison (.ofTable joined j.event.timestampColumn)
    (.ofTable base b.event.timestampColumn)

def joinCondition (b : BaseEvent) (j : JoinedEvent) : Expr :=
  j.keys.foldr
    (fun key rest =>
      .and (.compare .eq (.ofTable joined key.joinedColumn) (.ofTable base key.baseColumn)) rest)
    (timeCondition b j)

def filterCondition (f : ResolvedFilter) : Expr :=
  .compare f.comparison (.ofTable joined f.physical) (.literal f.literal)

/-- Every base row with each joined row that matches it. -/
def matchingRows (b : BaseEvent) (j : JoinedEvent) (select : List SelectItem) : Sql.Query :=
  { Sql.Query.empty with
    select := select
    source := some (.ofName base)
    joins := [⟨.inner, { TableRef.ofName j.event.table with label := some joined },
      joinCondition b j⟩]
    condition := j.filter.map filterCondition }

def keyItem (b : BaseEvent) : SelectItem := item (.ofTable base b.partitionKey) baseKey

/-- The value on the earliest or latest of the rows that match a base row. -/
def positionalWindow (b : BaseEvent) (j : JoinedEvent) (function : Expr) : Expr :=
  .overWindow function [.ofTable base b.partitionKey]
    (timeOrder joined j.event.timestampColumn .first)
    (some .wholePartition)

/-- A folding function. The value of a positional one is the same on all rows of a group. -/
def fold (f : Aggregate) (e : Expr) : Expr :=
  match f with
  | .count => .count e
  | .countDistinct => .countDistinct e
  | .sum => .sum e
  | .avg => .avg e
  | .min => .min e
  | .max | .firstValue | .lastValue => .max e

def rowsItem (b : BaseEvent) (j : JoinedEvent) (c : JoinedColumn) : SelectItem :=
  let value :=
    match c.value with
    | .reference _ physical => .ofTable joined physical
    | .aggregation .firstValue _ physical =>
      positionalWindow b j (.firstValue (.ofTable joined physical))
    | .aggregation .lastValue _ physical =>
      positionalWindow b j (.lastValue (.ofTable joined physical))
    | .aggregation _ _ physical => .ofTable joined physical
  item value c.label

def joinedRows (b : BaseEvent) (j : JoinedEvent) : Sql.Query :=
  matchingRows b j (keyItem b :: j.columns.map (rowsItem b j))

def groupItem (rows : String) (c : JoinedColumn) : SelectItem :=
  let value := Expr.ofTable rows c.label
  match c.value with
  | .reference .. => item value c.label
  | .aggregation f _ _ => item (fold f value) c.label

def groupKey? (rows : String) (c : JoinedColumn) : Option Expr :=
  match c.value with
  | .reference .. => some (.ofTable rows c.label)
  | .aggregation .. => none

def grouped (rows : String) (j : JoinedEvent) : Sql.Query :=
  let key := Expr.ofTable rows baseKey
  { Sql.Query.empty with
    select := ⟨key, none⟩ :: j.columns.map (groupItem rows)
    source := some (.ofName rows)
    groups := key :: j.columns.filterMap (groupKey? rows) }

def rankedItem (b : BaseEvent) (j : JoinedEvent) (c : JoinedColumn) : SelectItem :=
  let value :=
    match c.value with
    | .reference _ physical => .ofTable joined physical
    | .aggregation f _ physical =>
      let argument := Expr.ofTable joined physical
      if f.isPositional then
        positionalWindow b j
          (match f with
          | .firstValue => .firstValue argument
          | _ => .lastValue argument)
      else .overWindow (fold f argument) [.ofTable base b.partitionKey] [] none
  item value c.label

def joinedRanked (b : BaseEvent) (j : JoinedEvent) : Sql.Query :=
  let number := Expr.overWindow .rowNumber [.ofTable base b.partitionKey]
    (timeOrder joined j.event.timestampColumn j.selector) none
  matchingRows b j (keyItem b :: j.columns.map (rankedItem b j) ++ [item number rank])

/-- The two named queries of a join. -/
def joinCtes (b : BaseEvent) (index : Nat) (j : JoinedEvent) : List (String × Sql.Query) :=
  let name := joinName index
  match j.selector with
  | .omitted =>
    let rows := name ++ "_rows"
    [(rows, joinedRows b j), (name, grouped rows j)]
  | _ =>
    let ranked := name ++ "_ranked"
    [(ranked, joinedRanked b j), (name, rankOne ranked)]

/-- A count of nothing is zero. -/
def resultItem (name : String) (c : JoinedColumn) : SelectItem :=
  let value := Expr.ofTable name c.label
  match c.value with
  | .aggregation f _ _ =>
    item (if f.isCount then .coalesce [value, .integer 0] else value) c.label
  | .reference .. => item value c.label

def resultJoin (b : BaseEvent) (name : String) : Join :=
  ⟨.left, .ofName name, .compare .eq (.ofTable name baseKey) (.ofTable base b.partitionKey)⟩

def ctes (d : Dataset) : List (String × Sql.Query) :=
  (baseRanked, rankedBase d.base) :: (base, rankOne baseRanked)
    :: d.joins.zipIdx.flatMap fun (j, i) => joinCtes d.base i j

def results (d : Dataset) : List SelectItem :=
  d.base.columns.map (fun c => item (.ofTable base c.physical) c.label)
    ++ d.joins.zipIdx.flatMap fun (j, i) => j.columns.map (resultItem (joinName i))

def query (d : Dataset) : Sql.Query where
  ctes := ctes d
  select := results d
  source := some (.ofName base)
  joins := d.joins.zipIdx.map fun (_, i) => resultJoin d.base (joinName i)
  condition := none
  groups := []

end Emission

def Dataset.toQuery (d : Dataset) : Sql.Query := Emission.query d

def Dataset.toSql (layout : Layout) (d : Dataset) : String := d.toQuery.toSql layout

end EventQuery
