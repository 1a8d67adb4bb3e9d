import EventQuery.Number.Layout
import EventQuery.Source.Token

/-! Queries: a base selection from one event and joins of further events. Every part carries the
place it was read from; a query is a functor in these places. -/

namespace EventQuery

/-- Which row of each entity a clause takes. -/
inductive Selector where
  | first
  | last
  | omitted
deriving DecidableEq

def Selector.text : Selector → String
  | .first => "first"
  | .last => "last"
  | .omitted => "omitted"

/-- Where in time the rows of a joined event lie. -/
inductive Qualifier where
  | before
  | after
deriving DecidableEq

def Qualifier.text : Qualifier → String
  | .before => "before"
  | .after => "after"

inductive Aggregate where
  | count
  | countDistinct
  | sum
  | avg
  | min
  | max
  | firstValue
  | lastValue
deriving DecidableEq

namespace Aggregate

def text : Aggregate → String
  | .count => "count"
  | .countDistinct => "count_distinct"
  | .sum => "sum"
  | .avg => "avg"
  | .min => "min"
  | .max => "max"
  | .firstValue => "first_value"
  | .lastValue => "last_value"

/-- All functions, in the order in which they are offered. -/
def all : List Aggregate :=
  [.count, .countDistinct, .sum, .avg, .min, .max, .firstValue, .lastValue]

/-- The function of a name, in any case of the ASCII letters. -/
def ofName? (name : String) : Option Aggregate :=
  all.find? fun f => f.text.toList = name.toList.map Char.toLower

def description : Aggregate → String
  | .count => "number of matching rows with a non-null value"
  | .countDistinct => "number of distinct non-null values"
  | .sum => "sum of the values"
  | .avg => "average of the values"
  | .min => "smallest value"
  | .max => "largest value"
  | .firstValue => "value on the earliest matching row"
  | .lastValue => "value on the latest matching row"

/-- The result is zero, and not missing, when nothing matched. -/
def isCount : Aggregate → Bool
  | .count | .countDistinct => true
  | _ => false

/-- The function picks a row by time and does not fold values. -/
def isPositional : Aggregate → Bool
  | .firstValue | .lastValue => true
  | _ => false

end Aggregate

inductive Literal where
  | text (s : String)
  | integer (n : Int)
  | real (x : Binary64)
deriving DecidableEq

namespace Literal

def valueText : Literal → String
  | .text s => s
  | .integer n => toString n
  | .real x => NumberLayout.plain.write x

/-- The literal as a message shows it. -/
def display : Literal → String
  | .text s => "'" ++ s ++ "'"
  | l => l.valueText

def isFinite : Literal → Bool
  | .real x => x.isFinite
  | _ => true

end Literal

/-- One output column of a clause: `source as label` or `function(argument) as label`. -/
inductive Column (ρ : Type) where
  | reference (source label : Located ρ String) (place : ρ)
  | aggregation (function : Located ρ Aggregate) (argument label : Located ρ String) (place : ρ)
deriving DecidableEq

namespace Column

variable {ρ σ : Type}

def label : Column ρ → Located ρ String
  | .reference _ label _ => label
  | .aggregation _ _ label _ => label

/-- The event column that is read. -/
def input : Column ρ → Located ρ String
  | .reference source _ _ => source
  | .aggregation _ argument _ _ => argument

def place : Column ρ → ρ
  | .reference _ _ place => place
  | .aggregation _ _ _ place => place

def isAggregation : Column ρ → Bool
  | .reference .. => false
  | .aggregation .. => true

def map (f : ρ → σ) : Column ρ → Column σ
  | .reference source label place => .reference (source.map f) (label.map f) (f place)
  | .aggregation function argument label place =>
    .aggregation (function.map f) (argument.map f) (label.map f) (f place)

end Column

/-- `filter(column comparison literal)` -/
structure Filter (ρ : Type) where
  column : Located ρ String
  comparison : Located ρ Comparison
  literal : Located ρ Literal
  place : ρ
deriving DecidableEq

def Filter.map {ρ σ : Type} (f : ρ → σ) (x : Filter ρ) : Filter σ where
  column := x.column.map f
  comparison := x.comparison.map f
  literal := x.literal.map f
  place := f x.place

/-- The base selection. An omitted selector sits, empty, where the event name starts. -/
structure SelectClause (ρ : Type) where
  selector : Located ρ Selector
  event : Located ρ String
  columns : List (Column ρ)
  place : ρ
deriving DecidableEq

def SelectClause.map {ρ σ : Type} (f : ρ → σ) (x : SelectClause ρ) : SelectClause σ where
  selector := x.selector.map f
  event := x.event.map f
  columns := x.columns.map (·.map f)
  place := f x.place

structure JoinClause (ρ : Type) where
  qualifier : Located ρ Qualifier
  selector : Located ρ Selector
  event : Located ρ String
  /-- The entities named after `using`, if any. -/
  entities : List (Located ρ String)
  columns : List (Column ρ)
  filter : Option (Filter ρ)
  place : ρ
deriving DecidableEq

def JoinClause.map {ρ σ : Type} (f : ρ → σ) (x : JoinClause ρ) : JoinClause σ where
  qualifier := x.qualifier.map f
  selector := x.selector.map f
  event := x.event.map f
  entities := x.entities.map (·.map f)
  columns := x.columns.map (·.map f)
  filter := x.filter.map (·.map f)
  place := f x.place

structure Query (ρ : Type) where
  select : SelectClause ρ
  joins : List (JoinClause ρ)
  place : ρ
deriving DecidableEq

def Query.map {ρ σ : Type} (f : ρ → σ) (x : Query ρ) : Query σ where
  select := x.select.map f
  joins := x.joins.map (·.map f)
  place := f x.place

end EventQuery
