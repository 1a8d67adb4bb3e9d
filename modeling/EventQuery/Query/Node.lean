import EventQuery.Query.Basic

/-! The parts of a query as a list, parents before children, and the part at a position. -/

namespace EventQuery

/-- A clause of a query: the base selection or the join of an index. -/
inductive Clause where
  | base
  | join (index : Nat)
deriving DecidableEq

inductive Part where
  | query
  | select
  | join
  | event (name : String)
  | selector (s : Selector)
  | qualifier (q : Qualifier)
  | entity (name : String)
  | column
  | source (name : String)
  | function (f : Aggregate)
  | label (name : String)
  | filter
  | filterColumn (name : String)
  | comparison (c : Comparison)
  | literal (l : Literal)
deriving DecidableEq

structure Node (ρ : Type) where
  clause : Clause
  part : Part
  place : ρ
deriving DecidableEq

variable {ρ : Type}

def Column.nodes (clause : Clause) : Column ρ → List (Node ρ)
  | .reference source label place =>
    [⟨clause, .column, place⟩, ⟨clause, .source source.value, source.place⟩,
      ⟨clause, .label label.value, label.place⟩]
  | .aggregation function argument label place =>
    [⟨clause, .column, place⟩, ⟨clause, .function function.value, function.place⟩,
      ⟨clause, .source argument.value, argument.place⟩,
      ⟨clause, .label label.value, label.place⟩]

def Filter.nodes (clause : Clause) (f : Filter ρ) : List (Node ρ) :=
  [⟨clause, .filter, f.place⟩, ⟨clause, .filterColumn f.column.value, f.column.place⟩,
    ⟨clause, .comparison f.comparison.value, f.comparison.place⟩,
    ⟨clause, .literal f.literal.value, f.literal.place⟩]

def SelectClause.nodes (s : SelectClause ρ) : List (Node ρ) :=
  [⟨.base, .select, s.place⟩, ⟨.base, .selector s.selector.value, s.selector.place⟩,
    ⟨.base, .event s.event.value, s.event.place⟩] ++ s.columns.flatMap (·.nodes .base)

def JoinClause.nodes (index : Nat) (j : JoinClause ρ) : List (Node ρ) :=
  let clause := Clause.join index
  [⟨clause, .join, j.place⟩, ⟨clause, .qualifier j.qualifier.value, j.qualifier.place⟩,
    ⟨clause, .selector j.selector.value, j.selector.place⟩,
    ⟨clause, .event j.event.value, j.event.place⟩]
    ++ j.entities.map (fun e => ⟨clause, .entity e.value, e.place⟩)
    ++ j.columns.flatMap (·.nodes clause)
    ++ (j.filter.map (·.nodes clause)).getD []

def joinNodes (index : Nat) : List (JoinClause ρ) → List (Node ρ)
  | [] => []
  | j :: js => j.nodes index ++ joinNodes (index + 1) js

namespace Query

def nodes (q : Query ρ) : List (Node ρ) :=
  ⟨.base, .query, q.place⟩ :: q.select.nodes ++ joinNodes 0 q.joins

/-- The name of the event of a clause. -/
def eventName? (q : Query ρ) : Clause → Option String
  | .base => some q.select.event.value
  | .join index => q.joins[index]?.map (·.event.value)

/-- The better of the candidate so far and a further node that contains the position: the later
one if the candidate encloses it. -/
def inner (best : Option (Node Span)) (node : Node Span) : Option (Node Span) :=
  match best with
  | none => some node
  | some b => if b.place.encloses node.place then some node else some b

/-- The innermost node at a position. -/
def nodeAt? (q : Query Span) (p : Position) : Option (Node Span) :=
  (q.nodes.filter (·.place.contains p)).foldl inner none

end Query

end EventQuery
