import EventQuery.Proofs.Dataset.Columns
import EventQuery.Proofs.Dataset.Meaning

/-! The kinds of queries in the query of a dataset, and the kinds of expressions that they select.
What is said of all of them, such as where their columns come from or how they are written, is said
of each kind once. -/

namespace EventQuery

open Sql

namespace Emission

variable {b : BaseEvent} {j : JoinedEvent} {d : Dataset} {rows : String}

/-! ## The rows of a join -/

/-- What is selected from the rows that match: the key of the base row, a column of the join as it
is or over the rows with the same key, and the rank of the row. -/
inductive IsMatched (b : BaseEvent) (j : JoinedEvent) : Expr → Prop
  | key : IsMatched b j (.ofTable base b.partitionKey)
  | plain {c : JoinedColumn} : c ∈ j.columns → IsMatched b j (.ofTable joined c.value.physical)
  | positional {c : JoinedColumn} {function : String} : c ∈ j.columns →
    function ∈ ["FIRST_VALUE", "LAST_VALUE"] →
    IsMatched b j (positionalWindow b j (.apply function [.ofTable joined c.value.physical]))
  | folded {c : JoinedColumn} (f : Aggregate) : c ∈ j.columns →
    IsMatched b j (.overWindow (fold f (.ofTable joined c.value.physical))
      [.ofTable base b.partitionKey] [] none)
  | rank : IsMatched b j (.overWindow .rowNumber [.ofTable base b.partitionKey]
      (timeOrder joined j.event.timestampColumn j.selector) none)

theorem isMatched_rowsItem {c : JoinedColumn} (hc : c ∈ j.columns) :
    IsMatched b j (rowsItem b j c).expr := by
  obtain ⟨label, value⟩ := c
  cases value with
  | reference source physical => exact .plain hc
  | aggregation f argument physical =>
    cases f with
    | firstValue => exact .positional hc List.mem_cons_self
    | lastValue => exact .positional hc (List.mem_cons_of_mem _ List.mem_cons_self)
    | count | countDistinct | sum | avg | min | max => exact .plain hc

theorem isMatched_rankedItem {c : JoinedColumn} (hc : c ∈ j.columns) :
    IsMatched b j (rankedItem b j c).expr := by
  obtain ⟨label, value⟩ := c
  cases value with
  | reference source physical => exact .plain hc
  | aggregation f argument physical =>
    cases f with
    | firstValue => exact .positional hc List.mem_cons_self
    | lastValue => exact .positional hc (List.mem_cons_of_mem _ List.mem_cons_self)
    | count | countDistinct | sum | avg | min | max => exact .folded _ hc

/-- The first query of a join reads the matching rows whatever its selector. -/
theorem exists_innerQuery_eq (b : BaseEvent) (j : JoinedEvent) :
    ∃ select, innerQuery b j = matchingRows b j select ∧
      ∀ x ∈ select, ∃ e label, x = item e label ∧ IsMatched b j e := by
  by_cases ho : j.selector = .omitted
  · refine ⟨_, innerQuery_of_eq ho, ?_⟩
    rw [List.forall_mem_cons, List.forall_mem_map]
    exact ⟨⟨_, _, rfl, .key⟩, fun c hc => ⟨_, _, rfl, isMatched_rowsItem hc⟩⟩
  · refine ⟨_, innerQuery_of_ne ho, ?_⟩
    rw [List.forall_mem_append, List.forall_mem_cons, List.forall_mem_map,
      List.forall_mem_singleton]
    exact ⟨⟨⟨_, _, rfl, .key⟩, fun c hc => ⟨_, _, rfl, isMatched_rankedItem hc⟩⟩,
      ⟨_, _, rfl, .rank⟩⟩

/-! ## Groups -/

theorem label_mem_joinColumns {c : JoinedColumn} (hc : c ∈ j.columns) : c.label ∈ joinColumns j :=
  List.mem_cons_of_mem _ (List.mem_append_left _ (List.mem_map_of_mem hc))

theorem exists_of_mem_groups {e : Expr} (he : e ∈ (grouped rows j).groups) :
    ∃ column ∈ joinColumns j, e = .ofTable rows column := by
  rcases List.mem_cons.mp he with rfl | he
  · exact ⟨_, List.mem_cons_self, rfl⟩
  · obtain ⟨c, hc, he⟩ := List.mem_filterMap.mp he
    have hlabel := label_mem_joinColumns hc
    obtain ⟨label, value⟩ := c
    cases value with
    | reference source physical =>
      cases he
      exact ⟨_, hlabel, rfl⟩
    | aggregation f argument physical => cases he

/-- A column that is not grouped by is taken through a function. -/
theorem mem_groups_or_exists_fold {x : SelectItem} (hx : x ∈ (grouped rows j).select) :
    x.expr ∈ (grouped rows j).groups ∨
      ∃ f, ∃ column ∈ joinColumns j, x.expr = fold f (.ofTable rows column) := by
  rcases List.mem_cons.mp hx with rfl | hx
  · exact .inl List.mem_cons_self
  · obtain ⟨c, hc, rfl⟩ := List.mem_map.mp hx
    have hkey : ∀ e, groupKey? rows c = some e → e ∈ (grouped rows j).groups := fun e he =>
      List.mem_cons_of_mem _ (List.mem_filterMap.mpr ⟨c, hc, he⟩)
    have hlabel := label_mem_joinColumns hc
    obtain ⟨label, value⟩ := c
    cases value with
    | reference source physical => exact .inl (hkey _ rfl)
    | aggregation f argument physical => exact .inr ⟨f, label, hlabel, rfl⟩

/-! ## The named queries -/

/-- A property of all named queries of a dataset. -/
theorem forall_ctes {P : Sql.Query → Prop} (hranked : P (rankedBase d.base))
    (hone : ∀ name, P (rankOne name)) (hinner : ∀ j ∈ d.joins, P (innerQuery d.base j))
    (hgrouped : ∀ rows, ∀ j ∈ d.joins, P (grouped rows j)) : ∀ c ∈ ctes d, P c.2 := by
  refine List.forall_mem_cons.mpr ⟨hranked, List.forall_mem_cons.mpr ⟨hone _, fun c hc => ?_⟩⟩
  obtain ⟨⟨j, i⟩, hp, hc⟩ := List.mem_flatMap.mp hc
  have hj := List.fst_mem_of_mem_zipIdx hp
  have hc : c ∈ joinCtes d.base i j := hc
  rw [joinCtes_eq, List.mem_pair] at hc
  rcases hc with rfl | rfl
  · exact hinner j hj
  · by_cases ho : j.selector = .omitted
    · rw [outerQuery_of_eq ho]
      exact hgrouped _ j hj
    · rw [outerQuery_of_ne ho]
      exact hone _

/-! ## The result -/

/-- What the result selects: a column of the base rows, or one of a join, where a count that is not
there is zero. -/
inductive IsResult (d : Dataset) : Expr → Prop
  | base {c : BaseColumn} : c ∈ d.base.columns → IsResult d (.ofTable base c.physical)
  | plain {p : JoinedEvent × Nat} {c : JoinedColumn} : p ∈ d.joins.zipIdx → c ∈ p.1.columns →
    IsResult d (.ofTable (joinName p.2) c.label)
  | count {p : JoinedEvent × Nat} {c : JoinedColumn} : p ∈ d.joins.zipIdx → c ∈ p.1.columns →
    IsResult d (.coalesce [.ofTable (joinName p.2) c.label, .integer 0])

theorem exists_of_mem_results {x : SelectItem} (hx : x ∈ results d) :
    ∃ e label, x = item e label ∧ IsResult d e := by
  rw [results_eq, List.mem_append, List.mem_map, List.mem_flatMap] at hx
  rcases hx with ⟨c, hc, rfl⟩ | ⟨p, hp, hx⟩
  · exact ⟨_, _, rfl, .base hc⟩
  · obtain ⟨c, hc, rfl⟩ := List.mem_map.mp hx
    obtain ⟨label, value⟩ := c
    cases value with
    | reference source physical => exact ⟨_, _, rfl, .plain hp hc⟩
    | aggregation f argument physical =>
      refine ⟨_, _, rfl, ?_⟩
      split
      · exact .count hp hc
      · exact .plain hp hc

end Emission

end EventQuery
