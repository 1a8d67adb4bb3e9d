import EventQuery.Proofs.Dataset.MatchingRows

/-! The rows of the named query of a join: one for each base row that some joined row matches, with
the key of the base row and what the columns of the join make of the matching rows. A join with a
selector finds them as the rows of rank one. -/

namespace EventQuery

open Sql

namespace Emission

variable {db : Database} {env : List (String × Relation)}

/-- The rank of a picked row, which stays beside it. -/
def rankCell : Selector → Row
  | .omitted => []
  | _ => [(rank, .number 1)]

theorem rankCell_of_ne {s : Selector} (h : s ≠ .omitted) : rankCell s = [(rank, .number 1)] := by
  cases s with
  | omitted => exact absurd rfl h
  | first | last => rfl

/-- What a join gives for a base row. -/
def joinRow (db : Database) (d : Dataset) (j : JoinedEvent) (a : Row) : Row :=
  (baseKey, a.value d.base.partitionKey)
    :: (j.columns.map (j.cell (j.matching db d.base.event a)) ++ rankCell j.selector)

/-- The rows that a join gives, one for each base row with a match. -/
def joinRows (db : Database) (d : Dataset) (j : JoinedEvent) : List Row :=
  ((d.anchors db).filter fun a => j.matching db d.base.event a ≠ []).map (joinRow db d j)

theorem flatMap_ite_singleton {α β : Type} (p : α → Bool) (f : α → β) (l : List α) :
    (l.flatMap fun a => if p a then [f a] else []) = (l.filter p).map f := by
  induction l with
  | nil => rfl
  | cons a l ih => cases h : p a <;> simp [h, ih]

/-- The items of a select list that each give one cell. -/
theorem flatMap_cells {α : Type} {l : List α} {item : α → SelectItem} {value : Expr → Sql.Value}
    {b : Binding} {cell : α → String × Sql.Value}
    (h : ∀ c ∈ l, (item c).cells value b = [cell c]) :
    (l.map item).flatMap (·.cells value b) = l.map cell := by
  rw [List.flatMap_map, List.flatMap_congr h, List.map_eq_flatMap]

/-- What a column makes of a row among those that match. -/
def rankedValue (j : JoinedEvent) (rows : List Row) (r : Row) (c : JoinedColumn) : Sql.Value :=
  match c.value with
  | .reference _ physical => r.value physical
  | .aggregation f _ physical => f.ofRows j.event.timestampColumn physical rows

theorem rankedValue_pick (j : JoinedEvent) (rows : List Row) (c : JoinedColumn) :
    (c.label, rankedValue j rows (j.selector.pick j.event.timestampColumn rows) c) =
      j.cell rows c := by
  obtain ⟨label, value⟩ := c
  cases value <;> rfl

def rankWindow (b : BaseEvent) (j : JoinedEvent) : Expr :=
  .overWindow .rowNumber [.ofTable base b.partitionKey]
    (timeOrder joined j.event.timestampColumn j.selector) none

section
variable {d : Dataset} {j : JoinedEvent} (hd : d.Suits db) (hj : j ∈ d.joins)
  (hs : d.base.selector ≠ .omitted) {B : Relation} (hb : env.lookup base = some B)
  (hrows : B.rows = (d.anchors db).map ranked) (ht : env.lookup j.event.table = none)
  (hl : ∀ c ∈ j.columns, isReserved c.label = false)

section
variable {a r : Row} {i : Nat} (ha : a ∈ d.anchors db)
  (hp : (bind (a, r), i) ∈ ((j.pairs db d).map bind).zipIdx)
include hd

theorem cells_keyItem {rows : List Placed} : (keyItem d.base).cells
    (Expr.ofWindow rows (bind (a, r), i)) (bind (a, r)) =
      [(baseKey, a.value d.base.partitionKey)] :=
  congrArg (fun v => [(baseKey, v)]) (scalar_base_bind (partitionKey_ne_rank hd))

include hj hs ha hp

/-- A ranked row has the values of its own joined row, apart from the functions of the partition. -/
theorem cells_rankedItem (c : JoinedColumn) :
    (rankedItem d.base j c).cells
        (Expr.ofWindow ((j.pairs db d).map bind).zipIdx (bind (a, r), i)) (bind (a, r)) =
      [(c.label, rankedValue j (j.matching db d.base.event a) r c)] := by
  have hfold := ofWindow_fold_pairs (j := j) hd hs ha (r := r) (i := i)
  have hfirst := ofWindow_firstValue_pairs hd hj hs ha hp
  have hlast := ofWindow_lastValue_pairs hd hj hs ha hp
  obtain ⟨label, value⟩ := c
  cases value with
  | reference source physical => exact congrArg (fun v => [(label, v)]) scalar_joined_bind
  | aggregation f argument physical =>
    cases f with
    | firstValue => exact congrArg (fun v => [(label, v)]) (hfirst physical)
    | lastValue => exact congrArg (fun v => [(label, v)]) (hlast physical)
    | count | countDistinct | sum | avg | min | max =>
      exact congrArg (fun v => [(label, v)]) (hfold _ physical)

theorem cellsOf_joinedRanked :
    Query.cellsOf (joinedRanked d.base j).select ((j.pairs db d).map bind) (bind (a, r), i) =
      (baseKey, a.value d.base.partitionKey) :: (j.columns.map (fun c =>
          (c.label, rankedValue j (j.matching db d.base.event a) r c)) ++
        [(rank, Expr.ofWindow ((j.pairs db d).map bind).zipIdx (bind (a, r), i)
          (rankWindow d.base j))]) := by
  have hselect : (joinedRanked d.base j).select = keyItem d.base ::
      (j.columns.map (rankedItem d.base j) ++ [item (rankWindow d.base j) rank]) := rfl
  rw [hselect, Query.cellsOf, List.flatMap_cons, cells_keyItem hd, List.flatMap_append,
    flatMap_cells fun c _ => cells_rankedItem hd hj hs ha hp c]
  rfl

end

theorem labels_notMem {name : String} (hn : isReserved name = true)
    {value : JoinedColumn → Sql.Value}
    (hl : ∀ c ∈ j.columns, isReserved c.label = false) :
    name ∉ (j.columns.map fun c => (c.label, value c)).map Prod.fst := by
  rw [List.map_map, List.mem_map]
  rintro ⟨c, hc, rfl⟩
  exact Bool.noConfusion ((hl c hc).symm.trans hn)

/-- Every base row with a match has one picked row. -/
theorem filter_pairs_picked (hd : d.Suits db) (hj : j ∈ d.joins) (ho : j.selector ≠ .omitted) :
    ((j.pairs db d).filter fun x => x.2 = j.selector.pick j.event.timestampColumn
        (j.matching db d.base.event x.1)).map (fun x => joinRow db d j x.1) =
      joinRows db d j := by
  rw [JoinedEvent.pairs, List.filter_flatMap, List.map_flatMap, joinRows, ← flatMap_ite_singleton]
  refine List.flatMap_congr fun a _ => ?_
  rw [List.filter_map, List.map_map]
  by_cases hm : j.matching db d.base.event a = []
  · simp [hm]
  · have hpick := (Selector.pick_spec j.event.timestampColumn ho hm).1
    have hone := List.count_eq_one_of_mem ((nodup_matching hd hj a).of_map _) hpick
    have hfilter : (j.matching db d.base.event a).filter ((fun x : Row × Row =>
        decide (x.2 = j.selector.pick j.event.timestampColumn (j.matching db d.base.event x.1))) ∘
          fun r => (a, r)) =
        [j.selector.pick j.event.timestampColumn (j.matching db d.base.event a)] := by
      rw [← List.replicate_one, ← hone, ← List.filter_eq]
      rfl
    rw [hfilter]
    simp [hm]

include hd hj hs hb hrows ht hl

/-- The rows of rank one are those of the join, one for each base row that is matched. -/
theorem filter_rows_joinedRanked (ho : j.selector ≠ .omitted) :
    ((joinedRanked d.base j).rows db env).filter (fun r => r.value rank = .number 1) =
      joinRows db d j := by
  have hbindings : (joinedRanked d.base j).bindings db env = (j.pairs db d).map bind :=
    bindings_matchingRows hd hj _ hb hrows ht
  rw [Query.rows_of_groups_eq_nil rfl, hbindings, ← filter_pairs_picked hd hj ho]
  refine Query.filter_selectRows fun x hx i hp => ?_
  obtain ⟨a, r⟩ := x
  obtain ⟨ha, hr⟩ := JoinedEvent.mem_pairs_iff.mp hx
  have hone := rowNumber_pairs_iff hd hj hs ha hp hr ho
  rw [cellsOf_joinedRanked hd hj hs ha hp, Row.value_cons_of_ne (by decide),
    Row.value_append_of_notMem_left (labels_notMem (by decide) hl), Row.value_cons_self,
    decide_eq_decide, decide_eq_true_eq]
  refine ⟨hone, fun hpick => ?_⟩
  have hpick : r = _ := hpick
  rw [rankWindow, hone.mpr hpick, hpick, joinRow, rankCell_of_ne ho]
  simp only [rankedValue_pick]

end

end Emission

end EventQuery
