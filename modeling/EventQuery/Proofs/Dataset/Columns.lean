import EventQuery.Proofs.Dataset.Names
import EventQuery.Proofs.Sql.Scope

/-! The columns that the named queries of a dataset give, and the queries in the query of a dataset
with the named queries that each of them sees. -/

namespace EventQuery

open Sql

namespace Emission

variable {source : List String → List String} {outer : Scope} {b : BaseEvent} {j : JoinedEvent}

/-! ## Columns -/

/-- The rank stays in the columns of a join that picks a row by it. -/
def rankColumn : Selector → List String
  | .omitted => []
  | _ => [rank]

theorem rankColumn_of_ne {s : Selector} (h : s ≠ .omitted) : rankColumn s = [rank] := by
  cases s with
  | omitted => exact absurd rfl h
  | first | last => rfl

/-- The columns of both named queries of a join. -/
def joinColumns (j : JoinedEvent) : List String :=
  baseKey :: (j.columns.map (·.label) ++ rankColumn j.selector)

/-- The columns of items that each give one. -/
theorem flatMap_columns {α : Type} {l : List α} {item : α → SelectItem} {scope : Scope}
    {name : α → String} (h : ∀ c ∈ l, (item c).columns scope = [name c]) :
    (l.map item).flatMap (·.columns scope) = l.map name := by
  rw [List.flatMap_map, List.flatMap_congr h, List.map_eq_flatMap]

theorem columns_rowsItem (c : JoinedColumn) (scope : Scope) :
    (rowsItem b j c).columns scope = [c.label] := by
  obtain ⟨label, value⟩ := c
  cases value with
  | reference source physical => rfl
  | aggregation f argument physical => cases f <;> rfl

/-- Whatever is selected for a column is selected under its label. -/
theorem columns_rankedItem (c : JoinedColumn) (scope : Scope) :
    (rankedItem b j c).columns scope = [c.label] := by
  obtain ⟨label, value⟩ := c
  cases value with
  | reference source physical => rfl
  | aggregation f argument physical => cases f <;> rfl

theorem columns_groupItem (rows : String) (c : JoinedColumn) (scope : Scope) :
    (groupItem rows c).columns scope = [c.label] := by
  obtain ⟨label, value⟩ := c
  cases value with
  | reference source physical => rfl
  | aggregation f argument physical => cases f <;> rfl

/-- The first query of a join gives the key, the labels of the columns, and the rank if there is a
selector. -/
theorem columns_innerQuery : (innerQuery b j).columns source outer = joinColumns j := by
  by_cases ho : j.selector = .omitted
  · rw [innerQuery_of_eq ho, Query.columns_of_ctes_eq_nil rfl, joinColumns, ho]
    show (keyItem b :: j.columns.map (rowsItem b j)).flatMap _ = _
    rw [List.flatMap_cons, flatMap_columns fun c _ => columns_rowsItem c _, rankColumn,
      List.append_nil]
    rfl
  · rw [innerQuery_of_ne ho, Query.columns_of_ctes_eq_nil rfl, joinColumns, rankColumn_of_ne ho]
    show (keyItem b :: (j.columns.map (rankedItem b j) ++ [item _ rank])).flatMap _ = _
    rw [List.flatMap_cons, List.flatMap_append, flatMap_columns fun c _ => columns_rankedItem c _]
    rfl

theorem within_singleton (name : String) (columns : List String) :
    Scope.within [(name, columns)] (some name) = columns := by
  simp [Scope.within]

/-- A table of the name of a named query is this query, not a table of the source. -/
theorem columns_of_lookup {t : TableRef} {name : String} {columns : List String}
    (hp : t.parts = [name]) (h : outer.lookup name = some columns) :
    t.columns source outer = columns := by
  rw [TableRef.columns, hp]
  simp [h]

theorem scope_of_lookup {q : Sql.Query} {name : String} {columns : List String}
    (hq : q.source = some (.ofName name)) (hj : q.joins = []) (hs : Text.split '.' name = [name])
    (h : outer.lookup name = some columns) : q.scope source outer = [(name, columns)] := by
  rw [Query.scope, Query.tables, hq, hj, List.map_nil, List.append_nil, Option.toList_some,
    List.map_singleton, columns_of_lookup hs h, TableRef.name_ofName hs]

theorem columns_rankOne {name : String} {columns : List String} (hs : Text.split '.' name = [name])
    (h : outer.lookup name = some columns) :
    (rankOne name).columns source outer = columns := by
  rw [Query.columns_of_ctes_eq_nil rfl, Query.bodyColumns, scope_of_lookup rfl rfl hs h]
  show Scope.within _ (some name) ++ [] = _
  rw [within_singleton, List.append_nil]

/-- The second query of a join gives the columns of the first. -/
theorem columns_outerQuery {i : Nat}
    (h : outer.lookup (innerName i j.selector) = some (joinColumns j)) :
    (outerQuery i j).columns source outer = joinColumns j := by
  by_cases ho : j.selector = .omitted
  · rw [outerQuery_of_eq ho, Query.columns_of_ctes_eq_nil rfl, joinColumns, ho]
    show (⟨.ofTable _ baseKey, none⟩ :: j.columns.map (groupItem _)).flatMap _ = _
    rw [List.flatMap_cons, flatMap_columns fun c _ => columns_groupItem _ c _, rankColumn,
      List.append_nil]
    rfl
  · rw [outerQuery_of_ne ho]
    exact columns_rankOne (split_innerName i j.selector) h

theorem ctes_innerQuery : (innerQuery b j).ctes = [] := by
  unfold innerQuery
  split <;> rfl

theorem ctes_outerQuery {i : Nat} : (outerQuery i j).ctes = [] := by
  unfold outerQuery
  split <;> rfl

/-! ## The named queries of joins -/

/-- A property of the queries of joins holds where it holds of each query that sees what is kept
when names of joins are added. -/
theorem forall_cteParts_joins {P : Scope × Sql.Query → Prop} {Inv : Scope → Prop}
    {joins : List (JoinedEvent × Nat)}
    (hkeep : ∀ outer name columns, name ∈ joinNames joins → Inv outer →
      Inv ((name, columns) :: outer))
    (hinner : ∀ outer, Inv outer → ∀ p ∈ joins, P (outer, innerQuery b p.1))
    (houter : ∀ outer, Inv outer → ∀ p ∈ joins,
      outer.lookup (innerName p.2 p.1.selector) = some (joinColumns p.1) →
      P (outer, outerQuery p.2 p.1)) {outer : Scope} (hinv : Inv outer) :
    ∀ x ∈ Query.cteParts source (ctesOf b joins) outer, P x := by
  induction joins generalizing outer with
  | nil => exact fun x hx => by cases hx
  | cons p joins ih =>
    obtain ⟨j, i⟩ := p
    have hinv₁ := hkeep outer (innerName i j.selector) (joinColumns j) (by simp [joinNames]) hinv
    have hinv₂ := hkeep _ (joinName i) (joinColumns j) (by simp [joinNames]) hinv₁
    have hlookup : List.lookup (innerName i j.selector)
        ((innerName i j.selector, joinColumns j) :: outer) = some (joinColumns j) :=
      List.lookup_cons_self
    intro x hx
    rw [ctesOf, List.flatMap_cons, joinCtes_eq, List.cons_append, List.cons_append, List.nil_append,
      Query.cteParts, Query.cteParts, Query.parts_of_ctes_eq_nil ctes_innerQuery,
      Query.parts_of_ctes_eq_nil ctes_outerQuery, columns_innerQuery, columns_outerQuery hlookup,
      List.mem_append, List.mem_append, List.mem_singleton, List.mem_singleton] at hx
    rcases hx with rfl | rfl | hx
    · exact hinner outer hinv _ List.mem_cons_self
    · exact houter _ hinv₁ _ List.mem_cons_self hlookup
    · refine ih (fun outer name columns hname => hkeep outer name columns ?_)
        (fun outer ho p hp => hinner outer ho p (List.mem_cons_of_mem _ hp))
        (fun outer ho p hp => houter outer ho p (List.mem_cons_of_mem _ hp)) hinv₂ x hx
      rw [joinNames, List.flatMap_cons]
      exact List.mem_append_right _ hname

/-! ## The queries in a query -/

/-- The columns of the base rows with their rank. -/
def rankedColumns (source : List String → List String) (b : BaseEvent) : List String :=
  source (Text.split '.' b.event.table) ++ [rank]

/-- A table that is named as no named query is a table of the source. -/
theorem columns_of_lookup_eq_none {t : TableRef} {name : String}
    (hp : t.parts = Text.split '.' name) (h : outer.lookup name = none) :
    t.columns source outer = source (Text.split '.' name) := by
  rw [TableRef.columns, hp]
  split
  · next part hsplit =>
    rw [hsplit, ← Text.eq_of_split_eq_singleton hsplit, h, Option.getD_none]
  · rfl

theorem scope_rankedBase : (rankedBase b).scope source [] =
    [(Emission.source, source (Text.split '.' b.event.table))] := by
  have hcolumns : TableRef.columns source []
      { TableRef.ofName b.event.table with label := some Emission.source } =
      source (Text.split '.' b.event.table) := columns_of_lookup_eq_none rfl rfl
  exact congrArg (fun columns => [(Emission.source, columns)]) hcolumns

theorem columns_rankedBase : (rankedBase b).columns source [] = rankedColumns source b := by
  rw [Query.columns_of_ctes_eq_nil rfl, Query.bodyColumns, scope_rankedBase]
  show Scope.within _ (some Emission.source) ++ ([rank] ++ []) = _
  rw [within_singleton, List.append_nil, rankedColumns]

theorem parts_query {d : Dataset} : (query d).parts source [] =
    ([], rankedBase d.base) :: ([(baseRanked, rankedColumns source d.base)], rankOne baseRanked)
      :: (Query.cteParts source (ctesOf d.base d.joins.zipIdx)
          [(base, rankedColumns source d.base), (baseRanked, rankedColumns source d.base)]
        ++ [(Query.cteColumns source (ctes d) [], query d)]) := by
  have hctes : (query d).ctes = (baseRanked, rankedBase d.base) :: (base, rankOne baseRanked) ::
      ctesOf d.base d.joins.zipIdx := rfl
  have hbase : (rankOne baseRanked).columns source [(baseRanked, rankedColumns source d.base)] =
      rankedColumns source d.base := columns_rankOne rfl List.lookup_cons_self
  rw [Query.parts_eq, hctes, Query.cteParts, Query.cteParts, Query.parts_of_ctes_eq_nil rfl,
    Query.parts_of_ctes_eq_nil rfl, columns_rankedBase, hbase]
  rfl

theorem query_mem_parts {d : Dataset} :
    (Query.cteColumns source (ctes d) [], query d) ∈ (query d).parts source [] := by
  rw [parts_query]
  simp

/-- A property of all queries in the query of a dataset. -/
theorem forall_parts_query {d : Dataset} {P : Scope × Sql.Query → Prop} (Inv : Scope → Prop)
    (hranked : P ([], rankedBase d.base))
    (hbase : P ([(baseRanked, rankedColumns source d.base)], rankOne baseRanked))
    (hstart : Inv [(base, rankedColumns source d.base), (baseRanked, rankedColumns source d.base)])
    (hkeep : ∀ outer name columns, name ∈ joinNames d.joins.zipIdx → Inv outer →
      Inv ((name, columns) :: outer))
    (hinner : ∀ outer, Inv outer → ∀ p ∈ d.joins.zipIdx, P (outer, innerQuery d.base p.1))
    (houter : ∀ outer, Inv outer → ∀ p ∈ d.joins.zipIdx,
      outer.lookup (innerName p.2 p.1.selector) = some (joinColumns p.1) →
      P (outer, outerQuery p.2 p.1))
    (hquery : P (Query.cteColumns source (ctes d) [], query d)) :
    ∀ x ∈ (query d).parts source [], P x := by
  rw [parts_query, List.forall_mem_cons, List.forall_mem_cons, List.forall_mem_append,
    List.forall_mem_singleton]
  exact ⟨hranked, hbase, forall_cteParts_joins hkeep hinner houter hstart, hquery⟩

/-- The columns of the named queries of a join can be told where all named queries are seen. -/
theorem lookup_joinName {d : Dataset} {i : Nat} (hj : (j, i) ∈ d.joins.zipIdx) :
    (Query.cteColumns source (ctes d) []).lookup (joinName i) = some (joinColumns j) := by
  obtain ⟨before, after, hctes, hafter⟩ := exists_ctes_eq hj
  rw [hctes, Query.lookup_cteColumns hafter, columns_outerQuery]
  rw [Query.lookup_cteColumns_concat, columns_innerQuery]

/-- What the result is selected from: the base rows and the rows of every join. -/
def resultScope (source : List String → List String) (d : Dataset) : Scope :=
  (base, rankedColumns source d.base)
    :: d.joins.zipIdx.map fun p => (joinName p.2, joinColumns p.1)

/-- The base rows have the columns of the ranked rows. -/
theorem lookup_base {d : Dataset} :
    (Query.cteColumns source (ctes d) []).lookup base = some (rankedColumns source d.base) := by
  have hsplit : ctes d = [(baseRanked, rankedBase d.base)] ++ (base, rankOne baseRanked) ::
      ctesOf d.base d.joins.zipIdx := rfl
  have hranked : (Query.cteColumns source [(baseRanked, rankedBase d.base)] []).lookup baseRanked =
      some (rankedColumns source d.base) := by
    rw [Query.cteColumns, Query.cteColumns, columns_rankedBase, List.lookup_cons_self]
  rw [hsplit, Query.lookup_cteColumns, columns_rankOne rfl hranked]
  rw [names_ctesOf]
  exact notMem_joinNames (by decide) _

/-- The final query sees the base rows and the second query of each join, under their names. -/
theorem scope_query {d : Dataset} :
    (query d).scope source (Query.cteColumns source (ctes d) []) = resultScope source d := by
  have htables : (query d).tables =
      .ofName base :: d.joins.zipIdx.map fun p => .ofName (joinName p.2) := by
    simp [Query.tables, query, resultJoin]
  rw [Query.scope, htables, List.map_cons, columns_of_lookup (t := .ofName base) rfl lookup_base,
    List.map_map, resultScope]
  refine congrArg _ (List.map_congr_left fun p hp => ?_)
  have hname : (TableRef.ofName (joinName p.2)).name = joinName p.2 :=
    TableRef.name_ofName (split_joinName p.2)
  have hcolumns : (TableRef.ofName (joinName p.2)).columns source
      (Query.cteColumns source (ctes d) []) = joinColumns p.1 :=
    columns_of_lookup (split_joinName p.2) (lookup_joinName hp)
  rw [Function.comp_apply, hname, hcolumns]

/-- No two tables that the final query reads go by the same name. -/
theorem nodup_resultScope {d : Dataset} : ((resultScope source d).map Prod.fst).Nodup := by
  rw [resultScope, List.map_cons, List.nodup_cons, List.map_map]
  refine ⟨?_, nodup_joinName_zipIdx⟩
  rw [List.mem_map]
  rintro ⟨p, -, hp⟩
  have hp : joinName p.2 = base := hp
  exact joinName_ne (by decide) hp

end Emission

end EventQuery
