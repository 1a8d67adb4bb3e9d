import EventQuery.Proofs.Dataset.Anchors
import EventQuery.Proofs.Dataset.Names
import EventQuery.Proofs.Sql.Rows

/-! The rows of the named query `base`: the base rows of the dataset, with their rank beside them,
which is one. -/

namespace EventQuery

open Sql

/-! ## Tables -/

namespace Sql.TableRef

variable {db : Database} {env : List (String × Relation)} {t : TableRef} {name : String}

theorem relation_of_lookup {r : Relation} (hp : t.parts = [name])
    (h : env.lookup name = some r) : t.relation db env = r := by
  rw [relation, hp]
  simp [h]

/-- A table whose name is not given to a query is a source table. -/
theorem relation_of_lookup_eq_none (hp : t.parts = Text.split '.' name)
    (h : env.lookup name = none) : t.relation db env = db.table (Text.split '.' name) := by
  rw [relation, hp]
  split
  · next part hsplit =>
    rw [hsplit, ← Text.eq_of_split_eq_singleton hsplit, h, Option.getD_none]
  · rfl

end Sql.TableRef

namespace Emission

variable {db : Database} {env : List (String × Relation)}

theorem timeOrder_eq (table timestamp : String) (s : Selector) :
    timeOrder table timestamp s = [(.ofTable table timestamp, some s.direction)] := by
  cases s <;> rfl

/-! ## Rows of rank one -/

theorem isTrue_rank_iff {name : String} {r : Row} :
    (Expr.compare .eq (.ofTable name rank) (.integer 1)).isTrue [(name, r)] = true ↔
      r.value rank = .number 1 := by
  have hone : (Expr.integer 1).scalar [(name, r)] = .number 1 := by
    simp [Expr.integer, Expr.scalar, Literal.value]
  rw [isTrue_compare_iff, scalar_ofTable_cons, hone]
  simp only [Comparison.holds, decide_eq_true_eq, ne_eq, reduceCtorEq, not_false_eq_true, true_and]
  exact ⟨And.right, fun h => ⟨by rw [h]; exact Sql.Value.noConfusion, h⟩⟩

theorem rows_rankOne {name : String} {R : Relation} (hs : Text.split '.' name = [name])
    (hl : env.lookup name = some R) :
    (rankOne name).rows db env = R.rows.filter fun r => r.value rank = .number 1 := by
  have hbindings : (rankOne name).bindings db env =
      (R.rows.filter fun r => r.value rank = .number 1).map fun r => [(name, r)] := by
    rw [Query.bindings_of_source rfl, TableRef.relation_of_lookup hs hl, TableRef.name_ofName hs]
    refine List.filter_map.trans ?_
    congr 1
    refine List.filter_congr fun r _ => ?_
    rw [Bool.eq_iff_iff, decide_eq_true_iff]
    exact isTrue_rank_iff
  rw [Query.rows_of_groups_eq_nil rfl, hbindings, Query.selectRows_eq_map (f := id), List.map_id]
  intro r _ i _
  simp [Query.cellsOf, rankOne, SelectItem.cells]

/-! ## Base rows -/

/-- A row of rank one. -/
def ranked (r : Row) : Row := r ++ [(rank, .number 1)]

theorem value_ranked {r : Row} {column : String} (h : column ≠ rank) :
    (ranked r).value column = r.value column :=
  Row.value_append_of_notMem (by simpa using h)

def baseRank (b : BaseEvent) : Expr :=
  .overWindow .rowNumber [.ofTable source b.partitionKey]
    (timeOrder source b.event.timestampColumn b.selector) none

variable {d : Dataset}

theorem bindings_rankedBase : (rankedBase d.base).bindings db [] =
    (d.base.event.relation db).rows.map fun r => [(source, r)] := by
  rw [Query.bindings_of_source rfl, TableRef.relation_of_lookup_eq_none rfl rfl]
  simp [rankedBase, Query.empty, TableRef.name, Event.relation]

theorem cellsOf_rankedBase (rows : List Binding) (r : Row) (i : Nat) :
    Query.cellsOf (rankedBase d.base).select rows ([(source, r)], i) =
      r ++ [(rank, Expr.ofWindow rows.zipIdx ([(source, r)], i) (baseRank d.base))] := by
  simp [Query.cellsOf, rankedBase, SelectItem.cells, item, Expr.overWindow, baseRank]

/-- Where the queries of joins are evaluated, the base rows are those of rank one. -/
theorem exists_lookup_base (db : Database) (d : Dataset) (joins : List (JoinedEvent × Nat)) :
    ∃ B, (Query.runCtes db (ctesUpTo d joins) []).lookup base = some B ∧
      B.rows = ((rankedBase d.base).rows db []).filter fun r => r.value rank = .number 1 := by
  have hsplit : ctesUpTo d joins = [(baseRanked, rankedBase d.base)] ++
      (base, rankOne baseRanked) :: ctesOf d.base joins := rfl
  refine ⟨(rankOne baseRanked).run db (Query.runCtes db [(baseRanked, rankedBase d.base)] []),
    ?_, ?_⟩
  · rw [hsplit, Query.lookup_runCtes]
    rw [names_ctesOf]
    exact notMem_joinNames (by decide) joins
  · have hranked : (Query.runCtes db [(baseRanked, rankedBase d.base)] []).lookup baseRanked =
        some ((rankedBase d.base).run db []) := Query.lookup_runCtes_concat db [] _ _ _
    rw [Query.rows_run]
    show (rankOne baseRanked).rows db (Query.runCtes db [] _) = _
    rw [Query.runCtes, rows_rankOne rfl hranked, Query.rows_run]
    rfl

section
variable (hf : ∀ r ∈ (d.base.event.relation db).rows, rank ∉ r.map Prod.fst)
include hf

/-- Base rows of rank one differ in their keys, even where timestamps are the same. -/
theorem nodup_map_key_rankedBase (hk : d.base.partitionKey ≠ rank) :
    ((((rankedBase d.base).rows db []).filter fun r => r.value rank = .number 1).map
      (·.value d.base.partitionKey)).Nodup := by
  have hplaced : ∀ p ∈ ((rankedBase d.base).bindings db []).zipIdx,
      ∃ r ∈ (d.base.event.relation db).rows, p.1 = [(source, r)] := by
    intro p hp
    have hmem := List.fst_mem_of_mem_zipIdx hp
    rw [bindings_rankedBase, List.mem_map] at hmem
    obtain ⟨r, hr, hp⟩ := hmem
    exact ⟨r, hr, hp.symm⟩
  -- Rows may be equal, so they are told apart by their places.
  have hnodup : ((rankedBase d.base).bindings db []).zipIdx.Nodup := by
    refine List.Nodup.of_map Prod.snd ?_
    rw [List.zipIdx_map_snd]
    exact List.nodup_range'
  rw [Query.rows_of_groups_eq_nil rfl, Query.selectRows_eq, List.filter_map, List.map_map]
  refine (hnodup.filter _).map_on fun p hp q hq he => ?_
  obtain ⟨hp, hp₁⟩ := List.mem_filter.mp hp
  obtain ⟨hq, hq₁⟩ := List.mem_filter.mp hq
  obtain ⟨r, hr, hpr⟩ := hplaced p hp
  obtain ⟨r', hr', hqr⟩ := hplaced q hq
  obtain ⟨_, i⟩ := p
  obtain ⟨_, k⟩ := q
  cases hpr
  cases hqr
  have hkey : ∀ (r : Row) (v : Sql.Value), Row.value (r ++ [(rank, v)]) d.base.partitionKey =
      r.value d.base.partitionKey := fun r v => Row.value_append_of_notMem (by simpa using hk)
  have hp₁ := of_decide_eq_true hp₁
  have hq₁ := of_decide_eq_true hq₁
  rw [cellsOf_rankedBase, Row.value_append_of_notMem_left (hf r hr), Row.value_cons_self, baseRank,
    timeOrder_eq] at hp₁
  rw [cellsOf_rankedBase, Row.value_append_of_notMem_left (hf r' hr'), Row.value_cons_self,
    baseRank, timeOrder_eq] at hq₁
  refine eq_of_rowNumber_eq_one hp hq ?_ hp₁ hq₁
  rw [Function.comp_apply, Function.comp_apply, cellsOf_rankedBase, cellsOf_rankedBase, hkey,
    hkey] at he
  simp only [scalars, scalar_ofTable_cons, he]

variable (hn : ((d.base.event.relation db).rows.map (·.value d.base.event.timestampColumn)).Nodup)
include hn

omit hf in
theorem tellsApart_rankedBase : TellsApart (.ofTable source d.base.event.timestampColumn)
    [.ofTable source d.base.partitionKey] ((rankedBase d.base).bindings db []) := by
  rw [bindings_rankedBase, TellsApart, List.pairwise_map]
  refine (List.pairwise_map.mp hn).imp fun {r r'} hne _ => ?_
  rwa [scalar_ofTable_cons, scalar_ofTable_cons]

omit hf in
/-- A base row has rank one exactly when it is picked for its key. -/
theorem baseRank_eq_one_iff {r : Row} {i : Nat} (hr : r ∈ (d.base.event.relation db).rows)
    (hp : ([(source, r)], i) ∈ ((rankedBase d.base).bindings db []).zipIdx) :
    Expr.ofWindow ((rankedBase d.base).bindings db []).zipIdx ([(source, r)], i)
        (baseRank d.base) = .number 1 ↔ r ∈ d.anchors db := by
  rw [baseRank, timeOrder_eq, (tellsApart_rankedBase hn).rowNumber_eq_one_iff hp,
    Dataset.mem_anchors_iff, and_iff_right hr]
  simp [mem_blockOf_iff, bindings_rankedBase, scalars, scalar_ofTable_cons]

/-- The base rows of rank one, where timestamps are different. -/
theorem filter_rows_rankedBase :
    ((rankedBase d.base).rows db []).filter (fun r => r.value rank = .number 1) =
      (d.anchors db).map ranked := by
  have hanchors : ((d.base.event.relation db).rows.filter fun r => r ∈ d.anchors db) =
      d.anchors db := by
    refine List.filter_congr fun r hr => ?_
    rw [decide_eq_decide, Dataset.mem_anchors_iff, and_iff_right hr]
  conv_rhs => rw [← hanchors]
  rw [Query.rows_of_groups_eq_nil rfl, bindings_rankedBase]
  refine Query.filter_selectRows fun r hr i hp => ?_
  rw [← bindings_rankedBase] at hp ⊢
  have hone := baseRank_eq_one_iff hn hr hp
  rw [cellsOf_rankedBase, Row.value_append_of_notMem_left (hf r hr), Row.value_cons_self,
    decide_eq_decide, decide_eq_true_eq]
  exact ⟨hone, fun h => by rw [hone.mpr h, ranked]⟩

end

end Emission

end EventQuery
