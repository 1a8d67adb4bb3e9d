import EventQuery.Proofs.Dataset.GroupedRows

/-! The rows of the query of a dataset. The named query of every join gives at most one row for a
base row, so the left joins behind the base rows keep one row for each of them. -/

namespace EventQuery

open Sql

namespace Emission

variable {db : Database} {d : Dataset}

section
variable (hd : d.Suits db)
include hd

theorem exists_lookup_anchors (joins : List (JoinedEvent × Nat)) :
    ∃ B, (Query.runCtes db (ctesUpTo d joins) []).lookup base = some B ∧
      B.rows = (d.anchors db).map ranked := by
  have hfree : ∀ r ∈ (d.base.event.relation db).rows, rank ∉ r.map Prod.fst := by
    intro r hr hmem
    have haligned : r.map Prod.fst = (d.base.event.relation db).columns := db.aligned _ r hr
    exact hd.base.ne_of_isReserved (haligned ▸ hmem) (by decide) rfl
  obtain ⟨B, hb, hrows⟩ := exists_lookup_base db d joins
  exact ⟨B, hb, hrows.trans (filter_rows_rankedBase hfree hd.base.apart)⟩

variable (hs : d.base.selector ≠ .omitted) (ht : d.TablesFree)
  (hl : ∀ j ∈ d.joins, ∀ c ∈ j.columns, isReserved c.label = false)
  (hn : ∀ j ∈ d.joins, (j.columns.map (·.label)).Nodup)
  (hk : ∀ j ∈ d.joins, j.selector = .omitted → j.RefersToKeys)
include hs ht hl hn hk

/-- The named query of a join gives one row for each base row with a match. -/
theorem exists_lookup_join {j : JoinedEvent} {i : Nat} (hj : (j, i) ∈ d.joins.zipIdx) :
    ∃ R, (Query.runCtes db (ctes d) []).lookup (joinName i) = some R ∧
      R.rows.Perm (joinRows db d j) := by
  have hmem : j ∈ d.joins := List.fst_mem_of_mem_zipIdx hj
  obtain ⟨before, after, hctes, hafter⟩ := exists_ctes_eq hj
  have htable : (Query.runCtes db (ctesUpTo d before) []).lookup j.event.table = none := by
    refine Query.lookup_runCtes_of_notMem fun h => ht j hmem ?_
    rw [hctes, List.map_append, List.map_append]
    exact List.mem_append_left _ (List.mem_append_left _ h)
  obtain ⟨B, hb, hrows⟩ := exists_lookup_anchors hd before
  have hinner := Query.lookup_runCtes_concat db (ctesUpTo d before) (innerName i j.selector)
    (innerQuery d.base j) []
  refine ⟨_, by rw [hctes]; exact Query.lookup_runCtes hafter, ?_⟩
  rw [Query.rows_run]
  by_cases ho : j.selector = .omitted
  · rw [outerQuery_of_eq ho]
    refine rows_grouped_perm hd hs (hl j hmem) (hn j hmem) ho (hk j hmem ho)
      (split_innerName i j.selector) hinner ?_
    rw [innerQuery_of_eq ho, Query.rows_run]
    exact rows_joinedRows hd hmem hs hb hrows htable
  · rw [outerQuery_of_ne ho]
    refine List.Perm.of_eq ((rows_rankOne (split_innerName i j.selector) hinner).trans ?_)
    rw [innerQuery_of_ne ho, Query.rows_run]
    exact filter_rows_joinedRanked hd hmem hs hb hrows htable (hl j hmem) ho

end

/-! ## The last joins -/

/-- What stands beside a base row for a join. -/
def resultRow (db : Database) (d : Dataset) (env : List (String × Relation))
    (p : JoinedEvent × Nat) (a : Row) : Row :=
  if p.1.matching db d.base.event a = [] then
    ((TableRef.ofName (joinName p.2)).relation db env).columns.map fun c => (c, .null)
  else joinRow db d p.1 a

section
variable {env : List (String × Relation)} (hd : d.Suits db) (hs : d.base.selector ≠ .omitted)
include hd

/-- The last joins compare keys. -/
theorem isTrue_resultJoin {name : String} {b : Binding} {a r : Row} (ha : a ∈ d.anchors db)
    (hbase : b.lookup base = some (ranked a)) (hfresh : b.lookup name = none) :
    (resultJoin d.base name).condition.isTrue (b ++ [(name, r)]) =
      decide (r.value baseKey = a.value d.base.partitionKey) := by
  have hkey := hd.keyed a (Dataset.mem_anchors_iff.mp ha).1
  rw [Bool.eq_iff_iff, resultJoin, isTrue_compare_iff,
    scalar_ofTable_of_lookup (r := r) (by simp [List.lookup_append, hfresh]),
    scalar_ofTable_of_lookup (r := ranked a) (by simp [List.lookup_append, hbase]),
    value_ranked (partitionKey_ne_rank hd)]
  simp only [Comparison.holds, decide_eq_true_eq, hkey, ne_eq, not_false_eq_true, true_and]
  exact ⟨And.right, fun h => ⟨h ▸ hkey, h⟩⟩

include hs

/-- The key of a base row finds the row of a join for it. -/
theorem filter_joinRows {j : JoinedEvent} {a : Row} (ha : a ∈ d.anchors db) :
    ((joinRows db d j).filter fun r => r.value baseKey = a.value d.base.partitionKey) =
      if j.matching db d.base.event a ≠ [] then [joinRow db d j a] else [] := by
  have hkey : ∀ a ∈ d.anchors db, ∀ r ∈ (if decide (j.matching db d.base.event a ≠ []) then
      [joinRow db d j a] else []), r.value baseKey = a.value d.base.partitionKey := by
    intro a _ r hr
    split at hr
    · rw [List.mem_singleton.mp hr]
      exact Row.value_cons_self
    · cases hr
  rw [joinRows, ← flatMap_ite_singleton, filter_flatMap_of_nodup _ _
    (Dataset.nodup_map_key_anchors hs hd.base.apart) hkey ha]
  simp only [decide_eq_true_eq]

variable (hjoins : ∀ p ∈ d.joins.zipIdx, ∃ R, env.lookup (joinName p.2) = some R ∧
  R.rows.Perm (joinRows db d p.1))
include hjoins

theorem extend_resultJoin {p : JoinedEvent × Nat} (hp : p ∈ d.joins.zipIdx) {g : Row → Binding}
    (hbase : ∀ a ∈ d.anchors db, (g a).lookup base = some (ranked a))
    (hfresh : ∀ a ∈ d.anchors db, (g a).lookup (joinName p.2) = none) :
    (resultJoin d.base (joinName p.2)).extend
        ((TableRef.ofName (joinName p.2)).relation db env) ((d.anchors db).map g) =
      (d.anchors db).map fun a => g a ++ [(joinName p.2, resultRow db d env p a)] := by
  obtain ⟨R, hlookup, hperm⟩ := hjoins p hp
  have hname : (resultJoin d.base (joinName p.2)).table.name = joinName p.2 :=
    TableRef.name_ofName (split_joinName p.2)
  have hrelation : (TableRef.ofName (joinName p.2)).relation db env = R :=
    TableRef.relation_of_lookup (split_joinName p.2) hlookup
  have hfilter : ∀ a ∈ d.anchors db,
      (R.rows.filter fun r => (resultJoin d.base (joinName p.2)).condition.isTrue
        (g a ++ [(joinName p.2, r)])).Perm
        (if p.1.matching db d.base.event a ≠ [] then [joinRow db d p.1 a] else []) := by
    intro a ha
    rw [List.filter_congr fun r _ => isTrue_resultJoin hd ha (hbase a ha) (hfresh a ha),
      ← filter_joinRows hd hs ha]
    exact hperm.filter _
  rw [hrelation, Join.extend_left (f := resultRow db d env p) rfl, hname]
  intro a ha
  have hfilter := hfilter a ha
  rw [hname, resultRow, hrelation]
  split at hfilter
  · next hm => exact .inl (by rw [if_neg hm]; exact List.perm_singleton.mp hfilter)
  · next hm => exact .inr ⟨List.perm_nil.mp hfilter, by rw [if_pos (not_not.mp hm)]⟩

/-- The last joins put the row of each join beside every base row. -/
theorem foldl_resultJoin {joins : List (JoinedEvent × Nat)} (hsub : ∀ p ∈ joins, p ∈ d.joins.zipIdx)
    (hnodup : (joins.map fun p => joinName p.2).Nodup) {g : Row → Binding}
    (hbase : ∀ a ∈ d.anchors db, (g a).lookup base = some (ranked a))
    (hfresh : ∀ a ∈ d.anchors db, ∀ p ∈ joins, (g a).lookup (joinName p.2) = none) :
    (joins.map fun p => resultJoin d.base (joinName p.2)).foldl
        (fun rows j => j.extend (j.table.relation db env) rows) ((d.anchors db).map g) =
      (d.anchors db).map fun a =>
        g a ++ joins.map fun p => (joinName p.2, resultRow db d env p a) := by
  induction joins generalizing g with
  | nil => simp
  | cons p joins ih =>
    rw [List.map_cons, List.nodup_cons] at hnodup
    rw [List.map_cons, List.foldl_cons]
    show (joins.map _).foldl _ ((resultJoin d.base (joinName p.2)).extend
      ((TableRef.ofName (joinName p.2)).relation db env) _) = _
    rw [extend_resultJoin hd hs hjoins (hsub p List.mem_cons_self) hbase
      fun a ha => hfresh a ha p List.mem_cons_self]
    rw [ih (fun q hq => hsub q (List.mem_cons_of_mem _ hq)) hnodup.2]
    · simp
    · intro a ha
      rw [List.lookup_append, hbase a ha, Option.some_or]
    · intro a ha q hq
      have hne : joinName q.2 ≠ joinName p.2 := by
        intro h
        exact hnodup.1 (h ▸ List.mem_map_of_mem hq)
      rw [List.lookup_append, hfresh a ha q (List.mem_cons_of_mem _ hq), Option.none_or,
        List.lookup_cons, beq_false_of_ne hne]
      rfl

end

/-! ## Results -/

theorem ofRows_nil (f : Aggregate) (timestamp column : String) :
    f.ofRows timestamp column [] = if f.isCount then .number 0 else .null := by
  cases f <;> rfl

theorem ofRows_ne_null {f : Aggregate} (hf : f.isCount) (timestamp column : String)
    (rows : List Row) : f.ofRows timestamp column rows ≠ .null := by
  cases f with
  | count | countDistinct => exact Sql.Value.noConfusion
  | sum | avg | min | max | firstValue | lastValue => cases hf

theorem pick_nil (s : Selector) (timestamp : String) : s.pick timestamp [] = [] := by
  cases s <;> rfl

theorem scalar_coalesce_zero (e : Expr) (b : Binding) :
    (Expr.coalesce [e, .integer 0]).scalar b =
      if e.scalar b = .null then .number 0 else e.scalar b := by
  show ([e.scalar b, .number ((0 : ℤ) : ℚ)].find? (· ≠ .null)).getD .null = _
  by_cases h : e.scalar b = .null <;> simp [h]

/-- A count of nothing is zero, though the row it would stand on is not there. -/
theorem cells_resultItem {name : String} {b : Binding} {rows : List Placed} {i : Nat}
    {j : JoinedEvent} {matching : List Row} {c : JoinedColumn}
    (hv : (Expr.ofTable name c.label).scalar b =
      if matching = [] then .null else (j.cell matching c).2) :
    (resultItem name c).cells (Expr.ofWindow rows (b, i)) b = [j.cell matching c] := by
  obtain ⟨label, value⟩ := c
  cases value with
  | reference source physical =>
    refine congrArg (fun v => [(label, v)]) (hv.trans ?_)
    split
    · next hm => rw [hm, pick_nil]; rfl
    · rfl
  | aggregation f argument physical =>
    have hcell : (j.cell matching ⟨label, .aggregation f argument physical⟩) =
        (label, f.ofRows j.event.timestampColumn physical matching) := rfl
    have hitem : resultItem name ⟨label, .aggregation f argument physical⟩ =
        item (if f.isCount then .coalesce [.ofTable name label, .integer 0]
          else .ofTable name label) label := rfl
    rw [hcell] at hv ⊢
    by_cases hf : f.isCount
    · rw [hitem, if_pos hf]
      refine congrArg (fun v => [(label, v)]) ((scalar_coalesce_zero _ b).trans ?_)
      rw [hv]
      by_cases hm : matching = []
      · rw [if_pos hm, if_pos rfl, hm, ofRows_nil, if_pos hf]
      · rw [if_neg hm, if_neg (ofRows_ne_null hf _ _ _)]
    · rw [hitem, if_neg hf]
      refine congrArg (fun v => [(label, v)]) (hv.trans ?_)
      by_cases hm : matching = []
      · rw [if_pos hm, hm, ofRows_nil, if_neg hf]
      · rw [if_neg hm]

section
variable {env : List (String × Relation)} (hd : d.Suits db)
  (hl : ∀ j ∈ d.joins, ∀ c ∈ j.columns, isReserved c.label = false)
  (hn : ∀ j ∈ d.joins, (j.columns.map (·.label)).Nodup)

/-- The rows that the query selects from, one for each base row. -/
def resultBinding (db : Database) (d : Dataset) (env : List (String × Relation)) (a : Row) :
    Binding :=
  (base, ranked a) :: d.joins.zipIdx.map fun p => (joinName p.2, resultRow db d env p a)

include hl hn in
theorem value_resultRow {p : JoinedEvent × Nat} (hp : p ∈ d.joins.zipIdx) {c : JoinedColumn}
    (hc : c ∈ p.1.columns) (a : Row) :
    (resultRow db d env p a).value c.label = if p.1.matching db d.base.event a = [] then .null
      else (p.1.cell (p.1.matching db d.base.event a) c).2 := by
  have hmem : p.1 ∈ d.joins := List.fst_mem_of_mem_zipIdx hp
  have hfree : ∀ name, isReserved name = true → c.label ≠ name := by
    rintro _ hr rfl
    exact Bool.noConfusion ((hl p.1 hmem c hc).symm.trans hr)
  rw [resultRow]
  split
  · exact Row.value_nulls _ _
  · rw [joinRow, Row.value_cons_of_ne (hfree _ (by decide)), Row.value_append_of_notMem]
    · exact Row.value_map (hn p.1 hmem) hc
    · cases p.1.selector with
      | omitted => exact List.not_mem_nil
      | first | last => simpa [rankCell] using hfree _ (by decide)

include hd hl hn in
theorem cellsOf_results (a : Row) {rows : List Binding} {i : Nat} :
    Query.cellsOf (results d) rows (resultBinding db d env a, i) = d.row db a := by
  have hbase : ∀ c ∈ d.base.columns,
      (item (.ofTable base c.physical) c.label).cells
        (Expr.ofWindow rows.zipIdx (resultBinding db d env a, i)) (resultBinding db d env a) =
        [(c.label, a.value c.physical)] := by
    intro c hc
    have hrank : c.physical ≠ rank := by
      refine hd.base.ne_of_isReserved (hd.base.read _ ?_) (by decide)
      simp only [Dataset.baseColumns, List.mem_append, List.mem_cons, List.mem_map]
      exact .inl (.inr ⟨c, hc, rfl⟩)
    exact congrArg (fun v => [(c.label, v)]) (scalar_ofTable_cons.trans (value_ranked hrank))
  have hjoin : ∀ p ∈ d.joins.zipIdx, ∀ c ∈ p.1.columns,
      (resultItem (joinName p.2) c).cells
        (Expr.ofWindow rows.zipIdx (resultBinding db d env a, i)) (resultBinding db d env a) =
        [p.1.cell (p.1.matching db d.base.event a) c] := by
    intro p hp c hc
    refine cells_resultItem ?_
    rw [resultBinding, scalar_ofTable_cons_of_ne (joinName_ne (by decide)),
      scalar_ofTable_of_lookup (lookup_map nodup_joinName_zipIdx hp), value_resultRow hl hn hp hc]
  rw [Query.cellsOf, results_eq, List.flatMap_append, flatMap_cells hbase, Dataset.row,
    List.flatMap_assoc]
  refine congrArg _ ?_
  conv_rhs => rw [← List.zipIdx_map_fst 0 d.joins, List.flatMap_map]
  exact List.flatMap_congr fun p hp => flatMap_cells (hjoin p hp)

end

/-- **The rows of the query.** There is one for each base row, and it is the row of the result. -/
theorem rows_query (hd : d.Suits db) (hs : d.base.selector ≠ .omitted) (ht : d.TablesFree)
    (hl : ∀ j ∈ d.joins, ∀ c ∈ j.columns, isReserved c.label = false)
    (hn : ∀ j ∈ d.joins, (j.columns.map (·.label)).Nodup)
    (hk : ∀ j ∈ d.joins, j.selector = .omitted → j.RefersToKeys) :
    (query d).rows db (Query.runCtes db (ctes d) []) = (d.anchors db).map (d.row db) := by
  obtain ⟨B, hb, hrows⟩ := exists_lookup_anchors hd d.joins.zipIdx
  rw [← ctes_eq_ctesUpTo] at hb
  have hstart : ((TableRef.ofName base).relation db (Query.runCtes db (ctes d) [])).rows.map
      (fun r => [((TableRef.ofName base).name, r)]) =
      (d.anchors db).map fun a => [(base, ranked a)] := by
    rw [TableRef.relation_of_lookup (t := .ofName base) rfl hb, hrows, List.map_map]
    rfl
  have hbindings : (query d).bindings db (Query.runCtes db (ctes d) []) =
      (d.anchors db).map (resultBinding db d (Query.runCtes db (ctes d) [])) := by
    have hjoins : ∀ p ∈ d.joins.zipIdx, ∃ R,
        (Query.runCtes db (ctes d) []).lookup (joinName p.2) = some R ∧
          R.rows.Perm (joinRows db d p.1) := fun p hp =>
      exists_lookup_join hd hs ht hl hn hk hp
    have hfold := foldl_resultJoin hd hs hjoins (fun p hp => hp) nodup_joinName_zipIdx
      (g := fun a => [(base, ranked a)]) (fun a _ => List.lookup_cons_self)
      fun a _ p _ => by
        rw [List.lookup_cons, beq_false_of_ne (joinName_ne (by decide))]
        rfl
    rw [Query.bindings_of_source rfl, hstart]
    exact (List.filter_eq_self.mpr fun _ _ => rfl).trans hfold
  rw [Query.rows_of_groups_eq_nil rfl, hbindings]
  exact Query.selectRows_eq_map fun a _ i _ => cellsOf_results hd hl hn a

end Emission

end EventQuery
