import EventQuery.Proofs.Dataset.JoinRows

/-! The rows of a join without a selector. They are found as groups, which the key of the base row
makes where the plain columns of the join are columns that it matches on: the joined rows of one
base row then agree in all that is grouped by. -/

namespace EventQuery

open Sql

namespace Emission

variable {db : Database} {env : List (String × Relation)}

/-- What a column makes of a row before groups are made: the first and the last value are those of
the whole group already. -/
def rowsValue (j : JoinedEvent) (rows : List Row) (r : Row) (c : JoinedColumn) : Sql.Value :=
  match c.value with
  | .aggregation .firstValue _ physical =>
    Aggregate.firstValue.ofRows j.event.timestampColumn physical rows
  | .aggregation .lastValue _ physical =>
    Aggregate.lastValue.ofRows j.event.timestampColumn physical rows
  | value => r.value value.physical

def rowsRow (db : Database) (d : Dataset) (j : JoinedEvent) (x : Row × Row) : Row :=
  (baseKey, x.1.value d.base.partitionKey)
    :: j.columns.map fun c => (c.label, rowsValue j (j.matching db d.base.event x.1) x.2 c)

section
variable {d : Dataset} {j : JoinedEvent} (hd : d.Suits db) (hj : j ∈ d.joins)
  (hs : d.base.selector ≠ .omitted) {B : Relation} (hb : env.lookup base = some B)
  (hrows : B.rows = (d.anchors db).map ranked) (ht : env.lookup j.event.table = none)
include hd hj hs

theorem cells_rowsItem {a r : Row} {i : Nat} (ha : a ∈ d.anchors db)
    (hp : (bind (a, r), i) ∈ ((j.pairs db d).map bind).zipIdx) (c : JoinedColumn) :
    (rowsItem d.base j c).cells
        (Expr.ofWindow ((j.pairs db d).map bind).zipIdx (bind (a, r), i)) (bind (a, r)) =
      [(c.label, rowsValue j (j.matching db d.base.event a) r c)] := by
  have hfirst := ofWindow_firstValue_pairs hd hj hs ha hp
  have hlast := ofWindow_lastValue_pairs hd hj hs ha hp
  obtain ⟨label, value⟩ := c
  cases value with
  | reference source physical => exact congrArg (fun v => [(label, v)]) scalar_joined_bind
  | aggregation f argument physical =>
    cases f with
    | firstValue => exact congrArg (fun v => [(label, v)]) (hfirst physical)
    | lastValue => exact congrArg (fun v => [(label, v)]) (hlast physical)
    | count | countDistinct | sum | avg | min | max =>
      exact congrArg (fun v => [(label, v)]) scalar_joined_bind

include hb hrows ht

theorem rows_joinedRows :
    (joinedRows d.base j).rows db env = (j.pairs db d).map (rowsRow db d j) := by
  have hbindings : (joinedRows d.base j).bindings db env = (j.pairs db d).map bind :=
    bindings_matchingRows hd hj _ hb hrows ht
  rw [Query.rows_of_groups_eq_nil rfl, hbindings]
  refine Query.selectRows_eq_map fun x hx i hp => ?_
  obtain ⟨a, r⟩ := x
  obtain ⟨ha, -⟩ := JoinedEvent.mem_pairs_iff.mp hx
  have hselect : (joinedRows d.base j).select =
      keyItem d.base :: j.columns.map (rowsItem d.base j) := rfl
  rw [hselect, Query.cellsOf, List.flatMap_cons, cells_keyItem hd,
    flatMap_cells fun c _ => cells_rowsItem hd hj hs ha hp c]
  rfl

end

/-! ## Groups -/

theorem ofGroup_fold (group : List Binding) (f : Aggregate) (e : Expr) :
    Expr.ofGroup group (fold f e) = folded f (group.map fun b => e.scalar b) := by
  obtain ⟨function, distinct, hfold, hset⟩ := fold_eq_call f e
  rw [hfold, Expr.ofGroup, hset]
  rfl

theorem cells_item_fold (f : Aggregate) (e : Expr) (label : String) (value : Expr → Sql.Value)
    (b : Binding) : (item (fold f e) label).cells value b = [(label, value (fold f e))] := by
  obtain ⟨function, distinct, hfold, -⟩ := fold_eq_call f e
  rw [hfold]
  rfl

/-- To fold the rows of a group is to apply the function to it: a positional function has given the
same value to all of them. -/
theorem folded_rowsValue {j : JoinedEvent} {rows : List Row} (hne : rows ≠ []) {f : Aggregate}
    {label argument physical : String} :
    folded f (rows.map fun r => rowsValue j rows r ⟨label, .aggregation f argument physical⟩) =
      f.ofRows j.event.timestampColumn physical rows := by
  cases f with
  | firstValue | lastValue =>
    refine Sql.Value.maximum_of_forall_eq (by simpa using hne) fun v hv => ?_
    obtain ⟨_, _, rfl⟩ := List.mem_map.mp hv
    rfl
  | count | countDistinct | sum | avg | min | max => rfl

section
variable {d : Dataset} {j : JoinedEvent} (hd : d.Suits db) (hs : d.base.selector ≠ .omitted)
  {rows : String}
  (hl : ∀ c ∈ j.columns, isReserved c.label = false) (hn : (j.columns.map (·.label)).Nodup)

theorem value_baseKey_rowsRow (x : Row × Row) :
    (rowsRow db d j x).value baseKey = x.1.value d.base.partitionKey := Row.value_cons_self

include hl hn in
theorem value_label_rowsRow (x : Row × Row) {c : JoinedColumn} (hc : c ∈ j.columns) :
    (rowsRow db d j x).value c.label =
      rowsValue j (j.matching db d.base.event x.1) x.2 c := by
  have hne : c.label ≠ baseKey := by
    intro h
    have := hl c hc
    rw [h] at this
    exact absurd this (by decide)
  rw [rowsRow, Row.value_cons_of_ne hne, Row.value_map hn hc]

/-- The rows that match a base row agree with it, and so with each other, in the keys. -/
theorem value_of_mem_matching {a r : Row} (hr : r ∈ j.matching db d.base.event a) {k : JoinKey}
    (hk : k ∈ j.keys) : r.value k.joinedColumn = a.value k.baseColumn := by
  rw [JoinedEvent.matching, List.mem_filter, Bool.and_eq_true, Bool.and_eq_true,
    List.all_eq_true] at hr
  have hagrees := hr.2.1.1 k hk
  rw [JoinedEvent.agrees, Bool.and_eq_true, decide_eq_true_eq, decide_eq_true_eq] at hagrees
  exact hagrees.2

/-- What the groups of a join are told apart by. -/
def groupKeys (rows : String) (j : JoinedEvent) : List Expr :=
  .ofTable rows baseKey :: j.columns.filterMap (groupKey? rows)

theorem scalars_eq_map (b : Binding) (es : List Expr) : scalars b es = es.map (·.scalar b) := by
  induction es with
  | nil => rfl
  | cons e es ih => rw [scalars, ih, List.map_cons]

include hl hn in
theorem scalar_groupKey (hk : j.RefersToKeys) {a r r' : Row}
    (hr : r ∈ j.matching db d.base.event a) (hr' : r' ∈ j.matching db d.base.event a) {e : Expr}
    (he : e ∈ j.columns.filterMap (groupKey? rows)) :
    e.scalar [(rows, rowsRow db d j (a, r))] = e.scalar [(rows, rowsRow db d j (a, r'))] := by
  obtain ⟨c, hc, he⟩ := List.mem_filterMap.mp he
  have hvalue : ∀ x, (rowsRow db d j x).value c.label =
      rowsValue j (j.matching db d.base.event x.1) x.2 c := fun x =>
    value_label_rowsRow hl hn x hc
  have hkeys := hk c hc
  obtain ⟨label, value⟩ := c
  cases value with
  | aggregation f argument physical => cases he
  | reference source physical =>
    cases he
    obtain ⟨k, hk, rfl⟩ := List.mem_map.mp (hkeys physical rfl)
    rw [scalar_ofTable_cons, scalar_ofTable_cons, hvalue, hvalue]
    exact (value_of_mem_matching hr hk).trans (value_of_mem_matching hr' hk).symm

include hd hs hl hn in
/-- Two rows are in one group exactly when they match the same base row. -/
theorem scalars_groupKeys_iff (hk : j.RefersToKeys) {x y : Row × Row}
    (hx : x ∈ j.pairs db d) (hy : y ∈ j.pairs db d) :
    scalars [(rows, rowsRow db d j x)] (groupKeys rows j) =
        scalars [(rows, rowsRow db d j y)] (groupKeys rows j) ↔ x.1 = y.1 := by
  obtain ⟨a, r⟩ := x
  obtain ⟨a', r'⟩ := y
  obtain ⟨ha, hr⟩ := JoinedEvent.mem_pairs_iff.mp hx
  obtain ⟨ha', hr'⟩ := JoinedEvent.mem_pairs_iff.mp hy
  rw [groupKeys, scalars, scalars, scalar_ofTable_cons, scalar_ofTable_cons,
    value_baseKey_rowsRow, value_baseKey_rowsRow, List.cons.injEq, scalars_eq_map, scalars_eq_map]
  constructor
  · intro h
    exact List.inj_on_of_nodup_map (Dataset.nodup_map_key_anchors hs hd.base.apart) ha ha' h.1
  · rintro rfl
    exact ⟨rfl, List.map_congr_left fun e he => scalar_groupKey hl hn hk hr hr' he⟩

include hd hs in
theorem filter_pairs_fst {a : Row} (ha : a ∈ d.anchors db) :
    ((j.pairs db d).filter fun x => x.1 = a) =
      (j.matching db d.base.event a).map fun r => (a, r) := by
  have hnodup : ((d.anchors db).map id).Nodup := by
    rw [List.map_id]
    exact (Dataset.nodup_map_key_anchors hs hd.base.apart).of_map _
  refine filter_flatMap_of_nodup id Prod.fst hnodup (fun a _ x hx => ?_) ha
  obtain ⟨_, _, rfl⟩ := List.mem_map.mp hx
  rfl

include hd hs hl hn in
/-- The group of a row is made of the rows that match its base row. -/
theorem filter_groupKeys (hk : j.RefersToKeys) {a r : Row} (ha : a ∈ d.anchors db)
    (hr : r ∈ j.matching db d.base.event a) :
    (((j.pairs db d).map fun x => [(rows, rowsRow db d j x)]).filter fun b =>
        scalars b (groupKeys rows j) =
          scalars [(rows, rowsRow db d j (a, r))] (groupKeys rows j)) =
      (j.matching db d.base.event a).map fun r => [(rows, rowsRow db d j (a, r))] := by
  rw [List.filter_map, List.filter_congr (q := fun x => decide (x.1 = a)),
    filter_pairs_fst hd hs ha, List.map_map]
  · rfl
  · intro x hx
    exact decide_eq_decide.mpr (scalars_groupKeys_iff hd hs hl hn hk hx
      (JoinedEvent.mem_pairs_iff.mpr ⟨ha, hr⟩))

include hl hn in
/-- A group gives what the columns of the join make of its rows. -/
theorem cells_groupItem (ho : j.selector = .omitted) {a : Row}
    (hm : j.matching db d.base.event a ≠ []) {c : JoinedColumn} (hc : c ∈ j.columns)
    {b : Binding} :
    (groupItem rows c).cells (Expr.ofGroup
        ((j.matching db d.base.event a).map fun r => [(rows, rowsRow db d j (a, r))])) b =
      [j.cell (j.matching db d.base.event a) c] := by
  have hvalue : ∀ x, (rowsRow db d j x).value c.label =
      rowsValue j (j.matching db d.base.event x.1) x.2 c := fun x =>
    value_label_rowsRow hl hn x hc
  obtain ⟨label, value⟩ := c
  cases value with
  | reference source physical =>
    refine congrArg (fun v => [(label, v)]) ?_
    obtain ⟨r, ms, hms⟩ := List.exists_cons_of_ne_nil hm
    have hfirst : (Expr.ofTable rows label).scalar [(rows, rowsRow db d j (a, r))] =
        (rowsRow db d j (a, r)).value label := scalar_ofTable_cons
    rw [hvalue] at hfirst
    rw [ho, hms]
    exact hfirst
  | aggregation f argument physical =>
    have hgroup : Expr.ofGroup ((j.matching db d.base.event a).map fun r =>
        [(rows, rowsRow db d j (a, r))]) (fold f (.ofTable rows label)) =
        folded f ((j.matching db d.base.event a).map fun r => rowsValue j
          (j.matching db d.base.event a) r ⟨label, .aggregation f argument physical⟩) := by
      rw [ofGroup_fold, List.map_map]
      refine congrArg _ (List.map_congr_left fun r _ => ?_)
      exact scalar_ofTable_cons.trans (hvalue (a, r))
    rw [groupItem, cells_item_fold, hgroup, folded_rowsValue hm]
    rfl

include hl hn in
theorem cells_grouped (rows : String) (ho : j.selector = .omitted) {a : Row}
    (hm : j.matching db d.base.event a ≠ []) :
    (grouped rows j).select.flatMap (·.cells (Expr.ofGroup
        ((j.matching db d.base.event a).map fun r => [(rows, rowsRow db d j (a, r))]))
        ((((j.matching db d.base.event a).map fun r =>
          [(rows, rowsRow db d j (a, r))]).head?).getD [])) = joinRow db d j a := by
  have hselect : (grouped rows j).select =
      ⟨.ofTable rows baseKey, none⟩ :: j.columns.map (groupItem rows) := rfl
  rw [hselect, List.flatMap_cons, flatMap_cells fun c hc => cells_groupItem hl hn ho hm hc, joinRow,
    ho, rankCell, List.append_nil]
  obtain ⟨r, ms, hms⟩ := List.exists_cons_of_ne_nil hm
  have hkey : (Expr.ofTable rows baseKey).scalar [(rows, rowsRow db d j (a, r))] =
      (rowsRow db d j (a, r)).value baseKey := scalar_ofTable_cons
  rw [hms]
  exact congrArg (fun v => (baseKey, v) :: _) hkey

include hd hs hl hn in
/-- The groups are those of the base rows with a match. -/
theorem groups_perm (hk : j.RefersToKeys) :
    ((j.pairs db d).map fun x => scalars [(rows, rowsRow db d j x)] (groupKeys rows j)).dedup.Perm
      (((d.anchors db).filter fun a => j.matching db d.base.event a ≠ []).map fun a =>
        scalars [(rows, rowsRow db d j (a, (j.matching db d.base.event a).head?.getD []))]
          (groupKeys rows j)) := by
  have hfirst : ∀ a ∈ (d.anchors db).filter fun a => j.matching db d.base.event a ≠ [],
      (a, (j.matching db d.base.event a).head?.getD []) ∈ j.pairs db d := by
    intro a ha
    obtain ⟨ha, hm⟩ := List.mem_filter.mp ha
    obtain ⟨r, ms, hms⟩ := List.exists_cons_of_ne_nil (of_decide_eq_true hm)
    exact JoinedEvent.mem_pairs_iff.mpr ⟨ha, by simp [hms]⟩
  have hanchors : (d.anchors db).Nodup :=
    (Dataset.nodup_map_key_anchors hs hd.base.apart).of_map _
  refine (List.perm_ext_iff_of_nodup (List.nodup_dedup _) ?_).mpr fun key => ?_
  · refine (hanchors.filter _).map_on fun a ha a' ha' he => ?_
    exact (scalars_groupKeys_iff hd hs hl hn hk (hfirst a ha) (hfirst a' ha')).mp he
  · rw [List.mem_dedup, List.mem_map, List.mem_map]
    constructor
    · rintro ⟨⟨a, r⟩, hx, rfl⟩
      obtain ⟨ha, hr⟩ := JoinedEvent.mem_pairs_iff.mp hx
      have hmem : a ∈ (d.anchors db).filter fun a => j.matching db d.base.event a ≠ [] :=
        List.mem_filter.mpr ⟨ha, decide_eq_true (List.ne_nil_of_mem hr)⟩
      exact ⟨a, hmem, (scalars_groupKeys_iff hd hs hl hn hk (hfirst a hmem) hx).mpr rfl⟩
    · rintro ⟨a, ha, rfl⟩
      exact ⟨_, hfirst a ha, rfl⟩

include hd hs hl hn in
theorem rows_grouped_perm (ho : j.selector = .omitted) (hk : j.RefersToKeys) {R : Relation}
    (hsplit : Text.split '.' rows = [rows]) (hlookup : env.lookup rows = some R)
    (hrows : R.rows = (j.pairs db d).map (rowsRow db d j)) :
    ((grouped rows j).rows db env).Perm (joinRows db d j) := by
  have hbindings : (grouped rows j).bindings db env =
      (j.pairs db d).map fun x => [(rows, rowsRow db d j x)] := by
    rw [Query.bindings_of_source rfl, TableRef.relation_of_lookup hsplit hlookup,
      TableRef.name_ofName hsplit, hrows, List.map_map]
    simp [grouped, Query.empty]
  have hgroups : (grouped rows j).rows db env =
      Query.selectGroups (grouped rows j).select (groupKeys rows j)
        ((grouped rows j).bindings db env) := rfl
  rw [hgroups, hbindings, Query.selectGroups, List.map_map]
  refine ((groups_perm hd hs hl hn hk).map _).trans (List.Perm.of_eq ?_)
  rw [List.map_map, joinRows]
  refine List.map_congr_left fun a ha => ?_
  obtain ⟨ha, hm⟩ := List.mem_filter.mp ha
  have hm := of_decide_eq_true hm
  obtain ⟨r, ms, hms⟩ := List.exists_cons_of_ne_nil hm
  have hr : (j.matching db d.base.event a).head?.getD [] ∈ j.matching db d.base.event a := by
    simp [hms]
  rw [← cells_grouped hl hn rows ho hm, ← filter_groupKeys hd hs hl hn hk ha hr]
  rfl

end

end Emission

end EventQuery
