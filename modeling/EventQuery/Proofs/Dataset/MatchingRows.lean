import EventQuery.Proofs.Dataset.BaseRows

/-! The rows that the queries of a join read: each base row beside every joined row that matches it.
The key of the base row divides them into the matching rows of one base row each, and the time of
the joined row tells these apart, so window functions over them are functions of the matching
rows. -/

namespace EventQuery

open Sql

/-- Each base row with every joined row that matches it. -/
def JoinedEvent.pairs (db : Database) (d : Dataset) (j : JoinedEvent) : List (Row × Row) :=
  (d.anchors db).flatMap fun a => (j.matching db d.base.event a).map fun r => (a, r)

theorem JoinedEvent.mem_pairs_iff {db : Database} {d : Dataset} {j : JoinedEvent} {a r : Row} :
    (a, r) ∈ j.pairs db d ↔ a ∈ d.anchors db ∧ r ∈ j.matching db d.base.event a := by
  simp [pairs]

/-- Lists that a key tells apart can be taken out of their concatenation by it. -/
theorem filter_flatMap_of_nodup {α β κ : Type} [DecidableEq κ] {l : List α} {f : α → List β}
    (key : α → κ) (key' : β → κ) (hn : (l.map key).Nodup)
    (hk : ∀ a ∈ l, ∀ b ∈ f a, key' b = key a) {a : α} (ha : a ∈ l) :
    (l.flatMap f).filter (fun b => key' b = key a) = f a := by
  induction l with
  | nil => cases ha
  | cons x l ih =>
    rw [List.map_cons, List.nodup_cons] at hn
    have hx : ∀ b ∈ f x, key' b = key x := hk x List.mem_cons_self
    have hl : ∀ y ∈ l, ∀ b ∈ f y, key' b = key y := fun y hy => hk y (List.mem_cons_of_mem _ hy)
    rw [List.flatMap_cons, List.filter_append]
    rcases List.mem_cons.mp ha with rfl | ha
    · have hrest : (l.flatMap f).filter (fun b => key' b = key a) = [] := by
        rw [List.filter_eq_nil_iff]
        intro b hb
        obtain ⟨y, hy, hb⟩ := List.mem_flatMap.mp hb
        rw [hl y hy b hb, decide_eq_true_eq]
        exact fun e => hn.1 (e ▸ List.mem_map_of_mem hy)
      rw [hrest, List.append_nil, List.filter_eq_self]
      exact fun b hb => decide_eq_true (hx b hb)
    · have hfirst : (f x).filter (fun b => key' b = key a) = [] := by
        rw [List.filter_eq_nil_iff]
        intro b hb
        rw [hx b hb, decide_eq_true_eq]
        exact fun e => hn.1 (e ▸ List.mem_map_of_mem ha)
      rw [hfirst, List.nil_append, ih hn.2 hl ha]

theorem Event.Suits.ne_of_isReserved {db : Database} {e : Event} {read : List String}
    (h : e.Suits db read) {column name : String} (hc : column ∈ (e.relation db).columns)
    (hn : isReserved name = true) : column ≠ name := by
  rintro rfl
  rw [h.free _ hc] at hn
  cases hn

namespace Emission

variable {db : Database} {env : List (String × Relation)}

/-- A base row beside a joined row, as the queries of a join bind them. -/
def bind (x : Row × Row) : Binding := [(base, ranked x.1), (joined, x.2)]

theorem scalar_base_bind {x : Row × Row} {column : String} (h : column ≠ rank) :
    (Expr.ofTable base column).scalar (bind x) = x.1.value column := by
  rw [bind, scalar_ofTable_cons, value_ranked h]

theorem scalar_joined_bind {x : Row × Row} {column : String} :
    (Expr.ofTable joined column).scalar (bind x) = x.2.value column := by
  rw [bind, scalar_ofTable_cons_of_ne (by decide), scalar_ofTable_cons]

/-! ## Folding functions -/

/-- What a folding function makes of the values of a group. -/
def folded (f : Aggregate) (vs : List Sql.Value) : Sql.Value :=
  match f with
  | .count => Sql.Value.count vs
  | .countDistinct => Sql.Value.countDistinct vs
  | .sum => Sql.Value.sum vs
  | .avg => Sql.Value.average vs
  | .min => Sql.Value.minimum vs
  | .max | .firstValue | .lastValue => Sql.Value.maximum vs

/-- Every folding function is written as a call of one argument that is evaluated as `folded`
says. -/
theorem fold_eq_call (f : Aggregate) (e : Expr) : ∃ function distinct,
    fold f e = .call function [e] distinct ∧ setFunction? function distinct = some (folded f) := by
  cases f <;> exact ⟨_, _, rfl, rfl⟩

/-! ## Conditions -/

section
variable {d : Dataset} {j : JoinedEvent} (hd : d.Suits db) (hj : j ∈ d.joins)

theorem isTrue_key_iff {x : Row × Row} {k : JoinKey} (h : k.baseColumn ≠ rank) :
    (Expr.compare .eq (.ofTable joined k.joinedColumn) (.ofTable base k.baseColumn)).isTrue
      (bind x) = JoinedEvent.agrees x.1 x.2 k := by
  rw [Bool.eq_iff_iff, isTrue_compare_iff, scalar_joined_bind, scalar_base_bind h]
  simp only [Comparison.holds, JoinedEvent.agrees, Bool.and_eq_true, decide_eq_true_eq]
  constructor
  · rintro ⟨hr, -, he⟩
    exact ⟨hr, he⟩
  · rintro ⟨hr, he⟩
    exact ⟨hr, he ▸ hr, he⟩

theorem isTrue_filterCondition {x : Row × Row} {f : ResolvedFilter} :
    (filterCondition f).isTrue (bind x) = JoinedEvent.passes x.2 f := by
  rw [Expr.isTrue, filterCondition, JoinedEvent.passes]
  simp only [Expr.compare, Expr.scalar, Operator.apply, scalar_joined_bind]

include hd

theorem partitionKey_ne_rank : d.base.partitionKey ≠ rank := by
  refine hd.base.ne_of_isReserved (hd.base.read _ ?_) (by decide)
  simp [Dataset.baseColumns]

theorem scalars_key_bind (x : Row × Row) :
    scalars (bind x) [.ofTable base d.base.partitionKey] = [x.1.value d.base.partitionKey] := by
  simp only [scalars, scalar_base_bind (partitionKey_ne_rank hd)]

include hj

theorem baseColumn_ne_rank {k : JoinKey} (hk : k ∈ j.keys) : k.baseColumn ≠ rank := by
  refine hd.base.ne_of_isReserved (hd.base.read _ ?_) (by decide)
  simp only [Dataset.baseColumns, List.mem_append, List.mem_flatMap]
  exact .inr ⟨j, hj, List.mem_map_of_mem hk⟩

theorem isTrue_timeCondition {x : Row × Row} (ha : x.1 ∈ d.anchors db)
    (hr : x.2 ∈ (j.event.relation db).rows) :
    (timeCondition d.base j).isTrue (bind x) = j.inTime d.base.event x.1 x.2 := by
  have hrank := hd.base.ne_of_isReserved hd.base.timestamp (by decide : isReserved rank = true)
  have hbase := hd.base.timed _ (Dataset.mem_anchors_iff.mp ha).1
  have hjoined := (hd.joins j hj).timed _ hr
  rw [Bool.eq_iff_iff, timeCondition, isTrue_compare_iff, scalar_joined_bind,
    scalar_base_bind hrank, and_iff_right hjoined, and_iff_right hbase, JoinedEvent.inTime]
  cases j.qualifier <;> rfl

/-- The condition holds for the joined rows that agree on all keys and lie on the right side of the
base row in time. -/
theorem isTrue_joinCondition {x : Row × Row} (ha : x.1 ∈ d.anchors db)
    (hr : x.2 ∈ (j.event.relation db).rows) :
    (joinCondition d.base j).isTrue (bind x) =
      (j.keys.all (JoinedEvent.agrees x.1 x.2) && j.inTime d.base.event x.1 x.2) := by
  rw [← isTrue_timeCondition hd hj ha hr, joinCondition]
  have hkeys : ∀ k ∈ j.keys, k.baseColumn ≠ rank := fun k hk => baseColumn_ne_rank hd hj hk
  generalize j.keys = keys at hkeys
  induction keys with
  | nil => rfl
  | cons k keys ih =>
    rw [List.foldr_cons, isTrue_and, isTrue_key_iff (hkeys k List.mem_cons_self),
      ih fun k hk => hkeys k (List.mem_cons_of_mem _ hk), List.all_cons, Bool.and_assoc]

/-- The rows read by the query of a join are the pairs of base rows and matching rows, in order. -/
theorem bindings_matchingRows (select : List SelectItem) {B : Relation}
    (hb : env.lookup base = some B) (hrows : B.rows = (d.anchors db).map ranked)
    (hs : env.lookup j.event.table = none) :
    (matchingRows d.base j select).bindings db env = (j.pairs db d).map bind := by
  have hbase : ((TableRef.ofName base).relation db env).rows = (d.anchors db).map ranked := by
    rw [TableRef.relation_of_lookup rfl hb, hrows]
  have hjoins : (matchingRows d.base j select).joins =
      [⟨.inner, ⟨Text.split '.' j.event.table, some joined⟩, joinCondition d.base j⟩] := rfl
  have hsource : TableRef.relation db env ⟨Text.split '.' j.event.table, some joined⟩ =
      j.event.relation db := TableRef.relation_of_lookup_eq_none rfl hs
  rw [Query.bindings_of_source rfl, hbase, hjoins, List.foldl_cons, List.foldl_nil, hsource,
    Join.extend_inner rfl, List.map_map, List.flatMap_map, List.filter_flatMap,
    JoinedEvent.pairs, List.map_flatMap]
  refine List.flatMap_congr fun a ha => ?_
  rw [List.filter_map, List.filter_filter, List.map_map, JoinedEvent.matching]
  refine congrArg _ (List.filter_congr fun r hr => ?_)
  have hcondition : (matchingRows d.base j select).condition.all (·.isTrue (bind (a, r))) =
      j.filter.all (JoinedEvent.passes r) := by
    rw [matchingRows, Option.all_map]
    exact congrArg (Option.all · j.filter) (funext fun f => isTrue_filterCondition)
  rw [← isTrue_joinCondition hd hj (x := (a, r)) ha hr, ← hcondition, Bool.and_comm]
  rfl

/-! ## Windows -/

/-- Times tell the matching rows apart, as they tell apart all rows of the event. -/
theorem nodup_matching (a : Row) :
    ((j.matching db d.base.event a).map (·.value j.event.timestampColumn)).Nodup :=
  (hd.joins j hj).apart.sublist (List.filter_sublist.map _)

variable (hs : d.base.selector ≠ .omitted)
include hs

omit hj in
/-- The partition of a row is made of the rows that match its base row. -/
theorem blockOf_bind {a r : Row} (ha : a ∈ d.anchors db) :
    blockOf ((j.pairs db d).map bind) [.ofTable base d.base.partitionKey] (bind (a, r)) =
      (j.matching db d.base.event a).map fun r => bind (a, r) := by
  have hkey : ∀ x ∈ d.anchors db, ∀ y ∈ (j.matching db d.base.event x).map fun r => (x, r),
      y.1.value d.base.partitionKey = x.value d.base.partitionKey := by
    intro x _ y hy
    obtain ⟨_, _, rfl⟩ := List.mem_map.mp hy
    rfl
  have hpairs := filter_flatMap_of_nodup _ _
    (Dataset.nodup_map_key_anchors hs hd.base.apart) hkey ha
  rw [blockOf, List.filter_map]
  simp only [Function.comp_def, scalars_key_bind hd, List.cons.injEq, and_true]
  rw [JoinedEvent.pairs, hpairs, List.map_map]
  rfl

/-- Within the pairs of a base row, no two have the same time. -/
theorem tellsApart_pairs : TellsApart (.ofTable joined j.event.timestampColumn)
    [.ofTable base d.base.partitionKey] ((j.pairs db d).map bind) := by
  rw [TellsApart, List.pairwise_map, JoinedEvent.pairs, List.pairwise_flatMap]
  simp only [scalars_key_bind hd, scalar_joined_bind]
  constructor
  · intro a _
    refine List.pairwise_map.mpr ((List.pairwise_map.mp (nodup_matching hd hj a)).imp ?_)
    intro r r' hne _
    exact hne
  · refine (List.pairwise_map.mp (Dataset.nodup_map_key_anchors hs hd.base.apart)).imp ?_
    intro a a' hne x hx y hy he
    obtain ⟨_, _, rfl⟩ := List.mem_map.mp hx
    obtain ⟨_, _, rfl⟩ := List.mem_map.mp hy
    exact absurd (List.cons.inj he).1 hne

section
variable {a r : Row} {i : Nat} (ha : a ∈ d.anchors db)
  (hp : (bind (a, r), i) ∈ ((j.pairs db d).map bind).zipIdx)
include ha hp

/-- The rank of a row is one exactly when it is picked among the rows that match its base row. -/
theorem rowNumber_pairs_iff (hr : r ∈ j.matching db d.base.event a) (ho : j.selector ≠ .omitted) :
    Expr.ofWindow ((j.pairs db d).map bind).zipIdx (bind (a, r), i)
        (.overWindow .rowNumber [.ofTable base d.base.partitionKey]
          (timeOrder joined j.event.timestampColumn j.selector) none) = .number 1 ↔
      r = j.selector.pick j.event.timestampColumn (j.matching db d.base.event a) := by
  rw [timeOrder_eq, (tellsApart_pairs hd hj hs).rowNumber_eq_one_iff hp, blockOf_bind hd hs ha,
    List.forall_mem_map]
  simp only [scalar_joined_bind]
  constructor
  · exact fun h => (Selector.pick_eq ho (nodup_matching hd hj a) hr h).symm
  · rintro rfl
    exact (Selector.pick_spec _ ho (List.ne_nil_of_mem hr)).2

omit hp in
/-- A row of the partition that no other comes before has the values of the picked row. -/
theorem scalar_of_extreme {s : Selector} (ho : s ≠ .omitted) {b : Binding}
    (hb : b ∈ blockOf ((j.pairs db d).map bind) [.ofTable base d.base.partitionKey] (bind (a, r)))
    (hextreme : ∀ x ∈ blockOf ((j.pairs db d).map bind) [.ofTable base d.base.partitionKey]
      (bind (a, r)), ¬s.direction.Before
        ((Expr.ofTable joined j.event.timestampColumn).scalar x)
        ((Expr.ofTable joined j.event.timestampColumn).scalar b)) (column : String) :
    (Expr.ofTable joined column).scalar b =
      (s.pick j.event.timestampColumn (j.matching db d.base.event a)).value column := by
  rw [blockOf_bind hd hs ha] at hb hextreme
  obtain ⟨m, hm, rfl⟩ := List.mem_map.mp hb
  simp only [List.forall_mem_map, scalar_joined_bind] at hextreme
  rw [scalar_joined_bind, Selector.pick_eq ho (nodup_matching hd hj a) hm hextreme]

theorem ofWindow_firstValue_pairs (column : String) :
    Expr.ofWindow ((j.pairs db d).map bind).zipIdx (bind (a, r), i)
        (positionalWindow d.base j (.firstValue (.ofTable joined column))) =
      Aggregate.firstValue.ofRows j.event.timestampColumn column
        (j.matching db d.base.event a) := by
  obtain ⟨b, hb, hfirst, hvalue⟩ :=
    (tellsApart_pairs hd hj hs).exists_firstValue hp (.ofTable joined column)
  exact hvalue.trans (scalar_of_extreme hd hj hs ha (s := .first) nofun hb hfirst column)

theorem ofWindow_lastValue_pairs (column : String) :
    Expr.ofWindow ((j.pairs db d).map bind).zipIdx (bind (a, r), i)
        (positionalWindow d.base j (.lastValue (.ofTable joined column))) =
      Aggregate.lastValue.ofRows j.event.timestampColumn column
        (j.matching db d.base.event a) := by
  obtain ⟨b, hb, hlast, hvalue⟩ :=
    (tellsApart_pairs hd hj hs).exists_lastValue hp (.ofTable joined column)
  exact hvalue.trans (scalar_of_extreme hd hj hs ha (s := .last) nofun hb hlast column)

omit hp hj in
/-- A folding function over the partition folds the values of the matching rows. -/
theorem ofWindow_fold_pairs (f : Aggregate) (column : String) :
    Expr.ofWindow ((j.pairs db d).map bind).zipIdx (bind (a, r), i)
        (.overWindow (fold f (.ofTable joined column)) [.ofTable base d.base.partitionKey] []
          none) =
      folded f ((j.matching db d.base.event a).map (·.value column)) := by
  obtain ⟨function, distinct, hfold, hset⟩ := fold_eq_call f (.ofTable joined column)
  rw [hfold, ofWindow_setFunction _ hset, blockOf_bind hd hs ha, List.map_map]
  refine congrArg _ (List.map_congr_left fun r _ => ?_)
  exact scalar_joined_bind

end

end

end Emission

end EventQuery
