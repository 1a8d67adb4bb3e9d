import EventQuery.Proofs.Dataset.BaseRows
import EventQuery.Proofs.Dataset.Selected
import EventQuery.Proofs.Sql.Sound

/-! The query of a dataset has a meaning over every database that suits the dataset: every query in
it refers to columns that are there, and to one column each. -/

namespace EventQuery

open Sql Query

namespace Emission

/-- The columns of a table in a database. -/
abbrev columnsIn (db : Database) (name : List String) : List String := (db.table name).columns

variable {db : Database} {d : Dataset} {j : JoinedEvent}

/-- A source that suits an event has no column of the name of the rank. -/
theorem nodup_rankedColumns {e : Event} {read : List String} (h : e.Suits db read) :
    ((e.relation db).columns ++ [rank]).Nodup := by
  refine List.nodup_append.mpr ⟨db.nodup _, List.nodup_singleton _, fun c hc name hname => ?_⟩
  rw [List.mem_singleton.mp hname]
  rintro rfl
  exact absurd (h.free _ hc) (by decide)

theorem nodup_joinColumns_iff (hl : ∀ c ∈ j.columns, isReserved c.label = false) :
    (joinColumns j).Nodup ↔ (j.columns.map (·.label)).Nodup := by
  have hfree : ∀ name, isReserved name = true → name ∉ j.columns.map (·.label) := by
    intro name hr hmem
    obtain ⟨c, hc, rfl⟩ := List.mem_map.mp hmem
    exact Bool.noConfusion ((hl c hc).symm.trans hr)
  have hkey := hfree baseKey (by decide)
  have hrank := hfree rank (by decide)
  rw [joinColumns, List.nodup_cons, List.mem_append, not_or]
  by_cases ho : j.selector = .omitted
  · simp [ho, rankColumn, hkey]
  · have hne : baseKey ≠ rank := by decide
    rw [rankColumn_of_ne ho, (List.perm_append_singleton rank _).nodup_iff, List.nodup_cons,
      and_iff_right hrank]
    exact and_iff_right ⟨hkey, by simpa using hne⟩

/-- What the queries of a join read from: the base rows and the joined table. -/
def matchingScope (db : Database) (d : Dataset) (j : JoinedEvent) : Scope :=
  [(base, (d.base.event.relation db).columns ++ [rank]), (joined, (j.event.relation db).columns)]

theorem nodup_matchingScope : ((matchingScope db d j).map Prod.fst).Nodup :=
  (by decide : [base, joined].Nodup)

section
variable (hd : d.Suits db)
include hd

theorem isSound_rankedBase : (rankedBase d.base).isSound (columnsIn db) [] = true := by
  have hscope : (rankedBase d.base).scope (columnsIn db) [] =
      [(source, (d.base.event.relation db).columns)] := scope_rankedBase
  have hresolves : ∀ c ∈ (d.base.event.relation db).columns,
      isSoundPlain [(source, (d.base.event.relation db).columns)] (.ofTable source c) = true :=
    fun c hc => isSoundPlain_ofTable (Scope.resolves_of_mem (by simp) (List.mem_singleton_self _)
      (db.nodup _) hc)
  rw [isSound_iff, hscope]
  refine ⟨List.nodup_nil, by simp, rfl, nofun, nofun, ?_⟩
  have hselect : (rankedBase d.base).select = [⟨.star (some source), none⟩,
      item (.overWindow .rowNumber [.ofTable source d.base.partitionKey]
        (timeOrder source d.base.event.timestampColumn d.base.selector) none) rank] := rfl
  rw [hselect, List.forall_mem_cons, List.forall_mem_singleton]
  refine ⟨isSoundItem_star (by simp), isSoundItem_of_window (isSoundWindow_overWindow (.inl ?_)
    nofun ?_ ?_ (.inl rfl))⟩
  · simp
  · refine List.forall_mem_singleton.mpr (hresolves _ (hd.base.read _ ?_))
    simp [Dataset.baseColumns]
  · rw [timeOrder_eq]
    exact List.forall_mem_singleton.mpr (hresolves _ hd.base.timestamp)

omit hd in
/-- The rows of rank one of a query whose columns are different. -/
theorem isSound_rankOne {source : List String → List String} {outer : Scope} {name : String}
    {columns : List String} (hs : Text.split '.' name = [name])
    (h : outer.lookup name = some columns) (hn : columns.Nodup) (hr : rank ∈ columns) :
    (rankOne name).isSound source outer = true := by
  rw [isSound_iff, scope_of_lookup rfl rfl hs h]
  refine ⟨List.nodup_nil, by simp, rfl, ?_, nofun, ?_⟩
  · rintro _ ⟨rfl⟩
    refine isSoundPlain_binary (isSoundPlain_ofTable ?_) (isSoundPlain_literal _)
    exact Scope.resolves_of_mem (by simp) (List.mem_singleton_self _) hn hr
  · exact List.forall_mem_singleton.mpr (isSoundItem_star (by simp))

/-! ## Joins -/

theorem isSoundPlain_base {c : String} (hc : c ∈ (d.base.event.relation db).columns) :
    isSoundPlain (matchingScope db d j) (.ofTable base c) = true :=
  isSoundPlain_ofTable (Scope.resolves_of_mem nodup_matchingScope List.mem_cons_self
    (nodup_rankedColumns hd.base) (List.mem_append_left _ hc))

theorem isSoundPlain_baseColumn {c : String} (hc : c ∈ d.baseColumns) :
    isSoundPlain (matchingScope db d j) (.ofTable base c) = true :=
  isSoundPlain_base hd (hd.base.read _ hc)

omit hd in
theorem isSoundPlain_joined {c : String} (hc : c ∈ (j.event.relation db).columns) :
    isSoundPlain (matchingScope db d j) (.ofTable joined c) = true :=
  isSoundPlain_ofTable (Scope.resolves_of_mem nodup_matchingScope
    (List.mem_cons_of_mem _ List.mem_cons_self) (db.nodup _) hc)

theorem isSoundPlain_partitionKey :
    isSoundPlain (matchingScope db d j) (.ofTable base d.base.partitionKey) = true :=
  isSoundPlain_baseColumn hd (by simp [Dataset.baseColumns])

variable (hj : j ∈ d.joins)
include hj

/-- The columns that the condition of a join compares are columns of the two tables it joins. -/
theorem isSoundPlain_joinCondition :
    isSoundPlain (matchingScope db d j) (joinCondition d.base j) = true := by
  have hkeys : ∀ k ∈ j.keys, k.joinedColumn ∈ (j.event.relation db).columns ∧
      k.baseColumn ∈ d.baseColumns := by
    intro k hk
    refine ⟨(hd.joins j hj).read _ ?_, ?_⟩
    · exact List.mem_append_left _ (List.mem_append_left _ (List.mem_map_of_mem hk))
    · exact List.mem_append_right _ (List.mem_flatMap.mpr ⟨j, hj, List.mem_map_of_mem hk⟩)
  rw [joinCondition]
  generalize j.keys = keys at hkeys
  induction keys with
  | nil =>
    exact isSoundPlain_binary (isSoundPlain_joined (hd.joins j hj).timestamp)
      (isSoundPlain_base hd hd.base.timestamp)
  | cons k keys ih =>
    obtain ⟨hjoined, hbase⟩ := hkeys k List.mem_cons_self
    refine isSoundPlain_binary ?_ (ih fun k hk => hkeys k (List.mem_cons_of_mem _ hk))
    exact isSoundPlain_binary (isSoundPlain_joined hjoined) (isSoundPlain_baseColumn hd hbase)

theorem isSound_matchingRows {outer : Scope} {select : List SelectItem}
    (hb : outer.lookup base = some (rankedColumns (columnsIn db) d.base))
    (ht : outer.lookup j.event.table = none)
    (hs : ∀ item ∈ select, isSoundItem (matchingScope db d j) [] item = true) :
    (matchingRows d.base j select).isSound (columnsIn db) outer = true := by
  have hbase : (TableRef.ofName base).columns (columnsIn db) outer =
      (d.base.event.relation db).columns ++ [rank] := columns_of_lookup rfl hb
  have hjoined : TableRef.columns (columnsIn db) outer
      { TableRef.ofName j.event.table with label := some joined } =
      (j.event.relation db).columns := columns_of_lookup_eq_none rfl ht
  have hscope : (matchingRows d.base j select).scope (columnsIn db) outer =
      matchingScope db d j := by
    rw [matchingScope, ← hbase, ← hjoined]
    rfl
  rw [isSound_iff, hscope]
  refine ⟨List.nodup_nil, nodup_matchingScope, ?_, ?_, nofun, hs⟩
  · have hjoins : areSoundJoins (·.columns (columnsIn db) outer)
        ((matchingRows d.base j select).source.toList.map fun t =>
          (t.name, t.columns (columnsIn db) outer)) (matchingRows d.base j select).joins =
        (isSoundPlain ((matchingRows d.base j select).scope (columnsIn db) outer)
          (joinCondition d.base j) && true) := rfl
    rw [hjoins, hscope, Bool.and_true]
    exact isSoundPlain_joinCondition hd hj
  · intro e he
    obtain ⟨f, hf, rfl⟩ := Option.map_eq_some_iff.mp he
    refine isSoundPlain_binary (isSoundPlain_joined ((hd.joins j hj).read _ ?_))
      (isSoundPlain_literal _)
    exact List.mem_append_right _ (List.mem_map_of_mem (Option.mem_toList.mpr hf))

/-- A function over a window that the key of the base row divides. -/
theorem isSoundWindow_matching {function : String} {args : List Expr} {distinct : Bool}
    {order : List (Expr × Option Direction)} {frame : Option Frame}
    (hf : function ∈ ["ROW_NUMBER", "FIRST_VALUE", "LAST_VALUE"] ∨
      (setFunction? function distinct).isSome)
    (ha : ∀ e ∈ args, isSoundPlain (matchingScope db d j) e = true)
    (ho : order = [] ∨ ∃ s, order = timeOrder joined j.event.timestampColumn s)
    (hw : frame = none ∨ frame = some .wholePartition) :
    isSoundWindow (matchingScope db d j) (.overWindow (.call function args distinct)
      [.ofTable base d.base.partitionKey] order frame) = true := by
  refine isSoundWindow_overWindow hf ha
    (List.forall_mem_singleton.mpr (isSoundPlain_partitionKey hd)) ?_ hw
  rcases ho with rfl | ⟨s, rfl⟩
  · nofun
  · rw [timeOrder_eq]
    exact List.forall_mem_singleton.mpr (isSoundPlain_joined (hd.joins j hj).timestamp)

theorem isSoundPlain_physical {c : JoinedColumn} (hc : c ∈ j.columns) :
    isSoundPlain (matchingScope db d j) (.ofTable joined c.value.physical) = true := by
  refine isSoundPlain_joined ((hd.joins j hj).read _ ?_)
  exact List.mem_append_left _ (List.mem_append_right _ (List.mem_map.mpr ⟨c, hc, rfl⟩))

/-- One case for each kind of expression that a joined query selects. -/
theorem isSoundWindow_of_isMatched {e : Expr} (he : IsMatched d.base j e) :
    isSoundWindow (matchingScope db d j) e = true := by
  cases he with
  | key => exact isSoundWindow_of_plain (isSoundPlain_partitionKey hd)
  | plain hc => exact isSoundWindow_of_plain (isSoundPlain_physical hd hj hc)
  | positional hc hf =>
    exact isSoundWindow_matching hd hj (.inl (List.mem_cons_of_mem _ hf))
      (List.forall_mem_singleton.mpr (isSoundPlain_physical hd hj hc)) (.inr ⟨.first, rfl⟩)
      (.inr rfl)
  | folded f hc =>
    have hplain := isSoundPlain_physical hd hj hc
    cases f <;>
      exact isSoundWindow_matching hd hj (.inr rfl) (List.forall_mem_singleton.mpr hplain)
        (.inl rfl) (.inl rfl)
  | rank =>
    exact isSoundWindow_matching hd hj (.inl List.mem_cons_self) nofun (.inr ⟨_, rfl⟩) (.inl rfl)

/-- The first query of a join is sound where the base rows are in scope and no named query hides the
joined table. -/
theorem isSound_innerQuery {outer : Scope}
    (hb : outer.lookup base = some (rankedColumns (columnsIn db) d.base))
    (ht : outer.lookup j.event.table = none) :
    (innerQuery d.base j).isSound (columnsIn db) outer = true := by
  obtain ⟨select, hquery, hselect⟩ := exists_innerQuery_eq d.base j
  rw [hquery]
  refine isSound_matchingRows hd hj hb ht fun x hx => ?_
  obtain ⟨e, label, rfl, he⟩ := hselect x hx
  exact isSoundItem_of_window (isSoundWindow_of_isMatched hd hj he)

end

/-- What is grouped by is read outside of functions, and nothing else is. -/
theorem isSound_grouped {source : List String → List String} {outer : Scope} {rows : String}
    (hs : Text.split '.' rows = [rows]) (h : outer.lookup rows = some (joinColumns j))
    (hn : (joinColumns j).Nodup) : (grouped rows j).isSound source outer = true := by
  have hplain : ∀ c ∈ joinColumns j,
      isSoundPlain [(rows, joinColumns j)] (.ofTable rows c) = true := fun c hc =>
    isSoundPlain_ofTable (Scope.resolves_of_mem (by simp) (List.mem_singleton_self _) hn hc)
  have hgroups : ∀ e ∈ (grouped rows j).groups,
      isSoundPlain [(rows, joinColumns j)] e = true := by
    intro e he
    obtain ⟨column, hc, rfl⟩ := exists_of_mem_groups he
    exact hplain column hc
  rw [isSound_iff, scope_of_lookup rfl rfl hs h]
  refine ⟨List.nodup_nil, by simp, rfl, nofun, hgroups, fun x hx => ?_⟩
  have hx := mem_groups_or_exists_fold hx
  obtain ⟨e, label⟩ := x
  rcases hx with he | ⟨f, column, hc, rfl⟩
  · obtain ⟨column, hc, rfl⟩ := exists_of_mem_groups he
    exact isSoundItem_of_mem_groups (hplain column hc) he
  · cases f <;>
      exact isSoundItem_of_setFunction (List.cons_ne_nil _ _) rfl
        (List.forall_mem_singleton.mpr (hplain column hc))

theorem isSound_outerQuery {source : List String → List String} {outer : Scope} {i : Nat}
    (h : outer.lookup (innerName i j.selector) = some (joinColumns j))
    (hn : (joinColumns j).Nodup) : (outerQuery i j).isSound source outer = true := by
  by_cases ho : j.selector = .omitted
  · rw [outerQuery_of_eq ho]
    exact isSound_grouped (split_innerName i j.selector) h hn
  · rw [outerQuery_of_ne ho]
    refine isSound_rankOne (split_innerName i j.selector) h hn ?_
    simp [joinColumns, rankColumn_of_ne ho]

/-! ## The result -/

/-- The condition of each of the last joins reads the base rows and its own. -/
theorem areSoundJoins_result {columns : TableRef → List String} {rows : List String}
    {joins : List (JoinedEvent × Nat)} {scope : Scope}
    (hc : ∀ p ∈ joins, columns (.ofName (joinName p.2)) = joinColumns p.1)
    (hn : ((scope ++ joins.map fun p => (joinName p.2, joinColumns p.1)).map Prod.fst).Nodup)
    (hb : (base, rows) ∈ scope) (hrows : rows.Nodup) (hkey : d.base.partitionKey ∈ rows)
    (hj : ∀ p ∈ joins, (joinColumns p.1).Nodup) :
    areSoundJoins columns scope (joins.map fun p => resultJoin d.base (joinName p.2)) = true := by
  induction joins generalizing scope with
  | nil => rfl
  | cons p joins ih =>
    have hname : (resultJoin d.base (joinName p.2)).table.name = joinName p.2 :=
      TableRef.name_ofName (split_joinName p.2)
    have hcolumns : columns (resultJoin d.base (joinName p.2)).table = joinColumns p.1 :=
      hc p List.mem_cons_self
    have hassoc : scope ++ (joinName p.2, joinColumns p.1) ::
        joins.map (fun p => (joinName p.2, joinColumns p.1)) =
        (scope ++ [(joinName p.2, joinColumns p.1)]) ++
          joins.map (fun p => (joinName p.2, joinColumns p.1)) := by simp
    rw [List.map_cons, hassoc] at hn
    have hnames : ((scope ++ [(joinName p.2, joinColumns p.1)]).map Prod.fst).Nodup := by
      rw [List.map_append] at hn
      exact (List.nodup_append.mp hn).1
    rw [List.map_cons, areSoundJoins, hname, hcolumns, Bool.and_eq_true]
    refine ⟨isSoundPlain_binary (isSoundPlain_ofTable ?_) (isSoundPlain_ofTable ?_),
      ih (fun q hq => hc q (List.mem_cons_of_mem _ hq)) hn (List.mem_append_left _ hb)
        fun q hq => hj q (List.mem_cons_of_mem _ hq)⟩
    · exact Scope.resolves_of_mem hnames (List.mem_append_right _ (List.mem_singleton_self _))
        (hj p List.mem_cons_self) List.mem_cons_self
    · exact Scope.resolves_of_mem hnames (List.mem_append_left _ hb) hrows hkey

section
variable (hd : d.Suits db) (hn : ∀ j ∈ d.joins, (joinColumns j).Nodup)
include hd hn

/-- Joins that have distinct labels leave every reference of the final query unambiguous. -/
theorem isSound_query :
    (query d).isSound (columnsIn db) (Query.cteColumns (columnsIn db) (ctes d) []) = true := by
  have hn : ∀ p ∈ d.joins.zipIdx, (joinColumns p.1).Nodup := fun p hp =>
    hn p.1 (List.fst_mem_of_mem_zipIdx hp)
  have hnodup : (rankedColumns (columnsIn db) d.base).Nodup := nodup_rankedColumns hd.base
  have hread : ∀ c ∈ d.baseColumns, c ∈ rankedColumns (columnsIn db) d.base := fun c hc =>
    List.mem_append_left _ (hd.base.read c hc)
  rw [isSound_iff, scope_query]
  refine ⟨nodup_names_ctes d, nodup_resultScope, ?_, nofun, nofun, ?_⟩
  · have hsource : (query d).source.toList.map (fun t => (t.name, t.columns (columnsIn db)
        (Query.cteColumns (columnsIn db) (ctes d) []))) =
        [(base, rankedColumns (columnsIn db) d.base)] :=
      congrArg (fun columns => [(base, columns)])
        (columns_of_lookup (t := .ofName base) rfl lookup_base)
    rw [hsource]
    exact areSoundJoins_result
      (fun p hp => columns_of_lookup (split_joinName p.2) (lookup_joinName hp)) nodup_resultScope
      (List.mem_singleton_self _) hnodup (hread _ (by simp [Dataset.baseColumns])) hn
  · have hjoin : ∀ p ∈ d.joins.zipIdx, ∀ c ∈ p.1.columns,
        isSoundPlain (resultScope (columnsIn db) d) (.ofTable (joinName p.2) c.label) = true :=
      fun p hp c hc => isSoundPlain_ofTable (Scope.resolves_of_mem nodup_resultScope
        (List.mem_cons_of_mem _ (List.mem_map_of_mem hp)) (hn p hp) (label_mem_joinColumns hc))
    intro x hx
    obtain ⟨e, label, rfl, he⟩ := exists_of_mem_results hx
    refine isSoundItem_of_window (isSoundWindow_of_plain ?_)
    cases he with
    | base hc =>
      refine isSoundPlain_ofTable (Scope.resolves_of_mem nodup_resultScope List.mem_cons_self
        hnodup (hread _ ?_))
      exact List.mem_append_left _ (List.mem_cons_of_mem _ (List.mem_map_of_mem hc))
    | plain hp hc => exact hjoin _ hp _ hc
    | count hp hc => exact isSoundPlain_coalesce (hjoin _ hp _ hc) (isSoundPlain_literal _)

/-- Every reference in the query of a dataset names one column. -/
theorem isMeaningful_query (ht : d.TablesFree) : (query d).IsMeaningful (columnsIn db) := by
  have htables : ∀ j ∈ d.joins, j.event.table ≠ baseRanked ∧ j.event.table ≠ base ∧
      j.event.table ∉ joinNames d.joins.zipIdx := by
    intro j hj
    have := ht j hj
    rw [names_ctes, List.mem_cons, List.mem_cons, not_or, not_or] at this
    exact this
  have hranked : (rankedColumns (columnsIn db) d.base).Nodup := nodup_rankedColumns hd.base
  refine forall_parts_query (fun outer =>
    outer.lookup base = some (rankedColumns (columnsIn db) d.base) ∧
      ∀ j ∈ d.joins, outer.lookup j.event.table = none) (isSound_rankedBase hd) ?_ ?_ ?_ ?_ ?_
    (isSound_query hd hn)
  · exact isSound_rankOne rfl List.lookup_cons_self hranked (by simp [rankedColumns])
  · refine ⟨List.lookup_cons_self, fun j hj => ?_⟩
    obtain ⟨hne, hne', -⟩ := htables j hj
    rw [List.lookup_cons, beq_false_of_ne hne', List.lookup_cons, beq_false_of_ne hne]
    rfl
  · rintro outer name columns hname ⟨hbase, hnone⟩
    have hne : base ≠ name := fun h => notMem_joinNames (by decide) _ (h ▸ hname)
    refine ⟨by rw [List.lookup_cons, beq_false_of_ne hne, hbase], fun j hj => ?_⟩
    have hne : j.event.table ≠ name := fun h => (htables j hj).2.2 (h ▸ hname)
    rw [List.lookup_cons, beq_false_of_ne hne, hnone j hj]
  · rintro outer ⟨hbase, hnone⟩ p hp
    have hj := List.fst_mem_of_mem_zipIdx hp
    exact isSound_innerQuery hd hj hbase (hnone p.1 hj)
  · rintro outer - p hp hlookup
    exact isSound_outerQuery hlookup (hn p.1 (List.fst_mem_of_mem_zipIdx hp))

end

/-! ## What a meaning tells -/

/-- A label that each column of a join has to itself. -/
theorem nodup_labels_of_count (h : ∀ c ∈ j.columns, (joinColumns j).count c.label = 1) :
    (j.columns.map (·.label)).Nodup := by
  rw [List.nodup_iff_count_le_one]
  intro label
  by_cases hm : label ∈ j.columns.map (·.label)
  · obtain ⟨c, hc, rfl⟩ := List.mem_map.mp hm
    have hsub : (j.columns.map (·.label)).Sublist (joinColumns j) :=
      (List.sublist_append_left _ _).trans (List.sublist_cons_self _ _)
    exact (hsub.count_le _).trans (h c hc).le
  · rw [List.count_eq_zero_of_not_mem hm]
    exact Nat.zero_le 1

theorem count_of_resolves {source : List String → List String} {p : JoinedEvent × Nat}
    (hp : p ∈ d.joins.zipIdx) {column : String}
    (h : (resultScope source d).Resolves (some (joinName p.2), column)) :
    (joinColumns p.1).count column = 1 := by
  rw [Scope.Resolves, Scope.within_of_mem nodup_resultScope
    (List.mem_cons_of_mem _ (List.mem_map_of_mem hp))] at h
  exact h

theorem mem_references_resultItem (name : String) (c : JoinedColumn) :
    (some name, c.label) ∈ (resultItem name c).expr.references := by
  obtain ⟨label, value⟩ := c
  cases value with
  | reference source physical => exact List.mem_singleton_self _
  | aggregation f argument physical => cases f <;> exact List.mem_singleton_self _

theorem resultItem_mem_results {p : JoinedEvent × Nat} (hp : p ∈ d.joins.zipIdx)
    {c : JoinedColumn} (hc : c ∈ p.1.columns) : resultItem (joinName p.2) c ∈ results d :=
  List.mem_append_right _ (List.mem_flatMap.mpr ⟨p, hp, List.mem_map_of_mem hc⟩)

theorem exists_mem_zipIdx (hj : j ∈ d.joins) : ∃ i, (j, i) ∈ d.joins.zipIdx := by
  rw [← List.zipIdx_map_fst 0 d.joins, List.mem_map] at hj
  obtain ⟨⟨_, i⟩, hi, rfl⟩ := hj
  exact ⟨i, hi⟩

section
variable {source : List String → List String} (h : (query d).IsMeaningful source)
include h

/-- If the query has a meaning, the labels of each join are distinct. -/
theorem nodup_labels_of_isMeaningful (hj : j ∈ d.joins) : (j.columns.map (·.label)).Nodup := by
  obtain ⟨i, hi⟩ := exists_mem_zipIdx hj
  have hsound := h _ query_mem_parts
  rw [isSound_iff, scope_query] at hsound
  refine nodup_labels_of_count fun c hc => ?_
  exact count_of_resolves hi (refersOnly_of_isSoundItem
    (hsound.2.2.2.2.2 _ (resultItem_mem_results hi hc)) _ (mem_references_resultItem _ c))

theorem rank_notMem_of_isMeaningful :
    rank ∉ source (Text.split '.' d.base.event.table) := by
  have hsound := h ([(baseRanked, rankedColumns source d.base)], rankOne baseRanked)
    (by rw [parts_query]; simp)
  have hscope : (rankOne baseRanked).scope source [(baseRanked, rankedColumns source d.base)] =
      [(baseRanked, rankedColumns source d.base)] :=
    scope_of_lookup rfl rfl rfl List.lookup_cons_self
  rw [isSound_iff, hscope] at hsound
  have hresolves := refersOnly_of_isSoundPlain (hsound.2.2.2.1 _ rfl) (some baseRanked, rank)
    (by simp [Expr.compare, Expr.references, Expr.ofTable])
  rw [Scope.Resolves, within_singleton, rankedColumns, List.count_append] at hresolves
  intro hmem
  have := List.count_pos_iff.mpr hmem
  simp at hresolves
  omega

theorem partitionKey_mem_of_isMeaningful :
    d.base.partitionKey ∈ source (Text.split '.' d.base.event.table) := by
  have hsound := h ([], rankedBase d.base) (by rw [parts_query]; simp)
  rw [isSound_iff, scope_rankedBase] at hsound
  have hresolves := refersOnly_of_isSoundItem (hsound.2.2.2.2.2
    (item (baseRank d.base) rank) (List.mem_cons_of_mem _ (List.mem_singleton_self _)))
    (some Emission.source, d.base.partitionKey)
    (by simp [item, baseRank, Expr.overWindow, Expr.references, referencesOf, Expr.ofTable])
  rw [Scope.Resolves, within_singleton] at hresolves
  exact List.count_pos_iff.mp (hresolves.symm ▸ Nat.one_pos)

end

end Emission

end EventQuery
