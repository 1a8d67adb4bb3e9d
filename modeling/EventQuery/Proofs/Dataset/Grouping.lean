import EventQuery.Proofs.Dataset.GroupedRows
import EventQuery.Proofs.Dataset.Lowering
import EventQuery.Proofs.Dataset.Soundness

/-! Groups of a join without a selector. A plain column of such a join has the name of a key, but an
attribute of this name may stand for a column of its own. Where it does not, the groups are those of
the base rows, and the named query of the join has at most one row for each key of the base. -/

namespace EventQuery

open Sql

namespace Emission

variable {db : Database} {env : List (String × Relation)} {d : Dataset} {j : JoinedEvent}
  {B : Relation}

/-! ## Joined rows -/

theorem value_of_joinCondition {b r : Row}
    (h : (joinCondition d.base j).isTrue [(base, b), (joined, r)] = true) {k : JoinKey}
    (hk : k ∈ j.keys) : r.value k.joinedColumn = b.value k.baseColumn := by
  rw [joinCondition] at h
  generalize j.keys = keys at h hk
  induction keys with
  | nil => cases hk
  | cons k' keys ih =>
    rw [List.foldr_cons, isTrue_and, Bool.and_eq_true, isTrue_compare_iff,
      scalar_ofTable_cons_of_ne (by decide), scalar_ofTable_cons, scalar_ofTable_cons] at h
    rcases List.mem_cons.mp hk with rfl | hk
    · exact of_decide_eq_true h.1.2.2
    · exact ih h.2 hk

/-- A row of a join is made of a base row and a joined row that agrees with it in the keys. -/
theorem exists_of_mem_matchingRows {select : List SelectItem} (hb : env.lookup base = some B)
    {x : Binding} (hx : x ∈ (matchingRows d.base j select).bindings db env) :
    ∃ b ∈ B.rows, ∃ r, x = [(base, b), (joined, r)] ∧
      ∀ k ∈ j.keys, r.value k.joinedColumn = b.value k.baseColumn := by
  have hjoins : (matchingRows d.base j select).joins =
      [⟨.inner, ⟨Text.split '.' j.event.table, some joined⟩, joinCondition d.base j⟩] := rfl
  rw [Query.bindings_of_source rfl, TableRef.relation_of_lookup (t := .ofName base) rfl hb, hjoins,
    List.foldl_cons, List.foldl_nil, Join.extend_inner rfl, List.flatMap_map] at hx
  obtain ⟨b, hb, hx⟩ := List.mem_flatMap.mp (List.mem_filter.mp hx).1
  obtain ⟨r, hr, rfl⟩ := List.mem_map.mp hx
  exact ⟨b, hb, r, rfl, fun k hk => value_of_joinCondition (List.mem_filter.mp hr).2 hk⟩

theorem cells_rowsItem_eq (c : JoinedColumn) (value : Expr → Sql.Value) (x : Binding) :
    (rowsItem d.base j c).cells value x = [(c.label, value (rowsItem d.base j c).expr)] := by
  obtain ⟨label, value⟩ := c
  cases value with
  | reference source physical => rfl
  | aggregation f argument physical => cases f <;> rfl

/-- The plain columns of a row before grouping are given by the base row in it. -/
theorem exists_of_mem_joinedRows (hb : env.lookup base = some B) (hn : (joinColumns j).Nodup)
    {x : Row} (hx : x ∈ (joinedRows d.base j).rows db env) :
    ∃ b ∈ B.rows, x.value baseKey = b.value d.base.partitionKey ∧
      ∀ c ∈ j.columns, ∀ k ∈ j.keys, c.value.plain? = some k.joinedColumn →
        x.value c.label = b.value k.baseColumn := by
  rw [Query.rows_of_groups_eq_nil rfl, Query.selectRows_eq, List.mem_map] at hx
  obtain ⟨⟨_, i⟩, hp, rfl⟩ := hx
  obtain ⟨b, hb, r, rfl, hkeys⟩ := exists_of_mem_matchingRows hb (List.fst_mem_of_mem_zipIdx hp)
  rw [joinColumns, List.nodup_cons, List.mem_append, not_or, List.nodup_append] at hn
  obtain ⟨⟨hbaseKey, -⟩, hlabels, -⟩ := hn
  have hselect : (joinedRows d.base j).select =
      keyItem d.base :: j.columns.map (rowsItem d.base j) := rfl
  rw [hselect, Query.cellsOf, List.flatMap_cons,
    flatMap_cells fun c _ => cells_rowsItem_eq c _ _]
  refine ⟨b, hb, ?_, fun c hc k hk hplain => ?_⟩
  · exact Row.value_cons_self.trans scalar_ofTable_cons
  · have hne : c.label ≠ baseKey := fun h => hbaseKey (h ▸ List.mem_map_of_mem hc)
    refine (Row.value_cons_of_ne hne).trans ((Row.value_map hlabels hc).trans ?_)
    obtain ⟨label, value⟩ := c
    cases value with
    | aggregation f argument physical => cases hplain
    | reference source physical =>
      cases hplain
      rw [← hkeys k hk]
      exact (scalar_ofTable_cons_of_ne (by decide)).trans scalar_ofTable_cons

/-! ## Groups -/

theorem value_baseKey_cells_grouped {rows : String} {group : List Binding} {x : Row}
    (h : group.head? = some [(rows, x)]) :
    Row.value ((grouped rows j).select.flatMap
      (·.cells (Expr.ofGroup group) (group.head?.getD []))) baseKey = x.value baseKey := by
  have hkey : Expr.ofGroup group (.ofTable rows baseKey) = x.value baseKey := by
    show (Expr.ofTable rows baseKey).scalar (group.head?.getD []) = _
    rw [h]
    exact scalar_ofTable_cons
  exact Row.value_cons_self.trans hkey

/-- A query of groups that its first key tells apart has different values of this key. -/
theorem nodup_map_baseKey_grouped {rows : String} {R : Relation}
    (hs : Text.split '.' rows = [rows]) (hr : env.lookup rows = some R)
    (hgroups : ∀ x ∈ R.rows, ∀ y ∈ R.rows, x.value baseKey = y.value baseKey →
      scalars [(rows, x)] (groupKeys rows j) = scalars [(rows, y)] (groupKeys rows j)) :
    (((grouped rows j).rows db env).map (·.value baseKey)).Nodup := by
  have hbindings : (grouped rows j).bindings db env = R.rows.map fun x => [(rows, x)] := by
    rw [Query.bindings_of_source rfl, TableRef.relation_of_lookup hs hr, TableRef.name_ofName hs]
    simp [grouped, Query.empty]
  have hrows : (grouped rows j).rows db env =
      Query.selectGroups (grouped rows j).select (groupKeys rows j)
        ((grouped rows j).bindings db env) := rfl
  rw [hrows, hbindings, Query.selectGroups, List.map_map, List.map_map]
  -- each group is that of a row, and its first row is one of them
  have hfirst : ∀ key ∈ (R.rows.map ((fun b => scalars b (groupKeys rows j)) ∘
      fun x => [(rows, x)])).dedup, ∃ x ∈ R.rows,
      scalars [(rows, x)] (groupKeys rows j) = key ∧
      ((R.rows.map fun x => [(rows, x)]).filter fun b =>
        scalars b (groupKeys rows j) = key).head? = some [(rows, x)] := by
    intro key hkey
    obtain ⟨x, hx, rfl⟩ := List.mem_map.mp (List.mem_dedup.mp hkey)
    have hmem : [(rows, x)] ∈ (R.rows.map fun x => [(rows, x)]).filter fun b =>
        scalars b (groupKeys rows j) = scalars [(rows, x)] (groupKeys rows j) :=
      List.mem_filter.mpr ⟨List.mem_map.mpr ⟨x, hx, rfl⟩, decide_eq_true rfl⟩
    obtain ⟨b, rest, hlist⟩ := List.exists_cons_of_ne_nil (List.ne_nil_of_mem hmem)
    have hb := List.mem_cons_self (a := b) (l := rest)
    rw [← hlist, List.mem_filter, List.mem_map] at hb
    obtain ⟨⟨y, hy, rfl⟩, hkey⟩ := hb
    exact ⟨y, hy, of_decide_eq_true hkey, congrArg List.head? hlist⟩
  refine (List.nodup_dedup _).map_on fun key hkey key' hkey' he => ?_
  obtain ⟨x, hx, rfl, hhead⟩ := hfirst key hkey
  obtain ⟨y, hy, rfl, hhead'⟩ := hfirst key' hkey'
  refine hgroups x hx y hy ?_
  rw [← value_baseKey_cells_grouped hhead, ← value_baseKey_cells_grouped hhead']
  exact he

/-- The named query of a join without a selector has at most one row for each key of the base,
where its plain columns are columns that it matches on. -/
theorem exists_nodup_map_baseKey (h : (query d).IsMeaningful (columnsIn db))
    (hl : ∀ c ∈ j.columns, isReserved c.label = false) {i : Nat} (hj : (j, i) ∈ d.joins.zipIdx)
    (ho : j.selector = .omitted) (hk : j.RefersToKeys) :
    ∃ R, (Query.runCtes db (ctes d) []).lookup (joinName i) = some R ∧
      (R.rows.map (·.value baseKey)).Nodup := by
  have hn : (joinColumns j).Nodup := (nodup_joinColumns_iff hl).mpr
    (nodup_labels_of_isMeaningful h (List.fst_mem_of_mem_zipIdx hj))
  have hfree : ∀ r ∈ (d.base.event.relation db).rows, rank ∉ r.map Prod.fst := by
    intro r hr
    have haligned : r.map Prod.fst = (d.base.event.relation db).columns := db.aligned _ r hr
    rw [haligned]
    exact rank_notMem_of_isMeaningful h
  have hkey : d.base.partitionKey ≠ rank := fun he =>
    rank_notMem_of_isMeaningful h (he ▸ partitionKey_mem_of_isMeaningful h)
  obtain ⟨before, after, hctes, hafter⟩ := exists_ctes_eq hj
  obtain ⟨B, hb, hrows⟩ := exists_lookup_base db d before
  have hinner := Query.lookup_runCtes_concat db (ctesUpTo d before) (innerName i j.selector)
    (innerQuery d.base j) []
  refine ⟨_, by rw [hctes]; exact Query.lookup_runCtes hafter, ?_⟩
  rw [Query.rows_run, outerQuery_of_eq ho]
  refine nodup_map_baseKey_grouped (split_innerName i j.selector) hinner fun x hx y hy he => ?_
  rw [innerQuery_of_eq ho, Query.rows_run] at hx hy
  obtain ⟨a, ha, hxa, hx⟩ := exists_of_mem_joinedRows hb hn hx
  obtain ⟨b, hb, hyb, hy⟩ := exists_of_mem_joinedRows hb hn hy
  -- Rows with one key come from one base row, so they agree on the columns matched with it.
  have hab : a = b := by
    refine List.inj_on_of_nodup_map (hrows ▸ nodup_map_key_rankedBase hfree hkey) ha hb ?_
    rw [← hxa, he, hyb]
  subst hab
  rw [groupKeys, scalars, scalars, scalar_ofTable_cons, scalar_ofTable_cons, he, scalars_eq_map,
    scalars_eq_map]
  refine congrArg _ (List.map_congr_left fun e he => ?_)
  obtain ⟨c, hc, he⟩ := List.mem_filterMap.mp he
  have hkeys := hk c hc
  have hx := hx c hc
  have hy := hy c hc
  obtain ⟨label, value⟩ := c
  cases value with
  | aggregation f argument physical => cases he
  | reference source physical =>
    cases he
    obtain ⟨k, hk, rfl⟩ := List.mem_map.mp (hkeys physical rfl)
    rw [scalar_ofTable_cons, scalar_ofTable_cons, hx k hk rfl, hy k hk rfl]

end Emission

variable {ρ : Type} {catalog : Catalog} {q : Query ρ} {d : Dataset}

/-- **Plain columns of a join without a selector.** Such a column is one that the join matches on,
unless an attribute has its name and stands for a column that is not. Where they all are, the named
query of the join has at most one row for each key of the base, over every database on which the
query has a meaning. -/
theorem plain_columns_are_keys_iff (h : q.toDataset catalog = .ok d) {j : JoinedEvent} {i : Nat}
    (hj : (j, i) ∈ d.joins.zipIdx) (ho : j.selector = .omitted) :
    (∀ c ∈ j.columns, ∀ source physical, c.value = .reference source physical →
      (physical ∈ j.keys.map (·.joinedColumn) ↔
        ∀ a ∈ j.event.attribute? source, a.source ∈ j.keys.map (·.joinedColumn))) ∧
    (j.RefersToKeys → ∀ db : Database, d.toQuery.IsMeaningful (Emission.columnsIn db) →
      ∃ R, (Sql.Query.runCtes db d.toQuery.ctes []).lookup (Emission.joinName i) = some R ∧
        (R.rows.map (·.value Emission.baseKey)).Nodup) := by
  have hmem := List.fst_mem_of_mem_zipIdx hj
  constructor
  · intro c hc source physical hv
    obtain ⟨hsource, rfl⟩ := Query.reference_of_toDataset h hmem ho hc hv
    cases j.event.attribute? source with
    | none => exact ⟨fun _ => nofun, fun _ => hsource⟩
    | some a => exact ⟨fun ha => by rintro _ ⟨rfl⟩; exact ha, fun ha => ha a rfl⟩
  · intro hk db hmeaningful
    exact Emission.exists_nodup_map_baseKey hmeaningful
      (fun c hc => Query.labels_of_toDataset h hmem hc) hj ho hk

def signupEvent : Event :=
  ⟨"signup", "event_id", "ts", [⟨"user", "user_id", true⟩], [], "signups"⟩

/-- An event with an attribute that has the name of the user's id. -/
def loginEvent (source : String) : Event :=
  ⟨"login", "event_id", "ts", [⟨"user", "user_id", true⟩], [⟨"user_id", .string, source⟩], "logins"⟩

def loginCatalog (source : String) : Catalog := .unchecked [signupEvent, loginEvent source]

/-- A first sign-up with the number of logins after it. -/
def loginCounts : Query Unit where
  select := ⟨⟨.first, ()⟩, ⟨"signup", ()⟩, [.reference ⟨"user_id", ()⟩ ⟨"user", ()⟩ ()], ()⟩
  joins := [⟨⟨.after, ()⟩, ⟨.omitted, ()⟩, ⟨"login", ()⟩, [],
    [.reference ⟨"user_id", ()⟩ ⟨"who", ()⟩ (),
      .aggregation ⟨.count, ()⟩ ⟨"event_id", ()⟩ ⟨"logins", ()⟩ ()], none, ()⟩]
  place := ()

def loginDataset (source : String) : Dataset where
  base := ⟨signupEvent, .first, "user_id", [⟨"user", "user_id", "user_id"⟩]⟩
  joins := [⟨loginEvent source, .after, .omitted, [⟨"user", "user_id", "user_id"⟩],
    [⟨"who", .reference "user_id" source⟩, ⟨"logins", .aggregation .count "event_id" "event_id"⟩],
    none⟩]

/-- A user who signed up and then logged in twice, with the id in two spellings. -/
def logins : Database := .ofTables [
  (["signups"], ⟨["user_id", "ts"], [[("user_id", .number 7), ("ts", .timestamp 1)]]⟩),
  (["logins"], ⟨["event_id", "user_id", "raw_id", "ts"], [
    [("event_id", .number 1), ("user_id", .number 7), ("raw_id", .text "7"), ("ts", .timestamp 2)],
    [("event_id", .number 2), ("user_id", .number 7), ("raw_id", .text "07"),
      ("ts", .timestamp 3)]]⟩)] (by decide)

theorem loginCounts_groups_by_key :
    loginCounts.toDataset (loginCatalog "user_id") = .ok (loginDataset "user_id") ∧
      ∃ R, (Sql.Query.runCtes logins (loginDataset "user_id").toQuery.ctes []).lookup "join_1" =
          some R ∧
        (R.rows.map (·.value Emission.baseKey)).Nodup := by
  have h : loginCounts.toDataset (loginCatalog "user_id") = .ok (loginDataset "user_id") := by
    decide +kernel
  refine ⟨h, ?_⟩
  exact (plain_columns_are_keys_iff h (List.mem_singleton_self _) rfl).2 (by decide +kernel) logins
    (by decide +kernel)

/-- Where the attribute stands for another column the logins are grouped by this one, and there are
two rows for one sign-up. -/
theorem loginCounts_groups_by_attribute :
    Catalog.ofEvents [signupEvent, loginEvent "raw_id"] = .ok (loginCatalog "raw_id") ∧
      loginCounts.validate (loginCatalog "raw_id") = .ok () ∧
      loginCounts.toDataset (loginCatalog "raw_id") = .ok (loginDataset "raw_id") ∧
      (∃ j ∈ (loginDataset "raw_id").joins, j.selector = .omitted ∧ ¬j.RefersToKeys) ∧
      ((loginDataset "raw_id").toQuery.eval logins).map (·.rows) = some [
        [("user", .number 7), ("who", .text "7"), ("logins", .number 1)],
        [("user", .number 7), ("who", .text "07"), ("logins", .number 1)]] := by
  refine ⟨rfl, ?_, ?_, ?_, ?_⟩ <;> decide +kernel

end EventQuery
