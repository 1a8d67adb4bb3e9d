import EventQuery.Proofs.Catalog.Lookup
import EventQuery.Proofs.Dataset.Correctness
import EventQuery.Proofs.Dataset.References
import EventQuery.Proofs.Dataset.SourceTables

/-! The shape of the query of a dataset. It has two named queries for the base rows and two for
every join, in the order of the clauses; each reads source tables and queries in front of it only.
The result has a column for every column that was asked for, under its label, and a clause that is
added at the end only adds to what is there. -/

namespace EventQuery

open Sql Outcome

variable {ρ : Type} {catalog : Catalog} {q : Query ρ} {d : Dataset}

/-! ## The joins of a dataset are its clauses -/

/-- A joined event is what a clause asks for. -/
structure JoinClause.IsLowered (catalog : Catalog) (j : JoinClause ρ) (r : JoinedEvent) : Prop where
  event : catalog.find? j.event.value = some r.event
  qualifier : r.qualifier = j.qualifier.value
  selector : r.selector = j.selector.value
  labels : r.columns.map (·.label) = j.columns.map (·.label.value)

/-- What the result takes from the rows of a join for one of its columns. -/
def Column.resultItem (name : String) (c : Column ρ) : SelectItem :=
  let value := Expr.ofTable name c.label.value
  match c with
  | .aggregation ⟨.count, _⟩ .. | .aggregation ⟨.countDistinct, _⟩ .. =>
    ⟨.coalesce [value, .integer 0], some c.label.value⟩
  | _ => ⟨value, some c.label.value⟩

/-- An item of the result takes a column of the base rows. -/
structure Column.IsBaseItem (event : Event) (c : Column ρ) (item : SelectItem) : Prop where
  label : item.label = some c.label.value
  value : ∃ r, event.resolve? c.input.value = some r ∧ item.expr = .ofTable Emission.base r.physical

namespace Lowering

variable {event : Event}

/-- The lowered join has the clause's event, qualifier, selector and labels, in their order. -/
theorem isLowered_of_join {j : JoinClause ρ} {r : JoinedEvent} (h : join catalog event j = .ok r) :
    j.IsLowered catalog r := by
  obtain ⟨hevent, -, -, hqualifier, hselector, -, hcolumns, -⟩ := join_eq_ok_iff.mp h
  exact ⟨hevent, hqualifier, hselector,
    map_eq_of_forall₂ hcolumns fun _ _ hc => (joinedColumn_eq_ok_iff.mp hc).2.2⟩

/-- The item of a column in the result is known from the column as it was written. -/
theorem resultItem_of_joinedColumn {keys : List Entity} {s : Selector} {c : Column ρ}
    {r : JoinedColumn} (h : joinedColumn event keys s c = .ok r) (name : String) :
    Emission.resultItem name r = c.resultItem name := by
  obtain ⟨hvalue, -, hlabel⟩ := joinedColumn_eq_ok_iff.mp h
  obtain ⟨-, physical, -, hvalue⟩ := columnValue_eq_ok_iff.mp hvalue
  obtain ⟨label, value⟩ := r
  cases hlabel
  cases hvalue
  cases c with
  | reference source label place => rfl
  | aggregation f argument label place =>
    obtain ⟨f, p⟩ := f
    cases f <;> rfl

theorem isBaseItem_of_baseColumn {c : Column ρ} {r : BaseColumn} (h : baseColumn event c = .ok r) :
    c.IsBaseItem event (Emission.item (.ofTable Emission.base r.physical) r.label) := by
  obtain ⟨-, -, hlabel, -, hphysical⟩ := baseColumn_eq_ok_iff.mp h
  obtain ⟨resolved, hresolved, hphysical⟩ := physical_eq_ok_iff.mp hphysical
  exact ⟨congrArg some hlabel, resolved, hresolved, by rw [hphysical]; rfl⟩

end Lowering

/-! ## The named queries -/

/-- A query reads named queries only by the given names, and all that it takes from a table comes
from one that it reads. -/
structure Sql.Query.ReadsOnly (query : Sql.Query) (names : List String) (sources : List TableRef) :
    Prop where
  ctes : query.ctes = []
  tables : ∀ t ∈ query.tables, (∃ name ∈ names, t = .ofName name) ∨ t ∈ sources
  references : ∀ r ∈ query.references, ∃ t ∈ query.tables, r.1 = some t.name
  stars : ∀ item ∈ query.select, ∀ table, item.expr = .star table →
    ∃ t ∈ query.tables, table = some t.name

theorem Sql.Query.ReadsOnly.mono {query : Sql.Query} {names names' : List String}
    {sources sources' : List TableRef} (h : query.ReadsOnly names sources)
    (hn : ∀ name ∈ names, name ∈ names') (hs : ∀ t ∈ sources, t ∈ sources') :
    query.ReadsOnly names' sources' where
  ctes := h.ctes
  tables t ht := (h.tables t ht).imp (fun ⟨name, hname, he⟩ => ⟨name, hn name hname, he⟩) (hs t)
  references := h.references
  stars := h.stars

namespace Emission

variable {b : BaseEvent} {j : JoinedEvent}

/-- The source tables of the events of a dataset, as its queries name them. -/
def eventTables (d : Dataset) : List TableRef :=
  eventTable d.base.event source :: d.joins.map (eventTable ·.event joined)

theorem readsOnly_rankedBase : (rankedBase b).ReadsOnly [] [eventTable b.event source] where
  ctes := rfl
  tables t ht := .inr ht
  references := forall_references_rankedBase fun _ => ⟨_, List.mem_singleton_self _, rfl⟩
  stars := by
    rintro item hitem table hstar
    rcases List.mem_pair.mp hitem with rfl | rfl
    · cases hstar
      exact ⟨_, List.mem_singleton_self _, rfl⟩
    · cases hstar

theorem readsOnly_rankOne {name : String} (h : Text.split '.' name = [name]) :
    (rankOne name).ReadsOnly [name] [] where
  ctes := rfl
  tables t ht := .inl ⟨name, List.mem_singleton_self _, List.mem_singleton.mp ht⟩
  references := forall_references_rankOne
    ⟨_, List.mem_singleton_self _, congrArg some (TableRef.name_ofName h).symm⟩
  stars := by
    rintro item hitem table hstar
    cases List.mem_singleton.mp hitem
    cases hstar
    exact ⟨_, List.mem_singleton_self _, congrArg some (TableRef.name_ofName h).symm⟩

/-- No folding function is written as a star. -/
theorem fold_ne_star (f : Aggregate) (e : Expr) (table : Option String) :
    fold f e ≠ .star table := by
  cases f <;> nofun

/-- No column of a join is taken by a star. -/
theorem select_innerQuery_ne_star (table : Option String) :
    ∀ item ∈ (innerQuery b j).select, item.expr ≠ .star table := by
  obtain ⟨select, hquery, hselect⟩ := exists_innerQuery_eq b j
  rw [hquery]
  intro x hx
  obtain ⟨e, label, rfl, he⟩ := hselect x hx
  cases he <;> nofun

theorem select_grouped_ne_star {rows : String} (table : Option String) :
    ∀ item ∈ (grouped rows j).select, item.expr ≠ .star table := by
  intro x hx
  rcases mem_groups_or_exists_fold hx with he | ⟨f, column, -, he⟩
  · obtain ⟨column, -, he⟩ := exists_of_mem_groups he
    rw [he]
    nofun
  · rw [he]
    exact fold_ne_star f _ table

/-- The rows of a join are read from the base rows and the table of its event. -/
theorem readsOnly_innerQuery : (innerQuery b j).ReadsOnly [base] [eventTable j.event joined] where
  ctes := ctes_innerQuery
  tables t ht := by
    rw [tables_innerQuery, List.mem_pair] at ht
    rcases ht with rfl | rfl
    · exact .inl ⟨base, List.mem_singleton_self _, rfl⟩
    · exact .inr (List.mem_singleton_self _)
  references := by
    rw [tables_innerQuery]
    exact forall_references_innerQuery (fun _ => ⟨_, List.mem_cons_self, rfl⟩)
      fun _ => ⟨_, List.mem_cons_of_mem _ (List.mem_singleton_self _), rfl⟩
  stars item hitem table hstar := absurd hstar (select_innerQuery_ne_star table item hitem)

theorem readsOnly_grouped {rows : String} (h : Text.split '.' rows = [rows]) :
    (grouped rows j).ReadsOnly [rows] [] where
  ctes := rfl
  tables _ ht := .inl ⟨rows, List.mem_singleton_self _, List.mem_singleton.mp ht⟩
  references := forall_references_grouped fun _ _ =>
    ⟨_, List.mem_singleton_self _, congrArg some (TableRef.name_ofName h).symm⟩
  stars item hitem table hstar := absurd hstar (select_grouped_ne_star table item hitem)

/-- The second query of a join reads the first one and no table. -/
theorem readsOnly_outerQuery {i : Nat} :
    (outerQuery i j).ReadsOnly [innerName i j.selector] [] := by
  by_cases ho : j.selector = .omitted
  · rw [outerQuery_of_eq ho]
    exact readsOnly_grouped (split_innerName i j.selector)
  · rw [outerQuery_of_ne ho]
    exact readsOnly_rankOne (split_innerName i j.selector)

/-- Each named query reads source tables and the queries in front of it. -/
theorem readsOnly_of_ctes_eq {before after : List (String × Sql.Query)} {name : String}
    {query : Sql.Query} (h : ctes d = before ++ (name, query) :: after) :
    query.ReadsOnly (before.map Prod.fst) (eventTables d) := by
  match before, h with
  | [], h =>
    obtain ⟨-, rfl⟩ := Prod.mk.inj (List.cons.inj h).1
    exact readsOnly_rankedBase.mono nofun
      (List.forall_mem_singleton.mpr List.mem_cons_self)
  | [x], h =>
    obtain ⟨hx, h⟩ := List.cons.inj h
    obtain ⟨-, rfl⟩ := Prod.mk.inj (List.cons.inj h).1
    rw [← hx]
    exact (readsOnly_rankOne rfl).mono (fun _ => id) nofun
  | x :: y :: before, h =>
    obtain ⟨-, h⟩ := List.cons.inj h
    obtain ⟨hy, h⟩ := List.cons.inj h
    obtain ⟨front, p, rest, hjoins, ⟨-, hc⟩ | ⟨hbefore, hc⟩⟩ := ctesOf_eq_append_cons h
    · obtain ⟨-, rfl⟩ := Prod.mk.inj hc
      rw [← hy]
      have hp : p ∈ d.joins.zipIdx := by simp [hjoins]
      refine readsOnly_innerQuery.mono (List.forall_mem_singleton.mpr (by simp))
        (List.forall_mem_singleton.mpr (List.mem_cons_of_mem _ (List.mem_map.mpr ⟨p.1, ?_, rfl⟩)))
      exact List.fst_mem_of_mem_zipIdx hp
    · obtain ⟨-, rfl⟩ := Prod.mk.inj hc
      rw [hbefore]
      exact readsOnly_outerQuery.mono (List.forall_mem_singleton.mpr (by simp)) nofun

/-- Two named queries for the base and two for each join. -/
theorem length_ctes : (ctes d).length = 2 + 2 * d.joins.length := by
  have hjoins (joins : List (JoinedEvent × Nat)) :
      (ctesOf d.base joins).length = 2 * joins.length := by
    induction joins with
    | nil => rfl
    | cons p joins ih =>
      rw [ctesOf_cons, List.length_cons, List.length_cons, ih, List.length_cons]
      omega
  rw [ctes_eq_ctesUpTo, ctesUpTo, List.length_cons, List.length_cons, hjoins, List.length_zipIdx]
  omega

/-! ## More joins -/

/-- The query of a dataset starts as that of the dataset without its last joins. -/
structure Extends (query query' : Sql.Query) : Prop where
  ctes : query.ctes <+: query'.ctes
  select : query.select <+: query'.select
  joins : query.joins <+: query'.joins

/-- Numbering goes from the front, so joins at the end change no name. -/
theorem extends_of_joins {b : BaseEvent} (joins more : List JoinedEvent) :
    Extends (Dataset.toQuery ⟨b, joins⟩) (Dataset.toQuery ⟨b, joins ++ more⟩) where
  ctes := by
    show ctes ⟨b, joins⟩ <+: ctes ⟨b, joins ++ more⟩
    rw [ctes_eq_ctesUpTo, ctes_eq_ctesUpTo, List.zipIdx_append, ctesUpTo, ctesUpTo, ctesOf, ctesOf,
      List.flatMap_append, ← List.cons_append, ← List.cons_append]
    exact List.prefix_append _ _
  select := by
    show results ⟨b, joins⟩ <+: results ⟨b, joins ++ more⟩
    rw [results_eq, results_eq, List.zipIdx_append, List.flatMap_append, ← List.append_assoc]
    exact List.prefix_append _ _
  joins := by
    show (query ⟨b, joins⟩).joins <+: (query ⟨b, joins ++ more⟩).joins
    rw [joins_query, joins_query, List.zipIdx_append, List.map_append]
    exact List.prefix_append _ _

end Emission

/-- Lowering the longer query lowers the shorter one first. -/
theorem Query.joins_of_append {more : List (JoinClause ρ)} {place : ρ} {d' : Dataset}
    (h : q.toDataset catalog = .ok d)
    (h' : Query.toDataset catalog ⟨q.select, q.joins ++ more, place⟩ = .ok d') :
    ∃ joins, d' = ⟨d.base, d.joins ++ joins⟩ := by
  obtain ⟨hbase, hjoins⟩ := toDataset_eq_ok_iff.mp h
  obtain ⟨hbase', hjoins'⟩ := toDataset_eq_ok_iff.mp h'
  obtain ⟨b, js⟩ := d'
  obtain rfl : b = d.base := Except.ok.inj (hbase'.symm.trans hbase)
  rw [← mapM_eq_ok_iff, List.mapM_append] at hjoins'
  obtain ⟨front, hfront, hmore⟩ := bind_eq_ok_iff.mp hjoins'
  obtain ⟨joins, -, hjs⟩ := bind_eq_ok_iff.mp hmore
  cases hfront.symm.trans (mapM_eq_ok_iff.mpr hjoins)
  cases hjs
  exact ⟨joins, rfl⟩

/-! ## The whole query -/

/-- The query that the dataset of `q` is written as. -/
structure Query.HasShape (catalog : Catalog) (q : Query ρ) (d : Dataset) : Prop where
  /-- The joins of the dataset are the clauses of the query, in their order. -/
  joins : List.Forall₂ (JoinClause.IsLowered catalog) q.joins d.joins
  eventNames : ∀ events, Catalog.ofEvents events = .ok catalog →
    d.joins.map (·.event.name) = q.joins.map (·.event.value)
  count : d.toQuery.ctes.length = 2 + 2 * q.joins.length
  names : (d.toQuery.ctes.map Prod.fst).Nodup
  reads : ∀ before name query after, d.toQuery.ctes = before ++ (name, query) :: after →
    query.ReadsOnly (before.map Prod.fst) (Emission.eventTables d)
  /-- The columns of the base event, then those of each join, in their order. -/
  select : ∃ items, d.toQuery.select = items ++ q.joins.zipIdx.flatMap
      (fun p => p.1.columns.map (Column.resultItem (Emission.joinName p.2))) ∧
    List.Forall₂ (Column.IsBaseItem d.base.event) q.select.columns items
  source : d.toQuery.source = some (.ofName Emission.base)
  leftJoins : d.toQuery.joins.map (fun j => (j.kind, j.table)) =
    (List.range q.joins.length).map fun i => (.left, .ofName (Emission.joinName i))

namespace Lowering

variable {event : Event} {js : List (JoinClause ρ)} {rs : List JoinedEvent}

theorem results_of_joins (h : List.Forall₂ (fun j r => join catalog event j = .ok r) js rs)
    (start : Nat) :
    ((rs.zipIdx start).flatMap fun p =>
        p.1.columns.map (Emission.resultItem (Emission.joinName p.2))) =
      (js.zipIdx start).flatMap fun p =>
        p.1.columns.map (Column.resultItem (Emission.joinName p.2)) := by
  induction h generalizing start with
  | nil => rfl
  | cons hj _ ih =>
    obtain ⟨-, -, -, -, -, -, hcolumns, -⟩ := join_eq_ok_iff.mp hj
    rw [List.zipIdx_cons, List.zipIdx_cons, List.flatMap_cons, List.flatMap_cons, ih,
      map_eq_of_forall₂ hcolumns fun _ _ hc => resultItem_of_joinedColumn hc _]

end Lowering

theorem Query.hasShape (h : q.toDataset catalog = .ok d) : q.HasShape catalog d := by
  obtain ⟨hbase, hjoins⟩ := toDataset_eq_ok_iff.mp h
  have hlowered : List.Forall₂ (JoinClause.IsLowered catalog) q.joins d.joins :=
    hjoins.imp fun _ _ => Lowering.isLowered_of_join
  obtain ⟨-, -, -, -, hcolumns⟩ := Lowering.base_eq_ok_iff.mp hbase
  exact {
    joins := hlowered
    eventNames := fun events hc =>
      map_eq_of_forall₂ hlowered fun _ _ hj => ((Catalog.find?_eq_some_iff hc).mp hj.event).2
    count := Emission.length_ctes.trans (by rw [hlowered.length_eq])
    names := Emission.nodup_names_ctes d
    reads := fun _ _ _ _ => Emission.readsOnly_of_ctes_eq
    select := by
      refine ⟨d.base.columns.map fun c =>
        Emission.item (.ofTable Emission.base c.physical) c.label, ?_, ?_⟩
      · show Emission.results d = _
        rw [Emission.results_eq, Lowering.results_of_joins hjoins]
      · rw [List.forall₂_map_right_iff]
        exact hcolumns.imp fun _ _ => Lowering.isBaseItem_of_baseColumn
    source := rfl
    leftJoins := by
      show (Emission.query d).joins.map _ = _
      rw [Emission.joins_query, List.map_map, hlowered.length_eq, List.range_eq_range',
        ← List.zipIdx_map_snd 0 d.joins, List.map_map]
      rfl }

/-- **The query of a dataset has the shape of the query it was lowered from**, and clauses that are
added at the end leave what was there in front. -/
theorem toQuery_shape (h : q.toDataset catalog = .ok d) :
    q.HasShape catalog d ∧ ∀ more place d',
      Query.toDataset catalog ⟨q.select, q.joins ++ more, place⟩ = .ok d' →
        Emission.Extends d.toQuery d'.toQuery := by
  refine ⟨Query.hasShape h, fun more place d' h' => ?_⟩
  obtain ⟨joins, rfl⟩ := Query.joins_of_append h h'
  exact Emission.extends_of_joins d.joins joins

/-- The first clause of `signupOrders` alone. -/
def signupOrder : Query Unit where
  select := signupOrders.select
  joins := signupOrders.joins.take 1
  place := ()

def signupOrderDataset : Dataset :=
  ⟨signupOrdersDataset.base, signupOrdersDataset.joins.take 1⟩

/-- The query with its first join alone, and with the others behind it. -/
theorem signupOrders_shape :
    signupOrder.toDataset Catalog.demo = .ok signupOrderDataset ∧
      signupOrder.HasShape Catalog.demo signupOrderDataset ∧
      Emission.Extends signupOrderDataset.toQuery signupOrdersDataset.toQuery := by
  have h : signupOrder.toDataset Catalog.demo = .ok signupOrderDataset := by decide +kernel
  have hmore : Query.toDataset Catalog.demo
      ⟨signupOrder.select, signupOrder.joins ++ signupOrders.joins.drop 1, ()⟩ =
        .ok signupOrdersDataset := by
    decide +kernel
  obtain ⟨hshape, hextends⟩ := toQuery_shape h
  exact ⟨h, hshape, hextends _ _ _ hmore⟩

end EventQuery
