import EventQuery.Proofs.Catalog.Extension
import EventQuery.Proofs.Dataset.Agreement

/-! The SQL of a query when the catalog grows. The dataset of the query over the grown catalog
differs from the old one only in the entities and attributes of its events, which no part of the SQL
reads. -/

namespace EventQuery

open Outcome

/-! ## What the SQL of a dataset reads of its events -/

/-- The event without its entities and attributes. -/
def Event.outline (e : Event) : Event := { e with entities := [], attributes := [] }

def BaseEvent.outline (b : BaseEvent) : BaseEvent := { b with event := b.event.outline }

def JoinedEvent.outline (j : JoinedEvent) : JoinedEvent := { j with event := j.event.outline }

def Dataset.outline (d : Dataset) : Dataset := ⟨d.base.outline, d.joins.map JoinedEvent.outline⟩

theorem Emission.joinCtes_outline (b : BaseEvent) (i : Nat) (j : JoinedEvent) :
    joinCtes b.outline i j.outline = joinCtes b i j := by
  obtain ⟨event, qualifier, selector, keys, columns, filter⟩ := j
  cases selector <;> rfl

/-- The SQL of a dataset does not read the entities and attributes of its events. -/
theorem Dataset.toQuery_outline (d : Dataset) : d.outline.toQuery = d.toQuery := by
  have hctes : Emission.ctes d.outline = Emission.ctes d := by
    simp only [Emission.ctes, outline, List.zipIdx_map, List.flatMap_map, Prod.map, id,
      Emission.joinCtes_outline]
    rfl
  have hresults : Emission.results d.outline = Emission.results d := by
    simp only [Emission.results, outline, List.zipIdx_map, List.flatMap_map, Prod.map, id]
    rfl
  have hjoins : (Emission.query d.outline).joins = (Emission.query d).joins := by
    simp only [Emission.query, outline, List.zipIdx_map, List.map_map, Function.comp_def, Prod.map]
    rfl
  rw [toQuery, toQuery, Emission.query, hctes, hresults]
  exact congrArg (Sql.Query.mk _ _ _ · _ _) hjoins

theorem Event.Extends.outline {e e' : Event} (h : e.Extends e') : e'.outline = e.outline := by
  rw [Event.outline, Event.outline, h.name, h.idColumn, h.timestampColumn, h.table]

/-! ## Lowering over a grown catalog -/

namespace Lowering

variable {ρ : Type}

section
variable {e e' : Event} (h : e.Extends e')
include h

/-- Added columns take no name that an event already resolves, so what a column resolved to
stays. -/
theorem physical_of_extends {column result : String} (hp : physical e column = .ok result) :
    physical e' column = .ok result := by
  obtain ⟨r, hr, hresult⟩ := physical_eq_ok_iff.mp hp
  have hsame := h.resolve?_eq (Event.mem_columnNames_of_resolve? hr)
  exact physical_eq_ok_iff.mpr ⟨r, hsame.trans hr, hresult⟩

theorem baseColumn_of_extends {c : Column ρ} {b : BaseColumn} (hc : baseColumn e c = .ok b) :
    baseColumn e' c = .ok b := by
  obtain ⟨hplain, hlabel, hname, hsource, hp⟩ := baseColumn_eq_ok_iff.mp hc
  exact baseColumn_eq_ok_iff.mpr ⟨hplain, hlabel, hname, hsource, physical_of_extends h hp⟩

theorem joinedColumn_of_extends {keys : List Entity} {selector : Selector} {c : Column ρ}
    {r : JoinedColumn} (hc : joinedColumn e keys selector c = .ok r) :
    joinedColumn e' keys selector c = .ok r := by
  obtain ⟨hvalue, hlabel, hname⟩ := joinedColumn_eq_ok_iff.mp hc
  obtain ⟨hgrouped, p, hp, hv⟩ := columnValue_eq_ok_iff.mp hvalue
  refine joinedColumn_eq_ok_iff.mpr ⟨?_, hlabel, hname⟩
  exact columnValue_eq_ok_iff.mpr ⟨hgrouped, p, physical_of_extends h hp, hv⟩

theorem filter_of_extends {f : Filter ρ} {r : ResolvedFilter} (hf : filter e f = .ok r) :
    filter e' f = .ok r := by
  obtain ⟨hfinite, hp, hrest⟩ := filter_eq_ok_iff.mp hf
  exact filter_eq_ok_iff.mpr ⟨hfinite, physical_of_extends h hp, hrest⟩

theorem filters_of_extends {f? : Option (Filter ρ)} {r? : Option ResolvedFilter}
    (hf : Option.Rel (fun f r => filter e f = .ok r) f? r?) :
    Option.Rel (fun f r => filter e' f = .ok r) f? r? := by
  cases hf with
  | none => exact .none
  | some hf => exact .some (filter_of_extends h hf)

/-- A key that is shared with the base event stays shared. -/
theorem key_of_extends {k : Entity} {r : JoinKey} (hk : key e k = .ok r) : key e' k = .ok r := by
  obtain ⟨hentity, hcolumn, hbase⟩ := key_eq_ok_iff.mp hk
  obtain ⟨x, hx, -⟩ := Option.map_eq_some_iff.mp hbase
  rw [← h.entity?_eq (Event.mem_entityNames_of_entity? hx)] at hbase
  exact key_eq_ok_iff.mpr ⟨hentity, hcolumn, hbase⟩

theorem isSome_entity?_of_extends {name : String} (hname : (e.entity? name).isSome) :
    (e'.entity? name).isSome := by
  obtain ⟨x, hx⟩ := Option.isSome_iff_exists.mp hname
  rwa [h.entity?_eq (Event.mem_entityNames_of_entity? hx)]

/-- The keys of a join stay the same: those it names were there before, and so was a default. -/
theorem keys_of_extends {j : JoinClause ρ} (hnamed : ∀ x ∈ j.entities, (e.entity? x.value).isSome) :
    j.keys e' = j.keys e := by
  by_cases hempty : j.entities.isEmpty
  · rw [JoinClause.keys_of_isEmpty hempty, JoinClause.keys_of_isEmpty hempty, h.defaultEntity?_eq]
  · rw [JoinClause.keys_of_not_isEmpty hempty, JoinClause.keys_of_not_isEmpty hempty]
    apply List.filterMap_congr
    intro x hx
    obtain ⟨k, hk⟩ := Option.isSome_iff_exists.mp (hnamed x hx)
    exact h.entity?_eq (Event.mem_entityNames_of_entity? hk)

end

section
variable {events events' : List Event} {c c' : Catalog} (hc : Catalog.ofEvents events = .ok c)
  (hc' : Catalog.ofEvents events' = .ok c') (hgrown : EventsExtend events events')
include hc hc' hgrown

/-- The event that the name of the base finds has grown, its keys and its columns are the same. -/
theorem base_of_extension {s : SelectClause ρ} {b : BaseEvent} (hb : base c s = .ok b) :
    ∃ b', base c' s = .ok b' ∧ b.event.Extends b'.event ∧ b'.outline = b.outline := by
  obtain ⟨hfound, homitted, hselector, hpartition, hcolumns⟩ := base_eq_ok_iff.mp hb
  obtain ⟨e', hfound', h⟩ := Catalog.find?_of_extension hc hc' hgrown hfound
  have hne : b.event.entities ≠ [] :=
    Event.entities_ne_nil_of_check (Catalog.check_of_ofEvents hc _ (Catalog.mem_of_find? hfound))
  refine ⟨{ b with event := e' }, base_eq_ok_iff.mpr ⟨hfound', homitted, hselector, ?_, ?_⟩, h, ?_⟩
  · rw [← hpartition, ← h.partitionEntity?_eq hne]
  · exact hcolumns.imp fun _ _ => baseColumn_of_extends h
  · rw [BaseEvent.outline, BaseEvent.outline, h.outline]

/-- The joined event has grown as the base event has, and what the SQL reads of the join is the
same. -/
theorem join_of_extension {on on' : Event} (hon : on.Extends on') {j : JoinClause ρ}
    {r : JoinedEvent} (hj : join c on j = .ok r) :
    ∃ r', join c' on' j = .ok r' ∧ r'.outline = r.outline := by
  obtain ⟨hfound, hnamed, hkeyed, hqualifier, hselector, hkeys, hcolumns, hfilter⟩ :=
    join_eq_ok_iff.mp hj
  obtain ⟨e', hfound', h⟩ := Catalog.find?_of_extension hc hc' hgrown hfound
  have hsame : j.keys e' = j.keys r.event := keys_of_extends h hnamed
  refine ⟨{ r with event := e' }, join_eq_ok_iff.mpr ⟨hfound', ?_, ?_, hqualifier, hselector, ?_,
    ?_, ?_⟩, ?_⟩
  · intro x hx
    exact isSome_entity?_of_extends h (hnamed x hx)
  · rwa [hsame]
  · rw [hsame]
    exact hkeys.imp fun _ _ => key_of_extends hon
  · rw [hsame]
    exact hcolumns.imp fun _ _ => joinedColumn_of_extends h
  · exact filters_of_extends h hfilter
  · rw [JoinedEvent.outline, JoinedEvent.outline, h.outline]

theorem joins_of_extension {on on' : Event} (hon : on.Extends on') {js : List (JoinClause ρ)}
    {rs : List JoinedEvent} (hjs : List.Forall₂ (fun j r => join c on j = .ok r) js rs) :
    ∃ rs', List.Forall₂ (fun j r => join c' on' j = .ok r) js rs' ∧
      rs'.map JoinedEvent.outline = rs.map JoinedEvent.outline := by
  induction hjs with
  | nil => exact ⟨[], .nil, rfl⟩
  | cons hj _ ih =>
    obtain ⟨r', hr', hr⟩ := join_of_extension hc hc' hgrown hon hj
    obtain ⟨rs', hrs', hrs⟩ := ih
    exact ⟨r' :: rs', .cons hr' hrs', by rw [List.map_cons, List.map_cons, hr, hrs]⟩

end

end Lowering

section
variable {events events' : List Event} {c c' : Catalog} (hc : Catalog.ofEvents events = .ok c)
  (hc' : Catalog.ofEvents events' = .ok c') (hgrown : EventsExtend events events')
include hc hc' hgrown

/-- A query that is lowered over a catalog is lowered over a grown one, to a dataset with the same
outline. -/
theorem Query.toDataset_of_extension {ρ : Type} {q : Query ρ} {d : Dataset}
    (h : q.toDataset c = .ok d) : ∃ d', q.toDataset c' = .ok d' ∧ d'.outline = d.outline := by
  obtain ⟨hbase, hjoins⟩ := toDataset_eq_ok_iff.mp h
  obtain ⟨b', hbase', hevent, hb⟩ := Lowering.base_of_extension hc hc' hgrown hbase
  obtain ⟨js', hjoins', hjs⟩ := Lowering.joins_of_extension hc hc' hgrown hevent hjoins
  exact ⟨⟨b', js'⟩, toDataset_eq_ok_iff.mpr ⟨hbase', hjoins'⟩, by
    rw [Dataset.outline, Dataset.outline, hb, hjs]⟩

end

theorem compile_eq_ok_iff {catalog : Catalog} {layout : Sql.Layout} {text sql : String}
    {d : Dataset} : compile catalog layout text = .ok (d, sql) ↔ ∃ q, Query.parse text = .ok q ∧
      q.validate catalog = .ok () ∧ q.toDataset catalog = .ok d ∧ d.toSql layout = sql := by
  simp only [compile, compileDataset, bind_eq_ok_iff, pure_eq_ok_iff, Prod.mk.injEq,
    mapError_eq_ok_iff]
  constructor
  · rintro ⟨d, ⟨q, hq, _, hv, hd⟩, rfl, rfl⟩
    exact ⟨q, hq, hv, hd, rfl⟩
  · rintro ⟨q, hq, hv, hd, rfl⟩
    exact ⟨d, ⟨q, hq, (), hv, hd⟩, rfl, rfl⟩

/-- **A growing catalog leaves the SQL of a query as it is.** Whatever is compiled over a catalog is
compiled over one with further events between its own, and with further attributes and entities at
the end of its events under names that these did not use, to the same SQL. -/
theorem compile_of_extension {events events' : List Event} {c c' : Catalog}
    (hc : Catalog.ofEvents events = .ok c) (hc' : Catalog.ofEvents events' = .ok c')
    (hgrown : EventsExtend events events') {layout : Sql.Layout} {text sql : String} {d : Dataset}
    (h : compile c layout text = .ok (d, sql)) : ∃ d', compile c' layout text = .ok (d', sql) := by
  obtain ⟨q, hq, hv, hd, hsql⟩ := compile_eq_ok_iff.mp h
  obtain ⟨d', hd', houtline⟩ := Query.toDataset_of_extension hc hc' hgrown hd
  -- A query that is lowered fits, since every event of the grown catalog has an entity.
  have hne : ∀ e ∈ c'.events, e.entities ≠ [] := fun e he =>
    Event.entities_ne_nil_of_check (Catalog.check_of_ofEvents hc' e he)
  have hv' : q.validate c' = .ok () := ((Query.exists_toDataset_iff hne).mp ⟨d', hd'⟩).1
  refine ⟨d', compile_eq_ok_iff.mpr ⟨q, hq, hv', hd', ?_⟩⟩
  rw [← hsql, Dataset.toSql, Dataset.toSql, ← d'.toQuery_outline, houtline, d.toQuery_outline]

/-- Sales with further attributes and entities. -/
def saleEvent (attributes : List Attribute) (entities : List Entity) : Event :=
  ⟨"sale", "sale_id", "ts", ⟨"shop", "shop_id", false⟩ :: entities,
    ⟨"price", .float, "amount"⟩ :: attributes, "sales"⟩

def shopVisitEvent (attributes : List Attribute) (entities : List Entity) : Event :=
  ⟨"visit", "visit_id", "ts", ⟨"shop", "place_id", true⟩ :: entities, attributes, "visits"⟩

def shopEvents : List Event := [saleEvent [] [], shopVisitEvent [] []]

/-- A new event in front and one at the end, and between them the old ones, with new columns. -/
def grownShopEvents : List Event :=
  [⟨"refund", "refund_id", "ts", [⟨"shop", "shop_id", true⟩], [], "refunds"⟩,
    saleEvent [⟨"currency", .string, "currency"⟩] [⟨"buyer", "buyer_id", false⟩],
    shopVisitEvent [⟨"minutes", .integer, "length"⟩] [],
    ⟨"closing", "closing_id", "ts", [⟨"shop", "shop_id", true⟩], [], "closings"⟩]

theorem shopEvents_extend : EventsExtend shopEvents grownShopEvents := by
  refine ⟨(grownShopEvents.drop 1).take 2, ?_, .cons ?_ (.cons ?_ .nil)⟩
  · exact (List.take_sublist _ _).trans (List.drop_sublist _ _)
  · exact ⟨rfl, rfl, rfl, rfl, ⟨_, rfl, by decide⟩, ⟨_, rfl, by decide⟩⟩
  · exact ⟨rfl, rfl, rfl, rfl, ⟨_, rfl, by decide⟩, ⟨_, rfl, by decide⟩⟩

def saleVisitsText : String :=
  "select last sale (price as price) " ++
    "join before visit (place_id as place, count(visit_id) as visits)"

def saleVisits : Dataset where
  base := ⟨saleEvent [] [], .last, "shop_id", [⟨"price", "price", "amount"⟩]⟩
  joins := [⟨shopVisitEvent [] [], .before, .omitted, [⟨"shop", "place_id", "shop_id"⟩],
    [⟨"place", .reference "place_id" "place_id"⟩,
      ⟨"visits", .aggregation .count "visit_id" "visit_id"⟩], none⟩]

/-- The grown catalog has further events, entities and attributes, and the SQL is the same. -/
theorem saleVisits_compiled_alike :
    Catalog.ofEvents shopEvents = .ok (.unchecked shopEvents) ∧
      Catalog.ofEvents grownShopEvents = .ok (.unchecked grownShopEvents) ∧
      compile (.unchecked shopEvents) .pretty saleVisitsText =
        .ok (saleVisits, saleVisits.toSql .pretty) ∧
      ∃ d', compile (.unchecked grownShopEvents) .pretty saleVisitsText =
        .ok (d', saleVisits.toSql .pretty) := by
  have hdataset : compileDataset (.unchecked shopEvents) saleVisitsText = .ok saleVisits := by
    decide +kernel
  have hold : compile (.unchecked shopEvents) .pretty saleVisitsText =
      .ok (saleVisits, saleVisits.toSql .pretty) := by
    rw [compile, hdataset]
    rfl
  exact ⟨rfl, rfl, hold, compile_of_extension rfl rfl shopEvents_extend hold⟩

end EventQuery
