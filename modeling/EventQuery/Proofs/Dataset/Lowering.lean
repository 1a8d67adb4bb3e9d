import EventQuery.Dataset.Lowering
import EventQuery.Proofs.Query.Fitting

/-! What lowering gives. Each step is read backwards: a dataset has come from a query whose clauses
all fit, and it holds what their names stand for. A clause that fits is lowered unless the literal
of its filter is not finite. -/

namespace EventQuery

open Outcome

variable {ρ : Type} {catalog : Catalog} {event : Event}

/-- The filter, if there is one, compares with a finite literal. -/
def JoinClause.LiteralFinite (j : JoinClause ρ) : Prop :=
  ∀ f ∈ j.filter, f.literal.value.isFinite = true

namespace Lowering

theorem orFault_eq_ok_iff {α : Type} {fault : Fault} {x : Option α} {a : α} :
    orFault fault x = .ok a ↔ x = some a := by
  cases x <;> simp [orFault]

theorem lookup_eq_ok_iff {name : String} :
    lookup catalog name = .ok event ↔ catalog.find? name = some event := orFault_eq_ok_iff

theorem label_eq_ok_iff {name result : String} :
    label name = .ok result ↔ isReserved name = false ∧ name = result := by
  cases h : isReserved name <;> simp [label, h]

/-- A column is lowered to the physical one that it resolves to. -/
theorem physical_eq_ok_iff {column result : String} :
    physical event column = .ok result ↔
      ∃ r, event.resolve? column = some r ∧ r.physical = result := by
  simp only [physical, map_eq_ok_iff, orFault_eq_ok_iff]

theorem exists_physical_iff {column : String} :
    (∃ result, physical event column = .ok result) ↔ (event.resolve? column).isSome := by
  simp only [physical_eq_ok_iff, Option.isSome_iff_exists]
  exact ⟨fun ⟨_, r, h, _⟩ => ⟨r, h⟩, fun ⟨r, h⟩ => ⟨_, r, h, rfl⟩⟩

/-! ## The base event -/

/-- A column of the base is no aggregation, and its label is not reserved. -/
theorem baseColumn_eq_ok_iff {c : Column ρ} {b : BaseColumn} :
    baseColumn event c = .ok b ↔ c.isAggregation = false ∧ isReserved c.label.value = false ∧
      b.label = c.label.value ∧ b.source = c.input.value ∧
      physical event c.input.value = .ok b.physical := by
  cases c with
  | reference source name place =>
    simp only [baseColumn, bind_eq_ok_iff, pure_eq_ok_iff, label_eq_ok_iff]
    constructor
    · rintro ⟨_, ⟨hl, rfl⟩, _, hp, rfl⟩
      exact ⟨rfl, hl, rfl, rfl, hp⟩
    · rintro ⟨-, hl, hn, hs, hp⟩
      exact ⟨_, ⟨hl, rfl⟩, _, hp, by cases b; simp_all [Column.label, Column.input]⟩
  | aggregation function argument name place =>
    simp [baseColumn, Column.isAggregation]

theorem exists_baseColumn_iff {c : Column ρ} :
    (∃ b, baseColumn event c = .ok b) ↔ c.Fits event ∧ c.isAggregation = false := by
  simp only [baseColumn_eq_ok_iff]
  constructor
  · rintro ⟨b, ha, hl, -, -, hp⟩
    exact ⟨⟨hl, exists_physical_iff.mp ⟨_, hp⟩⟩, ha⟩
  · rintro ⟨h, ha⟩
    obtain ⟨p, hp⟩ := exists_physical_iff.mpr h.input
    exact ⟨⟨_, _, p⟩, ha, h.label, rfl, rfl, hp⟩

/-- A base event has a selector, and its key is the id column of the entity it is partitioned by. -/
theorem base_eq_ok_iff {s : SelectClause ρ} {b : BaseEvent} :
    base catalog s = .ok b ↔ catalog.find? s.event.value = some b.event ∧
      s.selector.value ≠ .omitted ∧ b.selector = s.selector.value ∧
      (b.event.partitionEntity?.map (·.idColumn) = some b.partitionKey) ∧
      List.Forall₂ (fun c r => baseColumn b.event c = .ok r) s.columns b.columns := by
  rw [base, bind_eq_ok_iff]
  simp only [lookup_eq_ok_iff]
  by_cases ho : s.selector.value = .omitted
  · simp [ho]
  · simp only [if_neg ho, bind_eq_ok_iff, orFault_eq_ok_iff, mapM_eq_ok_iff, pure_eq_ok_iff]
    constructor
    · rintro ⟨event, hf, p, hp, columns, hc, rfl⟩
      exact ⟨hf, ho, rfl, by simp [hp], hc⟩
    · rintro ⟨hf, -, hs, hp, hc⟩
      obtain ⟨p, hp, hk⟩ := Option.map_eq_some_iff.mp hp
      exact ⟨_, hf, p, hp, _, hc, by cases b; simp_all⟩

theorem exists_base_iff {s : SelectClause ρ} :
    (∃ b, base catalog s = .ok b ∧ b.event = event) ↔
      s.Fits catalog event ∧ event.partitionEntity?.isSome := by
  simp only [base_eq_ok_iff]
  constructor
  · rintro ⟨b, ⟨hf, hs, -, hp, hc⟩, rfl⟩
    have hfits : ∀ c ∈ s.columns, c.Fits b.event ∧ c.isAggregation = false := by
      intro c hmem
      exact exists_baseColumn_iff.mp
        (exists_mapM_eq_ok_iff.mp ⟨_, mapM_eq_ok_iff.mpr hc⟩ c hmem)
    refine ⟨⟨hf, hs, fun c h => (hfits c h).1, fun c h => (hfits c h).2⟩, ?_⟩
    obtain ⟨p, hp, -⟩ := Option.map_eq_some_iff.mp hp
    simp [hp]
  · rintro ⟨h, hp⟩
    obtain ⟨p, hp⟩ := Option.isSome_iff_exists.mp hp
    obtain ⟨columns, hc⟩ := exists_mapM_eq_ok_iff.mpr fun c hmem =>
      exists_baseColumn_iff.mpr ⟨h.columns c hmem, h.plain c hmem⟩
    exact ⟨⟨event, s.selector.value, p.idColumn, columns⟩,
      ⟨h.found, h.selector, rfl, by simp [hp], mapM_eq_ok_iff.mp hc⟩, rfl⟩

/-! ## Joined events -/

/-- A key is matched on its own id column and on that of the base event's entity of the same
name. -/
theorem key_eq_ok_iff {on : Event} {k : Entity} {r : JoinKey} :
    key on k = .ok r ↔ r.entity = k.name ∧ r.joinedColumn = k.idColumn ∧
      (on.entity? k.name).map (·.idColumn) = some r.baseColumn := by
  simp only [key, bind_eq_ok_iff, orFault_eq_ok_iff, pure_eq_ok_iff, Option.map_eq_some_iff]
  constructor
  · rintro ⟨x, hx, rfl⟩
    exact ⟨rfl, rfl, x, hx, rfl⟩
  · rintro ⟨he, hj, x, hx, hb⟩
    exact ⟨x, hx, by cases r; simp_all⟩

theorem exists_key_iff {on : Event} {k : Entity} :
    (∃ r, key on k = .ok r) ↔ (on.entity? k.name).isSome := by
  simp only [key_eq_ok_iff, Option.map_eq_some_iff, Option.isSome_iff_exists]
  exact ⟨fun ⟨_, _, _, x, h, _⟩ => ⟨x, h⟩, fun ⟨x, h⟩ => ⟨⟨_, _, _⟩, rfl, rfl, x, h, rfl⟩⟩

/-- The value a column of a query stands for. -/
def valueOf (physical : String) : Column ρ → ColumnValue
  | .reference source _ _ => .reference source.value physical
  | .aggregation function argument _ _ => .aggregation function.value argument.value physical

/-- Under a join of all rows, a plain column has to be named as the column of a key. -/
theorem columnValue_eq_ok_iff {keys : List Entity} {selector : Selector} {c : Column ρ}
    {v : ColumnValue} :
    columnValue event keys selector c = .ok v ↔
      (selector = .omitted → c.isAggregation = true ∨ isKeyColumn keys c.input.value = true) ∧
      ∃ p, physical event c.input.value = .ok p ∧ v = valueOf p c := by
  cases c with
  | reference source name place =>
    simp only [columnValue, bind_eq_ok_iff, Column.isAggregation, Column.input, valueOf]
    by_cases h : selector = .omitted ∧ isKeyColumn keys source.value = false
    · simp [h.1, h.2]
    · have hc : (decide (selector = .omitted) && !isKeyColumn keys source.value) = false := by
        rw [Bool.eq_false_iff]
        simpa using h
      simp only [hc, Bool.false_eq_true, if_false, pure_eq_ok_iff]
      constructor
      · rintro ⟨p, hp, rfl⟩
        refine ⟨fun ho => .inr ?_, p, hp, rfl⟩
        exact Bool.not_eq_false _ ▸ fun hk => h ⟨ho, hk⟩
      · rintro ⟨-, p, hp, rfl⟩
        exact ⟨p, hp, rfl⟩
  | aggregation function argument name place =>
    simp only [columnValue, bind_eq_ok_iff, pure_eq_ok_iff, Column.isAggregation, Column.input,
      valueOf]
    constructor
    · rintro ⟨p, hp, rfl⟩
      exact ⟨fun _ => .inl trivial, p, hp, rfl⟩
    · rintro ⟨-, p, hp, rfl⟩
      exact ⟨p, hp, rfl⟩

theorem joinedColumn_eq_ok_iff {keys : List Entity} {selector : Selector} {c : Column ρ}
    {r : JoinedColumn} :
    joinedColumn event keys selector c = .ok r ↔
      columnValue event keys selector c = .ok r.value ∧
      isReserved c.label.value = false ∧ r.label = c.label.value := by
  simp only [joinedColumn, bind_eq_ok_iff, pure_eq_ok_iff, label_eq_ok_iff]
  constructor
  · rintro ⟨v, hv, _, ⟨hl, rfl⟩, rfl⟩
    exact ⟨hv, hl, rfl⟩
  · rintro ⟨hv, hl, hr⟩
    exact ⟨_, hv, _, ⟨hl, rfl⟩, by cases r; simp_all⟩

/-- A column is lowered exactly when it fits and, under a join of all rows, is an aggregation or
named as a key. -/
theorem exists_joinedColumn_iff {keys : List Entity} {selector : Selector} {c : Column ρ} :
    (∃ r, joinedColumn event keys selector c = .ok r) ↔ c.Fits event ∧
      (selector = .omitted → c.isAggregation = true ∨ isKeyColumn keys c.input.value = true) := by
  simp only [joinedColumn_eq_ok_iff, columnValue_eq_ok_iff]
  constructor
  · rintro ⟨r, ⟨hg, p, hp, -⟩, hl, -⟩
    exact ⟨⟨hl, exists_physical_iff.mp ⟨p, hp⟩⟩, hg⟩
  · rintro ⟨h, hg⟩
    obtain ⟨p, hp⟩ := exists_physical_iff.mpr h.input
    exact ⟨⟨c.label.value, valueOf p c⟩, ⟨hg, p, hp, rfl⟩, h.label, rfl⟩

theorem filter_eq_ok_iff {f : Filter ρ} {r : ResolvedFilter} :
    filter event f = .ok r ↔ f.literal.value.isFinite = true ∧
      physical event f.column.value = .ok r.physical ∧ r.column = f.column.value ∧
      r.comparison = f.comparison.value ∧ r.literal = f.literal.value := by
  unfold filter
  cases hl : f.literal.value.isFinite with
  | false => simp
  | true =>
    simp only [if_true, bind_eq_ok_iff, pure_eq_ok_iff, true_and]
    constructor
    · rintro ⟨p, hp, rfl⟩
      exact ⟨hp, rfl, rfl, rfl⟩
    · rintro ⟨hp, hc, ho, hv⟩
      exact ⟨_, hp, by cases r; simp_all⟩

theorem exists_filter_iff {f? : Option (Filter ρ)} :
    (∃ r, f?.mapM (filter event) = .ok r) ↔
      ∀ f ∈ f?, f.literal.value.isFinite = true ∧ (event.resolve? f.column.value).isSome := by
  simp only [optionMapM_eq_ok_iff]
  cases f? with
  | none => exact ⟨fun _ => nofun, fun _ => ⟨none, .none⟩⟩
  | some f =>
    simp only [Option.mem_def, Option.some.injEq, forall_eq', ← exists_physical_iff]
    constructor
    · rintro ⟨_, (h | _)⟩
      obtain ⟨hl, hp, -⟩ := filter_eq_ok_iff.mp h
      exact ⟨hl, _, hp⟩
    · rintro ⟨hl, p, hp⟩
      exact ⟨some ⟨_, p, _, _⟩, .some (filter_eq_ok_iff.mpr ⟨hl, hp, rfl, rfl, rfl⟩)⟩

/-- A filter whose column is known fails only for its literal. -/
theorem filter_eq_error {f : Filter ρ} {fault : Fault}
    (hc : (event.resolve? f.column.value).isSome) (h : filter event f = .error fault) :
    f.literal.value.isFinite = false ∧ fault = .nonFiniteLiteral f.literal.value := by
  unfold filter at h
  obtain ⟨p, hp⟩ := exists_physical_iff.mpr hc
  cases hl : f.literal.value.isFinite with
  | false =>
    rw [hl] at h
    exact ⟨rfl, by cases h; rfl⟩
  | true =>
    rw [hl, if_pos rfl, hp] at h
    cases h

theorem entity_check_iff {name : String} :
    (do let _ ← orFault (.unknownEntity event.name name) (event.entity? name)) = .ok () ↔
      (event.entity? name).isSome := by
  cases event.entity? name <;> simp [orFault, bind, Except.bind, pure, Except.pure]

/-- A joined event has the keys, columns and filter of its clause, each lowered over the event that
the clause names. -/
theorem join_eq_ok_iff {on : Event} {j : JoinClause ρ} {r : JoinedEvent} :
    join catalog on j = .ok r ↔ catalog.find? j.event.value = some r.event ∧
      (∀ e ∈ j.entities, (r.event.entity? e.value).isSome) ∧ j.keys r.event ≠ [] ∧
      r.qualifier = j.qualifier.value ∧ r.selector = j.selector.value ∧
      List.Forall₂ (fun k x => key on k = .ok x) (j.keys r.event) r.keys ∧
      List.Forall₂ (fun c x => joinedColumn r.event (j.keys r.event) j.selector.value c = .ok x)
        j.columns r.columns ∧
      Option.Rel (fun f x => filter r.event f = .ok x) j.filter r.filter := by
  rw [join, bind_eq_ok_iff]
  simp only [lookup_eq_ok_iff, seq_eq_ok_iff, forM_eq_ok_iff, entity_check_iff]
  constructor
  · rintro ⟨event, hf, hn, h⟩
    by_cases hk : (j.keys event).isEmpty
    · rw [if_pos hk] at h
      cases h
    · simp only [if_neg hk, bind_eq_ok_iff, mapM_eq_ok_iff, optionMapM_eq_ok_iff,
        pure_eq_ok_iff] at h
      obtain ⟨keys, hkeys, columns, hcolumns, filter?, hfilter, rfl⟩ := h
      exact ⟨hf, hn, fun h => hk (by simp [h]), rfl, rfl, hkeys, hcolumns, hfilter⟩
  · rintro ⟨hf, hn, hk, hq, hs, hkeys, hcolumns, hfilter⟩
    have hk : ¬(j.keys r.event).isEmpty := by simpa using hk
    refine ⟨r.event, hf, hn, ?_⟩
    rw [if_neg hk]
    simp only [bind_eq_ok_iff, mapM_eq_ok_iff, optionMapM_eq_ok_iff, pure_eq_ok_iff]
    exact ⟨_, hkeys, _, hcolumns, _, hfilter, by cases r; simp_all⟩

theorem map_joinedColumn_of_keys {on : Event} {entities : List Entity} {keys : List JoinKey}
    (h : List.Forall₂ (fun k x => key on k = .ok x) entities keys) :
    keys.map (·.joinedColumn) = entities.map (·.idColumn) := by
  induction h with
  | nil => rfl
  | cons hk _ ih => rw [List.map_cons, List.map_cons, ih, (key_eq_ok_iff.mp hk).2.1]

/-- A clause that fits is lowered up to its filter. -/
theorem join_of_fits {on : Event} {j : JoinClause ρ} (h : j.Fits catalog on event) :
    ∃ keys columns, join catalog on j = do
      let filter ← j.filter.mapM (filter event)
      return ⟨event, j.qualifier.value, j.selector.value, keys, columns, filter⟩ := by
  obtain ⟨keys, hkeys⟩ := exists_mapM_eq_ok_iff.mpr fun k hk => exists_key_iff.mpr (h.shared k hk)
  obtain ⟨columns, hcolumns⟩ := exists_mapM_eq_ok_iff.mpr fun c hc =>
    exists_joinedColumn_iff.mpr ⟨h.columns c hc, fun ho => h.grouped ho c hc⟩
  refine ⟨keys, columns, ?_⟩
  have hn : (j.entities.forM fun e => do
      let _ ← orFault (.unknownEntity event.name e.value) (event.entity? e.value)) = .ok () := by
    simpa only [forM_eq_ok_iff, entity_check_iff] using h.named
  have hk : ¬(j.keys event).isEmpty := by simpa using h.keyed
  rw [join, lookup_eq_ok_iff.mpr h.found]
  simp only [ok_bind, hn, if_neg hk, hkeys, hcolumns]

/-- A clause is lowered exactly when it fits and its literal is finite. -/
theorem exists_join_iff {on : Event} {j : JoinClause ρ} :
    (∃ r, join catalog on j = .ok r) ↔ (∃ event, j.Fits catalog on event) ∧ j.LiteralFinite := by
  constructor
  · rintro ⟨r, h⟩
    obtain ⟨hf, hn, hk, -, -, hkeys, hcolumns, hfilter⟩ := join_eq_ok_iff.mp h
    have hc : ∀ c ∈ j.columns, _ := fun c hc => exists_joinedColumn_iff.mp
      (exists_mapM_eq_ok_iff.mp ⟨_, mapM_eq_ok_iff.mpr hcolumns⟩ c hc)
    have hs : ∀ k ∈ j.keys r.event, _ := fun k hk => exists_key_iff.mp
      (exists_mapM_eq_ok_iff.mp ⟨_, mapM_eq_ok_iff.mpr hkeys⟩ k hk)
    have hr := exists_filter_iff.mp ⟨_, optionMapM_eq_ok_iff.mpr hfilter⟩
    exact ⟨⟨r.event, hf, hn, hk, hs, fun c h => (hc c h).1, fun ho c h => (hc c h).2 ho,
      fun f h => (hr f h).2⟩, fun f h => (hr f h).1⟩
  · rintro ⟨⟨event, h⟩, hl⟩
    obtain ⟨keys, columns, he⟩ := join_of_fits h
    obtain ⟨f, hf⟩ := exists_filter_iff.mpr fun f hm => ⟨hl f hm, h.filter f hm⟩
    exact ⟨_, by rw [he, hf]; rfl⟩

/-- A clause that fits fails only for the literal of its filter. -/
theorem join_eq_error {on : Event} {j : JoinClause ρ} {fault : Fault}
    (h : j.Fits catalog on event) (he : join catalog on j = .error fault) :
    ∃ f ∈ j.filter, f.literal.value.isFinite = false ∧
      fault = .nonFiniteLiteral f.literal.value := by
  obtain ⟨keys, columns, hj⟩ := join_of_fits h
  rw [hj, bind_eq_error_iff] at he
  rcases he with he | ⟨_, _, he⟩
  · obtain ⟨f, hm, he⟩ := optionMapM_eq_error_iff.mp he
    exact ⟨f, hm, filter_eq_error (h.filter f hm) he⟩
  · cases he

end Lowering

/-- A dataset has come from its query clause by clause, in order. -/
theorem Query.toDataset_eq_ok_iff {q : Query ρ} {d : Dataset} :
    q.toDataset catalog = .ok d ↔ Lowering.base catalog q.select = .ok d.base ∧
      List.Forall₂ (fun j r => Lowering.join catalog d.base.event j = .ok r) q.joins d.joins := by
  simp only [Query.toDataset, bind_eq_ok_iff, mapM_eq_ok_iff, pure_eq_ok_iff]
  constructor
  · rintro ⟨b, hb, js, hj, rfl⟩
    exact ⟨hb, hj⟩
  · rintro ⟨hb, hj⟩
    exact ⟨_, hb, _, hj, rfl⟩

section
variable {q : Query ρ} {d : Dataset} (h : q.toDataset catalog = .ok d)
include h

theorem Query.selector_ne_omitted_of_toDataset : d.base.selector ≠ .omitted := by
  obtain ⟨-, hs, he, -⟩ := Lowering.base_eq_ok_iff.mp (toDataset_eq_ok_iff.mp h).1
  rwa [he]

theorem Query.exists_join_of_toDataset {r : JoinedEvent} (hr : r ∈ d.joins) :
    ∃ j ∈ q.joins, Lowering.join catalog d.base.event j = .ok r :=
  exists_of_forall₂ (toDataset_eq_ok_iff.mp h).2 hr

/-- A plain column of a join without a selector has the name of a key, and stands for the source of
the attribute of this name if there is one. -/
theorem Query.reference_of_toDataset {r : JoinedEvent} (hr : r ∈ d.joins)
    (ho : r.selector = .omitted) {c : JoinedColumn} (hc : c ∈ r.columns) {source physical : String}
    (hv : c.value = .reference source physical) :
    source ∈ r.keys.map (·.joinedColumn) ∧
      physical = ((r.event.attribute? source).map (·.source)).getD source := by
  obtain ⟨j, -, hj⟩ := exists_join_of_toDataset h hr
  obtain ⟨-, -, -, -, hs, hkeys, hcolumns, -⟩ := Lowering.join_eq_ok_iff.mp hj
  obtain ⟨x, -, hx⟩ := exists_of_forall₂ hcolumns hc
  obtain ⟨hx, -, -⟩ := Lowering.joinedColumn_eq_ok_iff.mp hx
  obtain ⟨hgrouped, p, hp, hvalue⟩ := Lowering.columnValue_eq_ok_iff.mp hx
  rw [hv] at hvalue
  cases x with
  | aggregation function argument name place => cases hvalue
  | reference name label place =>
    cases hvalue
    obtain ⟨k, hk, he⟩ := List.any_eq_true.mp ((hgrouped (hs ▸ ho)).resolve_left nofun)
    have he : k.idColumn = name.value := eq_of_beq he
    obtain ⟨resolved, hresolved, rfl⟩ := Lowering.physical_eq_ok_iff.mp hp
    change r.event.resolve? name.value = some resolved at hresolved
    rw [Lowering.map_joinedColumn_of_keys hkeys]
    rw [← he] at hresolved ⊢
    exact ⟨List.mem_map_of_mem hk,
      Event.physical_of_resolve? (JoinClause.mem_entities_of_mem_keys hk) hresolved⟩

/-- The labels of a dataset are free of the names that its query gives by itself. -/
theorem Query.labels_of_toDataset {r : JoinedEvent} (hr : r ∈ d.joins) {c : JoinedColumn}
    (hc : c ∈ r.columns) : isReserved c.label = false := by
  obtain ⟨j, -, hj⟩ := exists_join_of_toDataset h hr
  obtain ⟨-, -, -, -, -, -, hcolumns, -⟩ := Lowering.join_eq_ok_iff.mp hj
  obtain ⟨x, -, hx⟩ := exists_of_forall₂ hcolumns hc
  obtain ⟨-, hl, he⟩ := Lowering.joinedColumn_eq_ok_iff.mp hx
  rwa [he]

end

end EventQuery
