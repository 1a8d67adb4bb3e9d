import EventQuery.Proofs.Outcome
import EventQuery.Query.Validation

/-! When a query fits a catalog, said without an order of checks: every clause finds its event,
and every name in the clause finds what it names there. Checking a query succeeds exactly when it
fits (`Query.validate_eq_ok_iff`). -/

namespace EventQuery

open Outcome

variable {ρ : Type} {catalog : Catalog} {base event : Event}

/-- The column reads something of the event, under a label that is free. -/
structure Column.Fits (event : Event) (c : Column ρ) : Prop where
  label : isReserved c.label.value = false
  input : (event.resolve? c.input.value).isSome

structure SelectClause.Fits (catalog : Catalog) (s : SelectClause ρ) (event : Event) : Prop where
  found : catalog.find? s.event.value = some event
  selector : s.selector.value ≠ .omitted
  columns : ∀ c ∈ s.columns, c.Fits event
  plain : ∀ c ∈ s.columns, c.isAggregation = false

structure JoinClause.Fits (catalog : Catalog) (base : Event) (j : JoinClause ρ) (event : Event) :
    Prop where
  found : catalog.find? j.event.value = some event
  named : ∀ e ∈ j.entities, (event.entity? e.value).isSome
  keyed : j.keys event ≠ []
  shared : ∀ k ∈ j.keys event, (base.entity? k.name).isSome
  columns : ∀ c ∈ j.columns, c.Fits event
  grouped : j.selector.value = .omitted →
    ∀ c ∈ j.columns, c.isAggregation = true ∨ isKeyColumn (j.keys event) c.input.value = true
  filter : ∀ f ∈ j.filter, (event.resolve? f.column.value).isSome

structure Query.Fits (catalog : Catalog) (q : Query ρ) (base : Event) : Prop where
  select : q.select.Fits catalog base
  joins : ∀ j ∈ q.joins, ∃ event, j.Fits catalog base event

/-! ## The keys of a join -/

/-- An entity is found under its own name. -/
theorem Event.name_of_entity? {e : Event} {name : String} {x : Entity}
    (h : e.entity? name = some x) : x.name = name := by
  have := List.find?_some h
  simpa using this

theorem JoinClause.keys_of_isEmpty {j : JoinClause ρ} (h : j.entities.isEmpty) :
    j.keys event = event.defaultEntity?.toList := if_pos h

theorem JoinClause.keys_of_not_isEmpty {j : JoinClause ρ} (h : ¬j.entities.isEmpty) :
    j.keys event = j.entities.filterMap fun e => event.entity? e.value := if_neg h

/-- With all its entities known, the keys of a join that names some are these, one for one. -/
theorem JoinClause.mem_keys_iff {j : JoinClause ρ} (h : ¬j.entities.isEmpty) {k : Entity} :
    k ∈ j.keys event ↔ ∃ e ∈ j.entities, event.entity? e.value = some k := by
  rw [keys_of_not_isEmpty h, List.mem_filterMap]

theorem JoinClause.mem_entities_of_mem_keys {j : JoinClause ρ} {k : Entity}
    (h : k ∈ j.keys event) : k ∈ event.entities := by
  by_cases he : j.entities.isEmpty
  · rw [keys_of_isEmpty he, Option.mem_toList] at h
    exact List.mem_of_find?_eq_some h
  · obtain ⟨e, -, hk⟩ := (mem_keys_iff he).mp h
    exact List.mem_of_find?_eq_some hk

/-- The id column of an entity is what its name resolves to, unless it is the name of an attribute
as well. -/
theorem Event.physical_of_resolve? {k : Entity} (hk : k ∈ event.entities) {r : ResolvedColumn}
    (h : event.resolve? k.idColumn = some r) :
    r.physical = ((event.attribute? k.idColumn).map (·.source)).getD k.idColumn := by
  unfold Event.resolve? at h
  cases ha : event.attribute? k.idColumn with
  | some a =>
    rw [ha] at h
    cases h
    rfl
  | none =>
    obtain ⟨x, hx⟩ : ∃ x, event.entities.find? (·.idColumn == k.idColumn) = some x :=
      Option.isSome_iff_exists.mp (List.find?_isSome.mpr ⟨k, hk, beq_self_eq_true _⟩)
    have he := List.find?_some hx
    rw [ha, hx] at h
    cases h
    exact eq_of_beq he

/-- A join that names entities, each of which the event has, has a key. -/
theorem JoinClause.keys_ne_nil {j : JoinClause ρ} (h : ¬j.entities.isEmpty)
    (hn : ∀ e ∈ j.entities, (event.entity? e.value).isSome) : j.keys event ≠ [] := by
  cases he : j.entities with
  | nil => simp [he] at h
  | cons e es =>
    have hmem : e ∈ j.entities := by simp [he]
    obtain ⟨k, hk⟩ := Option.isSome_iff_exists.mp (hn e hmem)
    exact List.ne_nil_of_mem ((mem_keys_iff h).mpr ⟨e, hmem, hk⟩)

namespace Validation

theorem failUnless_eq_ok_iff {condition : Bool} {fault : Fault} {place : ρ} :
    failUnless condition fault place = .ok () ↔ condition = true := by
  cases condition <;> simp [failUnless]

/-- The name of an event passes where an event has it, and gives this event. -/
theorem event_eq_ok_iff {name : Located ρ String} :
    Validation.event catalog name = .ok event ↔ catalog.find? name.value = some event := by
  unfold Validation.event
  cases catalog.find? name.value <;> simp

theorem joinColumn_eq_ok_iff {c : Column ρ} : joinColumn event c = .ok () ↔ c.Fits event := by
  simp only [joinColumn, label, column, seq_eq_ok_iff, failUnless_eq_ok_iff, Bool.not_eq_true']
  exact ⟨fun ⟨hl, hi⟩ => ⟨hl, hi⟩, fun h => ⟨h.label, h.input⟩⟩

/-- A column of the base may be anything but an aggregation. -/
theorem selectColumn_eq_ok_iff {c : Column ρ} :
    selectColumn event c = .ok () ↔ c.Fits event ∧ c.isAggregation = false := by
  simp only [selectColumn, label, column, seq_eq_ok_iff, failUnless_eq_ok_iff, Bool.not_eq_true']
  exact ⟨fun ⟨hl, hp, hi⟩ => ⟨⟨hl, hi⟩, hp⟩, fun ⟨h, hp⟩ => ⟨h.label, hp, h.input⟩⟩

theorem select_eq_ok_iff {s : SelectClause ρ} :
    Validation.select catalog s = .ok event ↔ s.Fits catalog event := by
  rw [Validation.select, bind_eq_ok_iff]
  simp only [seq_eq_ok_iff, event_eq_ok_iff, failUnless_eq_ok_iff, forM_eq_ok_iff,
    selectColumn_eq_ok_iff, pure_eq_ok_iff, decide_eq_true_eq]
  constructor
  · rintro ⟨_, hf, hs, hc, rfl⟩
    exact ⟨hf, hs, fun c h => (hc c h).1, fun c h => (hc c h).2⟩
  · intro h
    exact ⟨event, h.found, h.selector, fun c hc => ⟨h.columns c hc, h.plain c hc⟩, rfl⟩

/-- The keys are those that the join names or the default; each has to be an entity of both events,
and there has to be one. -/
theorem keys_eq_ok_iff {j : JoinClause ρ} {ks : List Entity} :
    Validation.keys base event j = .ok ks ↔ ks = j.keys event ∧
      (∀ e ∈ j.entities, (event.entity? e.value).isSome) ∧ j.keys event ≠ [] ∧
      ∀ k ∈ j.keys event, (base.entity? k.name).isSome := by
  rw [Validation.keys, bind_eq_ok_iff]
  simp only [seq_eq_ok_iff, pure_eq_ok_iff, forM_eq_ok_iff, failUnless_eq_ok_iff]
  by_cases he : j.entities.isEmpty
  · rw [requestedKeys, if_pos he, JoinClause.keys_of_isEmpty he, List.isEmpty_iff.mp he]
    cases event.defaultEntity? with
    | none => simp
    | some d =>
      simp only [Option.toList_some, List.mem_singleton, forall_eq]
      constructor
      · rintro ⟨_, h, hs, rfl⟩
        cases h
        exact ⟨rfl, nofun, by simp, hs _ (List.mem_singleton_self _)⟩
      · rintro ⟨rfl, -, -, hs⟩
        refine ⟨_, rfl, fun e hmem => ?_, rfl⟩
        rw [List.mem_singleton.mp hmem]
        exact hs
  · rw [requestedKeys, if_neg he]
    simp only [seq_eq_ok_iff, pure_eq_ok_iff, forM_eq_ok_iff, failUnless_eq_ok_iff]
    constructor
    · rintro ⟨_, ⟨hn, rfl⟩, hs, rfl⟩
      refine ⟨rfl, hn, JoinClause.keys_ne_nil he hn, fun k hk => ?_⟩
      obtain ⟨e, hmem, hk⟩ := (JoinClause.mem_keys_iff he).mp hk
      rw [Event.name_of_entity? hk]
      exact hs e hmem
    · rintro ⟨rfl, hn, -, hs⟩
      refine ⟨j.entities, ⟨hn, rfl⟩, fun e hmem => ?_, rfl⟩
      obtain ⟨k, hk⟩ := Option.isSome_iff_exists.mp (hn e hmem)
      rw [← Event.name_of_entity? hk]
      exact hs k ((JoinClause.mem_keys_iff he).mpr ⟨e, hmem, hk⟩)

/-- Under a join of all rows, a plain column has to be named as the column of a key. -/
theorem groupedColumn_eq_ok_iff {ks : List Entity} {c : Column ρ} :
    groupedColumn event ks c = .ok () ↔
      c.isAggregation = true ∨ isKeyColumn ks c.input.value = true := by
  rw [groupedColumn, failUnless_eq_ok_iff, Bool.or_eq_true]

theorem filter_eq_ok_iff {filter : Option (Filter ρ)} :
    (match filter with
      | some f => column event f.column
      | none => pure ()) = .ok () ↔ ∀ f ∈ filter, (event.resolve? f.column.value).isSome := by
  cases filter with
  | none => simp [pure, Except.pure]
  | some f => simp [column, failUnless_eq_ok_iff]

/-- A join passes exactly when it fits with some event, which is the one its name finds. -/
theorem join_eq_ok_iff {j : JoinClause ρ} :
    Validation.join catalog base j = .ok () ↔ ∃ event, j.Fits catalog base event := by
  rw [Validation.join, bind_eq_ok_iff]
  simp only [event_eq_ok_iff]
  refine exists_congr fun event => ?_
  rw [bind_eq_ok_iff]
  simp only [keys_eq_ok_iff, seq_eq_ok_iff, forM_eq_ok_iff, joinColumn_eq_ok_iff]
  by_cases ho : j.selector.value = .omitted
  · simp only [if_pos ho, seq_eq_ok_iff, forM_eq_ok_iff, groupedColumn_eq_ok_iff]
    constructor
    · rintro ⟨hf, _, ⟨rfl, hn, hk, hs⟩, hc, hg, hr⟩
      exact ⟨hf, hn, hk, hs, hc, fun _ => hg, filter_eq_ok_iff.mp hr⟩
    · intro h
      exact ⟨h.found, _, ⟨rfl, h.named, h.keyed, h.shared⟩, h.columns, h.grouped ho,
        filter_eq_ok_iff.mpr h.filter⟩
  · simp only [if_neg ho]
    constructor
    · rintro ⟨hf, _, ⟨rfl, hn, hk, hs⟩, hc, hr⟩
      exact ⟨hf, hn, hk, hs, hc, fun h => absurd h ho, filter_eq_ok_iff.mp hr⟩
    · intro h
      exact ⟨h.found, _, ⟨rfl, h.named, h.keyed, h.shared⟩, h.columns,
        filter_eq_ok_iff.mpr h.filter⟩

end Validation

/-- The order of the checks does not matter for whether a query passes. -/
theorem Query.validate_eq_ok_iff {q : Query ρ} :
    q.validate catalog = .ok () ↔ ∃ base, q.Fits catalog base := by
  rw [Query.validate, bind_eq_ok_iff]
  simp only [Validation.select_eq_ok_iff, forM_eq_ok_iff, Validation.join_eq_ok_iff]
  exact ⟨fun ⟨base, hs, hj⟩ => ⟨base, hs, hj⟩, fun ⟨base, h⟩ => ⟨base, h.select, h.joins⟩⟩

end EventQuery
