import EventQuery.Proofs.Catalog.Lookup
import EventQuery.Proofs.Catalog.Soundness
import Mathlib.Data.List.Forall2

/-! Catalogs that grow. An event grows by attributes and entities at the end of its lists, whose
names it did not use, and a catalog grows by events between its own. Whatever the old events
resolved, the grown ones resolve to the same. -/

namespace EventQuery

/-! ## The columns of an event -/

theorem mem_foldl_addNew {names more : List String} {name : String} :
    name ∈ more.foldl addNew names ↔ name ∈ names ∨ name ∈ more := by
  induction more generalizing names with
  | nil => simp
  | cons x more ih =>
    rw [List.foldl_cons, ih, List.mem_cons, addNew]
    split
    · next hx =>
      constructor
      · exact fun h => h.imp_right .inr
      · rintro (h | rfl | h)
        · exact .inl h
        · exact .inl hx
        · exact .inr h
    · rw [List.mem_append, List.mem_singleton, or_assoc]

theorem Event.mem_columnNames_iff {e : Event} {name : String} :
    name ∈ e.columnNames ↔ (∃ a ∈ e.attributes, a.name = name) ∨
      (∃ x ∈ e.entities, x.idColumn = name) ∨ name = e.idColumn ∨ name = e.timestampColumn := by
  simp only [columnNames, attributeNames, mem_foldl_addNew, List.mem_append, List.mem_map,
    List.mem_cons, List.not_mem_nil, or_false, false_or]
  rw [or_assoc, or_comm (a := name = e.idColumn ∨ _)]

/-- A column that resolves is listed. -/
theorem Event.mem_columnNames_of_resolve? {e : Event} {name : String} {r : ResolvedColumn}
    (h : e.resolve? name = some r) : name ∈ e.columnNames := by
  rw [mem_columnNames_iff]
  unfold Event.resolve? at h
  split at h
  · next a ha =>
    exact .inl ⟨a, List.mem_of_find?_eq_some ha, by simpa using List.find?_some ha⟩
  · split at h
    · next x hx =>
      exact .inr (.inl ⟨x, List.mem_of_find?_eq_some hx, by simpa using List.find?_some hx⟩)
    · split at h
      · next hid => exact .inr (.inr (.inl hid))
      · split at h
        · next htime => exact .inr (.inr (.inr htime))
        · cases h

theorem Event.mem_entityNames_of_entity? {e : Event} {name : String} {x : Entity}
    (h : e.entity? name = some x) : name ∈ e.entityNames :=
  List.mem_map.mpr ⟨x, List.mem_of_find?_eq_some h, by simpa using List.find?_some h⟩

/-! ## Events that grow -/

/-- The event has no entity and no column of this name. -/
def Event.IsFree (e : Event) (name : String) : Prop := name ∉ e.entityNames ∧ name ∉ e.columnNames

instance (e : Event) (name : String) : Decidable (e.IsFree name) :=
  inferInstanceAs (Decidable (_ ∧ _))

/-- The second event is the first with more attributes and more entities, none of them a default,
under names that the first does not use. -/
structure Event.Extends (e e' : Event) : Prop where
  name : e'.name = e.name
  idColumn : e'.idColumn = e.idColumn
  timestampColumn : e'.timestampColumn = e.timestampColumn
  table : e'.table = e.table
  attributes : ∃ more, e'.attributes = e.attributes ++ more ∧ ∀ a ∈ more, e.IsFree a.name
  entities : ∃ more, e'.entities = e.entities ++ more ∧
    ∀ x ∈ more, x.isDefault = false ∧ e.IsFree x.name ∧ e.IsFree x.idColumn

/-- A search that finds nothing among what was added gives what it gave before. -/
theorem find?_append_of_forall {α : Type} {p : α → Bool} {xs more : List α}
    (h : ∀ x ∈ more, p x = false) : (xs ++ more).find? p = xs.find? p := by
  have hmore : more.find? p = none :=
    List.find?_eq_none.mpr fun x hx => Bool.eq_false_iff.mp (h x hx)
  rw [List.find?_append, hmore, Option.or_none]

/-- A search by a name that was in use does not meet what was added under other names. -/
theorem find?_append_of_notMem {α : Type} {key : α → String} {taken : List String}
    {xs more : List α} {name : String} (hname : name ∈ taken) (h : ∀ x ∈ more, key x ∉ taken) :
    (xs ++ more).find? (key · == name) = xs.find? (key · == name) := by
  apply find?_append_of_forall
  intro x hx
  rw [beq_eq_false_iff_ne]
  intro heq
  exact h x hx (heq ▸ hname)

namespace Event.Extends

variable {e e' : Event} (h : e.Extends e')
include h

theorem entity?_eq {name : String} (hname : name ∈ e.entityNames) :
    e'.entity? name = e.entity? name := by
  obtain ⟨more, hentities, hfree⟩ := h.entities
  rw [entity?, entity?, hentities]
  exact find?_append_of_notMem hname fun x hx => (hfree x hx).2.1.1

theorem defaultEntity?_eq : e'.defaultEntity? = e.defaultEntity? := by
  obtain ⟨more, hentities, hfree⟩ := h.entities
  rw [defaultEntity?, defaultEntity?, hentities]
  exact find?_append_of_forall fun x hx => (hfree x hx).1

theorem partitionEntity?_eq (hne : e.entities ≠ []) :
    e'.partitionEntity? = e.partitionEntity? := by
  obtain ⟨more, hentities, -⟩ := h.entities
  rw [partitionEntity?, partitionEntity?, h.defaultEntity?_eq, hentities,
    List.head?_append_of_ne_nil e.entities hne]

theorem attribute?_eq {name : String} (hname : name ∈ e.columnNames) :
    e'.attribute? name = e.attribute? name := by
  obtain ⟨more, hattributes, hfree⟩ := h.attributes
  rw [attribute?, attribute?, hattributes]
  exact find?_append_of_notMem hname fun a ha => (hfree a ha).2

theorem find?_idColumn_eq {name : String} (hname : name ∈ e.columnNames) :
    e'.entities.find? (·.idColumn == name) = e.entities.find? (·.idColumn == name) := by
  obtain ⟨more, hentities, hfree⟩ := h.entities
  rw [hentities]
  exact find?_append_of_notMem hname fun x hx => (hfree x hx).2.2.2

theorem resolve?_eq {name : String} (hname : name ∈ e.columnNames) :
    e'.resolve? name = e.resolve? name := by
  rw [resolve?, resolve?, h.attribute?_eq hname, h.find?_idColumn_eq hname, h.idColumn,
    h.timestampColumn]

end Event.Extends

/-! ## Catalogs that grow -/

/-- The events of the first list, each of them grown or as it was, stand in the second in the same
order, and others between them. -/
def EventsExtend (events events' : List Event) : Prop :=
  ∃ kept : List Event, kept.Sublist events' ∧ List.Forall₂ Event.Extends events kept

theorem EventsExtend.exists_extends {events events' : List Event} (h : EventsExtend events events')
    {e : Event} (he : e ∈ events) : ∃ e' ∈ events', e.Extends e' := by
  obtain ⟨kept, hsub, hgrown⟩ := h
  obtain ⟨i, hi, rfl⟩ := List.mem_iff_getElem.mp he
  have hi' : i < kept.length := hgrown.length_eq ▸ hi
  exact ⟨kept[i], hsub.subset (List.getElem_mem hi'), hgrown.get hi hi'⟩

/-- An event that is found in a catalog is found in a grown one, grown itself. -/
theorem Catalog.find?_of_extension {events events' : List Event} {c c' : Catalog}
    (hc : ofEvents events = .ok c) (hc' : ofEvents events' = .ok c')
    (h : EventsExtend events events') {name : String} {e : Event} (he : c.find? name = some e) :
    ∃ e', c'.find? name = some e' ∧ e.Extends e' := by
  obtain ⟨hmem, hname⟩ := (find?_eq_some_iff hc).mp he
  obtain ⟨e', hmem', hgrown⟩ := h.exists_extends hmem
  exact ⟨e', (find?_eq_some_iff hc').mpr ⟨hmem', hgrown.name.trans hname⟩, hgrown⟩

end EventQuery
