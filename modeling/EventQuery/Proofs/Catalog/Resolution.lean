import EventQuery.Proofs.Catalog.Extension
import Mathlib.Data.List.Nodup

/-! The columns that an event lists and those that it resolves. Names are collected in one order and
looked up in another, and several parts of an event may share a name; still the names listed are
those that resolve. What a name resolves to is told by a relation (`Event.Resolves`) with a rule for
each kind of column. -/

namespace EventQuery

/-! ## Names collected once -/

theorem prefix_addNew (names : List String) (name : String) : names <+: addNew names name := by
  unfold addNew
  split
  · exact List.prefix_refl names
  · exact List.prefix_append names [name]

theorem nodup_addNew {names : List String} (h : names.Nodup) (name : String) :
    (addNew names name).Nodup := by
  unfold addNew
  split
  · exact h
  · next hnew => exact List.concat_eq_append ▸ (List.nodup_concat names name).mpr ⟨hnew, h⟩

theorem prefix_foldl_addNew (names more : List String) : names <+: more.foldl addNew names := by
  induction more generalizing names with
  | nil => exact List.prefix_refl names
  | cons name more ih => exact (prefix_addNew names name).trans (ih (addNew names name))

theorem nodup_foldl_addNew {names : List String} (h : names.Nodup) (more : List String) :
    (more.foldl addNew names).Nodup := by
  induction more generalizing names with
  | nil => exact h
  | cons name more ih => exact ih (nodup_addNew h name)

namespace Event

variable {e : Event} {name : String}

/-- The listed names of attributes include those of the id and the timestamp. -/
theorem mem_attributeNames_iff : name ∈ e.attributeNames ↔
    (∃ a ∈ e.attributes, a.name = name) ∨ name = e.idColumn ∨ name = e.timestampColumn := by
  simp only [attributeNames, mem_foldl_addNew, List.mem_append, List.mem_map, List.mem_cons,
    List.not_mem_nil, or_false, false_or]

/-! ## What a name stands for -/

/-- The first member of a list with this key. -/
def IsFirst {α : Type} (key : α → String) (name : String) (xs : List α) (x : α) : Prop :=
  ∃ before after, xs = before ++ x :: after ∧ key x = name ∧ ∀ y ∈ before, key y ≠ name

/-- What a name stands for as a column of an event. An attribute hides the id of an entity, which
hides the id of the event, which hides the timestamp; of several attributes or several entities the
first counts. -/
inductive Resolves (e : Event) (name : String) : ResolvedColumn → Prop
  | declared {a : Attribute} : IsFirst Attribute.name name e.attributes a →
    Resolves e name ⟨a.source, .declared, some a.dataType⟩
  | entityId {x : Entity} : (∀ a ∈ e.attributes, a.name ≠ name) →
    IsFirst Entity.idColumn name e.entities x →
    Resolves e name ⟨x.idColumn, .entityId x.name, none⟩
  | eventId : (∀ a ∈ e.attributes, a.name ≠ name) → (∀ x ∈ e.entities, x.idColumn ≠ name) →
    name = e.idColumn → Resolves e name ⟨e.idColumn, .eventId, none⟩
  | eventTimestamp : (∀ a ∈ e.attributes, a.name ≠ name) →
    (∀ x ∈ e.entities, x.idColumn ≠ name) → name ≠ e.idColumn → name = e.timestampColumn →
    Resolves e name ⟨e.timestampColumn, .eventTimestamp, some .timestamp⟩

theorem isFirst_iff {α : Type} {key : α → String} {xs : List α} {x : α} :
    IsFirst key name xs x ↔ xs.find? (key · == name) = some x := by
  rw [List.find?_eq_some_iff_append, beq_iff_eq]
  constructor
  · rintro ⟨before, after, hxs, hx, hbefore⟩
    exact ⟨hx, before, after, hxs, fun y hy => by simpa using hbefore y hy⟩
  · rintro ⟨hx, before, after, hxs, hbefore⟩
    exact ⟨before, after, hxs, hx, fun y hy => by simpa using hbefore y hy⟩

theorem forall_ne_iff {α : Type} {key : α → String} {xs : List α} :
    (∀ x ∈ xs, key x ≠ name) ↔ xs.find? (key · == name) = none := by
  simp only [List.find?_eq_none, beq_iff_eq, ne_eq]

/-- The search goes by the rules of the relation, each rule where those before it find nothing. -/
theorem resolves_of_resolve? {r : ResolvedColumn} (h : e.resolve? name = some r) :
    e.Resolves name r := by
  unfold resolve? at h
  split at h
  · next a ha =>
    cases h
    exact .declared (isFirst_iff.mpr ha)
  · next ha =>
    have hdeclared : ∀ a ∈ e.attributes, a.name ≠ name := forall_ne_iff.mpr ha
    split at h
    · next x hx =>
      cases h
      exact .entityId hdeclared (isFirst_iff.mpr hx)
    · next hx =>
      have hentities : ∀ x ∈ e.entities, x.idColumn ≠ name := forall_ne_iff.mpr hx
      split at h
      · next hid =>
        cases h
        exact .eventId hdeclared hentities hid
      · next hid =>
        split at h
        · next htime =>
          cases h
          exact .eventTimestamp hdeclared hentities hid htime
        · cases h

/-- The rules exclude each other, so a name stands for one column at most. -/
theorem resolve?_of_resolves {r : ResolvedColumn} (h : e.Resolves name r) :
    e.resolve? name = some r := by
  cases h with
  | declared ha => rw [resolve?, attribute?, isFirst_iff.mp ha]
  | entityId ha hx => rw [resolve?, attribute?, forall_ne_iff.mp ha, isFirst_iff.mp hx]
  | eventId ha hx hid =>
    rw [resolve?, attribute?, forall_ne_iff.mp ha, forall_ne_iff.mp hx]
    exact if_pos hid
  | eventTimestamp ha hx hid htime =>
    rw [resolve?, attribute?, forall_ne_iff.mp ha, forall_ne_iff.mp hx]
    exact (if_neg hid).trans (if_pos htime)

/-- A column that is listed resolves. -/
theorem isSome_resolve?_of_mem (h : name ∈ e.columnNames) : (e.resolve? name).isSome := by
  unfold resolve?
  split
  · rfl
  · next ha =>
    split
    · rfl
    · next hx =>
      split
      · rfl
      · next hid =>
        split
        · rfl
        · next htime =>
          -- The name is none of the four kinds of columns, but each listed name is one of them.
          exfalso
          rcases mem_columnNames_iff.mp h with ⟨a, hmem, heq⟩ | ⟨x, hmem, heq⟩ | heq | heq
          · exact forall_ne_iff.mpr ha a hmem heq
          · exact forall_ne_iff.mpr hx x hmem heq
          · exact hid heq
          · exact htime heq

/-- **The columns listed are those that resolve.** Each is listed once, and the names of the
attributes, the id and the timestamp are listed in front of all others. A name stands for the first
attribute of that name, else for the first entity with that id column, else for the id of the event,
else for its timestamp. -/
theorem columns_listed_iff_resolved (e : Event) :
    (∀ name, name ∈ e.columnNames ↔ (e.resolve? name).isSome) ∧
    e.columnNames.Nodup ∧ e.attributeNames <+: e.columnNames ∧
    (∀ name, name ∈ e.attributeNames ↔
      (∃ a ∈ e.attributes, a.name = name) ∨ name = e.idColumn ∨ name = e.timestampColumn) ∧
    ∀ name r, e.resolve? name = some r ↔ e.Resolves name r := by
  refine ⟨fun name => ⟨isSome_resolve?_of_mem, fun h => ?_⟩, ?_, ?_,
    fun name => mem_attributeNames_iff, fun name r => ?_⟩
  · obtain ⟨r, hr⟩ := Option.isSome_iff_exists.mp h
    exact mem_columnNames_of_resolve? hr
  · exact nodup_foldl_addNew (nodup_foldl_addNew List.nodup_nil _) _
  · exact prefix_foldl_addNew _ _
  · exact ⟨resolves_of_resolve?, resolve?_of_resolves⟩

example :
    let e : Event := ⟨"sale", "id", "id", [⟨"user", "id", true⟩, ⟨"shop", "at", false⟩],
      [⟨"at", .string, "a"⟩, ⟨"at", .float, "b"⟩], "sales"⟩
    e.columnNames = ["at", "id"] ∧ e.resolve? "at" = some ⟨"a", .declared, some .string⟩ ∧
      e.resolve? "id" = some ⟨"id", .entityId "user", none⟩ := by
  decide

end Event

end EventQuery
