import EventQuery.Proofs.Catalog.Construction
import EventQuery.Warehouse.Probe

/-! Events made from probed columns. A draft holds the names that it was given in small letters
(`IsGiven.stored`), and its attributes come from the columns that are no keys, one from each
(`attributes_eq_mapM`). So building stops at the first key that was not probed, then at the first
other column whose type is unknown, then at the entities; and otherwise every probed column resolves
on the event. -/

namespace EventQuery

open Outcome

/-! ## Columns of an event -/

/-- A search of related lists finds related elements. -/
theorem find?_rel {α β : Type} {R : α → β → Prop} {p : α → Bool} {q : β → Bool} {xs : List α}
    {ys : List β} (h : List.Forall₂ R xs ys) (hpq : ∀ x y, R x y → p x = q y) :
    Option.Rel R (xs.find? p) (ys.find? q) := by
  induction h with
  | nil => exact .none
  | @cons x y xs ys hxy _ ih =>
    rw [List.find?_cons, List.find?_cons, hpq x y hxy]
    cases q y with
    | true => exact .some hxy
    | false => exact ih

/-- A key that is no attribute resolves to itself. -/
theorem Event.resolve?_of_key {e : Event} {name : String} (hnone : e.attribute? name = none)
    (hkey : name = e.idColumn ∨ name = e.timestampColumn ∨ ∃ x ∈ e.entities, x.idColumn = name) :
    ∃ r, e.resolve? name = some r ∧ r.physical = name ∧ r.origin ≠ .declared := by
  rw [resolve?, hnone]
  cases hentity : e.entities.find? (·.idColumn == name) with
  | some x =>
    have hx := List.find?_some hentity
    exact ⟨_, rfl, eq_of_beq hx, nofun⟩
  | none =>
    rw [List.find?_eq_none] at hentity
    by_cases hid : name = e.idColumn
    · exact ⟨_, if_pos hid, hid.symm, nofun⟩
    · rcases hkey with hkey | htime | ⟨x, hx, hname⟩
      · exact absurd hkey hid
      · exact ⟨_, (if_neg hid).trans (if_pos htime), htime.symm, nofun⟩
      · exact absurd (beq_iff_eq.mpr hname) (hentity x hx)

namespace EventDraft

/-! ## What a draft was given -/

/-- The draft was started and then told these names: the column of the id, that of the timestamp,
and the entities, each with whether it is the default. -/
inductive IsGiven : EventDraft → String → String → List (String × Bool) → Prop
  | start (warehouse : Warehouse) (name table : String) :
    IsGiven (.start warehouse name table) "event_id" "ts" []
  | withId {d : EventDraft} {id timestamp : String} {entities : List (String × Bool)}
    (column : String) : IsGiven d id timestamp entities →
      IsGiven (d.withId column) column timestamp entities
  | withTimestamp {d : EventDraft} {id timestamp : String} {entities : List (String × Bool)}
    (column : String) : IsGiven d id timestamp entities →
      IsGiven (d.withTimestamp column) id column entities
  | withEntity {d : EventDraft} {id timestamp : String} {entities : List (String × Bool)}
    (name : String) (isDefault : Bool) : IsGiven d id timestamp entities →
      IsGiven (d.withEntity name isDefault) id timestamp (entities ++ [(name, isDefault)])

/-- The entities of such a draft. -/
def givenEntities (entities : List (String × Bool)) : List Entity :=
  entities.map fun e => ⟨Text.lower e.1, Text.lower e.1, e.2⟩

/-- The columns that such a draft needs, with what each is for. -/
def givenKeys (id timestamp : String) (entities : List (String × Bool)) : List (String × String) :=
  (Text.lower id, "event id") :: (Text.lower timestamp, "event timestamp") ::
    entities.map fun e => (Text.lower e.1, "entity id")

section
variable {d : EventDraft} {id timestamp : String} {entities : List (String × Bool)}

/-- Names are kept in small letters, in the order they were given. -/
theorem IsGiven.stored (h : IsGiven d id timestamp entities) :
    d.idColumn = Text.lower id ∧ d.timestampColumn = Text.lower timestamp ∧
      d.entities = givenEntities entities := by
  induction h with
  | start warehouse name table =>
    have hid : "event_id" = Text.lower "event_id" := by decide +kernel
    have htimestamp : "ts" = Text.lower "ts" := by decide +kernel
    exact ⟨hid, htimestamp, rfl⟩
  | withId column _ ih => exact ⟨rfl, ih.2⟩
  | withTimestamp column _ ih => exact ⟨ih.1, rfl, ih.2.2⟩
  | withEntity name isDefault _ ih =>
    refine ⟨ih.1, ih.2.1, ?_⟩
    rw [EventDraft.withEntity, ih.2.2, givenEntities, givenEntities, List.map_append]
    rfl

/-- The columns a draft needs are the id, the timestamp and the entities, in this order. -/
theorem IsGiven.required_eq (h : IsGiven d id timestamp entities) :
    d.required = givenKeys id timestamp entities := by
  obtain ⟨hid, htimestamp, hentities⟩ := h.stored
  rw [required, hid, htimestamp, hentities, givenEntities, List.map_map]
  rfl

end

/-! ## The columns that are no keys -/

/-- The names of probed columns, in small letters. -/
def columnNames (columns : List ProbedColumn) : List String :=
  columns.map fun c => Text.lower c.name

/-- The first probed column with a name in small letters. -/
def firstNamed? (columns : List ProbedColumn) (name : String) : Option ProbedColumn :=
  columns.find? fun c => Text.lower c.name == name

/-- The columns that are no keys, as they were probed. -/
def others (keys : List (String × String)) (columns : List ProbedColumn) : List ProbedColumn :=
  columns.filter fun c => Text.lower c.name ∉ keys.map (·.1)

/-- The attribute of a column: it has its name and its type. -/
structure Describes (w : Warehouse) (c : ProbedColumn) (a : Attribute) : Prop where
  name : a.name = Text.lower c.name
  source : a.source = Text.lower c.name
  dataType : w.dataType? c.reported = some a.dataType

def attributeOf (w : Warehouse) (c : ProbedColumn) : Except WarehouseError Attribute :=
  (w.dataType c.reported).map fun t => ⟨Text.lower c.name, t, Text.lower c.name⟩

theorem attributeOf_eq_ok_iff {w : Warehouse} {c : ProbedColumn} {a : Attribute} :
    attributeOf w c = .ok a ↔ Describes w c a := by
  rw [attributeOf, Warehouse.dataType]
  cases htype : w.dataType? c.reported with
  | none =>
    refine ⟨nofun, fun h => ?_⟩
    rw [h.dataType] at htype
    cases htype
  | some t =>
    constructor
    · intro h
      cases h
      exact ⟨rfl, rfl, htype⟩
    · intro ⟨hname, hsource, hdata⟩
      obtain ⟨name, dataType, source⟩ := a
      cases hname
      cases hsource
      cases htype.symm.trans hdata
      rfl

theorem attributeOf_eq_error_iff {w : Warehouse} {c : ProbedColumn} {e : WarehouseError} :
    attributeOf w c = .error e ↔
      w.dataType? c.reported = none ∧ e = .unsupportedType w c.reported := by
  rw [attributeOf, Warehouse.dataType]
  cases w.dataType? c.reported with
  | none => exact ⟨fun h => ⟨rfl, (Except.error.inj h).symm⟩, fun h => h.2 ▸ rfl⟩
  | some t => exact ⟨nofun, nofun⟩

theorem exists_attributeOf_iff {w : Warehouse} {c : ProbedColumn} :
    (∃ a, attributeOf w c = .ok a) ↔ (w.dataType? c.reported).isSome := by
  rw [attributeOf, Warehouse.dataType]
  cases w.dataType? c.reported with
  | none => exact ⟨nofun, nofun⟩
  | some t => exact ⟨fun _ => rfl, fun _ => ⟨_, rfl⟩⟩

theorem isKey_iff {d : EventDraft} {name : String} :
    d.isKey name = true ↔ name ∈ d.required.map (·.1) := by
  simp only [isKey, List.any_eq_true, beq_iff_eq, List.mem_map]

/-- A column is another one if its name in small letters is that of no key. -/
theorem mem_others_iff {keys : List (String × String)} {columns : List ProbedColumn}
    {c : ProbedColumn} :
    c ∈ others keys columns ↔ c ∈ columns ∧ Text.lower c.name ∉ keys.map (·.1) := by
  rw [others, List.mem_filter, decide_eq_true_eq]

/-- Each column that is no key becomes an attribute. -/
theorem attributes_eq_mapM (d : EventDraft) (columns : List ProbedColumn) :
    d.attributes columns = (others d.required columns).mapM (attributeOf d.warehouse) := by
  induction columns with
  | nil => rfl
  | cons c columns ih =>
    rw [attributes, ih]
    by_cases hkey : Text.lower c.name ∈ d.required.map (·.1)
    · have hothers : others d.required (c :: columns) = others d.required columns :=
        List.filter_cons_of_neg (by rw [decide_eq_true_eq]; exact not_not_intro hkey)
      rw [if_pos (isKey_iff.mpr hkey), hothers]
    · have hothers : others d.required (c :: columns) = c :: others d.required columns :=
        List.filter_cons_of_pos (decide_eq_true hkey)
      rw [if_neg (mt isKey_iff.mp hkey), hothers, List.mapM_cons, attributeOf]
      cases d.warehouse.dataType c.reported <;> rfl

/-! ## The columns that are needed -/

def requireColumn (names : List String) (k : String × String) : Except WarehouseError Unit :=
  if k.1 ∈ names then .ok () else .error (.missingColumn k.1 k.2)

theorem requireColumn_eq_ok_iff {names : List String} {k : String × String} :
    requireColumn names k = .ok () ↔ k.1 ∈ names := by
  rw [requireColumn]
  split
  · next h => exact ⟨fun _ => h, fun _ => rfl⟩
  · next h => exact ⟨nofun, fun hmem => absurd hmem h⟩

theorem requireColumn_eq_error_iff {names : List String} {k : String × String}
    {e : WarehouseError} :
    requireColumn names k = .error e ↔ k.1 ∉ names ∧ e = .missingColumn k.1 k.2 := by
  rw [requireColumn]
  split
  · next h => exact ⟨nofun, fun hmem => absurd h hmem.1⟩
  · next h => exact ⟨fun heq => ⟨h, (Except.error.inj heq).symm⟩, fun heq => heq.2 ▸ rfl⟩

theorem requireColumns_eq_forM (names : List String) (keys : List (String × String)) :
    requireColumns names keys = keys.forM (requireColumn names) := by
  induction keys with
  | nil => rfl
  | cons k keys ih =>
    rw [requireColumns, ih, show (k :: keys).forM (requireColumn names) =
      (requireColumn names k >>= fun _ => keys.forM (requireColumn names)) from rfl, requireColumn]
    split <;> rfl

theorem requireColumns_eq_ok_iff {names : List String} {keys : List (String × String)} :
    requireColumns names keys = .ok () ↔ ∀ k ∈ keys, k.1 ∈ names := by
  simp only [requireColumns_eq_forM, forM_eq_ok_iff, requireColumn_eq_ok_iff]

/-- The first key that was not probed is reported, with its role. -/
theorem requireColumns_eq_error_iff {names : List String} {keys : List (String × String)}
    {e : WarehouseError} : requireColumns names keys = .error e ↔
      ∃ before k after, keys = before ++ k :: after ∧ (∀ k ∈ before, k.1 ∈ names) ∧
        k.1 ∉ names ∧ e = .missingColumn k.1 k.2 := by
  simp only [requireColumns_eq_forM, forM_eq_error_iff, requireColumn_eq_ok_iff,
    requireColumn_eq_error_iff]

/-! ## Building -/

/-- Why no event is built: the first key that was not probed, the first other column whose type is
unknown, or the entities. -/
inductive BuildFault (d : EventDraft) (keys : List (String × String)) (entities : List Entity)
    (columns : List ProbedColumn) : WarehouseError → Prop
  | missing {before after : List (String × String)} {column role : String} :
    keys = before ++ (column, role) :: after → (∀ k ∈ before, k.1 ∈ columnNames columns) →
    column ∉ columnNames columns → BuildFault d keys entities columns (.missingColumn column role)
  | unsupported {before after : List ProbedColumn} {c : ProbedColumn} :
    (∀ k ∈ keys, k.1 ∈ columnNames columns) → others keys columns = before ++ c :: after →
    (∀ b ∈ before, (d.warehouse.dataType? b.reported).isSome) →
    d.warehouse.dataType? c.reported = none →
    BuildFault d keys entities columns (.unsupportedType d.warehouse c.reported)
  | invalid {err : CatalogError} :
    (∀ k ∈ keys, k.1 ∈ columnNames columns) →
    (∀ c ∈ others keys columns, (d.warehouse.dataType? c.reported).isSome) →
    EntityFault d.name entities err → BuildFault d keys entities columns (.invalidEvent err)

/-- The event with these attributes. -/
def eventWith (d : EventDraft) (attributes : List Attribute) : Event :=
  ⟨d.name, d.idColumn, d.timestampColumn, d.entities, attributes, d.table⟩

section
variable {d : EventDraft} {columns : List ProbedColumn}

theorem mapM_attributeOf_eq_ok_iff {w : Warehouse} {attributes : List Attribute} :
    columns.mapM (attributeOf w) = .ok attributes ↔
      List.Forall₂ (Describes w) columns attributes := by
  simp only [mapM_eq_ok_iff, attributeOf_eq_ok_iff]

theorem exists_describes_iff {w : Warehouse} :
    (∃ attributes, List.Forall₂ (Describes w) columns attributes) ↔
      ∀ c ∈ columns, (w.dataType? c.reported).isSome := by
  simp only [← mapM_attributeOf_eq_ok_iff, exists_mapM_eq_ok_iff, exists_attributeOf_iff]

/-- An event is built of a draft whose keys were probed, from the columns that are no keys. -/
theorem build_eq_ok_iff {event : Event} : d.build columns = .ok event ↔
    (∀ k ∈ d.required, k.1 ∈ columnNames columns) ∧ event.IsSound ∧
      ∃ attributes, event = d.eventWith attributes ∧
        List.Forall₂ (Describes d.warehouse) (others d.required columns) attributes := by
  rw [build, seq_eq_ok_iff, requireColumns_eq_ok_iff, attributes_eq_mapM, bind_eq_ok_iff]
  simp only [seq_eq_ok_iff, mapError_eq_ok_iff, pure_eq_ok_iff, mapM_attributeOf_eq_ok_iff,
    Event.check_eq_ok_iff]
  constructor
  · intro ⟨hkeys, attributes, hattributes, hsound, hevent⟩
    exact ⟨hkeys, hevent ▸ hsound, attributes, hevent.symm, hattributes⟩
  · intro ⟨hkeys, hsound, attributes, hevent, hattributes⟩
    rw [hevent] at hsound
    exact ⟨hkeys, attributes, hattributes, hsound, hevent.symm⟩

/-- The checks come in this order: keys, types, entities. -/
theorem build_eq_error_iff {e : WarehouseError} :
    d.build columns = .error e ↔ BuildFault d d.required d.entities columns e := by
  rw [build, bind_eq_error_iff, requireColumns_eq_error_iff, attributes_eq_mapM]
  constructor
  · intro h
    rcases h with ⟨before, k, after, hkeys, hbefore, hk, he⟩ | ⟨_, hkeys, h⟩
    · rw [he]
      exact .missing hkeys hbefore hk
    · have hkeys := requireColumns_eq_ok_iff.mp hkeys
      rcases bind_eq_error_iff.mp h with h | ⟨attributes, hattributes, h⟩
      · obtain ⟨before, c, after, hothers, hbefore, hc⟩ := mapM_eq_error_iff.mp h
        obtain ⟨hnone, he⟩ := attributeOf_eq_error_iff.mp hc
        have hbefore := fun b hb => exists_attributeOf_iff.mp (hbefore b hb)
        rw [he]
        exact .unsupported hkeys hothers hbefore hnone
      · have htypes := exists_describes_iff.mp ⟨_, mapM_attributeOf_eq_ok_iff.mp hattributes⟩
        rcases bind_eq_error_iff.mp h with h | ⟨_, _, h⟩
        · obtain ⟨err, hcheck, rfl⟩ := mapError_eq_error_iff.mp h
          exact .invalid hkeys htypes (Event.check_eq_error_iff.mp hcheck)
        · cases h
  · intro h
    cases h with
    | missing hkeys hbefore hcolumn => exact .inl ⟨_, _, _, hkeys, hbefore, hcolumn, rfl⟩
    | unsupported hkeys hothers hbefore hc =>
      refine .inr ⟨(), requireColumns_eq_ok_iff.mpr hkeys, bind_eq_error_iff.mpr (.inl ?_)⟩
      apply mapM_eq_error_iff.mpr
      exact ⟨_, _, _, hothers, fun b hb => exists_attributeOf_iff.mpr (hbefore b hb),
        attributeOf_eq_error_iff.mpr ⟨hc, rfl⟩⟩
    | invalid hkeys htypes hfault =>
      obtain ⟨attributes, hattributes⟩ := exists_describes_iff.mpr htypes
      refine .inr ⟨(), requireColumns_eq_ok_iff.mpr hkeys, bind_eq_error_iff.mpr (.inr ?_)⟩
      refine ⟨attributes, mapM_attributeOf_eq_ok_iff.mpr hattributes, ?_⟩
      apply bind_eq_error_iff.mpr
      exact .inl (mapError_eq_error_iff.mpr ⟨_, Event.check_eq_error_iff.mpr hfault, rfl⟩)

/-! ## The columns of the event -/

section
variable {keys : List (String × String)} {w : Warehouse} {event : Event}

theorem attribute?_of_key (h : List.Forall₂ (Describes w) (others keys columns) event.attributes)
    {name : String} (hkey : name ∈ keys.map (·.1)) : event.attribute? name = none := by
  rw [Event.attribute?, List.find?_eq_none]
  intro a ha
  obtain ⟨c, hc, hdescribes⟩ := exists_of_forall₂ h ha
  rw [beq_iff_eq, hdescribes.name]
  intro heq
  exact (mem_others_iff.mp hc).2 (heq ▸ hkey)

/-- Leaving out the keys does not change which column of another name comes first. -/
theorem firstNamed?_others {name : String} (hkey : name ∉ keys.map (·.1)) :
    firstNamed? (others keys columns) name = firstNamed? columns name := by
  rw [firstNamed?, firstNamed?, others, List.find?_filter]
  congr 1
  funext b
  by_cases hb : Text.lower b.name = name
  · rw [hb, decide_eq_true hkey]
    simp
  · rw [beq_false_of_ne hb]
    simp

/-- A column that is no key resolves to the attribute of the first column with its name. -/
theorem resolve?_of_mem_others (h : List.Forall₂ (Describes w) (others keys columns)
    event.attributes) {c : ProbedColumn} (hc : c ∈ others keys columns) :
    ∃ first, firstNamed? columns (Text.lower c.name) = some first ∧
      event.resolve? (Text.lower c.name) =
        some ⟨Text.lower c.name, .declared, w.dataType? first.reported⟩ := by
  obtain ⟨hmem, hkey⟩ := mem_others_iff.mp hc
  -- Several columns may have this name in small letters, and only the first of them is found.
  have hrel : Option.Rel (Describes w) (firstNamed? (others keys columns) (Text.lower c.name))
      (event.attribute? (Text.lower c.name)) :=
    find?_rel h fun b a hba => by rw [hba.name]
  have hsome : (firstNamed? columns (Text.lower c.name)).isSome :=
    List.find?_isSome.mpr ⟨c, hmem, beq_self_eq_true _⟩
  obtain ⟨first, hfirst⟩ := Option.isSome_iff_exists.mp hsome
  have hname := List.find?_some hfirst
  rw [firstNamed?_others hkey, hfirst] at hrel
  generalize hattribute : event.attribute? (Text.lower c.name) = found at hrel
  cases hrel with
  | @some _ a hdescribes =>
    refine ⟨first, hfirst, ?_⟩
    rw [Event.resolve?, hattribute, hdescribes.dataType]
    simp only [hdescribes.source, beq_iff_eq.mp hname]

end

/-- What is known of the event of a draft with these keys: it is sound, its attributes are those of
the columns that are no keys, and every probed column resolves to itself, as an attribute if it is
no key and only then. -/
structure Accounts (w : Warehouse) (keys : List (String × String)) (columns : List ProbedColumn)
    (event : Event) : Prop where
  check : event.check = .ok ()
  attributes : List.Forall₂ (Describes w) (others keys columns) event.attributes
  other : ∀ c ∈ others keys columns,
    ∃ first, firstNamed? columns (Text.lower c.name) = some first ∧
      event.resolve? (Text.lower c.name) =
        some ⟨Text.lower c.name, .declared, w.dataType? first.reported⟩
  key : ∀ c ∈ columns, Text.lower c.name ∈ keys.map (·.1) →
    ∃ r, event.resolve? (Text.lower c.name) = some r ∧ r.physical = Text.lower c.name ∧
      r.origin ≠ .declared

/-- The keys of a draft are columns of its event. -/
theorem key_of_mem_required {attributes : List Attribute} {name : String}
    (h : name ∈ d.required.map (·.1)) : name = (d.eventWith attributes).idColumn ∨
      name = (d.eventWith attributes).timestampColumn ∨
        ∃ x ∈ (d.eventWith attributes).entities, x.idColumn = name := by
  rw [required, List.map_cons, List.map_cons, List.map_map, List.mem_cons, List.mem_cons,
    List.mem_map] at h
  exact h

theorem accounts_of_build {event : Event} (h : d.build columns = .ok event) :
    Accounts d.warehouse d.required columns event := by
  obtain ⟨-, hsound, attributes, rfl, hattributes⟩ := build_eq_ok_iff.mp h
  refine ⟨Event.check_of_isSound hsound, hattributes,
    fun c hc => resolve?_of_mem_others hattributes hc, fun c _ hkey => ?_⟩
  exact Event.resolve?_of_key (attribute?_of_key hattributes hkey) (key_of_mem_required hkey)

theorem isSound_eventWith_iff {entities : List (String × Bool)} {attributes : List Attribute}
    (h : d.entities = givenEntities entities) :
    (d.eventWith attributes).IsSound ↔ entities ≠ [] ∧ (entities.filter (·.2)).length ≤ 1 := by
  have hnil : (d.eventWith attributes).entities = [] ↔ entities = [] := by
    rw [eventWith, h, givenEntities, List.map_eq_nil_iff]
  have hdefaults : ((d.eventWith attributes).entities.filter (·.isDefault)).length =
      (entities.filter (·.2)).length := by
    rw [eventWith, h, givenEntities, List.filter_map, List.length_map]
    rfl
  constructor
  · intro hsound
    exact ⟨mt hnil.mpr hsound.entities, hdefaults ▸ hsound.defaults⟩
  · intro ⟨hne, hle⟩
    exact ⟨mt hnil.mp hne, hdefaults ▸ hle⟩

/-- **A draft accounts for every probed column.** Building stops at the first key that was not
probed, in the order id, timestamp, entities; then at the first other column whose type the
warehouse does not know; then at entities that are missing or have two defaults. Otherwise there is
an event, and it accounts for the columns. -/
theorem build_accounts_for_columns {id timestamp : String} {entities : List (String × Bool)}
    (h : d.IsGiven id timestamp entities) (columns : List ProbedColumn) :
    (∀ e, d.build columns = .error e ↔
      BuildFault d (givenKeys id timestamp entities) (givenEntities entities) columns e) ∧
    ((∃ event, d.build columns = .ok event) ↔
      (∀ k ∈ givenKeys id timestamp entities, k.1 ∈ columnNames columns) ∧
      (∀ c ∈ others (givenKeys id timestamp entities) columns,
        (d.warehouse.dataType? c.reported).isSome) ∧
      entities ≠ [] ∧ (entities.filter (·.2)).length ≤ 1) ∧
    ∀ event, d.build columns = .ok event →
      Accounts d.warehouse (givenKeys id timestamp entities) columns event ∧
      event = ⟨d.name, Text.lower id, Text.lower timestamp, givenEntities entities,
        event.attributes, d.table⟩ := by
  obtain ⟨hid, htimestamp, hentities⟩ := h.stored
  rw [← h.required_eq, ← hentities]
  refine ⟨fun e => build_eq_error_iff, ?_, fun event hevent => ⟨accounts_of_build hevent, ?_⟩⟩
  · constructor
    · intro ⟨event, hevent⟩
      obtain ⟨hkeys, hsound, attributes, rfl, hattributes⟩ := build_eq_ok_iff.mp hevent
      exact ⟨hkeys, exists_describes_iff.mp ⟨attributes, hattributes⟩,
        (isSound_eventWith_iff hentities).mp hsound⟩
    · intro ⟨hkeys, htypes, hsound⟩
      obtain ⟨attributes, hattributes⟩ := exists_describes_iff.mpr htypes
      exact ⟨_, build_eq_ok_iff.mpr
        ⟨hkeys, (isSound_eventWith_iff hentities).mpr hsound, attributes, rfl, hattributes⟩⟩
  · obtain ⟨-, -, attributes, rfl, -⟩ := build_eq_ok_iff.mp hevent
    rw [← hid, ← htimestamp]
    rfl

end

def orderDraft : EventDraft :=
  ((start .duckDb "order" "orders").withId "ORDER_ID").withEntity "User" true

/-- Two columns have one name in small letters. -/
def orderColumns : List ProbedColumn :=
  [⟨"Order_Id", .named "VARCHAR"⟩, ⟨"TS", .named "TIMESTAMP"⟩, ⟨"user", .named "BIGINT"⟩,
    ⟨"Amount", .named "DECIMAL(18,2)"⟩, ⟨"AMOUNT", .named "BIGINT"⟩]

/-- Of two columns with one name in small letters, the first decides the type. -/
theorem orderDraft_accounts_for_amounts :
    orderDraft.IsGiven "ORDER_ID" "ts" [("User", true)] ∧
      ∃ event, orderDraft.build orderColumns = .ok event ∧
        event.resolve? "amount" = some ⟨"amount", .declared, some .float⟩ := by
  have hgiven : orderDraft.IsGiven "ORDER_ID" "ts" [("User", true)] :=
    .withEntity "User" true (.withId "ORDER_ID" (.start .duckDb "order" "orders"))
  obtain ⟨-, hbuilt, haccounts⟩ := build_accounts_for_columns hgiven orderColumns
  obtain ⟨event, hevent⟩ :=
    hbuilt.mpr ⟨by decide +kernel, by decide +kernel, by decide, by decide⟩
  obtain ⟨first, hfirst, hresolve⟩ :=
    (haccounts event hevent).1.other ⟨"AMOUNT", .named "BIGINT"⟩ (by decide +kernel)
  have hlower : Text.lower "AMOUNT" = "amount" := by decide +kernel
  have hamount : firstNamed? orderColumns "amount" =
      some ⟨"Amount", .named "DECIMAL(18,2)"⟩ := by decide +kernel
  have htype : Warehouse.dataType? .duckDb (.named "DECIMAL(18,2)") = some .float := by
    decide +kernel
  rw [hlower] at hfirst hresolve
  rw [hamount] at hfirst
  cases hfirst
  refine ⟨hgiven, event, hevent, hresolve.trans ?_⟩
  rw [show orderDraft.warehouse = .duckDb from rfl, htype]

end EventDraft

end EventQuery
