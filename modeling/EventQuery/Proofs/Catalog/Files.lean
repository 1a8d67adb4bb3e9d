import EventQuery.Catalog.File
import EventQuery.Proofs.Catalog.Lookup

/-! Catalogs that are written and read again. A record of a file may have its fields in any order
and among others that do not count (`Value.HasFields`), a column that has the name of its attribute
or entity may be left out or null, a flag that is not set may be left out, and a type may have any
of its names. What is read back is the catalog of the same events. -/

namespace EventQuery

open Outcome

/-! ## Records -/

/-- The record has these fields: each of them once where there is a value for it, and not at all
where there is none. Their order and fields of other names do not matter. -/
def Value.HasFields (known : List (String × Option Value)) (v : Value) : Prop :=
  ∃ fields, v = .record fields ∧
    ∀ k ∈ known, fields.filter (·.1 == k.1) = k.2.toList.map fun v => (k.1, v)

theorem lookup_eq_head?_filter {α : Type} (fields : List (String × α)) (name : String) :
    fields.lookup name = ((fields.filter (·.1 == name)).head?).map (·.2) := by
  induction fields with
  | nil => rfl
  | cons f fields ih =>
    obtain ⟨key, v⟩ := f
    rw [List.lookup_cons]
    by_cases hname : name = key
    · subst hname
      simp
    · rw [beq_false_of_ne hname, List.filter_cons_of_neg (by simpa using Ne.symm hname)]
      exact ih

/-- Fields are found by name, whatever their order and whatever else the record holds. -/
theorem Value.fields?_of_hasFields {known : List (String × Option Value)} {v : Value}
    (h : v.HasFields known) (format : DocumentFormat) :
    v.fields? format (known.map (·.1)) = some ⟨false, known.map (·.2)⟩ := by
  obtain ⟨fields, rfl, hknown⟩ := h
  have honce : (known.map (·.1)).all
      fun name => (fields.filter (·.1 == name)).length ≤ 1 := by
    rw [List.all_eq_true]
    intro name hname
    obtain ⟨k, hk, rfl⟩ := List.mem_map.mp hname
    rw [hknown k hk, List.length_map, decide_eq_true_eq]
    cases k.2 <;> simp
  have hvalues : ((known.map (·.1)).map fun name => fields.lookup name) = known.map (·.2) := by
    rw [List.map_map]
    apply List.map_congr_left
    intro k hk
    rw [Function.comp_apply, lookup_eq_head?_filter, hknown k hk]
    cases k.2 <;> rfl
  rw [fields?, if_pos honce, hvalues]

/-- The elements of a list are read one by one. -/
theorem Value.asList?_of_forall₂ {α β : Type} {read : Value → Option β} {R : α → β → Prop}
    {xs : List α} {vs : List Value}
    (h : List.Forall₂ (fun x v => ∃ y, read v = some y ∧ R x y) xs vs) :
    ∃ ys, Value.asList? read (.list vs) = some ys ∧ List.Forall₂ R xs ys := by
  rw [asList?]
  induction h with
  | nil => exact ⟨[], rfl, .nil⟩
  | cons hx _ ih =>
    obtain ⟨y, hy, hxy⟩ := hx
    obtain ⟨ys, hys, hrel⟩ := ih
    refine ⟨y :: ys, ?_, .cons hxy hrel⟩
    rw [List.mapM_cons, hy, hys]
    rfl

/-! ## The forms of a catalog -/

/-- A text that has a default: as it is, or left out or null if it is the default. -/
inductive TextForm (default text : String) : Option Value → Prop
  | written : TextForm default text (some (.text text))
  | null : text = default → TextForm default text (some .null)
  | omitted : text = default → TextForm default text none

/-- A flag: as it is, or left out if it is not set. -/
inductive FlagForm : Bool → Option Value → Prop
  | written (flag : Bool) : FlagForm flag (some (.bool flag))
  | omitted : FlagForm false none

/-- The text is a name of the type, in any case of the ASCII letters. -/
def TypeForm (t : DataType) (text : String) : Prop :=
  ∃ name, (name, t) ∈ DataType.names ∧ text.toList.map Char.toLower = name.toList

/-- The value is a form of the entity. -/
inductive Entity.IsForm (e : Entity) (v : Value) : Prop
  | intro {column flag : Option Value} : TextForm e.name e.idColumn column →
    FlagForm e.isDefault flag →
    v.HasFields [("entity_name", some (.text e.name)), ("entity_id_alias", column),
      ("is_default", flag)] → IsForm e v

/-- The value is a form of the attribute. -/
inductive Attribute.IsForm (a : Attribute) (v : Value) : Prop
  | intro {typeName : String} {column : Option Value} : TypeForm a.dataType typeName →
    TextForm a.name a.source column →
    v.HasFields [("attribute_name", some (.text a.name)), ("data_type", some (.text typeName)),
      ("source_alias", column)] → IsForm a v

/-- The value is a form of the event. -/
inductive Event.IsForm (e : Event) (v : Value) : Prop
  | intro {entities attributes : List Value} : List.Forall₂ Entity.IsForm e.entities entities →
    List.Forall₂ Attribute.IsForm e.attributes attributes →
    v.HasFields [("event_name", some (.text e.name)), ("event_id_alias", some (.text e.idColumn)),
      ("event_timestamp_alias", some (.text e.timestampColumn)),
      ("source_table", some (.text e.table)), ("entities", some (.list entities)),
      ("attributes", some (.list attributes))] → IsForm e v

/-- The value is a form of the events of a file. -/
inductive Catalog.IsForm (events : List Event) (v : Value) : Prop
  | intro {vs : List Value} : List.Forall₂ Event.IsForm events vs →
    v.HasFields [("events", some (.list vs))] → IsForm events v

/-! ## Reading the forms -/

/-- A type is read from any of its names. -/
theorem DataType.ofName?_of_typeForm {t : DataType} {text : String} (h : TypeForm t text) :
    DataType.ofName? text = some t := by
  obtain ⟨name, hname, htext⟩ := h
  have hnames : ∀ n ∈ DataType.names, DataType.names.lookup n.1 = some n.2 := by decide
  rw [ofName?, htext, String.ofList_toList]
  exact hnames _ hname

/-- A column in any of its forms is read back. -/
theorem Value.Fields.optional_of_textForm {default text : String} {field : Option Value}
    (h : TextForm default text field) (fs : Fields) {i : Nat} (hnamed : fs.positional = false)
    (hget : fs.get i = field) :
    ∃ column, fs.optional i = some column ∧ column.getD default = text := by
  rw [optional, hget, hnamed]
  cases h with
  | written => exact ⟨some text, rfl, rfl⟩
  | null heq | omitted heq => exact ⟨none, rfl, heq.symm⟩

theorem Value.Fields.withDefault_of_flagForm {flag : Bool} {field : Option Value}
    (h : FlagForm flag field) (fs : Fields) {i : Nat} (hget : fs.get i = field) :
    fs.withDefault i false Value.asBool? = some flag := by
  rw [withDefault, hget]
  cases h with
  | written | omitted => rfl

namespace CatalogFile

variable (format : DocumentFormat)

/-- A record of an entity is read whether its column and flag are written or not. -/
theorem entity?_of_isForm {e : Entity} {v : Value} (h : e.IsForm v) :
    entity? format v = some e := by
  cases h with
  | @intro column flag hcolumn hflag hfields =>
    let fs : Value.Fields := ⟨false, [some (.text e.name), column, flag]⟩
    have hread : v.fields? format ["entity_name", "entity_id_alias", "is_default"] = some fs :=
      Value.fields?_of_hasFields hfields format
    have hname : fs.required 0 Value.asText? = some e.name := rfl
    obtain ⟨idColumn, hoptional, hdefault⟩ := fs.optional_of_textForm hcolumn (i := 1) rfl rfl
    have hset : fs.withDefault 2 false Value.asBool? = some e.isDefault :=
      fs.withDefault_of_flagForm hflag rfl
    simp only [entity?, hread, hname, hoptional, hset, hdefault, Option.bind_eq_bind,
      Option.bind_some, Option.pure_def]

theorem attribute?_of_isForm {a : Attribute} {v : Value} (h : a.IsForm v) :
    ∃ declared, attribute? format v = some declared ∧
      ∀ event, declared.toAttribute event = .ok a := by
  cases h with
  | @intro typeName column htype hcolumn hfields =>
    let fs : Value.Fields := ⟨false, [some (.text a.name), some (.text typeName), column]⟩
    have hread : v.fields? format ["attribute_name", "data_type", "source_alias"] = some fs :=
      Value.fields?_of_hasFields hfields format
    have hname : fs.required 0 Value.asText? = some a.name := rfl
    have htypeName : fs.required 1 Value.asText? = some typeName := rfl
    obtain ⟨source, hoptional, hdefault⟩ := fs.optional_of_textForm hcolumn (i := 2) rfl rfl
    refine ⟨⟨a.name, typeName, source⟩, ?_, fun event => ?_⟩
    · simp only [attribute?, hread, hname, htypeName, hoptional, Option.bind_eq_bind,
        Option.bind_some, Option.pure_def]
    · rw [DeclaredAttribute.toAttribute, DataType.ofName?_of_typeForm htype]
      simp only [hdefault]

theorem event?_of_isForm {e : Event} {v : Value} (h : e.IsForm v) :
    ∃ declared, event? format v = some declared ∧ declared.toEvent = .ok e := by
  cases h with
  | @intro entities attributes hentities hattributes hfields =>
    let fs : Value.Fields := ⟨false, [some (.text e.name), some (.text e.idColumn),
      some (.text e.timestampColumn), some (.text e.table), some (.list entities),
      some (.list attributes)]⟩
    have hread : v.fields? format ["event_name", "event_id_alias", "event_timestamp_alias",
        "source_table", "entities", "attributes"] = some fs :=
      Value.fields?_of_hasFields hfields format
    obtain ⟨xs, hxs, hsame⟩ := Value.asList?_of_forall₂ (R := (· = ·))
      (hentities.imp fun x v hv => ⟨x, entity?_of_isForm format hv, rfl⟩)
    obtain ⟨declared, hdeclared, htypes⟩ := Value.asList?_of_forall₂
      (hattributes.imp fun a v hv => attribute?_of_isForm format hv)
    rw [List.forall₂_eq_eq_eq] at hsame
    subst hsame
    have hname : fs.required 0 Value.asText? = some e.name := rfl
    have hid : fs.required 1 Value.asText? = some e.idColumn := rfl
    have htimestamp : fs.required 2 Value.asText? = some e.timestampColumn := rfl
    have htable : fs.required 3 Value.asText? = some e.table := rfl
    have hentities : fs.withDefault 4 [] (Value.asList? (entity? format)) = some e.entities := hxs
    have hattributes : fs.withDefault 5 [] (Value.asList? (attribute? format)) = some declared :=
      hdeclared
    refine ⟨⟨e.name, e.idColumn, e.timestampColumn, e.table, e.entities, declared⟩, ?_, ?_⟩
    · simp only [event?, hread, hname, hid, htimestamp, htable, hentities, hattributes,
        Option.bind_eq_bind, Option.bind_some, Option.pure_def]
    · have hmap : declared.mapM (·.toAttribute e.name) = .ok e.attributes :=
        mapM_eq_ok_iff.mpr (htypes.flip.imp fun a d hd => hd e.name)
      rw [DeclaredEvent.toEvent, hmap]
      rfl

/-- The events of a document are read in order. -/
theorem events?_of_isForm {events : List Event} {v : Value} (h : Catalog.IsForm events v) :
    ∃ declared, events? format v = some declared ∧
      declared.mapM DeclaredEvent.toEvent = .ok events := by
  cases h with
  | @intro vs hevents hfields =>
    let fs : Value.Fields := ⟨false, [some (.list vs)]⟩
    have hread : v.fields? format ["events"] = some fs :=
      Value.fields?_of_hasFields hfields format
    obtain ⟨declared, hdeclared, hall⟩ := Value.asList?_of_forall₂
      (hevents.imp fun e v hv => event?_of_isForm format hv)
    have hlist : fs.withDefault 0 [] (Value.asList? (event? format)) = some declared := hdeclared
    refine ⟨declared, ?_, mapM_eq_ok_iff.mpr hall.flip⟩
    simp only [events?, hread, hlist, Option.bind_eq_bind, Option.bind_some]

end CatalogFile

/-! ## The written form -/

theorem DataType.typeForm_text (t : DataType) : TypeForm t t.text := by
  have hnames : ∀ t ∈ DataType.all, (t.text, t) ∈ DataType.names ∧
      t.text.toList.map Char.toLower = t.text.toList := by decide
  obtain ⟨hname, hsmall⟩ := hnames t (by cases t <;> decide)
  exact ⟨t.text, hname, hsmall⟩

theorem Entity.isForm_toValue (e : Entity) : e.IsForm e.toValue :=
  .intro .written (.written e.isDefault) ⟨_, rfl, by simp⟩

theorem Attribute.isForm_toValue (a : Attribute) : a.IsForm a.toValue :=
  .intro a.dataType.typeForm_text .written ⟨_, rfl, by simp⟩

theorem forall₂_map_self {α β : Type} {R : α → β → Prop} {f : α → β} (h : ∀ x, R x (f x))
    (xs : List α) : List.Forall₂ R xs (xs.map f) := by
  rw [List.forall₂_map_right_iff, List.forall₂_same]
  exact fun x _ => h x

theorem Event.isForm_toValue (e : Event) : e.IsForm e.toValue :=
  .intro (forall₂_map_self Entity.isForm_toValue e.entities)
    (forall₂_map_self Attribute.isForm_toValue e.attributes) ⟨_, rfl, by simp⟩

namespace Catalog

/-- The document of events in their written form. -/
def document (events : List Event) : Value :=
  .record [("events", .list (events.map (·.toValue)))]

/-- The document that is written of a list of events is one of its forms. -/
theorem isForm_document (events : List Event) : IsForm events (document events) :=
  .intro (forall₂_map_self Event.isForm_toValue events) ⟨_, rfl, by simp⟩

/-- A form of a catalog's events is read as the catalog. -/
theorem ofValue_of_isForm {events : List Event} {v : Value} (h : IsForm events v)
    (format : DocumentFormat) : ofValue format v = ofEvents events := by
  obtain ⟨declared, hdeclared, hevents⟩ := CatalogFile.events?_of_isForm format h
  rw [ofValue, hdeclared]
  change (declared.mapM DeclaredEvent.toEvent >>= ofEvents) = _
  rw [hevents, ok_bind]

/-- **A catalog file is read back as it was written.** The document of a catalog's events is one of
the forms of these events, and every form of them, whatever is left out of it or added to it, is
read as the catalog: the same events in the same order. -/
theorem catalog_read_back {events : List Event} {c : Catalog} (hc : ofEvents events = .ok c)
    (format : DocumentFormat) :
    IsForm events (document events) ∧ ∀ v, IsForm events v →
      ofValue format v = .ok c ∧ c.events = events ∧
      ∀ text, parseDocument format text = some v → parse format text = .ok c := by
  refine ⟨isForm_document events, fun v hv => ?_⟩
  have hread : ofValue format v = .ok c := (ofValue_of_isForm hv format).trans hc
  refine ⟨hread, events_of_ofEvents hc, fun text htext => ?_⟩
  rw [parse, htext]
  exact hread

def cart : Event :=
  ⟨"cart", "id", "at", [⟨"user", "user", false⟩], [⟨"items", .integer, "items"⟩], "carts"⟩

/-- A form with fields of its own, from which is left out what can be. -/
def looseCart : Value :=
  .record [("note", .null), ("source_table", .text "carts"), ("event_timestamp_alias", .text "at"),
    ("event_id_alias", .text "id"), ("event_name", .text "cart"),
    ("attributes", .list [.record [("data_type", .text "INT"), ("unit", .text "pieces"),
      ("attribute_name", .text "items")]]),
    ("entities", .list [.record [("entity_name", .text "user"), ("entity_id_alias", .null)]])]

theorem looseCart_read_back :
    ∃ c, ofEvents [cart] = .ok c ∧
      ofValue .json (.record [("version", .number "2"), ("events", .list [looseCart])]) = .ok c ∧
      c.events = [cart] := by
  obtain ⟨c, hc⟩ : ∃ c, ofEvents [cart] = .ok c := ⟨_, rfl⟩
  have hentity : Entity.IsForm ⟨"user", "user", false⟩
      (.record [("entity_name", .text "user"), ("entity_id_alias", .null)]) :=
    .intro (.null rfl) .omitted ⟨_, rfl, by simp⟩
  have htype : TypeForm .integer "INT" := ⟨"int", by decide, by decide⟩
  have hattribute : Attribute.IsForm ⟨"items", .integer, "items"⟩
      (.record [("data_type", .text "INT"), ("unit", .text "pieces"),
        ("attribute_name", .text "items")]) :=
    .intro htype (.omitted rfl) ⟨_, rfl, by simp⟩
  have hcart : Event.IsForm cart looseCart :=
    .intro (.cons hentity .nil) (.cons hattribute .nil) ⟨_, rfl, by simp [cart]⟩
  have hform : IsForm [cart]
      (.record [("version", .number "2"), ("events", .list [looseCart])]) :=
    .intro (.cons hcart .nil) ⟨_, rfl, by simp⟩
  have hread := (catalog_read_back hc .json).2 _ hform
  exact ⟨c, hc, hread.1, hread.2.1⟩

end Catalog

end EventQuery
