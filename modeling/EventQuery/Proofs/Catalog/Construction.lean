import EventQuery.Proofs.Catalog.Lookup
import Mathlib.Data.List.Nodup

/-! The construction of catalogs. Event after event is added to the index (`Indexes.add`), up to the
first one that breaks a rule (`Indexes.extendIndex_of_breaks`), and every list of events is
consistent or has such an event (`consistent_or_breaks`). So a catalog is built exactly from a
consistent list, it finds an event where a search through the list does, and every other list has
the fault of its first event that breaks a rule. -/

namespace EventQuery

open Outcome

/-! ## The check of an event -/

/-- At least one entity, and at most one default among them. -/
structure Event.IsSound (e : Event) : Prop where
  entities : e.entities ≠ []
  defaults : (e.entities.filter (·.isDefault)).length ≤ 1

/-- What is wrong with the entities of an event: there are none, or there are several defaults, of
which the first two are named. -/
inductive EntityFault (event : String) (entities : List Entity) : CatalogError → Prop
  | noEntities : entities = [] → EntityFault event entities (.noEntities event)
  | multipleDefaults {before between after : List Entity} {first second : Entity} :
    entities = before ++ first :: (between ++ second :: after) →
    (∀ x ∈ before ++ between, x.isDefault = false) → first.isDefault = true →
    second.isDefault = true →
    EntityFault event entities (.multipleDefaults event first.name second.name)

theorem Event.check_of_isSound {e : Event} (h : e.IsSound) : e.check = .ok () := by
  have hdefaults := h.defaults
  rw [check]
  split
  · next hnil => exact absurd hnil h.entities
  · next hfilter _ =>
    rw [hfilter] at hdefaults
    simp at hdefaults
  · rfl

theorem Event.check_of_entityFault {e : Event} {err : CatalogError}
    (h : EntityFault e.name e.entities err) : e.check = .error err := by
  cases h with
  | noEntities hnil => rw [check, hnil]
  | @multipleDefaults before between after first second hentities hbefore hfirst hsecond =>
    have hnone {xs : List Entity} (hxs : ∀ x ∈ xs, x ∈ before ++ between) :
        xs.filter (·.isDefault) = [] := by
      rw [List.filter_eq_nil_iff]
      intro x hx
      rw [hbefore x (hxs x hx)]
      exact Bool.false_ne_true
    have hfilter : e.entities.filter (·.isDefault) =
        first :: second :: after.filter (·.isDefault) := by
      rw [hentities, List.filter_append, List.filter_cons_of_pos hfirst, List.filter_append,
        List.filter_cons_of_pos hsecond, hnone fun x => List.mem_append_left _,
        hnone fun x => List.mem_append_right _]
      rfl
    rw [check, hfilter]
    split
    · next hnil =>
      rw [hnil] at hentities
      simp at hentities
    · next hdefaults _ =>
      cases hdefaults
      rfl
    · next hother => exact absurd rfl (hother first second _)

/-- An event is sound or has a fault. -/
theorem Event.isSound_or_entityFault (e : Event) :
    e.IsSound ∨ ∃ err, EntityFault e.name e.entities err := by
  by_cases hnil : e.entities = []
  · exact .inr ⟨_, .noEntities hnil⟩
  · cases hfilter : e.entities.filter (·.isDefault) with
    | nil => exact .inl ⟨hnil, by simp [hfilter]⟩
    | cons first more =>
      obtain ⟨before, rest, hentities, hbefore, hfirst, hmore⟩ := List.filter_eq_cons_iff.mp hfilter
      cases more with
      | nil => exact .inl ⟨hnil, by simp [hfilter]⟩
      | cons second more =>
        obtain ⟨between, after, rfl, hbetween, hsecond, -⟩ := List.filter_eq_cons_iff.mp hmore
        refine .inr ⟨_, .multipleDefaults hentities (fun x hx => ?_) hfirst hsecond⟩
        rcases List.mem_append.mp hx with hx | hx
        · exact Bool.eq_false_iff.mpr (hbefore x hx)
        · exact Bool.eq_false_iff.mpr (hbetween x hx)

theorem Event.check_eq_ok_iff {e : Event} : e.check = .ok () ↔ e.IsSound := by
  refine ⟨fun h => ?_, check_of_isSound⟩
  rcases e.isSound_or_entityFault with hsound | ⟨err, hfault⟩
  · exact hsound
  · rw [check_of_entityFault hfault] at h
    cases h

theorem Event.check_eq_error_iff {e : Event} {err : CatalogError} :
    e.check = .error err ↔ EntityFault e.name e.entities err := by
  refine ⟨fun h => ?_, check_of_entityFault⟩
  rcases e.isSound_or_entityFault with hsound | ⟨err', hfault⟩
  · rw [check_of_isSound hsound] at h
    cases h
  · rw [check_of_entityFault hfault] at h
    cases h
    exact hfault

namespace Catalog

/-! ## Lists of events -/

/-- The events are each sound and have different names. -/
structure Consistent (events : List Event) : Prop where
  sound : ∀ e ∈ events, e.IsSound
  distinct : (events.map (·.name)).Nodup

/-- What is wrong with an event behind others. Its entities come before its name. -/
inductive Breaks (before : List Event) (e : Event) : CatalogError → Prop
  | entities {err : CatalogError} : EntityFault e.name e.entities err → Breaks before e err
  | duplicate : e.IsSound → e.name ∈ before.map (·.name) → Breaks before e (.duplicateEvent e.name)

theorem consistent_nil : Consistent [] := ⟨nofun, List.nodup_nil⟩

theorem consistent_concat_iff {before : List Event} {e : Event} :
    Consistent (before ++ [e]) ↔
      Consistent before ∧ e.IsSound ∧ e.name ∉ before.map (·.name) := by
  have hnames : ((before ++ [e]).map (·.name)).Nodup ↔
      (before.map (·.name)).Nodup ∧ e.name ∉ before.map (·.name) := by
    rw [List.map_append, List.map_singleton, List.nodup_append_comm, List.singleton_append,
      List.nodup_cons, and_comm]
  constructor
  · intro h
    obtain ⟨hdistinct, hnew⟩ := hnames.mp h.distinct
    exact ⟨⟨fun d hd => h.sound d (List.mem_append_left _ hd), hdistinct⟩,
      h.sound e (List.mem_append_right _ (List.mem_singleton_self e)), hnew⟩
  · intro ⟨hbefore, hsound, hnew⟩
    refine ⟨fun d hd => ?_, hnames.mpr ⟨hbefore.distinct, hnew⟩⟩
    rcases List.mem_append.mp hd with hd | hd
    · exact hbefore.sound d hd
    · rw [List.mem_singleton.mp hd]
      exact hsound

theorem Consistent.of_append {before after : List Event} (h : Consistent (before ++ after)) :
    Consistent before := by
  refine ⟨fun e he => h.sound e (List.mem_append_left _ he), ?_⟩
  have hdistinct := h.distinct
  rw [List.map_append] at hdistinct
  exact List.Nodup.of_append_left hdistinct

/-- Behind consistent events, the next one breaks a rule or the list stays consistent. -/
theorem consistent_concat_or_breaks {before : List Event} (h : Consistent before) (e : Event) :
    Consistent (before ++ [e]) ∨ ∃ err, Breaks before e err := by
  rcases e.isSound_or_entityFault with hsound | ⟨err, hfault⟩
  · by_cases hname : e.name ∈ before.map (·.name)
    · exact .inr ⟨_, .duplicate hsound hname⟩
    · exact .inl (consistent_concat_iff.mpr ⟨h, hsound, hname⟩)
  · exact .inr ⟨err, .entities hfault⟩

theorem consistent_append_or_breaks {before : List Event} (h : Consistent before)
    (events : List Event) :
    Consistent (before ++ events) ∨ ∃ accepted e after err, events = accepted ++ e :: after ∧
      Consistent (before ++ accepted) ∧ Breaks (before ++ accepted) e err := by
  induction events generalizing before with
  | nil => exact .inl (by rwa [List.append_nil])
  | cons e events ih =>
    -- An event that keeps the rules joins the front: its name counts for those behind it.
    rcases consistent_concat_or_breaks h e with hnext | ⟨err, hbreaks⟩
    · rw [List.append_cons]
      rcases ih hnext with hall | ⟨accepted, d, after, err, rfl, haccepted, hbreaks⟩
      · exact .inl hall
      · rw [← List.append_cons] at haccepted hbreaks
        exact .inr ⟨e :: accepted, d, after, err, rfl, haccepted, hbreaks⟩
    · refine .inr ⟨[], e, events, err, rfl, ?_, ?_⟩
      · rwa [List.append_nil]
      · rwa [List.append_nil]

/-- A list of events is consistent, or has a first event that breaks a rule. -/
theorem consistent_or_breaks (events : List Event) :
    Consistent events ∨ ∃ before e after err, events = before ++ e :: after ∧
      Consistent before ∧ Breaks before e err := by
  have h := consistent_append_or_breaks consistent_nil events
  simpa only [List.nil_append] using h

/-! ## The index, event after event -/

theorem Indexes.contains_iff {index : Std.TreeMap String Nat} {before : List Event}
    (h : Indexes index before) {name : String} :
    index.contains name = true ↔ name ∈ before.map (·.name) := by
  rw [Std.TreeMap.contains_eq_isSome_getElem?, Option.isSome_iff_exists, List.mem_map]
  constructor
  · intro ⟨i, hi⟩
    obtain ⟨e, he, hname⟩ := (h name i).mp hi
    exact ⟨e, List.mem_of_getElem? he, hname⟩
  · intro ⟨e, he, hname⟩
    obtain ⟨i, hi⟩ := List.mem_iff_getElem?.mp he
    exact ⟨i, (h name i).mpr ⟨e, hi, hname⟩⟩

/-- An event that keeps the rules is added. -/
theorem Indexes.add {index : Std.TreeMap String Nat} {before : List Event} {e : Event}
    (h : Indexes index before) (hnext : Consistent (before ++ [e])) (events : List Event) :
    Indexes (index.insert e.name before.length) (before ++ [e]) ∧
      Catalog.extendIndex index before.length (e :: events) =
        Catalog.extendIndex (index.insert e.name before.length) (before ++ [e]).length events := by
  obtain ⟨-, hsound, hname⟩ := consistent_concat_iff.mp hnext
  have hnew : index.contains e.name = false := by
    rw [Bool.eq_false_iff, ne_eq, h.contains_iff]
    exact hname
  refine ⟨h.concat hnew, ?_⟩
  rw [Catalog.extendIndex, Event.check_of_isSound hsound, ok_bind, hnew, List.length_append]
  rfl

/-- An event that breaks a rule ends the construction. -/
theorem Indexes.extendIndex_of_breaks {index : Std.TreeMap String Nat} {before : List Event}
    {e : Event} {err : CatalogError} (h : Indexes index before) (hbreaks : Breaks before e err)
    (events : List Event) :
    Catalog.extendIndex index before.length (e :: events) = .error err := by
  rw [Catalog.extendIndex]
  cases hbreaks with
  | entities hfault =>
    rw [Event.check_of_entityFault hfault]
    rfl
  | duplicate hsound hname =>
    rw [Event.check_of_isSound hsound, ok_bind, if_pos (h.contains_iff.mpr hname)]

/-- Consistent events are added one after the other. -/
theorem Indexes.addAll {index : Std.TreeMap String Nat} {before accepted : List Event}
    (h : Indexes index before) (haccepted : Consistent (before ++ accepted)) :
    ∃ result, Indexes result (before ++ accepted) ∧ ∀ events,
      Catalog.extendIndex index before.length (accepted ++ events) =
        Catalog.extendIndex result (before ++ accepted).length events := by
  induction accepted generalizing index before with
  | nil =>
    refine ⟨index, ?_, fun events => ?_⟩
    · rwa [List.append_nil]
    · rw [List.append_nil, List.nil_append]
  | cons e accepted ih =>
    rw [List.append_cons] at haccepted ⊢
    obtain ⟨result, hresult, hrest⟩ := ih (h.add haccepted.of_append []).1 haccepted
    refine ⟨result, hresult, fun events => ?_⟩
    rw [List.cons_append, (h.add haccepted.of_append _).2, hrest]

theorem ofEvents_of_consistent {events : List Event} (h : Consistent events) :
    ∃ c, ofEvents events = .ok c := by
  obtain ⟨index, -, hindex⟩ := indexes_nil.addAll h
  refine ⟨⟨events, index⟩, ?_⟩
  have hall := hindex []
  rw [List.append_nil] at hall
  rw [ofEvents, show extendIndex ∅ 0 events = .ok index from hall]
  rfl

theorem ofEvents_of_breaks {before after : List Event} {e : Event} {err : CatalogError}
    (h : Consistent before) (hbreaks : Breaks before e err) :
    ofEvents (before ++ e :: after) = .error err := by
  obtain ⟨index, hindexes, hindex⟩ := indexes_nil.addAll h
  have hfails := hindex (e :: after)
  rw [hindexes.extendIndex_of_breaks hbreaks] at hfails
  rw [ofEvents, show extendIndex ∅ 0 (before ++ e :: after) = .error err from hfails]
  rfl

theorem exists_ofEvents_iff {events : List Event} :
    (∃ c, ofEvents events = .ok c) ↔ Consistent events := by
  refine ⟨fun ⟨c, hc⟩ => ?_, ofEvents_of_consistent⟩
  rcases consistent_or_breaks events with hall | ⟨before, e, after, err, rfl, h⟩
  · exact hall
  · rw [ofEvents_of_breaks h.1 h.2] at hc
    cases hc

theorem ofEvents_eq_error_iff {events : List Event} {err : CatalogError} :
    ofEvents events = .error err ↔ ∃ before e after, events = before ++ e :: after ∧
      Consistent before ∧ Breaks before e err := by
  constructor
  · intro hc
    rcases consistent_or_breaks events with hall | ⟨before, e, after, err', rfl, h⟩
    · obtain ⟨c, hok⟩ := ofEvents_of_consistent hall
      rw [hc] at hok
      cases hok
    · rw [ofEvents_of_breaks h.1 h.2] at hc
      cases hc
      exact ⟨before, e, after, rfl, h⟩
  · intro ⟨before, e, after, hevents, hbefore, hbreaks⟩
    rw [hevents, ofEvents_of_breaks hbefore hbreaks]

/-- The index leads where a search through the list of events does. -/
theorem find?_eq_find? {events : List Event} {c : Catalog} (h : ofEvents events = .ok c)
    (name : String) : c.find? name = events.find? (·.name == name) := by
  cases hlist : events.find? (·.name == name) with
  | none =>
    rw [List.find?_eq_none] at hlist
    rw [Option.eq_none_iff_forall_ne_some]
    intro e he
    obtain ⟨hmem, hname⟩ := (find?_eq_some_iff h).mp he
    exact hlist e hmem (beq_iff_eq.mpr hname)
  | some e =>
    have hname := List.find?_some hlist
    exact (find?_eq_some_iff h).mpr ⟨List.mem_of_find?_eq_some hlist, beq_iff_eq.mp hname⟩

theorem isSome_find?_iff {events : List Event} {c : Catalog} (h : ofEvents events = .ok c)
    {name : String} : (c.find? name).isSome ↔ name ∈ c.eventNames := by
  rw [Option.isSome_iff_exists, eventNames, List.mem_map, events_of_ofEvents h]
  exact exists_congr fun e => find?_eq_some_iff h

/-- **Catalogs are built from consistent lists of events, and find what the lists hold.** A list is
refused for the first event that breaks a rule, and for its entities before its name. A catalog has
the events and the names of its list in their order, and finds by a name what a search through the
list finds, so exactly the names that it lists. -/
theorem catalog_built_and_searched (events : List Event) :
    ((∃ c, ofEvents events = .ok c) ↔
      (∀ e ∈ events, e.IsSound) ∧ (events.map (·.name)).Nodup) ∧
    (∀ err, ofEvents events = .error err ↔ ∃ before e after, events = before ++ e :: after ∧
      Consistent before ∧ Breaks before e err) ∧
    ∀ c, ofEvents events = .ok c →
      c.events = events ∧ c.eventNames = events.map (·.name) ∧
      ∀ name, c.find? name = events.find? (·.name == name) ∧
        ((c.find? name).isSome ↔ name ∈ c.eventNames) := by
  refine ⟨?_, fun err => ofEvents_eq_error_iff, fun c hc => ?_⟩
  · rw [exists_ofEvents_iff]
    exact ⟨fun h => ⟨h.sound, h.distinct⟩, fun h => ⟨h.1, h.2⟩⟩
  · refine ⟨events_of_ofEvents hc, ?_, fun name => ⟨find?_eq_find? hc name, isSome_find?_iff hc⟩⟩
    rw [eventNames, events_of_ofEvents hc]

def soundVisit : Event := ⟨"visit", "id", "at", [⟨"user", "user_id", true⟩], [], "visits"⟩

/-- A second event of the same name, with two defaults. -/
def doubleVisit : Event :=
  ⟨"visit", "id", "at",
    [⟨"shop", "shop", false⟩, ⟨"user", "user_id", true⟩, ⟨"site", "site", false⟩,
      ⟨"device", "device", true⟩],
    [], "visits"⟩

theorem doubleVisit_refused_for_defaults :
    ofEvents [soundVisit, doubleVisit] = .error (.multipleDefaults "visit" "user" "device") ∧
      ∃ c, ofEvents [soundVisit] = .ok c ∧ c.find? "visit" = some soundVisit := by
  have hsound : soundVisit.IsSound := ⟨by decide, by decide⟩
  have hfault :
      EntityFault "visit" doubleVisit.entities (.multipleDefaults "visit" "user" "device") :=
    @EntityFault.multipleDefaults _ _ [⟨"shop", "shop", false⟩] [⟨"site", "site", false⟩] []
      ⟨"user", "user_id", true⟩ ⟨"device", "device", true⟩ rfl (by decide) rfl rfl
  have hone := catalog_built_and_searched [soundVisit]
  refine ⟨?_, ?_⟩
  · apply ((catalog_built_and_searched [soundVisit, doubleVisit]).2.1 _).mpr
    refine ⟨[soundVisit], doubleVisit, [], rfl, ⟨?_, by decide⟩, .entities hfault⟩
    intro e he
    rw [List.mem_singleton.mp he]
    exact hsound
  · obtain ⟨c, hc⟩ := hone.1.mpr ⟨fun e he => List.mem_singleton.mp he ▸ hsound, by decide⟩
    exact ⟨c, hc, ((hone.2.2 c hc).2.2 "visit").1.trans (by decide)⟩

end Catalog

end EventQuery
