import EventQuery.Catalog.Basic
import EventQuery.Proofs.Outcome

/-! The index of a catalog. While events are added, it leads from the name of every event added so
far to its place, and to nothing else; so a catalog that was built from a list finds the events of
that list by their names. -/

namespace EventQuery.Catalog

open Outcome

/-- The index leads from the name of every event to the place of that event. -/
def Indexes (index : Std.TreeMap String Nat) (events : List Event) : Prop :=
  ∀ (name : String) (i : Nat), index[name]? = some i ↔ ∃ e, events[i]? = some e ∧ e.name = name

theorem indexes_nil : Indexes ∅ [] := by
  intro name i
  simp

theorem Indexes.concat {index : Std.TreeMap String Nat} {events : List Event} {e : Event}
    (h : Indexes index events) (hnew : index.contains e.name = false) :
    Indexes (index.insert e.name events.length) (events ++ [e]) := by
  intro name i
  have hplace (d : Event) : (events ++ [e])[i]? = some d ↔
      events[i]? = some d ∨ i = events.length ∧ d = e := by
    grind
  simp only [hplace, Std.TreeMap.getElem?_insert]
  by_cases hname : e.name = name
  · rw [if_pos (Std.compare_eq_iff_eq.mpr hname)]
    constructor
    · intro hi
      exact ⟨e, .inr ⟨(Option.some.inj hi).symm, rfl⟩, hname⟩
    · intro ⟨d, hd, hdname⟩
      rcases hd with hd | ⟨rfl, -⟩
      · -- The name would have been in the index before.
        have hold : index[e.name]? = some i := (h e.name i).mpr ⟨d, hd, hdname.trans hname.symm⟩
        rw [Std.TreeMap.contains_eq_isSome_getElem?, hold] at hnew
        cases hnew
      · rfl
  · rw [if_neg (fun heq => hname (Std.compare_eq_iff_eq.mp heq)), h name i]
    constructor
    · intro ⟨d, hd, hdname⟩
      exact ⟨d, .inl hd, hdname⟩
    · intro ⟨d, hd, hdname⟩
      rcases hd with hd | ⟨-, rfl⟩
      · exact ⟨d, hd, hdname⟩
      · exact absurd hdname hname

theorem Indexes.extendIndex {index result : Std.TreeMap String Nat} {before events : List Event}
    (h : Indexes index before)
    (hresult : Catalog.extendIndex index before.length events = .ok result) :
    Indexes result (before ++ events) := by
  induction events generalizing index before with
  | nil =>
    cases hresult
    rwa [List.append_nil]
  | cons e es ih =>
    obtain ⟨-, hresult⟩ := seq_eq_ok_iff.mp hresult
    split at hresult
    · cases hresult
    · next hnew =>
      have hnext := h.concat (Bool.eq_false_iff.mpr hnew)
      rw [← List.singleton_append, ← List.append_assoc]
      apply ih hnext
      rwa [List.length_append]

theorem events_of_ofEvents {events : List Event} {c : Catalog} (h : ofEvents events = .ok c) :
    c.events = events := by
  obtain ⟨index, -, hc⟩ := bind_eq_ok_iff.mp h
  rw [← pure_eq_ok_iff.mp hc]

theorem indexes_of_ofEvents {events : List Event} {c : Catalog} (h : ofEvents events = .ok c) :
    Indexes c.index events := by
  obtain ⟨index, hindex, hc⟩ := bind_eq_ok_iff.mp h
  rw [← pure_eq_ok_iff.mp hc]
  exact List.nil_append events ▸ indexes_nil.extendIndex hindex

/-- A catalog finds the events it was built from, each by its name. -/
theorem find?_eq_some_iff {events : List Event} {c : Catalog} (h : ofEvents events = .ok c)
    {name : String} {e : Event} : c.find? name = some e ↔ e ∈ events ∧ e.name = name := by
  have hindexes := indexes_of_ofEvents h
  rw [find?, Option.bind_eq_some_iff, events_of_ofEvents h]
  constructor
  · intro ⟨i, hi, he⟩
    obtain ⟨d, hd, hname⟩ := (hindexes name i).mp hi
    rw [he] at hd
    cases hd
    exact ⟨List.mem_of_getElem? he, hname⟩
  · intro ⟨he, hname⟩
    obtain ⟨i, hi⟩ := List.mem_iff_getElem?.mp he
    exact ⟨i, (hindexes name i).mpr ⟨e, hi, hname⟩, hi⟩

/-! ## Names that are found -/

/-- The catalogs that there are: built from a list of events, with or without checking them. -/
inductive IsBuilt : Catalog → Prop
  | ofEvents {events : List Event} {c : Catalog} : ofEvents events = .ok c → IsBuilt c
  | unchecked (events : List Event) : IsBuilt (unchecked events)

/-- An index that places are added to leads to these only by the names of their events. -/
theorem getElem?_foldl_insertIfNew {places : List (Event × Nat)}
    {index : Std.TreeMap String Nat} {name : String} {i : Nat}
    (h : (places.foldl (fun index (e, place) => index.insertIfNew e.name place) index)[name]? =
      some i) : index[name]? = some i ∨ ∃ e, (e, i) ∈ places ∧ e.name = name := by
  induction places generalizing index with
  | nil => exact .inl h
  | cons x places ih =>
    obtain ⟨e, place⟩ := x
    rcases ih h with hindex | ⟨d, hd, hname⟩
    · rw [Std.TreeMap.getElem?_insertIfNew] at hindex
      split at hindex
      · next hnew =>
        cases hindex
        exact .inr ⟨e, List.mem_cons_self, Std.compare_eq_iff_eq.mp hnew.1⟩
      · exact .inl hindex
    · exact .inr ⟨d, List.mem_cons_of_mem _ hd, hname⟩

theorem name_of_find?_unchecked {events : List Event} {name : String} {e : Event}
    (h : (unchecked events).find? name = some e) : e.name = name := by
  obtain ⟨i, hindex, he⟩ := Option.bind_eq_some_iff.mp h
  rcases getElem?_foldl_insertIfNew hindex with hempty | ⟨d, hd, hname⟩
  · rw [Std.TreeMap.getElem?_emptyc] at hempty
    cases hempty
  · obtain rfl : d = e := Option.some.inj ((List.mem_zipIdx_iff_getElem?.mp hd).symm.trans he)
    exact hname

/-- Every name that a catalog finds is listed. -/
theorem IsBuilt.mem_eventNames {c : Catalog} (hc : c.IsBuilt) {name : String} {e : Event}
    (h : c.find? name = some e) : name ∈ c.eventNames := by
  have hname : e.name = name := by
    cases hc with
    | ofEvents hevents => exact ((find?_eq_some_iff hevents).mp h).2
    | unchecked events => exact name_of_find?_unchecked h
  obtain ⟨i, -, hi⟩ := Option.bind_eq_some_iff.mp h
  exact List.mem_map.mpr ⟨e, List.mem_of_getElem? hi, hname⟩

end EventQuery.Catalog
