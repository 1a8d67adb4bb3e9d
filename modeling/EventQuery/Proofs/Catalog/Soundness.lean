import EventQuery.Catalog.Basic
import EventQuery.Proofs.Outcome

/-! What is known of the events of a catalog: an event that is looked up is one of its events, and
the events of a catalog that was built from a list have each passed their check. -/

namespace EventQuery

open Outcome

/-- An event without entities does not pass its check. -/
theorem Event.entities_ne_nil_of_check {e : Event} (h : e.check = .ok ()) : e.entities ≠ [] := by
  intro hnil
  unfold Event.check at h
  rw [hnil] at h
  cases h

theorem Event.partitionEntity?_isSome {e : Event} (h : e.entities ≠ []) :
    e.partitionEntity?.isSome := by
  unfold Event.partitionEntity?
  cases e.defaultEntity? with
  | some d => rfl
  | none =>
    obtain ⟨x, xs, hx⟩ := List.exists_cons_of_ne_nil h
    simp [hx]

namespace Catalog

/-- The index of a catalog only leads to events of the catalog. -/
theorem mem_of_find? {c : Catalog} {name : String} {e : Event} (h : c.find? name = some e) :
    e ∈ c.events := by
  obtain ⟨i, -, hi⟩ := Option.bind_eq_some_iff.mp h
  exact List.mem_of_getElem? hi

theorem check_of_extendIndex {index result : Std.TreeMap String Nat} {place : Nat}
    {events : List Event} (h : extendIndex index place events = .ok result) :
    ∀ e ∈ events, e.check = .ok () := by
  induction events generalizing index place with
  | nil => exact nofun
  | cons x xs ih =>
    obtain ⟨hx, h⟩ := seq_eq_ok_iff.mp h
    split at h
    · cases h
    · intro e he
      rcases List.mem_cons.mp he with rfl | he
      · exact hx
      · exact ih h e he

/-- Every event of a catalog that could be built has passed its check, so that what follows from the
check holds of each event a name finds. -/
theorem check_of_ofEvents {events : List Event} {c : Catalog} (h : ofEvents events = .ok c) :
    ∀ e ∈ c.events, e.check = .ok () := by
  obtain ⟨index, hi, hc⟩ := bind_eq_ok_iff.mp h
  rw [← pure_eq_ok_iff.mp hc]
  exact check_of_extendIndex hi

end Catalog

end EventQuery
